import EspMiplay.Dlna.Metadata
import EspMiplay.Lib.Transition

/-!
# Covers

The cover of a track is fetched by a worker (`album_art_task`) from a queue of length
one. Whoever changes the track is to advance the generation (`s_album_art_gen`), which
the worker reads when it has taken a request and compares twice before it decodes.

The UI task works off what an event of the phone asks for with the LVGL lock held, and
the HTTP task what `cb_set_metadata` asks for, where only the clearing takes the lock.
Their accesses to the queue and to the generation are steps of their own; so is the
reading and the writing of `s_album_art_gen++`.

A track changes when its first operation advances the generation or clears the cover;
`cb_next` changes it without either. A request carries the track it was made for.

## Results

* `CoverInv.step`     — what the worker has compared, it may show.
* `cover_along`       — only covers of the current track are shown, along every run that
  changes no track behind the worker's back.
* `decoded_too_late`  — a track that changes while the cover is decoded.
-/

namespace EspMiplay.Dlna

open Transition
open EspMiplay.Miplay (Bytes MediaEvent ascii cstr peek strchr)

/-- What is queued; the ghost is the track it was requested for. -/
structure Cover where
  url : Bytes
  track : Nat
  deriving DecidableEq

/-! ## What has to be done for a track -/

/-- An access of the UI task or of the HTTP task. `newTrack` marks the one that changes
the track. -/
inductive CoverOp where
  /-- `s_album_art_gen++` is read, for the request of a cover or for itself -/
  | load (newTrack : Bool) (url : Option Bytes)
  | store (gen : Nat) (newTrack : Bool) (url : Option Bytes)
  /-- `fetch_album_art_async` takes what is queued -/
  | dropStale
  | send (cover : Cover)
  | clear (newTrack : Bool)
  deriving DecidableEq

def coverOps : Bool → List UiOp → List CoverOp
  | _, [] => []
  | newTrack, .nextAlbumArt :: ops => .load newTrack none :: coverOps false ops
  | newTrack, .fetchAlbumArt url :: ops => .dropStale :: .load newTrack (some url) :: coverOps false ops
  | newTrack, .clearCover :: ops => .clear newTrack :: coverOps false ops
  | newTrack, _ :: ops => coverOps newTrack ops

/-- The URL of the cover in `cb_set_metadata`, with the small size asked for. -/
def albumArtUrl (metadata : Bytes) : Bytes :=
  let albumArt := cstr ((extractTag 256 metadata (ascii "upnp:albumArtURI")).getD [])
  if strchr 0x3F albumArt = none then
    albumArt ++ (ascii "?param=300y300").take (255 - albumArt.length)
  else albumArt

/-- What `cb_set_metadata` asks for, with the title and the artist displayed before. -/
def metadataOps (netease : Bool) (curTitle curArtist metadata : Bytes) : List UiOp :=
  let texts := extractTexts metadata
  let albumArt := cstr ((extractTag 256 metadata (ascii "upnp:albumArtURI")).getD [])
  (if albumArt ≠ [] ∧ netease then [.fetchAlbumArt (albumArtUrl metadata)] else []) ++
    if texts.title ≠ [] ∧ (texts.title ≠ curTitle ∨ texts.artist ≠ curArtist) then
      [.clearCover, .setTitle (decoded 128 texts.title), .setArtist (decoded 128 texts.artist),
        .lyricsFetch (decoded 128 texts.title) (decoded 128 texts.artist)
          (if netease then texts.musicId else 0)]
    else []

/-! ## The worker -/

inductive Worker where
  | idle
  /-- a request has been taken -/
  | taken (cover : Cover)
  /-- the generation has been read; for a second the worker waits -/
  | waiting (cover : Cover) (gen : Nat)
  /-- the image is downloaded -/
  | loading (cover : Cover) (gen : Nat)
  /-- there is no image -/
  | failed
  | loaded (cover : Cover) (gen : Nat)
  | decoding (cover : Cover)
  /-- before `lvgl_port_ui_set_cover` -/
  | ready (cover : Cover)
  deriving DecidableEq

structure CoverWorld where
  gen : Nat
  queue : Option Cover
  worker : Worker
  /-- what the UI task has still to do, with the LVGL lock -/
  ui : List CoverOp
  /-- what the HTTP task has still to do -/
  http : List CoverOp
  /-- the track whose cover is displayed -/
  shown : Option Nat
  /-- the ghost: the current track -/
  track : Nat
  /-- the ghost: the track that was current when the cover was last cleared or set -/
  since : Nat
  deriving DecidableEq

inductive CoverAction where
  /-- the UI task consumes an event of the phone -/
  | event (m : MiplayMedia) (e : MediaEvent) (nowUs : Int)
  /-- the session of the phone has ended -/
  | reset (m : MiplayMedia)
  /-- `cb_set_metadata` -/
  | metadata (netease : Bool) (curTitle curArtist metadata : Bytes)
  /-- `cb_next` makes the next track the current one -/
  | promote
  /-- the UI task goes on -/
  | ui
  | http
  | receive
  | sample
  | check
  | load (ok : Bool)
  | clearFailed
  | recheck
  | decode (ok : Bool)
  | show

namespace CoverWorld

variable (w : CoverWorld)

/-- The track changes, if it does. -/
def turn (newTrack : Bool) : CoverWorld :=
  { w with track := if newTrack then w.track + 1 else w.track }

/-- One access, and what is to follow at once. -/
def access : CoverOp → CoverWorld × List CoverOp
  | .load newTrack url => (w, [.store (w.gen + 1) newTrack url])
  | .store gen newTrack url =>
    let w := { w.turn newTrack with gen := gen }
    (w, (url.map fun url => .send ⟨url, w.track⟩).toList)
  | .dropStale => ({ w with queue := none }, [])
  | .send cover => ({ w with queue := some cover }, [])
  | .clear newTrack =>
    let w := w.turn newTrack
    ({ w with shown := none, since := w.track }, [])

def step : CoverAction → Option CoverWorld
  | .event m e nowUs =>
    if w.ui = [] then some { w with ui := coverOps (m.newTrack e) (m.consumeEvent e nowUs).2 }
    else none
  | .reset m => if w.ui = [] then some { w with ui := coverOps true m.reset.2 } else none
  | .metadata netease curTitle curArtist metadata =>
    if w.http = [] then
      some { w with http := coverOps true (metadataOps netease curTitle curArtist metadata) }
    else none
  | .promote => some (w.turn true)
  | .ui =>
    match w.ui with
    | [] => none
    | op :: ops => some { (w.access op).1 with ui := (w.access op).2 ++ ops }
  | .http =>
    match w.http with
    | [] => none
    | .clear newTrack :: ops =>
      -- `lvgl_port_lock`
      if w.ui = [] then some { (w.access (.clear newTrack)).1 with http := ops } else none
    | op :: ops => some { (w.access op).1 with http := (w.access op).2 ++ ops }
  | .receive =>
    match w.worker, w.queue with
    | .idle, some cover => some { w with worker := .taken cover, queue := none }
    | _, _ => none
  | .sample =>
    match w.worker with
    | .taken cover => some { w with worker := .waiting cover w.gen }
    | _ => none
  | .check =>
    match w.worker with
    | .waiting cover gen =>
      some { w with worker := if w.gen = gen then .loading cover gen else .idle }
    | _ => none
  | .load ok =>
    match w.worker with
    | .loading cover gen => some { w with worker := if ok then .loaded cover gen else .failed }
    | _ => none
  | .clearFailed =>
    match w.worker with
    | .failed => if w.ui = [] then some { w with worker := .idle, shown := none } else none
    | _ => none
  | .recheck =>
    match w.worker with
    | .loaded cover gen =>
      some { w with worker := if w.gen = gen then .decoding cover else .idle }
    | _ => none
  | .decode ok =>
    match w.worker with
    | .decoding cover => some { w with worker := if ok then .ready cover else .idle }
    | _ => none
  | .show =>
    match w.worker with
    | .ready cover =>
      if w.ui = [] then
        some { w with worker := .idle, shown := some cover.track, since := w.track }
      else none
    | _ => none

/-- After `album_art_worker_init`. -/
def boot : CoverWorld where
  gen := 0
  queue := none
  worker := .idle
  ui := []
  http := []
  shown := none
  track := 0
  since := 0

/-! ## Laws -/

/-- The cover that is about to be shown was requested for the current track. -/
def ShowsCurrent : CoverAction → Prop
  | .show => ∀ cover, w.worker = .ready cover → cover.track = w.track
  | _ => True

/-- What is shown belongs to no track before the one that last cleared or replaced it. -/
def NothingOld : Prop := ∀ track, w.shown = some track → w.since ≤ track

/-- The worker has read the generation of a request and not yet compared it again, or
is past all comparisons: a track that changes would not be noticed. -/
def Blind : Prop :=
  match w.worker with
  | .waiting _ gen | .loading _ gen | .loaded _ gen => gen = w.gen
  | .decoding _ | .ready _ => True
  | .idle | .taken _ | .failed => False

/-- The worker compares no more. -/
def Decodes : Prop :=
  match w.worker with
  | .decoding _ | .ready _ => True
  | .idle | .taken _ | .failed | .waiting _ _ | .loading _ _ | .loaded _ _ => False

/-- An increment is not lost, and a track that changes does not find the worker
decoding, nor blind when the generation stays. -/
def CarefulOp : CoverOp → Prop
  | .store gen newTrack _ => w.gen < gen ∧ (newTrack → ¬w.Decodes)
  | .clear newTrack => newTrack → ¬w.Blind
  | _ => True

/-- The accesses are careful, and the generation is read for a request of the current
track. -/
def Careful : CoverAction → Prop
  | .ui => ∀ op ∈ w.ui.head?, w.CarefulOp op
  | .http => ∀ op ∈ w.http.head?, w.CarefulOp op
  | .promote => ¬w.Blind
  | .sample =>
    match w.worker with
    | .taken cover => cover.track = w.track
    | _ => True
  | _ => True

end CoverWorld

/-! ## The invariant -/

/-- While the generation that was read is the current one the request is one of the
current track, and so it is behind the comparisons. -/
def WorkerOk (w : CoverWorld) : Prop :=
  match w.worker with
  | .waiting cover gen | .loading cover gen | .loaded cover gen =>
    gen ≤ w.gen ∧ (gen = w.gen → cover.track = w.track)
  | .decoding cover | .ready cover => cover.track = w.track
  | .idle | .taken _ | .failed => True

structure CoverInv (w : CoverWorld) : Prop where
  worker : WorkerOk w
  since : w.since ≤ w.track
  nothingOld : w.NothingOld

namespace CoverInv

open CoverWorld

variable {w w' : CoverWorld}

theorem workerOk_of_eq (h : WorkerOk w) (hWorker : w'.worker = w.worker) (hGen : w'.gen = w.gen)
    (hTrack : w'.track = w.track) : WorkerOk w' := by
  unfold WorkerOk at h ⊢
  rw [hWorker, hGen, hTrack]
  exact h

/-- What is queued and what is still to be done does not matter. -/
theorem of_eq (h : CoverInv w) (hWorker : w'.worker = w.worker) (hGen : w'.gen = w.gen)
    (hTrack : w'.track = w.track) (hSince : w'.since = w.since) (hShown : w'.shown = w.shown) :
    CoverInv w' := by
  refine ⟨workerOk_of_eq h.worker hWorker hGen hTrack, hSince ▸ hTrack ▸ h.since, ?_⟩
  unfold NothingOld
  rw [hShown, hSince]
  exact h.nothingOld

/-- The worker goes on to where there is nothing to be wrong about. -/
theorem of_worker (h : CoverInv w) {worker : Worker} (hOk : WorkerOk { w with worker := worker }) :
    CoverInv { w with worker := worker } := ⟨hOk, h.since, h.nothingOld⟩

/-- A track that changes with the generation leaves no request behind that could pass. -/
theorem workerOk_store (h : WorkerOk w) {gen : Nat} {newTrack : Bool} (hGen : w.gen < gen)
    (hDecodes : newTrack → ¬w.Decodes) : WorkerOk { w.turn newTrack with gen := gen } := by
  unfold WorkerOk Decodes at *
  simp only [turn]
  cases hWorker : w.worker with
  | waiting cover g | loading cover g | loaded cover g =>
    simp only [hWorker] at h ⊢
    exact ⟨by omega, fun hEq => absurd hEq (by omega)⟩
  | decoding cover | ready cover =>
    simp only [hWorker] at h hDecodes ⊢
    obtain rfl : newTrack = false := by simpa using hDecodes
    exact h
  | _ => trivial

/-- A track that changes without the generation must not find the worker blind. -/
theorem workerOk_turn (h : WorkerOk w) {newTrack : Bool} (hBlind : newTrack → ¬w.Blind) :
    WorkerOk (w.turn newTrack) := by
  cases newTrack with
  | false => exact h
  | true =>
    have hSees := hBlind rfl
    unfold WorkerOk at h ⊢
    unfold Blind at hSees
    simp only [turn]
    cases hWorker : w.worker with
    | waiting cover g | loading cover g | loaded cover g =>
      simp only [hWorker] at h hSees ⊢
      exact ⟨h.1, fun hEq => absurd hEq hSees⟩
    | decoding cover | ready cover => simp [hWorker] at hSees
    | _ => trivial

theorem track_le_turn (newTrack : Bool) : w.track ≤ (w.turn newTrack).track := by
  unfold turn
  cases newTrack <;> simp

theorem access (h : CoverInv w) {op : CoverOp} (hOk : w.CarefulOp op) :
    CoverInv (w.access op).1 := by
  cases op with
  | load newTrack url => exact h
  | store gen newTrack url =>
    exact ⟨workerOk_store h.worker hOk.1 hOk.2, h.since.trans (track_le_turn newTrack),
      h.nothingOld⟩
  | dropStale => exact h.of_eq rfl rfl rfl rfl rfl
  | send cover => exact h.of_eq rfl rfl rfl rfl rfl
  | clear newTrack =>
    refine ⟨workerOk_of_eq (workerOk_turn h.worker hOk) rfl rfl rfl, le_rfl, ?_⟩
    rintro track ⟨⟩

/-- The worker shows what it has compared. -/
theorem showsCurrent (h : CoverInv w) (a : CoverAction) : w.ShowsCurrent a := by
  cases a with
  | «show» =>
    intro cover hReady
    have hOk := h.worker
    rw [WorkerOk, hReady] at hOk
    exact hOk
  | _ => trivial

theorem step {a : CoverAction} (h : CoverInv w) (hStep : w.step a = some w')
    (hOk : w.Careful a) : CoverInv w' := by
  cases a with
  | event m e nowUs =>
    obtain ⟨-, hEq⟩ := Option.ite_none_right_eq_some.1 hStep
    exact Option.some.inj hEq ▸ h.of_eq rfl rfl rfl rfl rfl
  | reset m =>
    obtain ⟨-, hEq⟩ := Option.ite_none_right_eq_some.1 hStep
    exact Option.some.inj hEq ▸ h.of_eq rfl rfl rfl rfl rfl
  | metadata netease curTitle curArtist metadata =>
    obtain ⟨-, hEq⟩ := Option.ite_none_right_eq_some.1 hStep
    exact Option.some.inj hEq ▸ h.of_eq rfl rfl rfl rfl rfl
  | promote =>
    obtain rfl := Option.some.inj hStep
    exact ⟨workerOk_turn h.worker fun _ => hOk, h.since.trans (track_le_turn true), h.nothingOld⟩
  | ui =>
    rw [CoverWorld.step] at hStep
    split at hStep
    · contradiction
    · next op ops hUi =>
      have hAccess : CoverInv (w.access op).1 := h.access (hOk op (by simp [hUi]))
      exact Option.some.inj hStep ▸ hAccess.of_eq rfl rfl rfl rfl rfl
  | http =>
    rw [CoverWorld.step] at hStep
    split at hStep
    · contradiction
    · next newTrack ops hHttp =>
      obtain ⟨-, hEq⟩ := Option.ite_none_right_eq_some.1 hStep
      have hAccess : CoverInv (w.access (.clear newTrack)).1 :=
        h.access (hOk _ (by simp [hHttp]))
      exact Option.some.inj hEq ▸ hAccess.of_eq rfl rfl rfl rfl rfl
    · next op ops _ hHttp =>
      have hAccess : CoverInv (w.access op).1 := h.access (hOk op (by simp [hHttp]))
      exact Option.some.inj hStep ▸ hAccess.of_eq rfl rfl rfl rfl rfl
  | receive =>
    rw [CoverWorld.step] at hStep
    split at hStep
    · obtain rfl := Option.some.inj hStep
      exact ⟨trivial, h.since, h.nothingOld⟩
    · contradiction
  | sample =>
    rw [CoverWorld.step] at hStep
    split at hStep
    · next cover hTaken =>
      rw [CoverWorld.Careful, hTaken] at hOk
      exact Option.some.inj hStep ▸ h.of_worker ⟨le_rfl, fun _ => hOk⟩
    · contradiction
  | check =>
    rw [CoverWorld.step] at hStep
    split at hStep
    · next cover gen hWaiting =>
      have hWorker := h.worker
      rw [WorkerOk, hWaiting] at hWorker
      obtain rfl := Option.some.inj hStep
      split_ifs
      exacts [h.of_worker hWorker, h.of_worker trivial]
    · contradiction
  | load ok =>
    rw [CoverWorld.step] at hStep
    split at hStep
    · next cover gen hLoading =>
      have hWorker := h.worker
      rw [WorkerOk, hLoading] at hWorker
      obtain rfl := Option.some.inj hStep
      split_ifs
      exacts [h.of_worker hWorker, h.of_worker trivial]
    · contradiction
  | clearFailed =>
    rw [CoverWorld.step] at hStep
    split at hStep
    · obtain ⟨-, hEq⟩ := Option.ite_none_right_eq_some.1 hStep
      obtain rfl := Option.some.inj hEq
      exact ⟨trivial, h.since, by rintro track ⟨⟩⟩
    · contradiction
  | recheck =>
    rw [CoverWorld.step] at hStep
    split at hStep
    · next cover gen hLoaded =>
      have hWorker := h.worker
      rw [WorkerOk, hLoaded] at hWorker
      obtain rfl := Option.some.inj hStep
      split_ifs with hSame
      exacts [h.of_worker (hWorker.2 hSame.symm), h.of_worker trivial]
    · contradiction
  | decode ok =>
    rw [CoverWorld.step] at hStep
    split at hStep
    · next cover hDecoding =>
      have hWorker := h.worker
      rw [WorkerOk, hDecoding] at hWorker
      obtain rfl := Option.some.inj hStep
      split_ifs
      exacts [h.of_worker hWorker, h.of_worker trivial]
    · contradiction
  | «show» =>
    have hCurrent := h.showsCurrent .show
    rw [CoverWorld.step] at hStep
    split at hStep
    · next cover hReady =>
      obtain ⟨-, hEq⟩ := Option.ite_none_right_eq_some.1 hStep
      obtain rfl := Option.some.inj hEq
      refine ⟨trivial, le_rfl, ?_⟩
      rintro track ⟨⟩
      exact (hCurrent cover hReady).ge
    · contradiction

end CoverInv

/-! ## Every run -/

namespace CoverWorld

/-- What is shown is the current track's, and nothing old comes back. -/
def CoverLaw (w : CoverWorld) (a : CoverAction) (w' : CoverWorld) : Prop :=
  w.ShowsCurrent a ∧ w'.NothingOld

/-- **Only the current track's cover is shown** along every careful run. -/
theorem cover_along (as : List CoverAction) (h : Along step (fun w a _ => w.Careful a) boot as) :
    Along step CoverLaw boot as := by
  have hBoot : CoverInv boot := ⟨trivial, le_rfl, by rintro track ⟨⟩⟩
  exact Along.of_invariant
    (fun w a w' hInv hStep hOk =>
      ⟨hInv.step hStep hOk, hInv.showsCurrent a, (hInv.step hStep hOk).nothingOld⟩)
    hBoot h

/-! ## A track that changes while a cover is decoded -/

instance (w : CoverWorld) : Decidable w.Blind :=
  match h : w.worker with
  | .waiting _ gen | .loading _ gen | .loaded _ gen =>
    decidable_of_iff (gen = w.gen) (by rw [Blind, h])
  | .decoding _ | .ready _ => .isTrue (by rw [Blind, h]; trivial)
  | .idle | .taken _ | .failed => .isFalse (by rw [Blind, h]; exact id)

instance (w : CoverWorld) : Decidable w.Decodes :=
  match h : w.worker with
  | .decoding _ | .ready _ => .isTrue (by rw [Decodes, h]; trivial)
  | .idle | .taken _ | .failed | .waiting _ _ | .loading _ _ | .loaded _ _ =>
    .isFalse (by rw [Decodes, h]; exact id)

instance (w : CoverWorld) : ∀ op, Decidable (w.CarefulOp op)
  | .store _ _ _ => inferInstanceAs (Decidable (_ ∧ (_ → _)))
  | .clear _ => inferInstanceAs (Decidable (_ → ¬w.Blind))
  | .load _ _ | .dropStale | .send _ => .isTrue trivial

instance (w : CoverWorld) : ∀ a, Decidable (w.Careful a)
  | .ui => inferInstanceAs (Decidable (∀ op ∈ w.ui.head?, w.CarefulOp op))
  | .http => inferInstanceAs (Decidable (∀ op ∈ w.http.head?, w.CarefulOp op))
  | .promote => inferInstanceAs (Decidable ¬w.Blind)
  | .sample =>
    match h : w.worker with
    | .taken cover => decidable_of_iff (cover.track = w.track) (by rw [Careful, h])
    | .idle | .waiting _ _ | .loading _ _ | .failed | .loaded _ _ | .decoding _ | .ready _ =>
      .isTrue (by rw [Careful, h]; trivial)
  | .event _ _ _ | .reset _ | .metadata _ _ _ _ | .receive | .check | .load _ | .clearFailed
  | .recheck | .decode _ | .show => .isTrue trivial

/-- A track with a title and a cover is delivered, and all that is to be done for it is
done. -/
def delivered (title : String) : List CoverAction :=
  [.metadata true [] []
      (ascii ("<dc:title>" ++ title ++
        "</dc:title><upnp:albumArtURI>http://c/a.jpg</upnp:albumArtURI>")),
    .http, .http, .http, .http, .http]

/-- The cover of a track is shown. -/
theorem cover_along_of_one :
    Along step CoverLaw boot
      (delivered "one" ++ [.receive, .sample, .check, .load true, .recheck, .decode true, .show]) :=
  cover_along _ (by decide +kernel)

/-- The worker compares the generations before it decodes, and not afterwards. -/
theorem decoded_too_late : ¬∀ as : List CoverAction, Along step CoverLaw boot as := by
  intro hAll
  obtain ⟨w, w', hRun, hStep, hOld⟩ := exists_last_of_any
    (show (run step boot
        (delivered "one" ++ [.receive, .sample, .check, .load true, .recheck] ++ delivered "two" ++
          [.decode true])).any
      (fun w => (w.step .show).any fun w' => decide (w'.shown.any (· < w'.since))) = true by
        decide +kernel)
  have hLaw := ((hAll _).last hRun hStep).2
  obtain ⟨track, hShown, hLt⟩ := (Option.any_eq_true _ _).1 (of_decide_eq_true hOld)
  exact absurd (hLaw track hShown) (not_le.2 (of_decide_eq_true hLt))

end CoverWorld

end EspMiplay.Dlna
