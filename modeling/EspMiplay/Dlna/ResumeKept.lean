import EspMiplay.Dlna.OneHandler
import EspMiplay.Dlna.ResumePoint

/-!
# What is kept of a position

A track that does not play is saved where it was left. While it plays, its seek is in
`s_pending_seek_sec`, or with a worker, or has been made; a worker is created with RUNNING,
and holds the pipeline until it has sought.

## Results

* `Kept.frame`, `Kept.sleep`, `Kept.without` — what does not touch it.
* `Kept.begun`                               — a run begins.
* `Kept.setUri`, `cbPlay`, `cbPause`, `cbStop`, `cbNext`, `cbPrevious` — the requests.
-/

namespace EspMiplay.Dlna

open Transition
open EspMiplay.Miplay (Bytes ascii peek)

/-- A sleeper that is not in `cb_play`, and does not come from Seek -/
def plain : Sleep → Prop
  | .retry _ sec (.next _) | .retry _ sec .previous => sec ≤ 0
  | .switch _ | .retry _ _ (.switched _) | .retry _ _ .fresh | .seek _ | .seekDone => False
  | _ => True

namespace Playback

/-- A sleeper in `cb_play` will start the track where it was left. -/
def Replaying (w : Playback) : Sleep → Prop
  | .switch _ => w.player.pipe = .idle ∧ w.player.savedPosSec ≤ 0 ∧ w.point ≤ 0
  | .retry uri sec (.switched _) | .retry uri sec .fresh =>
    w.player.pipe = .idle ∧ w.player.trackUri = some uri ∧ max sec 0 = max w.point 0
  | _ => False

/-- The worker of a run is created with RUNNING, is alone, and holds the pipeline until it has sought. -/
structure Seeking (p : Player) : Prop where
  reached : p.pipe = .opening → p.underWay = []
  fresh : p.pipe = .opening → 0 < p.pendingSeekSec → p.seekers = []
  single : p.underWay ≠ [] → p.seekers.length ≤ 1
  held : ∀ sec, .deferredPaused sec ∈ p.seekers → p.pipe = .paused

/-- The present run and its seek -/
structure RunOk (w : Playback) : Prop where
  handed : w.player.pipe ≠ .opening → w.player.pendingSeekSec ≤ 0
  user : 0 < w.player.pendingSeekSec ∨ w.player.underWay ≠ [] → w.player.userStopped = false
  quiet : w.player.state = .paused → w.player.coming = []
  once : w.sought ++ w.player.coming = owed w.due
  seeking : Seeking w.player

/-- What the steps keep: a track that does not play will start where it was left. -/
structure Kept (w : Playback) : Prop where
  loaded : w.player.state = .playing ∨ w.player.state = .paused ∨ w.player.pipe ≠ .idle →
    w.player.playingUri.isSome
  saved : w.player.state ≠ .playing → w.player.startSec = max w.point 0
  other : ¬w.Current → w.player.state = .playing ∨ w.player.state = .paused →
    w.player.savedPosSec ≤ 0 ∧ w.point ≤ 0
  idle : w.player.state ≠ .playing → w.player.state ≠ .paused → w.player.pipe = .idle
  tasks : ∀ x ∈ w.player.sleepers, plain x.2 ∨ x.1 = .soap ∧ w.Replaying x.2
  run : w.player.pipe ≠ .idle → w.RunOk

variable {w w' : Playback} {p : Player} {luck : Luck} {task : Task}

/-! ## Frames -/

/-- What a position and a seek depend on -/
structure SameTrack (p p' : Player) : Prop where
  state : p'.state = p.state
  pipe : p'.pipe = p.pipe
  trackUri : p'.trackUri = p.trackUri
  playingUri : p'.playingUri = p.playingUri
  savedUri : p'.savedUri = p.savedUri
  savedPosSec : p'.savedPosSec = p.savedPosSec
  pendingSeekSec : p'.pendingSeekSec = p.pendingSeekSec
  userStopped : p'.userStopped = p.userStopped

/-- The seeks are the same; a worker that has sought may be gone. -/
def SameSeeks (p p' : Player) : Prop := p'.seekers.Sublist p.seekers ∧ p'.underWay = p.underWay

theorem SameSeeks.of_seekers {p p' : Player} (h : p'.seekers = p.seekers) : SameSeeks p p' :=
  ⟨h ▸ List.Sublist.refl _, congrArg (List.flatMap seekOf) h⟩

theorem SameSeeks.of_sleepers {p p' : Player} (h : p'.sleepers = p.sleepers) : SameSeeks p p' :=
  .of_seekers (congrArg (fun xs => (xs.map Prod.snd).filter seeks) h)

theorem coming_congr {p p' : Player} (h : SameTrack p p') (hSeeks : SameSeeks p p') : p'.coming = p.coming := by
  unfold Player.coming
  rw [h.pipe, h.pendingSeekSec, hSeeks.2]

theorem none_paused_of_none {p : Player} (h : p.underWay = []) (sec : Int) : .deferredPaused sec ∉ p.seekers := by
  intro hMem
  have hSeek : sec ∈ p.underWay := List.mem_flatMap.2 ⟨_, hMem, List.mem_singleton_self sec⟩
  rw [h] at hSeek
  contradiction

/-- Nothing is under way. -/
theorem Seeking.of_none {p : Player} (hNone : p.underWay = [])
    (hFresh : p.pipe = .opening → 0 < p.pendingSeekSec → p.seekers = []) : Seeking p where
  reached _ := hNone
  fresh := hFresh
  single hSome := absurd hNone hSome
  held sec hMem := absurd hMem (none_paused_of_none hNone sec)

theorem Seeking.mono {p p' : Player} (h : Seeking p) (hPipe : p'.pipe = p.pipe)
    (hPending : p'.pendingSeekSec = p.pendingSeekSec) (hSeeks : SameSeeks p p') : Seeking p' where
  reached := by
    rw [hPipe, hSeeks.2]
    exact h.reached
  fresh := by
    intro hOpening hLeft
    have hNone := h.fresh (hPipe ▸ hOpening) (hPending ▸ hLeft)
    exact List.sublist_nil.1 (hNone ▸ hSeeks.1)
  single hSome := hSeeks.1.length_le.trans (h.single (hSeeks.2 ▸ hSome))
  held sec hMem := hPipe.trans (h.held sec (hSeeks.1.subset hMem))

theorem point_of_track (h : p.trackUri = w.player.trackUri) : Playback.point { w with player := p } = w.point := by
  unfold point
  rw [h]

/-- What `cb_play` is about to do depends on little. -/
theorem replaying_congr (hPipe : w.player.pipe = .idle → p.pipe = .idle) (hTrack : p.trackUri = w.player.trackUri)
    (hSaved : p.savedPosSec = w.player.savedPosSec) {s : Sleep} (hOk : w.Replaying s) :
    Replaying { w with player := p } s := by
  have hPoint : Playback.point { w with player := p } = w.point := point_of_track hTrack
  cases s with
  | switch paused => exact ⟨hPipe hOk.1, hSaved.trans_le hOk.2.1, hPoint.trans_le hOk.2.2⟩
  | retry uri sec after =>
    cases after with
    | switched paused => exact ⟨hPipe hOk.1, hTrack.trans hOk.2.1, by rw [hPoint]; exact hOk.2.2⟩
    | fresh => exact ⟨hPipe hOk.1, hTrack.trans hOk.2.1, by rw [hPoint]; exact hOk.2.2⟩
    | next metadata => exact hOk
    | previous => exact hOk
  | _ => exact hOk

/-- A step that leaves the tracks and the positions alone, and may stop the pipeline -/
theorem Kept.repiped {due : Int} {sought : List Int} (h : Kept w) (hState : p.state = w.player.state)
    (hPipe : w.player.pipe = .idle → p.pipe = .idle) (hTrack : p.trackUri = w.player.trackUri)
    (hPlays : p.playingUri = w.player.playingUri) (hUri : p.savedUri = w.player.savedUri)
    (hSaved : p.savedPosSec = w.player.savedPosSec)
    (hTasks : ∀ x ∈ p.sleepers,
      x ∈ w.player.sleepers ∨ plain x.2 ∨ x.1 = .soap ∧ Replaying { w with player := p } x.2)
    (hRun : p.pipe ≠ .idle → RunOk ⟨p, w.points, due, sought⟩) : Kept ⟨p, w.points, due, sought⟩ where
  loaded hBusy := by
    rw [hState] at hBusy
    exact hPlays ▸ h.loaded (hBusy.imp_right (.imp_right (mt hPipe)))
  saved hNot := by
    rw [hState] at hNot
    show p.startSec = max (point { w with player := p }) 0
    rw [point_of_track hTrack, ← h.saved hNot, Player.startSec, hUri, hTrack, hSaved]
    rfl
  other hOther hBusy := by
    rw [hState] at hBusy
    rw [Current, hPlays, hTrack] at hOther
    show p.savedPosSec ≤ 0 ∧ point { w with player := p } ≤ 0
    rw [point_of_track hTrack, hSaved]
    exact h.other hOther hBusy
  idle hPlaying hPaused := by
    rw [hState] at hPlaying hPaused
    exact hPipe (h.idle hPlaying hPaused)
  tasks x hMem := by
    rcases hTasks x hMem with hOld | hNew
    · exact (h.tasks x hOld).imp_right fun hOk => ⟨hOk.1, replaying_congr hPipe hTrack hSaved hOk.2⟩
    · exact hNew
  run := hRun

/-- A step that leaves the seeks alone, too -/
theorem Kept.frame (h : Kept w) (hSame : SameTrack w.player p) (hSeeks : SameSeeks w.player p)
    (hTasks : ∀ x ∈ p.sleepers,
      x ∈ w.player.sleepers ∨ plain x.2 ∨ x.1 = .soap ∧ Replaying { w with player := p } x.2) :
    Kept { w with player := p } := by
  refine h.repiped hSame.state hSame.pipe.trans hSame.trackUri hSame.playingUri hSame.savedUri hSame.savedPosSec
    hTasks fun hBusy => ?_
  have hOk := h.run (hSame.pipe ▸ hBusy)
  refine ⟨?_, ?_, ?_, ?_, hOk.seeking.mono hSame.pipe hSame.pendingSeekSec hSeeks⟩
  · rw [hSame.pipe, hSame.pendingSeekSec]
    exact hOk.handed
  · rw [hSame.pendingSeekSec, hSeeks.2, hSame.userStopped]
    exact hOk.user
  · rw [hSame.state, coming_congr hSame hSeeks]
    exact hOk.quiet
  · rw [coming_congr hSame hSeeks]
    exact hOk.once

/-! ## Sleepers -/

theorem seekers_sleep (p : Player) (task : Task) (s : Sleep) :
    (p.sleep task s).seekers = p.seekers ++ if seeks s then [s] else [] := by
  rw [Player.seekers, Player.sleep, List.map_append, List.filter_append]
  cases hSeeks : seeks s <;> simp [Player.seekers, hSeeks]

theorem underWay_eq (p : Player) : p.underWay = p.sleepers.flatMap fun x => seekOf x.2 := by
  rw [Player.underWay, Player.seekers]
  induction p.sleepers with
  | nil => rfl
  | cons x xs ih =>
    rw [List.map_cons, List.filter_cons, List.flatMap_cons, ← ih]
    obtain ⟨t, s⟩ := x
    cases s <;> rfl

theorem underWay_sleep (p : Player) (task : Task) (s : Sleep) :
    (p.sleep task s).underWay = p.underWay ++ seekOf s := by
  rw [underWay_eq, underWay_eq, Player.sleep, List.flatMap_append, List.flatMap_singleton]

/-- A task falls asleep. -/
theorem Kept.sleep (h : Kept w) {s : Sleep} (hNone : seeks s = false)
    (hOk : plain s ∨ task = .soap ∧ w.Replaying s) : Kept { w with player := w.player.sleep task s } := by
  refine h.frame ⟨rfl, rfl, rfl, rfl, rfl, rfl, rfl, rfl⟩ (.of_seekers ?_) fun x hMem => ?_
  · rw [seekers_sleep, hNone]
    exact List.append_nil _
  · rcases List.mem_append.1 hMem with hOld | hNew
    · exact .inl hOld
    · obtain rfl := List.mem_singleton.1 hNew
      exact .inr (hOk.imp_right fun hBoth =>
        ⟨hBoth.1, replaying_congr (p := w.player.sleep task s) id rfl rfl hBoth.2⟩)

theorem underWay_without {p : Player} {n : Nat} {x : Task × Sleep} (h : p.sleepers[n]? = some x)
    (hNone : seekOf x.2 = []) : (p.without n).underWay = p.underWay := by
  obtain ⟨before, behind, hAll, hRest⟩ := Player.sleepers_split h
  rw [underWay_eq, underWay_eq, hAll, hRest, List.flatMap_append, List.flatMap_append, List.flatMap_cons,
    hNone, List.nil_append]

theorem seekers_without (p : Player) (n : Nat) : (p.without n).seekers.Sublist p.seekers :=
  ((List.eraseIdx_sublist p.sleepers n).map _).filter _

theorem Kept.without (h : Kept w) {n : Nat} {x : Task × Sleep} (hGet : w.player.sleepers[n]? = some x)
    (hNone : seekOf x.2 = []) : Kept { w with player := w.player.without n } :=
  h.frame ⟨rfl, rfl, rfl, rfl, rfl, rfl, rfl, rfl⟩ ⟨seekers_without w.player n, underWay_without hGet hNone⟩
    fun _ hMem => .inl (List.mem_of_mem_eraseIdx hMem)

/-! ## Positions -/

theorem startSec_of_nothing {p : Player} (h : p.savedPosSec ≤ 0) : p.startSec = 0 :=
  if_neg fun hBoth => absurd hBoth.2 (not_lt.2 h)

theorem elim_zero (uri : Option Bytes) : (uri.elim 0 fun _ => (0 : Int)) = 0 := by cases uri <;> rfl

/-- Another track, or the same from the start: nothing is saved, and nothing is to be. -/
theorem Kept.retrack (h : Kept w) (hPlaying : p.state = .playing ↔ w.player.state = .playing)
    (hPaused : p.state = .paused ↔ w.player.state = .paused) (hPipe : p.pipe = w.player.pipe)
    (hUri : p.playingUri = w.player.playingUri) (hPending : p.pendingSeekSec = w.player.pendingSeekSec)
    (hUser : p.userStopped = w.player.userStopped ∨ p.userStopped = false)
    (hSleepers : p.sleepers = w.player.sleepers) (hSaved : p.savedPosSec ≤ 0)
    (hTasks : ∀ x ∈ w.player.sleepers,
      plain x.2 ∨ x.1 = .soap ∧ Replaying { w with player := p, points := fun _ => 0 } x.2) :
    Kept { w with player := p, points := fun _ => 0 } where
  loaded hBusy := by
    rw [hPlaying, hPaused, hPipe] at hBusy
    exact hUri ▸ h.loaded hBusy
  saved _ := by rw [startSec_of_nothing hSaved, point, elim_zero, max_self]
  other _ _ := ⟨hSaved, (elim_zero _).le⟩
  idle hNot hNot' := hPipe.trans (h.idle (hPlaying.not.1 hNot) (hPaused.not.1 hNot'))
  tasks := hSleepers ▸ hTasks
  run hBusy := by
    have hOk := h.run (hPipe ▸ hBusy)
    have hSeeks : SameSeeks w.player p := .of_sleepers hSleepers
    have hWorkers : p.underWay = w.player.underWay := hSeeks.2
    have hComing : p.coming = w.player.coming := by
      rw [Player.coming, hPipe, hPending, hWorkers]
      rfl
    refine ⟨?_, fun hLeft => ?_, ?_, ?_, hOk.seeking.mono hPipe hPending hSeeks⟩
    · rw [hPipe, hPending]
      exact hOk.handed
    · rw [hPending, hWorkers] at hLeft
      exact hUser.elim (fun hSame => hSame.trans (hOk.user hLeft)) id
    · rw [hPaused, hComing]
      exact hOk.quiet
    · rw [hComing]
      exact hOk.once

/-- `cb_play` that starts from the beginning anyway does not mind. -/
theorem Kept.replaying_of_unhurried (h : Kept w) (hUnhurried : w.player.Unhurried) (hPipe : p.pipe = w.player.pipe)
    (hTrack : p.trackUri = w.player.trackUri) (hSaved : p.savedPosSec ≤ 0) (x : Task × Sleep)
    (hMem : x ∈ w.player.sleepers) :
    plain x.2 ∨ x.1 = .soap ∧ Replaying { w with player := p, points := fun _ => 0 } x.2 := by
  refine (h.tasks x hMem).imp_right fun hOk => ⟨hOk.1, ?_⟩
  have hPoint : (p.trackUri.elim 0 fun _ => (0 : Int)) = 0 := elim_zero _
  have hSec (sec : Int) (hIs : replays x.2 = some sec) : max sec 0 = max (p.trackUri.elim 0 fun _ => 0) 0 := by
    rw [hPoint, max_self]
    exact max_eq_right (hUnhurried x hMem sec hIs)
  obtain ⟨t, s⟩ := x
  cases s with
  | switch paused => exact ⟨hPipe.trans hOk.2.1, hSaved, hPoint.le⟩
  | retry uri sec after =>
    cases after with
    | switched paused => exact ⟨hPipe.trans hOk.2.1, hTrack.trans hOk.2.2.1, hSec sec rfl⟩
    | fresh => exact ⟨hPipe.trans hOk.2.1, hTrack.trans hOk.2.2.1, hSec sec rfl⟩
    | next metadata => exact hOk.2
    | previous => exact hOk.2
  | _ => exact hOk.2

/-! ## The pipeline -/

/-- The pipeline is stopped within the grace period, which hides it. -/
theorem Kept.pipeStop (h : Kept w) (hGrace : w.player.nowUs < w.player.graceUntil) :
    Kept { w with player := w.player.pipeStop luck } := by
  obtain ⟨s, js, hEq, hState, hJs⟩ := w.player.pipeStop_eq luck
  obtain rfl : s = w.player.state := hState.resolve_right fun hOver => absurd hOver.2.1 (not_le.2 hGrace)
  rw [hEq]
  refine ⟨fun hBusy => h.loaded (hBusy.imp_right (.imp_right fun hNot => absurd rfl hNot)), h.saved, h.other,
    fun _ _ => rfl, fun x hMem => ?_, fun hBusy => absurd rfl hBusy⟩
  rcases List.mem_append.1 hMem with hOld | hNew
  · refine (h.tasks x hOld).imp_right fun hOk => ⟨hOk.1, ?_⟩
    exact replaying_congr (p := { w.player with pipe := .idle, sleepers := w.player.sleepers ++ js })
      (fun _ => rfl) rfl rfl hOk.2
  · rcases hJs with rfl | ⟨rfl, -⟩
    · contradiction
    · obtain rfl := List.mem_singleton.1 hNew
      exact .inl trivial

/-- The pipeline is idle, and the state says so. -/
theorem Kept.of_stopped (hIdle : w.player.pipe = .idle) (hPlaying : w.player.state ≠ .playing)
    (hPaused : w.player.state ≠ .paused) (hSaved : w.player.startSec = max w.point 0)
    (hTasks : ∀ x ∈ w.player.sleepers, plain x.2 ∨ x.1 = .soap ∧ w.Replaying x.2) : Kept w where
  loaded hBusy := by
    rcases hBusy with hIs | hIs | hIs
    exacts [absurd hIs hPlaying, absurd hIs hPaused, absurd hIdle hIs]
  saved _ := hSaved
  other _ hState := (hState.elim hPlaying hPaused).elim
  idle _ _ := hIdle
  tasks := hTasks
  run hBusy := absurd hIdle hBusy

/-- The end of the track may be on its way, and is not in `cb_play`. -/
theorem plain_append {js : List (Task × Sleep)} {generation track : Nat} {b : Prop}
    (hPlain : ∀ x ∈ p.sleepers, plain x.2)
    (hJs : js = [] ∨ js = [(Task.finish, Sleep.notify generation track)] ∧ b) :
    ∀ x ∈ p.sleepers ++ js, plain x.2 := by
  intro x hMem
  rcases List.mem_append.1 hMem with hOld | hNew
  · exact hPlain x hOld
  · rcases hJs with rfl | ⟨rfl, -⟩
    · contradiction
    · obtain rfl := List.mem_singleton.1 hNew
      trivial

/-- What the rest of a handler changes -/
theorem afterPlay_eq (p : Player) (after : After) :
    ∃ pos grace user uri metadata, p.afterPlay after =
        { p with
          savedPosSec := pos
          graceUntil := grace
          userStopped := user
          uri := uri
          metadata := metadata } ∧
      (pos = p.savedPosSec ∨ pos = 0) ∧ (user = p.userStopped ∨ user = false) := by
  cases after with
  | switched paused => cases paused <;> exact ⟨_, _, _, _, _, rfl, .inr rfl, by simp⟩
  | fresh => exact ⟨_, _, _, _, _, rfl, .inr rfl, .inl rfl⟩
  | next metadata => exact ⟨_, _, _, _, _, rfl, .inl rfl, .inl rfl⟩
  | previous => exact ⟨_, _, _, _, _, rfl, .inl rfl, .inl rfl⟩

/-- A run begins. -/
theorem Kept.played {uri : Bytes} {sec due : Int} {after : After} {points : Bytes → Int}
    (hTrack : p.trackUri = some uri ∨ p.savedPosSec ≤ 0 ∧ p.trackUri.elim 0 points ≤ 0) {early : Bool}
    (hClear : p.Clear sec early) (hDue : owed sec = owed due) (hTasks : ∀ x ∈ p.sleepers, plain x.2) :
    Kept ⟨(p.played uri sec).afterPlay after, points, due, []⟩ := by
  obtain ⟨hUnderWay, hSeekers, hPending, -⟩ := hClear
  obtain ⟨pos, grace, user, uri', metadata, hEq, hPos, hUser⟩ := afterPlay_eq (p.played uri sec) after
  have hUser' : user = false := hUser.elim id id
  rw [hEq]
  refine ⟨fun _ => rfl, fun hNot => absurd rfl hNot, fun hOther _ => ?_, fun hNot => absurd rfl hNot,
    fun x hMem => .inl (hTasks x hMem),
    fun _ => ⟨fun hNot => absurd rfl hNot, fun _ => hUser', ?_, ?_, .of_none hUnderWay fun _ hLeft => ?_⟩⟩
  · obtain ⟨hSaved, hPoint⟩ := hTrack.resolve_left fun hIs => hOther hIs.symm
    refine ⟨?_, hPoint⟩
    rcases hPos with hIs | hIs
    · exact hIs.trans_le hSaved
    · exact hIs.le
  · intro hPaused
    contradiction
  · rw [← hDue]
    have hNone : List.flatMap seekOf ((p.sleepers.map Prod.snd).filter seeks) = [] := hUnderWay
    simp only [Player.coming, Player.underWay, Player.seekers, Player.played, Player.setState, Player.grace, hNone,
      owed, List.append_nil, List.nil_append, true_and]
    -- The run's own seek overwrites what another run has left; without one nothing may be left.
    split_ifs with hSec hLeft
    · rfl
    · exact absurd hLeft (not_lt.2 (hPending.resolve_left hSec))
    · rfl
  · refine hSeekers ?_
    by_contra hNot
    have hOld : 0 < if sec > 0 then sec else p.pendingSeekSec := hLeft
    rw [if_neg hNot] at hOld
    exact not_lt.2 (hPending.resolve_left hNot) hOld

/-! ## The cases of `_do_play` -/

theorem doPlay_split (p : Player) (luck : Luck) (task : Task) (uri : Option Bytes) (sec : Int) (after : After) :
    (uri = none ∧ p.doPlay task luck uri sec after =
      { p with generation := p.generation + 1, nearEndCount := 0 }.afterPlay after) ∨
    (∃ u, uri = some u ∧ luck.runs ∧ p.pipe = .idle ∧ p.doPlay task luck uri sec after =
      (({ p with generation := p.generation + 1, nearEndCount := 0 }.grace 8000000).played u sec).afterPlay after) ∨
    (∃ u, uri = some u ∧ p.doPlay task luck uri sec after =
      ({ p with generation := p.generation + 1, nearEndCount := 0 }.grace 8000000).sleep task
        (.retry u sec after)) := by
  cases uri with
  | none => exact .inl ⟨rfl, rfl⟩
  | some u =>
    simp only [Player.doPlay]
    split_ifs with hRun
    · have hBoth : luck.runs = true ∧ p.pipe = .idle := by
        rw [Player.canRun, Bool.and_eq_true, decide_eq_true_eq] at hRun
        exact hRun
      exact .inr (.inl ⟨u, rfl, hBoth.1, hBoth.2, rfl⟩)
    · exact .inr (.inr ⟨u, rfl, rfl⟩)

theorem tracks_afterPlay (p : Player) (after : After) : (p.afterPlay after).tracks = p.tracks := by
  obtain ⟨_, _, _, _, _, hEq, -⟩ := afterPlay_eq p after
  rw [hEq]

theorem tracks_pipeStop (p : Player) (luck : Luck) : (p.pipeStop luck).tracks = p.tracks := by
  obtain ⟨_, _, hEq, -⟩ := p.pipeStop_eq luck
  rw [hEq]

theorem tracks_pipeResume (p : Player) : p.pipeResume.tracks = p.tracks := by
  rcases p.pipeResume_eq with ⟨hEq, -⟩ | ⟨hEq, -⟩
  · rw [hEq]
  · rw [hEq, Player.onRunning_eq]

/-! ## Requests -/

theorem advance_same {a : PlaybackAction} (h : p.tracks = w.player.tracks) (hSought : w.soughtBy a = []) :
    w.advance a p = { w with player := p, points := w.pointsAfter a } := by
  simp [advance, h, hSought]

theorem advance_begun {a : PlaybackAction} (h : p.tracks = w.player.tracks + 1) :
    w.advance a p =
      ⟨p, w.pointsAfter a, if w.ofPlay a then p.playingUri.elim 0 w.points else 0, []⟩ := by
  have hNew : p.tracks ≠ w.player.tracks := by omega
  simp [advance, hNew]

/-- While the HTTP server is free no `cb_play` is under way. -/
theorem Kept.plain_of_free (h : Kept w) (hFree : w.player.free .soap = true) :
    ∀ x ∈ w.player.sleepers, plain x.2 := by
  intro x hMem
  refine (h.tasks x hMem).resolve_right fun hOk => ?_
  have hTask : x.1 ≠ .soap := by simpa using List.all_eq_true.1 hFree x hMem
  exact hTask hOk.1

/-- `cb_play` sleeps while the pipeline is idle. -/
theorem Kept.plain_of_busy (h : Kept w) (hBusy : w.player.pipe ≠ .idle) : ∀ x ∈ w.player.sleepers, plain x.2 := by
  intro x hMem
  refine (h.tasks x hMem).resolve_right fun hOk => ?_
  obtain ⟨t, s⟩ := x
  cases s with
  | switch paused => exact hBusy hOk.2.1
  | retry uri sec after =>
    cases after with
    | switched paused => exact hBusy hOk.2.1
    | fresh => exact hBusy hOk.2.1
    | next metadata => exact hOk.2
    | previous => exact hOk.2
  | _ => exact hOk.2

theorem unhurried_of_plain {p : Player} (h : ∀ x ∈ p.sleepers, plain x.2) : p.Unhurried := by
  intro x hMem sec hIs
  have hPlain := h x hMem
  obtain ⟨t, s⟩ := x
  cases s with
  | retry uri sec' after =>
    cases after with
    | switched paused => exact hPlain.elim
    | fresh => exact hPlain.elim
    | next metadata => contradiction
    | previous => contradiction
  | _ => contradiction

/-- The texts of the metadata can only take back what is saved. -/
theorem savedPosSec_cbSetMetadata (p : Player) (metadata : Bytes) (h : p.savedPosSec ≤ 0) :
    (p.cbSetMetadata metadata).savedPosSec ≤ 0 := by
  simp only [Player.cbSetMetadata]
  split_ifs
  all_goals first | exact h | exact le_rfl

/-- SetAVTransportURI -/
theorem Kept.setUri (h : Kept w) (hFree : w.player.free .soap = true) {uri : Bytes} {metadata : Option Bytes}
    (hOk : peek uri = 0 ∨ isVideoUri uri → w.player.savedPosSec ≤ 0) :
    Kept { w with player := w.player.request luck (.setUri uri metadata), points := fun _ => 0 } := by
  have hPlain := h.plain_of_free hFree
  by_cases hEmpty : peek uri = 0
  · rw [Player.request_setUri_empty (not_not.2 hEmpty)]
    exact h.retrack .rfl .rfl rfl rfl rfl (.inl rfl) rfl (hOk (.inl hEmpty)) fun x hMem => .inl (hPlain x hMem)
  · rw [Player.request_setUri hEmpty]
    cases hVideo : isVideoUri uri with
    | true =>
      -- A video is not taken, and what is saved for the last track stays.
      rw [Player.setAvTransportUri_of_video _ metadata hVideo]
      have hSaved := savedPosSec_cbSetMetadata
        { w.player with
          uri := uri
          metadata := metadata.getD w.player.metadata
          generation := w.player.generation + 1
          nearEndCount := 0 } (metadata.getD w.player.metadata) (hOk (.inr hVideo))
      obtain ⟨_, _, _, _, _, _, hEq⟩ := Player.cbSetMetadata_eq
        { w.player with
          uri := uri
          metadata := metadata.getD w.player.metadata
          generation := w.player.generation + 1
          nearEndCount := 0 } (metadata.getD w.player.metadata)
      rw [hEq] at hSaved ⊢
      exact h.retrack .rfl .rfl rfl rfl rfl (.inl rfl) rfl hSaved fun x hMem => .inl (hPlain x hMem)
    | false =>
      rw [Player.setAvTransportUri_of_track _ metadata hVideo]
      have hSaved := savedPosSec_cbSetMetadata (w.player.withTrack uri (metadata.getD w.player.metadata))
        (metadata.getD w.player.metadata) le_rfl
      obtain ⟨_, _, _, _, _, _, hEq⟩ := Player.cbSetMetadata_eq
        (w.player.withTrack uri (metadata.getD w.player.metadata)) (metadata.getD w.player.metadata)
      rw [hEq] at hSaved ⊢
      have hState (s : PlayState) (hs : s ≠ .noMedia ∧ s ≠ .stopped) :
          (w.player.withTrack uri (metadata.getD w.player.metadata)).state = s ↔ w.player.state = s := by
        simp only [Player.withTrack]
        split_ifs with hNone
        · rw [hNone]
          exact iff_of_false hs.2.symm hs.1.symm
        · exact .rfl
      exact h.retrack (hState .playing (by decide)) (hState .paused (by decide)) rfl rfl rfl (.inr rfl) rfl hSaved
        fun x hMem => .inl (hPlain x hMem)

/-- A track is left for another one. -/
theorem Kept.leaveTrack (h : Kept w) (hUnhurried : w.player.Unhurried) :
    Kept { w with player := w.player.leaveTrack, points := fun _ => 0 } :=
  h.retrack .rfl .rfl rfl rfl rfl (.inr rfl) rfl le_rfl fun x hMem =>
    h.replaying_of_unhurried (p := w.player.leaveTrack) hUnhurried rfl rfl le_rfl x hMem

/-- The pipeline is stopped, hidden by a grace period that begins with it. -/
theorem Kept.graceStop (h : Kept w) {us : Int} (hPos : 0 < us) :
    Kept { w with player := (w.player.grace us).pipeStop luck } := by
  have hGrace : Kept { w with player := w.player.grace us } :=
    h.frame ⟨rfl, rfl, rfl, rfl, rfl, rfl, rfl, rfl⟩ (.of_sleepers rfl) fun _ => .inl
  exact hGrace.pipeStop (Int.lt_add_of_pos_right w.player.nowUs hPos)

/-- Next -/
theorem Kept.cbNext (h : Kept w) (hUnhurried : w.player.Unhurried) :
    Kept { w with player := w.player.cbNext task luck, points := fun _ => 0 } := by
  have hLeft := h.leaveTrack hUnhurried
  cases hNext : w.player.hasNext with
  | true =>
    rw [Player.cbNext_of_next hNext]
    exact (hLeft.graceStop (show (0 : Int) < 1500000 by decide)).sleep rfl (.inl trivial)
  | false =>
    rw [Player.cbNext_of_none hNext]
    exact (hLeft.graceStop (show (0 : Int) < 1000000 by decide)).sleep rfl (.inl trivial)

/-- Previous -/
theorem Kept.cbPrevious (h : Kept w) (hFree : w.player.free .soap = true) :
    Kept { w with player := w.player.cbPrevious task luck, points := fun _ => 0 } := by
  have hPlain := h.plain_of_free hFree
  have hLeft := h.leaveTrack (unhurried_of_plain hPlain)
  by_cases hTrack : w.player.trackUri = none
  · rw [Player.cbPrevious_of_none hTrack]
    obtain ⟨s, js, hEq, -, hJs⟩ := w.player.leaveTrack.pipeStop_eq luck
    rw [hEq]
    refine Kept.of_stopped rfl (fun hIs => ?_) (fun hIs => ?_) ?_ fun x hMem => .inl (plain_append hPlain hJs x hMem)
    · contradiction
    · contradiction
    · exact (startSec_of_nothing le_rfl).trans (by rw [point, elim_zero, max_self])
  · rw [Player.cbPrevious_of_some (Option.isSome_iff_ne_none.2 hTrack)]
    exact (hLeft.graceStop (show (0 : Int) < 1000000 by decide)).sleep rfl (.inl trivial)

/-- What is reported of the current track is its position from now on. -/
theorem point_reported (w : Playback) (hCurrent : w.Current) (hSome : w.player.playingUri.isSome) :
    w.player.trackUri.elim 0 w.reported = w.player.cbGetPositionSec := by
  obtain ⟨uri, hUri⟩ := Option.isSome_iff_exists.1 hSome
  rw [← show w.player.playingUri = w.player.trackUri from hCurrent, reported, hUri]
  exact Function.update_self ..

theorem point_reported_of_other (w : Playback) (hOther : ¬w.Current) :
    w.player.trackUri.elim 0 w.reported = w.point := by
  rw [point, reported]
  cases hUri : w.player.playingUri with
  | none => rfl
  | some uri =>
    cases hTrack : w.player.trackUri with
    | none => rfl
    | some track =>
      refine Function.update_of_ne (fun hSame => hOther ?_) ..
      rw [Current, hUri, hTrack, hSame]

/-- While it plays, what is frozen is what is reported. -/
theorem frozenSec_of_playing {p : Player} (h : p.state = .playing) : p.frozenSec = p.cbGetPositionSec := by
  unfold Player.frozenSec Player.cbGetPositionSec Player.freeze Player.cbGetPositionMs
  by_cases hStart : p.playStartUs > 0 <;> simp [h, hStart]

theorem frozenSec_of_standing {p : Player} (h : p.state ≠ .playing) (hStart : p.playStartUs ≤ 0) :
    p.frozenSec = p.cbGetPositionSec := by
  unfold Player.frozenSec Player.cbGetPositionSec Player.freeze Player.cbGetPositionMs
  simp [h, not_lt.2 hStart]

theorem startSec_of_own {p : Player} (h : p.savedUri = p.trackUri) : p.startSec = max p.savedPosSec 0 := by
  unfold Player.startSec
  split_ifs with hBoth
  · exact (max_eq_left hBoth.2.le).symm
  · exact (max_eq_right (not_lt.1 fun hPos => hBoth ⟨h, hPos⟩)).symm

theorem cbPause_eq {p : Player} (h : p.state = .playing) :
    ∃ ms us, p.cbPause =
      { p with
        state := .paused
        pipe := if p.pipe = .running then .paused else p.pipe
        pendingSeekSec := 0
        accumulatedMs := ms
        playStartUs := us
        savedPosSec := p.frozenSec
        savedUri := p.trackUri
        userStopped := true } := by
  obtain ⟨s, hPause, -⟩ := p.saved.pipePause_eq
  rw [Player.cbPause_of_playing h, hPause]
  simp only [Player.saved, Player.frozenSec, Player.freeze, Player.setState]
  split_ifs <;> exact ⟨_, _, rfl⟩

theorem stopping_eq (p : Player) :
    ∃ ms us, p.stopping =
      { p with
        generation := p.generation + 1
        nearEndCount := 0
        accumulatedMs := ms
        playStartUs := us
        savedPosSec := p.frozenSec
        savedUri := p.trackUri
        userStopped := true
        graceUntil := p.nowUs + 2000000 } := by
  simp only [Player.stopping, Player.frozenSec, Player.freeze, Player.grace]
  split_ifs <;> exact ⟨_, _, rfl⟩

/-- Without a seek left by `_do_play` only the workers' are coming. -/
theorem coming_of_handed {p : Player} (h : p.pendingSeekSec ≤ 0) : p.coming = p.underWay := by
  rw [Player.coming, if_neg fun hBoth => not_lt.2 h hBoth.2, List.nil_append]

/-- Pause -/
theorem Kept.cbPause (h : Kept w) (hFree : w.player.free .soap = true)
    (hOk : w.player.state = .playing →
      (w.Current ∨ w.player.cbGetPositionSec ≤ 0) ∧ (w.player.pipe ≠ .idle → w.player.coming = [])) :
    Kept { w with
      player := w.player.cbPause
      points := if w.player.state = .playing then w.reported else w.points } := by
  have hPlain := h.plain_of_free hFree
  by_cases hState : w.player.state = .playing
  · obtain ⟨hTrack, hComing⟩ := hOk hState
    obtain ⟨ms, us, hEq⟩ := cbPause_eq hState
    have hLoaded := h.loaded (.inl hState)
    have hFrozen := frozenSec_of_playing hState
    rw [hEq, if_pos hState]
    refine ⟨fun _ => hLoaded, fun _ => ?_, fun hOther _ => ?_, fun _ hNot => absurd rfl hNot,
      fun x hMem => .inl (hPlain x hMem), fun hBusy => ?_⟩
    · -- What is saved is the position of what plays, for the current track.
      rw [startSec_of_own rfl]
      show max w.player.frozenSec 0 = max (w.player.trackUri.elim 0 w.reported) 0
      by_cases hCurrent : w.Current
      · rw [point_reported w hCurrent hLoaded, hFrozen]
      · rw [point_reported_of_other w hCurrent, hFrozen, max_eq_right (hTrack.resolve_left hCurrent),
          max_eq_right (h.other hCurrent (.inl hState)).2]
    · have hCurrent : ¬w.Current := hOther
      refine ⟨hFrozen.trans_le (hTrack.resolve_left hCurrent), ?_⟩
      exact (point_reported_of_other w hCurrent).trans_le (h.other hCurrent (.inl hState)).2
    · have hWas : w.player.pipe ≠ .idle := fun hIs => hBusy (by simp [hIs])
      have hRun := h.run hWas
      have hNone := hComing hWas
      have hWorkers : w.player.underWay = [] := (List.append_eq_nil_iff.1 hNone).2
      have hOnce := hRun.once
      rw [hNone] at hOnce
      refine ⟨fun _ => le_rfl, fun hLeft => ?_, fun _ => ?_, ?_,
        .of_none hWorkers fun _ hLeft => absurd hLeft (lt_irrefl _)⟩
      · exact (hLeft.elim (lt_irrefl _) fun hNot => hNot hWorkers).elim
      · exact (coming_of_handed le_rfl).trans hWorkers
      · rw [← hOnce]
        exact congrArg (w.sought ++ ·) ((coming_of_handed le_rfl).trans hWorkers)
  · -- The seek that `_do_play` has left is given up even so, but there is none while it is paused.
    rw [Player.cbPause_of_not_playing hState, if_neg hState]
    refine ⟨h.loaded, h.saved, h.other, h.idle, fun x hMem => .inl (hPlain x hMem), fun hBusy => ?_⟩
    have hPaused : w.player.state = .paused := by
      by_contra hNot
      exact hBusy (h.idle hState hNot)
    have hRun := h.run hBusy
    have hNone := hRun.quiet hPaused
    have hWorkers : w.player.underWay = [] := (List.append_eq_nil_iff.1 hNone).2
    have hOnce := hRun.once
    rw [hNone] at hOnce
    refine ⟨fun _ => le_rfl, fun hLeft => ?_, fun _ => (coming_of_handed le_rfl).trans hWorkers, ?_,
      .of_none hWorkers fun _ hLeft => absurd hLeft (lt_irrefl _)⟩
    · exact (hLeft.elim (lt_irrefl _) fun hNot => hNot hWorkers).elim
    · rw [← hOnce]
      exact congrArg (w.sought ++ ·) ((coming_of_handed le_rfl).trans hWorkers)

/-- Stop -/
theorem Kept.cbStop (h : Kept w) (hFree : w.player.free .soap = true)
    (hOk : if w.Current ∧ (w.player.state = .playing ∨ w.player.state = .paused) then
        w.player.state = .paused → w.player.playStartUs ≤ 0
      else max w.player.frozenSec 0 = max w.point 0) :
    Kept { w with
      player := w.player.cbStop luck
      points := if w.player.state = .playing ∨ w.player.state = .paused then w.reported else w.points } := by
  have hPlain := h.plain_of_free hFree
  obtain ⟨ms, us, hSaved⟩ := stopping_eq w.player
  obtain ⟨s, js, hEq, -, hJs⟩ := w.player.stopping.pipeStop_eq luck
  have hTasks := plain_append (p := w.player.stopping) (by rw [hSaved]; exact hPlain) hJs
  rw [Player.cbStop_eq, hEq]
  refine Kept.of_stopped rfl (fun hIs => ?_) (fun hIs => ?_) ?_ fun x hMem => .inl (hTasks x hMem)
  · contradiction
  · contradiction
  · -- Stop saves in every state, what has been added up until then.
    rw [hSaved]
    refine (startSec_of_own rfl).trans ?_
    show max w.player.frozenSec 0 = max (w.player.trackUri.elim 0 _) 0
    by_cases hPlays : w.player.state = .playing ∨ w.player.state = .paused
    · rw [if_pos hPlays]
      by_cases hCurrent : w.Current
      · rw [if_pos ⟨hCurrent, hPlays⟩] at hOk
        rw [point_reported w hCurrent (h.loaded (hPlays.imp_right .inl))]
        by_cases hState : w.player.state = .playing
        · rw [frozenSec_of_playing hState]
        · rw [frozenSec_of_standing hState (hOk (hPlays.resolve_left hState))]
      · rw [if_neg fun hBoth => hCurrent hBoth.1] at hOk
        rw [point_reported_of_other w hCurrent]
        exact hOk
    · rw [if_neg hPlays]
      rw [if_neg fun hBoth => hPlays hBoth.2] at hOk
      exact hOk

/-- A run that RUNNING has not reached yet, with the seek for it -/
theorem Kept.begun {a : PlaybackAction} (uri : Bytes) (sec : Int) (after : After) (early : Bool)
    (hTracks : p.tracks = w.player.tracks)
    (hTrack : p.trackUri = some uri ∨ p.savedPosSec ≤ 0 ∧ p.trackUri.elim 0 (w.pointsAfter a) ≤ 0)
    (hClear : p.Clear sec early)
    (hDue : owed sec = owed (if w.ofPlay a then w.points uri else 0)) (hTasks : ∀ x ∈ p.sleepers, plain x.2) :
    Kept (w.advance a ((p.played uri sec).afterPlay after)) ∧
      ((p.played uri sec).afterPlay after).pipe = .opening ∧
      (early = true → ((p.played uri sec).afterPlay after).pendingSeekSec ≤ 0) := by
  obtain ⟨pos, grace, user, uri', metadata, hEq, -⟩ := afterPlay_eq (p.played uri sec) after
  have hNew : ((p.played uri sec).afterPlay after).tracks = w.player.tracks + 1 := by
    rw [tracks_afterPlay, ← hTracks]
    rfl
  have hPlaying : ((p.played uri sec).afterPlay after).playingUri = some uri := by
    rw [hEq]
    rfl
  refine ⟨?_, by rw [hEq]; rfl, fun hEarly => ?_⟩
  · rw [advance_begun hNew, hPlaying]
    exact Kept.played hTrack hClear hDue hTasks
  · obtain ⟨-, -, hPending, hSec⟩ := hClear
    rw [hEq]
    show (if sec > 0 then sec else p.pendingSeekSec) ≤ 0
    rw [if_neg (not_lt.2 (hSec hEarly))]
    exact hPending.resolve_left (not_lt.2 (hSec hEarly))

/-- A step keeps what is kept; a run that it begins has not been reached by RUNNING. -/
structure Advances (w : Playback) (a : PlaybackAction) (p : Player) : Prop where
  kept : Kept (w.advance a p)
  opening : p.tracks ≠ w.player.tracks → p.pipe = .opening
  handed : p.tracks ≠ w.player.tracks → a.early = true → p.pendingSeekSec ≤ 0

theorem Advances.of_same {a : PlaybackAction} (hTracks : p.tracks = w.player.tracks) (hSought : w.soughtBy a = [])
    (h : Kept { w with player := p, points := w.pointsAfter a }) : Advances w a p where
  kept := by
    rw [advance_same hTracks hSought]
    exact h
  opening hNew := absurd hTracks hNew
  handed hNew := absurd hTracks hNew

theorem owed_max (sec : Int) : owed (max sec 0) = owed sec := by
  unfold owed
  rcases le_total sec 0 with hNot | hPos
  · rw [max_eq_right hNot, if_neg (lt_irrefl _), if_neg (not_lt.2 hNot)]
  · rw [max_eq_left hPos]

theorem Kept.unstop (h : Kept w) : Kept { w with player := { w.player with userStopped := false } } where
  loaded := h.loaded
  saved := h.saved
  other := h.other
  idle := h.idle
  tasks x hMem := (h.tasks x hMem).imp_right fun hOk =>
    ⟨hOk.1, replaying_congr (p := { w.player with userStopped := false }) id rfl rfl hOk.2⟩
  run hBusy :=
    have hOk := h.run hBusy
    ⟨hOk.handed, fun _ => rfl, hOk.quiet, hOk.once, hOk.seeking.mono rfl rfl (.of_sleepers rfl)⟩

theorem Kept.state_of_busy (h : Kept w) (hBusy : w.player.pipe ≠ .idle) :
    w.player.state = .playing ∨ w.player.state = .paused := by
  by_contra hNot
  exact hBusy (h.idle (fun hIs => hNot (.inl hIs)) fun hIs => hNot (.inr hIs))

/-- A run is sought once at most. -/
theorem RunOk.short (h : w.RunOk) : w.sought.length + w.player.coming.length ≤ 1 := by
  have hLength := congrArg List.length h.once
  rw [List.length_append] at hLength
  rw [hLength, owed]
  split_ifs <;> simp

theorem RunOk.user_of_coming (h : w.RunOk) (hSome : w.player.coming ≠ []) : w.player.userStopped = false := by
  by_cases hLeft : 0 < w.player.pendingSeekSec
  · exact h.user (.inl hLeft)
  · rw [coming_of_handed (not_lt.1 hLeft)] at hSome
    exact h.user (.inr hSome)

/-- With RUNNING the seek that `_do_play` has left becomes the worker's. -/
theorem coming_onRunning (h : w.RunOk) :
    ({ w.player with pipe := .running } : Player).onRunning.coming = w.player.coming := by
  rw [Player.onRunning_eq]
  by_cases hLeft : w.player.pendingSeekSec > 0
  · -- What is left is the seek of this run, which no worker has yet.
    have hOpening : w.player.pipe = .opening := by
      by_contra hNot
      exact not_lt.2 (h.handed hNot) hLeft
    have hComing : w.player.coming = w.player.pendingSeekSec :: w.player.underWay := by
      rw [Player.coming, if_pos ⟨hOpening, hLeft⟩]
      rfl
    have hNone : w.player.underWay = [] := by
      have hShort := h.short
      rw [hComing, List.length_cons] at hShort
      exact List.length_eq_zero_iff.1 (by omega)
    simp only [if_pos hLeft]
    rw [coming_of_handed le_rfl, hComing, hNone]
    exact (underWay_sleep w.player .seek (.deferred w.player.pendingSeekSec)).trans (by rw [hNone]; rfl)
  · simp only [if_neg hLeft, List.append_nil]
    rw [coming_of_handed (p := w.player) (not_lt.1 hLeft)]
    exact coming_of_handed (not_lt.1 hLeft)

theorem seekers_onRunning (p : Player) :
    ({ p with pipe := .running } : Player).onRunning.seekers =
      p.seekers ++ if p.pendingSeekSec > 0 then [.deferred p.pendingSeekSec] else [] := by
  rw [Player.onRunning_eq, Player.seekers, List.map_append, List.filter_append]
  by_cases hLeft : p.pendingSeekSec > 0 <;> simp [Player.seekers, hLeft, seeks]

/-- The worker that RUNNING creates is alone. -/
theorem Seeking.onRunning {p : Player} (h : Seeking p) (hHanded : p.pipe ≠ .opening → p.pendingSeekSec ≤ 0)
    (hNone : ∀ sec, .deferredPaused sec ∉ p.seekers) : Seeking ({ p with pipe := .running } : Player).onRunning := by
  have hPipe : ({ p with pipe := .running } : Player).onRunning.pipe = .running := by rw [Player.onRunning_eq]
  have hSeekers := seekers_onRunning p
  refine ⟨fun hNot => ?_, fun hNot => ?_, fun hSome => ?_, fun sec hMem => ?_⟩
  · rw [hPipe] at hNot
    contradiction
  · rw [hPipe] at hNot
    contradiction
  · by_cases hLeft : p.pendingSeekSec > 0
    · have hOpening : p.pipe = .opening := by
        by_contra hNot
        exact not_lt.2 (hHanded hNot) hLeft
      rw [hSeekers, h.fresh hOpening hLeft, if_pos hLeft]
      exact le_rfl
    · rw [if_neg hLeft, List.append_nil] at hSeekers
      rw [hSeekers]
      rw [Player.underWay, hSeekers] at hSome
      exact h.single hSome
  · rw [hSeekers] at hMem
    rcases List.mem_append.1 hMem with hOld | hNew
    · exact absurd hOld (hNone sec)
    · split_ifs at hNew
      · simp at hNew
      · contradiction

/-- RUNNING, of a run that begins or goes on -/
theorem Kept.onRunning (h : Kept w) (hBusy : w.player.pipe ≠ .idle)
    (hNone : ∀ sec, .deferredPaused sec ∉ w.player.seekers) :
    Kept { w with player := { w.player with pipe := .running }.onRunning } := by
  have hRun := h.run hBusy
  have hComing := coming_onRunning hRun
  have hSeeking := hRun.seeking.onRunning hRun.handed hNone
  have hHanded : (if w.player.pendingSeekSec > 0 then 0 else w.player.pendingSeekSec) ≤ 0 := by
    split_ifs with hLeft
    · exact le_rfl
    · exact not_lt.1 hLeft
  rw [Player.onRunning_eq] at hComing hSeeking ⊢
  refine ⟨fun _ => h.loaded (.inr (.inr hBusy)), fun hNot => absurd rfl hNot,
    fun hOther _ => h.other hOther (h.state_of_busy hBusy), fun hNot => absurd rfl hNot, fun x hMem => .inl ?_,
    fun _ => ⟨fun _ => hHanded, fun hLeft => hRun.user_of_coming ?_, fun hNot => ?_, ?_, hSeeking⟩⟩
  · rcases List.mem_append.1 hMem with hOld | hNew
    · exact h.plain_of_busy hBusy x hOld
    · split_ifs at hNew
      · obtain rfl := List.mem_singleton.1 hNew
        trivial
      · contradiction
  · rw [← hComing, coming_of_handed hHanded]
    exact hLeft.resolve_left (not_lt.2 hHanded)
  · contradiction
  · rw [← hRun.once, ← hComing]

/-- A resume, by a handler or by the worker -/
theorem Kept.pipeResume (h : Kept w)
    (hNone : w.player.pipe = .paused → ∀ sec, .deferredPaused sec ∉ w.player.seekers) :
    Kept { w with player := w.player.pipeResume } := by
  rcases w.player.pipeResume_eq with ⟨hEq, -⟩ | ⟨hEq, hPipe⟩
  · rw [hEq]
    exact h
  · rw [hEq]
    exact h.onRunning (by simp [hPipe]) (hNone hPipe)

/-- The state follows a resume. -/
theorem Kept.setPlaying (h : Kept w) (hState : w.player.state = .playing ∨ w.player.state = .paused) (us : Int) :
    Kept { w with player := { w.player.setState .playing with playStartUs := us } } where
  loaded _ := h.loaded (hState.imp_right .inl)
  saved hNot := absurd rfl hNot
  other hOther _ := h.other hOther hState
  idle hNot := absurd rfl hNot
  tasks x hMem := (h.tasks x hMem).imp_right fun hOk =>
    ⟨hOk.1, replaying_congr (p := { w.player.setState .playing with playStartUs := us }) id rfl rfl hOk.2⟩
  run hBusy :=
    have hOk := h.run hBusy
    ⟨hOk.handed, hOk.user, fun hNot => absurd hNot (by simp [Player.setState]), hOk.once,
      hOk.seeking.mono rfl rfl (.of_sleepers rfl)⟩

theorem state_pipeResume (p : Player) : p.pipeResume.state = p.state ∨ p.pipeResume.state = .playing := by
  rcases p.pipeResume_eq with ⟨hEq, -⟩ | ⟨hEq, -⟩
  · exact .inl (congrArg Player.state hEq)
  · rw [hEq, Player.onRunning_eq]
    exact .inr rfl

/-- Play, when it switches to the current track -/
theorem Kept.switch (h : Kept w) (hOther : ¬w.Current) (hState : w.player.state = .playing ∨ w.player.state = .paused)
    (paused : Bool) :
    Kept { w with
      player := (({ w.player with userStopped := false }.grace 1500000).pipeStop luck).sleep .soap (.switch paused) } := by
  obtain ⟨hSaved, hPoint⟩ := h.other hOther hState
  have hStopped : Kept { w with player := ({ w.player with userStopped := false }.grace 1500000).pipeStop luck } :=
    h.unstop.graceStop (show (0 : Int) < 1500000 by decide)
  refine hStopped.sleep rfl (.inr ⟨rfl, ?_⟩)
  obtain ⟨s, js, hEq, -⟩ := ({ w.player with userStopped := false }.grace 1500000).pipeStop_eq luck
  show Player.pipe _ = .idle ∧ Player.savedPosSec _ ≤ 0 ∧ _ ≤ 0
  rw [hEq]
  exact ⟨rfl, hSaved, hPoint⟩

theorem Advances.switch (h : Kept w) (hOther : ¬w.Current)
    (hState : w.player.state = .playing ∨ w.player.state = .paused) (paused early : Bool) :
    Advances w (.request .play luck early)
      ((({ w.player with userStopped := false }.grace 1500000).pipeStop luck).sleep .soap (.switch paused)) :=
  .of_same (tracks_pipeStop (Player.grace { w.player with userStopped := false } 1500000) luck) rfl
    (h.switch hOther hState paused)

/-- Play -/
theorem Kept.cbPlay (h : Kept w) (hFree : w.player.free .soap = true) {early : Bool}
    (hOk : w.OrderlyAction (.request .play luck early)) :
    Advances w (.request .play luck early) (w.player.cbPlay .soap luck) := by
  have hPlain := h.plain_of_free hFree
  by_cases hPlaying : w.player.state = .playing
  · by_cases hSame : w.player.playingUri.isSome ∧ w.player.playingUri = w.player.trackUri
    · rw [Player.cbPlay_of_same hPlaying hSame]
      exact .of_same rfl rfl h
    · rw [Player.cbPlay_of_switch hPlaying hSame]
      have hOther : ¬w.Current := fun hCurrent => hSame ⟨h.loaded (.inl hPlaying), hCurrent⟩
      exact .switch h hOther (.inl hPlaying) false early
  · by_cases hPaused : w.player.state = .paused
    · cases hOther : w.player.otherUri with
      | true =>
        rw [Player.cbPlay_of_paused_switch hPaused hOther]
        have hNot : ¬w.Current := by
          intro hCurrent
          rw [Current] at hCurrent
          rw [Player.otherUri, hCurrent] at hOther
          cases hTrack : w.player.trackUri <;> simp [hTrack] at hOther
        exact .switch h hNot (.inr hPaused) true early
      | false =>
        -- The pipeline goes on where it is: no run begins, and no worker is there to be disturbed.
        rw [Player.cbPlay_of_resume hPaused hOther]
        have hState : w.player.pipeResume.state = .playing ∨ w.player.pipeResume.state = .paused :=
          (state_pipeResume w.player).elim (fun hSame => .inr (hSame.trans hPaused)) .inl
        have hNone (hPipe : w.player.pipe = .paused) : w.player.underWay = [] :=
          (List.append_eq_nil_iff.1 ((h.run (by simp [hPipe])).quiet hPaused)).2
        have hResumed := ((h.pipeResume fun hPipe => none_paused_of_none (hNone hPipe)).setPlaying hState
          w.player.nowUs).unstop
        refine .of_same (tracks_pipeResume w.player) rfl ?_
        exact hResumed.frame ⟨rfl, rfl, rfl, rfl, rfl, rfl, rfl, rfl⟩ (.of_sleepers rfl) fun _ => .inl
    · have hSaved := h.saved hPlaying
      by_cases hTrack : w.player.trackUri = none
      · rw [Player.cbPlay_of_nothing hPlaying hPaused hTrack]
        have hNone : max (w.player.trackUri.elim 0 w.points) 0 = 0 := by rw [hTrack]; rfl
        refine .of_same rfl rfl (Kept.of_stopped (h.idle hPlaying hPaused) hPlaying hPaused ?_ fun x hMem =>
          .inl (hPlain x hMem))
        exact (startSec_of_nothing le_rfl).trans hNone.symm
      · rw [Player.cbPlay_of_fresh hPlaying hPaused (Option.isSome_iff_ne_none.2 hTrack)]
        rcases doPlay_split w.player luck .soap w.player.trackUri w.player.startSec .fresh with
          ⟨hNone, -⟩ | ⟨uri, hUri, hRuns, -, hEq⟩ | ⟨uri, hUri, hEq⟩
        · exact absurd hNone hTrack
        · -- The run begins where the track was left, as the saved position tells.
          rw [hEq]
          have hClear := hOk hPlaying hPaused (Option.isSome_iff_ne_none.2 hTrack) hRuns
          have hPoint : w.point = w.points uri := by rw [point, hUri]; rfl
          have hDue : owed w.player.startSec = owed (w.points uri) := by rw [hSaved, owed_max, hPoint]
          obtain ⟨hKept, hOpening, hHanded⟩ := Kept.begun (w := w) (a := .request .play luck early)
            (p := { w.player with generation := w.player.generation + 1, nearEndCount := 0 }.grace 8000000)
            uri w.player.startSec .fresh early rfl (.inl hUri) hClear hDue hPlain
          exact ⟨hKept, fun _ => hOpening, fun _ => hHanded⟩
        · -- `_do_play` remembers where to start when it tries again.
          rw [hEq]
          have hTrying : Kept { w with
              player := { w.player with generation := w.player.generation + 1, nearEndCount := 0 }.grace 8000000 } :=
            h.frame ⟨rfl, rfl, rfl, rfl, rfl, rfl, rfl, rfl⟩ (.of_sleepers rfl) fun _ => .inl
          refine .of_same rfl rfl (hTrying.sleep rfl (.inr ⟨rfl, h.idle hPlaying hPaused, hUri, ?_⟩))
          rw [hSaved, max_assoc, max_self]
          rfl

end Playback

end EspMiplay.Dlna
