import Mathlib.Data.List.Induction
import Mathlib.Data.List.TakeWhile
import EspMiplay.Dlna.MiplayMedia

/-!
# A track in pieces

A phone may report a track in one event or field by field, in any order
(`Delivery`). What is stored in the end ought to be the track, and on the way no
field that has arrived ought to be lost again.

An event that is taken for a new track wipes everything out. It is taken so if one
of five fields is not what is stored, and it then makes no difference that nothing
was stored.

## Results

* `stored_consume`    — one field after one event.
* `stored_iff`        — the track is stored, and stays so on the way, exactly when an
  event taken for a new track repeats what has arrived before it.
* `id_wipes_title`    — an id behind the title.
-/

namespace EspMiplay.Dlna

open EspMiplay.Miplay (Bytes MediaEvent peek cstr strncpy miplayCoverSourceMax)

/-! ## Tracks -/

/-- A text of an event's field of that size. -/
def FitsText (size : Nat) (text : Bytes) : Prop := text.length < size ∧ 0 ∉ text

instance (size : Nat) (text : Bytes) : Decidable (FitsText size text) :=
  inferInstanceAs (Decidable (_ ∧ _))

/-- A track description; a field the phone does not know is empty, or 0. -/
structure Track where
  id : Bytes
  audioId : Bytes
  title : Bytes
  artist : Bytes
  album : Bytes
  coverUrl : Bytes
  durationMs : Int
  hId : FitsText 64 id
  hAudioId : FitsText 64 audioId
  hTitle : FitsText 128 title
  hArtist : FitsText 128 artist
  hAlbum : FitsText 128 album
  hCoverUrl : FitsText miplayCoverSourceMax coverUrl

inductive Field where
  | id
  | audioId
  | title
  | artist
  | album
  | coverUrl
  | duration
  deriving DecidableEq

/-- A field holds a text, or a duration. -/
inductive Value where
  | text (t : Bytes)
  | ms (n : Int)
  deriving DecidableEq

def Field.empty : Field → Value
  | .duration => .ms 0
  | _ => .text []

/-- A field of a track, as it is to be stored. -/
def Track.value (d : Track) : Field → Value
  | .id => .text d.id
  | .audioId => .text d.audioId
  | .title => .text d.title
  | .artist => .text d.artist
  | .album => .text d.album
  | .coverUrl => .text d.coverUrl
  | .duration => .ms (clampMiplayMs d.durationMs)

/-- A field as it is stored. -/
def MiplayMedia.stored (m : MiplayMedia) : Field → Value
  | .id => .text m.id
  | .audioId => .text m.audioId
  | .title => .text m.title
  | .artist => .text m.artist
  | .album => .text m.album
  | .coverUrl => .text m.coverUrl
  | .duration => .ms m.durationMs

/-- The event brings the field. -/
def Brings (e : MediaEvent) : Field → Bool
  | .id => arrives e.changed.id e.id
  | .audioId => arrives e.changed.audioId e.audioId
  | .title => arrives e.changed.title e.title
  | .artist => arrives e.changed.artist e.artist
  | .album => arrives e.changed.album e.album
  | .coverUrl => arrives e.changed.coverUrl e.coverUrl
  | .duration => e.changed.duration && e.durationMs > 0

/-- What it brings is the track's. -/
structure Carries (d : Track) (e : MediaEvent) : Prop where
  id : Brings e .id → e.id = d.id
  audioId : Brings e .audioId → e.audioId = d.audioId
  title : Brings e .title → e.title = d.title
  artist : Brings e .artist → e.artist = d.artist
  album : Brings e .album → e.album = d.album
  coverUrl : Brings e .coverUrl → e.coverUrl = d.coverUrl
  duration : Brings e .duration → e.durationMs = d.durationMs

/-! ## One event -/

theorem strncpy_fits {size : Nat} {text : Bytes} (h : FitsText size text) :
    strncpy size text = text := by
  have hCstr : cstr text = text := by
    refine List.takeWhile_eq_self_iff.2 fun c hc => ?_
    have hNe : c ≠ 0 := fun h0 => h.2 (h0 ▸ hc)
    simp [hNe]
  rw [strncpy, hCstr]
  exact List.take_of_length_le (by have := h.1; omega)

/-- A title is never taken for a line of lyrics: a title that changes is a new track. -/
theorem MiplayMedia.lyricAsTitle_eq (m : MiplayMedia) (e : MediaEvent) :
    m.lyricAsTitle e = false := by
  cases h : m.titleChanged e <;> simp [lyricAsTitle, newTrack, h]

/-- What a new track leaves. -/
theorem MiplayMedia.stored_wiped (m : MiplayMedia) (f : Field) : m.wiped.stored f = f.empty := by
  cases f <;> rfl

/-- The position and the state do not touch the fields. -/
theorem MiplayMedia.stored_withState (m : MiplayMedia) (e : MediaEvent) (nowUs : Int) (f : Field) :
    (m.withState e nowUs).stored f = m.stored f := by
  unfold withState
  split
  · split <;> cases f <;> rfl
  · rfl

theorem MiplayMedia.stored_withPosition (m : MiplayMedia) (e : MediaEvent) (nowUs : Int)
    (f : Field) : (m.withPosition e nowUs).stored f = m.stored f := by
  unfold withPosition
  split
  · cases f <;> rfl
  · rfl

/-- A text that arrives replaces the one stored. -/
theorem text_arrives {marked : Bool} {new old want : Bytes} {size : Nat}
    (hEq : arrives marked new → new = want) (hFits : FitsText size want) :
    Value.text (if arrives marked new then strncpy size new else old) =
      if arrives marked new then .text want else .text old := by
  by_cases h : arrives marked new
  · rw [if_pos h, if_pos h, hEq h, strncpy_fits hFits]
  · rw [if_neg h, if_neg h]

/-- The fields of an event. -/
theorem stored_withFields {d : Track} {e : MediaEvent} (he : Carries d e) (m : MiplayMedia)
    (f : Field) :
    (m.withFields e false).stored f = if Brings e f then d.value f else m.stored f := by
  cases f with
  | id => exact text_arrives he.id d.hId
  | audioId => exact text_arrives he.audioId d.hAudioId
  | title => exact text_arrives he.title d.hTitle
  | artist =>
    simp only [MiplayMedia.withFields, MiplayMedia.stored, Bool.not_false, Bool.true_or,
      Bool.and_true]
    exact text_arrives he.artist d.hArtist
  | album =>
    simp only [MiplayMedia.withFields, MiplayMedia.stored, Bool.not_false, Bool.true_or,
      Bool.and_true]
    exact text_arrives he.album d.hAlbum
  | coverUrl =>
    by_cases hSame : m.coverUrl = e.coverUrl
    · -- the cover that is stored is the one that arrives
      have hStored : (m.withFields e false).stored .coverUrl = .text m.coverUrl := by
        simp [MiplayMedia.withFields, MiplayMedia.stored, hSame]
      rw [hStored]
      by_cases h : Brings e .coverUrl
      · rw [if_pos h, hSame, he.coverUrl h]
        rfl
      · rw [if_neg h]
        rfl
    · simp only [MiplayMedia.withFields, MiplayMedia.stored, ne_eq, hSame, not_false_eq_true,
        decide_true, Bool.and_true]
      exact text_arrives he.coverUrl d.hCoverUrl
  | duration =>
    by_cases h : Brings e .duration
    · have hIf : (m.withFields e false).durationMs = clampMiplayMs e.durationMs := if_pos h
      rw [if_pos h, MiplayMedia.stored, hIf, he.duration h]
      rfl
    · have hIf : (m.withFields e false).durationMs = m.durationMs := if_neg h
      rw [if_neg h, MiplayMedia.stored, hIf]
      rfl

/-- **One field after one event.** -/
theorem stored_consume {d : Track} {e : MediaEvent} (he : Carries d e) (m : MiplayMedia)
    (nowUs : Int) (f : Field) : (m.consumeEvent e nowUs).1.stored f =
      if Brings e f then d.value f else if m.newTrack e then f.empty else m.stored f := by
  have hFields (m₁ : MiplayMedia) :
      (((m₁.withFields e (m.lyricAsTitle e)).withPosition e nowUs).withState e nowUs).stored f =
        if Brings e f then d.value f else m₁.stored f := by
    rw [MiplayMedia.stored_withState, MiplayMedia.stored_withPosition, m.lyricAsTitle_eq,
      stored_withFields he]
  have hFetch (m₁ : MiplayMedia) (b : Bool) :
      ({ m₁ with lyricsRefetch := b } : MiplayMedia).stored f = m₁.stored f := by cases f <;> rfl
  have hStart (m₁ : MiplayMedia) : (m₁.fromStart nowUs).stored f = m₁.stored f := by cases f <;> rfl
  simp only [MiplayMedia.consumeEvent, hFetch]
  by_cases hNew : m.newTrack e
  · simp only [hNew, if_true]
    split
    · rw [hStart, hFields, m.stored_wiped]
    · rw [hFields, m.stored_wiped]
  · simp only [hNew]
    exact hFields m

/-! ## Deliveries -/

/-- The record after some events, each with the time at which it is consumed. -/
def consumeAll (m : MiplayMedia) (es : List (MediaEvent × Int)) : MiplayMedia :=
  es.foldl (fun m e => (m.consumeEvent e.1 e.2).1) m

theorem consumeAll_append (m : MiplayMedia) (es es' : List (MediaEvent × Int)) :
    consumeAll m (es ++ es') = consumeAll (consumeAll m es) es' := List.foldl_append

/-- The field has arrived. -/
def Arrived (es : List (MediaEvent × Int)) (f : Field) : Prop := ∃ e ∈ es, Brings e.1 f

theorem arrived_concat {es : List (MediaEvent × Int)} {e : MediaEvent × Int} {f : Field} :
    Arrived (es ++ [e]) f ↔ Arrived es f ∨ Brings e.1 f := by
  simp [Arrived, or_and_right, exists_or]

/-- The fields of a track in events, all of them and nothing else, and what was stored
before. -/
structure Delivery where
  track : Track
  before : MiplayMedia
  events : List (MediaEvent × Int)
  hCarries : ∀ e ∈ events, Carries track e.1
  hAll : ∀ f, track.value f ≠ f.empty → Arrived events f

namespace Delivery

/-- What has arrived is stored, and in the end all of it. -/
def Right (d : Delivery) : Prop :=
  (∀ es es' f, d.events = es ++ es' → Arrived es f →
      (consumeAll d.before es).stored f = d.track.value f) ∧
    ∀ f, (consumeAll d.before d.events).stored f = d.track.value f

/-- An event taken for a new track repeats what has arrived before it; and if none is,
nothing is left of the old track in a field the new one does not have. -/
def Repeats (d : Delivery) : Prop :=
  (∀ es e es', d.events = es ++ e :: es' → (consumeAll d.before es).newTrack e.1 →
      ∀ f, Arrived es f → Brings e.1 f) ∧
    ((∀ es e es', d.events = es ++ e :: es' → ¬(consumeAll d.before es).newTrack e.1) →
      ∀ f, d.track.value f = f.empty → d.before.stored f = f.empty)

/-- The event behind some prefix is taken for a new track. -/
def TakenForNew (m : MiplayMedia) (es : List (MediaEvent × Int)) : Prop :=
  ∃ es₁ e es₂, es = es₁ ++ e :: es₂ ∧ (consumeAll m es₁).newTrack e.1

theorem takenForNew_concat {m : MiplayMedia} {es : List (MediaEvent × Int)}
    {e : MediaEvent × Int} :
    TakenForNew m (es ++ [e]) ↔ TakenForNew m es ∨ (consumeAll m es).newTrack e.1 := by
  constructor
  · rintro ⟨es₁, x, es₂, hEs, hNew⟩
    rcases List.eq_nil_or_concat es₂ with rfl | ⟨es₂, y, rfl⟩
    · obtain ⟨rfl, hx⟩ := List.append_inj' hEs rfl
      obtain rfl : e = x := (List.cons.inj hx).1
      exact .inr hNew
    · have hSplit : es ++ [e] = (es₁ ++ x :: es₂) ++ [y] := by rw [hEs]; simp
      obtain ⟨rfl, -⟩ := List.append_inj' hSplit rfl
      exact .inl ⟨es₁, x, es₂, rfl, hNew⟩
  · rintro (⟨es₁, x, es₂, rfl, hNew⟩ | hNew)
    · exact ⟨es₁, x, es₂ ++ [e], by simp, hNew⟩
    · exact ⟨es, e, [], rfl, hNew⟩

/-- A field that arrives is none the track does not have. -/
theorem value_ne_of_brings {d : Track} {e : MediaEvent} (he : Carries d e) {f : Field}
    (h : Brings e f) : d.value f ≠ f.empty := by
  have hText {marked : Bool} {t want : Bytes} (ht : arrives marked t) (hEq : t = want) :
      Value.text want ≠ .text [] := by
    intro hNil
    obtain rfl := hEq.trans (Value.text.inj hNil)
    simp [arrives, peek] at ht
  cases f with
  | id => exact hText h (he.id h)
  | audioId => exact hText h (he.audioId h)
  | title => exact hText h (he.title h)
  | artist => exact hText h (he.artist h)
  | album => exact hText h (he.album h)
  | coverUrl => exact hText h (he.coverUrl h)
  | duration =>
    intro hZero
    have hMs : clampMiplayMs d.durationMs = 0 := Value.ms.inj hZero
    have hDur := he.duration h
    simp only [Brings, Bool.and_eq_true, decide_eq_true_eq] at h
    have hPos : clampMiplayMs d.durationMs > 0 := by
      simp only [clampMiplayMs, intMax]
      split_ifs <;> omega
    omega

/-- A field that does not arrive is what it was, or empty behind a new track. -/
theorem stored_unbrought {d : Track} {m : MiplayMedia} {es : List (MediaEvent × Int)}
    (hCarries : ∀ e ∈ es, Carries d e.1) {f : Field} (hNot : ∀ e ∈ es, ¬Brings e.1 f) :
    (TakenForNew m es → (consumeAll m es).stored f = f.empty) ∧
      (¬TakenForNew m es → (consumeAll m es).stored f = m.stored f) := by
  induction es using List.reverseRecOn with
  | nil =>
    refine ⟨?_, fun _ => rfl⟩
    rintro ⟨es₁, e, es₂, hEs, -⟩
    simp at hEs
  | append_singleton es e ih =>
    obtain ⟨hTaken, hKept⟩ := ih (fun x hx => hCarries x (by simp [hx])) fun x hx => hNot x (by simp [hx])
    have hLast : (consumeAll m (es ++ [e])).stored f =
        if (consumeAll m es).newTrack e.1 then f.empty else (consumeAll m es).stored f := by
      rw [consumeAll_append]
      exact (stored_consume (hCarries e (by simp)) _ e.2 f).trans (if_neg (hNot e (by simp)))
    rw [takenForNew_concat, hLast]
    by_cases hNew : (consumeAll m es).newTrack e.1
    · rw [if_pos hNew]
      exact ⟨fun _ => rfl, fun h => absurd (.inr hNew) h⟩
    · rw [if_neg hNew]
      exact ⟨fun h => hTaken (h.resolve_right hNew), fun h => hKept fun hNot => h (.inl hNot)⟩

theorem Repeats.arrived {d : Delivery} (h : d.Repeats) {es es' : List (MediaEvent × Int)}
    (hEs : d.events = es ++ es') {f : Field} (hf : Arrived es f) :
    (consumeAll d.before es).stored f = d.track.value f := by
  induction es using List.reverseRecOn generalizing es' with
  | nil =>
    obtain ⟨e, he, -⟩ := hf
    cases he
  | append_singleton es e ih =>
    have hSplit : d.events = es ++ e :: es' := by simpa using hEs
    have hCarries : Carries d.track e.1 := d.hCarries e (by simp [hSplit])
    rw [consumeAll_append]
    refine (stored_consume hCarries _ e.2 f).trans ?_
    by_cases hBrings : Brings e.1 f
    · rw [if_pos hBrings]
    · have hBefore := (arrived_concat.1 hf).resolve_right hBrings
      have hOld : ¬(consumeAll d.before es).newTrack e.1 := fun hNew =>
        hBrings (h.1 es e es' hSplit hNew f hBefore)
      rw [if_neg hBrings, if_neg hOld]
      exact ih hSplit hBefore

/-- A field the track does not have never arrives. -/
theorem not_brings (d : Delivery) {f : Field} (hf : d.track.value f = f.empty) :
    ∀ e ∈ d.events, ¬Brings e.1 f := fun e he hBrings =>
  value_ne_of_brings (d.hCarries e he) hBrings hf

theorem Repeats.right {d : Delivery} (h : d.Repeats) : d.Right := by
  refine ⟨fun es es' f hEs hf => Repeats.arrived h hEs hf, fun f => ?_⟩
  by_cases hf : d.track.value f = f.empty
  · obtain ⟨hTaken, hKept⟩ := stored_unbrought (m := d.before) d.hCarries (d.not_brings hf)
    rw [hf]
    by_cases hNew : TakenForNew d.before d.events
    · exact hTaken hNew
    · rw [hKept hNew]
      exact h.2 (fun es e es' hEs hNew' => hNew ⟨es, e, es', hEs, hNew'⟩) f hf
  · exact Repeats.arrived h (List.append_nil _).symm (d.hAll f hf)

/-- **Split invariance.** What has arrived of a track stays stored, and in the end it is
the track that is stored, exactly when every event taken for a new track repeats
what has arrived before it. -/
theorem stored_iff (d : Delivery) : d.Right ↔ d.Repeats := by
  refine ⟨fun h => ⟨?_, ?_⟩, Repeats.right⟩
  · intro es e es' hEs hNew f hf
    by_contra hNot
    have hCarries : Carries d.track e.1 := d.hCarries e (by simp [hEs])
    have hSplit : d.events = (es ++ [e]) ++ es' := by simpa using hEs
    -- the field is wiped out
    have hStored := h.1 _ _ f hSplit (arrived_concat.2 (.inl hf))
    have hEmpty := (stored_consume hCarries (consumeAll d.before es) e.2 f).trans
      ((if_neg hNot).trans (if_pos hNew))
    rw [consumeAll_append] at hStored
    obtain ⟨x, hx, hBrings⟩ := hf
    exact value_ne_of_brings (d.hCarries x (by simp [hEs, hx])) hBrings (hStored.symm.trans hEmpty)
  · intro hNever f hf
    have hKept := (stored_unbrought (m := d.before) d.hCarries (d.not_brings hf)).2
      fun ⟨es, e, es', hEs, hNew⟩ => hNever es e es' hEs hNew
    rw [← hKept, h.2 f, hf]

/-- A title, and then an id; nothing was stored before. -/
def titleThenId : Delivery where
  track :=
    { id := [0x31], audioId := [], title := [0x41], artist := [], album := [], coverUrl := []
      durationMs := 0
      hId := by decide, hAudioId := by decide, hTitle := by decide, hArtist := by decide
      hAlbum := by decide, hCoverUrl := by decide }
  before :=
    { id := [], audioId := [], title := [], artist := [], album := [], coverUrl := []
      state := .playing, positionMs := 0, durationMs := 0, anchorUs := 0
      lyricsRefetch := true, lyricsUiClear := false }
  events :=
    [({ Miplay.miplayMediaEventInit with changed := { title := true }, title := [0x41] }, 1),
      ({ Miplay.miplayMediaEventInit with changed := { id := true }, id := [0x31] }, 2)]
  hCarries := by
    intro e he
    rcases List.mem_cons.1 he with rfl | he
    · constructor <;> decide
    · obtain rfl := List.mem_singleton.1 he
      constructor <;> decide
  hAll := by
    intro f hf
    cases f with
    | id => exact ⟨_, List.mem_cons_of_mem _ (List.mem_cons_self), by decide⟩
    | title => exact ⟨_, List.mem_cons_self, by decide⟩
    | _ => exact absurd rfl hf

/-- The id wipes out the title. -/
theorem id_wipes_title : ¬∀ d : Delivery, d.Right := by
  intro hAll
  have hTitle := (hAll titleThenId).2 .title
  revert hTitle
  decide

end Delivery

end EspMiplay.Dlna
