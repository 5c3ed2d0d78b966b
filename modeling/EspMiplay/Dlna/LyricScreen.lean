import EspMiplay.Lib.Transition
import EspMiplay.Lyrics.Fetch

/-!
# The lines on the lyric screen

`ui_update_task` shows the line that is sung, with the line before it and the line after it. It
sets the labels only when the index of the line changes (`last_cur_line`), while other tasks fetch
and clear the lyrics themselves. The task holds the mutex of the lyrics only to find the line, and
reads everything else of them without it.

A turn of the task is a step for each of its accesses. Between them come the steps of
`lyrics_fetch.c`, of as many callers and fetch tasks as there are, and new tracks that announce
themselves. Where the screen stands, and the position, come with the turn.

## Results

* `lyricsGetCurrentLine_eq_some` — the line that is sung.
* `ScreenInv.step`               — what every step keeps.
* `lyricScreen_follows`          — a turn never ends with another line on the screen than the one
  that is sung, as long as lyrics come only when the task will notice it.
* `hurried_stale`                — lyrics that it does not notice.
-/

namespace EspMiplay

-- ---------------------------------------------------------------------------
-- The line that is sung
-- ---------------------------------------------------------------------------

namespace Lyrics

/-- The scan of `lyrics_get_current_line`, from index `i` on -/
def currentLineFrom (positionMs : Int) : Nat → Option Nat → List Line → Option Nat
  | _, result, [] => result
  | i, result, line :: lines =>
    currentLineFrom positionMs (i + 1) (if line.timeMs ≤ positionMs then some i else result) lines

/-- `lyrics_get_current_line`; `none` is -1 -/
def lyricsGetCurrentLine (data : LyricData) (positionMs : Int) : Option Nat :=
  if !data.loaded || data.lines.isEmpty then none
  else currentLineFrom positionMs 0 none (data.lines.map From.value)

/-- Line `i` has begun, and none behind it has. -/
structure IsCurrent (lines : List Line) (positionMs : Int) (i : Nat) : Prop where
  begun : ∃ line, lines[i]? = some line ∧ line.timeMs ≤ positionMs
  last : ∀ j line, i < j → lines[j]? = some line → positionMs < line.timeMs

theorem IsCurrent.lt_length {lines : List Line} {positionMs : Int} {i : Nat}
    (h : IsCurrent lines positionMs i) : i < lines.length := by
  obtain ⟨line, hLine, -⟩ := h.begun
  exact (List.getElem?_eq_some_iff.1 hLine).1

theorem IsCurrent.unique {lines : List Line} {positionMs : Int} {i j : Nat}
    (hi : IsCurrent lines positionMs i) (hj : IsCurrent lines positionMs j) : i = j := by
  obtain ⟨a, hA, hABegun⟩ := hi.begun
  obtain ⟨b, hB, hBBegun⟩ := hj.begun
  rcases Nat.lt_trichotomy i j with hLt | hEq | hGt
  · exact absurd (hi.last j b hLt hB) (not_lt.2 hBBegun)
  · exact hEq
  · exact absurd (hj.last i a hGt hA) (not_lt.2 hABegun)

/-- From index `n` on: what the scan ends with is what it began with, or the last line that has
begun. -/
theorem currentLineFrom_cases (positionMs : Int) (n : Nat) (result : Option Nat)
    (lines : List Line) :
    currentLineFrom positionMs n result lines = result ∧
        (∀ line ∈ lines, positionMs < line.timeMs) ∨
      ∃ i, currentLineFrom positionMs n result lines = some (n + i) ∧
        IsCurrent lines positionMs i := by
  induction lines generalizing n result with
  | nil => exact .inl ⟨rfl, List.forall_mem_nil _⟩
  | cons line lines ih =>
    rw [currentLineFrom]
    obtain ⟨hSame, hLater⟩ | ⟨i, hFound, hCurrent⟩ :=
      ih (n + 1) (if line.timeMs ≤ positionMs then some n else result)
    · by_cases hBegun : line.timeMs ≤ positionMs
      · rw [if_pos hBegun] at hSame
        refine .inr ⟨0, by rw [if_pos hBegun, hSame, Nat.add_zero], ⟨line, rfl, hBegun⟩, ?_⟩
        intro j other hLt hOther
        obtain ⟨k, rfl⟩ := Nat.exists_eq_add_of_lt hLt
        rw [List.getElem?_cons_succ] at hOther
        exact hLater other (List.mem_of_getElem? hOther)
      · rw [if_neg hBegun] at hSame
        refine .inl ⟨by rw [if_neg hBegun, hSame], ?_⟩
        exact List.forall_mem_cons.2 ⟨not_le.1 hBegun, hLater⟩
    · refine .inr ⟨i + 1, by rw [hFound, Nat.add_right_comm, Nat.add_assoc], ?_, ?_⟩
      · exact hCurrent.begun
      · intro j other hLt hOther
        obtain ⟨k, rfl⟩ := Nat.exists_eq_add_of_lt hLt
        exact hCurrent.last (i + 1 + k) other (by omega) (by
          rwa [show i + 1 + k + 1 = (i + 1 + k) + 1 from rfl, List.getElem?_cons_succ] at hOther)

/-- The last line that has begun is found, whatever the order of the lines. -/
theorem lyricsGetCurrentLine_eq_some {data : LyricData} {positionMs : Int} {i : Nat} :
    lyricsGetCurrentLine data positionMs = some i ↔
      data.loaded = true ∧ IsCurrent (data.lines.map From.value) positionMs i := by
  unfold lyricsGetCurrentLine
  by_cases hNone : (!data.loaded || data.lines.isEmpty) = true
  · rw [if_pos hNone]
    refine iff_of_false (by simp) ?_
    rintro ⟨hLoaded, hCurrent⟩
    have hLength := hCurrent.lt_length
    rw [hLoaded, Bool.not_true, Bool.false_or, List.isEmpty_iff] at hNone
    rw [hNone] at hLength
    exact absurd hLength (Nat.not_lt_zero _)
  · rw [if_neg hNone]
    have hLoaded : data.loaded = true := by
      cases hData : data.loaded with
      | true => rfl
      | false => exact absurd (by rw [hData]; rfl) hNone
    rw [and_iff_right hLoaded]
    obtain ⟨hSame, hLater⟩ | ⟨k, hFound, hCurrent⟩ :=
      currentLineFrom_cases positionMs 0 none (data.lines.map From.value)
    · rw [hSame]
      refine iff_of_false (by simp) ?_
      intro hCurrent
      obtain ⟨line, hLine, hBegun⟩ := hCurrent.begun
      exact absurd (hLater line (List.mem_of_getElem? hLine)) (not_lt.2 hBegun)
    · rw [hFound, Nat.zero_add, Option.some.injEq]
      exact ⟨fun hEq => hEq ▸ hCurrent, fun h => hCurrent.unique h⟩

end Lyrics

-- ---------------------------------------------------------------------------
-- The screen
-- ---------------------------------------------------------------------------

namespace Dlna

open Transition Lyrics
open EspMiplay.Miplay (Bytes)

/-- `s_lyrics_prev`, `s_lyrics_curr` and `s_lyrics_next` -/
structure LyricLabels where
  prev : Bytes
  curr : Bytes
  next : Bytes
  deriving DecidableEq

/-- What `ui_update_task` does next. -/
inductive LyricPc where
  /-- it waits outside the lock -/
  | wait
  /-- media events, and then `s_lyrics_ui_clear_pending` -/
  | consume
  | look
  /-- `lyr_now_loaded` -/
  | known
  /-- `if (lyr->loaded && lyr->count > 0 && is_lyrics_vis)` -/
  | enter
  /-- `else if (!lyr->loaded || lyr->count <= 0)` -/
  | leave
  | line
  /-- `if (cur < 0 || cur >= lyr->count)` -/
  | bound (cur : Option Nat)
  /-- `cur + 1 < lyr->count` -/
  | next (cur : Nat)
  /-- `if (cur != last_cur_line)` -/
  | update (cur : Nat) (hasNext : Bool)
  deriving DecidableEq

structure LyricScreen where
  fetch : Lyrics.World
  labels : LyricLabels
  /-- `s_lyrics_placeholder` is shown -/
  placeholder : Bool
  /-- `s_lyrics_ui_clear_pending` -/
  clearPending : Bool
  /-- `last_cur_line`; `none` is -1 -/
  lastCurLine : Option Nat
  /-- `s_last_lyrics_visible` -/
  lastVisible : Bool
  /-- `s_lyr_was_loaded` -/
  wasLoaded : Bool
  isLyricsVis : Bool
  posMs : Int
  pc : LyricPc

/-- What a turn meets: the screen, the position, and what stands in the array behind the lines. -/
structure LyricTurn where
  visible : Bool
  posMs : Int
  beyond : Nat → Bytes

namespace LyricScreen

variable (s : LyricScreen)

/-- `lyr->lines` up to `lyr->count` -/
def lines : List Line := s.fetch.data.lines.map From.value

/-- `lyr->loaded && lyr->count > 0` -/
def ready : Bool := s.fetch.data.loaded && !s.fetch.data.lines.isEmpty

/-- `lyr->lines[i].text` -/
def textAt (beyond : Nat → Bytes) (i : Nat) : Bytes := (s.lines[i]?.map Line.text).getD (beyond i)

/-- `prev`, `curr` and `next` of `ui_update_task` -/
def texts (beyond : Nat → Bytes) (cur : Nat) (hasNext : Bool) : LyricLabels where
  prev := if 0 < cur then s.textAt beyond (cur - 1) else []
  curr := s.textAt beyond cur
  next := if hasNext then s.textAt beyond (cur + 1) else []

/-- `lvgl_port_ui_lyrics_clear` -/
def lyricsClear : LyricScreen := { s with labels := ⟨[], [], []⟩, placeholder := true }

/-- `lvgl_port_ui_lyrics_update` -/
def lyricsUpdate (labels : LyricLabels) : LyricScreen :=
  { s with labels := labels, placeholder := s.placeholder && labels.curr.isEmpty }

/-- The next access of `ui_update_task`. -/
def uiStep (turn : LyricTurn) : LyricScreen :=
  match s.pc with
  | .wait => { s with pc := .consume }
  | .consume =>
    if s.clearPending then
      { s.lyricsClear with clearPending := false, lastCurLine := none, pc := .look }
    else { s with pc := .look }
  | .look =>
    { s with
      posMs := turn.posMs
      isLyricsVis := turn.visible
      lastCurLine := if turn.visible && !s.lastVisible then none else s.lastCurLine
      lastVisible := turn.visible
      pc := .known }
  | .known =>
    { s with
      lastCurLine := if s.ready && !s.wasLoaded then none else s.lastCurLine
      wasLoaded := s.ready
      pc := .enter }
  | .enter => { s with pc := if s.ready && s.isLyricsVis then .line else .leave }
  | .leave => { s with lastCurLine := if s.ready then s.lastCurLine else none, pc := .wait }
  | .line => { s with pc := .bound (lyricsGetCurrentLine s.fetch.data s.posMs) }
  | .bound cur =>
    match cur.filter (· < s.lines.length) with
    | some cur => { s with pc := .next cur }
    | none =>
      if s.lastCurLine = none then { s with pc := .wait }
      else { s.lyricsClear with lastCurLine := none, pc := .wait }
  | .next cur => { s with pc := .update cur (cur + 1 < s.lines.length) }
  | .update cur hasNext =>
    if s.lastCurLine = some cur then { s with pc := .wait }
    else
      { s.lyricsUpdate (s.texts turn.beyond cur hasNext) with
        lastCurLine := some cur
        pc := .wait }

end LyricScreen

inductive LyricAction where
  /-- a step of `lyrics_fetch.c`, of whatever task -/
  | lyrics (a : Lyrics.Action)
  /-- `s_lyrics_ui_clear_pending = true`, in `cb_set_uri` -/
  | announce
  | ui (turn : LyricTurn)
  /-- a media event of another track: `lvgl_port_ui_lyrics_clear` -/
  | clearLabels
  /-- a media event of another track: `s_lyrics_ui_clear_pending = false` -/
  | dropPending

namespace LyricScreen

def step (P : Parsers) (s : LyricScreen) : LyricAction → Option LyricScreen
  | .lyrics a => (Lyrics.step P s.fetch a).map fun w => { s with fetch := w }
  | .announce => some { s with clearPending := true }
  | .ui turn => some (s.uiStep turn)
  | .clearLabels => if s.pc = .consume then some s.lyricsClear else none
  | .dropPending => if s.pc = .consume then some { s with clearPending := false } else none

def boot : LyricScreen where
  fetch := World.initial
  labels := ⟨[], [], []⟩
  placeholder := true
  clearPending := false
  lastCurLine := none
  lastVisible := false
  wasLoaded := false
  isLyricsVis := false
  posMs := 0
  pc := .wait

/-- Line `i` stands on the screen, between its neighbours. -/
structure Shows (s : LyricScreen) (i : Nat) : Prop where
  prev : s.labels.prev = if 0 < i then s.textAt (fun _ => []) (i - 1) else []
  curr : s.labels.curr = s.textAt (fun _ => []) i
  next : s.labels.next = s.textAt (fun _ => []) (i + 1)
  placeholder : s.labels.curr ≠ [] → s.placeholder = false

/-- A turn with the lyric screen in view ends with the line that is sung on it. -/
def Follows (s : LyricScreen) (_ : LyricAction) (s' : LyricScreen) : Prop :=
  s.pc ≠ .wait → s'.pc = .wait → s'.isLyricsVis = true → s'.ready = true →
    ∀ i, IsCurrent s'.lines s'.posMs i → s'.Shows i

/-- The task will notice that there are other lyrics. -/
def Notices (s : LyricScreen) : Prop :=
  ((s.pc = .wait ∨ s.pc = .consume) ∧ s.clearPending = true) ∨
    ((s.pc = .wait ∨ s.pc = .consume ∨ s.pc = .look ∨ s.pc = .known) ∧
      (s.wasLoaded = false ∨ s.lastCurLine = none))

/-- Lyrics come when the task will notice them, and a media event clears the screen behind the
lyrics. -/
def Orderly (s : LyricScreen) (a : LyricAction) (s' : LyricScreen) : Prop :=
  match a with
  | .lyrics _ => s'.fetch.data = s.fetch.data ∨ s'.ready = false ∨ s.Notices
  | .clearLabels | .dropPending => s.ready = false
  | .announce | .ui _ => True

instance (s : LyricScreen) : Decidable s.Notices := inferInstanceAs (Decidable (_ ∨ _))

instance (s : LyricScreen) (a : LyricAction) (s' : LyricScreen) : Decidable (Orderly s a s') :=
  match a with
  | .lyrics _ => inferInstanceAs (Decidable (_ ∨ _ ∨ _))
  | .clearLabels | .dropPending => inferInstanceAs (Decidable (_ = _))
  | .announce | .ui _ => .isTrue trivial

/-- `ready`, and the labels of line `i`, are a matter of the lyrics and of the labels. -/
structure SameScreen (s s' : LyricScreen) : Prop where
  data : s'.fetch.data = s.fetch.data
  labels : s'.labels = s.labels
  placeholder : s'.placeholder = s.placeholder

/-- While there are lyrics, the labels show the line that the task takes them for. -/
def Kept (s : LyricScreen) : Prop :=
  s.ready = true → ∀ i, s.lastCurLine = some i → s.Shows i

/-- What the task has found out since `.line` -/
def Found (s : LyricScreen) : LyricPc → Prop
  | .leave => s.ready = true → s.isLyricsVis = false
  | .bound cur => s.ready = true → lyricsGetCurrentLine s.fetch.data s.posMs = cur
  | .next cur => s.ready = true → lyricsGetCurrentLine s.fetch.data s.posMs = some cur
  | .update cur hasNext => s.ready = true →
      lyricsGetCurrentLine s.fetch.data s.posMs = some cur ∧
        hasNext = decide (cur + 1 < s.lines.length)
  | _ => True

structure ScreenInv (s : LyricScreen) : Prop where
  kept : s.Notices ∨ s.Kept
  found : s.Found s.pc

-- ---------------------------------------------------------------------------
-- Lemmas
-- ---------------------------------------------------------------------------

section Lemmas

variable {s s' : LyricScreen} {a : LyricAction} {i : Nat}

theorem ready_congr (h : s'.fetch.data = s.fetch.data) : s'.ready = s.ready := by
  rw [ready, ready, h]

theorem lines_congr (h : s'.fetch.data = s.fetch.data) : s'.lines = s.lines := by
  rw [lines, lines, h]

theorem textAt_congr (h : s'.fetch.data = s.fetch.data) : s'.textAt = s.textAt := by
  funext beyond i
  rw [textAt, textAt, lines_congr h]

theorem Shows.congr (h : s.Shows i) (hSame : SameScreen s s') : s'.Shows i := by
  have hText := textAt_congr hSame.data
  constructor
  · rw [hSame.labels, hText, h.prev]
  · rw [hSame.labels, hText, h.curr]
  · rw [hSame.labels, hText, h.next]
  · rw [hSame.labels, hSame.placeholder]
    exact h.placeholder

theorem Kept.congr (h : s.Kept) (hSame : SameScreen s s')
    (hLast : s'.lastCurLine = s.lastCurLine ∨ s'.lastCurLine = none) : s'.Kept := by
  intro hReady i hShown
  rw [ready_congr hSame.data] at hReady
  obtain hLast | hLast := hLast
  · exact (h hReady i (hLast ▸ hShown)).congr hSame
  · rw [hLast] at hShown
    cases hShown

theorem kept_of_none (h : s.lastCurLine = none) : s.Kept := by
  intro _ i hShown
  rw [h] at hShown
  cases hShown

theorem kept_of_not_ready (h : s.ready = false) : s.Kept := by
  intro hReady
  rw [h] at hReady
  cases hReady

theorem ready_loaded (h : s.ready = true) : s.fetch.data.loaded = true :=
  (Bool.and_eq_true_iff.1 h).1

theorem isCurrent_iff (h : s.ready = true) :
    lyricsGetCurrentLine s.fetch.data s.posMs = some i ↔ IsCurrent s.lines s.posMs i :=
  lyricsGetCurrentLine_eq_some.trans (and_iff_right (ready_loaded h))

/-- What is found stays found while the lyrics are the same, or when they are gone. -/
theorem Found.of_fetch {pc : LyricPc} (h : s.Found pc) (hPos : s'.posMs = s.posMs)
    (hVis : s'.isLyricsVis = s.isLyricsVis)
    (hData : s'.fetch.data = s.fetch.data ∨ s'.ready = false) : s'.Found pc := by
  obtain hData | hGone := hData
  · have hReady := ready_congr hData
    have hLines := lines_congr hData
    cases pc with
    | leave => exact fun hNow => hVis.trans (h (hReady ▸ hNow))
    | bound cur => exact fun hNow => by rw [hData, hPos]; exact h (hReady ▸ hNow)
    | next cur => exact fun hNow => by rw [hData, hPos]; exact h (hReady ▸ hNow)
    | update cur hasNext => exact fun hNow => by rw [hData, hPos, hLines]; exact h (hReady ▸ hNow)
    | _ => trivial
  · have hNever : ¬s'.ready = true := by rw [hGone]; exact Bool.false_ne_true
    cases pc with
    | leave | bound | next | update => exact fun hNow => absurd hNow hNever
    | _ => trivial

/-- The task has found nothing yet when it will still notice other lyrics. -/
theorem Notices.found (h : s.Notices) : s'.Found s.pc := by
  obtain ⟨hWait | hConsume, -⟩ | ⟨hWait | hConsume | hLook | hKnown, -⟩ := h
  · rw [hWait]; trivial
  · rw [hConsume]; trivial
  · rw [hWait]; trivial
  · rw [hConsume]; trivial
  · rw [hLook]; trivial
  · rw [hKnown]; trivial

theorem not_notices (h : s.pc ≠ .wait ∧ s.pc ≠ .consume ∧ s.pc ≠ .look ∧ s.pc ≠ .known) :
    ¬s.Notices := by
  obtain ⟨hWait, hConsume, hLook, hKnown⟩ := h
  rintro (⟨hPc | hPc, -⟩ | ⟨hPc | hPc | hPc | hPc, -⟩)
  · exact hWait hPc
  · exact hConsume hPc
  · exact hWait hPc
  · exact hConsume hPc
  · exact hLook hPc
  · exact hKnown hPc

theorem textAt_of_lt (hi : i < s.lines.length) (beyond : Nat → Bytes) :
    s.textAt beyond i = s.textAt (fun _ => []) i := by
  rw [textAt, textAt, List.getElem?_eq_getElem hi]
  rfl

/-- The labels that an update sets are those of the line. -/
theorem shows_update {beyond : Nat → Bytes} {hasNext : Bool} (hi : i < s.lines.length)
    (hNext : hasNext = decide (i + 1 < s.lines.length)) :
    ({ s.lyricsUpdate (s.texts beyond i hasNext) with
      lastCurLine := some i, pc := .wait } : LyricScreen).Shows i := by
  constructor
  · show (if 0 < i then s.textAt beyond (i - 1) else []) =
      if 0 < i then s.textAt (fun _ => []) (i - 1) else []
    split_ifs with hFirst
    · exact textAt_of_lt (by omega) _
    · rfl
  · exact textAt_of_lt hi _
  · show (if hasNext = true then s.textAt beyond (i + 1) else []) = s.textAt (fun _ => []) (i + 1)
    rw [hNext]
    by_cases hThere : i + 1 < s.lines.length
    · rw [if_pos (decide_eq_true hThere)]
      exact textAt_of_lt hThere _
    · rw [if_neg (by rw [decide_eq_true_eq]; exact hThere), textAt,
        List.getElem?_eq_none (not_lt.1 hThere)]
      rfl
  · intro hText
    show (s.placeholder && List.isEmpty _) = false
    rw [Bool.and_eq_false_iff]
    exact .inr (List.isEmpty_eq_false_iff.2 hText)

end Lemmas

-- ---------------------------------------------------------------------------
-- A turn of the task
-- ---------------------------------------------------------------------------

section Turn

variable {s : LyricScreen} {turn : LyricTurn}

/-- What a step of the task has to do -/
def Advances (s : LyricScreen) (turn : LyricTurn) : Prop :=
  (s.uiStep turn).ScreenInv ∧ Follows s (.ui turn) (s.uiStep turn)

theorem last_ite (c : Bool) (last : Option Nat) :
    (if c = true then none else last) = last ∨ (if c = true then none else last) = none := by
  cases c with
  | false => exact .inl rfl
  | true => exact .inr rfl

theorem ScreenInv.stale (h : s.ScreenInv)
    (hPc : s.pc = .look ∨ s.pc = .known ∨ s.pc = .consume ∧ s.clearPending = false) :
    (s.wasLoaded = false ∨ s.lastCurLine = none) ∨ s.Kept := by
  refine h.kept.imp_left fun hNotices => ?_
  obtain ⟨hEarly, hPending⟩ | ⟨-, hStale⟩ := hNotices
  · obtain hLook | hKnown | ⟨-, hClear⟩ := hPc
    · rw [hLook] at hEarly
      simp at hEarly
    · rw [hKnown] at hEarly
      simp at hEarly
    · rw [hClear] at hPending
      cases hPending
  · exact hStale

theorem ScreenInv.kept_of (h : s.ScreenInv)
    (hPc : s.pc ≠ .wait ∧ s.pc ≠ .consume ∧ s.pc ≠ .look ∧ s.pc ≠ .known) : s.Kept :=
  h.kept.resolve_left (not_notices hPc)

theorem advances_wait (h : s.ScreenInv) (hPc : s.pc = .wait) : s.Advances turn := by
  refine ⟨?_, fun hStart => absurd hPc hStart⟩
  rw [uiStep, hPc]
  refine ⟨h.kept.imp ?_ fun hKept => hKept.congr ⟨rfl, rfl, rfl⟩ (.inl rfl), trivial⟩
  rintro (⟨-, hPending⟩ | ⟨-, hStale⟩)
  · exact .inl ⟨.inr rfl, hPending⟩
  · exact .inr ⟨.inr (.inl rfl), hStale⟩

theorem advances_consume (h : s.ScreenInv) (hPc : s.pc = .consume) : s.Advances turn := by
  unfold Advances uiStep
  rw [hPc]
  dsimp only
  split_ifs with hPending
  · exact ⟨⟨.inr (kept_of_none rfl), trivial⟩, fun _ hEnd => by cases hEnd⟩
  · have hStale := h.stale (.inr (.inr ⟨hPc, Bool.eq_false_iff.2 hPending⟩))
    refine ⟨⟨hStale.imp ?_ fun hKept => hKept.congr ⟨rfl, rfl, rfl⟩ (.inl rfl), trivial⟩,
      fun _ hEnd => by cases hEnd⟩
    exact fun hStale => .inr ⟨.inr (.inr (.inl rfl)), hStale⟩

theorem advances_look (h : s.ScreenInv) (hPc : s.pc = .look) : s.Advances turn := by
  have hStale := h.stale (.inl hPc)
  unfold Advances uiStep
  rw [hPc]
  refine ⟨⟨hStale.imp ?_ fun hKept => hKept.congr ⟨rfl, rfl, rfl⟩ (last_ite _ _), trivial⟩,
    fun _ hEnd => by cases hEnd⟩
  intro hStale
  refine .inr ⟨.inr (.inr (.inr rfl)), hStale.imp_right fun hNone => ?_⟩
  dsimp only
  rw [hNone, ite_self]

theorem advances_known (h : s.ScreenInv) (hPc : s.pc = .known) : s.Advances turn := by
  have hStale := h.stale (.inr (.inl hPc))
  unfold Advances uiStep
  rw [hPc]
  refine ⟨⟨.inr ?_, trivial⟩, fun _ hEnd => by cases hEnd⟩
  obtain (hNew | hNone) | hKept := hStale
  · intro hReady
    refine kept_of_none ?_ hReady
    have hNow : s.ready = true := hReady
    dsimp only
    rw [hNow, hNew]
    rfl
  · refine kept_of_none ?_
    dsimp only
    rw [hNone, ite_self]
  · exact hKept.congr ⟨rfl, rfl, rfl⟩ (last_ite _ _)

theorem advances_enter (h : s.ScreenInv) (hPc : s.pc = .enter) : s.Advances turn := by
  have hKept := h.kept_of (by simp [hPc])
  unfold Advances uiStep
  rw [hPc]
  dsimp only
  by_cases hEnters : (s.ready && s.isLyricsVis) = true
  · rw [if_pos hEnters]
    exact ⟨⟨.inr (hKept.congr ⟨rfl, rfl, rfl⟩ (.inl rfl)), trivial⟩, fun _ hEnd => by cases hEnd⟩
  · rw [if_neg hEnters]
    refine ⟨⟨.inr (hKept.congr ⟨rfl, rfl, rfl⟩ (.inl rfl)), fun hReady => ?_⟩,
      fun _ hEnd => by cases hEnd⟩
    have hNow : s.ready = true := hReady
    rw [hNow, Bool.true_and] at hEnters
    exact Bool.eq_false_iff.2 hEnters

theorem advances_leave (h : s.ScreenInv) (hPc : s.pc = .leave) : s.Advances turn := by
  have hKept := h.kept_of (by simp [hPc])
  have hFound := h.found
  rw [hPc] at hFound
  unfold Advances uiStep
  rw [hPc]
  refine ⟨⟨.inr (hKept.congr ⟨rfl, rfl, rfl⟩ ?_), trivial⟩, fun _ _ hVis hReady => ?_⟩
  · dsimp only
    split_ifs
    · exact .inl rfl
    · exact .inr rfl
  · have hHidden : s.isLyricsVis = false := hFound hReady
    exact absurd hVis (Bool.eq_false_iff.1 hHidden)

theorem advances_line (h : s.ScreenInv) (hPc : s.pc = .line) : s.Advances turn := by
  have hKept := h.kept_of (by simp [hPc])
  unfold Advances uiStep
  rw [hPc]
  exact ⟨⟨.inr (hKept.congr ⟨rfl, rfl, rfl⟩ (.inl rfl)), fun _ => rfl⟩, fun _ hEnd => by cases hEnd⟩

theorem advances_bound {cur : Option Nat} (h : s.ScreenInv) (hPc : s.pc = .bound cur) :
    s.Advances turn := by
  have hKept := h.kept_of (by simp [hPc])
  have hFound := h.found
  rw [hPc] at hFound
  unfold Advances uiStep
  rw [hPc]
  dsimp only
  cases hThere : cur.filter (· < s.lines.length) with
  | some i =>
    obtain ⟨hCur, -⟩ := Option.filter_eq_some_iff.1 hThere
    exact ⟨⟨.inr (hKept.congr ⟨rfl, rfl, rfl⟩ (.inl rfl)),
      fun hReady => (hFound hReady).trans hCur⟩, fun _ hEnd => by cases hEnd⟩
  | none =>
    -- if there are lyrics, none of their lines has begun
    have hNoLine {i : Nat} (hReady : s.ready = true) : ¬IsCurrent s.lines s.posMs i := by
      intro hCurrent
      have hCur := (hFound hReady).symm.trans ((isCurrent_iff hReady).2 hCurrent)
      rw [hCur, Option.filter_some, if_pos (decide_eq_true hCurrent.lt_length)] at hThere
      cases hThere
    dsimp only
    split_ifs with hBlank
    · exact ⟨⟨.inr (kept_of_none hBlank), trivial⟩,
        fun _ _ _ hReady i hCurrent => absurd hCurrent (hNoLine hReady)⟩
    · exact ⟨⟨.inr (kept_of_none rfl), trivial⟩,
        fun _ _ _ hReady i hCurrent => absurd hCurrent (hNoLine hReady)⟩

theorem advances_next {cur : Nat} (h : s.ScreenInv) (hPc : s.pc = .next cur) :
    s.Advances turn := by
  have hKept := h.kept_of (by simp [hPc])
  have hFound := h.found
  rw [hPc] at hFound
  unfold Advances uiStep
  rw [hPc]
  exact ⟨⟨.inr (hKept.congr ⟨rfl, rfl, rfl⟩ (.inl rfl)), fun hReady => ⟨hFound hReady, rfl⟩⟩,
    fun _ hEnd => by cases hEnd⟩

theorem advances_update {cur : Nat} {hasNext : Bool} (h : s.ScreenInv)
    (hPc : s.pc = .update cur hasNext) : s.Advances turn := by
  have hKept := h.kept_of (by simp [hPc])
  have hFound := h.found
  rw [hPc] at hFound
  have hCurrent (hReady : s.ready = true) : IsCurrent s.lines s.posMs cur :=
    (isCurrent_iff hReady).1 (hFound hReady).1
  unfold Advances uiStep
  rw [hPc]
  dsimp only
  split_ifs with hLast
  · have hStill : ({ s with pc := .wait } : LyricScreen).Kept :=
      hKept.congr ⟨rfl, rfl, rfl⟩ (.inl rfl)
    refine ⟨⟨.inr hStill, trivial⟩, fun _ _ _ hReady i hOther => ?_⟩
    rw [(hCurrent hReady).unique hOther] at hLast
    exact hStill hReady i hLast
  · have hShows (hReady : s.ready = true) :
        ({ s.lyricsUpdate (s.texts turn.beyond cur hasNext) with
          lastCurLine := some cur, pc := .wait } : LyricScreen).Shows cur :=
      shows_update (hCurrent hReady).lt_length (hFound hReady).2
    refine ⟨⟨.inr fun hReady i hShown => ?_, trivial⟩, fun _ _ _ hReady i hOther => ?_⟩
    · obtain rfl := Option.some.inj hShown
      exact hShows hReady
    · obtain rfl := (hCurrent hReady).unique hOther
      exact hShows hReady

/-- A step of the task keeps the invariant, and ends a turn with the line that is sung. -/
theorem ScreenInv.advances (h : s.ScreenInv) (turn : LyricTurn) : s.Advances turn := by
  cases hPc : s.pc with
  | wait => exact advances_wait h hPc
  | consume => exact advances_consume h hPc
  | look => exact advances_look h hPc
  | known => exact advances_known h hPc
  | enter => exact advances_enter h hPc
  | leave => exact advances_leave h hPc
  | line => exact advances_line h hPc
  | bound cur => exact advances_bound h hPc
  | next cur => exact advances_next h hPc
  | update cur hasNext => exact advances_update h hPc

end Turn

-- ---------------------------------------------------------------------------
-- Runs
-- ---------------------------------------------------------------------------

section Runs

variable {P : Parsers} {s s' : LyricScreen} {a : LyricAction}

/-- A step of another task ends no turn. -/
theorem follows_of_pc (h : s'.pc = s.pc) : Follows s a s' :=
  fun hStart hEnd => absurd (h ▸ hEnd) hStart

/-- The lyrics are the same, or gone, or the task will notice. -/
theorem ScreenInv.fetch (h : s.ScreenInv) (w : Lyrics.World)
    (hOrderly : w.data = s.fetch.data ∨ ({ s with fetch := w } : LyricScreen).ready = false ∨
      s.Notices) : ({ s with fetch := w } : LyricScreen).ScreenInv := by
  obtain hData | hGone | hNotices := hOrderly
  · refine ⟨h.kept.imp (fun hNotices => hNotices) fun hKept => ?_,
      h.found.of_fetch rfl rfl (.inl hData)⟩
    exact hKept.congr ⟨hData, rfl, rfl⟩ (.inl rfl)
  · exact ⟨.inr (kept_of_not_ready hGone), h.found.of_fetch rfl rfl (.inr hGone)⟩
  · exact ⟨.inl hNotices, hNotices.found⟩

/-- The labels or the flag change while there are no lyrics. -/
theorem ScreenInv.blank (h : s.ScreenInv) (hNone : s.ready = false) (hFetch : s'.fetch = s.fetch)
    (hPc : s'.pc = s.pc) (hPos : s'.posMs = s.posMs) (hVis : s'.isLyricsVis = s.isLyricsVis) :
    s'.ScreenInv := by
  have hData : s'.fetch.data = s.fetch.data := congrArg (·.data) hFetch
  refine ⟨.inr (kept_of_not_ready ((ready_congr hData).trans hNone)), ?_⟩
  rw [hPc]
  exact h.found.of_fetch hPos hVis (.inl hData)

theorem ScreenInv.step (h : s.ScreenInv) (hStep : s.step P a = some s')
    (hOrderly : Orderly s a s') :
    s'.ScreenInv ∧ Follows s a s' := by
  cases a with
  | lyrics a =>
    obtain ⟨w, -, rfl⟩ := Option.map_eq_some_iff.1 hStep
    exact ⟨h.fetch w hOrderly, follows_of_pc rfl⟩
  | announce =>
    obtain rfl := Option.some.inj hStep
    refine ⟨⟨h.kept.imp ?_ fun hKept => hKept.congr ⟨rfl, rfl, rfl⟩ (.inl rfl),
      h.found.of_fetch rfl rfl (.inl rfl)⟩, follows_of_pc rfl⟩
    exact Or.imp_left fun hPending => ⟨hPending.1, rfl⟩
  | ui turn =>
    obtain rfl := Option.some.inj hStep
    exact h.advances turn
  | clearLabels =>
    obtain ⟨-, hSome⟩ := Option.ite_none_right_eq_some.1 hStep
    obtain rfl := Option.some.inj hSome
    exact ⟨h.blank hOrderly rfl rfl rfl rfl, follows_of_pc rfl⟩
  | dropPending =>
    obtain ⟨-, hSome⟩ := Option.ite_none_right_eq_some.1 hStep
    obtain rfl := Option.some.inj hSome
    exact ⟨h.blank hOrderly rfl rfl rfl rfl, follows_of_pc rfl⟩

theorem boot_inv : boot.ScreenInv := ⟨.inr (kept_of_none rfl), trivial⟩

/-- **The lyric screen.** Along every run, a turn of the UI task with the lyric screen in view
ends with the line that is sung on it, if lyrics come only when the task will notice them. -/
theorem lyricScreen_follows (P : Parsers) (as : List LyricAction)
    (hOrderly : Along (step P) Orderly boot as) : Along (step P) Follows boot as :=
  Along.of_invariant (fun _ _ _ hInv hStep hOk => hInv.step hStep hOk) boot_inv hOrderly

/-- A text is one line. -/
def oneLine : Parsers where
  lrcUsable := fun _ => true
  parseLrc := fun text => [⟨0, text⟩]
  parseKlyric := fun _ => []
  generatePseudoKlyric := fun _ => ([], [])
  lrcToKlyric := fun _ _ => []

/-- Song `title` is asked for, and a task fetches its lyrics. -/
def fetched (title : UInt8) : List LyricAction :=
  let h := title.toNat - 65
  [.fetchAsync 0 [title] [] 7, .forget 0, .create 0 .internal, .fetch h,
    .response h ⟨some [title], none, none, none⟩, .fetch h, .fetch h, .fetch h, .fetch h].map
      .lyrics

/-- A turn, one second into the song -/
def turns : List LyricAction := List.replicate 9 (.ui ⟨true, 1000, fun _ => []⟩)

/-- The task looks while song 66 is being fetched. -/
def followedRun : List LyricAction :=
  fetched 65 ++ turns ++ (fetched 66).take 3 ++ turns.take 6 ++ (fetched 66).drop 3 ++ turns

theorem followed_run : Along (step oneLine) Follows boot followedRun :=
  lyricScreen_follows oneLine followedRun (by decide +kernel)

/-- The task does not look until song 66 is there, and song 65 stays on the screen. -/
theorem hurried_stale : ¬∀ P as, Along (step P) Follows boot as := by
  intro hAll
  let last : LyricAction := .ui ⟨true, 1000, fun _ => []⟩
  let run := fetched 65 ++ turns ++ fetched 66 ++ turns.take 8
  obtain ⟨t, u, hRun, hStep, hEnd⟩ := exists_last_of_any
    (show (Transition.run (step oneLine) boot run).any
      (fun t => (step oneLine t last).any fun u => t.pc ≠ .wait && u.pc = .wait && u.isLyricsVis &&
        u.ready && lyricsGetCurrentLine u.fetch.data u.posMs = some 0 &&
          u.labels.curr ≠ u.textAt (fun _ => []) 0) = true by decide +kernel)
  simp only [Bool.and_eq_true, decide_eq_true_eq] at hEnd
  obtain ⟨⟨⟨⟨⟨hStart, hWait⟩, hVis⟩, hReady⟩, hFirst⟩, hOther⟩ := hEnd
  have hFollows := (hAll oneLine (run ++ [last])).last hRun hStep
  exact hOther (hFollows hStart hWait hVis hReady 0 ((isCurrent_iff hReady).1 hFirst)).curr

end Runs

end LyricScreen

end Dlna

end EspMiplay
