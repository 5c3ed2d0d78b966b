import Mathlib.Algebra.Order.BigOperators.Group.List
import Mathlib.Data.Rat.Floor
import Mathlib.Tactic.FieldSimp
import Mathlib.Tactic.Ring
import EspMiplay.Lyrics.Karaoke

/-!
# Words for lines without any

`generate_pseudo_klyric` of `lyrics_fetch.c`: where a song comes with the times of its lines
only, the time up to the next line is shared out among the sung characters, by their
weights. Punctuation has no word; it puts off what follows, but has no share of the time.
And no word is shorter than 50 ms. So the words of a line may go on when the next one has
begun.

## Results

* `inSequence_lineWords` — the words of a line follow each other.
* `endsBy_iff`           — where the last one ends.
* `pseudoKlyric_iff`     — every table of lines.
-/

namespace EspMiplay.Lyrics

open EspMiplay.Miplay

-- ---------------------------------------------------------------------------
-- The function
-- ---------------------------------------------------------------------------

/-- A line of the table, and what lies behind the NUL of its text. -/
structure TableLine where
  line : Line
  behind : Bytes

/-- The memory from the text on. -/
def TableLine.mem (l : TableLine) : Bytes := l.line.text ++ 0 :: l.behind

/-- What `while (*p)` finds, with `lyric_is_sung_char`. -/
def TableLine.steps (l : TableLine) : List (Nat × Bool) := lyricWalk l.mem.length l.mem

/-- The loop for the last line: all its characters count. -/
def charCount : Nat → Bytes → Nat
  | 0, _ => 0
  | fuel + 1, st =>
    if peek st = 0 then 0
    else
      let bytes := if 0xE0 ≤ peek st then 3 else if 0xC0 ≤ peek st then 2 else 1
      charCount fuel (st.drop bytes) + 1

/-- `est_ms` -/
def estMs (mem : Bytes) : Int := min 8000 (max 2000 (charCount mem.length mem * 320))

def charWeight (bytes : Nat) : ℚ := if 2 ≤ bytes then 1 else 1 / 2

/-- `sung_weight` -/
def sungWeight (steps : List (Nat × Bool)) : ℚ :=
  max 1 (steps.map fun s => if s.2 then charWeight s.1 else 0).sum

/-- `line_dur` -/
def lineDur (l : TableLine) (next : Option TableLine) : Int :=
  let dur := match next with
    | some next => next.line.timeMs - l.line.timeMs
    | none => estMs l.mem
  if dur ≤ 0 then 3000 else dur

/-- `punct_dur`; no time that is rounded here is negative. -/
def punctDur (perWeight : ℚ) : Int := min 300 (max 30 ⌊3 / 10 * perWeight⌋)

/-- `dur` -/
def wordDur (perWeight : ℚ) (bytes : Nat) : Int := max 50 ⌊charWeight bytes * perWeight⌋

/-- The words of a line, with room for so many; `t` is the time that has been reached. -/
def lineWords (perWeight : ℚ) : Nat → List (Nat × Bool) → Int → List Word
  | 0, _, _ => []
  | _, [], _ => []
  | room + 1, (bytes, sung) :: steps, t =>
    if !sung then lineWords perWeight (room + 1) steps (t + punctDur perWeight)
    else
      let dur := wordDur perWeight bytes
      ⟨t, t + dur⟩ :: lineWords perWeight room steps (t + dur)

/-- `time_per_sung_weight` -/
def timePerWeight (l : TableLine) (next : Option TableLine) : ℚ :=
  lineDur l next / sungWeight l.steps

/-- The loop over the lines, where `word_idx` and `line_idx` are so many. -/
def pseudoFrom : Nat → Nat → List TableLine → List KlyricLine × List Word
  | _, _, [] => ([], [])
  | wordIdx, lineIdx, l :: ls =>
    if ¬(wordIdx < klyricMaxWords - 1 ∧ lineIdx < lyricMaxLines) then ([], [])
    else if peek l.mem = 0 then pseudoFrom wordIdx lineIdx ls
    else
      let words := lineWords (timePerWeight l ls.head?) (klyricMaxWords - 1 - wordIdx) l.steps
        l.line.timeMs
      let (lines, more) := pseudoFrom (wordIdx + words.length) (lineIdx + 1) ls
      (⟨wordIdx, l.line.timeMs⟩ :: lines, words ++ more)

/-- What `generate_pseudo_klyric` stores; `count` is `s_klyric_count`. -/
def generatePseudoKlyric (count : Nat) (table : List TableLine) : List KlyricLine × List Word :=
  if 0 < count ∨ table.length < 2 then ([], []) else pseudoFrom 0 0 table

-- ---------------------------------------------------------------------------
-- What is to be stored
-- ---------------------------------------------------------------------------

/-- The sung characters of a line, as they are counted for the highlight. -/
def TableLine.sung (l : TableLine) : Nat := totalSung l.steps

/-- Words that follow each other, the first of them not before `t`. -/
def InSequence : Int → List Word → Prop
  | _, [] => True
  | t, w :: ws => t ≤ w.start ∧ w.start < w.stop ∧ InSequence w.stop ws

/-- No word ends behind the time of the next line. -/
def EndsBy (ws : List Word) (next : Option TableLine) : Prop :=
  ∀ w ∈ ws, ∀ l ∈ next, w.stop ≤ l.line.timeMs

/-- The entries of the lines, with room for so many words: each line that is not empty has as
many words as sung characters. -/
def SharedOut : Nat → Nat → List TableLine → List KlyricLine → List Word → Prop
  | _, _, [], klines, words => klines = [] ∧ words = []
  | wordIdx, room, l :: ls, klines, words =>
    if room = 0 then klines = [] ∧ words = []
    else if l.line.text = [] then SharedOut wordIdx room ls klines words
    else
      ∃ ws klines' words', klines = ⟨wordIdx, l.line.timeMs⟩ :: klines' ∧ words = ws ++ words' ∧
        ws.length = min l.sung room ∧ InSequence l.line.timeMs ws ∧ EndsBy ws ls.head? ∧
        SharedOut (wordIdx + ws.length) (room - ws.length) ls klines' words'

-- ---------------------------------------------------------------------------
-- The condition
-- ---------------------------------------------------------------------------

/-- The characters up to the last sung one of so many. -/
def upToSung : Nat → List (Nat × Bool) → List (Nat × Bool)
  | 0, _ => []
  | _, [] => []
  | room + 1, (bytes, sung) :: steps =>
    if sung then (bytes, sung) :: upToSung room steps
    else if totalSung steps = 0 then []
    else (bytes, sung) :: upToSung (room + 1) steps

/-- The sung characters of two bytes or more. -/
def wideSung (steps : List (Nat × Bool)) : Nat := steps.countP fun s => s.2 ∧ 2 ≤ s.1

def narrowSung (steps : List (Nat × Bool)) : Nat := steps.countP fun s => s.2 ∧ s.1 < 2

def punctuation (steps : List (Nat × Bool)) : Nat := steps.countP fun s => !s.2

/-- The weight of the line in halves. -/
def halves (steps : List (Nat × Bool)) : Nat := max 2 (2 * wideSung steps + narrowSung steps)

/-- What the characters up to the last word take is no more than the line is long. -/
def LineFits (l next : TableLine) (room : Nat) : Prop :=
  let dur := next.line.timeMs - l.line.timeMs
  let timed := upToSung room l.steps
  wideSung timed * max 50 (2 * dur / halves l.steps) +
      narrowSung timed * max 50 (dur / halves l.steps) +
      punctuation timed * min 300 (max 30 (6 * dur / (10 * halves l.steps))) ≤ dur

def LinesFit : Nat → List TableLine → Prop
  | _, [] => True
  | room, l :: ls => (∀ next ∈ ls.head?, LineFits l next room) ∧ LinesFit (room - l.sung) ls

-- ---------------------------------------------------------------------------
-- The words of a line
-- ---------------------------------------------------------------------------

section Words

variable {perWeight : ℚ} {room : Nat} {steps : List (Nat × Bool)} {t : Int}

theorem wordDur_pos (perWeight : ℚ) (bytes : Nat) : 0 < wordDur perWeight bytes :=
  lt_of_lt_of_le (by decide) (le_max_left 50 _)

theorem punctDur_pos (perWeight : ℚ) : 0 < punctDur perWeight :=
  lt_min (by decide) (lt_of_lt_of_le (by decide) (le_max_left 30 _))

theorem totalSung_cons (s : Nat × Bool) (steps : List (Nat × Bool)) :
    totalSung (s :: steps) = totalSung steps + if s.2 then 1 else 0 := List.countP_cons

theorem lineWords_length (perWeight : ℚ) (room : Nat) (steps : List (Nat × Bool)) (t : Int) :
    (lineWords perWeight room steps t).length = min (totalSung steps) room := by
  induction steps generalizing room t with
  | nil => cases room <;> simp [lineWords, totalSung]
  | cons s steps ih =>
    obtain ⟨bytes, sung⟩ := s
    cases room with
    | zero => simp [lineWords]
    | succ room =>
      rw [lineWords, totalSung_cons]
      cases sung with
      | false => exact ih _ _
      | true =>
        simp only [Bool.not_true, Bool.false_eq_true, if_false, if_true, List.length_cons, ih]
        omega

/-- **The words of a line** follow each other. -/
theorem inSequence_lineWords {lo : Int} (hFrom : lo ≤ t) :
    InSequence lo (lineWords perWeight room steps t) := by
  induction steps generalizing room t lo with
  | nil => cases room <;> trivial
  | cons s steps ih =>
    obtain ⟨bytes, sung⟩ := s
    cases room with
    | zero => trivial
    | succ room =>
      rw [lineWords]
      cases sung with
      | false => exact ih (by have := punctDur_pos perWeight; omega)
      | true =>
        have hPos := wordDur_pos perWeight bytes
        exact ⟨hFrom, by dsimp only; omega, ih (Int.le_refl _)⟩

/-- What so many characters take. -/
def spanMs (perWeight : ℚ) (steps : List (Nat × Bool)) : Int :=
  (steps.map fun s => if s.2 then wordDur perWeight s.1 else punctDur perWeight).sum

theorem spanMs_nonneg (perWeight : ℚ) (steps : List (Nat × Bool)) : 0 ≤ spanMs perWeight steps := by
  refine List.sum_nonneg fun d hMem => ?_
  obtain ⟨s, -, rfl⟩ := List.mem_map.1 hMem
  split
  · exact (wordDur_pos perWeight s.1).le
  · exact (punctDur_pos perWeight).le

theorem lineWords_unsung (h : totalSung steps = 0) : lineWords perWeight room steps t = [] :=
  List.eq_nil_of_length_eq_zero (by rw [lineWords_length, h, Nat.zero_min])

theorem upToSung_ne_nil (h : totalSung steps ≠ 0) : upToSung (room + 1) steps ≠ [] := by
  cases steps with
  | nil => exact absurd rfl h
  | cons s steps =>
    obtain ⟨bytes, sung⟩ := s
    rw [upToSung]
    cases sung with
    | true => exact List.cons_ne_nil _ _
    | false =>
      rw [totalSung_cons] at h
      have hRest : totalSung steps ≠ 0 := h
      rw [if_neg Bool.false_ne_true, if_neg hRest]
      exact List.cons_ne_nil _ _

/-- **The end of the last word**: what all characters up to it take. -/
theorem lineWords_stop {e : Int} :
    (∀ w ∈ lineWords perWeight room steps t, w.stop ≤ e) ↔
      upToSung room steps = [] ∨ t + spanMs perWeight (upToSung room steps) ≤ e := by
  induction steps generalizing room t with
  | nil => cases room <;> simp [lineWords, upToSung]
  | cons s steps ih =>
    obtain ⟨bytes, sung⟩ := s
    cases room with
    | zero => simp [lineWords, upToSung]
    | succ room =>
      cases sung with
      | true =>
        have hSpan := spanMs_nonneg perWeight (upToSung room steps)
        have hCons : spanMs perWeight (upToSung (room + 1) ((bytes, true) :: steps)) =
            wordDur perWeight bytes + spanMs perWeight (upToSung room steps) := by
          rw [upToSung, if_pos rfl, spanMs, List.map_cons, List.sum_cons]
          rfl
        have hNil : upToSung room steps = [] → spanMs perWeight (upToSung room steps) = 0 := by
          intro h
          rw [h]
          rfl
        rw [hCons, upToSung, if_pos rfl, or_iff_right (List.cons_ne_nil _ _), lineWords]
        simp only [Bool.not_true, Bool.false_eq_true, if_false, List.forall_mem_cons, ih]
        constructor
        · rintro ⟨hFirst, hNone | hRest⟩
          · rw [hNil hNone]
            omega
          · omega
        · intro hAll
          exact ⟨by omega, .inr (by omega)⟩
      | false =>
        rw [lineWords]
        simp only [Bool.not_false, if_true]
        by_cases hNone : totalSung steps = 0
        · rw [lineWords_unsung hNone, upToSung, if_neg Bool.false_ne_true, if_pos hNone]
          simp
        · have hSome : upToSung (room + 1) steps ≠ [] := upToSung_ne_nil hNone
          have hCons : spanMs perWeight (upToSung (room + 1) ((bytes, false) :: steps)) =
              punctDur perWeight + spanMs perWeight (upToSung (room + 1) steps) := by
            rw [upToSung, if_neg Bool.false_ne_true, if_neg hNone, spanMs, List.map_cons,
              List.sum_cons]
            rfl
          rw [ih, or_iff_right hSome, hCons, upToSung, if_neg Bool.false_ne_true, if_neg hNone,
            or_iff_right (List.cons_ne_nil _ _), Int.add_assoc]

theorem spanMs_cons (s : Nat × Bool) (steps : List (Nat × Bool)) :
    spanMs perWeight (s :: steps) =
      (if s.2 then wordDur perWeight s.1 else punctDur perWeight) + spanMs perWeight steps :=
  List.sum_cons

/-- The kinds of characters, and what each takes. -/
theorem spanMs_eq (perWeight : ℚ) (steps : List (Nat × Bool)) :
    spanMs perWeight steps = wideSung steps * max 50 ⌊perWeight⌋ +
      narrowSung steps * max 50 ⌊1 / 2 * perWeight⌋ + punctuation steps * punctDur perWeight := by
  induction steps with
  | nil => simp [spanMs, wideSung, narrowSung, punctuation]
  | cons s steps ih =>
    obtain ⟨bytes, sung⟩ := s
    rw [spanMs_cons, ih, wideSung, narrowSung, punctuation, wideSung, narrowSung, punctuation,
      List.countP_cons, List.countP_cons, List.countP_cons]
    cases sung with
    | false =>
      simp only [Bool.false_eq_true, false_and, decide_false, if_false, Bool.not_false, if_true]
      push_cast
      ring
    | true =>
      by_cases hWide : 2 ≤ bytes
      · simp only [hWide, Nat.not_lt.2 hWide, true_and, and_false, decide_true, decide_false,
          Bool.false_eq_true, if_false, Bool.not_true, if_true, wordDur, charWeight, one_mul]
        push_cast
        ring
      · simp only [hWide, Nat.lt_of_not_le hWide, true_and, and_false, decide_true, decide_false,
          Bool.false_eq_true, if_false, Bool.not_true, if_true, wordDur, charWeight]
        push_cast
        ring

theorem sungWeight_eq (steps : List (Nat × Bool)) : sungWeight steps = (halves steps : ℚ) / 2 := by
  have hSum : (steps.map fun s => if s.2 then charWeight s.1 else 0).sum =
      ((2 * wideSung steps + narrowSung steps : Nat) : ℚ) / 2 := by
    induction steps with
    | nil => simp [wideSung, narrowSung]
    | cons s steps ih =>
      obtain ⟨bytes, sung⟩ := s
      rw [List.map_cons, List.sum_cons, ih, wideSung, narrowSung, wideSung, narrowSung,
        List.countP_cons, List.countP_cons]
      cases sung with
      | false => simp
      | true =>
        by_cases hWide : 2 ≤ bytes
        · simp only [hWide, Nat.not_lt.2 hWide, true_and, and_false, decide_true, decide_false,
            Bool.false_eq_true, if_false, if_true, charWeight]
          push_cast
          ring
        · simp only [hWide, Nat.lt_of_not_le hWide, true_and, and_false, decide_true, decide_false,
            Bool.false_eq_true, if_false, if_true, charWeight]
          push_cast
          ring
  rw [sungWeight, hSum, halves, Nat.cast_max, ← max_div_div_right (by norm_num)]
  norm_num

theorem halves_pos (steps : List (Nat × Bool)) : 0 < halves steps :=
  Nat.lt_of_lt_of_le (by decide) (Nat.le_max_left 2 _)

theorem timePerWeight_eq {l next : TableLine} (h : l.line.timeMs < next.line.timeMs) :
    timePerWeight l (some next) =
      ((2 * (next.line.timeMs - l.line.timeMs) : Int) : ℚ) / (halves l.steps : Nat) := by
  have hDur : lineDur l (some next) = next.line.timeMs - l.line.timeMs  :=
    if_neg (Int.not_le.2 (Int.sub_pos.2 h))
  have hPos : (halves l.steps : ℚ) ≠ 0 := Nat.cast_ne_zero.2 (halves_pos l.steps).ne'
  rw [timePerWeight, hDur, sungWeight_eq]
  push_cast
  field_simp

/-- **The end of a line.** No word ends behind the time of the next line exactly if the
characters take no more than there is. -/
theorem endsBy_iff {l next : TableLine} (h : l.line.timeMs < next.line.timeMs) :
    EndsBy (lineWords (timePerWeight l (some next)) room l.steps l.line.timeMs) (some next) ↔
      LineFits l next room := by
  have hEnds : EndsBy (lineWords (timePerWeight l (some next)) room l.steps l.line.timeMs)
      (some next) ↔ ∀ w ∈ lineWords (timePerWeight l (some next)) room l.steps l.line.timeMs,
        w.stop ≤ next.line.timeMs :=
    forall₂_congr fun w _ => ⟨fun h => h next rfl, fun h l hNext => by cases hNext; exact h⟩
  have hWide : ⌊timePerWeight l (some next)⌋ =
      2 * (next.line.timeMs - l.line.timeMs) / halves l.steps := by
    rw [timePerWeight_eq h, Rat.floor_intCast_div_natCast]
  have hNarrow : ⌊1 / 2 * timePerWeight l (some next)⌋ =
      (next.line.timeMs - l.line.timeMs) / halves l.steps := by
    rw [← Rat.floor_intCast_div_natCast, timePerWeight_eq h]
    congr 1
    push_cast
    ring
  have hPunct : ⌊3 / 10 * timePerWeight l (some next)⌋ =
      6 * (next.line.timeMs - l.line.timeMs) / (10 * halves l.steps) := by
    have hTen : (10 * halves l.steps : Int) = ((10 * halves l.steps : Nat) : Int) := by
      push_cast
      rfl
    rw [hTen, ← Rat.floor_intCast_div_natCast, timePerWeight_eq h]
    congr 1
    push_cast
    ring
  have hSpan := spanMs_eq (timePerWeight l (some next)) (upToSung room l.steps)
  rw [hWide, hNarrow, punctDur, hPunct] at hSpan
  rw [hEnds, lineWords_stop, hSpan, LineFits]
  constructor
  · rintro (hNil | hLe)
    · rw [hNil]
      simp [wideSung, narrowSung, punctuation]
      omega
    · omega
  · intro hLe
    exact .inr (by omega)

end Words

-- ---------------------------------------------------------------------------
-- The lines
-- ---------------------------------------------------------------------------

section Lines

variable {l next : TableLine} {ls : List TableLine} {room : Nat}

theorem upToSung_zero (steps : List (Nat × Bool)) : upToSung 0 steps = [] := by
  cases steps <;> rfl

theorem lineFits_of_nil (h : l.line.timeMs < next.line.timeMs)
    (hNil : upToSung room l.steps = []) : LineFits l next room := by
  rw [LineFits, hNil]
  simp only [wideSung, narrowSung, punctuation, List.countP_nil, Nat.cast_zero, zero_mul, zero_add]
  omega

/-- The times of the lines grow. -/
def Growing (ls : List TableLine) : Prop := ls.Pairwise (·.line.timeMs < ·.line.timeMs)

theorem Growing.head_lt (h : Growing (l :: ls)) (hNext : next ∈ ls.head?) :
    l.line.timeMs < next.line.timeMs :=
  (List.pairwise_cons.1 h).1 next (List.mem_of_mem_head? hNext)

theorem linesFit_zero (h : Growing ls) : LinesFit 0 ls := by
  induction ls with
  | nil => trivial
  | cons l ls ih =>
    refine ⟨fun next hNext => lineFits_of_nil (h.head_lt hNext) (upToSung_zero _), ?_⟩
    rw [Nat.zero_sub]
    exact ih (List.pairwise_cons.1 h).2

theorem steps_empty (h : l.line.text = []) : l.steps = [] := by
  rw [TableLine.steps, TableLine.mem, h]
  rfl

theorem peek_mem_eq_zero (hNul : ∀ b ∈ l.line.text, b ≠ 0) :
    peek l.mem = 0 ↔ l.line.text = [] := by
  rw [TableLine.mem]
  cases hText : l.line.text with
  | nil => exact iff_of_true rfl rfl
  | cons b text =>
    exact iff_of_false (hNul b (by rw [hText]; exact List.mem_cons_self)) (List.cons_ne_nil _ _)

/-- The words of a line and of those behind it are told apart by their number. -/
theorem sharedOut_cons {wordIdx : Nat} {klines : List KlyricLine} {ws words : List Word}
    (hRoom : room ≠ 0) (hText : l.line.text ≠ []) (hLength : ws.length = min l.sung room)
    (hSequence : InSequence l.line.timeMs ws) :
    SharedOut wordIdx room (l :: ls) (⟨wordIdx, l.line.timeMs⟩ :: klines) (ws ++ words) ↔
      EndsBy ws ls.head? ∧
        SharedOut (wordIdx + ws.length) (room - ws.length) ls klines words := by
  rw [SharedOut, if_neg hRoom, if_neg hText]
  constructor
  · rintro ⟨ws', klines', words', hKlines, hWords, hLength', -, hEnds, hMore⟩
    obtain ⟨rfl, rfl⟩ := List.append_inj hWords (hLength.trans hLength'.symm)
    obtain ⟨-, rfl⟩ := List.cons.inj hKlines
    exact ⟨hEnds, hMore⟩
  · rintro ⟨hEnds, hMore⟩
    exact ⟨ws, klines, words, rfl, rfl, hLength, hSequence, hEnds, hMore⟩

/-- **The lines**, from any number of words on. -/
theorem sharedOut_iff (ls : List TableLine) (wordIdx lineIdx : Nat)
    (hLines : lineIdx + ls.length ≤ lyricMaxLines) (hTimes : Growing ls)
    (hNul : ∀ l ∈ ls, ∀ b ∈ l.line.text, b ≠ 0) :
    SharedOut wordIdx (klyricMaxWords - 1 - wordIdx) ls (pseudoFrom wordIdx lineIdx ls).1
        (pseudoFrom wordIdx lineIdx ls).2 ↔
      LinesFit (klyricMaxWords - 1 - wordIdx) ls := by
  induction ls generalizing wordIdx lineIdx with
  | nil => exact iff_of_true ⟨rfl, rfl⟩ trivial
  | cons l ls ih =>
    have hRest := (List.pairwise_cons.1 hTimes).2
    have hNul' : ∀ l ∈ ls, ∀ b ∈ l.line.text, b ≠ 0 := fun l hMem =>
      hNul l (List.mem_cons_of_mem _ hMem)
    rw [List.length_cons] at hLines
    by_cases hRoom : wordIdx < klyricMaxWords - 1
    · have hGo : ¬¬(wordIdx < klyricMaxWords - 1 ∧ lineIdx < lyricMaxLines) :=
        not_not.2 ⟨hRoom, by omega⟩
      rw [pseudoFrom, if_neg hGo]
      by_cases hText : l.line.text = []
      · rw [if_pos ((peek_mem_eq_zero (hNul l List.mem_cons_self)).2 hText), SharedOut,
          if_neg (by omega), if_pos hText, ih wordIdx lineIdx (by omega) hRest hNul', LinesFit]
        have hSung : l.sung = 0 := by
          rw [TableLine.sung, steps_empty hText]
          rfl
        rw [hSung, Nat.sub_zero, and_iff_right]
        refine fun next hNext => lineFits_of_nil (hTimes.head_lt hNext) ?_
        rw [steps_empty hText, upToSung]
        omega
      · rw [if_neg (fun h => hText ((peek_mem_eq_zero (hNul l List.mem_cons_self)).1 h))]
        dsimp only
        have hLength := lineWords_length (timePerWeight l ls.head?) (klyricMaxWords - 1 - wordIdx)
          l.steps l.line.timeMs
        have hMore := ih (wordIdx + (lineWords (timePerWeight l ls.head?)
          (klyricMaxWords - 1 - wordIdx) l.steps l.line.timeMs).length) (lineIdx + 1) (by omega)
          hRest hNul'
        have hLeft (n : Nat) (h : n = min l.sung (klyricMaxWords - 1 - wordIdx)) :
            klyricMaxWords - 1 - wordIdx - n = klyricMaxWords - 1 - wordIdx - l.sung := by
          omega
        rw [← Nat.sub_sub] at hMore
        rw [sharedOut_cons (by omega) hText hLength (inSequence_lineWords (Int.le_refl _)), hMore,
          LinesFit, hLeft _ hLength]
        refine and_congr_left fun _ => ?_
        cases hNext : ls.head? with
        | none => exact iff_of_true (fun w _ l hMem => by cases hMem) fun next hMem => by cases hMem
        | some next =>
          rw [endsBy_iff (hTimes.head_lt hNext)]
          exact ⟨fun h l hMem => by cases hMem; exact h, fun h => h next rfl⟩
    · have hNone : klyricMaxWords - 1 - wordIdx = 0 := by omega
      rw [pseudoFrom, if_pos (fun h => hRoom h.1), hNone, SharedOut, if_pos rfl]
      exact iff_of_true ⟨rfl, rfl⟩ (linesFit_zero hTimes)

end Lines

-- ---------------------------------------------------------------------------
-- Tables that have been read
-- ---------------------------------------------------------------------------

section Tables

theorem parseLrcFrom_forall {P : Line → Prop} (hTurn : ∀ p, ∀ line ∈ (lrcTurn p).1, P line)
    (fuel room : Nat) (p : Bytes) :
    (parseLrcFrom fuel room p).length ≤ room ∧ ∀ line ∈ parseLrcFrom fuel room p, P line := by
  induction fuel generalizing room p with
  | zero => cases room <;> simp [parseLrcFrom]
  | succ fuel ih =>
    cases room with
    | zero => simp [parseLrcFrom]
    | succ room =>
      rw [parseLrcFrom]
      split
      · simp
      · split
        · rename_i line rest hEq
          obtain ⟨hLength, hAll⟩ := ih room rest
          refine ⟨Nat.succ_le_succ hLength, List.forall_mem_cons.2 ⟨hTurn p line ?_, hAll⟩⟩
          rw [hEq]
          rfl
        · exact ih (room + 1) _

/-- A line that is stored has a text, and no NUL in it. -/
theorem lrcTurn_stored (p : Bytes) : ∀ line ∈ (lrcTurn p).1,
    line.text ≠ [] ∧ ∀ b ∈ line.text, b ≠ 0 := by
  intro line hLine
  rw [lrcTurn] at hLine
  split at hLine
  · cases hLine
  split at hLine
  · split at hLine
    · cases hLine
    · dsimp only at hLine
      split at hLine
      · cases hLine
      · rename_i hMeta
        obtain rfl := Option.some.inj hLine
        refine ⟨fun hNil => hMeta ?_, fun b hMem => ?_⟩
        · dsimp only at hNil
          rw [hNil]
          simp [isMeta]
        · have hIn := List.mem_takeWhile_imp (List.mem_of_mem_take hMem)
          simp only [inLine, decide_eq_true_eq] at hIn
          exact hIn.1
  · cases hLine

/-- **Words for a song.** Each line of a table whose times grow has as many words as sung
characters, one after another, from its time up to the time of the next one, exactly if
the table has not just one line and the characters of each line fit. -/
theorem pseudoKlyric_iff (p : Bytes) (table : List TableLine)
    (hTable : table.map TableLine.line = parseLrc p) (hTimes : Growing table) :
    SharedOut 0 (klyricMaxWords - 1) table (generatePseudoKlyric 0 table).1
        (generatePseudoKlyric 0 table).2 ↔
      table.length ≠ 1 ∧ LinesFit (klyricMaxWords - 1) table := by
  obtain ⟨hLength, hLines⟩ := parseLrcFrom_forall lrcTurn_stored p.length lyricMaxLines p
  rw [← parseLrc, ← hTable] at hLength hLines
  rw [List.length_map] at hLength
  have hText (l : TableLine) (hMem : l ∈ table) := hLines l.line (List.mem_map_of_mem hMem)
  rw [generatePseudoKlyric]
  by_cases hTwo : table.length < 2
  · rw [if_pos (.inr hTwo)]
    cases table with
    | nil => exact iff_of_true ⟨rfl, rfl⟩ ⟨Nat.zero_ne_one, trivial⟩
    | cons l ls =>
      have hOne : (l :: ls).length = 1 := by
        rw [List.length_cons] at hTwo ⊢
        omega
      refine iff_of_false (fun h => ?_) fun h => h.1 hOne
      rw [SharedOut, if_neg (by decide), if_neg (hText l List.mem_cons_self).1] at h
      obtain ⟨ws, klines, words, hKlines, -⟩ := h
      cases hKlines
  · rw [if_neg (by omega), and_iff_right (by omega)]
    exact sharedOut_iff table 0 0 (by omega) hTimes
      fun l hMem => (hText l hMem).2

/-- Six letters in nine seconds. -/
def slowText : Bytes := ascii "[00:00]abcdef\n[00:09]abcdef"

def slowTable : List TableLine :=
  [⟨⟨0, ascii "abcdef"⟩, []⟩, ⟨⟨9000, ascii "abcdef"⟩, []⟩]

theorem slowTable_shared :
    SharedOut 0 (klyricMaxWords - 1) slowTable (generatePseudoKlyric 0 slowTable).1
      (generatePseudoKlyric 0 slowTable).2 := by
  refine (pseudoKlyric_iff slowText slowTable (by decide +kernel)
    (List.pairwise_pair.2 (by decide))).2 ⟨by decide, fun next hNext => ?_, ?_⟩
  · cases hNext
    rw [LineFits]
    decide +kernel
  · exact ⟨fun next hNext => (by cases hNext), trivial⟩

/-- 21 letters in one second. -/
def fastText : Bytes := ascii "[00:00]abcdefghijklmnopqrstu\n[00:01]abcdef"

def fastTable : List TableLine :=
  [⟨⟨0, ascii "abcdefghijklmnopqrstu"⟩, []⟩, ⟨⟨1000, ascii "abcdef"⟩, []⟩]

/-- With 50 ms for each of them the last one ends 50 ms behind the time of the next line. -/
theorem fastTable_over : ¬∀ (p : Bytes) (table : List TableLine),
    table.map TableLine.line = parseLrc p → Growing table →
      SharedOut 0 (klyricMaxWords - 1) table (generatePseudoKlyric 0 table).1
        (generatePseudoKlyric 0 table).2 := by
  intro hAll
  have hTimes : Growing fastTable := List.pairwise_pair.2 (by decide)
  have hNul : ∀ l ∈ fastTable, ∀ b ∈ l.line.text, b ≠ 0 := by decide +kernel
  have hShared := hAll fastText fastTable (by decide +kernel) hTimes
  have hFits := ((sharedOut_iff fastTable 0 0 (by decide) hTimes hNul).1 hShared).1 _ rfl
  rw [LineFits] at hFits
  revert hFits
  decide +kernel

end Tables

end EspMiplay.Lyrics
