import Mathlib.Data.Bool.AllAny
import EspMiplay.Lyrics.Fetch
import EspMiplay.Miplay.JsonForm
import EspMiplay.Miplay.TextBounds

/-!
# Reading LRC

`parse_lrc` of `lyrics_fetch.c`. A line begins with its time, `[mm:ss]` or `[mm:ss.f]`; what
follows is its text, of which the buffer takes 63 bytes. Lines about the makers of the song
are left out.

The fraction is read as an integer, and its scale is guessed from its value: below 100 it
is taken for hundredths, else for thousandths. How many digits it had is lost by then, so
`.5` becomes 50 ms and `.050` becomes 500 ms.

What is left of a longer text when the buffer is full is read on as if a line began there.

## Results

* `parseLrc_file`   — the lines that are stored, with the times the code gives them.
* `LrcLine.timeRead_iff` — the fractions that are read as they are meant.
* `parseLrc_iff`    — every file.
-/

namespace EspMiplay.Lyrics

open EspMiplay.Miplay

def lyricTextLen : Nat := 64

-- ---------------------------------------------------------------------------
-- The parser
-- ---------------------------------------------------------------------------

def utf8 (s : String) : Bytes := s.toList.flatMap String.utf8EncodeChar

/-- `%d` of `sscanf`. -/
def scanInt (p : Bytes) : Option (Int × Bytes) :=
  (scanNumber p).map fun (neg, n, rest) =>
    (if neg then max (-(n : Int)) (-2147483648) else min (n : Int) 2147483647, rest)

/-- A character of the format that stands for itself. -/
def scanChar (c : UInt8) : Bytes → Option Bytes
  | [] => none
  | d :: p => if d = c then some p else none

/-- `sscanf(p, "[%d:%d.%d]", &mm, &ss, &ms)`, where it assigns two of them or more; the
third one is 0 before. -/
def scanStamp (p : Bytes) : Option (Int × Int × Int) := do
  let p ← scanChar 0x5B p
  let (mm, p) ← scanInt p
  let p ← scanChar 0x3A p
  let (ss, p) ← scanInt p
  let ms := (scanChar 0x2E p).bind scanInt
  return (mm, ss, ms.elim 0 Prod.fst)

def metaKeys : List Bytes :=
  ["作词", "作曲", "编曲", "制作人", "监制",
    "录音", "混音", "母带", "吉他", "Bass",
    "架子鼓", "大提琴", "小提琴", "管弦", "工程师",
    "出品", "发行", "公司", "solo", "Studio",
    "词曲", "词：", "曲：", "Lyrics", "lyrics",
    "Composer", "Arranger", "Producer", "Written",
    "混缩", "和声", "OP:", "SP:", "OP：", "SP：",
    "来源", "翻译", "译配", "改编"].map utf8

/-- A line about the makers, or one with a colon, or next to nothing. -/
def isMeta (text : Bytes) : Bool :=
  metaKeys.any (fun key => (strstr key text).isSome) || (strchr 0x3A text).isSome ||
    decide (text.length ≤ 2)

/-- `time_ms` -/
def lrcTime (mm ss ms : Int) : Int :=
  toInt32 (mm * 60000 + ss * 1000 + if ms < 100 then ms * 10 else ms)

def isNewline (c : UInt8) : Bool := c = 0x0A ∨ c = 0x0D

def inLine (c : UInt8) : Bool := c ≠ 0 ∧ !isNewline c

/-- One turn of the loop: what it stores, and where the next one begins. -/
def lrcTurn (p : Bytes) : Option Line × Bytes :=
  if isNewline (peek p) then (none, p.drop 1)
  else
    match scanStamp p with
    | some (mm, ss, ms) =>
      match strchr 0x5D p with
      | none => (none, p.drop 1)
      | some bracket =>
        let start := bracket.drop 1
        let text := (start.takeWhile inLine).take (lyricTextLen - 1)
        let rest := skipWhile isNewline (start.drop text.length)
        (if isMeta text then none else some ⟨lrcTime mm ss ms, text⟩, rest)
    | none => (none, (strchr 0x0A p).elim [] (·.drop 1))

/-- The loop, with room for so many lines. Every turn consumes a character. -/
def parseLrcFrom : Nat → Nat → Bytes → List Line
  | 0, _, _ => []
  | _, 0, _ => []
  | fuel + 1, room + 1, p =>
    if peek p = 0 then []
    else
      match lrcTurn p with
      | (some line, rest) => line :: parseLrcFrom fuel room rest
      | (none, rest) => parseLrcFrom fuel (room + 1) rest

def parseLrc (p : Bytes) : List Line := parseLrcFrom p.length lyricMaxLines p

-- ---------------------------------------------------------------------------
-- Files
-- ---------------------------------------------------------------------------

/-- A number as it is written. -/
structure Digits where
  bytes : Bytes
  nonempty : bytes ≠ []
  digits : ∀ c ∈ bytes, isDigit c

def Digits.val (d : Digits) : Nat := digitsVal d.bytes

/-- One to three digits behind the point. -/
structure Fraction extends Digits where
  short : bytes.length ≤ 3

/-- In thousandths. -/
def Fraction.millis (f : Fraction) : Nat := f.val * 10 ^ (3 - f.bytes.length)

/-- A line with its newlines. -/
structure LrcLine where
  minutes : Digits
  seconds : Digits
  fraction : Option Fraction
  text : Bytes
  ending : Bytes
  text_inLine : ∀ c ∈ text, inLine c
  ending_newline : ∀ c ∈ ending, isNewline c
  /-- its time is one that an `int` can hold -/
  fits : minutes.val * 60000 + seconds.val * 1000 + 999 < 2147483648

namespace LrcLine

def fractionBytes : Option Fraction → Bytes
  | none => []
  | some f => 0x2E :: f.bytes

def bytes (l : LrcLine) : Bytes :=
  0x5B :: (l.minutes.bytes ++ 0x3A :: (l.seconds.bytes ++
    (fractionBytes l.fraction ++ 0x5D :: (l.text ++ l.ending))))

/-- What its stamp says. -/
def timeMs (l : LrcLine) : Int :=
  l.minutes.val * 60000 + l.seconds.val * 1000 + l.fraction.elim 0 Fraction.millis

/-- The text as far as the buffer goes. -/
def stored (l : LrcLine) : Bytes := l.text.take (lyricTextLen - 1)

/-- The part that does not go into the buffer. -/
def cut (l : LrcLine) : Bytes := l.text.drop (lyricTextLen - 1)

def Kept (l : LrcLine) : Prop := isMeta l.stored = false

instance (l : LrcLine) : Decidable l.Kept := inferInstanceAs (Decidable (_ = _))

end LrcLine

/-- A file: its lines end in newlines, the last one may not. -/
structure LrcFile where
  lines : List LrcLine
  ended : ∀ l ∈ lines.dropLast, l.ending ≠ []

def lrcBytes (ls : List LrcLine) : Bytes := ls.flatMap LrcLine.bytes

/-- The lines `parse_lrc` is to store. -/
def keptLines (ls : List LrcLine) : List LrcLine :=
  (ls.filter fun l => l.Kept).take lyricMaxLines

def LrcFile.expected (f : LrcFile) : List Line :=
  (keptLines f.lines).map fun l => ⟨l.timeMs, l.stored⟩

-- ---------------------------------------------------------------------------
-- The condition
-- ---------------------------------------------------------------------------

namespace LrcLine

/-- The fraction as an `int`. -/
def fractionVal (l : LrcLine) : Nat := l.fraction.elim 0 fun f => f.val

/-- The scale that is guessed from the value is the one the digits have. -/
def ScaleRight (l : LrcLine) : Prop :=
  l.fraction.all fun f => f.val = 0 ∨ f.bytes.length = 2 ∨ f.bytes.length = 3 ∧ 100 ≤ f.val

/-- What is left behind the buffer is passed over up to the end of the line. -/
def CutHarmless (l : LrcLine) (rest : Bytes) : Prop :=
  l.cut = [] ∨ scanStamp (l.cut ++ (l.ending ++ rest)) = none ∧ (0x0A ∈ l.ending ∨ rest = [])

end LrcLine

/-- So it is in all lines that are read while there is room. -/
def CutsHarmless : Nat → List LrcLine → Prop
  | 0, _ => True
  | _, [] => True
  | room + 1, l :: ls =>
    let left := if l.Kept then room else room + 1
    (left = 0 ∨ l.CutHarmless (lrcBytes ls)) ∧ CutsHarmless left ls

-- ---------------------------------------------------------------------------
-- The stamp
-- ---------------------------------------------------------------------------

section Stamp

variable {c : UInt8} {rest : Bytes}

theorem scanNumber_digits (d : Digits) (hEnd : isDigit c = false) :
    scanNumber (d.bytes ++ c :: rest) = some (false, d.val, c :: rest) :=
  scanNumber_of_digits d.digits d.nonempty rest hEnd

theorem scanInt_digits (d : Digits) (hFits : d.val < 2147483648) (hEnd : isDigit c = false) :
    scanInt (d.bytes ++ c :: rest) = some ((d.val : Int), c :: rest) := by
  have hMin : min (d.val : Int) 2147483647 = d.val := by omega
  rw [scanInt, scanNumber_digits d hEnd]
  simp [hMin]

theorem digitsVal_lt (ds : Bytes) (hDigits : ∀ c ∈ ds, isDigit c) (n : Nat) :
    ds.foldl (fun n d => 10 * n + (d.toNat - 0x30)) n < (n + 1) * 10 ^ ds.length := by
  induction ds generalizing n with
  | nil => simp
  | cons c cs ih =>
    obtain ⟨hDigit, hTail⟩ := List.forall_mem_cons.1 hDigits
    obtain ⟨-, hHigh⟩ : 0x30 ≤ c.toNat ∧ c.toNat ≤ 0x39 := by
      simpa [isDigit, UInt8.le_iff_toNat_le] using hDigit
    calc cs.foldl (fun n d => 10 * n + (d.toNat - 0x30)) (10 * n + (c.toNat - 0x30))
        < (10 * n + (c.toNat - 0x30) + 1) * 10 ^ cs.length := ih hTail _
      _ ≤ ((n + 1) * 10) * 10 ^ cs.length := Nat.mul_le_mul_right _ (by omega)
      _ = (n + 1) * 10 ^ (c :: cs).length := by
        rw [List.length_cons, Nat.pow_succ', Nat.mul_assoc]

theorem Fraction.val_lt (f : Fraction) : f.val < 10 ^ f.bytes.length := by
  have hLt := digitsVal_lt f.bytes f.digits 0
  rwa [Nat.zero_add, Nat.one_mul] at hLt

theorem scanStamp_line (l : LrcLine) :
    scanStamp (l.bytes ++ rest) =
      some ((l.minutes.val : Int), (l.seconds.val : Int), (l.fractionVal : Int)) := by
  have hFits := l.fits
  have hMinutes : ∀ p, scanInt (l.minutes.bytes ++ 0x3A :: p) =
      some ((l.minutes.val : Int), 0x3A :: p) :=
    fun _ => scanInt_digits l.minutes (by omega) (by decide)
  cases hFraction : l.fraction with
  | none =>
    have hSeconds : ∀ p, scanInt (l.seconds.bytes ++ 0x5D :: p) =
        some ((l.seconds.val : Int), 0x5D :: p) :=
      fun _ => scanInt_digits l.seconds (by omega) (by decide)
    simp [LrcLine.bytes, LrcLine.fractionBytes, LrcLine.fractionVal, hFraction, scanStamp,
      scanChar, hMinutes, hSeconds]
  | some f =>
    have hVal : f.val < 2147483648 := by
      have hPow : 10 ^ f.bytes.length ≤ 10 ^ 3 := Nat.pow_le_pow_right (by decide) f.short
      have hLt := f.val_lt
      omega
    have hSeconds : ∀ p, scanInt (l.seconds.bytes ++ 0x2E :: p) =
        some ((l.seconds.val : Int), 0x2E :: p) :=
      fun _ => scanInt_digits l.seconds (by omega) (by decide)
    have hMillis : ∀ p, scanInt (f.bytes ++ 0x5D :: p) = some ((f.val : Int), 0x5D :: p) :=
      fun _ => scanInt_digits f.toDigits hVal (by decide)
    simp [LrcLine.bytes, LrcLine.fractionBytes, LrcLine.fractionVal, hFraction, scanStamp,
      scanChar, hMinutes, hSeconds, hMillis]

theorem strchr_bracket (l : LrcLine) :
    strchr 0x5D (l.bytes ++ rest) = some (0x5D :: (l.text ++ (l.ending ++ rest))) := by
  have hDigits (d : Digits) : ∀ c ∈ d.bytes, c ≠ 0 ∧ c ≠ 0x5D := by
    intro c hMem
    obtain ⟨-, -, -, -, -, hNul⟩ := isDigit_plain (d.digits c hMem)
    refine ⟨hNul, ?_⟩
    rintro rfl
    exact absurd (d.digits _ hMem) (by decide)
  have hStamp : ∀ c ∈ 0x5B :: (l.minutes.bytes ++ 0x3A :: (l.seconds.bytes ++
      LrcLine.fractionBytes l.fraction)), c ≠ 0 ∧ c ≠ 0x5D := by
    simp only [List.forall_mem_cons, List.forall_mem_append]
    refine ⟨by decide, hDigits _, by decide, hDigits _, ?_⟩
    cases l.fraction with
    | none => exact List.forall_mem_nil _
    | some f => exact List.forall_mem_cons.2 ⟨by decide, hDigits f.toDigits⟩
  have hSplit : l.bytes ++ rest = (0x5B :: (l.minutes.bytes ++ 0x3A :: (l.seconds.bytes ++
      LrcLine.fractionBytes l.fraction))) ++ 0x5D :: (l.text ++ (l.ending ++ rest)) := by
    simp [LrcLine.bytes]
  rw [hSplit, strchr_skip hStamp, strchr, if_pos rfl]

end Stamp

-- ---------------------------------------------------------------------------
-- Turns
-- ---------------------------------------------------------------------------

/-- The time a line is stored with. -/
def LrcLine.timeRead (l : LrcLine) : Int :=
  lrcTime l.minutes.val l.seconds.val l.fractionVal

/-- A line as it is stored. -/
def LrcLine.read (l : LrcLine) : Line := ⟨l.timeRead, l.stored⟩

theorem lrcTurn_line (l : LrcLine) {rest : Bytes} (hEnd : l.ending ≠ [] ∨ rest = []) :
    lrcTurn (l.bytes ++ rest) =
      (if l.Kept then some l.read else none,
        skipWhile isNewline (l.cut ++ (l.ending ++ rest))) := by
  have hStart : (l.text ++ (l.ending ++ rest)).takeWhile inLine = l.text := by
    rw [List.takeWhile_append_of_pos l.text_inLine]
    have hStop : (l.ending ++ rest).takeWhile inLine = [] := by
      cases hEnding : l.ending with
      | nil =>
        rw [hEnd.resolve_left (by simp [hEnding])]
        rfl
      | cons c cs =>
        have hNewline := l.ending_newline c (by simp [hEnding])
        exact List.takeWhile_cons_of_neg (by simp [inLine, hNewline])
    rw [hStop, List.append_nil]
  have hRest : (l.text ++ (l.ending ++ rest)).drop l.stored.length =
      l.cut ++ (l.ending ++ rest) := by
    have hLen : l.stored.length ≤ l.text.length := (List.take_prefix _ _).length_le
    rw [List.drop_append_of_le_length hLen, LrcLine.cut, LrcLine.stored, List.length_take,
      ← List.drop_eq_drop_min]
  have hPeek : isNewline (peek (l.bytes ++ rest)) = false := rfl
  have hStored : l.text.take (lyricTextLen - 1) = l.stored := rfl
  rw [lrcTurn, hPeek, if_neg (by decide), scanStamp_line, strchr_bracket]
  simp only [List.drop_succ_cons, List.drop_zero, hStart, hStored, hRest]
  by_cases hKept : l.Kept
  · rw [if_pos hKept, if_neg (by rw [hKept]; decide)]
    rfl
  · rw [if_neg hKept, if_pos (by simpa [LrcLine.Kept] using hKept)]

/-- A turn leaves less than it began with. -/
theorem lrcTurn_shorter {p : Bytes} (hNe : p ≠ []) : (lrcTurn p).2.length < p.length := by
  have hPos := List.length_pos_iff.2 hNe
  have hDrop : (p.drop 1).length < p.length := by
    rw [List.length_drop]
    omega
  have hFound {c : UInt8} {e : Bytes} (h : strchr c p = some e) :
      (e.drop 1).length < p.length := by
    obtain ⟨w, rest, rfl, rfl, -⟩ := strchr_eq_some h
    simp only [List.drop_succ_cons, List.drop_zero, List.length_append, List.length_cons]
    omega
  unfold lrcTurn
  split
  · exact hDrop
  split
  · split
    · exact hDrop
    · rename_i bracket hBracket
      refine Nat.lt_of_le_of_lt ?_ (hFound hBracket)
      exact ((List.dropWhile_suffix _).trans (List.drop_suffix _ _)).length_le
  · cases hNewline : strchr 0x0A p with
    | none => exact hPos
    | some e => exact hFound hNewline

/-- More fuel than there are characters changes nothing. -/
theorem parseLrcFrom_fuel {fuel room : Nat} {p : Bytes} (hFuel : p.length ≤ fuel) :
    parseLrcFrom fuel room p = parseLrcFrom p.length room p := by
  induction fuel using Nat.strong_induction_on generalizing room p with
  | _ fuel ih =>
    cases room with
    | zero => cases fuel <;> cases p.length <;> rfl
    | succ room =>
      rcases p with _ | ⟨c, cs⟩
      · cases fuel <;> rfl
      obtain ⟨fuel, rfl⟩ : ∃ n, fuel = n + 1 := Nat.exists_eq_succ_of_ne_zero (by
        rw [List.length_cons] at hFuel
        omega)
      rw [List.length_cons] at hFuel ⊢
      rw [parseLrcFrom, parseLrcFrom]
      split
      · rfl
      have hShorter : (lrcTurn (c :: cs)).2.length < (c :: cs).length :=
        lrcTurn_shorter (List.cons_ne_nil c cs)
      rw [List.length_cons] at hShorter
      have hRest (room : Nat) : parseLrcFrom fuel room (lrcTurn (c :: cs)).2 =
          parseLrcFrom cs.length room (lrcTurn (c :: cs)).2 := by
        rw [ih fuel (Nat.lt_succ_self _) (by omega), ← ih cs.length (by omega) (by omega)]
      rcases hTurn : lrcTurn (c :: cs) with ⟨_ | line, rest⟩
      all_goals
        rw [hTurn] at hRest
        simp only [hRest]

-- ---------------------------------------------------------------------------
-- The lines
-- ---------------------------------------------------------------------------

/-- The loop with fuel enough. -/
def parseLines (room : Nat) (p : Bytes) : List Line := parseLrcFrom p.length room p

theorem parseLines_turn {room : Nat} {p : Bytes} (hMore : peek p ≠ 0) :
    parseLines (room + 1) p =
      (lrcTurn p).1.elim (parseLines (room + 1) (lrcTurn p).2)
        fun line => line :: parseLines room (lrcTurn p).2 := by
  rcases p with _ | ⟨c, cs⟩
  · exact absurd rfl hMore
  have hShorter := lrcTurn_shorter (List.cons_ne_nil c cs)
  rw [List.length_cons] at hShorter
  rw [parseLines, List.length_cons, parseLrcFrom, if_neg hMore]
  rcases hTurn : lrcTurn (c :: cs) with ⟨_ | line, rest⟩
  all_goals
    rw [hTurn] at hShorter
    have hFuel (k : Nat) : parseLrcFrom cs.length k rest = parseLines k rest :=
      parseLrcFrom_fuel (Nat.le_of_lt_succ hShorter)
    simp [hFuel]

theorem parseLines_nil (room : Nat) : parseLines room [] = [] := by
  cases room <;> rfl

theorem parseLines_zero (p : Bytes) : parseLines 0 p = [] := by
  rw [parseLines]
  cases p.length <;> rfl

theorem isNewline_ne {c : UInt8} (h : isNewline c) : c ≠ 0 := by
  rintro rfl
  cases h

/-- Newlines are passed over. -/
theorem parseLines_newlines (room : Nat) {w : Bytes} (hNewlines : ∀ c ∈ w, isNewline c)
    (rest : Bytes) : parseLines room (w ++ rest) = parseLines room rest := by
  cases room with
  | zero => rw [parseLines_zero, parseLines_zero]
  | succ room =>
    induction w with
    | nil => rfl
    | cons c cs ih =>
      obtain ⟨hNewline, hTail⟩ := List.forall_mem_cons.1 hNewlines
      have hTurn : lrcTurn (c :: cs ++ rest) = (none, cs ++ rest) := if_pos hNewline
      have hMore : peek (c :: cs ++ rest) ≠ 0 := isNewline_ne hNewline
      rw [parseLines_turn hMore, hTurn]
      exact ih hTail

/-- What is left of a long text is passed over with its line. -/
theorem parseLines_cut (room : Nat) (l : LrcLine) {rest : Bytes} (hCut : l.cut ≠ [])
    (hHarmless : l.CutHarmless rest) :
    parseLines room (l.cut ++ (l.ending ++ rest)) = parseLines room rest := by
  cases room with
  | zero => rw [parseLines_zero, parseLines_zero]
  | succ room =>
    obtain ⟨hStamp, hEnds⟩ := hHarmless.resolve_left hCut
    have hText : ∀ c ∈ l.cut, c ≠ 0 ∧ isNewline c = false := fun c hMem => by
      simpa [inLine] using l.text_inLine c (List.mem_of_mem_drop hMem)
    obtain ⟨c, cs, hCons⟩ := List.exists_cons_of_ne_nil hCut
    obtain ⟨hNul, hNewline⟩ := hText c (by simp [hCons])
    have hPeek : peek (l.cut ++ (l.ending ++ rest)) = c := by rw [hCons]; rfl
    have hTurn : lrcTurn (l.cut ++ (l.ending ++ rest)) =
        (none, (strchr 0x0A (l.cut ++ (l.ending ++ rest))).elim [] (·.drop 1)) := by
      rw [lrcTurn, hPeek, hNewline, if_neg (by decide), hStamp]
    have hSkip : ∀ d ∈ l.cut, d ≠ 0 ∧ d ≠ 0x0A := fun d hMem => by
      refine ⟨(hText d hMem).1, ?_⟩
      rintro rfl
      exact absurd (hText _ hMem).2 (by decide)
    rw [parseLines_turn (hPeek ▸ hNul), hTurn, strchr_skip hSkip]
    simp only [Option.elim_none]
    by_cases hLine : 0x0A ∈ l.ending
    · -- the rest of the ending is newlines again
      obtain ⟨a, b, hSplit, hFirst⟩ := List.eq_append_cons_of_mem hLine
      have hFront : ∀ d ∈ a, d ≠ 0 ∧ d ≠ 0x0A := fun d hMem => by
        refine ⟨isNewline_ne (l.ending_newline d (by simp [hSplit, hMem])), ?_⟩
        rintro rfl
        exact hFirst hMem
      have hBehind : ∀ d ∈ b, isNewline d := fun d hMem =>
        l.ending_newline d (by simp [hSplit, hMem])
      rw [hSplit, List.append_assoc, strchr_skip hFront, List.cons_append, strchr, if_pos rfl]
      exact parseLines_newlines _ hBehind rest
    · obtain rfl := hEnds.resolve_left hLine
      have hNone : ∀ d ∈ l.ending, d ≠ 0 ∧ d ≠ 0x0A := fun d hMem => by
        refine ⟨isNewline_ne (l.ending_newline d hMem), ?_⟩
        rintro rfl
        exact hLine hMem
      rw [strchr_skip hNone]
      rfl

theorem skipWhile_newlines {w rest : Bytes} (hNewlines : ∀ c ∈ w, isNewline c)
    (hRest : isNewline (peek rest) = false) : skipWhile isNewline (w ++ rest) = rest := by
  rw [skipWhile, List.dropWhile_append_of_pos hNewlines]
  cases rest with
  | nil => rfl
  | cons c cs => exact List.dropWhile_cons_of_neg (by simpa [peek] using hRest)

theorem peek_lrcBytes (ls : List LrcLine) : isNewline (peek (lrcBytes ls)) = false := by
  cases ls <;> rfl

/-- The next line is looked for behind the ending. -/
theorem parseLines_rest (room : Nat) (l : LrcLine) (ls : List LrcLine)
    (hHarmless : l.CutHarmless (lrcBytes ls)) :
    parseLines room (skipWhile isNewline (l.cut ++ (l.ending ++ lrcBytes ls))) =
      parseLines room (lrcBytes ls) := by
  by_cases hCut : l.cut = []
  · rw [hCut, List.nil_append, skipWhile_newlines l.ending_newline (peek_lrcBytes ls)]
  · have hKeep : skipWhile isNewline (l.cut ++ (l.ending ++ lrcBytes ls)) =
        l.cut ++ (l.ending ++ lrcBytes ls) := by
      obtain ⟨c, cs, hCons⟩ := List.exists_cons_of_ne_nil hCut
      have hMem : c ∈ l.text := List.mem_of_mem_drop (i := lyricTextLen - 1) (by
        rw [← LrcLine.cut, hCons]
        exact List.mem_cons_self)
      have hText : c ≠ 0 ∧ isNewline c = false := by simpa [inLine] using l.text_inLine c hMem
      rw [hCons]
      exact List.dropWhile_cons_of_neg (by simp [hText.2])
    rw [hKeep, parseLines_cut room l hCut hHarmless]

theorem ended_tail {l : LrcLine} {ls : List LrcLine}
    (hEnded : ∀ k ∈ (l :: ls).dropLast, k.ending ≠ []) :
    (l.ending ≠ [] ∨ lrcBytes ls = []) ∧ ∀ k ∈ ls.dropLast, k.ending ≠ [] := by
  cases ls with
  | nil => exact ⟨.inr rfl, fun k hMem => (List.not_mem_nil hMem).elim⟩
  | cons m ms =>
    rw [List.dropLast_cons_of_ne_nil (List.cons_ne_nil m ms), List.forall_mem_cons] at hEnded
    exact ⟨.inl hEnded.1, hEnded.2⟩

theorem parseLines_lines {room : Nat} {ls : List LrcLine}
    (hEnded : ∀ k ∈ ls.dropLast, k.ending ≠ []) (hCuts : CutsHarmless room ls) :
    parseLines room (lrcBytes ls) =
      ((ls.filter fun l => l.Kept).take room).map LrcLine.read := by
  induction ls generalizing room with
  | nil =>
    rw [lrcBytes, List.flatMap_nil, parseLines_nil]
    simp
  | cons l ls ih =>
    cases room with
    | zero => rw [parseLines_zero, List.take_zero, List.map_nil]
    | succ room =>
      obtain ⟨hEnd, hTail⟩ := ended_tail hEnded
      obtain ⟨hHarmless, hRest⟩ := hCuts
      have hBytes : lrcBytes (l :: ls) = l.bytes ++ lrcBytes ls := List.flatMap_cons
      have hMore : peek (lrcBytes (l :: ls)) ≠ 0 := by
        show (0x5B : UInt8) ≠ 0
        decide
      rw [parseLines_turn hMore, hBytes, lrcTurn_line l hEnd]
      by_cases hKept : l.Kept
      · rw [if_pos hKept] at hHarmless hRest
        rw [if_pos hKept, List.filter_cons_of_pos (by simpa using hKept), List.take_succ_cons,
          List.map_cons, Option.elim_some, ← ih hTail hRest]
        congr 1
        rcases hHarmless with rfl | hHarmless
        · rw [parseLines_zero, parseLines_zero]
        · exact parseLines_rest room l ls hHarmless
      · rw [if_neg hKept] at hHarmless hRest
        rw [if_neg hKept, List.filter_cons_of_neg (by simpa using hKept), Option.elim_none,
          ← ih hTail hRest]
        exact parseLines_rest _ l ls (hHarmless.resolve_left (Nat.succ_ne_zero room))

/-- **The lines that are stored** are the right ones, with the time the code gives them. -/
theorem parseLrc_file (f : LrcFile) (hCuts : CutsHarmless lyricMaxLines f.lines) :
    parseLrc (lrcBytes f.lines) = (keptLines f.lines).map LrcLine.read :=
  parseLines_lines f.ended hCuts

-- ---------------------------------------------------------------------------
-- The times
-- ---------------------------------------------------------------------------

/-- Thousandths out of the value alone. -/
theorem scale_iff (f : Fraction) :
    (if (f.val : Int) < 100 then (f.val : Int) * 10 else f.val) = f.millis ↔
      f.val = 0 ∨ f.bytes.length = 2 ∨ f.bytes.length = 3 ∧ 100 ≤ f.val := by
  have hPos := List.length_pos_iff.2 f.nonempty
  have hShort := f.short
  have hLt := f.val_lt
  rw [Fraction.millis]
  obtain hOne | hTwo | hThree : f.bytes.length = 1 ∨ f.bytes.length = 2 ∨ f.bytes.length = 3 := by
    omega
  · rw [hOne] at hLt ⊢
    simp only [Nat.reduceSub, Nat.reducePow] at hLt ⊢
    split <;> omega
  · rw [hTwo] at hLt ⊢
    simp only [Nat.reduceSub, Nat.reducePow, true_or, or_true, iff_true] at hLt ⊢
    split <;> omega
  · rw [hThree] at hLt ⊢
    simp only [Nat.reduceSub, Nat.reducePow, Nat.reduceEqDiff, true_and, false_or] at hLt ⊢
    split <;> omega

theorem toInt32_of_lt {z : Int} (hPos : 0 ≤ z) (hLt : z < 2147483648) : toInt32 z = z := by
  unfold toInt32
  omega

theorem fraction_lt (l : LrcLine) : l.fractionVal < 1000 := by
  unfold LrcLine.fractionVal
  cases l.fraction with
  | none => decide
  | some f =>
    have hPow : 10 ^ f.bytes.length ≤ 10 ^ 3 := Nat.pow_le_pow_right (by decide) f.short
    have hLt := f.val_lt
    simp only [Option.elim_some]
    omega

/-- **A time is read as it is meant** exactly if the guess about its fraction is right. -/
theorem LrcLine.timeRead_iff (l : LrcLine) : l.timeRead = l.timeMs ↔ l.ScaleRight := by
  have hFits := l.fits
  have hFraction := fraction_lt l
  have hTime : l.timeRead = l.minutes.val * 60000 + l.seconds.val * 1000 +
      if (l.fractionVal : Int) < 100 then (l.fractionVal : Int) * 10 else l.fractionVal := by
    refine toInt32_of_lt ?_ ?_
    all_goals split <;> omega
  rw [hTime, LrcLine.timeMs, LrcLine.ScaleRight]
  unfold LrcLine.fractionVal
  cases l.fraction with
  | none => simp
  | some f =>
    have hScale := scale_iff f
    simp only [Option.elim_some, Option.all_some, decide_eq_true_eq] at hScale ⊢
    rw [← hScale]
    omega

/-- **Every file.** The lines that are not about the makers are stored with their times,
exactly when the scale of their fractions is guessed right. -/
theorem parseLrc_iff (f : LrcFile) (hCuts : CutsHarmless lyricMaxLines f.lines) :
    parseLrc (lrcBytes f.lines) = f.expected ↔ ∀ l ∈ keptLines f.lines, l.ScaleRight := by
  rw [parseLrc_file f hCuts, LrcFile.expected, List.map_inj_left]
  refine forall₂_congr fun l _ => ?_
  rw [← l.timeRead_iff, LrcLine.read, Line.mk.injEq, and_iff_left rfl]

theorem cutsHarmless_nil (room : Nat) : CutsHarmless room [] := by
  cases room <;> trivial

/-- One line, of the length a line of lyrics has. -/
def shortLine (fraction : Option Fraction) : LrcLine where
  minutes := ⟨ascii "00", by decide, List.all_iff_forall_prop.1 (by decide)⟩
  seconds := ⟨ascii "01", by decide, List.all_iff_forall_prop.1 (by decide)⟩
  fraction := fraction
  text := ascii "hello"
  ending := []
  text_inLine := List.all_iff_forall_prop.1 (by decide)
  ending_newline := List.all_iff_forall_prop.1 (by decide)
  fits := by decide

def oneLine (fraction : Option Fraction) : LrcFile where
  lines := [shortLine fraction]
  ended _ hMem := (List.not_mem_nil hMem).elim

/-- `.50` -/
def halfInTwo : Fraction where
  bytes := ascii "50"
  nonempty := by decide
  digits := List.all_iff_forall_prop.1 (by decide)
  short := by decide

/-- `.5` -/
def halfInOne : Fraction where
  bytes := ascii "5"
  nonempty := by decide
  digits := List.all_iff_forall_prop.1 (by decide)
  short := by decide

theorem parseLrc_iff_half :
    parseLrc (lrcBytes (oneLine (some halfInTwo)).lines) = (oneLine (some halfInTwo)).expected ↔
      ∀ l ∈ keptLines (oneLine (some halfInTwo)).lines, l.ScaleRight :=
  parseLrc_iff _ ⟨.inr (.inl rfl), cutsHarmless_nil _⟩

/-- Half a second in one digit becomes a twentieth of one. -/
theorem parseLrc_tenths : ¬∀ f : LrcFile, parseLrc (lrcBytes f.lines) = f.expected := by
  intro hAll
  exact absurd (hAll (oneLine (some halfInOne))) (by decide +kernel)

end EspMiplay.Lyrics
