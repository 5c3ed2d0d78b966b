import Mathlib.Algebra.GroupWithZero.Nat
import Mathlib.Data.Bool.AllAny
import EspMiplay.Lib.Utf8
import EspMiplay.Lyrics.Lrc

/-!
# The karaoke highlight

`lyrics_get_karaoke_byte_idx` of `lyrics_fetch.c`: up to which byte a line is shown as sung.
As many characters are as words of the klyric table have begun; punctuation goes along.

A line is what `parse_lrc` has stored of a text, so it may end within a character. The loops
over it take the width of a character from its first byte, and know of no width but one,
two and three:

- A character of four bytes is walked over in two steps, of three bytes and of one, and both
  of them count as sung.
- What the cut leaves of a character is stepped over by its full width, and the NUL behind
  it with it, unless just three bytes of four are left.

## Results

* `parseLrc_stored` — what `parse_lrc` stores of a valid text is such a line.
* `lyricWalk_line`  — the steps of the loops over a line.
* `karaoke_iff`     — every line and every table.
-/

namespace EspMiplay.Lyrics

open EspMiplay.Miplay
open Utf8 (encode)

-- ---------------------------------------------------------------------------
-- The loops
-- ---------------------------------------------------------------------------

def unsungAscii : List Nat := [0x20, 0x2C, 0x2E, 0x21, 0x3F, 0x3B, 0x3A, 0x2D, 0x27, 0x22]

/-- The width of a character by its first byte, and whether it is sung. -/
def lyricCharBytes (c : UInt8) : Nat × Bool :=
  if 0xE0 ≤ c then (3, true)
  else if 0xC0 ≤ c then (2, true)
  else (1, c.toNat ∉ unsungAscii)

/-- Full-width punctuation, CJK punctuation, the ellipsis and the dash. -/
def isWidePunct (a b c : UInt8) : Bool :=
  (a = 0xEF ∧ b = 0xBC ∧ 0x81 ≤ c ∧ c ≤ 0xBF) ∨ (a = 0xE3 ∧ b = 0x80 ∧ 0x80 ≤ c ∧ c ≤ 0x9F) ∨
    (a = 0xE2 ∧ b = 0x80 ∧ (c = 0xA6 ∨ c = 0x94))

def lyricIsSungChar (p : Bytes) : Nat × Bool :=
  let (bytes, sung) := lyricCharBytes (peek p)
  (bytes, if bytes = 3 ∧ sung then !isWidePunct (peek p) (p.getD 1 0) (p.getD 2 0) else sung)

/-- What `while (*t)` finds, a step for each turn. Every turn consumes a character. -/
def lyricWalk : Nat → Bytes → List (Nat × Bool)
  | 0, _ => []
  | fuel + 1, t =>
    if peek t = 0 then []
    else
      let step := lyricIsSungChar t
      step :: lyricWalk fuel (t.drop step.1)

/-- `total_sung` -/
def totalSung (steps : List (Nat × Bool)) : Nat := steps.countP Prod.snd

/-- The loop up to the target. -/
def walkTo : List (Nat × Bool) → Nat → Nat
  | [], _ => 0
  | _, 0 => 0
  | (bytes, sung) :: steps, target + 1 =>
    bytes + walkTo steps (if sung then target else target + 1)

/-- The words of a line, by the time each begins: those from `first` up to `last`. -/
def wordsAt (k : Klyric) (lineIdx : Int) : Option (List Int) :=
  if lineIdx < 0 ∨ k.lines = [] ∨ k.words = [] ∨ lyricMaxLines ≤ lineIdx then none
  else
    let kline := k.map.getD lineIdx.toNat (-1)
    if kline < 0 then none
    else
      match k.lines[kline.toNat]? with
      | none => none
      | some line =>
        let first := line.value.first
        let last := k.lines[kline.toNat + 1]?.elim k.words.length (·.value.first)
        if last = first then none
        else some (((k.words.drop first).take (last - first)).map (·.value.start))

/-- The words in front of the first one that begins later: `sung_words`. -/
def sungWords (ws : List Int) (pos : Int) : Nat := (ws.takeWhile (· ≤ pos)).length

/-- The result, and how far the loop over the whole text has gone. -/
structure KaraokeIdx where
  idx : Int
  reach : Nat

/-- `mem` is the memory from the line on. -/
def lyricsGetKaraokeByteIdx (k : Klyric) (lineIdx : Int) (mem : Bytes) (pos : Int) :
    KaraokeIdx :=
  if peek mem = 0 then ⟨-1, 0⟩
  else
    match wordsAt k lineIdx with
    | none => ⟨-1, 0⟩
    | some ws =>
      let steps := lyricWalk mem.length mem
      let target := min (sungWords ws pos) (totalSung steps)
      ⟨walkTo steps target, (steps.map Prod.fst).sum⟩

-- ---------------------------------------------------------------------------
-- Lines
-- ---------------------------------------------------------------------------

/-- A character that is highlighted for a word of its own. -/
def isSung (c : Char) : Bool :=
  c.toNat ∉ unsungAscii ∧ ¬(0xFF01 ≤ c.toNat ∧ c.toNat ≤ 0xFF3F) ∧
    ¬(0x3000 ≤ c.toNat ∧ c.toNat ≤ 0x301F) ∧ c.toNat ≠ 0x2026 ∧ c.toNat ≠ 0x2014

/-- The sung characters, those of four bytes counted twice. -/
def sungSteps (cs : List Char) : Nat :=
  (cs.map fun c => if c.utf8Size = 4 then 2 else (isSung c).toNat).sum

/-- The characters in front of the first one of four bytes. -/
def beforeFour (cs : List Char) : List Char := cs.takeWhile (·.utf8Size ≠ 4)

/-- A line of a text, as it is stored. -/
structure StoredLine where
  chars : List Char
  in_line : ∀ c ∈ chars, c ≠ Char.ofNat 0 ∧ c ≠ '\n' ∧ c ≠ '\r'

namespace StoredLine

variable (l : StoredLine)

def bytes : Bytes := (encode l.chars).take (lyricTextLen - 1)

/-- The characters that have not been cut. -/
def whole : List Char := Utf8.whole (lyricTextLen - 1) l.chars

/-- What is left of the one that has been. -/
def cutPart : Bytes := Utf8.fragment (lyricTextLen - 1) l.chars

/-- The end of this part of the line; what is left of a cut character may go with it. -/
def EndsAt (front : List Char) (idx : Int) : Prop :=
  front <+: l.whole ∧
    (idx = (encode front).length ∨ front = l.whole ∧ idx = l.bytes.length)

/-- An offset in the line that is the end of a character and covers so many sung ones. -/
def Covers (idx : Int) (n : Nat) : Prop :=
  0 ≤ idx ∧ idx ≤ l.bytes.length ∧ ∃ front, l.EndsAt front idx ∧ front.countP isSung = n

/-- What the highlight is to be, at all positions and whatever lies behind the line. -/
structure Highlighted (k : Klyric) (lineIdx : Int) (behind : Bytes) : Prop where
  stays : ∀ pos, (lyricsGetKaraokeByteIdx k lineIdx (l.bytes ++ 0 :: behind) pos).reach ≤
    l.bytes.length
  covers : ∀ pos,
    let idx := (lyricsGetKaraokeByteIdx k lineIdx (l.bytes ++ 0 :: behind) pos).idx
    idx = -1 ∨ ∃ ws ∈ wordsAt k lineIdx,
      l.Covers idx (min (ws.countP (· ≤ pos)) (l.whole.countP isSung))
  grows : ∀ pos pos', pos ≤ pos' →
    (lyricsGetKaraokeByteIdx k lineIdx (l.bytes ++ 0 :: behind) pos).idx ≤
      (lyricsGetKaraokeByteIdx k lineIdx (l.bytes ++ 0 :: behind) pos').idx

-- ---------------------------------------------------------------------------
-- The condition
-- ---------------------------------------------------------------------------

/-- The cut has left no part of a character, or three bytes of four. -/
def CutHarmless : Prop := l.cutPart.length = 0 ∨ l.cutPart.length = 3

def sungTwice : Nat := sungSteps l.whole

def sungBefore : Nat := (beforeFour l.whole).countP isSung

/-- No word that has begun is behind one that has not, and there are no more of them than
sung characters in front of the first one of four bytes; or they are enough for the line. -/
def InStep (ws : List Int) (pos : Int) : Prop :=
  l.sungTwice ≤ sungWords ws pos ∨
    ws.countP (· ≤ pos) = sungWords ws pos ∧ sungWords ws pos ≤ l.sungBefore

end StoredLine

-- ---------------------------------------------------------------------------
-- What is stored
-- ---------------------------------------------------------------------------

section Stored

def inLineChar (c : Char) : Bool := c ≠ Char.ofNat 0 ∧ c ≠ '\n' ∧ c ≠ '\r'

theorem inLine_char {c : Char} {b : UInt8} (hMem : b ∈ String.utf8EncodeChar c) :
    inLine b = inLineChar c := by
  have hByte (n : Nat) (hAscii : n < 0x80) := Utf8.byte_eq_iff hMem hAscii
  have hNul : (Char.ofNat 0).toNat = 0 := rfl
  have hLf : '\n'.toNat = 10 := rfl
  have hCr : '\r'.toNat = 13 := rfl
  rw [Bool.eq_iff_iff]
  simp only [inLine, isNewline, inLineChar, decide_eq_true_eq, ne_eq, Bool.not_eq_true',
    decide_eq_false_iff_not, not_or, Utf8.char_eq_iff, hNul, hLf, hCr, ← UInt8.toNat_inj,
    UInt8.reduceToNat, hByte 0 (by decide), hByte 10 (by decide), hByte 13 (by decide)]

/-- A turn stores what follows a bracket, and goes on within the text. -/
theorem lrcTurn_text (p : Bytes) :
    (lrcTurn p).2 <:+ p ∧ ∀ line ∈ (lrcTurn p).1, ∃ w rest, p = w ++ 0x5D :: rest ∧
      line.text = (rest.takeWhile inLine).take (lyricTextLen - 1) := by
  have hDrop : p.drop 1 <:+ p := List.drop_suffix 1 p
  have hFound {c : UInt8} {e : Bytes} (h : strchr c p = some e) : e.drop 1 <:+ p := by
    obtain ⟨w, rest, rfl, rfl, -⟩ := strchr_eq_some h
    exact (List.drop_suffix 1 _).trans (List.suffix_append w _)
  unfold lrcTurn
  split
  · exact ⟨hDrop, by simp⟩
  split
  · split
    · exact ⟨hDrop, by simp⟩
    · rename_i bracket hBracket
      refine ⟨?_, ?_⟩
      · exact ((List.dropWhile_suffix _).trans (List.drop_suffix _ _)).trans (hFound hBracket)
      · obtain ⟨w, rest, rfl, rfl, -⟩ := strchr_eq_some hBracket
        intro line hLine
        refine ⟨w, rest, rfl, ?_⟩
        simp only [List.drop_succ_cons, List.drop_zero] at hLine
        split at hLine
        · cases hLine
        · obtain rfl := Option.some.inj hLine
          rfl
  · refine ⟨?_, by simp⟩
    cases hNewline : strchr 0x0A p with
    | none => exact List.nil_suffix
    | some e => exact hFound hNewline

theorem parseLrcFrom_text {fuel room : Nat} {p : Bytes} {line : Line}
    (hMem : line ∈ parseLrcFrom fuel room p) :
    ∃ w rest, p = w ++ 0x5D :: rest ∧
      line.text = (rest.takeWhile inLine).take (lyricTextLen - 1) := by
  induction fuel generalizing room p with
  | zero =>
    cases room <;> simp [parseLrcFrom] at hMem
  | succ fuel ih =>
    cases room with
    | zero => simp [parseLrcFrom] at hMem
    | succ room =>
      obtain ⟨⟨u, hSuffix⟩, hTurn⟩ := lrcTurn_text p
      have hLater {w rest : Bytes} (hRest : (lrcTurn p).2 = w ++ 0x5D :: rest) :
          p = (u ++ w) ++ 0x5D :: rest := by
        rw [← hSuffix, hRest, List.append_assoc]
      rw [parseLrcFrom] at hMem
      split at hMem
      · cases hMem
      split at hMem
      all_goals
        rename_i rest hEq
        rw [hEq] at hTurn hLater
      · rcases List.mem_cons.1 hMem with rfl | hMem
        · exact hTurn _ rfl
        · obtain ⟨w, rest, hRest, hText⟩ := ih hMem
          exact ⟨_, rest, hLater hRest, hText⟩
      · obtain ⟨w, rest, hRest, hText⟩ := ih hMem
        exact ⟨_, rest, hLater hRest, hText⟩

/-- **What `parse_lrc` stores** of a valid text is the beginning of a part of it. -/
theorem parseLrc_stored (s : String) : ∀ line ∈ parseLrc (utf8 s),
    ∃ l : StoredLine, l.bytes = line.text := by
  intro line hMem
  obtain ⟨w, rest, hText, hLine⟩ := parseLrcFrom_text hMem
  have hSplit : encode s.toList = w ++ 0x5D :: rest := hText
  obtain ⟨ds, -, rfl⟩ := Utf8.encode_ascii_split hSplit (by decide)
  refine ⟨⟨ds.takeWhile inLineChar, fun c hMem => ?_⟩, ?_⟩
  · simpa [inLineChar] using List.mem_takeWhile_imp hMem
  · rw [hLine, Utf8.takeWhile_encode (fun _ _ => inLine_char)]
    rfl

end Stored

-- ---------------------------------------------------------------------------
-- The steps of a character
-- ---------------------------------------------------------------------------

section Char

variable {c : Char} (rest : Bytes)

/-- The steps over a character. -/
def charSteps (c : Char) : List (Nat × Bool) :=
  if c.utf8Size = 4 then [(3, true), (1, true)] else [(c.utf8Size, isSung c)]

theorem utf8Size_of_lt (hOne : c.toNat < 0x80) : c.utf8Size = 1 :=
  Char.utf8Size_eq_one_iff.2 (UInt32.le_iff_toNat_le.2 (Nat.le_of_lt_succ hOne))

theorem utf8Size_two (hLow : 0x80 ≤ c.toNat) (hHigh : c.toNat < 0x800) : c.utf8Size = 2 :=
  Char.utf8Size_eq_two_iff.2 ⟨UInt32.lt_iff_toNat_lt.2 hLow,
    UInt32.le_iff_toNat_le.2 (Nat.le_of_lt_succ hHigh)⟩

theorem utf8Size_three (hLow : 0x800 ≤ c.toNat) (hHigh : c.toNat < 0x10000) :
    c.utf8Size = 3 :=
  Char.utf8Size_eq_three_iff.2 ⟨UInt32.lt_iff_toNat_lt.2 hLow,
    UInt32.le_iff_toNat_le.2 (Nat.le_of_lt_succ hHigh)⟩

theorem utf8Size_four (hLow : 0x10000 ≤ c.toNat) : c.utf8Size = 4 :=
  Char.utf8Size_eq_four_iff.2 (UInt32.lt_iff_toNat_lt.2 hLow)

theorem lyricCharBytes_toNat (a : UInt8) :
    lyricCharBytes a =
      if 0xE0 ≤ a.toNat then (3, true)
      else if 0xC0 ≤ a.toNat then (2, true)
      else (1, decide (a.toNat ∉ unsungAscii)) := by
  simp only [lyricCharBytes, UInt8.le_iff_toNat_le, UInt8.reduceToNat]

/-- A byte that is no first byte of a longer character. -/
theorem lyricIsSungChar_low {a : UInt8} (h : a.toNat < 0xC0) :
    lyricIsSungChar (a :: rest) = (1, decide (a.toNat ∉ unsungAscii)) := by
  have hPeek : peek (a :: rest) = a := rfl
  rw [lyricIsSungChar, hPeek, lyricCharBytes_toNat, if_neg (by omega), if_neg (by omega)]
  simp

theorem lyricIsSungChar_two {a : UInt8} (hLow : 0xC0 ≤ a.toNat) (hHigh : a.toNat < 0xE0) :
    lyricIsSungChar (a :: rest) = (2, true) := by
  have hPeek : peek (a :: rest) = a := rfl
  rw [lyricIsSungChar, hPeek, lyricCharBytes_toNat, if_neg (by omega), if_pos hLow]
  simp

theorem lyricIsSungChar_three {a b d : UInt8} (hLow : 0xE0 ≤ a.toNat) :
    lyricIsSungChar (a :: b :: d :: rest) = (3, !isWidePunct a b d) := by
  have hPeek : peek (a :: b :: d :: rest) = a := rfl
  rw [lyricIsSungChar, hPeek, lyricCharBytes_toNat, if_pos hLow]
  simp

/-- The punctuation is recognised by its bytes. -/
theorem isWidePunct_three (hLow : 0x800 ≤ c.toNat) (hHigh : c.toNat < 0x10000)
    {a b d : UInt8} (hA : a.toNat = c.toNat / 4096 + 0xE0)
    (hB : b.toNat = c.toNat / 64 % 64 + 0x80) (hD : d.toNat = c.toNat % 64 + 0x80) :
    (!isWidePunct a b d) = isSung c := by
  have hAscii : c.toNat ∉ unsungAscii := by
    simp only [unsungAscii, List.mem_cons, List.not_mem_nil, or_false]
    omega
  rw [Bool.eq_iff_iff]
  simp only [isWidePunct, isSung, hAscii, Bool.not_eq_true', decide_eq_false_iff_not,
    decide_eq_true_eq, ← UInt8.toNat_inj, UInt8.le_iff_toNat_le, UInt8.reduceToNat, hA, hB, hD,
    not_false_eq_true, true_and]
  omega

theorem lyricIsSungChar_char (hSize : c.toNat < 0x10000) :
    lyricIsSungChar (String.utf8EncodeChar c ++ rest) = (c.utf8Size, isSung c) := by
  by_cases hOne : c.toNat < 0x80
  · obtain ⟨a, hEncode, hA⟩ := Utf8.encodeChar_one hOne
    rw [hEncode, List.singleton_append, lyricIsSungChar_low rest (by omega), hA,
      utf8Size_of_lt hOne, isSung]
    simp
    omega
  by_cases hTwo : c.toNat < 0x800
  · obtain ⟨a, b, hEncode, hA, -⟩ := Utf8.encodeChar_two (Nat.le_of_not_lt hOne) hTwo
    have hSung : isSung c = true := by
      simp only [isSung, unsungAscii, List.mem_cons, List.not_mem_nil, or_false,
        decide_eq_true_eq]
      omega
    rw [hEncode, List.cons_append, lyricIsSungChar_two _ (by omega) (by omega), hSung,
      utf8Size_two (Nat.le_of_not_lt hOne) hTwo]
  · have hLow := Nat.le_of_not_lt hTwo
    obtain ⟨a, b, d, hEncode, hA, hB, hD⟩ := Utf8.encodeChar_three hLow hSize
    rw [hEncode]
    exact (lyricIsSungChar_three rest (by omega)).trans
      (by rw [isWidePunct_three hLow hSize hA hB hD, utf8Size_three hLow hSize])

/-- A character of four bytes is taken for one of three … -/
theorem lyricIsSungChar_four {a b d : UInt8} (hA : 0xF0 ≤ a.toNat) :
    lyricIsSungChar (a :: b :: d :: rest) = (3, true) := by
  have hPunct : isWidePunct a b d = false := by
    simp only [isWidePunct, decide_eq_false_iff_not, ← UInt8.toNat_inj, UInt8.reduceToNat]
    omega
  rw [lyricIsSungChar_three _ (by omega), hPunct]
  rfl

/-- … and a byte on its own. -/
theorem lyricIsSungChar_last {e : UInt8} (hLow : 0x80 ≤ e.toNat) (hHigh : e.toNat < 0xC0) :
    lyricIsSungChar (e :: rest) = (1, true) := by
  have hByte : e.toNat ∉ unsungAscii := by
    simp only [unsungAscii, List.mem_cons, List.not_mem_nil, or_false]
    omega
  rw [lyricIsSungChar_low _ hHigh]
  simp [hByte]

end Char

-- ---------------------------------------------------------------------------
-- The steps over a line
-- ---------------------------------------------------------------------------

section Walk

variable {t rest : Bytes} {fuel : Nat} {c : Char} {cs : List Char}

theorem lyricWalk_step (hMore : peek t ≠ 0) :
    lyricWalk (fuel + 1) t =
      lyricIsSungChar t :: lyricWalk fuel (t.drop (lyricIsSungChar t).1) := by
  rw [lyricWalk, if_neg hMore]

theorem peek_char {m : Nat} (hPos : 0 < m) (hNul : c ≠ Char.ofNat 0) (rest : Bytes) :
    peek ((String.utf8EncodeChar c).take m ++ rest) ≠ 0 := by
  obtain ⟨a, as, hEncode⟩ := List.exists_cons_of_length_pos (Utf8.encodeChar_pos c)
  obtain ⟨m, rfl⟩ := Nat.exists_eq_succ_of_ne_zero (Nat.ne_of_gt hPos)
  rw [hEncode]
  rintro (rfl : a = 0)
  obtain ⟨-, hVal⟩ := Utf8.encodeChar_ascii (c := c) (b := 0) (by simp [hEncode]) (by decide)
  exact hNul (Char.ext (UInt32.toNat_inj.1 hVal.symm))

theorem peek_whole_char (hNul : c ≠ Char.ofNat 0) (rest : Bytes) :
    peek (String.utf8EncodeChar c ++ rest) ≠ 0 := by
  have hPeek := peek_char (Utf8.encodeChar_pos c) hNul rest
  rwa [List.take_length] at hPeek

/-- A character is left behind in one step, or in two. -/
theorem lyricWalk_char (hNul : c ≠ Char.ofNat 0) (hFuel : c.utf8Size ≤ fuel) (rest : Bytes) :
    ∃ left, fuel ≤ left + c.utf8Size ∧
      lyricWalk fuel (String.utf8EncodeChar c ++ rest) = charSteps c ++ lyricWalk left rest := by
  have hMore := peek_whole_char hNul rest
  by_cases hSize : c.toNat < 0x10000
  · obtain ⟨left, rfl⟩ : ∃ left, fuel = left + 1 :=
      Nat.exists_eq_succ_of_ne_zero (Nat.ne_of_gt (Nat.lt_of_lt_of_le c.utf8Size_pos hFuel))
    have hNotFour : c.utf8Size ≠ 4 := fun hFour =>
      absurd hSize (Nat.not_lt_of_le (UInt32.lt_iff_toNat_lt.1 (Char.utf8Size_eq_four_iff.1 hFour)))
    refine ⟨left, Nat.add_le_add_left c.utf8Size_pos left, ?_⟩
    rw [lyricWalk_step hMore, lyricIsSungChar_char rest hSize, charSteps, if_neg hNotFour,
      ← String.length_utf8EncodeChar, List.drop_left]
    rfl
  · have hLow := Nat.le_of_not_lt hSize
    have hFour := utf8Size_four hLow
    obtain ⟨left, rfl⟩ : ∃ left, fuel = left + 2 := Nat.exists_eq_add_of_le' (by omega)
    obtain ⟨a, b, d, e, hEncode, hA, -, -, hE⟩ := Utf8.encodeChar_four hLow
    have hFirst := lyricIsSungChar_four (e :: rest) (a := a) (b := b) (d := d) (by omega)
    have hLast := lyricIsSungChar_last rest (e := e) (by omega) (by omega)
    have hByte : peek (e :: rest) ≠ 0 := by
      rintro (rfl : e = 0)
      simp at hE
    refine ⟨left, by omega, ?_⟩
    rw [hEncode] at hMore ⊢
    rw [lyricWalk_step hMore, List.cons_append, List.cons_append, List.cons_append,
      List.cons_append, List.nil_append, hFirst]
    simp only [List.drop_succ_cons, List.drop_zero]
    rw [lyricWalk_step hByte, hLast, charSteps, if_pos hFour]
    rfl

theorem lyricWalk_append (hChars : ∀ c ∈ cs, c ≠ Char.ofNat 0)
    (hFuel : (encode cs).length ≤ fuel) (rest : Bytes) :
    ∃ left, fuel ≤ left + (encode cs).length ∧
      lyricWalk fuel (encode cs ++ rest) = cs.flatMap charSteps ++ lyricWalk left rest := by
  induction cs generalizing fuel with
  | nil => exact ⟨fuel, Nat.le_refl _, rfl⟩
  | cons c cs ih =>
    obtain ⟨hNul, hTail⟩ := List.forall_mem_cons.1 hChars
    rw [Utf8.encode_cons, List.length_append, String.length_utf8EncodeChar] at hFuel
    obtain ⟨mid, hMid, hHead⟩ := lyricWalk_char hNul
      (Nat.le_trans (Nat.le_add_right _ _) hFuel) (encode cs ++ rest)
    obtain ⟨left, hLeft, hRest⟩ := ih hTail (show (encode cs).length ≤ mid by omega)
    refine ⟨left, ?_, ?_⟩
    · rw [Utf8.encode_cons, List.length_append, String.length_utf8EncodeChar]
      omega
    · rw [Utf8.encode_cons, List.append_assoc, hHead, hRest, List.flatMap_cons,
        List.append_assoc]

theorem lyricIsSungChar_fst (t : Bytes) : (lyricIsSungChar t).1 = (lyricCharBytes (peek t)).1 :=
  rfl

/-- A first byte tells the width, of four bytes no more than three. -/
theorem lyricCharBytes_peek (c : Char) {m : Nat} (hPos : 0 < m) (rest : Bytes) :
    (lyricCharBytes (peek ((String.utf8EncodeChar c).take m ++ rest))).1 = min c.utf8Size 3 := by
  obtain ⟨m, rfl⟩ := Nat.exists_eq_succ_of_ne_zero (Nat.ne_of_gt hPos)
  rw [lyricCharBytes_toNat]
  by_cases hOne : c.toNat < 0x80
  · obtain ⟨a, hEncode, hA⟩ := Utf8.encodeChar_one hOne
    have hPeek : peek ([a].take (m + 1) ++ rest) = a := rfl
    rw [hEncode, hPeek, if_neg (by omega), if_neg (by omega), utf8Size_of_lt hOne]
    rfl
  by_cases hTwo : c.toNat < 0x800
  · obtain ⟨a, b, hEncode, hA, -⟩ := Utf8.encodeChar_two (Nat.le_of_not_lt hOne) hTwo
    have hPeek : peek ([a, b].take (m + 1) ++ rest) = a := rfl
    rw [hEncode, hPeek, if_neg (by omega), if_pos (by omega),
      utf8Size_two (Nat.le_of_not_lt hOne) hTwo]
    rfl
  by_cases hThree : c.toNat < 0x10000
  · obtain ⟨a, b, d, hEncode, hA, -⟩ := Utf8.encodeChar_three (Nat.le_of_not_lt hTwo) hThree
    have hPeek : peek ([a, b, d].take (m + 1) ++ rest) = a := rfl
    rw [hEncode, hPeek, if_pos (by omega), utf8Size_three (Nat.le_of_not_lt hTwo) hThree]
    rfl
  · obtain ⟨a, b, d, e, hEncode, hA, -⟩ := Utf8.encodeChar_four (Nat.le_of_not_lt hThree)
    have hPeek : peek ([a, b, d, e].take (m + 1) ++ rest) = a := rfl
    rw [hEncode, hPeek, if_pos (by omega), utf8Size_four (Nat.le_of_not_lt hThree)]
    rfl

end Walk

namespace StoredLine

variable (l : StoredLine) (behind : Bytes) {fuel : Nat}

theorem bytes_eq : l.bytes = encode l.whole ++ l.cutPart := Utf8.take_encode _ _

theorem length_eq : l.bytes.length = (encode l.whole).length + l.cutPart.length := by
  rw [bytes_eq, List.length_append]

/-- The step over three bytes of four. -/
def cutSteps : List (Nat × Bool) := if l.cutPart.length = 3 then [(3, true)] else []

theorem lyricWalk_nul : lyricWalk fuel (0 :: behind) = [] := by
  cases fuel <;> rfl

theorem cutPart_walk (hFuel : l.cutPart.length < fuel) (hHarmless : l.CutHarmless) :
    lyricWalk fuel (l.cutPart ++ 0 :: behind) = l.cutSteps := by
  rcases hHarmless with hNone | hThree
  · rw [List.length_eq_zero_iff.1 hNone, List.nil_append, lyricWalk_nul, cutSteps,
      if_neg (by omega)]
  rcases Utf8.fragment_part (lyricTextLen - 1) l.chars with hNil | ⟨c, hMem, m, hPos, hLt, hPart⟩
  · rw [cutPart, hNil] at hThree
    cases hThree
  rw [← cutPart] at hPart
  obtain ⟨left, rfl⟩ : ∃ left, fuel = left + 1 := Nat.exists_eq_succ_of_ne_zero (by omega)
  have hMax := c.utf8Size_le_four
  have hLen : m = 3 := by
    rw [hPart, List.length_take, String.length_utf8EncodeChar] at hThree
    omega
  have hMore := peek_char hPos (l.in_line c hMem).1 (0 :: behind)
  have hLow : 0x10000 ≤ c.toNat :=
    UInt32.lt_iff_toNat_lt.1 (Char.utf8Size_eq_four_iff.1 (by omega))
  obtain ⟨a, b, d, e, hEncode, hA, -⟩ := Utf8.encodeChar_four hLow
  rw [cutSteps, if_pos hThree, hPart, lyricWalk_step hMore, hEncode, hLen]
  have hStep := lyricIsSungChar_four (0 :: behind) (a := a) (b := b) (d := d) (by omega)
  have hBytes : [a, b, d, e].take 3 ++ 0 :: behind = a :: b :: d :: 0 :: behind := rfl
  rw [hBytes, hStep]
  exact congrArg _ (lyricWalk_nul behind)

/-- Any other part is stepped over together with the NUL. -/
theorem cutPart_over (hFuel : l.cutPart.length < fuel) (hHarmless : ¬l.CutHarmless) :
    ∃ step steps, lyricWalk fuel (l.cutPart ++ 0 :: behind) = step :: steps ∧
      l.cutPart.length < step.1 := by
  obtain ⟨hNotNone, hNotThree⟩ := not_or.1 hHarmless
  rcases Utf8.fragment_part (lyricTextLen - 1) l.chars with hNil | ⟨c, hMem, m, hPos, hLt, hPart⟩
  · rw [cutPart, hNil] at hNotNone
    exact absurd rfl hNotNone
  rw [← cutPart] at hPart
  obtain ⟨left, rfl⟩ : ∃ left, fuel = left + 1 := Nat.exists_eq_succ_of_ne_zero (by omega)
  have hMore := peek_char hPos (l.in_line c hMem).1 (0 :: behind)
  have hLen : l.cutPart.length = m := by
    rw [hPart, List.length_take, String.length_utf8EncodeChar]
    omega
  refine ⟨_, _, by rw [hPart]; exact lyricWalk_step hMore, ?_⟩
  have hMax := c.utf8Size_le_four
  rw [lyricIsSungChar_fst, lyricCharBytes_peek c hPos, hLen]
  omega

theorem lyricWalk_line (l : StoredLine) (behind : Bytes) :
    ∃ fuel, l.cutPart.length < fuel ∧
      lyricWalk (l.bytes ++ 0 :: behind).length (l.bytes ++ 0 :: behind) =
        l.whole.flatMap charSteps ++ lyricWalk fuel (l.cutPart ++ 0 :: behind) := by
  have hChars : ∀ c ∈ l.whole, c ≠ Char.ofNat 0 := fun c hMem =>
    (l.in_line c ((Utf8.whole_prefix _ _).subset hMem)).1
  have hLen := l.length_eq
  have hAll : (encode l.whole).length ≤ (l.bytes ++ 0 :: behind).length := by
    rw [List.length_append]
    omega
  obtain ⟨fuel, hFuel, hWalk⟩ := lyricWalk_append hChars hAll (l.cutPart ++ 0 :: behind)
  refine ⟨fuel, ?_, ?_⟩
  · rw [List.length_append, List.length_cons] at hFuel
    omega
  · rw [← hWalk, bytes_eq, List.append_assoc]

end StoredLine

theorem charSteps_bytes (cs : List Char) :
    ((cs.flatMap charSteps).map Prod.fst).sum = (encode cs).length := by
  induction cs with
  | nil => rfl
  | cons c cs ih =>
    rw [List.flatMap_cons, List.map_append, List.sum_append, ih, Utf8.encode_cons,
      List.length_append, String.length_utf8EncodeChar, charSteps]
    split_ifs with hFour
    · rw [hFour]
      rfl
    · simp

theorem sungSteps_cons (c : Char) (cs : List Char) :
    sungSteps (c :: cs) = (if c.utf8Size = 4 then 2 else (isSung c).toNat) + sungSteps cs := by
  rw [sungSteps, List.map_cons, List.sum_cons, sungSteps]

theorem sungSteps_append (as bs : List Char) :
    sungSteps (as ++ bs) = sungSteps as + sungSteps bs := by
  rw [sungSteps, List.map_append, List.sum_append, sungSteps, sungSteps]

theorem totalSung_append (as bs : List (Nat × Bool)) :
    totalSung (as ++ bs) = totalSung as + totalSung bs := List.countP_append

theorem charSteps_sung (cs : List Char) : totalSung (cs.flatMap charSteps) = sungSteps cs := by
  induction cs with
  | nil => rfl
  | cons c cs ih =>
    rw [List.flatMap_cons, totalSung_append, ih, sungSteps_cons, charSteps]
    split_ifs
    · rfl
    · cases hSung : isSung c <;> rfl

-- ---------------------------------------------------------------------------
-- The offset
-- ---------------------------------------------------------------------------

section Offset

variable {steps more : List (Nat × Bool)} {target target' : Nat} {cs front : List Char}

theorem walkTo_zero (steps : List (Nat × Bool)) : walkTo steps 0 = 0 := by
  cases steps <;> rfl

theorem walkTo_mono (hLe : target ≤ target') : walkTo steps target ≤ walkTo steps target' := by
  induction steps generalizing target target' with
  | nil => rw [walkTo, walkTo]
  | cons step steps ih =>
    obtain ⟨bytes, sung⟩ := step
    cases target with
    | zero =>
      rw [walkTo_zero]
      exact Nat.zero_le _
    | succ target =>
      obtain ⟨target', rfl⟩ := Nat.exists_eq_succ_of_ne_zero (Nat.ne_zero_of_lt hLe)
      rw [walkTo, walkTo]
      refine Nat.add_le_add_left (ih ?_) bytes
      split <;> omega

/-- It stops where the target is met. -/
theorem walkTo_append_of_le (hLe : target ≤ totalSung steps) :
    walkTo (steps ++ more) target = walkTo steps target := by
  induction steps generalizing target with
  | nil =>
    rw [Nat.le_zero.1 hLe, walkTo_zero, walkTo_zero]
  | cons step steps ih =>
    obtain ⟨bytes, sung⟩ := step
    cases target with
    | zero => rw [walkTo_zero, walkTo_zero]
    | succ target =>
      rw [List.cons_append, walkTo, walkTo, ih]
      cases sung <;> simp [totalSung] at hLe ⊢ <;> exact hLe

/-- It goes on where the target is not met. -/
theorem walkTo_append_of_lt (n : Nat) :
    walkTo (steps ++ more) (totalSung steps + n + 1) =
      (steps.map Prod.fst).sum + walkTo more (n + 1) := by
  induction steps with
  | nil => simp [totalSung]
  | cons step steps ih =>
    obtain ⟨bytes, sung⟩ := step
    have hTarget : totalSung ((bytes, sung) :: steps) = totalSung steps + sung.toNat := by
      cases sung <;> simp [totalSung]
    have hNext : (if sung then totalSung steps + sung.toNat + n
        else totalSung steps + sung.toNat + n + 1) = totalSung steps + n + 1 := by
      cases sung
      · rfl
      · show totalSung steps + 1 + n = totalSung steps + n + 1
        omega
    rw [hTarget, List.cons_append, walkTo, hNext, ih, List.map_cons, List.sum_cons, Nat.add_assoc]

/-- The walk ends behind a character, or within one of four bytes. -/
theorem walkTo_chars (hLe : target ≤ sungSteps cs) :
    (∃ front, front <+: cs ∧ sungSteps front = target ∧
        walkTo (cs.flatMap charSteps) target = (encode front).length) ∨
      ∃ front c, front ++ [c] <+: cs ∧ c.utf8Size = 4 ∧ sungSteps front + 1 = target ∧
        walkTo (cs.flatMap charSteps) target = (encode front).length + 3 := by
  induction cs generalizing target with
  | nil =>
    rw [Nat.le_zero.1 hLe]
    exact .inl ⟨[], List.nil_prefix, rfl, rfl⟩
  | cons c cs ih =>
    obtain _ | target := target
    · exact .inl ⟨[], List.nil_prefix, rfl, walkTo_zero _⟩
    rw [sungSteps_cons] at hLe
    have hSize := String.length_utf8EncodeChar c
    -- one character more in front
    have hCons {t w : Nat} (hRest : t ≤ sungSteps cs)
        (hTarget : (if c.utf8Size = 4 then 2 else (isSung c).toNat) + t = target + 1)
        (hWalk : w = c.utf8Size + walkTo (cs.flatMap charSteps) t) :
        (∃ front, front <+: c :: cs ∧ sungSteps front = target + 1 ∧
            w = (encode front).length) ∨
          ∃ front d, front ++ [d] <+: c :: cs ∧ d.utf8Size = 4 ∧
            sungSteps front + 1 = target + 1 ∧ w = (encode front).length + 3 := by
      refine (ih hRest).imp ?_ ?_
      · rintro ⟨front, hPrefix, hSung, hLen⟩
        refine ⟨c :: front, (List.prefix_cons_inj c).2 hPrefix, ?_, ?_⟩
        · rw [sungSteps_cons, hSung, hTarget]
        · rw [Utf8.encode_cons, List.length_append, hSize, hWalk, hLen]
      · rintro ⟨front, d, hPrefix, hFour, hSung, hLen⟩
        refine ⟨c :: front, d, (List.prefix_cons_inj c).2 hPrefix, hFour, ?_, ?_⟩
        · rw [sungSteps_cons, Nat.add_assoc, hSung, hTarget]
        · rw [Utf8.encode_cons, List.length_append, hSize, hWalk, hLen, Nat.add_assoc]
    by_cases hFour : c.utf8Size = 4
    · rw [if_pos hFour] at hLe hCons
      rw [List.flatMap_cons, charSteps, if_pos hFour]
      obtain _ | target := target
      · exact .inr ⟨[], c, (List.prefix_cons_inj c).2 List.nil_prefix, hFour, rfl, rfl⟩
      · refine hCons (t := target) (by omega) (by omega) ?_
        rw [hFour]
        simp only [List.cons_append, List.nil_append, walkTo, if_true]
        omega
    · rw [if_neg hFour] at hLe hCons
      rw [List.flatMap_cons, charSteps, if_neg hFour]
      cases hSung : isSung c with
      | true =>
        rw [hSung] at hLe hCons
        simp only [Bool.toNat_true] at hLe hCons
        exact hCons (t := target) (by omega) (by omega) rfl
      | false =>
        rw [hSung] at hLe hCons
        simp only [Bool.toNat_false, Nat.zero_add] at hLe hCons
        exact hCons (t := target + 1) hLe rfl rfl

end Offset

-- ---------------------------------------------------------------------------
-- Characters of four bytes
-- ---------------------------------------------------------------------------

section Four

variable {cs front : List Char} {c : Char}

theorem isSung_of_four (hFour : c.utf8Size = 4) : isSung c = true := by
  have hLow : 0x10000 ≤ c.toNat := UInt32.lt_iff_toNat_lt.1 (Char.utf8Size_eq_four_iff.1 hFour)
  simp only [isSung, unsungAscii, List.mem_cons, List.not_mem_nil, or_false, decide_eq_true_eq]
  omega

theorem countP_le_sungSteps (cs : List Char) : cs.countP isSung ≤ sungSteps cs := by
  induction cs with
  | nil => exact Nat.le_refl _
  | cons c cs ih =>
    rw [sungSteps_cons, List.countP_cons]
    split_ifs with hSung hFour
    · omega
    · rw [hSung, Bool.toNat_true]
      omega
    all_goals omega

/-- The two counts agree only where there is none. -/
theorem countP_eq_sungSteps :
    cs.countP isSung = sungSteps cs ↔ ∀ c ∈ cs, c.utf8Size ≠ 4 := by
  induction cs with
  | nil => simp [sungSteps]
  | cons c cs ih =>
    have hLe := countP_le_sungSteps cs
    rw [List.forall_mem_cons, ← ih, sungSteps_cons, List.countP_cons]
    by_cases hFour : c.utf8Size = 4
    · rw [if_pos hFour, if_pos (isSung_of_four hFour)]
      simp only [hFour, ne_eq, not_true_eq_false, false_and, iff_false]
      omega
    · rw [if_neg hFour]
      simp only [hFour, ne_eq, not_false_eq_true, true_and]
      cases hSung : isSung c with
      | true => simp [Nat.add_comm 1]
      | false => simp

/-- Something is sung behind the steps if there are more of them. -/
theorem countP_lt_of_prefix (hPrefix : front <+: cs) (hLt : sungSteps front < sungSteps cs) :
    front.countP isSung < cs.countP isSung := by
  obtain ⟨rest, rfl⟩ := hPrefix
  rw [sungSteps_append] at hLt
  rw [List.countP_append]
  refine Nat.lt_add_of_pos_right (List.countP_pos_iff.2 ?_)
  by_contra hNone
  have hNoFour : ∀ c ∈ rest, c.utf8Size ≠ 4 := fun c hMem hFour =>
    hNone ⟨c, hMem, isSung_of_four hFour⟩
  have hZero : rest.countP isSung = 0 := by
    rw [List.countP_eq_zero]
    exact fun c hMem hSung => hNone ⟨c, hMem, hSung⟩
  have hCounts := countP_eq_sungSteps.2 hNoFour
  omega

theorem sungSteps_mono (hPrefix : front <+: cs) : sungSteps front ≤ sungSteps cs := by
  obtain ⟨rest, rfl⟩ := hPrefix
  rw [sungSteps_append]
  exact Nat.le_add_right _ _

theorem beforeFour_isPrefix (cs : List Char) : beforeFour cs <+: cs := List.takeWhile_prefix _

theorem beforeFour_ne (cs : List Char) : ∀ c ∈ beforeFour cs, c.utf8Size ≠ 4 := fun _ hMem => by
  simpa using List.mem_takeWhile_imp hMem

theorem prefix_beforeFour (hPrefix : front <+: cs) (hNone : ∀ c ∈ front, c.utf8Size ≠ 4) :
    front <+: beforeFour cs := by
  obtain ⟨rest, rfl⟩ := hPrefix
  rw [beforeFour, List.takeWhile_append_of_pos (by simpa using hNone)]
  exact List.prefix_append _ _

/-- Without enough steps for it no such character is reached. -/
theorem ne_four_of_le (hPrefix : front <+: cs)
    (hLe : sungSteps front ≤ (beforeFour cs).countP isSung) : ∀ c ∈ front, c.utf8Size ≠ 4 := by
  rcases List.prefix_or_prefix_of_prefix hPrefix (beforeFour_isPrefix cs) with hShort | hLong
  · exact fun c hMem => beforeFour_ne _ c (hShort.subset hMem)
  · obtain ⟨rest, rfl⟩ := hLong
    have hCounts := countP_eq_sungSteps.2 (beforeFour_ne cs)
    have hRest := countP_le_sungSteps rest
    rw [sungSteps_append] at hLe
    rw [List.forall_mem_append]
    exact ⟨beforeFour_ne _, countP_eq_sungSteps.1 (by omega)⟩

end Four

-- ---------------------------------------------------------------------------
-- Lines and tables
-- ---------------------------------------------------------------------------

namespace StoredLine

variable {l : StoredLine} {k : Klyric} {lineIdx pos : Int} {behind : Bytes} {ws : List Int}

/-- The steps over the whole line. -/
def steps (l : StoredLine) : List (Nat × Bool) := l.whole.flatMap charSteps ++ l.cutSteps

theorem encode_prefix_length {as bs : List Char} (hPrefix : as <+: bs) :
    (encode as).length ≤ (encode bs).length := by
  obtain ⟨rest, rfl⟩ := hPrefix
  rw [Utf8.encode_append, List.length_append]
  exact Nat.le_add_right _ _

theorem covers_of_prefix {front : List Char} (hPrefix : front <+: l.whole) :
    l.Covers (encode front).length (front.countP isSung) := by
  have hLen := encode_prefix_length hPrefix
  have hLine := l.length_eq
  exact ⟨by omega, by omega, front, ⟨hPrefix, .inl rfl⟩, rfl⟩

theorem covers_end : l.Covers l.bytes.length (l.whole.countP isSung) :=
  ⟨by omega, Int.le_refl _, l.whole, ⟨List.prefix_rfl, .inr ⟨rfl, rfl⟩⟩, rfl⟩

/-- Enough words light up the whole line. -/
theorem covers_all {target : Nat} (hEnough : l.sungTwice ≤ target) :
    l.Covers (walkTo l.steps (min target (totalSung l.steps))) (l.whole.countP isSung) := by
  have hWhole : totalSung (l.whole.flatMap charSteps) = l.sungTwice := charSteps_sung _
  have hTotal : totalSung l.steps = l.sungTwice + totalSung l.cutSteps := by
    rw [steps, totalSung_append, hWhole]
  by_cases hExact : min target (totalSung l.steps) = l.sungTwice
  · rw [hExact, steps, walkTo_append_of_le (Nat.le_of_eq hWhole.symm)]
    rcases walkTo_chars (show l.sungTwice ≤ sungSteps l.whole from Nat.le_refl _) with
      ⟨front, hPrefix, hSung, hWalk⟩ | ⟨front, c, hPrefix, hFour, hSung, -⟩
    · have hCount : front.countP isSung = l.whole.countP isSung := by
        obtain ⟨rest, hRest⟩ := hPrefix
        have hLe := countP_le_sungSteps rest
        rw [sungTwice, ← hRest, sungSteps_append] at hSung
        rw [← hRest, List.countP_append]
        omega
      rw [hWalk, ← hCount]
      exact covers_of_prefix hPrefix
    · have hMono := sungSteps_mono hPrefix
      rw [sungSteps_append, sungSteps_cons, if_pos hFour] at hMono
      rw [sungTwice] at hSung
      omega
  · -- the part of a character at the end is walked over, too
    have hThree : l.cutPart.length = 3 := by
      by_contra hNot
      rw [cutSteps, if_neg hNot] at hTotal
      simp only [totalSung, List.countP_nil, Nat.add_zero] at hTotal hExact
      omega
    have hSteps : l.cutSteps = [(3, true)] := if_pos hThree
    have hOne : totalSung l.cutSteps = 1 := by rw [hSteps]; rfl
    have hTarget : min target (totalSung l.steps) = l.sungTwice + 0 + 1 := by omega
    have hLine := l.length_eq
    rw [hTarget, steps, ← hWhole, walkTo_append_of_lt 0, hSteps, charSteps_bytes]
    have hEnd : (encode l.whole).length + walkTo [(3, true)] (0 + 1) = l.bytes.length := by
      rw [hLine, hThree]
      rfl
    rw [hEnd]
    exact covers_end

/-- Within a character nothing is covered. -/
theorem not_covers_inside {front : List Char} {c : Char} {n : Nat}
    (hPrefix : front ++ [c] <+: l.whole) (hFour : c.utf8Size = 4) :
    ¬l.Covers ((encode front).length + 3 : Nat) n := by
  have hNext : (encode (front ++ [c])).length = (encode front).length + 4 := by
    rw [Utf8.encode_append, List.length_append, Utf8.encode_cons, List.length_append,
      String.length_utf8EncodeChar, hFour]
    rfl
  rintro ⟨-, -, other, ⟨hOther, hEnd⟩, -⟩
  have hLine := l.length_eq
  have hWhole := encode_prefix_length hPrefix
  rcases hEnd with hEnd | ⟨-, hEnd⟩
  · rcases List.prefix_or_prefix_of_prefix hOther hPrefix with hShort | hLong
    · rcases List.prefix_concat_iff.1 hShort with rfl | hShort
      · omega
      · have hLen := encode_prefix_length hShort
        omega
    · have hLen := encode_prefix_length hLong
      omega
  · omega

theorem covers_count {front : List Char} {n : Nat} (hPrefix : front <+: l.whole)
    (hLt : sungSteps front < l.sungTwice) (hCovers : l.Covers (encode front).length n) :
    front.countP isSung = n := by
  obtain ⟨-, -, other, ⟨hOther, hEnd⟩, hCount⟩ := hCovers
  have hLine := l.length_eq
  rcases hEnd with hEnd | ⟨-, hEnd⟩
  · rw [Utf8.prefix_unique hPrefix hOther (by omega), hCount]
  · have hAll : front = l.whole :=
      Utf8.prefix_unique hPrefix List.prefix_rfl (by
        have hLen := encode_prefix_length hPrefix
        omega)
    rw [hAll] at hLt
    exact absurd hLt (Nat.lt_irrefl _)

/-- With `run` words in front of the first one that has not begun, and `started` of them
begun in all. -/
theorem covers_iff {run started : Nat} (hRun : run ≤ started) :
    l.Covers (walkTo l.steps (min run (totalSung l.steps)))
        (min started (l.whole.countP isSung)) ↔
      l.sungTwice ≤ run ∨ started = run ∧ run ≤ l.sungBefore := by
  by_cases hEnough : l.sungTwice ≤ run
  · have hCount : l.whole.countP isSung ≤ l.sungTwice := countP_le_sungSteps _
    have hMin : min started (l.whole.countP isSung) = l.whole.countP isSung := by omega
    rw [hMin]
    exact ⟨fun _ => .inl hEnough, fun _ => covers_all hEnough⟩
  have hWhole : totalSung (l.whole.flatMap charSteps) = l.sungTwice := charSteps_sung _
  have hTotal : totalSung l.steps = l.sungTwice + totalSung l.cutSteps := by
    rw [steps, totalSung_append, hWhole]
  have hTarget : min run (totalSung l.steps) = run := by omega
  rw [hTarget, or_iff_right hEnough, steps, walkTo_append_of_le (by omega)]
  rcases walkTo_chars (Nat.le_of_not_le hEnough) with
    ⟨front, hPrefix, hSung, hWalk⟩ | ⟨front, c, hPrefix, hFour, hSung, hWalk⟩
  · have hLt : sungSteps front < l.sungTwice := by omega
    have hMore := countP_lt_of_prefix hPrefix hLt
    have hLe := countP_le_sungSteps front
    rw [hWalk]
    constructor
    · intro hCovers
      have hCount := covers_count hPrefix hLt hCovers
      have hNone : ∀ c ∈ front, c.utf8Size ≠ 4 := countP_eq_sungSteps.1 (by omega)
      have hBefore := (prefix_beforeFour hPrefix hNone).sublist.countP_le (p := isSung)
      rw [sungBefore]
      omega
    · rintro ⟨hAll, hBefore⟩
      have hNone := ne_four_of_le hPrefix (hSung ▸ hBefore)
      have hCount := countP_eq_sungSteps.2 hNone
      have hMin : min started (l.whole.countP isSung) = front.countP isSung := by omega
      rw [hMin]
      exact covers_of_prefix hPrefix
  · rw [hWalk]
    refine iff_of_false (not_covers_inside hPrefix hFour) ?_
    rintro ⟨-, hBefore⟩
    rcases List.prefix_or_prefix_of_prefix hPrefix (beforeFour_isPrefix l.whole) with
      hShort | hLong
    · exact beforeFour_ne _ c (hShort.subset (by simp)) hFour
    · have hCounts := countP_eq_sungSteps.2 (beforeFour_ne l.whole)
      rw [sungBefore] at hBefore
      rcases List.prefix_concat_iff.1 hLong with hAll | hFront
      · exact beforeFour_ne _ c (by rw [hAll]; simp) hFour
      · have hMono := sungSteps_mono hFront
        omega

theorem sungWords_le (ws : List Int) (pos : Int) : sungWords ws pos ≤ ws.countP (· ≤ pos) := by
  have hAll : (ws.takeWhile (· ≤ pos)).countP (· ≤ pos) = (ws.takeWhile (· ≤ pos)).length :=
    List.countP_eq_length.2 fun _ hMem => by simpa using List.mem_takeWhile_imp hMem
  rw [sungWords, ← hAll]
  exact (List.takeWhile_sublist _).countP_le

theorem sungWords_mono (ws : List Int) {pos pos' : Int} (hLe : pos ≤ pos') :
    sungWords ws pos ≤ sungWords ws pos' := by
  induction ws with
  | nil => exact Nat.le_refl _
  | cons w ws ih =>
    rw [sungWords, sungWords, List.takeWhile_cons, List.takeWhile_cons]
    split_ifs with hHere hThere
    · exact Nat.succ_le_succ ih
    · simp only [decide_eq_true_eq] at hHere hThere
      omega
    all_goals exact Nat.zero_le _

theorem bytes_ne_nul : ∀ b ∈ l.bytes, b ≠ 0 := by
  intro b hMem
  obtain ⟨c, hChar, hByte⟩ := List.mem_flatMap.1 (List.mem_of_mem_take hMem)
  rintro rfl
  obtain ⟨-, hVal⟩ := Utf8.encodeChar_ascii hByte (by decide)
  exact (l.in_line c hChar).1 (Char.ext (UInt32.toNat_inj.1 hVal.symm))

theorem peek_line (hLine : l.bytes ≠ []) : peek (l.bytes ++ 0 :: behind) ≠ 0 := by
  obtain ⟨b, bs, hBytes⟩ := List.exists_cons_of_ne_nil hLine
  have hNul := bytes_ne_nul (l := l) b (by simp [hBytes])
  rw [hBytes]
  exact hNul

theorem byteIdx_none (hNone : l.bytes ≠ [] → wordsAt k lineIdx = none) (behind : Bytes)
    (pos : Int) :
    lyricsGetKaraokeByteIdx k lineIdx (l.bytes ++ 0 :: behind) pos = ⟨-1, 0⟩ := by
  by_cases hLine : l.bytes = []
  · rw [lyricsGetKaraokeByteIdx, hLine]
    rfl
  · rw [lyricsGetKaraokeByteIdx, if_neg (peek_line hLine), hNone hLine]

theorem byteIdx_some (hLine : l.bytes ≠ []) (hWords : wordsAt k lineIdx = some ws)
    (behind : Bytes) (pos : Int) :
    lyricsGetKaraokeByteIdx k lineIdx (l.bytes ++ 0 :: behind) pos =
      let steps := lyricWalk (l.bytes ++ 0 :: behind).length (l.bytes ++ 0 :: behind)
      ⟨walkTo steps (min (sungWords ws pos) (totalSung steps)), (steps.map Prod.fst).sum⟩ := by
  rw [lyricsGetKaraokeByteIdx, if_neg (peek_line hLine), hWords]

theorem steps_eq (hHarmless : l.CutHarmless) :
    lyricWalk (l.bytes ++ 0 :: behind).length (l.bytes ++ 0 :: behind) = l.steps := by
  obtain ⟨fuel, hFuel, hWalk⟩ := l.lyricWalk_line behind
  rw [hWalk, l.cutPart_walk behind hFuel hHarmless, steps]

theorem steps_bytes (hHarmless : l.CutHarmless) :
    (l.steps.map Prod.fst).sum = l.bytes.length := by
  rw [steps, List.map_append, List.sum_append, charSteps_bytes, l.length_eq, cutSteps]
  rcases hHarmless with h | h
  all_goals
    rw [h]
    rfl

/-- A part of a character that is stepped over takes the loop behind the line. -/
theorem steps_over (hHarmless : ¬l.CutHarmless) :
    l.bytes.length < ((lyricWalk (l.bytes ++ 0 :: behind).length
      (l.bytes ++ 0 :: behind)).map Prod.fst).sum := by
  obtain ⟨fuel, hFuel, hWalk⟩ := l.lyricWalk_line behind
  obtain ⟨step, more, hCut, hOver⟩ := l.cutPart_over behind hFuel hHarmless
  rw [hWalk, hCut, List.map_append, List.sum_append, charSteps_bytes, l.length_eq,
    List.map_cons, List.sum_cons]
  omega

end StoredLine

/-- **Every line, every table.** The highlight is right, if there is one at all, exactly if
the cut has left nothing that takes the loop behind the line, and the words are in step with
the sung characters at every position. -/
theorem karaoke_iff (l : StoredLine) (k : Klyric) (lineIdx : Int) (behind : Bytes) :
    l.Highlighted k lineIdx behind ↔
      ∀ ws ∈ wordsAt k lineIdx, l.bytes ≠ [] → l.CutHarmless ∧ ∀ pos, l.InStep ws pos := by
  constructor
  · intro h ws hWords hLine
    have hRead := fun pos => StoredLine.byteIdx_some hLine hWords behind pos
    have hHarmless : l.CutHarmless := by
      by_contra hNot
      have hStays := h.stays 0
      rw [hRead] at hStays
      exact absurd hStays (Nat.not_le_of_lt (StoredLine.steps_over hNot))
    refine ⟨hHarmless, fun pos => ?_⟩
    have hCovers := h.covers pos
    simp only [hRead, StoredLine.steps_eq hHarmless] at hCovers
    obtain ⟨ws', hWords', hCovers⟩ := hCovers.resolve_left (by omega)
    obtain rfl : ws = ws' := Option.some.inj (hWords.symm.trans hWords')
    exact (StoredLine.covers_iff (StoredLine.sungWords_le ws pos)).1 hCovers
  · intro hRight
    by_cases hNone : l.bytes ≠ [] → wordsAt k lineIdx = none
    · have hRead := fun pos => StoredLine.byteIdx_none hNone behind pos
      refine ⟨fun pos => ?_, fun pos => ?_, fun pos pos' _ => ?_⟩
      · rw [hRead]
        exact Nat.zero_le _
      · exact .inl (by rw [hRead])
      · rw [hRead, hRead]
    · obtain ⟨hLine, hSome⟩ := Classical.not_imp.1 hNone
      obtain ⟨ws, hWords⟩ := Option.ne_none_iff_exists'.1 hSome
      obtain ⟨hHarmless, hStep⟩ := hRight ws hWords hLine
      have hRead := fun pos => StoredLine.byteIdx_some hLine hWords behind pos
      simp only [StoredLine.steps_eq hHarmless] at hRead
      refine ⟨fun pos => ?_, fun pos => ?_, fun pos pos' hLe => ?_⟩
      · rw [hRead]
        exact Nat.le_of_eq (StoredLine.steps_bytes hHarmless)
      · refine .inr ⟨ws, hWords, ?_⟩
        rw [hRead]
        exact (StoredLine.covers_iff (StoredLine.sungWords_le ws pos)).2 (hStep pos)
      · have hWords := StoredLine.sungWords_mono ws hLe
        rw [hRead, hRead]
        exact Int.ofNat_le.2 (walkTo_mono (by omega))

/-- A Latin letter and 21 Chinese characters, 64 bytes. -/
def longLine : String := "a一二三四五六七八九十一二三四五六七八九十一"

def longStored : StoredLine where
  chars := longLine.toList
  in_line := List.all_iff_forall_prop.1 (by decide +kernel)

def longText : String := "[00:01]" ++ longLine

/-- A table of one word. -/
def oneKlyric : Klyric where
  words := [⟨⟨[], []⟩, ⟨1000, 2000⟩⟩]
  lines := [⟨⟨[], []⟩, ⟨0, 1000⟩⟩]
  map := [0]
  mapFrom := [⟨[], []⟩]

/-- The 63 bytes that are stored end with two bytes of three, and the loop over them ends
behind the NUL. -/
theorem karaoke_over_nul :
    ¬∀ (s : String) (line : Line) (l : StoredLine), line ∈ parseLrc (utf8 s) →
      l.bytes = line.text → ∀ k lineIdx behind, l.Highlighted k lineIdx behind := by
  intro hAll
  have hStored : (⟨1000, (utf8 longLine).take 63⟩ : Line) ∈ parseLrc (utf8 longText) := by
    decide +kernel
  have hRight := hAll longText _ longStored hStored rfl oneKlyric 0 []
  exact absurd (hRight.stays 0) (by decide +kernel)

end EspMiplay.Lyrics
