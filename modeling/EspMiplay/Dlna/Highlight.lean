import EspMiplay.Lib.Utf8
import EspMiplay.Miplay.Text

/-!
# The highlight of a line without word times

`utf8_char_count`, `utf8_byte_offset` and the fallback of `ui_update_task` in `dlna.c`: the
share of the line that has passed becomes a number of characters, and that the number of
bytes to highlight.

## Results

* `charCount_encode`   — characters are counted by their first bytes.
* `byteOffset_encode`  — the offset is behind the first byte of the last character.
* `byteOffset_exact`   — the texts and numbers for which it is the end of that character.
* `byteOffset_inside`  — a text of one character with two bytes.
-/

namespace EspMiplay.Dlna

open EspMiplay.Miplay (Bytes peek)
open Utf8 (encode)

-- ---------------------------------------------------------------------------
-- The source
-- ---------------------------------------------------------------------------

/-- `(c & 0xC0) != 0x80` -/
def isLead (c : UInt8) : Bool := c &&& 0xC0 ≠ 0x80

/-- The turns of `utf8_byte_offset` with `left` characters to go. -/
def utf8ByteOffset : Bytes → Int → Nat
  | [], _ => 0
  | c :: cs, left =>
    if c = 0 ∨ left ≤ 0 then 0
    else 1 + utf8ByteOffset cs (if isLead c then left - 1 else left)

def utf8CharCount : Bytes → Nat
  | [] => 0
  | c :: cs => if c = 0 then 0 else (if isLead c then 1 else 0) + utf8CharCount cs

def estimateLastLineDurationMs (text : Bytes) : Int :=
  let chars : Int := max (utf8CharCount text) 1
  max 2000 (min 8000 (chars * 320))

/-- `byte_idx` of `ui_update_task` for a line from `lineStart` to `lineEnd`. -/
def fallbackByteIdx (curr : Bytes) (posMs lineStart lineEnd : Int) : Nat :=
  let lineEnd := if lineEnd ≤ lineStart then lineStart + 5000 else lineEnd
  let estSing := max 600 (((lineEnd - lineStart) * 85).tdiv 100)
  let progress := min 100 (max 0 (((posMs - lineStart) * 100).tdiv estSing))
  utf8ByteOffset curr (((utf8CharCount curr : Int) * progress).tdiv 100)

-- ---------------------------------------------------------------------------
-- Characters
-- ---------------------------------------------------------------------------

theorem isLead_iff (b : UInt8) : isLead b ↔ b.toNat < 0x80 ∨ 0xC0 ≤ b.toNat := by
  have hAll : ∀ n : Fin 256, isLead (UInt8.ofNat n) ↔ n.val < 0x80 ∨ 0xC0 ≤ n.val := by
    decide +kernel
  have hByte := hAll ⟨b.toNat, b.toNat_lt⟩
  rwa [UInt8.ofNat_toNat] at hByte

/-- A character begins with the only byte of it that is counted. -/
theorem encodeChar_lead (c : Char) :
    ∃ b bs, String.utf8EncodeChar c = b :: bs ∧ isLead b ∧ ∀ d ∈ bs, ¬isLead d ∧ d ≠ 0 := by
  have hRest {d : UInt8} (hLow : 0x80 ≤ d.toNat) (hHigh : d.toNat < 0xC0) : ¬isLead d ∧ d ≠ 0 := by
    refine ⟨fun hLead => ?_, ?_⟩
    · rw [isLead_iff] at hLead
      omega
    · rintro rfl
      exact absurd hLow (by decide)
  have hMax := Utf8.toNat_lt c
  by_cases hOne : c.toNat < 0x80
  · obtain ⟨a, hEncode, hA⟩ := Utf8.encodeChar_one hOne
    exact ⟨a, [], hEncode, (isLead_iff a).2 (.inl (by omega)), by simp⟩
  by_cases hTwo : c.toNat < 0x800
  · obtain ⟨a, b, hEncode, hA, hB⟩ := Utf8.encodeChar_two (Nat.le_of_not_lt hOne) hTwo
    refine ⟨a, [b], hEncode, (isLead_iff a).2 (.inr (by omega)), fun x hMem => ?_⟩
    obtain rfl := List.mem_singleton.1 hMem
    exact hRest (by omega) (by omega)
  by_cases hThree : c.toNat < 0x10000
  · obtain ⟨a, b, d, hEncode, hA, hB, hD⟩ := Utf8.encodeChar_three (Nat.le_of_not_lt hTwo) hThree
    refine ⟨a, [b, d], hEncode, (isLead_iff a).2 (.inr (by omega)), fun x hMem => ?_⟩
    simp only [List.mem_cons, List.not_mem_nil, or_false] at hMem
    rcases hMem with rfl | rfl <;> exact hRest (by omega) (by omega)
  · obtain ⟨a, b, d, e, hEncode, hA, hB, hD, hE⟩ := Utf8.encodeChar_four (Nat.le_of_not_lt hThree)
    refine ⟨a, [b, d, e], hEncode, (isLead_iff a).2 (.inr (by omega)), fun x hMem => ?_⟩
    simp only [List.mem_cons, List.not_mem_nil, or_false] at hMem
    rcases hMem with rfl | rfl | rfl <;> exact hRest (by omega) (by omega)

/-- A character that is not NUL is counted and passed, with the rest of its bytes behind. -/
theorem lead_ne_zero {c : Char} {b : UInt8} {bs : Bytes}
    (hEncode : String.utf8EncodeChar c = b :: bs) (hChar : c ≠ '\x00') : b ≠ 0 := by
  rintro rfl
  have hMem : (0 : UInt8) ∈ String.utf8EncodeChar c := by rw [hEncode]; exact List.mem_cons_self
  have hVal := (Utf8.encodeChar_ascii hMem (by decide)).2
  exact hChar ((Utf8.char_eq_iff c '\x00').2 hVal.symm)

theorem charCount_rest {bs rest : Bytes} (hBs : ∀ d ∈ bs, ¬isLead d ∧ d ≠ 0) :
    utf8CharCount (bs ++ rest) = utf8CharCount rest := by
  induction bs with
  | nil => rfl
  | cons b bs ih =>
    obtain ⟨⟨hLead, hNul⟩, hTail⟩ := List.forall_mem_cons.1 hBs
    rw [List.cons_append, utf8CharCount, if_neg hNul, if_neg hLead, Nat.zero_add, ih hTail]

theorem byteOffset_rest {bs rest : Bytes} {left : Int} (hBs : ∀ d ∈ bs, ¬isLead d ∧ d ≠ 0)
    (hLeft : 0 < left) :
    utf8ByteOffset (bs ++ rest) left = bs.length + utf8ByteOffset rest left := by
  induction bs with
  | nil => simp
  | cons b bs ih =>
    obtain ⟨⟨hLead, hNul⟩, hTail⟩ := List.forall_mem_cons.1 hBs
    have hGo : ¬(b = 0 ∨ left ≤ 0) := by simp [hNul, hLeft]
    rw [List.cons_append, utf8ByteOffset, if_neg hGo, if_neg hLead, ih hTail, List.length_cons]
    omega

theorem byteOffset_done (p : Bytes) {left : Int} (hLeft : left ≤ 0) :
    utf8ByteOffset p left = 0 := by
  cases p with
  | nil => rfl
  | cons c cs => rw [utf8ByteOffset, if_pos (.inr hLeft)]

-- ---------------------------------------------------------------------------
-- Texts
-- ---------------------------------------------------------------------------

section Text

variable {cs : List Char}

theorem charCount_encode (hNul : '\x00' ∉ cs) : utf8CharCount (encode cs) = cs.length := by
  induction cs with
  | nil => rfl
  | cons c cs ih =>
    rw [List.mem_cons, not_or] at hNul
    obtain ⟨hChar, hTail⟩ := hNul
    obtain ⟨b, bs, hEncode, hLead, hBs⟩ := encodeChar_lead c
    have hFirst := lead_ne_zero hEncode (Ne.symm hChar)
    rw [Utf8.encode_cons, hEncode, List.cons_append, utf8CharCount, if_neg hFirst, if_pos hLead,
      charCount_rest hBs, ih hTail, List.length_cons]
    omega

/-- The offset is one byte behind the beginning of the last character. -/
theorem byteOffset_encode (hNul : '\x00' ∉ cs) {n : Nat} (hN : n < cs.length) :
    utf8ByteOffset (encode cs) (n + 1 : Nat) = (encode (cs.take n)).length + 1 := by
  induction cs generalizing n with
  | nil => cases hN
  | cons c cs ih =>
    rw [List.mem_cons, not_or] at hNul
    obtain ⟨hChar, hTail⟩ := hNul
    obtain ⟨b, bs, hEncode, hLead, hBs⟩ := encodeChar_lead c
    have hGo : ¬(b = 0 ∨ ((n + 1 : Nat) : Int) ≤ 0) := by
      rintro (hZero | hNeg)
      · exact lead_ne_zero hEncode (Ne.symm hChar) hZero
      · omega
    rw [Utf8.encode_cons, hEncode, List.cons_append, utf8ByteOffset, if_neg hGo, if_pos hLead]
    cases n with
    | zero =>
      -- the character is counted with its first byte
      rw [byteOffset_done _ (by omega)]
      rfl
    | succ n =>
      have hLeft : ((n + 1 + 1 : Nat) : Int) - 1 = (n + 1 : Nat) := by omega
      rw [hLeft, byteOffset_rest hBs (by omega), ih hTail (by simpa using hN), List.take_succ_cons,
        Utf8.encode_cons, hEncode, List.length_append, List.length_cons]
      omega

/-- Where the first characters end. -/
theorem length_encode_take_succ {n : Nat} {c : Char} (hC : cs[n]? = some c) :
    (encode (cs.take (n + 1))).length = (encode (cs.take n)).length + c.utf8Size := by
  rw [List.take_add_one, hC, Option.toList_some, Utf8.encode_append, List.length_append,
    Utf8.encode_cons, List.length_append, String.length_utf8EncodeChar]
  rfl

/-- The last of the first `n` characters has no more than one byte. -/
def EndsNarrow (cs : List Char) (n : Nat) : Prop := ∀ c ∈ (cs.take n).getLast?, c.utf8Size = 1

theorem byteOffset_eq_iff (hNul : '\x00' ∉ cs) {n : Nat} (hN : n ≤ cs.length) :
    utf8ByteOffset (encode cs) n = (encode (cs.take n)).length ↔ EndsNarrow cs n := by
  cases n with
  | zero =>
    refine iff_of_true ?_ (by simp [EndsNarrow])
    rw [byteOffset_done _ (by simp)]
    rfl
  | succ n =>
    obtain ⟨c, hC⟩ : ∃ c, cs[n]? = some c := ⟨cs[n], List.getElem?_eq_getElem hN⟩
    have hLast : (cs.take (n + 1)).getLast? = some c := by
      rw [List.take_add_one, hC, Option.toList_some, List.getLast?_concat]
    rw [byteOffset_encode hNul hN, length_encode_take_succ hC, EndsNarrow, hLast]
    simp only [Option.mem_some_iff, forall_eq']
    omega

/-- The fallback highlights as many characters as the line has, or fewer. -/
theorem fallbackByteIdx_chars (hNul : '\x00' ∉ cs) (posMs lineStart lineEnd : Int) :
    ∃ n ≤ cs.length,
      fallbackByteIdx (encode cs) posMs lineStart lineEnd = utf8ByteOffset (encode cs) n := by
  simp only [fallbackByteIdx, charCount_encode hNul]
  generalize hShare : min 100 (max 0 (Int.tdiv _ _)) = progress
  have hLow : 0 ≤ progress := by omega
  have hHigh : progress ≤ 100 := by omega
  have hProduct : (cs.length : Int) * progress ≤ cs.length * 100 :=
    Int.mul_le_mul_of_nonneg_left hHigh (by omega)
  have hPos : 0 ≤ (cs.length : Int) * progress := Int.mul_nonneg (by omega) hLow
  rw [Int.tdiv_eq_ediv_of_nonneg hPos]
  refine ⟨((cs.length : Int) * progress / 100).toNat, by omega, ?_⟩
  rw [Int.toNat_of_nonneg (by omega)]

/-- **The highlight** ends where its last character does, exactly when that has one byte;
with the number of all characters it is the whole text under the same condition. -/
theorem byteOffset_exact (hNul : '\x00' ∉ cs) {n : Nat} (hN : n ≤ cs.length) :
    (utf8ByteOffset (encode cs) n = (encode (cs.take n)).length ↔ EndsNarrow cs n) ∧
      (utf8ByteOffset (encode cs) (utf8CharCount (encode cs)) = (encode cs).length ↔
        EndsNarrow cs cs.length) := by
  refine ⟨byteOffset_eq_iff hNul hN, ?_⟩
  have hAll := byteOffset_eq_iff hNul (Nat.le_refl cs.length)
  rw [List.take_length] at hAll
  rw [charCount_encode hNul, hAll]

end Text

/-- A song line in Latin letters. -/
def latinLine : List Char := ['l', 'a', 'l', 'a']

theorem byteOffset_latin :
    (utf8ByteOffset (encode latinLine) 2 = (encode (latinLine.take 2)).length ↔
      EndsNarrow latinLine 2) ∧
    (utf8ByteOffset (encode latinLine) (utf8CharCount (encode latinLine)) =
        (encode latinLine).length ↔ EndsNarrow latinLine 4) :=
  byteOffset_exact (n := 2) (by decide) (by decide)

/-- The offset is inside the character. -/
theorem byteOffset_inside :
    ¬∀ cs : List Char, '\x00' ∉ cs → ∀ n ≤ cs.length,
      utf8ByteOffset (encode cs) n = (encode (cs.take n)).length ∧
        utf8ByteOffset (encode cs) (utf8CharCount (encode cs)) = (encode cs).length := by
  intro hAll
  exact absurd (hAll ['é'] (by decide) 1 (by decide)).1 (by decide)

end EspMiplay.Dlna
