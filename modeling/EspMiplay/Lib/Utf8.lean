import Mathlib.Data.List.Basic
import Mathlib.Data.List.DropRight

/-!
# UTF-8

Texts as the bytes of their characters.

- `encodeChar_one` … `encodeChar_four` give the bytes of a character by its number, in a
  form arithmetic can work with.
- A text that is cut to a number of bytes is made of the characters that fit (`whole`) and
  of a part of the next one (`fragment`).
- A byte below 128 is a character of its own (`encode_ascii_split`), so that a text can be
  taken apart at one, or at the first one of a kind (`takeWhile_encode`).
- No character begins as another one does (`encode_eq_append`).
-/

namespace Utf8

def encode (cs : List Char) : List UInt8 := cs.flatMap String.utf8EncodeChar

theorem encode_cons (c : Char) (cs : List Char) :
    encode (c :: cs) = String.utf8EncodeChar c ++ encode cs := List.flatMap_cons

theorem encode_append (as bs : List Char) : encode (as ++ bs) = encode as ++ encode bs :=
  List.flatMap_append

-- ---------------------------------------------------------------------------
-- The bytes of a character
-- ---------------------------------------------------------------------------

section Char

variable {c : Char}

theorem char_eq_iff (c d : Char) : c = d ↔ c.toNat = d.toNat :=
  ⟨congrArg Char.toNat, fun h => Char.ext (UInt32.toNat_inj.1 h)⟩

theorem toNat_lt (c : Char) : c.toNat < 0x110000 := by
  have hValid : c.toNat.isValidChar := c.valid
  rcases hValid with h | h
  · omega
  · exact h.2

theorem encodeChar_one (h : c.toNat < 0x80) :
    ∃ a, String.utf8EncodeChar c = [a] ∧ a.toNat = c.toNat := by
  refine ⟨UInt8.ofNat c.toNat, ?_, ?_⟩
  · have hSmall : c.val.toNat ≤ 0x7F := Nat.le_of_lt_succ h
    rw [String.utf8EncodeChar, if_pos hSmall]
    rfl
  · rw [UInt8.toNat_ofNat']
    omega

theorem encodeChar_two (hLow : 0x80 ≤ c.toNat) (hHigh : c.toNat < 0x800) :
    ∃ a b, String.utf8EncodeChar c = [a, b] ∧
      a.toNat = c.toNat / 64 + 0xC0 ∧ b.toNat = c.toNat % 64 + 0x80 := by
  have hEncode : String.utf8EncodeChar c =
      [UInt8.ofNat (c.toNat / 64 % 32 + 0xC0), UInt8.ofNat (c.toNat % 64 + 0x80)] := by
    have hOne : ¬c.val.toNat ≤ 0x7F := Nat.not_le_of_lt hLow
    have hTwo : c.val.toNat ≤ 0x7FF := Nat.le_of_lt_succ hHigh
    rw [String.utf8EncodeChar, if_neg hOne, if_pos hTwo]
    rfl
  refine ⟨_, _, hEncode, ?_, ?_⟩
  all_goals
    rw [UInt8.toNat_ofNat']
    omega

theorem encodeChar_three (hLow : 0x800 ≤ c.toNat) (hHigh : c.toNat < 0x10000) :
    ∃ a b d, String.utf8EncodeChar c = [a, b, d] ∧ a.toNat = c.toNat / 4096 + 0xE0 ∧
      b.toNat = c.toNat / 64 % 64 + 0x80 ∧ d.toNat = c.toNat % 64 + 0x80 := by
  have hEncode : String.utf8EncodeChar c =
      [UInt8.ofNat (c.toNat / 4096 % 16 + 0xE0), UInt8.ofNat (c.toNat / 64 % 64 + 0x80),
        UInt8.ofNat (c.toNat % 64 + 0x80)] := by
    have hOne : ¬c.val.toNat ≤ 0x7F := Nat.not_le_of_lt (Nat.lt_of_lt_of_le (by decide) hLow)
    have hTwo : ¬c.val.toNat ≤ 0x7FF := Nat.not_le_of_lt hLow
    have hThree : c.val.toNat ≤ 0xFFFF := Nat.le_of_lt_succ hHigh
    rw [String.utf8EncodeChar, if_neg hOne, if_neg hTwo, if_pos hThree]
    rfl
  refine ⟨_, _, _, hEncode, ?_, ?_, ?_⟩
  all_goals
    rw [UInt8.toNat_ofNat']
    omega

theorem encodeChar_four (hLow : 0x10000 ≤ c.toNat) :
    ∃ a b d e, String.utf8EncodeChar c = [a, b, d, e] ∧ a.toNat = c.toNat / 262144 + 0xF0 ∧
      b.toNat = c.toNat / 4096 % 64 + 0x80 ∧ d.toNat = c.toNat / 64 % 64 + 0x80 ∧
      e.toNat = c.toNat % 64 + 0x80 := by
  have hMax := toNat_lt c
  have hEncode : String.utf8EncodeChar c =
      [UInt8.ofNat (c.toNat / 262144 % 8 + 0xF0), UInt8.ofNat (c.toNat / 4096 % 64 + 0x80),
        UInt8.ofNat (c.toNat / 64 % 64 + 0x80), UInt8.ofNat (c.toNat % 64 + 0x80)] := by
    have hOne : ¬c.val.toNat ≤ 0x7F := Nat.not_le_of_lt (Nat.lt_of_lt_of_le (by decide) hLow)
    have hTwo : ¬c.val.toNat ≤ 0x7FF := Nat.not_le_of_lt (Nat.lt_of_lt_of_le (by decide) hLow)
    have hThree : ¬c.val.toNat ≤ 0xFFFF := Nat.not_le_of_lt hLow
    rw [String.utf8EncodeChar, if_neg hOne, if_neg hTwo, if_neg hThree]
    rfl
  refine ⟨_, _, _, _, hEncode, ?_, ?_, ?_, ?_⟩
  all_goals
    rw [UInt8.toNat_ofNat']
    omega

theorem encodeChar_pos (c : Char) : 0 < (String.utf8EncodeChar c).length := by
  rw [String.length_utf8EncodeChar]
  exact c.utf8Size_pos

/-- A byte below 128 is the whole character. -/
theorem encodeChar_ascii {b : UInt8} (hMem : b ∈ String.utf8EncodeChar c)
    (hAscii : b.toNat < 0x80) :
    String.utf8EncodeChar c = [b] ∧ b.toNat = c.toNat := by
  by_cases hOne : c.toNat < 0x80
  · obtain ⟨a, hEncode, hVal⟩ := encodeChar_one hOne
    rw [hEncode, List.mem_singleton] at hMem
    exact ⟨by rw [hEncode, hMem], by rw [hMem, hVal]⟩
  by_cases hTwo : c.toNat < 0x800
  · obtain ⟨a, d, hEncode, hA, hD⟩ := encodeChar_two (Nat.le_of_not_lt hOne) hTwo
    simp only [hEncode, List.mem_cons, List.not_mem_nil, or_false] at hMem
    rcases hMem with rfl | rfl <;> omega
  by_cases hThree : c.toNat < 0x10000
  · obtain ⟨a, d, e, hEncode, hA, hD, hE⟩ := encodeChar_three (Nat.le_of_not_lt hTwo) hThree
    simp only [hEncode, List.mem_cons, List.not_mem_nil, or_false] at hMem
    rcases hMem with rfl | rfl | rfl <;> omega
  · obtain ⟨a, d, e, f, hEncode, hA, hD, hE, hF⟩ := encodeChar_four (Nat.le_of_not_lt hThree)
    simp only [hEncode, List.mem_cons, List.not_mem_nil, or_false] at hMem
    rcases hMem with rfl | rfl | rfl | rfl <;> omega

/-- A number below 128 is met as a byte exactly where it is met as a character. -/
theorem byte_eq_iff {b : UInt8} {n : Nat} (hMem : b ∈ String.utf8EncodeChar c) (hAscii : n < 0x80) :
    b.toNat = n ↔ c.toNat = n := by
  constructor
  · rintro rfl
    exact (encodeChar_ascii hMem hAscii).2.symm
  · rintro rfl
    obtain ⟨a, hEncode, hVal⟩ := encodeChar_one hAscii
    rw [hEncode, List.mem_singleton] at hMem
    rw [hMem, hVal]

end Char

/-- A text can be taken apart at a byte below 128. -/
theorem encode_ascii_split {cs : List Char} {w rest : List UInt8} {b : UInt8}
    (hSplit : encode cs = w ++ b :: rest) (hAscii : b.toNat < 0x80) :
    ∃ ds, ds <:+ cs ∧ rest = encode ds := by
  induction cs generalizing w with
  | nil =>
    have hLen := congrArg List.length hSplit
    simp [encode] at hLen
  | cons c cs ih =>
    rw [encode_cons] at hSplit
    by_cases hInside : w.length < (String.utf8EncodeChar c).length
    · have hMem : b ∈ String.utf8EncodeChar c := by
        have hGet : (String.utf8EncodeChar c ++ encode cs)[w.length]? = some b := by
          rw [hSplit, List.getElem?_append_right (Nat.le_refl _), Nat.sub_self]
          rfl
        rw [List.getElem?_append_left hInside] at hGet
        exact List.mem_of_getElem? hGet
      obtain ⟨hSingle, -⟩ := encodeChar_ascii hMem hAscii
      have hNil : w = [] := by
        rw [hSingle] at hInside
        exact List.length_eq_zero_iff.1 (Nat.lt_one_iff.1 hInside)
      rw [hSingle, hNil] at hSplit
      exact ⟨cs, List.suffix_cons c cs, (List.cons.inj hSplit).2.symm⟩
    · obtain ⟨u, hW⟩ : ∃ u, w = String.utf8EncodeChar c ++ u :=
        (List.prefix_of_prefix_length_le (List.prefix_append _ _)
          (hSplit ▸ List.prefix_append w _) (Nat.le_of_not_lt hInside)).imp fun _ h => h.symm
      rw [hW, List.append_assoc, List.append_cancel_left_eq] at hSplit
      obtain ⟨ds, hSuffix, hRest⟩ := ih hSplit
      exact ⟨ds, hSuffix.trans (List.suffix_cons c cs), hRest⟩

-- ---------------------------------------------------------------------------
-- Texts and characters
-- ---------------------------------------------------------------------------

/-- A text that begins with the bytes of a character begins with the character. -/
theorem encode_eq_append {c : Char} {cs : List Char} {bs : List UInt8}
    (h : encode cs = String.utf8EncodeChar c ++ bs) : ∃ ds, cs = c :: ds ∧ encode ds = bs := by
  cases cs with
  | nil =>
    have hPos := encodeChar_pos c
    obtain ⟨hNil, -⟩ := List.append_eq_nil_iff.1 h.symm
    rw [hNil] at hPos
    exact absurd hPos (Nat.lt_irrefl 0)
  | cons d ds =>
    rw [encode_cons] at h
    have hRead (a : Char) (w : List UInt8) : ByteArray.utf8DecodeChar?
        (String.utf8EncodeChar a ++ w).toByteArray 0 = some a := by
      rw [List.toByteArray_append]
      exact ByteArray.utf8DecodeChar?_utf8EncodeChar_append
    have hSame := hRead d (encode ds)
    rw [h, hRead c bs] at hSame
    obtain rfl := Option.some.inj hSame
    exact ⟨ds, rfl, List.append_cancel_left h⟩

theorem encode_injective : Function.Injective encode := by
  intro as
  induction as with
  | nil =>
    intro bs h
    cases bs with
    | nil => rfl
    | cons b bs => exact absurd h.symm (by simp [encode, String.utf8EncodeChar_ne_nil])
  | cons a as ih =>
    intro bs h
    rw [encode_cons] at h
    obtain ⟨ds, rfl, hRest⟩ := encode_eq_append h.symm
    rw [ih hRest.symm]

/-- A part of a character is no text. -/
theorem part_ne_encode {c : Char} {cs : List Char} {w : List UInt8}
    (hPart : w <+: String.utf8EncodeChar c) (hSome : w ≠ []) (hShort : w.length < c.utf8Size) : encode cs ≠ w := by
  intro hEq
  obtain ⟨v, hV⟩ := hPart
  cases cs with
  | nil => exact hSome hEq.symm
  | cons d ds =>
    rw [encode_cons] at hEq
    have hSplit : encode [c] = String.utf8EncodeChar d ++ (encode ds ++ v) := by
      rw [← List.append_assoc, hEq, hV]
      simp [encode]
    obtain ⟨es, hEs, -⟩ := encode_eq_append hSplit
    obtain ⟨rfl, -⟩ := List.cons.inj hEs
    have hLen := congrArg List.length hEq
    rw [List.length_append, String.length_utf8EncodeChar] at hLen
    omega

/-- A byte that is met in texts exactly where a character is ends the same part of them. -/
theorem takeWhile_encode {p : UInt8 → Bool} {q : Char → Bool}
    (hSame : ∀ c, ∀ b ∈ String.utf8EncodeChar c, p b = q c) (cs : List Char) :
    (encode cs).takeWhile p = encode (cs.takeWhile q) := by
  induction cs with
  | nil => rfl
  | cons c cs ih =>
    rw [encode_cons, List.takeWhile_cons]
    split_ifs with hChar
    · rw [List.takeWhile_append_of_pos fun b hMem => (hSame c b hMem).trans hChar, ih,
        encode_cons]
    · obtain ⟨b, bs, hEncode⟩ := List.exists_cons_of_length_pos (encodeChar_pos c)
      have hByte : ¬p b := by
        rw [hSame c b (by simp [hEncode])]
        exact hChar
      rw [hEncode, List.cons_append, List.takeWhile_cons_of_neg hByte]
      rfl

theorem rdropWhile_encode {p : UInt8 → Bool} {q : Char → Bool}
    (hSame : ∀ c, ∀ b ∈ String.utf8EncodeChar c, p b = q c) (cs : List Char) :
    (encode cs).rdropWhile p = encode (cs.rdropWhile q) := by
  induction cs using List.reverseRecOn with
  | nil => rfl
  | append_singleton cs c ih =>
    have hBytes : encode (cs ++ [c]) = encode cs ++ String.utf8EncodeChar c := by
      rw [encode_append]
      simp [encode]
    by_cases hChar : q c
    · rw [List.rdropWhile_concat_pos _ _ _ hChar, ← ih, hBytes]
      have hAll : ∀ b ∈ (String.utf8EncodeChar c).reverse, p b := fun b hMem => by
        rw [hSame c b (List.mem_reverse.1 hMem), hChar]
      rw [List.rdropWhile, List.reverse_append, List.dropWhile_append_of_pos hAll]
      rfl
    · rw [List.rdropWhile_concat_neg _ _ _ hChar, hBytes]
      obtain ⟨w, b, hW⟩ := List.eq_nil_or_concat (String.utf8EncodeChar c)
        |>.resolve_left (List.length_pos_iff.1 (encodeChar_pos c))
      have hByte : ¬p b := by
        rw [hSame c b (by simp [hW])]
        exact hChar
      rw [hW, List.concat_eq_append, ← List.append_assoc, List.rdropWhile_concat_neg _ _ _ hByte]

-- ---------------------------------------------------------------------------
-- Cut texts
-- ---------------------------------------------------------------------------

/-- The characters that fit into so many bytes. -/
def whole : Nat → List Char → List Char
  | _, [] => []
  | n, c :: cs => if c.utf8Size ≤ n then c :: whole (n - c.utf8Size) cs else []

/-- What is left of the first one that does not. -/
def fragment : Nat → List Char → List UInt8
  | _, [] => []
  | n, c :: cs =>
    if c.utf8Size ≤ n then fragment (n - c.utf8Size) cs else (String.utf8EncodeChar c).take n

variable {n : Nat} {cs : List Char}

theorem take_encode (n : Nat) (cs : List Char) :
    (encode cs).take n = encode (whole n cs) ++ fragment n cs := by
  induction cs generalizing n with
  | nil => simp [encode, whole, fragment]
  | cons c cs ih =>
    rw [encode_cons, whole, fragment]
    split_ifs with hFits
    · have hLen := String.length_utf8EncodeChar c
      rw [encode_cons, List.append_assoc, ← ih, List.take_append, hLen,
        List.take_of_length_le (by omega)]
    · have hLong : n ≤ (String.utf8EncodeChar c).length := by
        rw [String.length_utf8EncodeChar]
        omega
      rw [List.take_append_of_le_length hLong]
      rfl

theorem whole_prefix (n : Nat) (cs : List Char) : whole n cs <+: cs := by
  induction cs generalizing n with
  | nil => exact List.nil_prefix
  | cons c cs ih =>
    rw [whole]
    split_ifs
    · exact (List.prefix_cons_inj c).2 (ih _)
    · exact List.nil_prefix

theorem whole_takeWhile (p : Char → Bool) (n : Nat) (cs : List Char) :
    whole n (cs.takeWhile p) = (whole n cs).takeWhile p := by
  induction cs generalizing n with
  | nil => rfl
  | cons c cs ih =>
    rw [List.takeWhile_cons]
    split_ifs with hChar
    · rw [whole, whole]
      split_ifs
      · rw [ih, List.takeWhile_cons_of_pos hChar]
      · rfl
    · rw [whole, whole]
      split_ifs
      · rw [List.takeWhile_cons_of_neg hChar]
      · rfl

theorem whole_of_fits {n : Nat} {cs : List Char} (hFits : (encode cs).length ≤ n) :
    whole n cs = cs := by
  induction cs generalizing n with
  | nil => rfl
  | cons c cs ih =>
    rw [encode_cons, List.length_append, String.length_utf8EncodeChar] at hFits
    rw [whole, if_pos (by omega), ih (by omega)]

/-- It is a part of one character. -/
theorem fragment_part (n : Nat) (cs : List Char) :
    fragment n cs = [] ∨ ∃ c ∈ cs, ∃ m, 0 < m ∧ m < c.utf8Size ∧
      fragment n cs = (String.utf8EncodeChar c).take m := by
  induction cs generalizing n with
  | nil => exact .inl rfl
  | cons c cs ih =>
    rw [fragment]
    split_ifs with hFits
    · refine (ih (n - c.utf8Size)).imp_right ?_
      rintro ⟨d, hMem, h⟩
      exact ⟨d, List.mem_cons_of_mem c hMem, h⟩
    · rcases Nat.eq_zero_or_pos n with rfl | hPos
      · exact .inl rfl
      · exact .inr ⟨c, List.mem_cons_self, n, hPos, Nat.lt_of_not_le hFits, rfl⟩

/-- Where a character begins, only one part of the text ends. -/
theorem prefix_unique {as bs : List Char} (hA : as <+: cs) (hB : bs <+: cs)
    (hLen : (encode as).length = (encode bs).length) : as = bs := by
  have hExtends {as bs : List Char} (hPrefix : as <+: bs)
      (hLen : (encode as).length = (encode bs).length) : as = bs := by
    obtain ⟨ds, rfl⟩ := hPrefix
    cases ds with
    | nil => rw [List.append_nil]
    | cons d ds =>
      have hPos := encodeChar_pos d
      rw [encode_append, encode_cons, List.length_append, List.length_append] at hLen
      omega
  rcases List.prefix_or_prefix_of_prefix hA hB with h | h
  · exact hExtends h hLen
  · exact (hExtends h hLen.symm).symm

end Utf8
