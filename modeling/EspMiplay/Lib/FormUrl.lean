import Mathlib.Data.List.Basic

/-!
# Form encoding

Texts as a form sends them: a plus sign for a blank, the unreserved characters as they are,
and every other byte as a percent sign with two hexadecimal digits.

- `decode_encode` reads a text back.
- `length_encodeByte_le`: no byte takes more than three.
-/

namespace FormUrl

def unreserved (b : UInt8) : Bool :=
  (0x41 ≤ b ∧ b ≤ 0x5A) ∨ (0x61 ≤ b ∧ b ≤ 0x7A) ∨ (0x30 ≤ b ∧ b ≤ 0x39) ∨ b = 0x2D ∨ b = 0x5F ∨
    b = 0x2E ∨ b = 0x7E

def upperHex (v : UInt8) : UInt8 := if v < 10 then 0x30 + v else 0x41 + (v - 10)

def encodeByte (b : UInt8) : List UInt8 :=
  if unreserved b then [b]
  else if b = 0x20 then [0x2B]
  else [0x25, upperHex (b >>> 4), upperHex (b &&& 0x0F)]

def encode (bs : List UInt8) : List UInt8 := bs.flatMap encodeByte

def hexValue (c : UInt8) : UInt8 :=
  if c ≤ 0x39 then c - 0x30 else if c ≤ 0x46 then c - 0x41 + 10 else c - 0x61 + 10

def decode : List UInt8 → List UInt8
  | [] => []
  | 0x25 :: a :: b :: rest => (hexValue a * 16 + hexValue b) :: decode rest
  | c :: rest => (if c = 0x2B then 0x20 else c) :: decode rest

theorem encode_cons (b : UInt8) (bs : List UInt8) :
    encode (b :: bs) = encodeByte b ++ encode bs := List.flatMap_cons

theorem encode_append (as bs : List UInt8) : encode (as ++ bs) = encode as ++ encode bs :=
  List.flatMap_append

theorem length_encodeByte_le (b : UInt8) : (encodeByte b).length ≤ 3 := by
  rw [encodeByte]
  split_ifs <;> simp

theorem length_encodeByte_pos (b : UInt8) : 0 < (encodeByte b).length := by
  rw [encodeByte]
  split_ifs <;> exact Nat.succ_pos _

/-- What stands for itself is no ASCII sign of the encoding, and below 128. -/
theorem length_encodeByte_wide {b : UInt8} (hWide : 0x80 ≤ b.toNat) :
    (encodeByte b).length = 3 := by
  have hReserved : unreserved b = false := by
    simp only [unreserved, UInt8.le_iff_toNat_le, ← UInt8.toNat_inj, UInt8.reduceToNat,
      decide_eq_false_iff_not]
    omega
  have hBlank : b ≠ 0x20 := by
    rintro rfl
    exact absurd hWide (by decide)
  rw [encodeByte, hReserved, if_neg (by decide), if_neg hBlank]
  rfl

theorem hexValue_upperHex {v : UInt8} (h : v.toNat < 16) : hexValue (upperHex v) = v := by
  have hAll : ∀ k : Fin 16, hexValue (upperHex (UInt8.ofNat k)) = UInt8.ofNat k := by decide
  have hOne := hAll ⟨v.toNat, h⟩
  rwa [UInt8.ofNat_toNat] at hOne

theorem decode_plain {c : UInt8} (h : c ≠ 0x25) (rest : List UInt8) :
    decode (c :: rest) = (if c = 0x2B then 0x20 else c) :: decode rest := by
  rw [decode]
  rintro a b rest' hPercent -
  exact h hPercent

theorem decode_encodeByte (b : UInt8) (rest : List UInt8) :
    decode (encodeByte b ++ rest) = b :: decode rest := by
  rw [encodeByte]
  split_ifs with hUnreserved hBlank
  · have hOther : ∀ c, unreserved c = false → b ≠ c := by
      rintro c hC rfl
      rw [hUnreserved] at hC
      cases hC
    rw [List.singleton_append, decode_plain (hOther _ (by decide)), if_neg (hOther _ (by decide))]
  · rw [List.singleton_append, decode_plain (by decide), if_pos rfl, hBlank]
  · have hLt := b.toNat_lt
    have hHigh : (b >>> 4).toNat = b.toNat / 16 := by
      rw [UInt8.toNat_shiftRight]
      exact Nat.shiftRight_eq_div_pow b.toNat 4
    have hLow : (b &&& 0x0F).toNat = b.toNat % 16 := by
      rw [UInt8.toNat_and]
      exact Nat.and_two_pow_sub_one_eq_mod b.toNat 4
    have hJoin : (b >>> 4) * 16 + (b &&& 0x0F) = b := by
      rw [← UInt8.toNat_inj, UInt8.toNat_add, UInt8.toNat_mul, hHigh, hLow]
      simp only [UInt8.reduceToNat]
      omega
    simp only [List.cons_append, List.nil_append, decode]
    rw [hexValue_upperHex (by omega), hexValue_upperHex (by omega), hJoin]

/-- Texts are read back. -/
theorem decode_encode (bs : List UInt8) : decode (encode bs) = bs := by
  induction bs with
  | nil => rfl
  | cons b bs ih => rw [encode_cons, decode_encodeByte, ih]

end FormUrl
