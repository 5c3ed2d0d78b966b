import Mathlib.Data.List.Basic

/-!
# Base64

The encoding with padding: three bytes in four characters, and one or two bytes at the end
filled up with `=`.

- `Base64.decode_encode`: what is encoded is decoded.
- `Base64.length_encode`, `Base64.encode_chars`: how long it gets, and of what characters.
-/

namespace Base64

def digit (n : Nat) : UInt8 :=
  if n < 26 then UInt8.ofNat (0x41 + n)
  else if n < 52 then UInt8.ofNat (0x61 + (n - 26))
  else if n < 62 then UInt8.ofNat (0x30 + (n - 52))
  else if n = 62 then 0x2B
  else 0x2F

def value (c : UInt8) : Option Nat :=
  if 0x41 ≤ c ∧ c ≤ 0x5A then some (c.toNat - 0x41)
  else if 0x61 ≤ c ∧ c ≤ 0x7A then some (c.toNat - 0x61 + 26)
  else if 0x30 ≤ c ∧ c ≤ 0x39 then some (c.toNat - 0x30 + 52)
  else if c = 0x2B then some 62
  else if c = 0x2F then some 63
  else none

def pad : UInt8 := 0x3D

def encode : List UInt8 → List UInt8
  | [] => []
  | [a] => [digit (a.toNat / 4), digit (a.toNat % 4 * 16), pad, pad]
  | [a, b] =>
    [digit (a.toNat / 4), digit (a.toNat % 4 * 16 + b.toNat / 16), digit (b.toNat % 16 * 4), pad]
  | a :: b :: c :: rest =>
    digit (a.toNat / 4) :: digit (a.toNat % 4 * 16 + b.toNat / 16) ::
      digit (b.toNat % 16 * 4 + c.toNat / 64) :: digit (c.toNat % 64) :: encode rest

def decode : List UInt8 → Option (List UInt8)
  | [] => some []
  | a :: b :: c :: d :: rest => do
    let a ← value a
    let b ← value b
    let first := UInt8.ofNat (a * 4 + b / 16)
    if c = pad then
      if d = pad ∧ rest = [] then some [first] else none
    else
      let c ← value c
      let second := UInt8.ofNat (b % 16 * 16 + c / 4)
      if d = pad then
        if rest = [] then some [first, second] else none
      else
        let d ← value d
        let more ← decode rest
        some (first :: second :: UInt8.ofNat (c % 4 * 64 + d) :: more)
  | _ => none

theorem value_digit {n : Nat} (h : n < 64) : value (digit n) = some n := by
  have hAll : ∀ k : Fin 64, value (digit k) = some k.val := by decide
  exact hAll ⟨n, h⟩

theorem digit_ne_pad {n : Nat} (h : n < 64) : digit n ≠ pad := by
  have hAll : ∀ k : Fin 64, digit k ≠ pad := by decide
  exact hAll ⟨n, h⟩

theorem ofNat_of_eq {a : UInt8} {n : Nat} (h : n = a.toNat) : UInt8.ofNat n = a := by
  rw [h, UInt8.ofNat_toNat]

theorem decode_encode (bytes : List UInt8) : decode (encode bytes) = some bytes := by
  fun_induction encode bytes with
  | case1 => rfl
  | case2 a =>
    have hA := a.toNat_lt
    rw [decode, value_digit (by omega), value_digit (by omega)]
    simp only [Option.bind_eq_bind, Option.bind_some, if_true, and_self]
    rw [ofNat_of_eq (a := a) (by omega)]
  | case3 a b =>
    have hA := a.toNat_lt
    have hB := b.toNat_lt
    rw [decode, value_digit (by omega), value_digit (by omega)]
    simp only [Option.bind_eq_bind, Option.bind_some, if_true]
    rw [if_neg (digit_ne_pad (by omega)), value_digit (by omega), Option.bind_some,
      ofNat_of_eq (a := a) (by omega), ofNat_of_eq (a := b) (by omega)]
  | case4 a b c rest ih =>
    have hA := a.toNat_lt
    have hB := b.toNat_lt
    have hC := c.toNat_lt
    rw [decode, value_digit (by omega), value_digit (by omega)]
    simp only [Option.bind_eq_bind, Option.bind_some]
    rw [if_neg (digit_ne_pad (by omega)), value_digit (by omega), Option.bind_some,
      if_neg (digit_ne_pad (by omega)), value_digit (by omega), Option.bind_some, ih,
      Option.bind_some, ofNat_of_eq (a := a) (by omega), ofNat_of_eq (a := b) (by omega),
      ofNat_of_eq (a := c) (by omega)]

theorem length_encode (bytes : List UInt8) :
    (encode bytes).length = (bytes.length + 2) / 3 * 4 := by
  fun_induction encode bytes with
  | case1 => rfl
  | case2 => simp
  | case3 => simp
  | case4 a b c rest ih =>
    simp only [List.length_cons, ih]
    omega

/-- Letters, digits and four signs. -/
theorem encode_chars (bytes : List UInt8) : ∀ c ∈ encode bytes, (value c).isSome ∨ c = pad := by
  fun_induction encode bytes with
  | case1 => simp
  | case2 a =>
    have hA := a.toNat_lt
    simp [value_digit (n := a.toNat / 4) (by omega), value_digit (n := a.toNat % 4 * 16) (by omega)]
  | case3 a b =>
    have hA := a.toNat_lt
    have hB := b.toNat_lt
    simp [value_digit (n := a.toNat / 4) (by omega),
      value_digit (n := a.toNat % 4 * 16 + b.toNat / 16) (by omega),
      value_digit (n := b.toNat % 16 * 4) (by omega)]
  | case4 a b c rest ih =>
    have hA := a.toNat_lt
    have hB := b.toNat_lt
    have hC := c.toNat_lt
    simp only [List.forall_mem_cons, value_digit (n := a.toNat / 4) (by omega),
      value_digit (n := a.toNat % 4 * 16 + b.toNat / 16) (by omega),
      value_digit (n := b.toNat % 16 * 4 + c.toNat / 64) (by omega),
      value_digit (n := c.toNat % 64) (by omega)]
    exact ⟨.inl rfl, .inl rfl, .inl rfl, .inl rfl, ih⟩

end Base64
