import Mathlib.Data.Vector.Basic

/-!
# Bytes, big-endian fields and cipher blocks

The wire vocabulary of `miplay.c`: byte strings, the big-endian integers of
frame and SafetyData headers, and the 16-byte blocks AES works on.

A `Block` carries its length, so neither an IV nor a key of the wrong size can
be written down; `toBlocks` and `ofBlocks` pass between a byte string and the
blocks `aes_cbc_encrypt` walks over.
-/

namespace EspMiplay.Miplay

abbrev Bytes := List UInt8

instance lawfulBeqBytes : LawfulBEq (List UInt8) := inferInstance

/-- The bytes of an ASCII literal of the source. -/
def ascii (s : String) : Bytes := s.toList.map fun c => c.toNat.toUInt8

/-! ## Big-endian fields -/

def putBe16 (v : UInt16) : Bytes := [(v >>> 8).toUInt8, v.toUInt8]

def putBe32 (v : UInt32) : Bytes :=
  [(v >>> 24).toUInt8, (v >>> 16).toUInt8, (v >>> 8).toUInt8, v.toUInt8]

def getBe32 (b0 b1 b2 b3 : UInt8) : UInt32 :=
  (b0.toUInt32 <<< 24) ||| (b1.toUInt32 <<< 16) ||| (b2.toUInt32 <<< 8) ||| b3.toUInt32

@[simp] theorem length_putBe16 (v : UInt16) : (putBe16 v).length = 2 := rfl

@[simp] theorem length_putBe32 (v : UInt32) : (putBe32 v).length = 4 := rfl

/-- A big-endian word read back from its four bytes. -/
theorem getBe32_putBe32 (v : UInt32) :
    getBe32 (v >>> 24).toUInt8 (v >>> 16).toUInt8 (v >>> 8).toUInt8 v.toUInt8 = v := by
  apply UInt32.eq_of_toBitVec_eq
  have h8 : UInt32.toBitVec 8 % 32 = 8#32 := by decide
  have h16 : UInt32.toBitVec 16 % 32 = 16#32 := by decide
  have h24 : UInt32.toBitVec 24 % 32 = 24#32 := by decide
  simp only [getBe32, UInt32.toBitVec_or, UInt32.toBitVec_shiftLeft, UInt32.toBitVec_shiftRight,
    UInt8.toBitVec_toUInt32, UInt32.toBitVec_toUInt8, h8, h16, h24]
  generalize v.toBitVec = x
  apply BitVec.eq_of_getLsbD_eq
  intro i hi
  simp only [BitVec.getLsbD_or, BitVec.shiftLeft_eq', BitVec.ushiftRight_eq',
    BitVec.getLsbD_shiftLeft, BitVec.getLsbD_setWidth, BitVec.getLsbD_ushiftRight,
    BitVec.toNat_ofNat, hi, Nat.reduceMod, Nat.reducePow, decide_true, Bool.true_and]
  -- bit `i` comes from exactly one of the four bytes
  rcases (by omega : i < 8 ∨ (8 ≤ i ∧ i < 16) ∨ (16 ≤ i ∧ i < 24) ∨ 24 ≤ i) with h | h | h | h
  · simp [h, show i < 16 by omega, show i < 24 by omega]
  · simp [h.2, show ¬ i < 8 by omega, show i < 24 by omega, show i - 8 < 8 by omega,
      show i - 8 < 32 by omega, Nat.add_sub_cancel' h.1]
  · simp [h.2, show ¬ i < 8 by omega, show ¬ i < 16 by omega, show i - 16 < 8 by omega,
      show ¬ i - 8 < 8 by omega, show i - 16 < 32 by omega, Nat.add_sub_cancel' h.1]
  · simp [show ¬ i < 8 by omega, show ¬ i < 16 by omega, show ¬ i < 24 by omega,
      show i - 24 < 8 by omega, show ¬ i - 16 < 8 by omega, show ¬ i - 8 < 8 by omega,
      show i - 24 < 32 by omega, Nat.add_sub_cancel' h]

/-! ## Blocks -/

/-- `uint8_t [AES_BLOCK_LEN]`. -/
abbrev Block := List.Vector UInt8 16

namespace Block

def xor (a b : Block) : Block := List.Vector.map₂ (· ^^^ ·) a b

theorem xor_cancel (a b : Block) : xor (xor a b) b = a := by
  apply List.Vector.ext
  intro i
  simp [xor, UInt8.xor_assoc]

/-- The first sixteen bytes, zero-filled where the string is shorter. -/
def ofBytes (xs : Bytes) : Block := ⟨xs.takeD 16 0, List.takeD_length ..⟩

theorem ofBytes_append (b : Block) (xs : Bytes) : ofBytes (b.toList ++ xs) = b := by
  apply List.Vector.eq
  have hLen : 16 ≤ (b.toList ++ xs).length := by simp
  change (b.toList ++ xs).takeD 16 0 = b.toList
  rw [List.takeD_eq_take 0 hLen, List.take_append_of_le_length (by simp), List.take_of_length_le]
  simp

/-- The first sixteen bytes of a long enough string are themselves. -/
theorem toList_ofBytes {xs : Bytes} (h : 16 ≤ xs.length) : (ofBytes xs).toList = xs.take 16 :=
  List.takeD_eq_take 0 h

/-- Only the first sixteen bytes count. -/
theorem ofBytes_append_right {xs : Bytes} (ys : Bytes) (h : 16 ≤ xs.length) :
    ofBytes (xs ++ ys) = ofBytes xs := by
  apply List.Vector.eq
  rw [toList_ofBytes h, toList_ofBytes (by rw [List.length_append]; omega),
    List.take_append_of_le_length h]

def zero : Block := List.Vector.replicate 16 0

end Block

/-- The first `n` blocks of a byte string, as the CBC loops visit them. -/
def toBlocks : Nat → Bytes → List Block
  | 0, _ => []
  | n + 1, xs => Block.ofBytes xs :: toBlocks n (xs.drop 16)

def ofBlocks (bs : List Block) : Bytes := bs.flatMap List.Vector.toList

@[simp] theorem ofBlocks_nil : ofBlocks [] = [] := rfl

@[simp] theorem ofBlocks_cons (b : Block) (bs : List Block) :
    ofBlocks (b :: bs) = b.toList ++ ofBlocks bs := rfl

@[simp] theorem length_toBlocks (n : Nat) (xs : Bytes) : (toBlocks n xs).length = n := by
  induction n generalizing xs with
  | zero => rfl
  | succ n ih => simp [toBlocks, ih]

@[simp] theorem length_ofBlocks (bs : List Block) : (ofBlocks bs).length = 16 * bs.length := by
  induction bs with
  | nil => rfl
  | cons b bs ih =>
    simp only [ofBlocks_cons, List.length_append, List.Vector.toList_length, ih, List.length_cons]
    omega

/-- Cutting a sequence of blocks gives the blocks back. -/
theorem toBlocks_ofBlocks (bs : List Block) : toBlocks bs.length (ofBlocks bs) = bs := by
  induction bs with
  | nil => rfl
  | cons b bs ih =>
    have hDrop : (b.toList ++ ofBlocks bs).drop 16 = ofBlocks bs := by
      rw [List.drop_append_of_le_length (by simp), List.drop_of_length_le (by simp)]
      rfl
    simp only [List.length_cons, ofBlocks_cons, toBlocks, Block.ofBytes_append, hDrop, ih]

/-- Joining the blocks of a string whose length is a multiple of sixteen. -/
theorem ofBlocks_toBlocks (n : Nat) (xs : Bytes) (h : xs.length = 16 * n) :
    ofBlocks (toBlocks n xs) = xs := by
  induction n generalizing xs with
  | zero => simpa [toBlocks, eq_comm] using h
  | succ n ih =>
    rw [toBlocks, ofBlocks_cons, Block.toList_ofBytes (by omega), ih _ (by simp; omega),
      List.take_append_drop]

end EspMiplay.Miplay
