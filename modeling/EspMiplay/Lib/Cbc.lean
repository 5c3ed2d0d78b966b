import Mathlib.Data.List.Basic

/-!
# Cipher block chaining

CBC over an arbitrary block type: a block permutation (`enc`, `dec`) and a
masking operation `xor` that undoes itself. Nothing here knows how long a
block is or which cipher is meant.

The chaining value is passed in and handed back, so a conversation of many
messages is one long chain, and `decrypt_encrypt` says that a receiver that starts from the same chaining
value reads back every block and stays in step.
-/

namespace Cbc

variable {B : Type*}

/-- A block permutation together with the operation that mixes in the chain. -/
structure Mode (B : Type*) where
  enc : B → B
  dec : B → B
  xor : B → B → B
  dec_enc : ∀ b, dec (enc b) = b
  xor_cancel : ∀ a b, xor (xor a b) b = a

/-- Ciphertext blocks and the chaining value left behind. -/
def encrypt (m : Mode B) : B → List B → List B × B
  | iv, [] => ([], iv)
  | iv, p :: ps =>
    let c := m.enc (m.xor p iv)
    let r := encrypt m c ps
    (c :: r.1, r.2)

/-- Plaintext blocks and the chaining value left behind. -/
def decrypt (m : Mode B) : B → List B → List B × B
  | iv, [] => ([], iv)
  | iv, c :: cs =>
    let r := decrypt m c cs
    (m.xor (m.dec c) iv :: r.1, r.2)

@[simp] theorem encrypt_nil (m : Mode B) (iv : B) : encrypt m iv [] = ([], iv) := rfl

@[simp] theorem decrypt_nil (m : Mode B) (iv : B) : decrypt m iv [] = ([], iv) := rfl

@[simp] theorem length_encrypt (m : Mode B) (iv : B) (ps : List B) :
    (encrypt m iv ps).1.length = ps.length := by
  induction ps generalizing iv with
  | nil => rfl
  | cons p ps ih => simp [encrypt, ih]

@[simp] theorem length_decrypt (m : Mode B) (iv : B) (cs : List B) :
    (decrypt m iv cs).1.length = cs.length := by
  induction cs generalizing iv with
  | nil => rfl
  | cons c cs ih => simp [decrypt, ih]

/-- A chain may be decrypted in two goes, cut between any two blocks. -/
theorem decrypt_append (m : Mode B) (iv : B) (cs ds : List B) :
    decrypt m iv (cs ++ ds) =
      ((decrypt m iv cs).1 ++ (decrypt m (decrypt m iv cs).2 ds).1,
        (decrypt m (decrypt m iv cs).2 ds).2) := by
  induction cs generalizing iv with
  | nil => rfl
  | cons c cs ih => simp only [List.cons_append, decrypt, ih]

/-- The chain left by a decryption is the last ciphertext block seen. -/
theorem decrypt_snd (m : Mode B) (iv : B) (cs : List B) :
    (decrypt m iv cs).2 = cs.getLastD iv := by
  induction cs generalizing iv with
  | nil => rfl
  | cons c cs ih =>
    rw [decrypt, List.getLastD_cons]
    exact ih c

/-- Encryption leaves its last ciphertext block as the chain, too. -/
theorem encrypt_snd (m : Mode B) (iv : B) (ps : List B) :
    (encrypt m iv ps).2 = (encrypt m iv ps).1.getLastD iv := by
  induction ps generalizing iv with
  | nil => rfl
  | cons p ps ih =>
    simp only [encrypt, List.getLastD_cons]
    exact ih _

/-- **Round trip.** A receiver that starts from the sender's chaining value
reads the plaintext back and ends on the sender's chaining value. -/
theorem decrypt_encrypt (m : Mode B) (iv : B) (ps : List B) :
    decrypt m iv (encrypt m iv ps).1 = (ps, (encrypt m iv ps).2) := by
  induction ps generalizing iv with
  | nil => rfl
  | cons p ps ih =>
    simp only [encrypt, decrypt, ih, m.dec_enc, m.xor_cancel]

end Cbc
