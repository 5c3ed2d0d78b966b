import Mathlib.Logic.Equiv.Defs
import Mathlib.Tactic.SplitIfs
import EspMiplay.Lib.Cbc
import EspMiplay.Miplay.Bytes

/-!
# SafetyData v1 -- the encrypted container of the control channel

`safety_encrypt` and `safety_decrypt` of `miplay.c`, with the CRC over the
ciphertext and the hand-written CBC loops around mbedTLS.

- AES-128 is an arbitrary keyed permutation of blocks (`Aes`).
- The IV is an in/out parameter of the source: both functions return the
  chaining value they leave behind next to their result.
- `heap` says whether the one `heap_caps_*alloc` of the call succeeds.
- Every read of `data` and the final `memcpy` go through `Access`, which
  faults where the C code would leave the buffer, so that memory safety of
  `safety_decrypt` is a statement about the model and not an assumption in it.
- `size_t` is 32 bits wide on the target; the one subtraction that can
  underflow, `ct_len - pad_len`, is `sizeSub`.
-/

namespace EspMiplay.Miplay

def safetyDataHdrLen : Nat := 9
def safetyDataVersion : UInt8 := 1
/-- encryption | padding | integrity -/
def safetyDataFlags : UInt8 := 0xE0

/-! ## CRC over the ciphertext -/

/-- One of the eight shift steps of `miplay_crc32_table_entry`. -/
def crcShift (value : UInt32) : UInt32 :=
  if value &&& 0x80000000 ≠ 0 then (value <<< 1) ^^^ 0x04C11DB7 else value <<< 1

/-- `__builtin_bswap32`. -/
def bswap32 (v : UInt32) : UInt32 :=
  (v <<< 24) ||| ((v &&& (0xFF00 : UInt32)) <<< 8) ||| ((v >>> 8) &&& (0xFF00 : UInt32)) ||| (v >>> 24)

def miplayCrc32TableEntry (index : UInt8) : UInt32 :=
  bswap32 ((List.replicate 8 ()).foldl (fun v _ => crcShift v) (index.toUInt32 <<< 24))

def safetyIntegrity (data : Bytes) : UInt32 :=
  data.foldl
    (fun crc b => miplayCrc32TableEntry ((crc &&& (0xFF : UInt32)).toUInt8 ^^^ b) ^^^ (crc >>> 8))
    0xFFFFFFFF

/-! ## AES-128-CBC -/

/-- `mbedtls_aes_crypt_ecb` under a 128-bit key, in its two directions. -/
abbrev Aes := Block → Equiv.Perm Block

def Aes.mode (aes : Aes) (key : Block) : Cbc.Mode Block where
  enc := aes key
  dec := (aes key).symm
  xor := Block.xor
  dec_enc := (aes key).symm_apply_apply
  xor_cancel := Block.xor_cancel

/-- The output and the IV left behind; `none` when the length is not a multiple
of the block length. -/
def aesCbcEncrypt (aes : Aes) (key iv : Block) (input : Bytes) : Option (Bytes × Block) :=
  if input.length % 16 ≠ 0 then none
  else
    let r := Cbc.encrypt (aes.mode key) iv (toBlocks (input.length / 16) input)
    some (ofBlocks r.1, r.2)

def aesCbcDecrypt (aes : Aes) (key iv : Block) (input : Bytes) : Option (Bytes × Block) :=
  if input.length % 16 ≠ 0 then none
  else
    let r := Cbc.decrypt (aes.mode key) iv (toBlocks (input.length / 16) input)
    some (ofBlocks r.1, r.2)

/-- An encryption that produced output is undone from the same IV, and both
sides are left with the same chaining value. -/
theorem aesCbcDecrypt_encrypt (aes : Aes) {key iv iv' : Block} {input output : Bytes}
    (h : aesCbcEncrypt aes key iv input = some (output, iv')) :
    output.length = input.length ∧ aesCbcDecrypt aes key iv output = some (input, iv') := by
  unfold aesCbcEncrypt at h
  split at h
  · cases h
  · rename_i hMod
    obtain ⟨n, hn⟩ : ∃ n, input.length = 16 * n := Nat.dvd_of_mod_eq_zero (by omega)
    have hDiv : input.length / 16 = n := by omega
    rw [hDiv] at h
    set bs := (Cbc.encrypt (aes.mode key) iv (toBlocks n input)) with hbs
    obtain ⟨rfl, rfl⟩ : ofBlocks bs.1 = output ∧ bs.2 = iv' := by simpa using h
    have hCount : bs.1.length = n := by rw [hbs, Cbc.length_encrypt, length_toBlocks]
    have hLen : (ofBlocks bs.1).length = 16 * n := by rw [length_ofBlocks, hCount]
    refine ⟨hLen.trans hn.symm, ?_⟩
    have hBlocks : toBlocks n (ofBlocks bs.1) = bs.1 := by
      have := toBlocks_ofBlocks bs.1
      rwa [hCount] at this
    have hRound := Cbc.decrypt_encrypt (aes.mode key) iv (toBlocks n input)
    rw [← hbs] at hRound
    simp only [aesCbcDecrypt, hLen, Nat.mul_mod_right, ne_eq, not_true_eq_false, if_false,
      Nat.mul_div_cancel_left n (by omega : 0 < 16), hBlocks, hRound, ofBlocks_toBlocks n input hn]

/-- What a decryption that ran has computed. -/
theorem aesCbcDecrypt_eq_some {aes : Aes} {key iv iv' : Block} {input output : Bytes}
    (h : aesCbcDecrypt aes key iv input = some (output, iv')) :
    input.length % 16 = 0 ∧
      ofBlocks (Cbc.decrypt (aes.mode key) iv (toBlocks (input.length / 16) input)).1 = output ∧
      (Cbc.decrypt (aes.mode key) iv (toBlocks (input.length / 16) input)).2 = iv' := by
  unfold aesCbcDecrypt at h
  split at h
  · cases h
  · rename_i hMod
    exact ⟨not_not.mp hMod, by simpa using h⟩

/-! ## Memory accesses -/

/-- The ways `safety_decrypt` could leave a buffer it was given or made. -/
inductive Fault where
  /-- a read of `data` at or past `data_len` -/
  | readPastData
  /-- a write to `out` past `out_max` -/
  | writePastOut
  /-- a read past the decrypted heap block, or a write past the debug line -/
  | scratchOverrun
  deriving DecidableEq, Repr

abbrev Access := Except Fault

def readByte (data : Bytes) (i : Nat) : Access UInt8 :=
  match data[i]? with
  | some b => .ok b
  | none => .error .readPastData

def readSpan (data : Bytes) (off len : Nat) : Access Bytes :=
  if off + len ≤ data.length then .ok ((data.drop off).take len) else .error .readPastData

/-- `INT_MAX`. -/
def intMax : Nat := 2147483647

/-- The hex dump of the first decrypted bytes into `char hex[68]`; a `pt_len`
from 2³¹ on is a negative `int` there, and comes back as a huge `size_t`. -/
def hexDump (decrypted : Bytes) (ptLen : Nat) : Access Unit :=
  let count := if ptLen ≤ intMax then min ptLen 32 else ptLen
  if count ≤ decrypted.length ∧ 2 * count + 1 ≤ 68 then .ok () else .error .scratchOverrun

/-- Neither of the caller's buffers was left. -/
def Access.Safe {α : Type} (m : Access α) : Prop :=
  m ≠ .error .readPastData ∧ m ≠ .error .writePastOut

theorem Access.safe_ok {α : Type} (a : α) : Access.Safe (.ok a) := by
  simp [Access.Safe]

theorem Access.safe_scratch {α : Type} :
    Access.Safe (.error .scratchOverrun : Access α) := by
  simp [Access.Safe]

theorem Access.Safe.bind {α β : Type} {m : Access α} {f : α → Access β} (hm : m.Safe)
    (hf : ∀ a, (f a).Safe) : Access.Safe (m >>= f) := by
  cases m with
  | error e => exact ⟨fun h => hm.1 (by cases h; rfl), fun h => hm.2 (by cases h; rfl)⟩
  | ok a => exact hf a

/-- `memcpy(out, decrypted, pt_len)`. -/
def copyOut (decrypted : Bytes) (ptLen outMax : Nat) : Access Bytes :=
  if outMax < ptLen then .error .writePastOut
  else if decrypted.length < ptLen then .error .scratchOverrun
  else .ok (decrypted.take ptLen)

/-- `size_t` subtraction. -/
def sizeSub (a b : Nat) : Nat := (a + 4294967296 - b) % 4294967296

/-! ## The container -/

/-- `[0x00, 0x07, version, flags, padLen, CRC(4)]`. -/
def safetyHeader (padLen : Nat) (crc : UInt32) : Bytes :=
  [0x00, 0x07, safetyDataVersion, safetyDataFlags, UInt8.ofNat padLen] ++ putBe32 crc

/-- `none` for the return value 0. -/
def safetyEncrypt (aes : Aes) (heap : Bool) (plaintext : Bytes) (key iv : Block)
    (outMax : Nat) : Option Bytes × Block :=
  let padLen := 16 - plaintext.length % 16
  let paddedLen := plaintext.length + padLen
  if safetyDataHdrLen + paddedLen > outMax then (none, iv)
  else if !heap then (none, iv)
  else
    let padded := plaintext ++ List.replicate padLen 0
    match aesCbcEncrypt aes key iv padded with
    | none => (none, iv)
    | some (ciphertext, iv') =>
      (some (safetyHeader padLen (safetyIntegrity ciphertext) ++ ciphertext), iv')

/-- `safety_decrypt` from the length check on: `ct` has passed the CRC. -/
def safetyOpen (aes : Aes) (heap : Bool) (data : Bytes) (padLen : Nat) (key iv : Block)
    (outMax : Nat) : Access (Option Bytes × Block) := do
  let ctLen := data.length - safetyDataHdrLen
  let ptLen := sizeSub ctLen padLen
  if ptLen > outMax then return (none, iv)
  -- the debug line with the first ciphertext block
  let _ ← readSpan data safetyDataHdrLen 16
  if !heap then return (none, iv)
  let ct ← readSpan data safetyDataHdrLen ctLen
  match aesCbcDecrypt aes key iv ct with
  | none => return (none, iv)
  | some (decrypted, iv') =>
    hexDump decrypted ptLen
    -- the IV has moved on by now, also when the padding is refused
    if (decrypted.drop ptLen).any (· ≠ 0) then return (none, iv')
    let plaintext ← copyOut decrypted ptLen outMax
    return (some plaintext, iv')

/-- `none` for the return value -1; the IV is the one left behind either way. -/
def safetyDecrypt (aes : Aes) (heap : Bool) (data : Bytes) (key iv : Block)
    (outMax : Nat) : Access (Option Bytes × Block) := do
  if data.length < safetyDataHdrLen then return (none, iv)
  let d0 ← readByte data 0
  let d1 ← readByte data 1
  if d0 ≠ 0x00 ∨ d1 ≠ 0x07 then return (none, iv)
  let version ← readByte data 2
  if version ≠ safetyDataVersion then return (none, iv)
  let flags ← readByte data 3
  if flags &&& 0x80 = 0 then return (none, iv)
  let d4 ← readByte data 4
  let padLen := if flags &&& 0x40 ≠ 0 then d4.toNat else 0
  let d5 ← readByte data 5
  let d6 ← readByte data 6
  let d7 ← readByte data 7
  let d8 ← readByte data 8
  let ctLen := data.length - safetyDataHdrLen
  if ctLen = 0 ∨ ctLen % 16 ≠ 0 then return (none, iv)
  let ct ← readSpan data safetyDataHdrLen ctLen
  if safetyIntegrity ct ≠ getBe32 d5 d6 d7 d8 then return (none, iv)
  safetyOpen aes heap data padLen key iv outMax

/-! ## What the header checks amount to -/

/-- The header fields of a container, read where `safety_decrypt` reads them. -/
structure SafetyHeader where
  magic0 : UInt8
  magic1 : UInt8
  version : UInt8
  flags : UInt8
  pad : UInt8
  crc : UInt32

/-- The header of a container that is long enough to have one. -/
def safetyHeaderOf (data : Bytes) : SafetyHeader where
  magic0 := data.getD 0 0
  magic1 := data.getD 1 0
  version := data.getD 2 0
  flags := data.getD 3 0
  pad := data.getD 4 0
  crc := getBe32 (data.getD 5 0) (data.getD 6 0) (data.getD 7 0) (data.getD 8 0)

namespace SafetyHeader

def padLen (h : SafetyHeader) : Nat := if h.flags &&& 0x40 ≠ 0 then h.pad.toNat else 0

/-- The checks made before the ciphertext is looked at. -/
def Wellformed (h : SafetyHeader) : Prop :=
  h.magic0 = 0x00 ∧ h.magic1 = 0x07 ∧ h.version = safetyDataVersion ∧ h.flags &&& 0x80 ≠ 0

instance (h : SafetyHeader) : Decidable h.Wellformed :=
  inferInstanceAs (Decidable (_ ∧ _ ∧ _ ∧ _))

end SafetyHeader

/-- The container passes every check up to and including the CRC. -/
def SafetyIntact (data : Bytes) : Prop :=
  safetyDataHdrLen ≤ data.length ∧ (safetyHeaderOf data).Wellformed ∧
    data.length - safetyDataHdrLen ≠ 0 ∧ (data.length - safetyDataHdrLen) % 16 = 0 ∧
    safetyIntegrity (data.drop safetyDataHdrLen) = (safetyHeaderOf data).crc

instance (data : Bytes) : Decidable (SafetyIntact data) :=
  inferInstanceAs (Decidable (_ ∧ _ ∧ _ ∧ _ ∧ _))

private theorem readByte_of_lt {data : Bytes} {i : Nat} (h : i < data.length) :
    readByte data i = .ok (data.getD i 0) := by
  simp [readByte, List.getD, h]

private theorem readSpan_all (data : Bytes) (off : Nat) (h : off ≤ data.length) :
    readSpan data off (data.length - off) = .ok (data.drop off) := by
  rw [readSpan, if_pos (by omega), List.take_of_length_le (by simp)]

/-- **The header checks.** A container that fails one of them is refused with
the IV untouched; any other one goes on to be opened. -/
theorem safetyDecrypt_eq (aes : Aes) (heap : Bool) (data : Bytes) (key iv : Block)
    (outMax : Nat) :
    safetyDecrypt aes heap data key iv outMax =
      if SafetyIntact data then
        safetyOpen aes heap data (safetyHeaderOf data).padLen key iv outMax
      else .ok (none, iv) := by
  unfold safetyDecrypt
  by_cases hLen : data.length < safetyDataHdrLen
  · have : ¬ SafetyIntact data := fun h => absurd h.1 (by omega)
    simp [hLen, this, pure, Except.pure]
  · have hLen' : 9 ≤ data.length := by simpa [safetyDataHdrLen] using hLen
    have hRead : ∀ i, i < 9 → readByte data i = .ok (data.getD i 0) :=
      fun i hi => readByte_of_lt (by omega)
    have hSpan := readSpan_all data safetyDataHdrLen (by omega)
    simp only [hLen, if_false, hRead _ (by omega : 0 < 9), hRead 1 (by omega),
      hRead 2 (by omega), hRead 3 (by omega), hRead 4 (by omega), hRead 5 (by omega),
      hRead 6 (by omega), hRead 7 (by omega), hRead 8 (by omega), hSpan, bind, Except.bind,
      pure, Except.pure]
    have hIntact : SafetyIntact data ↔ (safetyHeaderOf data).Wellformed ∧
        data.length - safetyDataHdrLen ≠ 0 ∧ (data.length - safetyDataHdrLen) % 16 = 0 ∧
        safetyIntegrity (data.drop safetyDataHdrLen) = (safetyHeaderOf data).crc :=
      and_iff_right (by omega)
    rw [if_congr hIntact rfl rfl]
    simp only [SafetyHeader.Wellformed, SafetyHeader.padLen, safetyHeaderOf]
    -- the refusals all return the same pair, so their conditions merge into one
    simp only [← ite_or]
    rw [← ite_not]
    refine if_congr ?_ rfl rfl
    grind

/-! ## Memory safety -/

private theorem hexDump_safe (decrypted : Bytes) (ptLen : Nat) :
    (hexDump decrypted ptLen).Safe := by
  unfold hexDump
  generalize (if ptLen ≤ intMax then min ptLen 32 else ptLen) = count
  dsimp only
  split
  · exact Access.safe_ok _
  · exact Access.safe_scratch

private theorem copyOut_safe {decrypted : Bytes} {ptLen outMax : Nat} (h : ptLen ≤ outMax) :
    (copyOut decrypted ptLen outMax).Safe := by
  rw [copyOut, if_neg (by omega)]
  split
  · exact Access.safe_scratch
  · exact Access.safe_ok _

private theorem safetyOpen_safe (aes : Aes) (heap : Bool) (data : Bytes) (padLen : Nat)
    (key iv : Block) (outMax : Nat) (hLen : safetyDataHdrLen + 16 ≤ data.length) :
    (safetyOpen aes heap data padLen key iv outMax).Safe := by
  have hDebug : readSpan data safetyDataHdrLen 16 = .ok ((data.drop safetyDataHdrLen).take 16) :=
    if_pos hLen
  have hSpan := readSpan_all data safetyDataHdrLen (by omega)
  unfold safetyOpen
  simp only [hDebug, hSpan]
  split
  · exact Access.safe_ok _
  · rename_i hOut
    refine Access.Safe.bind (Access.safe_ok _) fun _ => ?_
    split
    · exact Access.safe_ok _
    · refine Access.Safe.bind (Access.safe_ok _) fun _ => ?_
      split
      · exact Access.safe_ok _
      · refine Access.Safe.bind (hexDump_safe _ _) fun _ => ?_
        split
        · exact Access.safe_ok _
        · exact Access.Safe.bind (copyOut_safe (by omega)) fun _ => Access.safe_ok _

/-- **No access outside the given buffers.** Whatever the bytes of `data`,
`safety_decrypt` never reads past `data_len` and never writes past `out_max`. -/
theorem safetyDecrypt_safe (aes : Aes) (heap : Bool) (data : Bytes) (key iv : Block)
    (outMax : Nat) : (safetyDecrypt aes heap data key iv outMax).Safe := by
  rw [safetyDecrypt_eq]
  split
  · rename_i hIntact
    obtain ⟨_, -, hNe, hMod, -⟩ := hIntact
    exact safetyOpen_safe aes heap data _ key iv outMax (by omega)
  · exact Access.safe_ok _

/-! ## The result as a function of the input

Within the sizes an `int` can hold (for `out_max` only where the padding
length is larger than the ciphertext) nothing faults, and the whole function is
one case distinction: refused before the cipher runs (the IV stays), refused
by the zero padding (the IV has moved), or opened.
-/

/-- Refused before the cipher runs. -/
def RefusedEarly (heap : Bool) (data : Bytes) (outMax : Nat) : Prop :=
  ¬ SafetyIntact data ∨
    data.length - safetyDataHdrLen < (safetyHeaderOf data).padLen ∨
    outMax < data.length - safetyDataHdrLen - (safetyHeaderOf data).padLen ∨ heap = false

instance (heap : Bool) (data : Bytes) (outMax : Nat) : Decidable (RefusedEarly heap data outMax) :=
  inferInstanceAs (Decidable (_ ∨ _ ∨ _ ∨ _))

/-- The ciphertext blocks of a container. -/
def ciphertextBlocks (data : Bytes) : List Block :=
  toBlocks ((data.length - safetyDataHdrLen) / 16) (data.drop safetyDataHdrLen)

def safetyResult (aes : Aes) (heap : Bool) (data : Bytes) (key iv : Block) (outMax : Nat) :
    Option Bytes × Block :=
  if RefusedEarly heap data outMax then (none, iv)
  else
    let ptLen := data.length - safetyDataHdrLen - (safetyHeaderOf data).padLen
    let r := Cbc.decrypt (aes.mode key) iv (ciphertextBlocks data)
    if ((ofBlocks r.1).drop ptLen).any (· ≠ 0) then (none, r.2)
    else (some ((ofBlocks r.1).take ptLen), r.2)

/-- A padding length larger than the ciphertext underflows past `INT_MAX`. -/
private theorem sizeSub_gt_iff (ctLen padLen outMax : Nat) (hCt : ctLen ≤ intMax)
    (hPad : padLen < 256) (hOut : padLen ≤ ctLen ∨ outMax ≤ intMax) :
    sizeSub ctLen padLen > outMax ↔ ctLen < padLen ∨ outMax < ctLen - padLen := by
  unfold sizeSub intMax at *
  omega

private theorem sizeSub_eq {ctLen padLen : Nat} (hCt : ctLen ≤ intMax) (h : padLen ≤ ctLen) :
    sizeSub ctLen padLen = ctLen - padLen := by
  unfold sizeSub intMax at *
  omega

theorem SafetyHeader.padLen_lt (h : SafetyHeader) : h.padLen < 256 := by
  unfold SafetyHeader.padLen
  split
  · exact h.pad.toNat_lt
  · omega

/-- **`safety_decrypt` in closed form.** -/
theorem safetyDecrypt_eq_result (aes : Aes) (heap : Bool) {data : Bytes} (key iv : Block)
    {outMax : Nat} (hData : data.length ≤ intMax)
    (hOut : (safetyHeaderOf data).padLen ≤ data.length - safetyDataHdrLen ∨ outMax ≤ intMax) :
    safetyDecrypt aes heap data key iv outMax = .ok (safetyResult aes heap data key iv outMax) := by
  rw [safetyDecrypt_eq, safetyResult]
  by_cases hIntact : SafetyIntact data
  swap
  · have hEarly : RefusedEarly heap data outMax := Or.inl hIntact
    rw [if_neg hIntact, if_pos hEarly]
  rw [if_pos hIntact]
  obtain ⟨hHdr, -, hNe, hMod, -⟩ := id hIntact
  set ctLen := data.length - safetyDataHdrLen with hCtLen
  set padLen := (safetyHeaderOf data).padLen with hPadLen
  have hDebug : readSpan data safetyDataHdrLen 16 = .ok ((data.drop safetyDataHdrLen).take 16) :=
    if_pos (by omega)
  have hSpan : readSpan data safetyDataHdrLen ctLen = .ok (data.drop safetyDataHdrLen) :=
    readSpan_all data safetyDataHdrLen (by omega)
  have hGt := sizeSub_gt_iff ctLen padLen outMax (by omega) (SafetyHeader.padLen_lt _) hOut
  unfold safetyOpen
  simp only [hDebug, ← hCtLen, hSpan]
  by_cases hRoom : ctLen < padLen ∨ outMax < ctLen - padLen
  · have hEarly : RefusedEarly heap data outMax := Or.inr (hRoom.imp id Or.inl)
    rw [if_pos (hGt.mpr hRoom), if_pos hEarly]
    rfl
  · rw [if_neg (fun h => hRoom (hGt.mp h))]
    cases heap with
    | false =>
      have hEarly : RefusedEarly false data outMax := Or.inr (Or.inr (Or.inr rfl))
      rw [if_pos hEarly]
      rfl
    | true =>
      have hEarly : ¬ RefusedEarly true data outMax := by
        rintro (h | h | h | h)
        · exact h hIntact
        · exact hRoom (Or.inl h)
        · exact hRoom (Or.inr h)
        · cases h
      rw [if_neg hEarly, sizeSub_eq (by omega) (by omega)]
      have hLen : (data.drop safetyDataHdrLen).length = ctLen := by rw [List.length_drop]
      have hCbc : aesCbcDecrypt aes key iv (data.drop safetyDataHdrLen) =
          some (ofBlocks (Cbc.decrypt (aes.mode key) iv (ciphertextBlocks data)).1,
            (Cbc.decrypt (aes.mode key) iv (ciphertextBlocks data)).2) := by
        rw [aesCbcDecrypt, hLen, if_neg (by omega)]
        rfl
      have hDec : (ofBlocks (Cbc.decrypt (aes.mode key) iv (ciphertextBlocks data)).1).length
          = ctLen := by
        rw [length_ofBlocks, Cbc.length_decrypt, ciphertextBlocks, length_toBlocks]
        omega
      have hDump : hexDump (ofBlocks (Cbc.decrypt (aes.mode key) iv (ciphertextBlocks data)).1)
          (ctLen - padLen) = .ok () := by
        rw [hexDump, if_pos (by omega : ctLen - padLen ≤ intMax)]
        exact if_pos (by omega)
      have hCopy : copyOut (ofBlocks (Cbc.decrypt (aes.mode key) iv (ciphertextBlocks data)).1)
          (ctLen - padLen) outMax = .ok ((ofBlocks (Cbc.decrypt (aes.mode key) iv
            (ciphertextBlocks data)).1).take (ctLen - padLen)) := by
        rw [copyOut, if_neg (by omega), if_neg (by omega)]
      simp only [Bool.not_true, Bool.false_eq_true, if_false, bind, Except.bind, pure, Except.pure,
        hCbc, hDump, hCopy]
      split <;> rfl

/-- The plaintext handed out fits the caller's buffer. -/
theorem safetyResult_length_le {aes : Aes} {heap : Bool} {data : Bytes} {key iv : Block}
    {outMax : Nat} {pt : Bytes} (h : (safetyResult aes heap data key iv outMax).1 = some pt) :
    pt.length ≤ outMax := by
  unfold safetyResult at h
  split at h
  · cases h
  · rename_i hEarly
    dsimp only at h
    split at h
    · cases h
    · obtain rfl := Option.some.inj h
      have : ¬ outMax < _ := fun hlt => hEarly (Or.inr (Or.inr (Or.inl hlt)))
      simp only [List.length_take]
      omega

/-- **What a refusal does to the IV**: nothing, unless it is the zero padding
that is wrong; then the IV is the last block of the refused ciphertext. -/
theorem safetyResult_refused {aes : Aes} {heap : Bool} {data : Bytes} {key iv : Block}
    {outMax : Nat} (h : (safetyResult aes heap data key iv outMax).1 = none) :
    (safetyResult aes heap data key iv outMax).2 =
      if RefusedEarly heap data outMax then iv else (ciphertextBlocks data).getLastD iv := by
  unfold safetyResult at h ⊢
  split
  · rfl
  · rename_i hEarly
    rw [if_neg hEarly] at h
    dsimp only at h ⊢
    split at h
    · rename_i hPad
      rw [if_pos hPad]
      exact Cbc.decrypt_snd ..
    · cases h

/-! ## One message -/

theorem safetyHeaderOf_append (padLen : Nat) (crc : UInt32) (ct : Bytes) :
    safetyHeaderOf (safetyHeader padLen crc ++ ct) =
      { magic0 := 0x00, magic1 := 0x07, version := safetyDataVersion, flags := safetyDataFlags,
        pad := UInt8.ofNat padLen, crc := crc } := by
  simp [safetyHeaderOf, safetyHeader, putBe32, getBe32_putBe32]

end EspMiplay.Miplay
