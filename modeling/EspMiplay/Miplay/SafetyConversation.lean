import EspMiplay.Miplay.SafetyData

/-!
# A SafetyData conversation

Sender and receiver of one direction of the control channel: the outputs of
successive `safety_encrypt` calls are handed to successive `safety_decrypt`
calls under the same key. The two IVs are the only state; they start equal.

- `safetyDecrypt_encrypt`: one message comes back and the IVs stay equal.
- `converse_forall`: so does every message of any sequence.
-/

namespace EspMiplay.Miplay

/-- `MIPLAY_MAX_FRAME_PAYLOAD` -/
def miplayMaxFramePayload : Nat := 256 * 1024

/-- The number of zero bytes `safety_encrypt` appends. -/
def padLenOf (ptLen : Nat) : Nat := 16 - ptLen % 16

/-- The length of the container of a plaintext. -/
def safetyLen (ptLen : Nat) : Nat := safetyDataHdrLen + 16 * (ptLen / 16 + 1)

theorem safetyLen_eq (ptLen : Nat) : safetyLen ptLen = safetyDataHdrLen + (ptLen + padLenOf ptLen) := by
  unfold safetyLen padLenOf
  omega

/-- A container that was produced: what is in it, and that it fitted. -/
theorem safetyEncrypt_eq_some {aes : Aes} {heap : Bool} {pt out : Bytes} {key iv iv' : Block}
    {outMax : Nat} (h : safetyEncrypt aes heap pt key iv outMax = (some out, iv')) :
    safetyLen pt.length ≤ outMax ∧
      ∃ ct, out = safetyHeader (padLenOf pt.length) (safetyIntegrity ct) ++ ct ∧
        aesCbcEncrypt aes key iv (pt ++ List.replicate (padLenOf pt.length) 0) = some (ct, iv') := by
  rw [safetyLen_eq]
  unfold safetyEncrypt at h
  dsimp only at h
  split at h
  · cases h
  · rename_i hFit
    refine ⟨not_lt.mp hFit, ?_⟩
    split at h
    · cases h
    · split at h
      · cases h
      · rename_i ct iv₁ hEnc
        obtain ⟨rfl, rfl⟩ : _ = out ∧ iv₁ = iv' := by simpa using h
        exact ⟨ct, rfl, hEnc⟩

/-- The padded length is a multiple of the block length, so with room and memory
there always is a container. -/
theorem safetyEncrypt_produces (aes : Aes) (pt : Bytes) (key iv : Block) {outMax : Nat}
    (hFit : safetyLen pt.length ≤ outMax) :
    ∃ out iv', safetyEncrypt aes true pt key iv outMax = (some out, iv') := by
  rw [safetyLen_eq, padLenOf] at hFit
  have hMod : (pt ++ List.replicate (16 - pt.length % 16) (0 : UInt8)).length % 16 = 0 := by
    simp only [List.length_append, List.length_replicate]
    omega
  have hEnc : ∃ r, aesCbcEncrypt aes key iv
      (pt ++ List.replicate (16 - pt.length % 16) (0 : UInt8)) = some r := by
    rw [aesCbcEncrypt, if_neg (by simpa using hMod)]
    exact ⟨_, rfl⟩
  obtain ⟨⟨ct, iv'⟩, hEnc⟩ := hEnc
  simp only [safetyEncrypt, hEnc, if_neg (not_lt.mpr hFit), Bool.not_true, Bool.false_eq_true,
    if_false]
  exact ⟨_, _, rfl⟩

/-- Every container has `9 + 16 * (len / 16 + 1)` bytes and stays within `out_max`. -/
theorem length_safetyEncrypt {aes : Aes} {heap : Bool} {pt out : Bytes} {key iv : Block}
    {outMax : Nat} (h : (safetyEncrypt aes heap pt key iv outMax).1 = some out) :
    out.length = safetyLen pt.length ∧ out.length ≤ outMax := by
  obtain ⟨hFit, ct, rfl, hEnc⟩ := safetyEncrypt_eq_some (Prod.ext h rfl)
  have hCt := (aesCbcDecrypt_encrypt aes hEnc).1
  have hLen : (safetyHeader (padLenOf pt.length) (safetyIntegrity ct) ++ ct).length
      = safetyLen pt.length := by
    rw [safetyLen_eq, List.length_append, hCt, List.length_append, List.length_replicate]
    rfl
  exact ⟨hLen, hLen.trans_le hFit⟩

/-- **One message.** The receiver that starts from the sender's IV reads the
plaintext back and ends on the sender's IV. -/
theorem safetyDecrypt_encrypt {aes : Aes} {pt out : Bytes} {key iv iv' : Block}
    {encMax decMax : Nat} (hSmall : pt.length ≤ miplayMaxFramePayload)
    (hRoom : pt.length ≤ decMax)
    (h : safetyEncrypt aes true pt key iv encMax = (some out, iv')) :
    safetyDecrypt aes true out key iv decMax = .ok (some pt, iv') := by
  obtain ⟨-, ct, rfl, hEnc⟩ := safetyEncrypt_eq_some h
  obtain ⟨hCt, hBack⟩ := aesCbcDecrypt_encrypt aes hEnc
  obtain ⟨hMod, hPlain, hIv⟩ := aesCbcDecrypt_eq_some hBack
  set pad := padLenOf pt.length with hPad
  have hPadLe : 1 ≤ pad ∧ pad ≤ 16 := by
    rw [hPad, padLenOf]
    omega
  have hCtLen : ct.length = pt.length + pad := by
    rw [hCt, List.length_append, List.length_replicate]
  have hHdr := safetyHeaderOf_append pad (safetyIntegrity ct) ct
  set data := safetyHeader pad (safetyIntegrity ct) ++ ct with hData
  have hDrop : data.drop safetyDataHdrLen = ct := rfl
  have hLen : data.length - safetyDataHdrLen = ct.length := by
    rw [← List.length_drop, hDrop]
  have hPadField : (safetyHeaderOf data).padLen = pad := by
    have hFlag : safetyDataFlags &&& 0x40 ≠ 0 := by decide
    rw [hHdr, SafetyHeader.padLen, if_pos hFlag]
    exact UInt8.toNat_ofNat_of_lt' (by unfold UInt8.size; omega)
  have hDataLen : data.length = safetyDataHdrLen + ct.length := by
    rw [hData, List.length_append]
    rfl
  have hIntact : SafetyIntact data := by
    refine ⟨by omega, ?_, by omega, by rw [hLen]; exact hMod, by rw [hDrop, hHdr]⟩
    rw [hHdr]
    exact ⟨rfl, rfl, rfl, show safetyDataFlags &&& 0x80 ≠ 0 by decide⟩
  have hEarly : ¬ RefusedEarly true data decMax := by
    rintro (hBad | hBad | hBad | hBad)
    · exact hBad hIntact
    · rw [hPadField] at hBad
      omega
    · rw [hPadField] at hBad
      omega
    · cases hBad
  have hSize : data.length ≤ intMax := by
    unfold miplayMaxFramePayload at hSmall
    unfold safetyDataHdrLen at hDataLen
    unfold intMax
    omega
  have hPadFits : (safetyHeaderOf data).padLen ≤ data.length - safetyDataHdrLen := by
    rw [hPadField]
    omega
  rw [safetyDecrypt_eq_result aes true key iv hSize (Or.inl hPadFits), safetyResult, if_neg hEarly]
  have hPt : data.length - safetyDataHdrLen - (safetyHeaderOf data).padLen = pt.length := by
    rw [hPadField]
    omega
  simp only [ciphertextBlocks, hLen, hDrop, hPlain, hIv, hPadField,
    show ct.length - pad = pt.length by omega, List.drop_left, List.take_left]
  simp

/-! ## A conversation -/

/-- One message of a conversation, with buffers that hold it: `encCap` bytes to
encrypt into and `decCap` bytes to decrypt into. -/
structure Message where
  plaintext : Bytes
  encCap : Nat
  decCap : Nat
  plaintext_le : plaintext.length ≤ miplayMaxFramePayload
  encCap_le : safetyLen plaintext.length ≤ encCap
  decCap_le : plaintext.length ≤ decCap

/-- What one message leaves behind. -/
structure Exchange where
  container : Option Bytes
  received : Option Bytes
  encryptIv : Block
  decryptIv : Block

/-- One `safety_encrypt` call and, on its output, one `safety_decrypt` call. -/
def exchange (aes : Aes) (key encryptIv decryptIv : Block) (m : Message) : Access Exchange :=
  match safetyEncrypt aes true m.plaintext key encryptIv m.encCap with
  | (none, iv) => .ok ⟨none, none, iv, decryptIv⟩
  | (some container, iv) => do
    let (received, iv') ← safetyDecrypt aes true container key decryptIv m.decCap
    return ⟨some container, received, iv, iv'⟩

def converse (aes : Aes) (key : Block) :
    Block → Block → List Message → Access (List Exchange)
  | _, _, [] => .ok []
  | encryptIv, decryptIv, m :: ms => do
    let e ← exchange aes key encryptIv decryptIv m
    let es ← converse aes key e.encryptIv e.decryptIv ms
    return e :: es

/-- The plaintext came back, the container has the right length and fitted, and
the two sides are in step. -/
def Exchange.Faithful (m : Message) (e : Exchange) : Prop :=
  e.received = some m.plaintext ∧ e.encryptIv = e.decryptIv ∧
    ∃ c, e.container = some c ∧ c.length = safetyLen m.plaintext.length ∧ c.length ≤ m.encCap

theorem exchange_faithful (aes : Aes) (key iv : Block) (m : Message) :
    ∃ e, exchange aes key iv iv m = .ok e ∧ e.Faithful m := by
  obtain ⟨out, iv', hEnc⟩ := safetyEncrypt_produces aes m.plaintext key iv m.encCap_le
  have hDec := safetyDecrypt_encrypt m.plaintext_le m.decCap_le hEnc
  have hLen := length_safetyEncrypt (congrArg Prod.fst hEnc)
  refine ⟨⟨some out, some m.plaintext, iv', iv'⟩, ?_, rfl, rfl, out, rfl, hLen⟩
  simp [exchange, hEnc, hDec, bind, Except.bind, pure, Except.pure]

/-- **Every message of a conversation** comes back, in order, and the IVs agree
after each of them. -/
theorem converse_faithful (aes : Aes) (key iv : Block) (ms : List Message) :
    ∃ es, converse aes key iv iv ms = .ok es ∧
      List.Forall₂ (fun m e => Exchange.Faithful m e) ms es := by
  induction ms generalizing iv with
  | nil => exact ⟨[], rfl, .nil⟩
  | cons m ms ih =>
    obtain ⟨e, hStep, hFaithful⟩ := exchange_faithful aes key iv m
    obtain ⟨es, hRest, hAll⟩ := ih e.encryptIv
    refine ⟨e :: es, ?_, .cons hFaithful hAll⟩
    have hSync : e.decryptIv = e.encryptIv := hFaithful.2.1.symm
    simp [converse, hStep, hSync, hRest, bind, Except.bind, pure, Except.pure]

/-- **SafetyData conversations and the bounds of the two functions.**

For every block permutation, key, common IV and sequence of messages, the
receiver gets exactly the plaintexts and the IVs agree after every message;
whatever `safety_encrypt` puts out has `9 + 16 * (len / 16 + 1)` bytes and at
most `out_max`; and on any bytes at all `safety_decrypt` neither reads past
`data_len` nor writes past `out_max`. -/
theorem safetyData_conversation (aes : Aes) (key iv : Block) :
    (∀ ms : List Message, ∃ es, converse aes key iv iv ms = .ok es ∧
      List.Forall₂ (fun m e => Exchange.Faithful m e) ms es) ∧
    (∀ heap pt outMax, ∀ out ∈ (safetyEncrypt aes heap pt key iv outMax).1,
      out.length = 9 + 16 * (pt.length / 16 + 1) ∧ out.length ≤ outMax) ∧
    (∀ heap data outMax, (safetyDecrypt aes heap data key iv outMax).Safe) := by
  refine ⟨fun ms => converse_faithful aes key iv ms, ?_, ?_⟩
  · intro heap pt outMax out hOut
    exact length_safetyEncrypt hOut
  · intro heap data outMax
    exact safetyDecrypt_safe aes heap data key iv outMax

/-- A two-message conversation, the second message empty, under the identity
permutation, and the container of its first message. -/
theorem safetyData_conversation_abc :
    (∃ es, converse (fun _ => Equiv.refl Block) Block.zero Block.zero Block.zero
        [⟨ascii "abc", 25, 3, by decide, by decide, by decide⟩,
          ⟨[], 25, 0, by decide, by decide, by decide⟩] = .ok es ∧ es.length = 2) ∧
      ∃ out, out ∈ (safetyEncrypt (fun _ => Equiv.refl Block) true (ascii "abc") Block.zero
        Block.zero 25).1 ∧ out.length = 25 := by
  have hAll := safetyData_conversation (fun _ => Equiv.refl Block) Block.zero Block.zero
  refine ⟨?_, ?_⟩
  · obtain ⟨es, hRun, hEs⟩ := hAll.1 _
    exact ⟨es, hRun, hEs.length_eq.symm⟩
  · obtain ⟨out, iv', hEnc⟩ := safetyEncrypt_produces (fun _ => Equiv.refl Block) (ascii "abc")
      Block.zero Block.zero (by decide : safetyLen (ascii "abc").length ≤ 25)
    have hMem : out ∈ (safetyEncrypt (fun _ => Equiv.refl Block) true (ascii "abc") Block.zero
        Block.zero 25).1 := by rw [hEnc]; rfl
    exact ⟨out, hMem, (hAll.2.1 true _ 25 out hMem).1⟩

end EspMiplay.Miplay
