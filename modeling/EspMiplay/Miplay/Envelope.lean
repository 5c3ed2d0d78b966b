import EspMiplay.Miplay.Control

/-!
# The envelope of the safety handshake

`safety_envelope_encode` writes the length of the payload in one byte, where its
own comment has four. Both senders accept 2048 bytes. The peer, and the
SafetyAuthAck handler on this side, read the one byte back
(`safetyEnvelopeSplit`), and so much of the payload.

## Results

* `sendPlainEnvelope_accepted`, `sendEncryptedEnvelope_accepted` — what is sent
  for an accepted payload is its envelope.
* `safetyEnvelopeSplit_envelope` — how much of the payload is read back.
* `safetyEnvelope_roundtrip_iff` — all of it exactly when its length fits a byte.
* `peerAck_isSome`               — the handler parses what can be split.
-/

namespace EspMiplay.Miplay

/-- An envelope, taken apart. -/
structure SafetyEnvelope where
  tag : Bytes
  /-- four bytes LE -/
  valueType : Bytes
  data : Bytes
  deriving DecidableEq

/-- The split of the SafetyAuthAck handler: tagLen, tag, valueType, dataLen, data. -/
def safetyEnvelopeSplit (plaintext : Bytes) : Option SafetyEnvelope :=
  let tagLen := plaintext.getD 0 0
  if tagLen ≠ 3 ∨ plaintext.length < 1 + 3 + 4 + 1 then none
  else
    let jsonLen := (plaintext.getD 8 0).toNat
    if jsonLen > plaintext.length - 9 then none
    else
      some
        { tag := (plaintext.drop 1).take 3
          valueType := (plaintext.drop 4).take 4
          data := (plaintext.drop 9).take jsonLen }

def safetyTag (isAck : Bool) : Bytes := if isAck then ascii "ack" else ascii "cmd"

/-- The envelope of a payload, when there is room for it. -/
def safetyEnvelope (isAck : Bool) (payload : Bytes) : Bytes :=
  3 :: safetyTag isAck ++ [safetyValueType, 0, 0, 0, UInt8.ofNat payload.length] ++ payload

theorem safetyEnvelopeEncode_fits {isAck : Bool} {payload : Bytes} {outMax : Nat}
    (hFits : 9 + payload.length ≤ outMax) :
    safetyEnvelopeEncode isAck payload outMax = some (safetyEnvelope isAck payload) := by
  have hRoom : ¬1 + 3 + 4 + 1 + payload.length > outMax := by omega
  rw [safetyEnvelopeEncode, if_neg hRoom]
  rfl

-- ---------------------------------------------------------------------------
-- What is sent
-- ---------------------------------------------------------------------------

section Send

variable (env : Env) (who : Owner) (sock : Int) (cmd seq : UInt16) {payload : Bytes}

/-- The buffer is allocated for the payload, and takes it. -/
theorem sendPlainEnvelope_accepted (hAccepted : payload.length ≤ 2048) (w : World)
    (hHeap : env.heap w.tick = true) :
    (sendPlainEnvelope env who sock cmd seq payload).run w =
      (miplaySendCmd env who sock cmd seq (safetyEnvelope true payload)).run
        { w with tick := w.tick + 1 } := by
  have hSmall : ¬payload.length > 2048 := Nat.not_lt.mpr hAccepted
  simp only [sendPlainEnvelope, if_neg hSmall, run_bind, run_oracle, hHeap, Bool.not_true,
    Bool.false_eq_true, if_false]
  rw [safetyEnvelopeEncode_fits (by omega)]

/-- `s_envelope_buf` takes every payload that is accepted. -/
theorem sendEncryptedEnvelope_accepted (hAccepted : payload.length ≤ 2048) (isAck : Bool) :
    sendEncryptedEnvelope env who sock cmd seq isAck payload =
      sealAndSend env who sock cmd seq (safetyEnvelope isAck payload) false := by
  have hSmall : ¬payload.length > 2048 := Nat.not_lt.mpr hAccepted
  rw [sendEncryptedEnvelope, if_neg hSmall, safetyEnvelopeEncode_fits (by omega)]

end Send

-- ---------------------------------------------------------------------------
-- What is read back
-- ---------------------------------------------------------------------------

/-- The data is cut at the length that the one byte can say. -/
theorem safetyEnvelopeSplit_envelope (isAck : Bool) (payload : Bytes) :
    safetyEnvelopeSplit (safetyEnvelope isAck payload) =
      some
        { tag := safetyTag isAck
          valueType := [safetyValueType, 0, 0, 0]
          data := payload.take (payload.length % 256) } := by
  obtain ⟨a, b, c, hTag⟩ : ∃ a b c, safetyTag isAck = [a, b, c] := by
    cases isAck
    · exact ⟨_, _, _, rfl⟩
    · exact ⟨_, _, _, rfl⟩
  have hBytes : safetyEnvelope isAck payload =
      [3, a, b, c, safetyValueType, 0, 0, 0, UInt8.ofNat payload.length] ++ payload := by
    rw [safetyEnvelope, hTag]
    rfl
  have hCount : (UInt8.ofNat payload.length).toNat = payload.length % 256 := by simp
  have hEnough : ¬payload.length % 256 > payload.length :=
    Nat.not_lt.mpr (Nat.mod_le _ _)
  rw [hBytes, hTag, safetyEnvelopeSplit]
  simp [hCount, hEnough]

/-- **Round trip.** Of the payloads that are accepted, both senders' envelopes give back
exactly those that are shorter than 256 bytes. -/
theorem safetyEnvelope_roundtrip_iff (payload : Bytes) (hAccepted : payload.length ≤ 2048)
    (isAck : Bool) :
    (((safetyEnvelopeEncode true payload (1 + 3 + 4 + 1 + payload.length)).bind
          safetyEnvelopeSplit).map SafetyEnvelope.data = some payload ↔ payload.length < 256) ∧
      (((safetyEnvelopeEncode isAck payload (9 + 2048)).bind
          safetyEnvelopeSplit).map SafetyEnvelope.data = some payload ↔ payload.length < 256) := by
  have hTaken : payload.take (payload.length % 256) = payload ↔ payload.length < 256 := by
    rw [List.take_eq_self_iff]
    omega
  constructor
  · rw [safetyEnvelopeEncode_fits (by omega), Option.bind_some, safetyEnvelopeSplit_envelope,
      Option.map_some, Option.some.injEq, hTaken]
  · rw [safetyEnvelopeEncode_fits (by omega), Option.bind_some, safetyEnvelopeSplit_envelope,
      Option.map_some, Option.some.injEq, hTaken]

/-- The challenge of today's handshake comes back. -/
theorem safetyEnvelope_roundtrip_short :
    (((safetyEnvelopeEncode true (ascii "abc") (1 + 3 + 4 + 1 + (ascii "abc").length)).bind
          safetyEnvelopeSplit).map SafetyEnvelope.data = some (ascii "abc") ↔
        (ascii "abc").length < 256) ∧
      (((safetyEnvelopeEncode false (ascii "abc") (9 + 2048)).bind
          safetyEnvelopeSplit).map SafetyEnvelope.data = some (ascii "abc") ↔
        (ascii "abc").length < 256) :=
  safetyEnvelope_roundtrip_iff (ascii "abc") (by decide) false

/-- 256 blanks come back as nothing. -/
theorem safetyEnvelope_truncates :
    ¬∀ payload : Bytes, payload.length ≤ 2048 → ∀ isAck,
      ((safetyEnvelopeEncode true payload (1 + 3 + 4 + 1 + payload.length)).bind
          safetyEnvelopeSplit).map SafetyEnvelope.data = some payload ∧
        ((safetyEnvelopeEncode isAck payload (9 + 2048)).bind
          safetyEnvelopeSplit).map SafetyEnvelope.data = some payload := by
  intro hAll
  have hBlanks := (hAll (List.replicate 256 0x20) (by rw [List.length_replicate]; decide) true).1
  revert hBlanks
  decide +kernel

/-- The handler parses an envelope exactly when it can be split; it looks for the ack
behind the header, and not only in the data. -/
theorem peerAck_isSome (plaintext behind : Bytes) :
    (peerAck plaintext behind).isSome = (safetyEnvelopeSplit plaintext).isSome := by
  by_cases hShort : plaintext.length < 9
  · rw [peerAck, safetyEnvelopeSplit, if_pos (.inr hShort), if_pos (.inr hShort)]
    rfl
  obtain ⟨first, rest, rfl⟩ := List.exists_cons_of_ne_nil
    (fun hNil : plaintext = [] => hShort (by simp [hNil]))
  rw [peerAck, safetyEnvelopeSplit]
  simp only [List.cons_append, List.getD_cons_zero]
  split
  · rfl
  · split
    · rfl
    · split
      · rfl
      · rfl

end EspMiplay.Miplay
