import EspMiplay.Miplay.TsMedia

/-!
# The private data of a PES packet

A PES header holds up to six optional fields, then the extension with the
private data, then stuffing, and `PES_header_data_length` counts all of it.
`pes_extract_iv` jumps over `PES_header_data_length` to get behind the optional
fields, and so lands behind the whole header: it takes the first byte of the
payload for the flags of the extension, and the next sixteen for the IV. These
are bytes that `decrypt_ts_media` goes on to decrypt.

## Results

* `PesPacket.extractIv_eq`   — what `pes_extract_iv` finds, for every header.
* `PesPacket.found_overlaps` — what it finds is decrypted afterwards.
* `PesPacket.extracts_iff`   — the private data is extracted, and from outside of
  what is decrypted, exactly when there is none and the payload does not look
  like it.
-/

namespace EspMiplay.Miplay

-- ---------------------------------------------------------------------------
-- PES packets of the standard
-- ---------------------------------------------------------------------------

/-- Length of the optional fields in front of the extension: PTS and DTS, ESCR,
ES rate, trick mode, copy info, CRC. -/
def optionalLength (flags : UInt8) : Nat :=
  (if flags &&& 0xC0 = 0x80 then 5 else if flags &&& 0xC0 = 0xC0 then 10 else 0) +
    (if flags &&& 0x20 = 0 then 0 else 6) + (if flags &&& 0x10 = 0 then 0 else 3) +
    (if flags &&& 0x08 = 0 then 0 else 1) + (if flags &&& 0x04 = 0 then 0 else 1) +
    (if flags &&& 0x02 = 0 then 0 else 2)

structure PesExtension where
  flags : UInt8
  privateData : Option Block
  /-- pack header, sequence counter, P-STD buffer, second extension -/
  rest : Bytes
  hPrivate : flags &&& 0x80 ≠ 0 ↔ privateData.isSome

def PesExtension.bytes (x : PesExtension) : Bytes :=
  x.flags :: x.privateData.elim [] List.Vector.toList ++ x.rest

/-- An audio PES packet. -/
structure PesPacket where
  /-- marker, scrambling and priority bits -/
  lead : UInt8
  flags : UInt8
  fields : Bytes
  extension : Option PesExtension
  stuffing : Bytes
  payload : Bytes
  /-- whether `PES_packet_length` is given -/
  bounded : Bool
  hExtension : flags &&& 0x01 ≠ 0 ↔ extension.isSome
  hFields : fields.length = optionalLength flags
  hHeader : fields.length + (extension.elim 0 fun x => x.bytes.length) + stuffing.length ≤ 255
  hBounded : bounded = true →
    3 + (fields.length + (extension.elim 0 fun x => x.bytes.length) + stuffing.length) +
      payload.length < 65536

namespace PesPacket

/-- `PES_header_data_length` -/
def dataLength (p : PesPacket) : Nat :=
  p.fields.length + (p.extension.elim 0 fun x => x.bytes.length) + p.stuffing.length

/-- `PES_packet_length` -/
def packetLength (p : PesPacket) : Nat :=
  if p.bounded then 3 + p.dataLength + p.payload.length else 0

def header (p : PesPacket) : Bytes :=
  [0, 0, 1, 0xC0] ++ putBe16 (UInt16.ofNat p.packetLength) ++
    [p.lead, p.flags, UInt8.ofNat p.dataLength] ++ p.fields ++
    p.extension.elim [] PesExtension.bytes ++ p.stuffing

def bytes (p : PesPacket) : Bytes := p.header ++ p.payload

/-- The private data, as its flag says. -/
def privateData (p : PesPacket) : Option Block := p.extension.bind PesExtension.privateData

-- ---------------------------------------------------------------------------
-- What `pes_extract_iv` finds
-- ---------------------------------------------------------------------------

variable (p : PesPacket) {k : Nat}

theorem length_header : p.header.length = 9 + p.dataLength := by
  cases hExtension : p.extension with
  | none =>
    simp only [header, dataLength, hExtension, Option.elim_none, List.length_append,
      List.length_cons, List.length_nil, length_putBe16]
    omega
  | some x =>
    simp only [header, dataLength, hExtension, Option.elim_some, List.length_append,
      List.length_cons, List.length_nil, length_putBe16]
    omega

theorem length_bytes : p.bytes.length = p.header.length + p.payload.length :=
  List.length_append

theorem dataLength_lt : p.dataLength < 256 := by
  have hHeader := p.hHeader
  rw [dataLength]
  omega

theorem packetLength_lt : p.packetLength < 65536 := by
  rw [packetLength]
  split
  · exact p.hBounded ‹_›
  · decide

/-- The bytes in front of the optional fields. -/
theorem take_bytes (hk : 9 ≤ k) :
    ∃ tail, p.bytes.take k =
      [0, 0, 1, 0xC0] ++ putBe16 (UInt16.ofNat p.packetLength) ++
        [p.lead, p.flags, UInt8.ofNat p.dataLength] ++ tail := by
  obtain ⟨j, rfl⟩ := Nat.exists_eq_add_of_le' hk
  exact ⟨_, rfl⟩

/-- `PES_header_data_length` leads behind the header. -/
theorem headerEnd_eq (hk : 9 ≤ k) : 9 + ((p.bytes.take k).getD 8 0).toNat = p.header.length := by
  obtain ⟨tail, hTail⟩ := p.take_bytes hk
  rw [length_header]
  simp [hTail, putBe16, p.dataLength_lt]

/-- Behind the header, `k` bytes of the packet at hand, something looks like an extension
with private data. -/
def Found (k : Nat) : Prop :=
  p.flags &&& 0x01 ≠ 0 ∧ p.header.length + 17 ≤ (p.bytes.take k).length ∧
    p.payload.getD 0 0 &&& 0x80 ≠ 0

instance : Decidable (p.Found k) := inferInstanceAs (Decidable (_ ∧ _ ∧ _))

/-- The IV is taken from the payload. -/
theorem extractIv_eq :
    pesExtractIv (p.bytes.take k) =
      if p.Found k then some (Block.ofBytes (p.payload.drop 1)) else none := by
  have hHeader := p.length_header
  by_cases hShort : (p.bytes.take k).length < 9
  · rw [pesExtractIv, if_pos hShort, if_neg fun hFound => by have := hFound.2.1; omega]
  have hNine : 9 ≤ k := by
    rw [List.length_take] at hShort
    omega
  obtain ⟨tail, hTail⟩ := p.take_bytes hNine
  have hFlags : (p.bytes.take k).getD 7 0 = p.flags := by simp [hTail, putBe16]
  simp only [pesExtractIv, if_neg hShort, hFlags, p.headerEnd_eq hNine]
  by_cases hExtension : p.flags &&& 0x01 = 0
  · rw [if_pos hExtension, if_neg fun hFound => hFound.1 hExtension]
  rw [if_neg hExtension]
  by_cases hRoom : p.header.length + 17 ≤ (p.bytes.take k).length
  · have hPayload := p.length_bytes
    have hLess := hRoom
    rw [List.length_take] at hLess
    have hFirst : (p.bytes.take k).getD p.header.length 0 = p.payload.getD 0 0 := by
      rw [List.getD_eq_getElem?_getD, List.getElem?_take_of_lt (by omega), bytes,
        List.getElem?_append_right (le_refl _), Nat.sub_self, ← List.getD_eq_getElem?_getD]
    have hIv : Block.ofBytes ((p.bytes.take k).drop (p.header.length + 1)) =
        Block.ofBytes (p.payload.drop 1) := by
      rw [List.drop_take, bytes, List.drop_length_add_append]
      exact Block.ofBytes_take (by omega) (by rw [List.length_drop]; omega)
    simp only [Found, if_neg (not_lt.mpr hRoom), hFirst, hIv, hRoom, hExtension, ne_eq, not_false_eq_true,
      true_and, ite_not]
  · rw [if_pos (Nat.not_le.mp hRoom), if_neg fun hFound => hRoom hFound.2.1]

/-- The state with the IV found. -/
def startState : PesDecState where
  iv := Block.ofBytes (p.payload.drop 1)
  remaining := if p.bounded then min p.payload.length 256 else 256

/-- The state behind the start of a PES packet. -/
theorem start_eq (st : PesDecState) (hk : 9 ≤ k) (hLen : k ≤ p.bytes.length) :
    pesStart st (p.bytes.take k) =
      (if p.Found k then p.startState else { st with remaining := 0 }, min p.header.length k) := by
  obtain ⟨tail, hTail⟩ := p.take_bytes hk
  have hLength : (p.bytes.take k).length = k := by
    rw [List.length_take, Nat.min_eq_left hLen]
  have hPacket : (getBe16 ((p.bytes.take k).getD 4 0) ((p.bytes.take k).getD 5 0)).toNat =
      p.packetLength := by
    have hBytes : (p.bytes.take k).getD 4 0 = (UInt16.ofNat p.packetLength >>> 8).toUInt8 ∧
        (p.bytes.take k).getD 5 0 = (UInt16.ofNat p.packetLength).toUInt8 := by
      simp [hTail, putBe16]
    rw [hBytes.1, hBytes.2, getBe16_putBe16]
    exact UInt16.toNat_ofNat_of_lt' p.packetLength_lt
  simp only [pesStart, hPacket, p.headerEnd_eq hk, hLength, p.extractIv_eq]
  by_cases hFound : p.Found k
  · have hHeader := p.length_header
    have hRoom := hFound.2.1
    rw [hLength] at hRoom
    simp only [if_pos hFound, Nat.min_eq_left (by omega : p.header.length ≤ k), packetLength,
      encryptPrefix, startState]
    cases p.bounded with
    | false => rfl
    | true =>
      have hCount : ((3 + p.dataLength + p.payload.length : Nat) : Int) - p.header.length + 6 =
          p.payload.length := by omega
      simp only [if_true, hCount, if_pos (by omega : ((3 + p.dataLength + p.payload.length : Nat) : Int) > 0)]
      congr 2
      split <;> omega
  · simp only [if_neg hFound]

end PesPacket

-- ---------------------------------------------------------------------------
-- The private data is extracted
-- ---------------------------------------------------------------------------

/-- Where `pes_extract_iv` copies sixteen bytes from. -/
def ivOffset (pes : Bytes) : Nat := 9 + (pes.getD 8 0).toNat + 1

namespace PesPacket

variable (p : PesPacket) (k : Nat) (st : PesDecState)

/-- Of `k` bytes of the packet at hand the private data is extracted if there is any, and
from bytes that are not decrypted. -/
def Extracts : Prop :=
  pesExtractIv (p.bytes.take k) = p.privateData ∧
    ∀ iv, pesExtractIv (p.bytes.take k) = some iv →
      ∀ i, ivOffset (p.bytes.take k) ≤ i → i < ivOffset (p.bytes.take k) + 16 →
        ¬((pesStart st (p.bytes.take k)).2 ≤ i ∧
          i < (pesStart st (p.bytes.take k)).2 +
            decryptCount (pesStart st (p.bytes.take k)).1 (pesStart st (p.bytes.take k)).2
              (p.bytes.take k).length)

variable {k} in
/-- What is taken for the IV is decrypted afterwards. -/
theorem found_overlaps (hFound : p.Found k) :
    (pesStart st (p.bytes.take k)).2 ≤ ivOffset (p.bytes.take k) ∧
      ivOffset (p.bytes.take k) < (pesStart st (p.bytes.take k)).2 +
        decryptCount (pesStart st (p.bytes.take k)).1 (pesStart st (p.bytes.take k)).2
          (p.bytes.take k).length := by
  have hHeader := p.length_header
  have hBytes := p.length_bytes
  have hRoom := hFound.2.1
  -- the packet may be shorter than what is asked for
  obtain ⟨j, hTake, hLen⟩ : ∃ j, p.bytes.take k = p.bytes.take j ∧ j ≤ p.bytes.length := by
    refine ⟨min k p.bytes.length, ?_, Nat.min_le_right _ _⟩
    rw [List.take_eq_take_iff, Nat.min_assoc, Nat.min_self]
  have hFoundHere : p.Found j := by
    rw [Found, ← hTake]
    exact hFound
  rw [hTake, List.length_take, Nat.min_eq_left hLen] at hRoom
  rw [hTake, ivOffset, p.headerEnd_eq (by omega), p.start_eq st (by omega) hLen, if_pos hFoundHere,
    List.length_take, Nat.min_eq_left hLen, Nat.min_eq_left (by omega)]
  refine ⟨Nat.le_succ _, ?_⟩
  -- at least seventeen bytes of payload are at hand, and as many are to be decrypted
  have hMany : 17 ≤ p.startState.remaining := by
    rw [startState]
    simp only
    split <;> omega
  have hCount : 16 ≤ decryptCount p.startState p.header.length j := by
    rw [decryptCount, if_pos (by omega)]
    simp only
    split <;> omega
  dsimp only
  omega

/-- **The private data** of a packet is extracted, and kept apart from what is decrypted,
exactly when it has none and its payload does not look like an extension either. -/
theorem extracts_iff : p.Extracts k st ↔ p.privateData = none ∧ ¬p.Found k := by
  rw [Extracts, p.extractIv_eq]
  by_cases hFound : p.Found k
  · refine iff_of_false (fun hExtracts => ?_) (fun hNone => hNone.2 hFound)
    rw [if_pos hFound] at hExtracts
    exact hExtracts.2 _ rfl _ (le_refl _) (Nat.lt_add_of_pos_right (by decide))
      (p.found_overlaps st hFound)
  · rw [if_neg hFound]
    constructor
    · intro hExtracts
      exact ⟨hExtracts.1.symm, hFound⟩
    · intro hNone
      exact ⟨hNone.1.symm, fun iv h => absurd h (Option.some_ne_none iv).symm⟩

end PesPacket

/-- A packet with a time stamp, private data and silence. -/
def taggedPes : PesPacket where
  lead := 0x80
  flags := 0x81
  fields := [0x21, 0x00, 0x01, 0x00, 0x01]
  extension := some
    { flags := 0x8E
      privateData := some (Block.ofBytes (List.replicate 16 7))
      rest := []
      hPrivate := by decide }
  stuffing := []
  payload := List.replicate 32 0
  bounded := true
  hExtension := by decide
  hFields := by decide
  hHeader := by decide
  hBounded := by decide

/-- Its IV is not found. -/
theorem taggedPes_missed : ¬∀ (p : PesPacket) (k : Nat) (st : PesDecState), p.Extracts k st := by
  intro hAll
  have hTagged := (hAll taggedPes 184 .init).1
  revert hTagged
  decide +kernel

end EspMiplay.Miplay
