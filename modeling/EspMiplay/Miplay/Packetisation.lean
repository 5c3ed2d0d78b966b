import EspMiplay.Miplay.PesHeader
import EspMiplay.Miplay.RtpData

/-!
# Packetisation of the audio stream

A phone wraps the audio in PES packets, cuts each of them into TS packets, and
groups these into RTP packets. This module says what such a stream is
(`AudioStream`), what a player ought to get out of it
(`AudioStream.expected`), and for which streams `media_receive_task` gets it:

- `received_iff`: the ring buffer is handed the expected bytes under every cipher and
  key if and only if the stream `Follows` what `decrypt_ts_media` takes for granted;
- `cut_spoils`: a PES packet cut where no cipher block ends is not decrypted.

A PES header is the one of the standard: the optional fields named by its
flags, then the extension with the private data, all of it inside
`PES_header_data_length`.
-/

namespace EspMiplay.Miplay

/-! ## PES packets -/

/-- An audio PES packet with private data. -/
structure Pes where
  /-- marker, scrambling and priority bits -/
  lead : UInt8
  flags : UInt8
  fields : Bytes
  /-- flags of the extension -/
  extension : UInt8
  /-- the private data -/
  iv : Block
  /-- the rest of the extension, and stuffing -/
  rest : Bytes
  payload : Bytes
  /-- whether `PES_packet_length` is given -/
  bounded : Bool
  hExtension : flags &&& 0x01 ≠ 0
  hPrivate : extension &&& 0x80 ≠ 0
  hFields : fields.length = optionalLength flags
  hHeader : fields.length + 17 + rest.length ≤ 255
  hBounded : bounded = true → fields.length + 20 + rest.length + payload.length < 65536

namespace Pes

/-- `PES_header_data_length` -/
def dataLength (p : Pes) : Nat := p.fields.length + 17 + p.rest.length

/-- `PES_packet_length` -/
def packetLength (p : Pes) : Nat := if p.bounded then 3 + p.dataLength + p.payload.length else 0

def header (p : Pes) : Bytes :=
  [0, 0, 1, 0xC0] ++ putBe16 (UInt16.ofNat p.packetLength) ++
    [p.lead, p.flags, UInt8.ofNat p.dataLength] ++ p.fields ++ p.extension :: p.iv.toList ++ p.rest

def bytes (p : Pes) : Bytes := p.header ++ p.payload

/-- Length of the encrypted prefix. -/
def prefixLength (p : Pes) : Nat := min 256 (p.payload.length / 16 * 16)

end Pes

/-- The first `n` bytes decrypted as one chain. -/
def decryptPrefix (aes : Aes) (key iv : Block) (n : Nat) (bs : Bytes) : Bytes :=
  ofBlocks (Cbc.decrypt (aes.mode key) iv (toBlocks (n / 16) bs)).1 ++ bs.drop n

/-- The PES packet as the player ought to get it. -/
def Pes.decrypted (aes : Aes) (key : Block) (p : Pes) : Bytes :=
  p.header ++ decryptPrefix aes key p.iv p.prefixLength p.payload

/-! ## TS packets -/

/-- Header and adaptation field of a TS packet with audio in it. -/
structure Carrier where
  /-- error, start and priority bits, top of the PID -/
  second : UInt8
  /-- scrambling, adaptation control, continuity counter -/
  fourth : UInt8
  adaptation : Option Bytes
  hPid : second &&& 0x1F = 0x11
  hControl : (fourth >>> 4) &&& 0x03 = if adaptation.isSome then 3 else 1
  hAdaptation : ∀ field ∈ adaptation, field.length ≤ 182

namespace Carrier

def head (c : Carrier) : Bytes :=
  [tsSyncByte, c.second, 0x00, c.fourth] ++
    c.adaptation.elim [] fun field => UInt8.ofNat field.length :: field

/-- How many bytes of the PES packet it carries. -/
def room (c : Carrier) : Nat := tsPktSize - c.head.length

/-- `payload_unit_start_indicator` -/
def starts (c : Carrier) : Prop := c.second &&& 0x40 ≠ 0

instance (c : Carrier) : Decidable c.starts := inferInstanceAs (Decidable (_ ≠ _))

end Carrier

/-- A packet of another PID, or one with nothing but an adaptation field. -/
structure OtherTs where
  bytes : Bytes
  hLength : bytes.length = tsPktSize
  hOther : ((bytes.getD 1 0 &&& 0x1F).toUInt16 <<< 8) ||| (bytes.getD 2 0).toUInt16 ≠ targetPid ∨
    (bytes.getD 3 0 >>> 4) &&& 0x03 = 0 ∨ (bytes.getD 3 0 >>> 4) &&& 0x03 = 2 ∨
    (bytes.getD 3 0 >>> 4) &&& 0x03 = 3 ∧ 183 ≤ (bytes.getD 4 0).toNat

inductive TsPacket where
  | other (o : OtherTs)
  /-- the first of a PES packet -/
  | first (c : Carrier) (p : Pes) (hStarts : c.starts)
  | next (c : Carrier) (hStarts : ¬c.starts)

/-- The packets cut whole PES packets, `n` bytes of the current one being left. -/
def Cut : Nat → List TsPacket → Prop
  | n, [] => n = 0
  | n, .other _ :: ts => Cut n ts
  | n, .first c p _ :: ts => n = 0 ∧ c.room ≤ p.bytes.length ∧ Cut (p.bytes.length - c.room) ts
  | n, .next c _ :: ts => c.room ≤ n ∧ Cut (n - c.room) ts

namespace TsPacket

/-- The packet when PES packets are sent as `f` says, `rest` being left of the current one. -/
def bytes (f : Pes → Bytes) (rest : Bytes) : TsPacket → Bytes
  | other o => o.bytes
  | first c p _ => c.head ++ (f p).take c.room
  | next c _ => c.head ++ rest.take c.room

/-- What is left of the current PES packet behind it. -/
def left (f : Pes → Bytes) (rest : Bytes) : TsPacket → Bytes
  | other _ => rest
  | first c p _ => (f p).drop c.room
  | next c _ => rest.drop c.room

end TsPacket

/-- The packets one after another. -/
def lay (f : Pes → Bytes) : Bytes → List TsPacket → Bytes
  | _, [] => []
  | rest, t :: ts => t.bytes f rest ++ lay f (t.left f rest) ts

/-- What is left of the current PES packet behind all of them. -/
def left (f : Pes → Bytes) (rest : Bytes) (ts : List TsPacket) : Bytes :=
  ts.foldl (TsPacket.left f) rest

/-! ## RTP packets -/

/-- An RTP packet of TS packets, no longer than the reader takes. -/
structure RtpPacket where
  channel : UInt8
  /-- version, padding, extension, CSRC count -/
  flags : UInt8
  /-- marker, payload type, sequence number, timestamp, SSRC -/
  fixed : List.Vector UInt8 11
  csrcs : Bytes
  /-- profile and words of the header extension -/
  extension : Option (UInt16 × Bytes)
  /-- filler in front of the padding length -/
  padding : Option Bytes
  packets : List TsPacket
  hVersion : flags &&& 0xC0 = 0x80
  hCsrcs : csrcs.length = (flags &&& 0x0F).toNat * 4
  hExtended : flags &&& 0x10 ≠ 0 ↔ extension.isSome
  hExtension : ∀ x ∈ extension, x.2.length % 4 = 0
  hPadded : flags &&& 0x20 ≠ 0 ↔ padding.isSome
  hPadding : ∀ filler ∈ padding, filler.length < 255
  hPackets : packets ≠ []
  hSize : 12 + csrcs.length + (extension.elim 0 fun x => 4 + x.2.length) +
    tsPktSize * packets.length + (padding.elim 0 fun filler => filler.length + 1) ≤ 4096

namespace RtpPacket

def header (r : RtpPacket) : Bytes :=
  r.flags :: r.fixed.toList ++ r.csrcs ++
    r.extension.elim [] fun x => putBe16 x.1 ++ putBe16 (UInt16.ofNat (x.2.length / 4)) ++ x.2

def trailer (r : RtpPacket) : Bytes :=
  r.padding.elim [] fun filler => filler ++ [UInt8.ofNat (filler.length + 1)]

/-- The packet around its TS packets. -/
def wrap (r : RtpPacket) (ts : Bytes) : Bytes := r.header ++ ts ++ r.trailer

/-- The packet on the interleaved connection. -/
def frame (r : RtpPacket) (ts : Bytes) : Bytes :=
  [0x24, r.channel] ++ putBe16 (UInt16.ofNat (r.wrap ts).length) ++ r.wrap ts

end RtpPacket

/-- A stream of audio PES packets, cut into TS packets and grouped into RTP packets. -/
structure AudioStream where
  packets : List RtpPacket
  hCut : Cut 0 (packets.flatMap RtpPacket.packets)

namespace AudioStream

/-- The stream of the RTP packets, `rest` being left of the current PES packet. -/
def frames : Bytes → List RtpPacket → Bytes
  | _, [] => []
  | rest, r :: rs =>
    r.frame (lay Pes.bytes rest r.packets) ++ frames (left Pes.bytes rest r.packets) rs

/-- What the phone sends. -/
def sent (s : AudioStream) : Bytes := frames [] s.packets

/-- What ought to be handed to the ring buffer. -/
def expected (aes : Aes) (key : Block) (s : AudioStream) : Bytes :=
  lay (Pes.decrypted aes key) [] (s.packets.flatMap RtpPacket.packets)

end AudioStream

/-! ## What `decrypt_ts_media` takes for granted -/

/-- The private data is found again where `pes_extract_iv` looks for it: at the front of
the payload. -/
def Pes.RepeatsIv (p : Pes) : Prop :=
  p.payload.getD 0 0 &&& 0x80 ≠ 0 ∧ Block.ofBytes (p.payload.drop 1) = p.iv

instance (p : Pes) : Decidable p.RepeatsIv := inferInstanceAs (Decidable (_ ∧ _))

/-- What a PES packet has to be for `decrypt_ts_media`, its first TS packet carrying `k`
bytes of it. -/
def Pes.Starts (p : Pes) (k : Nat) : Prop :=
  p.prefixLength = 0 ∨
    p.header.length + 17 ≤ k ∧ p.RepeatsIv ∧
      (p.prefixLength ≤ k - p.header.length ∨ 16 ∣ k - p.header.length)

/-- TS packets, each with whether an RTP packet begins with it, of which `n` bytes of the
current PES packet are still to be decrypted. -/
def Follows : Nat → List (Bool × TsPacket) → Prop
  | _, [] => True
  | n, (opens, .other _) :: ts => (opens = true → n = 0) ∧ Follows n ts
  | n, (opens, .next c _) :: ts =>
    (opens = true → n = 0) ∧ (n ≤ c.room ∨ 16 ∣ c.room) ∧ Follows (n - c.room) ts
  | n, (opens, .first c p _) :: ts =>
    (opens = true → n = 0) ∧ p.Starts c.room ∧
      Follows (p.prefixLength - (c.room - p.header.length)) ts

/-- The TS packets of an RTP packet; the first one begins it. -/
def marked : List TsPacket → List (Bool × TsPacket)
  | [] => []
  | t :: ts => (true, t) :: ts.map (false, ·)

/-- Every encrypted prefix lies in one RTP packet, begins in a TS packet that has the
whole header and the IV where it is looked for, and is cut between cipher blocks only. -/
def AudioStream.Follows (s : AudioStream) : Prop :=
  Miplay.Follows 0 (s.packets.flatMap fun r => marked r.packets)

/-! ## Chains cut in two -/

theorem toBlocks_add (m n : Nat) (bs : Bytes) :
    toBlocks (m + n) bs = toBlocks m bs ++ toBlocks n (bs.drop (16 * m)) := by
  induction m generalizing bs with
  | zero => simp [toBlocks]
  | succ m ih =>
    rw [Nat.add_right_comm, toBlocks, ih, List.drop_drop, toBlocks, List.cons_append]
    congr 4
    omega

/-- Only the bytes of the blocks count. -/
theorem toBlocks_take {n k : Nat} {bs : Bytes} (hCut : 16 * n ≤ k) (hLen : 16 * n ≤ bs.length) :
    toBlocks n (bs.take k) = toBlocks n bs := by
  induction n generalizing bs k with
  | zero => rfl
  | succ n ih =>
    rw [toBlocks, toBlocks, Block.ofBytes_take (by omega) (by omega), List.drop_take,
      ih (by omega) (by simp; omega)]

section Prefix

variable {aes : Aes} {key iv : Block} {n : Nat} {bs : Bytes}

@[simp] theorem decryptPrefix_zero : decryptPrefix aes key iv 0 bs = bs := rfl

variable (aes key iv) in
theorem length_decryptPrefix (hBlocks : 16 ∣ n) (hLen : n ≤ bs.length) :
    (decryptPrefix aes key iv n bs).length = bs.length := by
  rw [decryptPrefix, List.length_append, length_ofBlocks, Cbc.length_decrypt, length_toBlocks,
    List.length_drop]
  omega

variable (aes key iv bs) in
/-- The front of the chain, and the rest of it under the IV left behind. -/
theorem decryptPrefix_add (m n : Nat) :
    decryptPrefix aes key iv (16 * m + 16 * n) bs =
      ofBlocks (Cbc.decrypt (aes.mode key) iv (toBlocks m bs)).1 ++
        decryptPrefix aes key (Cbc.decrypt (aes.mode key) iv (toBlocks m bs)).2 (16 * n)
          (bs.drop (16 * m)) := by
  have hDiv : (16 * m + 16 * n) / 16 = m + n := by omega
  have hDiv' : 16 * n / 16 = n := by omega
  simp only [decryptPrefix, hDiv, hDiv', toBlocks_add, Cbc.decrypt_append, ofBlocks, List.flatMap_append,
    List.append_assoc, List.drop_drop]

theorem decryptPrefix_succ (n : Nat) :
    decryptPrefix aes key iv (16 * (n + 1)) bs =
      (Block.xor ((aes key).symm (Block.ofBytes bs)) iv).toList ++
        decryptPrefix aes key (Block.ofBytes bs) (16 * n) (bs.drop 16) := by
  have hAdd := decryptPrefix_add aes key iv bs 1 n
  rw [show 16 * (n + 1) = 16 * 1 + 16 * n by omega, hAdd]
  simp [toBlocks, Cbc.decrypt, Aes.mode]

end Prefix

theorem Block.xor_right_cancel {a b c : Block} (h : Block.xor a b = Block.xor a c) : b = c := by
  apply List.Vector.ext
  intro i
  have hAt := congrArg (List.Vector.get · i) h
  simpa [Block.xor] using hAt

theorem Block.getElem?_toList (b : Block) {k : Nat} (hk : k < 16) :
    b.toList[k]? = some (b.get ⟨k, hk⟩) := by
  rw [List.Vector.get_eq_get_toList, List.get_eq_getElem, ← List.getElem?_eq_getElem]
  rfl

/-- A cipher that masks every block with the same one. -/
def maskCipher (mask : Block) : Aes := fun _ =>
  ⟨fun b => Block.xor b mask, fun b => Block.xor b mask, fun b => Block.xor_cancel b mask,
    fun b => Block.xor_cancel b mask⟩

/-- Under a mask that differs from the chain everywhere no byte stays what it is. -/
theorem xor_mask_ne (b iv : Block) (k : Fin 16) :
    (Block.xor (Block.xor b (Block.xor iv (List.Vector.replicate 16 1))) iv).get k ≠ b.get k := by
  simp only [Block.xor, List.Vector.get_map₂, List.Vector.get_replicate]
  intro hSame
  rw [UInt8.xor_comm (iv.get k), UInt8.xor_assoc, UInt8.xor_assoc, UInt8.xor_self, UInt8.xor_zero]
    at hSame
  have hOne : (1 : UInt8) = 0 := by
    have hCancel := congrArg (b.get k ^^^ ·) hSame
    simpa only [← UInt8.xor_assoc, UInt8.xor_self, UInt8.zero_xor] using hCancel
  exact absurd hOne (by decide)

/-- No byte of the prefix is certain to stay what it is. -/
theorem exists_unlike {n k : Nat} {bs : Bytes} (iv : Block) (hLen : 16 * n ≤ bs.length)
    (hk : k < 16 * n) :
    ∃ aes : Aes, ∀ key, (decryptPrefix aes key iv (16 * n) bs)[k]? ≠ bs[k]? := by
  induction n generalizing iv k bs with
  | zero => omega
  | succ n ih =>
    by_cases hFirst : k < 16
    · refine ⟨maskCipher (Block.xor iv (List.Vector.replicate 16 1)), fun key => ?_⟩
      have hBlock := xor_mask_ne (Block.ofBytes bs) iv ⟨k, hFirst⟩
      have hRaw : bs[k]? = some ((Block.ofBytes bs).get ⟨k, hFirst⟩) := by
        rw [← List.getElem?_take_of_lt hFirst, ← Block.toList_ofBytes (by omega),
          Block.getElem?_toList]
      rw [decryptPrefix_succ, List.getElem?_append_left (by simpa using hFirst), hRaw,
        Block.getElem?_toList _ hFirst]
      exact fun hSame => hBlock (Option.some.inj hSame)
    · obtain ⟨aes, hUnlike⟩ : ∃ aes : Aes, ∀ key,
          (decryptPrefix aes key (Block.ofBytes bs) (16 * n) (bs.drop 16))[k - 16]? ≠
            (bs.drop 16)[k - 16]? :=
        ih _ (by simp; omega) (by omega)
      refine ⟨aes, fun key => ?_⟩
      have hAt := hUnlike key
      rw [List.getElem?_drop, Nat.add_sub_cancel' (by omega)] at hAt
      rwa [decryptPrefix_succ, List.getElem?_append_right (by simp; omega),
        List.Vector.toList_length]

/-! ## One TS packet -/

/-- Of `rest`, what is left of a PES packet, the state decrypts the first `n` bytes. -/
structure Tracks (st : PesDecState) (n : Nat) (rest : Bytes) : Prop where
  blocks : 16 ∣ n
  fits : n ≤ rest.length
  known : (n : Int) ≤ st.remaining
  /-- what is left behind them is less than a block, in the count or in fact -/
  ends : st.remaining < n + 16 ∨ rest.length < n + 16

section Fragment

variable {st : PesDecState} {n a : Nat} {rest : Bytes}

/-- The blocks of a fragment that are decrypted; what stands in front of it is not. -/
theorem decryptFragment_eq (aes : Aes) (key : Block) (st : PesDecState) (front fragment : Bytes) (m : Nat)
    (hm : 16 * m = min fragment.length st.remaining.toNat / 16 * 16) (hSome : fragment ≠ []) :
    decryptFragment aes key st front.length (front ++ fragment) =
      let r := Cbc.decrypt (aes.mode key) st.iv (toBlocks m fragment)
      (⟨r.2, st.remaining - (16 * m : Nat)⟩,
        front ++ (ofBlocks r.1 ++ fragment.drop (16 * m))) := by
  have hPos : 0 < fragment.length := List.length_pos_iff.mpr hSome
  have hNone (hm0 : m = 0) : (st, front ++ fragment) =
      ((⟨(Cbc.decrypt (aes.mode key) st.iv (toBlocks m fragment)).2, st.remaining - (16 * m : Nat)⟩,
        front ++ (ofBlocks (Cbc.decrypt (aes.mode key) st.iv (toBlocks m fragment)).1 ++
          fragment.drop (16 * m))) : PesDecState × Bytes) := by
    simp [hm0, toBlocks]
  by_cases hLeft : st.remaining > 0
  · have hCount : (if (fragment.length : Int) < st.remaining then fragment.length
        else st.remaining.toNat) = min fragment.length st.remaining.toNat := by
      split <;> omega
    have hWhole : min fragment.length st.remaining.toNat -
        min fragment.length st.remaining.toNat % 16 = 16 * m := by omega
    simp only [decryptFragment, if_pos hLeft, List.length_append, Nat.add_sub_cancel_left,
      if_neg hPos.ne', hCount, hWhole, List.drop_left]
    by_cases hm0 : m = 0
    · simpa [hm0] using hNone hm0
    · have hTake : (fragment.take (16 * m)).length = 16 * m := by simp; omega
      have hDecrypt : aesCbcDecrypt aes key st.iv (fragment.take (16 * m)) =
          some (ofBlocks (Cbc.decrypt (aes.mode key) st.iv (toBlocks m fragment)).1,
            (Cbc.decrypt (aes.mode key) st.iv (toBlocks m fragment)).2) := by
        have hDiv : 16 * m / 16 = m := by omega
        rw [aesCbcDecrypt, hTake, if_neg (by omega), hDiv, toBlocks_take (le_refl _) (by omega)]
      have hClamp : (if st.remaining - (16 * m : Nat) ≤ 0 then 0
          else st.remaining - (16 * m : Nat)) = st.remaining - (16 * m : Nat) := by
        split <;> omega
      simp only [hDecrypt, hClamp, if_pos (by omega : 16 * m > 0), List.take_left,
        List.drop_length_add_append, List.append_assoc]
  · rw [decryptFragment, if_neg hLeft]
    exact hNone (by omega)

theorem length_decryptFragment (aes : Aes) (key : Block) (st : PesDecState) (front fragment : Bytes)
    (hSome : fragment ≠ []) :
    (decryptFragment aes key st front.length (front ++ fragment)).2.length =
      front.length + fragment.length := by
  rw [decryptFragment_eq aes key st front fragment (min fragment.length st.remaining.toNat / 16)
    (by omega) hSome]
  simp only [List.length_append, length_ofBlocks, Cbc.length_decrypt, length_toBlocks,
    List.length_drop]
  omega

/-- Whole blocks, or more than there is to decrypt: the fragment is decrypted, and the
state, which depends on no cipher, tracks what is left. -/
theorem Tracks.fragment (h : Tracks st n rest) (front : Bytes) (hPos : 0 < a) (ha : a ≤ rest.length)
    (hCut : n ≤ a ∨ 16 ∣ a) :
    ∃ st', Tracks st' (n - a) (rest.drop a) ∧ ∀ aes key,
      decryptFragment aes key st front.length (front ++ rest.take a) =
        (st', front ++ (decryptPrefix aes key st.iv n rest).take a) ∧
      decryptPrefix aes key st'.iv (n - a) (rest.drop a) =
        (decryptPrefix aes key st.iv n rest).drop a := by
  obtain ⟨hBlocks, hFits, hKnown, hEnds⟩ := h
  have hLength : (rest.take a).length = a := by simpa using ha
  obtain ⟨k, hk⟩ : 16 ∣ min n a := by omega
  obtain ⟨j, rfl⟩ : ∃ j, n = 16 * k + 16 * j := ⟨(n - 16 * k) / 16, by omega⟩
  refine ⟨⟨(toBlocks k rest).getLastD st.iv, st.remaining - (16 * k : Nat)⟩,
    ⟨by omega, by simp; omega, by simp; omega, by simp only [List.length_drop]; omega⟩,
    fun aes key => ?_⟩
  have hRun := decryptFragment_eq aes key st front (rest.take a) k (by rw [hLength]; omega)
    (List.length_pos_iff.mp (by omega))
  rw [toBlocks_take (by omega : 16 * k ≤ a) (by omega)] at hRun
  have hFront := length_ofBlocks (Cbc.decrypt (aes.mode key) st.iv (toBlocks k rest)).1
  rw [Cbc.length_decrypt, length_toBlocks] at hFront
  simp only [hRun, decryptPrefix_add, ← Cbc.decrypt_snd (aes.mode key)]
  generalize Cbc.decrypt (aes.mode key) st.iv (toBlocks k rest) = chain at hFront
  have hRest : a = 16 * k ∨ j = 0 := by omega
  constructor
  · rw [List.take_append, List.take_of_length_le (hFront.le.trans (by omega)), hFront,
      List.drop_take]
    congr 3
    rcases hRest with rfl | rfl
    · simp
    · rfl
  · rw [List.drop_append, List.drop_of_length_le (hFront.le.trans (by omega)), hFront]
    rcases hRest with rfl | rfl
    · simp
    · simp [show 16 * k - a = 0 by omega, show 16 * k + (a - 16 * k) = a by omega]

/-- A fragment that breaks a block leaves bytes that ought to be decrypted. -/
theorem Tracks.fragment_broken (h : Tracks st n rest) (front : Bytes) (ha : a < n)
    (hBroken : ¬16 ∣ a) :
    ∃ aes : Aes, ∀ key, (decryptFragment aes key st front.length (front ++ rest.take a)).2 ≠
      front ++ (decryptPrefix aes key st.iv n rest).take a := by
  obtain ⟨hBlocks, hFits, hKnown, -⟩ := h
  have hLength : (rest.take a).length = a := by simp; omega
  obtain ⟨m, rfl⟩ := hBlocks
  -- the first byte behind the whole blocks of the fragment
  obtain ⟨aes, hUnlike⟩ := exists_unlike st.iv hFits (by omega : 16 * (a / 16) < 16 * m)
  refine ⟨aes, fun key hSame => hUnlike key ?_⟩
  rw [decryptFragment_eq _ _ _ front _ (a / 16) (by rw [hLength]; omega)
    (List.length_pos_iff.mp (by omega))] at hSame
  have hAt := congrArg (·[16 * (a / 16)]?) (List.append_cancel_left hSame)
  rw [List.getElem?_take_of_lt (by omega), List.getElem?_append_right (by simp)] at hAt
  rw [← hAt, length_ofBlocks, Cbc.length_decrypt, length_toBlocks, Nat.sub_self, List.getElem?_drop,
    Nat.add_zero, List.getElem?_take_of_lt (by omega)]

end Fragment

namespace Carrier

variable (c : Carrier)

theorem length_head : c.head.length = if c.adaptation.isSome then 5 + c.adaptation.elim 0 List.length
    else 4 := by
  cases hField : c.adaptation with
  | none => simp [head, hField]
  | some field => simp [head, hField]; omega

theorem length_head_lt : c.head.length < tsPktSize := by
  rw [c.length_head]
  cases hField : c.adaptation with
  | none => decide
  | some field =>
    have hRoom := c.hAdaptation field (by simp [hField])
    simp [tsPktSize]
    omega

theorem room_pos : 0 < c.room := Nat.sub_pos_of_lt c.length_head_lt

theorem head_add_room : c.head.length + c.room = tsPktSize := Nat.add_sub_cancel' c.length_head_lt.le

end Carrier

/-- A TS packet with audio in it reaches the decryption. -/
theorem decryptTsPacket_carrier (aes : Aes) (key : Block) (st : PesDecState) (c : Carrier)
    (chunk : Bytes) :
    decryptTsPacket aes key st (c.head ++ chunk) =
      if c.starts then
        if chunk.length < 9 ∨ chunk.take 4 ≠ [0, 0, 1, 0xC0] then
          ({ st with remaining := 0 }, c.head ++ chunk)
        else
          let r := decryptFragment aes key (pesStart st chunk).1 (pesStart st chunk).2 chunk
          (r.1, c.head ++ r.2)
      else
        let r := decryptFragment aes key st 0 chunk
        (r.1, c.head ++ r.2) := by
  have hHead := c.length_head
  have hLt := c.length_head_lt
  have hOff : (if (c.fourth >>> 4) &&& 0x03 = 3 then 5 + ((c.head ++ chunk).getD 4 0).toNat else 4) =
      c.head.length := by
    rw [c.hControl, hHead]
    cases hField : c.adaptation with
    | none => simp
    | some field =>
      have hRoom := c.hAdaptation field (by simp [hField])
      simp [Carrier.head, hField]
      omega
  have hPid : ((c.second &&& 0x1F).toUInt16 <<< 8) ||| (0 : UInt8).toUInt16 = targetPid := by
    rw [c.hPid]
    decide
  have hAfc : ¬((c.fourth >>> 4) &&& 0x03 = 0) ∧ ¬((c.fourth >>> 4) &&& 0x03 = 2) := by
    rw [c.hControl]
    split <;> decide
  have hBytes : (c.head ++ chunk).getD 0 0 = tsSyncByte ∧ (c.head ++ chunk).getD 1 0 = c.second ∧
      (c.head ++ chunk).getD 2 0 = 0 ∧ (c.head ++ chunk).getD 3 0 = c.fourth := by
    simp [Carrier.head]
  obtain ⟨hSync, hSecond, hThird, hFourth⟩ := hBytes
  simp only [decryptTsPacket, hSync, hSecond, hThird, hFourth, hPid, hOff, hAfc, not_le.mpr hLt,
    ne_eq, not_true_eq_false, or_self, if_false, List.drop_left, List.take_left, Carrier.starts]

theorem decryptTsPacket_other (aes : Aes) (key : Block) (st : PesDecState) (o : OtherTs) :
    decryptTsPacket aes key st o.bytes = (st, o.bytes) := by
  unfold decryptTsPacket
  refine if_pos (.inr ?_)
  rcases o.hOther with hPid | hNone | hField | ⟨hBoth, hLong⟩
  · exact .inl hPid
  · exact .inr (.inl hNone)
  · exact .inr (.inr (.inl hField))
  · refine .inr (.inr (.inr ?_))
    simp only [hBoth, if_true, tsPktSize]
    omega

/-! ### The start of a PES packet -/

namespace Pes

variable (p : Pes)

theorem length_header : p.header.length = 9 + p.dataLength := by
  simp [header, dataLength]
  omega

theorem length_bytes : p.bytes.length = p.header.length + p.payload.length := by simp [bytes]

theorem length_decrypted (aes : Aes) (key : Block) :
    (p.decrypted aes key).length = p.bytes.length := by
  rw [decrypted, bytes, List.length_append, List.length_append,
    length_decryptPrefix _ _ _ (by rw [prefixLength]; omega) (by rw [prefixLength]; omega)]

end Pes

namespace Pes

variable (p : Pes) {k : Nat}

/-- The bytes in front of the optional fields. -/
theorem take_bytes (hk : 9 ≤ k) :
    ∃ tail, p.bytes.take k =
      [0, 0, 1, 0xC0] ++ putBe16 (UInt16.ofNat p.packetLength) ++
        [p.lead, p.flags, UInt8.ofNat p.dataLength] ++ tail := by
  obtain ⟨j, rfl⟩ := Nat.exists_eq_add_of_le' hk
  exact ⟨_, rfl⟩

/-- An IV is found when the first TS packet has `k` bytes of it. -/
def Found (k : Nat) : Prop := p.header.length + 17 ≤ k ∧ p.payload.getD 0 0 &&& 0x80 ≠ 0

instance : Decidable (p.Found k) := inferInstanceAs (Decidable (_ ∧ _))

/-- The state with the IV found. -/
def startState : PesDecState where
  iv := Block.ofBytes (p.payload.drop 1)
  remaining := if p.bounded then min p.payload.length 256 else 256

/-- The packet as one of the standard: all that follows the private data goes to the
extension. -/
def packet : PesPacket where
  lead := p.lead
  flags := p.flags
  fields := p.fields
  extension := some
    { flags := p.extension
      privateData := some p.iv
      rest := p.rest
      hPrivate := iff_of_true p.hPrivate rfl }
  stuffing := []
  payload := p.payload
  bounded := p.bounded
  hExtension := iff_of_true p.hExtension rfl
  hFields := p.hFields
  hHeader := by
    have hHeader := p.hHeader
    simp [PesExtension.bytes]
    omega
  hBounded := fun h => by
    have hBounded := p.hBounded h
    simp [PesExtension.bytes]
    omega

theorem packet_dataLength : p.packet.dataLength = p.dataLength := by
  simp [packet, PesPacket.dataLength, PesExtension.bytes, dataLength]
  omega

theorem packet_header : p.packet.header = p.header := by
  have hPacket : p.packet.packetLength = p.packetLength := by
    rw [PesPacket.packetLength, packetLength, packet_dataLength]
    rfl
  rw [PesPacket.header, hPacket, packet_dataLength]
  simp [packet, PesExtension.bytes, header]

theorem packet_bytes : p.packet.bytes = p.bytes := by
  rw [PesPacket.bytes, packet_header]
  rfl

/-- The state behind the start of a PES packet. -/
theorem start_eq (st : PesDecState) (hk : 9 ≤ k) (hLen : k ≤ p.bytes.length) :
    pesStart st (p.bytes.take k) =
      (if p.Found k then p.startState else { st with remaining := 0 }, min p.header.length k) := by
  have hFound : p.packet.Found k ↔ p.Found k := by
    rw [PesPacket.Found, packet_bytes, packet_header, List.length_take, Nat.min_eq_left hLen]
    exact and_iff_right p.hExtension
  have hStart := p.packet.start_eq st hk (by rw [packet_bytes]; exact hLen)
  rw [packet_bytes, packet_header] at hStart
  simp only [hStart, hFound]
  rfl

end Pes

section Start

variable {p : Pes} {c : Carrier} (st : PesDecState)

/-- Without an IV it waits for the next PES packet. -/
theorem decryptTsPacket_missed (aes : Aes) (key : Block) (hStarts : c.starts)
    (hRoom : c.room ≤ p.bytes.length) (hMissed : ¬p.Found c.room) :
    decryptTsPacket aes key st (c.head ++ p.bytes.take c.room) =
      ({ st with remaining := 0 }, c.head ++ p.bytes.take c.room) := by
  rw [decryptTsPacket_carrier, if_pos hStarts]
  split
  · rfl
  · rename_i hLong
    have hNine : 9 ≤ c.room := by
      have hLength := not_lt.mp (not_or.mp hLong).1
      rw [List.length_take] at hLength
      omega
    have hIdle : ({ st with remaining := 0 } : PesDecState).remaining ≤ 0 := le_refl 0
    simp only [p.start_eq st hNine hRoom, if_neg hMissed, decryptFragment_idle _ hIdle]

theorem take_room (hRoom : p.header.length ≤ c.room) :
    p.bytes.take c.room = p.header ++ p.payload.take (c.room - p.header.length) := by
  rw [Pes.bytes, List.take_append, List.take_of_length_le hRoom]

/-- With one it decrypts the payload behind the header. -/
theorem decryptTsPacket_found (aes : Aes) (key : Block) (hStarts : c.starts)
    (hRoom : c.room ≤ p.bytes.length) (hFound : p.Found c.room) :
    decryptTsPacket aes key st (c.head ++ p.bytes.take c.room) =
      let r := decryptFragment aes key p.startState p.header.length
        (p.header ++ p.payload.take (c.room - p.header.length))
      (r.1, c.head ++ r.2) := by
  have hHeader := p.length_header
  have hFront := hFound.1
  obtain ⟨tail, hTail⟩ := p.take_bytes (by omega : 9 ≤ c.room)
  have hLong : ¬((p.bytes.take c.room).length < 9 ∨ (p.bytes.take c.room).take 4 ≠ [0, 0, 1, 0xC0]) := by
    rw [not_or, hTail]
    simp [putBe16]
  rw [decryptTsPacket_carrier, if_pos hStarts, if_neg hLong, p.start_eq st (by omega) hRoom]
  simp only [if_pos hFound, Nat.min_eq_left (by omega : p.header.length ≤ c.room)]
  rw [take_room (by omega)]

theorem Pes.tracks_start (p : Pes) : Tracks p.startState p.prefixLength p.payload := by
  constructor
  · rw [Pes.prefixLength]
    omega
  · rw [Pes.prefixLength]
    omega
  all_goals
    simp only [Pes.prefixLength, Pes.startState]
    split <;> omega

end Start

/-! ### Packets that are not decrypted -/

/-- The walk over TS packets of several RTP packets; the state begins anew with each. -/
def decryptMarked (aes : Aes) (key : Block) : PesDecState → Bytes → List (Bool × TsPacket) → Bytes
  | _, _, [] => []
  | st, rest, (opens, t) :: ts =>
    let r := decryptTsPacket aes key (if opens then .init else st) (t.bytes Pes.bytes rest)
    r.2 ++ decryptMarked aes key r.1 (t.left Pes.bytes rest) ts

/-- While there is nothing to decrypt, the rest of a PES packet is handed on as it came. -/
theorem eq_of_idle {aes : Aes} {key : Block} {st : PesDecState} {rest rest' : Bytes}
    {ts : List (Bool × TsPacket)} (hIdle : st.remaining ≤ 0) (hLength : rest.length = rest'.length)
    (hCut : Cut rest.length (ts.map Prod.snd))
    (hSame : decryptMarked aes key st rest ts = lay (Pes.decrypted aes key) rest' (ts.map Prod.snd)) :
    rest = rest' := by
  have hEmpty {xs ys : Bytes} (hSame : xs.length = ys.length) (hNone : xs.length = 0) : xs = ys := by
    have hNone' : ys.length = 0 := hSame ▸ hNone
    rw [List.length_eq_zero_iff] at hNone hNone'
    rw [hNone, hNone']
  induction ts generalizing st rest rest' with
  | nil => exact hEmpty hLength hCut
  | cons t ts ih =>
    obtain ⟨opens, t⟩ := t
    have hStill : (if opens then PesDecState.init else st).remaining ≤ 0 := by
      cases opens with
      | true => exact le_refl 0
      | false => exact hIdle
    simp only [decryptMarked] at hSame
    generalize (if opens then PesDecState.init else st) = st₁ at hStill hSame
    cases t with
    | other o =>
      simp only [TsPacket.bytes, TsPacket.left, decryptTsPacket_other, List.map_cons, lay,
        List.append_cancel_left_eq] at hSame
      exact ih hStill hLength hCut hSame
    | first c p hStarts =>
      exact hEmpty hLength hCut.1
    | next c hStarts =>
      simp only [TsPacket.bytes, TsPacket.left, List.map_cons, lay, decryptTsPacket_carrier,
        if_neg hStarts, decryptFragment_idle _ hStill, List.append_assoc,
        List.append_cancel_left_eq] at hSame
      have hRoom : c.room ≤ rest.length := hCut.1
      obtain ⟨hChunk, hTail⟩ := List.append_inj hSame (by simp; omega)
      have hDrop := ih hStill (by simp; omega) (by simpa using hCut.2) hTail
      rw [← List.take_append_drop c.room rest, hChunk, hDrop, List.take_append_drop]

/-! ### Packets that are -/

/-- The packets come out as they ought to, under every cipher and key. -/
def Right (st : PesDecState) (n : Nat) (rest : Bytes) (ts : List (Bool × TsPacket)) : Prop :=
  ∀ aes key, decryptMarked aes key st rest ts =
    lay (Pes.decrypted aes key) (decryptPrefix aes key st.iv n rest) (ts.map Prod.snd)

section Right

variable {st : PesDecState} {n : Nat} {rest : Bytes} {ts : List (Bool × TsPacket)}

/-- An encrypted prefix is not handed on as it came. -/
theorem not_all_prefix {n : Nat} {bs : Bytes} (iv : Block) (hBlocks : 16 ∣ n)
    (hLen : n ≤ bs.length) (hPos : 0 < n) :
    ∃ aes : Aes, ∀ key, bs ≠ decryptPrefix aes key iv n bs := by
  obtain ⟨m, rfl⟩ := hBlocks
  obtain ⟨aes, hUnlike⟩ := exists_unlike iv hLen hPos
  exact ⟨aes, fun key hSame => hUnlike key (by rw [← hSame])⟩

/-- When a prefix is cut short by an RTP packet, its rest is lost. -/
theorem not_right_of_idle (hBlocks : 16 ∣ n) (hLen : n ≤ rest.length) (hPos : 0 < n)
    (hIdle : st.remaining ≤ 0) (iv : Block) (hCut : Cut rest.length (ts.map Prod.snd)) :
    ¬∀ aes key, decryptMarked aes key st rest ts =
      lay (Pes.decrypted aes key) (decryptPrefix aes key iv n rest) (ts.map Prod.snd) := by
  intro hRight
  obtain ⟨aes, hUnlike⟩ := not_all_prefix iv hBlocks hLen hPos
  refine hUnlike Block.zero (eq_of_idle hIdle ?_ hCut (hRight aes Block.zero))
  exact (length_decryptPrefix _ _ _ hBlocks hLen).symm

/-- **Step lemma**, for a packet in the middle of a PES packet. -/
theorem right_next {c : Carrier} {hStarts : ¬c.starts} (hTracks : Tracks st n rest)
    (hRoom : c.room ≤ rest.length) :
    (n ≤ c.room ∨ 16 ∣ c.room) ∧ (∃ st', Tracks st' (n - c.room) (rest.drop c.room) ∧
        (Right st n rest ((false, .next c hStarts) :: ts) ↔
          Right st' (n - c.room) (rest.drop c.room) ts)) ∨
      ¬(n ≤ c.room ∨ 16 ∣ c.room) ∧ ¬Right st n rest ((false, .next c hStarts) :: ts) := by
  by_cases hCut : n ≤ c.room ∨ 16 ∣ c.room
  · obtain ⟨st', hTracks', hRun⟩ := hTracks.fragment [] c.room_pos hRoom hCut
    refine .inl ⟨hCut, st', hTracks', forall_congr' fun aes => forall_congr' fun key => ?_⟩
    obtain ⟨hStep, hPrefix⟩ := hRun aes key
    simp only [List.length_nil, List.nil_append] at hStep
    simp only [decryptMarked, TsPacket.bytes, TsPacket.left, Bool.false_eq_true, if_false,
      decryptTsPacket_carrier, if_neg hStarts, hStep, List.map_cons, lay, hPrefix,
      List.append_assoc, List.append_cancel_left_eq]
  · refine .inr ⟨hCut, fun hRight => ?_⟩
    rw [not_or, not_le] at hCut
    obtain ⟨aes, hBroken⟩ := hTracks.fragment_broken [] hCut.1 hCut.2
    refine hBroken Block.zero ?_
    have hSame := hRight aes Block.zero
    simp only [decryptMarked, TsPacket.bytes, TsPacket.left, Bool.false_eq_true, if_false,
      decryptTsPacket_carrier, if_neg hStarts, List.map_cons, lay,
      List.append_assoc, List.append_cancel_left_eq] at hSame
    have hChunk : rest.take c.room ≠ [] := List.length_pos_iff.mp (by simp; omega)
    have hLength := length_decryptFragment aes Block.zero st [] (rest.take c.room) hChunk
    have hLength' := length_decryptPrefix aes Block.zero st.iv hTracks.blocks hTracks.fits
    exact (List.append_inj hSame (by simp at *; omega)).1

/-- The first block tells the IV. -/
theorem decryptFragment_iv {aes : Aes} {key iv : Block} {front : Bytes} {a : Nat}
    (hTracks : Tracks st n rest) (hPos : 0 < n) (ha : 16 ≤ a)
    (hSame : (decryptFragment aes key st front.length (front ++ rest.take a)).2 =
      front ++ (decryptPrefix aes key iv n rest).take a) :
    st.iv = iv := by
  obtain ⟨hBlocks, hFits, hKnown, -⟩ := hTracks
  obtain ⟨i, rfl⟩ : ∃ i, n = 16 * (i + 1) := ⟨n / 16 - 1, by omega⟩
  have hLength : (rest.take a).length = min a rest.length := List.length_take
  obtain ⟨j, hj⟩ : ∃ j, min (rest.take a).length st.remaining.toNat / 16 = j + 1 :=
    ⟨min (rest.take a).length st.remaining.toNat / 16 - 1, by omega⟩
  rw [decryptFragment_eq aes key st front (rest.take a) (j + 1) (by omega)
    (List.length_pos_iff.mp (by omega)), decryptPrefix_succ] at hSame
  have hBlock := congrArg (List.take 16) (List.append_cancel_left hSame)
  simp only [toBlocks, Cbc.decrypt, ofBlocks_cons, List.append_assoc, List.take_take,
    Nat.min_eq_left ha] at hBlock
  rw [Block.ofBytes_take ha (by omega), List.take_append_of_le_length (by simp),
    List.take_append_of_le_length (by simp), List.take_of_length_le (by simp),
    List.take_of_length_le (by simp)] at hBlock
  exact Block.xor_right_cancel (List.Vector.eq _ _ hBlock)

/-- **Step lemma**, for the first packet of a PES packet. -/
theorem right_first {c : Carrier} {p : Pes} {hStarts : c.starts} (opens : Bool)
    (hRoom : c.room ≤ p.bytes.length) (hCut : Cut (p.bytes.length - c.room) (ts.map Prod.snd)) :
    p.Starts c.room ∧
        (∃ st', Tracks st' (p.prefixLength - (c.room - p.header.length)) (p.bytes.drop c.room) ∧
          (Right st n rest ((opens, .first c p hStarts) :: ts) ↔
            Right st' (p.prefixLength - (c.room - p.header.length)) (p.bytes.drop c.room) ts)) ∨
      ¬p.Starts c.room ∧ ¬Right st n rest ((opens, .first c p hStarts) :: ts) := by
  have hBlocks : 16 ∣ p.prefixLength := p.tracks_start.blocks
  have hFits : p.prefixLength ≤ p.payload.length := p.tracks_start.fits
  have hBytes := p.length_bytes
  by_cases hFound : p.Found c.room
  · have hRun (aes : Aes) (key : Block) := decryptTsPacket_found (if opens then .init else st)
      aes key hStarts hRoom hFound
    have hFront := hFound.1
    obtain ⟨a, ha⟩ := Nat.exists_eq_add_of_le (by omega : p.header.length ≤ c.room)
    have hPos : 0 < p.prefixLength := by
      rw [Pes.prefixLength]
      omega
    have hTake (f : Bytes) : (p.header ++ f).take c.room = p.header ++ f.take a := by
      rw [ha, List.take_length_add_append]
    have hDrop (f : Bytes) : (p.header ++ f).drop c.room = f.drop a := by
      rw [ha, List.drop_length_add_append]
    have hMinus : c.room - p.header.length = a := by omega
    have hRest : p.bytes.drop c.room = p.payload.drop a := hDrop p.payload
    rw [hMinus, hRest, Pes.Starts, hMinus]
    -- what a run that is right has done with the first packet
    have hFirst (hRight : Right st n rest ((opens, .first c p hStarts) :: ts)) (aes : Aes) :
        (decryptFragment aes Block.zero p.startState p.header.length
          (p.header ++ p.payload.take a)).2 =
          p.header ++ (decryptPrefix aes Block.zero p.iv p.prefixLength p.payload).take a := by
      have hSame := hRight aes Block.zero
      have hLength := length_decryptFragment aes Block.zero p.startState p.header (p.payload.take a)
        (List.length_pos_iff.mp (by simp; omega))
      have hLength' := length_decryptPrefix aes Block.zero p.iv hBlocks hFits
      simp only [decryptMarked, TsPacket.bytes, TsPacket.left, hRun, hMinus, List.map_cons, lay,
        Pes.decrypted, hTake, List.append_assoc, List.append_cancel_left_eq] at hSame
      rw [← List.append_assoc] at hSame
      exact (List.append_inj hSame (by simp at *; omega)).1
    by_cases hIv : p.startState.iv = p.iv
    · by_cases hCut' : p.prefixLength ≤ a ∨ 16 ∣ a
      · obtain ⟨st', hTracks, hStep⟩ := p.tracks_start.fragment p.header (by omega : 0 < a)
          (by omega) hCut'
        refine .inl ⟨.inr ⟨hFront, ⟨hFound.2, hIv⟩, hCut'⟩, st', hTracks,
          forall_congr' fun aes => forall_congr' fun key => ?_⟩
        obtain ⟨hStep, hPrefix⟩ := hStep aes key
        rw [hIv] at hStep hPrefix
        simp only [decryptMarked, TsPacket.bytes, TsPacket.left, hRun, hMinus, hStep, List.map_cons,
          lay, Pes.decrypted, hTake, hDrop, hPrefix, hRest, List.append_assoc,
          List.append_cancel_left_eq]
      · refine .inr ⟨fun hS => hCut' (hS.resolve_left hPos.ne').2.2, fun hRight => ?_⟩
        rw [not_or, not_le] at hCut'
        obtain ⟨aes, hBroken⟩ := p.tracks_start.fragment_broken p.header hCut'.1 hCut'.2
        exact hBroken Block.zero (by rw [hIv]; exact hFirst hRight aes)
    · refine .inr ⟨fun hS => hIv (hS.resolve_left hPos.ne').2.1.2, fun hRight => ?_⟩
      exact hIv (decryptFragment_iv p.tracks_start hPos (by omega)
        (hFirst hRight fun _ => Equiv.refl Block))
  · have hRun (aes : Aes) (key : Block) := decryptTsPacket_missed (if opens then .init else st)
      aes key hStarts hRoom hFound
    by_cases hNone : p.prefixLength = 0
    · refine .inl ⟨.inl hNone, { (if opens then .init else st) with remaining := 0 }, ?_, ?_⟩
      · rw [hNone, Nat.zero_sub]
        exact ⟨by simp, by simp, le_refl 0, .inl (by simp)⟩
      · refine forall_congr' fun aes => forall_congr' fun key => ?_
        have hSame : p.decrypted aes key = p.bytes := by rw [Pes.decrypted, hNone]; rfl
        simp only [decryptMarked, TsPacket.bytes, TsPacket.left, hRun, List.map_cons, lay, hSame,
          hNone, Nat.zero_sub, decryptPrefix_zero, List.append_assoc, List.append_cancel_left_eq]
    · refine .inr ⟨fun hS => ?_, fun hRight => ?_⟩
      · obtain ⟨hFront, hRepeats, -⟩ := hS.resolve_left hNone
        exact hFound ⟨hFront, hRepeats.1⟩
      · obtain ⟨aes, hUnlike⟩ := not_all_prefix p.iv hBlocks hFits (by omega)
        refine hUnlike Block.zero ?_
        have hSame := hRight aes Block.zero
        have hLength := p.length_decrypted aes Block.zero
        simp only [decryptMarked, TsPacket.bytes, TsPacket.left, hRun, List.map_cons, lay,
          List.append_assoc, List.append_cancel_left_eq] at hSame
        obtain ⟨hChunk, hTail⟩ := List.append_inj hSame (by simp; omega)
        have hDrop := eq_of_idle (le_refl 0) (by simp; omega) (by simpa using hCut) hTail
        have hWhole : p.bytes = p.decrypted aes Block.zero := by
          rw [← List.take_append_drop c.room p.bytes, hChunk, hDrop, List.take_append_drop]
        exact List.append_cancel_left hWhole

/-- A packet that begins an RTP packet, with nothing left to decrypt. -/
theorem right_opens (opens : Bool) (hOpens : opens = true → n = 0) (t : TsPacket) :
    Right st n rest ((opens, t) :: ts) ↔
      Right (if opens then .init else st) n rest ((false, t) :: ts) := by
  cases opens with
  | false => rfl
  | true => rw [hOpens rfl]; rfl

/-- **Run lemma.** From a state that tracks the PES packet, the packets come out right
exactly when they follow what is taken for granted. -/
theorem right_iff_follows (hTracks : Tracks st n rest) (hCut : Cut rest.length (ts.map Prod.snd)) :
    Right st n rest ts ↔ Follows n ts := by
  induction ts generalizing st n rest with
  | nil => exact iff_of_true (fun _ _ => rfl) trivial
  | cons t ts ih =>
    obtain ⟨opens, t⟩ := t
    by_cases hOpens : opens = true → n = 0
    · rw [right_opens opens hOpens]
      have hTracks' : Tracks (if opens then .init else st) n rest := by
        cases opens with
        | false => exact hTracks
        | true =>
          rw [hOpens rfl]
          exact ⟨by simp, Nat.zero_le _, le_refl 0, .inl (by simp [PesDecState.init])⟩
      generalize (if opens then PesDecState.init else st) = st₁ at hTracks'
      cases t with
      | other o =>
        have hSkip : Right st₁ n rest ((false, .other o) :: ts) ↔ Right st₁ n rest ts := by
          refine forall_congr' fun aes => forall_congr' fun key => ?_
          simp only [decryptMarked, TsPacket.bytes, TsPacket.left, Bool.false_eq_true, if_false,
            decryptTsPacket_other, List.map_cons, lay, List.append_cancel_left_eq]
        rw [hSkip, ih hTracks' hCut]
        exact (and_iff_right hOpens).symm
      | next c hStarts =>
        rw [Follows, and_iff_right hOpens]
        obtain ⟨hGood, st', hTracks'', hStep⟩ | ⟨hBad, hWrong⟩ := right_next hTracks' hCut.1
        · rw [hStep, ih hTracks'' (by simpa using hCut.2)]
          exact (and_iff_right hGood).symm
        · exact iff_of_false hWrong fun h => hBad h.1
      | first c p hStarts =>
        rw [Follows, and_iff_right hOpens]
        obtain ⟨-, hRoom, hRest⟩ := hCut
        obtain ⟨hGood, st', hTracks'', hStep⟩ | ⟨hBad, hWrong⟩ := right_first false hRoom hRest
        · rw [hStep, ih hTracks'' (by simpa using hRest)]
          exact (and_iff_right hGood).symm
        · exact iff_of_false hWrong fun h => hBad h.1
    · obtain ⟨rfl, hSome⟩ := Classical.not_imp.mp hOpens
      refine iff_of_false (fun hRight => ?_) fun hFollows => ?_
      · -- the state is thrown away
        have hReset : ∀ aes key, decryptMarked aes key .init rest ((true, t) :: ts) =
            lay (Pes.decrypted aes key) (decryptPrefix aes key st.iv n rest)
              (((true, t) :: ts).map Prod.snd) := hRight
        exact not_right_of_idle hTracks.blocks hTracks.fits (Nat.pos_of_ne_zero hSome) (le_refl 0)
          st.iv hCut hReset
      · cases t <;> exact hSome (hFollows.1 rfl)

end Right

/-! ## RTP packets -/

theorem TsPacket.length_bytes {rest : Bytes} {t : TsPacket} {ts : List TsPacket}
    (hCut : Cut rest.length (t :: ts)) :
    (t.bytes Pes.bytes rest).length = tsPktSize ∧ Cut (t.left Pes.bytes rest).length ts := by
  cases t with
  | other o => exact ⟨o.hLength, hCut⟩
  | first c p hStarts =>
    obtain ⟨-, hRoom, hRest⟩ := hCut
    have hSize := c.head_add_room
    simp only [bytes, left, List.length_append, List.length_take, List.length_drop]
    exact ⟨by omega, hRest⟩
  | next c hStarts =>
    obtain ⟨hRoom, hRest⟩ := hCut
    have hSize := c.head_add_room
    simp only [bytes, left, List.length_append, List.length_take, List.length_drop]
    exact ⟨by omega, hRest⟩

/-- The packets of one RTP packet. -/
theorem length_lay {rest : Bytes} {ts us : List TsPacket} (hCut : Cut rest.length (ts ++ us)) :
    (lay Pes.bytes rest ts).length = tsPktSize * ts.length ∧
      Cut (left Pes.bytes rest ts).length us := by
  induction ts generalizing rest with
  | nil => exact ⟨rfl, hCut⟩
  | cons t ts ih =>
    obtain ⟨hLength, hRest⟩ := TsPacket.length_bytes hCut
    obtain ⟨hTail, hEnd⟩ := ih hRest
    rw [lay, List.length_append, hLength, hTail, List.length_cons]
    exact ⟨by rw [Nat.mul_succ, Nat.add_comm], hEnd⟩

/-- The loop of `decrypt_ts_media` visits the packets one by one. -/
theorem decryptTsPackets_lay (aes : Aes) (key : Block) {st : PesDecState} {rest : Bytes}
    {ts us : List TsPacket} (hCut : Cut rest.length (ts ++ us)) :
    decryptTsPackets aes key ts.length st (lay Pes.bytes rest ts) =
      decryptMarked aes key st rest (ts.map (false, ·)) := by
  induction ts generalizing st rest with
  | nil => rfl
  | cons t ts ih =>
    obtain ⟨hLength, hRest⟩ := TsPacket.length_bytes hCut
    simp only [List.length_cons, decryptTsPackets, lay, List.map_cons, decryptMarked,
      Bool.false_eq_true, if_false, ← hLength, List.take_left, List.drop_left]
    rw [ih hRest]

theorem decryptTsMedia_lay (aes : Aes) (key : Block) (st : PesDecState) {rest : Bytes}
    {ts us : List TsPacket} (hSome : ts ≠ []) (hCut : Cut rest.length (ts ++ us)) :
    decryptTsMedia aes key (lay Pes.bytes rest ts) = decryptMarked aes key st rest (marked ts) := by
  have hCount : (lay Pes.bytes rest ts).length / tsPktSize = ts.length := by
    rw [(length_lay hCut).1]
    exact Nat.mul_div_cancel_left _ (by decide)
  rw [decryptTsMedia, hCount, decryptTsPackets_lay aes key hCut]
  cases ts with
  | nil => exact absurd rfl hSome
  | cons t ts => rfl

/-- What comes behind some packets goes on from the state they leave. -/
theorem decryptMarked_append (aes : Aes) (key : Block) (st : PesDecState) (rest : Bytes)
    (ts : List (Bool × TsPacket)) :
    ∃ st', ∀ us, decryptMarked aes key st rest (ts ++ us) =
      decryptMarked aes key st rest ts ++
        decryptMarked aes key st' (left Pes.bytes rest (ts.map Prod.snd)) us := by
  induction ts generalizing st rest with
  | nil => exact ⟨st, fun us => rfl⟩
  | cons t ts ih =>
    obtain ⟨opens, t⟩ := t
    obtain ⟨st', hRest⟩ := ih
      (decryptTsPacket aes key (if opens then .init else st) (t.bytes Pes.bytes rest)).1
      (t.left Pes.bytes rest)
    refine ⟨st', fun us => ?_⟩
    simp only [List.cons_append, decryptMarked, hRest, List.append_assoc]
    rfl

theorem map_marked (ts : List TsPacket) : (marked ts).map Prod.snd = ts := by
  cases ts with
  | nil => rfl
  | cons t ts => simp [marked, Function.comp_def]

namespace RtpPacket

variable (r : RtpPacket) {ts : Bytes}

/-- The packet without its TS packets. -/
def shell : RtpShell where
  flags := r.flags
  fixed := r.fixed
  csrcs := r.csrcs
  extension := r.extension
  padding := r.padding
  hVersion := r.hVersion
  hCsrcs := r.hCsrcs
  hExtended := r.hExtended
  hExtension := r.hExtension
  hPadded := r.hPadded
  hPadding := r.hPadding

theorem length_wrap (ts : Bytes) :
    (r.wrap ts).length = 12 + r.csrcs.length + (r.extension.elim 0 fun x => 4 + x.2.length) +
      ts.length + r.padding.elim 0 fun filler => filler.length + 1 := by
  have hLength := r.shell.length_wrap ts
  rw [r.shell.length_header, r.shell.length_trailer] at hLength
  exact hLength

/-- The header is stripped, and the padding. -/
theorem rtpPayload_wrap (hLength : ts.length = tsPktSize * r.packets.length) (hSome : ts ≠ []) :
    rtpPayload (r.wrap ts) = ts := by
  have hFits := r.hSize
  have hSize : (r.shell.wrap ts).length ≤ 4096 := by
    rw [show r.shell.wrap ts = r.wrap ts from rfl, r.length_wrap]
    omega
  have hPayload := r.shell.rtpPayload_wrap hSize
  rw [if_neg hSome] at hPayload
  exact hPayload

/-- The reader takes the packet off the front of the connection. -/
theorem rtpPackets_frame (fuel : Nat) (rest : Bytes)
    (hSize : ts.length = tsPktSize * r.packets.length) :
    rtpPackets (fuel + 1) (r.frame ts ++ rest) = r.wrap ts :: rtpPackets fuel rest := by
  have hLength := r.length_wrap ts
  have hFits := r.hSize
  have hCount : (UInt16.ofNat (r.wrap ts).length).toNat = (r.wrap ts).length :=
    UInt16.toNat_ofNat_of_lt' (by simp only [UInt16.size]; omega)
  have hNext : interleavedHeader (r.frame ts ++ rest) =
      some (some (r.wrap ts).length, r.wrap ts ++ rest) := by
    simp only [frame, putBe16, List.cons_append, List.nil_append, interleavedHeader, if_true,
      getBe16_putBe16, hCount]
  rw [rtpPackets, hNext]
  simp only
  rw [if_neg (by omega), if_neg (by simp), List.take_left, List.drop_left]

end RtpPacket

namespace AudioStream

/-- The packets are read as they were sent. -/
theorem rtpPackets_frames {rest : Bytes} {rs : List RtpPacket} {fuel : Nat}
    (hFuel : rs.length ≤ fuel) (hCut : Cut rest.length (rs.flatMap RtpPacket.packets))
    (aes : Aes) (key : Block) (st : PesDecState) :
    (rtpPackets fuel (frames rest rs)).flatMap (mediaPayload aes (some key)) =
      decryptMarked aes key st rest (rs.flatMap fun r => marked r.packets) := by
  induction rs generalizing rest fuel st with
  | nil => cases fuel <;> rfl
  | cons r rs ih =>
    obtain ⟨fuel, rfl⟩ := Nat.exists_eq_add_of_le' (Nat.zero_lt_of_lt hFuel : 1 ≤ fuel)
    rw [List.flatMap_cons] at hCut
    obtain ⟨hLength, hRest⟩ := length_lay hCut
    have hSome : lay Pes.bytes rest r.packets ≠ [] := by
      rw [← List.length_pos_iff, hLength]
      exact Nat.mul_pos (by decide) (List.length_pos_iff.mpr r.hPackets)
    obtain ⟨st', hAppend⟩ := decryptMarked_append aes key st rest (marked r.packets)
    rw [List.flatMap_cons, hAppend, map_marked, frames, r.rtpPackets_frame fuel _ hLength,
      List.flatMap_cons, ih (by simpa using hFuel) hRest st', mediaPayload,
      r.rtpPayload_wrap hLength hSome, decryptTsMedia_lay aes key st r.hPackets hCut]

/-- What `media_receive_task` hands to the ring buffer. -/
def received (aes : Aes) (key : Block) (s : AudioStream) : Bytes :=
  mediaReceive aes (some key) s.sent

theorem length_frames (rest : Bytes) (rs : List RtpPacket) : rs.length ≤ (frames rest rs).length := by
  induction rs generalizing rest with
  | nil => exact Nat.zero_le _
  | cons r rs ih =>
    have hRest := ih (left Pes.bytes rest r.packets)
    simp only [frames, RtpPacket.frame, List.length_append, List.length_cons]
    omega

/-- **Packetisation.** The ring buffer is handed what it ought to be handed, under every
cipher and key, if and only if the stream follows what `decrypt_ts_media` takes for
granted. -/
theorem received_iff (s : AudioStream) :
    (∀ aes key, s.received aes key = s.expected aes key) ↔ s.Follows := by
  have hTracks : Tracks .init 0 [] := ⟨by simp, le_refl 0, le_refl 0, .inl (by decide)⟩
  have hMarks : (s.packets.flatMap fun r => marked r.packets).map Prod.snd =
      s.packets.flatMap RtpPacket.packets := by
    simp only [List.map_flatMap, map_marked]
  rw [Follows, ← right_iff_follows hTracks (by rw [hMarks]; exact s.hCut)]
  have hCut : Cut ([] : Bytes).length (s.packets.flatMap RtpPacket.packets) := s.hCut
  refine forall_congr' fun aes => forall_congr' fun key => ?_
  rw [received, mediaReceive, sent,
    rtpPackets_frames (length_frames [] s.packets) hCut aes key .init, expected, hMarks,
    decryptPrefix_zero]

/-- A PES packet of 48 payload bytes, whose front has the IV where it is looked for, cut
in halves; both halves come in one RTP packet. -/
def halved : AudioStream where
  packets :=
    [{ channel := 0
       flags := 0x80
       fixed := List.Vector.replicate 11 0
       csrcs := []
       extension := none
       padding := none
       packets :=
         [.first
            { second := 0x51, fourth := 0x30, adaptation := some (List.replicate 133 0xFF)
              hPid := by decide, hControl := by decide, hAdaptation := by simp }
            { lead := 0x80, flags := 0x01, fields := [], extension := 0x80
              iv := List.Vector.replicate 16 1, rest := []
              payload := 0x80 :: List.replicate 16 1 ++ List.replicate 31 0, bounded := true
              hExtension := by decide, hPrivate := by decide, hFields := by decide
              hHeader := by decide, hBounded := by decide }
            (by decide),
          .next
            { second := 0x11, fourth := 0x31, adaptation := some (List.replicate 159 0xFF)
              hPid := by decide, hControl := by decide, hAdaptation := by simp }
            (by decide)]
       hVersion := by decide
       hCsrcs := by decide
       hExtended := by decide
       hExtension := by decide
       hPadded := by decide
       hPadding := by decide
       hPackets := by decide
       hSize := by decide }]
  hCut := ⟨rfl, by decide +kernel, by decide +kernel, Nat.sub_eq_zero_of_le (by decide +kernel)⟩

/-- The halves are not a whole number of blocks. -/
theorem cut_spoils : ¬∀ s aes key, received aes key s = expected aes key s := by
  intro hAll
  have hSame := hAll halved (fun _ => Equiv.refl Block) Block.zero
  revert hSame
  decide +kernel

end AudioStream

end EspMiplay.Miplay
