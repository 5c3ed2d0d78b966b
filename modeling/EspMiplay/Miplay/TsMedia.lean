import EspMiplay.Miplay.SafetyData

/-!
# From RTP to the ring buffer

The data path of `media_receive_task`: RTP packets are read off the interleaved
stream, their headers are stripped, and `decrypt_ts_media` decrypts the front of
every audio PES packet in place. What is left goes to the ring buffer.

`decrypt_ts_media` walks over the TS packets of one RTP packet. Its state
(`PesDecState`) begins anew with every call.
-/

namespace EspMiplay.Miplay

def tsPktSize : Nat := 188
def tsSyncByte : UInt8 := 0x47
def targetPid : UInt16 := 0x1100
/-- the encrypted prefix of a PES payload -/
def encryptPrefix : Int := 256

def getBe16 (b0 b1 : UInt8) : UInt16 := (b0.toUInt16 <<< 8) ||| b1.toUInt16

theorem getBe16_putBe16 (v : UInt16) : getBe16 (v >>> 8).toUInt8 v.toUInt8 = v := by
  apply UInt16.eq_of_toBitVec_eq
  have h8 : UInt16.toBitVec 8 % 16 = 8#16 := by decide
  simp only [getBe16, UInt16.toBitVec_or, UInt16.toBitVec_shiftLeft, UInt16.toBitVec_shiftRight,
    UInt8.toBitVec_toUInt16, UInt16.toBitVec_toUInt8, h8]
  generalize v.toBitVec = x
  apply BitVec.eq_of_getLsbD_eq
  intro i hi
  simp only [BitVec.getLsbD_or, BitVec.shiftLeft_eq', BitVec.ushiftRight_eq',
    BitVec.getLsbD_shiftLeft, BitVec.getLsbD_setWidth, BitVec.getLsbD_ushiftRight,
    BitVec.toNat_ofNat, hi, Nat.reduceMod, Nat.reducePow, decide_true, Bool.true_and]
  rcases Nat.lt_or_ge i 8 with h | h
  · simp [h]
  · simp [Nat.not_lt.mpr h, Nat.add_sub_cancel' h, show i - 8 < 8 by omega,
      show i - 8 < 16 by omega]

/-! ## PES decryption -/

/-- Only the first sixteen bytes count. -/
theorem Block.ofBytes_take {k : Nat} {bs : Bytes} (hk : 16 ≤ k) (hLen : 16 ≤ bs.length) :
    Block.ofBytes (bs.take k) = Block.ofBytes bs := by
  apply List.Vector.eq
  rw [Block.toList_ofBytes (by rw [List.length_take]; omega), Block.toList_ofBytes hLen,
    List.take_take, Nat.min_eq_left hk]

/-- `pes_extract_iv`: the IV behind the header, as `PES_header_data_length` gives its length. -/
def pesExtractIv (pes : Bytes) : Option Block :=
  if pes.length < 9 then none
  else if pes.getD 7 0 &&& 0x01 = 0 then none
  else
    let cursor := 9 + (pes.getD 8 0).toNat
    if cursor + 17 > pes.length then none
    else if pes.getD cursor 0 &&& 0x80 = 0 then none
    else some (Block.ofBytes (pes.drop (cursor + 1)))

structure PesDecState where
  iv : Block
  /-- bytes of the current PES packet still to be decrypted -/
  remaining : Int

def PesDecState.init : PesDecState := ⟨Block.zero, 0⟩

/-- The state at the start of a PES packet, and where its payload starts. -/
def pesStart (st : PesDecState) (pes : Bytes) : PesDecState × Nat :=
  let pesLen : Int := (getBe16 (pes.getD 4 0) (pes.getD 5 0)).toNat
  let hdrLen := min (9 + (pes.getD 8 0).toNat) pes.length
  match pesExtractIv pes with
  | some iv =>
    let remaining := if pesLen > 0 then pesLen - hdrLen + 6 else encryptPrefix
    (⟨iv, if remaining > encryptPrefix then encryptPrefix else remaining⟩, hdrLen)
  | none => ({ st with remaining := 0 }, hdrLen)

/-- Decryption of what a TS packet carries, from `start` on. Only whole blocks of
this packet are decrypted. -/
def decryptFragment (aes : Aes) (streamKey : Block) (st : PesDecState) (start : Nat)
    (fragment : Bytes) : PesDecState × Bytes :=
  if st.remaining > 0 then
    let avail := fragment.length - start
    if avail = 0 then ({ st with remaining := 0 }, fragment)
    else
      let n := if (avail : Int) < st.remaining then avail else st.remaining.toNat
      let n := n - n % 16
      if n > 0 then
        match aesCbcDecrypt aes streamKey st.iv ((fragment.drop start).take n) with
        | some (output, iv) =>
          (⟨iv, if st.remaining - n ≤ 0 then 0 else st.remaining - n⟩,
            fragment.take start ++ output ++ fragment.drop (start + n))
        | none => (st, fragment)
      else (st, fragment)
  else (st, fragment)

/-- A state that has nothing to decrypt leaves a fragment alone. -/
theorem decryptFragment_idle {aes : Aes} {key : Block} {st : PesDecState} {start : Nat}
    (fragment : Bytes) (hIdle : st.remaining ≤ 0) :
    decryptFragment aes key st start fragment = (st, fragment) :=
  if_neg (not_lt.mpr hIdle)

theorem length_aesCbcDecrypt {aes : Aes} {key iv iv' : Block} {input output : Bytes}
    (h : aesCbcDecrypt aes key iv input = some (output, iv')) : output.length = input.length := by
  obtain ⟨hMod, hOutput, -⟩ := aesCbcDecrypt_eq_some h
  rw [← hOutput, length_ofBlocks, Cbc.length_decrypt, length_toBlocks]
  omega

/-- How many bytes of a fragment are decrypted, from `start` on. -/
def decryptCount (st : PesDecState) (start length : Nat) : Nat :=
  if st.remaining > 0 then
    let n := if ((length - start : Nat) : Int) < st.remaining then length - start
      else st.remaining.toNat
    n - n % 16
  else 0

theorem decryptCount_le (st : PesDecState) (start length : Nat) :
    decryptCount st start length ≤ length - start := by
  rw [decryptCount]
  split
  · simp only
    split <;> omega
  · exact Nat.zero_le _

/-- These bytes, and no others, are replaced by what CBC makes of them. -/
theorem decryptFragment_span (aes : Aes) (key : Block) (st : PesDecState) (start : Nat)
    (fragment : Bytes) :
    ∃ output iv, aesCbcDecrypt aes key st.iv
        ((fragment.drop start).take (decryptCount st start fragment.length)) = some (output, iv) ∧
      (decryptFragment aes key st start fragment).2 =
        fragment.take start ++ output ++
          fragment.drop (start + decryptCount st start fragment.length) := by
  have hNothing : ∃ output iv, aesCbcDecrypt aes key st.iv ((fragment.drop start).take 0) =
        some (output, iv) ∧ fragment = fragment.take start ++ output ++ fragment.drop (start + 0) :=
    ⟨[], st.iv, by simp [aesCbcDecrypt, toBlocks], by simp⟩
  rw [decryptFragment, decryptCount]
  simp only
  split
  · generalize hCount : (if ((fragment.length - start : Nat) : Int) < st.remaining then
      fragment.length - start else st.remaining.toNat) = n
    split
    · rename_i hEmpty
      have hZero : n - n % 16 = 0 := by
        rw [← hCount, hEmpty]
        split <;> omega
      rw [hZero]
      exact hNothing
    · have hFits : n ≤ fragment.length - start := by
        rw [← hCount]
        split <;> omega
      split
      · -- whole blocks are never refused
        have hBlocks : ¬((fragment.drop start).take (n - n % 16)).length % 16 ≠ 0 := by
          rw [List.length_take, List.length_drop, Nat.min_eq_left (by omega)]
          omega
        rw [aesCbcDecrypt, if_neg hBlocks]
        exact ⟨_, _, rfl, rfl⟩
      · have hZero : n - n % 16 = 0 := by omega
        rw [hZero]
        exact hNothing
  · exact hNothing

/-- One TS packet. -/
def decryptTsPacket (aes : Aes) (streamKey : Block) (st : PesDecState) (pkt : Bytes) :
    PesDecState × Bytes :=
  let pid := ((pkt.getD 1 0 &&& 0x1F).toUInt16 <<< 8) ||| (pkt.getD 2 0).toUInt16
  let afc := (pkt.getD 3 0 >>> 4) &&& 0x03
  let payOff := if afc = 3 then 5 + (pkt.getD 4 0).toNat else 4
  if pkt.getD 0 0 ≠ tsSyncByte ∨ pid ≠ targetPid ∨ afc = 0 ∨ afc = 2 ∨ payOff ≥ tsPktSize then
    (st, pkt)
  else
    let pes := pkt.drop payOff
    if pkt.getD 1 0 &&& 0x40 ≠ 0 then
      if pes.length < 9 ∨ pes.take 4 ≠ [0, 0, 1, 0xC0] then ({ st with remaining := 0 }, pkt)
      else
        let (st, start) := pesStart st pes
        let (st, pes) := decryptFragment aes streamKey st start pes
        (st, pkt.take payOff ++ pes)
    else
      let (st, pes) := decryptFragment aes streamKey st 0 pes
      (st, pkt.take payOff ++ pes)

def decryptTsPackets (aes : Aes) (streamKey : Block) : Nat → PesDecState → Bytes → Bytes
  | 0, _, buf => buf
  | n + 1, st, buf =>
    let r := decryptTsPacket aes streamKey st (buf.take tsPktSize)
    r.2 ++ decryptTsPackets aes streamKey n r.1 (buf.drop tsPktSize)

def decryptTsMedia (aes : Aes) (streamKey : Block) (buf : Bytes) : Bytes :=
  decryptTsPackets aes streamKey (buf.length / tsPktSize) .init buf

/-! ## RTP -/

/-- The TS packets of an RTP packet. -/
def rtpPayload (rtp : Bytes) : Bytes :=
  let b := rtp.getD 0 0
  if b &&& 0xC0 = 0x80 then
    let hdrLen := 12 + (b &&& 0x0F).toNat * 4
    let hdrLen :=
      if b &&& 0x10 ≠ 0 ∧ hdrLen + 4 ≤ rtp.length then
        hdrLen + 4 + (getBe16 (rtp.getD (hdrLen + 2) 0) (rtp.getD (hdrLen + 3) 0)).toNat * 4
      else hdrLen
    let padding := if b &&& 0x20 ≠ 0 then (rtp.getD (rtp.length - 1) 0).toNat else 0
    -- `end` may be negative, and is then no larger than `hdr_len`
    if hdrLen < rtp.length - padding then
      (rtp.drop hdrLen).take (rtp.length - padding - hdrLen)
    else rtp
  else rtp

/-- What an RTP packet brings to the ring buffer. -/
def mediaPayload (aes : Aes) (streamKey : Option Block) (rtp : Bytes) : Bytes :=
  match streamKey with
  | some key => decryptTsMedia aes key (rtpPayload rtp)
  | none => rtpPayload rtp

/-- The next interleaved header: `$`, channel, length. Behind a wrong marker one more byte
is looked at; `none` when the connection ends first. -/
def interleavedHeader : Bytes → Option (Option Nat × Bytes)
  | m :: c :: hi :: lo :: rest =>
    if m = 0x24 then some (some (getBe16 hi lo).toNat, rest)
    else
      match rest with
      | b :: rest =>
        some (if c = 0x24 then some (getBe16 lo b).toNat else none, rest)
      | [] => none
  | _ => none

/-- The RTP packets `media_receive_task` reads from a stream. -/
def rtpPackets : Nat → Bytes → List Bytes
  | 0, _ => []
  | fuel + 1, stream =>
    match interleavedHeader stream with
    | none => []
    | some (none, rest) => rtpPackets fuel rest
    | some (some len, rest) =>
      if len < 12 ∨ len > 4096 then rtpPackets fuel rest
      else if rest.length < len then []
      else rest.take len :: rtpPackets fuel (rest.drop len)

/-- What is handed to the ring buffer for a whole stream. Every round consumes a
header, so the length is fuel enough. -/
def mediaReceive (aes : Aes) (streamKey : Option Block) (stream : Bytes) : Bytes :=
  (rtpPackets stream.length stream).flatMap (mediaPayload aes streamKey)

end EspMiplay.Miplay
