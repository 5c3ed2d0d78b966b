import EspMiplay.Miplay.TsMedia

/-!
# `decrypt_ts_media` stays where it belongs

The packets and the PES headers that `decrypt_ts_media` walks over come from the
network, and with them every offset it computes. Here it runs on the buffer
itself, each read and each write going through `Access`, which faults outside
the buffer.

## Results

* `decryptTsMediaIn_ok`       — no access faults, whatever the buffer holds, and
  the loop computes what `decryptTsMedia` does.
* `decryptTsPacket_local`     — one packet is changed in its payload area only.
* `decryptTsMedia_local`      — the whole buffer: memory safety and locality.
* `InPayload.behind_headers`  — what lies outside of every payload area.
-/

namespace EspMiplay.Miplay

-- ---------------------------------------------------------------------------
-- The code on its buffer
-- ---------------------------------------------------------------------------

def writeSpan (buf : Bytes) (off : Nat) (data : Bytes) : Access Bytes :=
  if off + data.length ≤ buf.length then
    .ok (buf.take off ++ data ++ buf.drop (off + data.length))
  else .error .writePastOut

/-- `pes_extract_iv` of the `pesLen` bytes at `pes`. -/
def pesExtractIvIn (buf : Bytes) (pes pesLen : Nat) : Access (Option Block) := do
  if pesLen < 9 then return none
  let flags ← readByte buf (pes + 7)
  if flags &&& 0x01 = 0 then return none
  let dataLength ← readByte buf (pes + 8)
  let cursor := 9 + dataLength.toNat
  if cursor + 17 > pesLen then return none
  let extension ← readByte buf (pes + cursor)
  if extension &&& 0x80 = 0 then return none
  let iv ← readSpan buf (pes + (cursor + 1)) 16
  return some (Block.ofBytes iv)

/-- The decryption of what a packet carries: `pay` is where its payload begins. -/
def decryptFragmentIn (aes : Aes) (streamKey : Block) (st : PesDecState) (buf : Bytes)
    (pay payLen start : Nat) : Access (PesDecState × Bytes) := do
  if st.remaining > 0 then
    if payLen - start = 0 then return ({ st with remaining := 0 }, buf)
    let n := if ((payLen - start : Nat) : Int) < st.remaining then payLen - start
      else st.remaining.toNat
    let n := n - n % 16
    if n > 0 then
      let input ← readSpan buf (pay + start) n
      match aesCbcDecrypt aes streamKey st.iv input with
      | some (output, iv) =>
        let buf ← writeSpan buf (pay + start) output
        return (⟨iv, if st.remaining - n ≤ 0 then 0 else st.remaining - n⟩, buf)
      | none => return (st, buf)
    else return (st, buf)
  else return (st, buf)

/-- `pay_off`: the length of the adaptation field is read if there is one. -/
def payOffIn (buf : Bytes) (off : Nat) (afc : UInt8) : Access Nat := do
  if afc = 3 then
    let length ← readByte buf (off + 4)
    return 5 + length.toNat
  else return 4

/-- One round of the loop: the packet at `off`. -/
def decryptTsPacketIn (aes : Aes) (streamKey : Block) (st : PesDecState) (buf : Bytes)
    (off : Nat) : Access (PesDecState × Bytes) := do
  let b0 ← readByte buf off
  if b0 ≠ tsSyncByte then return (st, buf)
  let b1 ← readByte buf (off + 1)
  let b2 ← readByte buf (off + 2)
  if ((b1 &&& 0x1F).toUInt16 <<< 8) ||| b2.toUInt16 ≠ targetPid then return (st, buf)
  let b3 ← readByte buf (off + 3)
  let afc := (b3 >>> 4) &&& 0x03
  if afc = 0 ∨ afc = 2 then return (st, buf)
  let payOff ← payOffIn buf off afc
  if payOff ≥ tsPktSize then return (st, buf)
  let payLen := tsPktSize - payOff
  if b1 &&& 0x40 ≠ 0 then
    if payLen < 9 then return ({ st with remaining := 0 }, buf)
    let startCode ← readSpan buf (off + payOff) 4
    if startCode ≠ [0, 0, 1, 0xC0] then return ({ st with remaining := 0 }, buf)
    let high ← readByte buf (off + payOff + 4)
    let low ← readByte buf (off + payOff + 5)
    let dataLength ← readByte buf (off + payOff + 8)
    let pesLen : Int := (getBe16 high low).toNat
    let hdrLen := min (9 + dataLength.toNat) payLen
    match ← pesExtractIvIn buf (off + payOff) payLen with
    | some iv =>
      let remaining := if pesLen > 0 then pesLen - hdrLen + 6 else encryptPrefix
      let st := ⟨iv, if remaining > encryptPrefix then encryptPrefix else remaining⟩
      decryptFragmentIn aes streamKey st buf (off + payOff) payLen hdrLen
    | none =>
      decryptFragmentIn aes streamKey { st with remaining := 0 } buf (off + payOff) payLen hdrLen
  else decryptFragmentIn aes streamKey st buf (off + payOff) payLen 0

/-- The loop from `off` on. -/
def decryptTsFrom (aes : Aes) (streamKey : Block) (tsLen off : Nat) (st : PesDecState)
    (buf : Bytes) : Access Bytes :=
  if off + tsPktSize ≤ tsLen then do
    let r ← decryptTsPacketIn aes streamKey st buf off
    decryptTsFrom aes streamKey tsLen (off + tsPktSize) r.1 r.2
  else .ok buf
termination_by tsLen - off
decreasing_by
  simp only [tsPktSize] at *
  omega

def decryptTsMediaIn (aes : Aes) (streamKey : Block) (buf : Bytes) : Access Bytes :=
  decryptTsFrom aes streamKey buf.length 0 .init buf

-- ---------------------------------------------------------------------------
-- Which packets are looked into
-- ---------------------------------------------------------------------------

/-- Where the payload of a packet begins. -/
def payOffOf (pkt : Bytes) : Nat :=
  if (pkt.getD 3 0 >>> 4) &&& 0x03 = 3 then 5 + (pkt.getD 4 0).toNat else 4

/-- A packet of the audio PID with a payload. -/
def CarriesAudio (pkt : Bytes) : Prop :=
  pkt.getD 0 0 = tsSyncByte ∧
    ((pkt.getD 1 0 &&& 0x1F).toUInt16 <<< 8) ||| (pkt.getD 2 0).toUInt16 = targetPid ∧
    (pkt.getD 3 0 >>> 4) &&& 0x03 ≠ 0 ∧ (pkt.getD 3 0 >>> 4) &&& 0x03 ≠ 2 ∧
    payOffOf pkt < tsPktSize

instance (pkt : Bytes) : Decidable (CarriesAudio pkt) :=
  inferInstanceAs (Decidable (_ ∧ _ ∧ _ ∧ _ ∧ _))

/-- `payload_unit_start_indicator` -/
def Pusi (pkt : Bytes) : Prop := pkt.getD 1 0 &&& 0x40 ≠ 0

instance (pkt : Bytes) : Decidable (Pusi pkt) := inferInstanceAs (Decidable (_ ≠ _))

/-- An audio PES packet begins, and the fixed part of its header is all there. -/
def StartsPes (pes : Bytes) : Prop := 9 ≤ pes.length ∧ pes.take 4 = [0, 0, 1, 0xC0]

instance (pes : Bytes) : Decidable (StartsPes pes) := inferInstanceAs (Decidable (_ ∧ _))

section Cases

variable {aes : Aes} {key : Block} {st : PesDecState} {pkt : Bytes}

theorem decryptTsPacket_skipped (h : ¬CarriesAudio pkt) :
    decryptTsPacket aes key st pkt = (st, pkt) := by
  rw [decryptTsPacket, if_pos]
  simp only [CarriesAudio, payOffOf, not_and_or, not_not, Nat.not_lt] at h
  exact h

theorem CarriesAudio.not_skipped (h : CarriesAudio pkt) :
    ¬(pkt.getD 0 0 ≠ tsSyncByte ∨
      ((pkt.getD 1 0 &&& 0x1F).toUInt16 <<< 8) ||| (pkt.getD 2 0).toUInt16 ≠ targetPid ∨
      (pkt.getD 3 0 >>> 4) &&& 0x03 = 0 ∨ (pkt.getD 3 0 >>> 4) &&& 0x03 = 2 ∨
      payOffOf pkt ≥ tsPktSize) := by
  obtain ⟨hSync, hPid, hNone, hOnly, hPay⟩ := h
  simp only [not_or, not_not, ge_iff_le, Nat.not_le]
  exact ⟨hSync, hPid, hNone, hOnly, hPay⟩

/-- The payload goes on from the packet before. -/
theorem decryptTsPacket_continues (h : CarriesAudio pkt) (hPusi : ¬Pusi pkt) :
    decryptTsPacket aes key st pkt =
      ((decryptFragment aes key st 0 (pkt.drop (payOffOf pkt))).1,
        pkt.take (payOffOf pkt) ++ (decryptFragment aes key st 0 (pkt.drop (payOffOf pkt))).2) := by
  have hSkip := h.not_skipped
  rw [payOffOf] at hSkip
  rw [Pusi] at hPusi
  rw [decryptTsPacket, if_neg hSkip]
  dsimp only
  rw [if_neg hPusi]
  rfl

theorem decryptTsPacket_broken (h : CarriesAudio pkt) (hPusi : Pusi pkt)
    (hPes : ¬StartsPes (pkt.drop (payOffOf pkt))) :
    decryptTsPacket aes key st pkt = ({ st with remaining := 0 }, pkt) := by
  have hSkip := h.not_skipped
  rw [StartsPes, not_and_or, Nat.not_le] at hPes
  rw [payOffOf] at hSkip hPes
  rw [Pusi] at hPusi
  rw [decryptTsPacket, if_neg hSkip]
  dsimp only
  rw [if_pos hPusi, if_pos hPes]

theorem decryptTsPacket_starts (h : CarriesAudio pkt) (hPusi : Pusi pkt)
    (hPes : StartsPes (pkt.drop (payOffOf pkt))) :
    decryptTsPacket aes key st pkt =
      ((decryptFragment aes key (pesStart st (pkt.drop (payOffOf pkt))).1
          (pesStart st (pkt.drop (payOffOf pkt))).2 (pkt.drop (payOffOf pkt))).1,
        pkt.take (payOffOf pkt) ++
          (decryptFragment aes key (pesStart st (pkt.drop (payOffOf pkt))).1
            (pesStart st (pkt.drop (payOffOf pkt))).2 (pkt.drop (payOffOf pkt))).2) := by
  have hSkip := h.not_skipped
  have hStart : ¬((pkt.drop (payOffOf pkt)).length < 9 ∨
      (pkt.drop (payOffOf pkt)).take 4 ≠ [0, 0, 1, 0xC0]) := by
    rw [not_or, not_not, Nat.not_lt]
    exact hPes
  rw [payOffOf] at hSkip hStart
  rw [Pusi] at hPusi
  rw [decryptTsPacket, if_neg hSkip]
  dsimp only
  rw [if_pos hPusi, if_neg hStart]
  rfl

end Cases

-- ---------------------------------------------------------------------------
-- Accesses to a packet
-- ---------------------------------------------------------------------------

/-- The packet at `off`. -/
def packetAt (buf : Bytes) (off : Nat) : Bytes := (buf.drop off).take tsPktSize

/-- The buffer with another packet at `off`. -/
def replaced (buf : Bytes) (off : Nat) (pkt : Bytes) : Bytes :=
  buf.take off ++ pkt ++ buf.drop (off + tsPktSize)

section Packet

variable {buf : Bytes} {off : Nat}

theorem length_packetAt (hOff : off + tsPktSize ≤ buf.length) :
    (packetAt buf off).length = tsPktSize := by
  rw [packetAt, List.length_take, List.length_drop]
  omega

theorem length_replaced (hOff : off + tsPktSize ≤ buf.length) {pkt : Bytes}
    (hPkt : pkt.length = tsPktSize) : (replaced buf off pkt).length = buf.length := by
  simp only [replaced, List.length_append, List.length_take, List.length_drop, hPkt]
  omega

theorem replaced_self : replaced buf off (packetAt buf off) = buf := by
  rw [replaced, packetAt, ← List.drop_drop, List.append_assoc, List.take_append_drop,
    List.take_append_drop]

theorem readByte_packet (hOff : off + tsPktSize ≤ buf.length) {i : Nat} (hi : i < tsPktSize) :
    readByte buf (off + i) = .ok ((packetAt buf off).getD i 0) := by
  have hLt : off + i < buf.length := by omega
  rw [readByte, List.getElem?_eq_getElem hLt, List.getD_eq_getElem?_getD, packetAt,
    List.getElem?_take_of_lt hi, List.getElem?_drop, List.getElem?_eq_getElem hLt]
  rfl

theorem readByte_pes (hOff : off + tsPktSize ≤ buf.length) {payOff i : Nat}
    (hi : payOff + i < tsPktSize) :
    readByte buf (off + payOff + i) = .ok (((packetAt buf off).drop payOff).getD i 0) := by
  rw [Nat.add_assoc, readByte_packet hOff hi, List.getD_eq_getElem?_getD, List.getD_eq_getElem?_getD,
    List.getElem?_drop]

theorem readSpan_pes (hOff : off + tsPktSize ≤ buf.length) {payOff i n : Nat}
    (hi : payOff + i + n ≤ tsPktSize) :
    readSpan buf (off + payOff + i) n =
      .ok ((((packetAt buf off).drop payOff).drop i).take n) := by
  rw [readSpan, if_pos (by omega), packetAt, List.drop_drop, List.drop_take, List.drop_drop,
    List.take_take, Nat.min_eq_left (by omega), Nat.add_assoc]

theorem readStartCode (hOff : off + tsPktSize ≤ buf.length) {payOff : Nat}
    (hPay : payOff + 4 ≤ tsPktSize) :
    readSpan buf (off + payOff) 4 = .ok (((packetAt buf off).drop payOff).take 4) := by
  have hSpan := readSpan_pes hOff (i := 0) hPay
  rw [Nat.add_zero, List.drop_zero] at hSpan
  exact hSpan

theorem writeSpan_pes (hOff : off + tsPktSize ≤ buf.length) {payOff i : Nat} {data : Bytes}
    (hi : payOff + i + data.length ≤ tsPktSize) :
    writeSpan buf (off + payOff + i) data =
      .ok (replaced buf off ((packetAt buf off).take payOff ++
        (((packetAt buf off).drop payOff).take i ++ data ++
          ((packetAt buf off).drop payOff).drop (i + data.length)))) := by
  have hFront : buf.take (off + payOff + i) =
      buf.take off ++ ((packetAt buf off).take payOff ++ ((packetAt buf off).drop payOff).take i) := by
    rw [← List.take_add, packetAt, List.take_take, Nat.min_eq_left (by omega), Nat.add_assoc,
      List.take_add]
  have hBack : buf.drop (off + payOff + i + data.length) =
      ((packetAt buf off).drop payOff).drop (i + data.length) ++ buf.drop (off + tsPktSize) := by
    have hLength := length_packetAt hOff
    have hWhole : buf.drop off = packetAt buf off ++ buf.drop (off + tsPktSize) := by
      rw [packetAt, ← List.drop_drop, List.take_append_drop]
    rw [List.drop_drop, Nat.add_assoc off, Nat.add_assoc off, ← List.drop_drop, hWhole,
      List.drop_append_of_le_length (by omega), Nat.add_assoc payOff]
  rw [writeSpan, if_pos (by omega), hFront, hBack, replaced]
  simp only [List.append_assoc]

-- ---------------------------------------------------------------------------
-- No access faults
-- ---------------------------------------------------------------------------

theorem pesExtractIvIn_ok (hOff : off + tsPktSize ≤ buf.length) {payOff : Nat}
    (hPay : payOff < tsPktSize) :
    pesExtractIvIn buf (off + payOff) (tsPktSize - payOff) =
      .ok (pesExtractIv ((packetAt buf off).drop payOff)) := by
  have hLength : ((packetAt buf off).drop payOff).length = tsPktSize - payOff := by
    rw [List.length_drop, length_packetAt hOff]
  rw [pesExtractIvIn, pesExtractIv, hLength]
  by_cases hShort : tsPktSize - payOff < 9
  · rw [if_pos hShort, if_pos hShort]
    rfl
  rw [if_neg hShort, if_neg hShort, readByte_pes hOff (by omega), readByte_pes hOff (by omega)]
  simp only [bind, Except.bind]
  split
  · rfl
  split
  · rfl
  · rename_i hRoom
    rw [readByte_pes hOff (by omega)]
    simp only
    split
    · rfl
    · rw [readSpan_pes hOff (by omega)]
      simp only [pure, Except.pure]
      rw [Block.ofBytes_take (le_refl _) (by rw [List.length_drop, hLength]; omega)]

theorem decryptFragmentIn_ok (aes : Aes) (key : Block) (st : PesDecState)
    (hOff : off + tsPktSize ≤ buf.length) (payOff start : Nat) :
    decryptFragmentIn aes key st buf (off + payOff) (tsPktSize - payOff) start =
      .ok ((decryptFragment aes key st start ((packetAt buf off).drop payOff)).1,
        replaced buf off ((packetAt buf off).take payOff ++
          (decryptFragment aes key st start ((packetAt buf off).drop payOff)).2)) := by
  have hLength : ((packetAt buf off).drop payOff).length = tsPktSize - payOff := by
    rw [List.length_drop, length_packetAt hOff]
  have hSame : replaced buf off ((packetAt buf off).take payOff ++ (packetAt buf off).drop payOff) =
      buf := by
    rw [List.take_append_drop, replaced_self]
  rw [decryptFragmentIn, decryptFragment, hLength]
  simp only
  split
  · split
    · rw [hSame]
      rfl
    · generalize hCount : (if ((tsPktSize - payOff - start : Nat) : Int) < st.remaining then
        tsPktSize - payOff - start else st.remaining.toNat) = n
      have hFits : n ≤ tsPktSize - payOff - start := by
        rw [← hCount]
        split
        · exact le_refl _
        · omega
      split
      · rw [readSpan_pes hOff (by omega)]
        simp only [bind, Except.bind]
        cases hDec : aesCbcDecrypt aes key st.iv
            ((((packetAt buf off).drop payOff).drop start).take (n - n % 16)) with
        | none =>
          simp only [hSame]
          rfl
        | some x =>
          obtain ⟨output, iv⟩ := x
          have hOutput := length_aesCbcDecrypt hDec
          rw [List.length_take, List.length_drop, hLength, Nat.min_eq_left (by omega)] at hOutput
          simp only
          rw [writeSpan_pes hOff (by omega), hOutput]
          rfl
      · rw [hSame]
        rfl
  · rw [hSame]
    rfl

theorem payOffIn_ok (hOff : off + tsPktSize ≤ buf.length) (afc : UInt8) :
    payOffIn buf off afc =
      .ok (if afc = 3 then 5 + ((packetAt buf off).getD 4 0).toNat else 4) := by
  rw [payOffIn]
  split
  · rw [readByte_packet hOff (by decide)]
    rfl
  · rfl

theorem decryptTsPacketIn_ok (aes : Aes) (key : Block) (st : PesDecState)
    (hOff : off + tsPktSize ≤ buf.length) :
    decryptTsPacketIn aes key st buf off =
      .ok ((decryptTsPacket aes key st (packetAt buf off)).1,
        replaced buf off (decryptTsPacket aes key st (packetAt buf off)).2) := by
  have hFirst : readByte buf off = .ok ((packetAt buf off).getD 0 0) := by
    rw [← readByte_packet hOff (by decide)]
    rfl
  rw [decryptTsPacketIn, hFirst, readByte_packet hOff (by decide), readByte_packet hOff (by decide),
    readByte_packet hOff (by decide)]
  simp only [bind, Except.bind, pure, Except.pure, payOffIn_ok hOff]
  rw [← payOffOf]
  by_cases hAudio : CarriesAudio (packetAt buf off)
  case neg =>
    rw [decryptTsPacket_skipped hAudio, replaced_self]
    simp only [CarriesAudio, not_and_or, not_not, Nat.not_lt] at hAudio
    rcases hAudio with hSync | hPid | hNone | hOnly | hPay
    · rw [if_pos hSync]
    · simp only [if_pos hPid, ite_self]
    · simp only [hNone, true_or, if_true, ite_self]
    · simp only [hOnly, or_true, if_true, ite_self]
    · simp only [if_pos (show payOffOf (packetAt buf off) ≥ tsPktSize from hPay), ite_self]
  case pos =>
    have hLength : ((packetAt buf off).drop (payOffOf (packetAt buf off))).length =
        tsPktSize - payOffOf (packetAt buf off) := by
      rw [List.length_drop, length_packetAt hOff]
    obtain ⟨hSync, hPid, hNone, hOnly, hPay⟩ := id hAudio
    rw [if_neg (not_not.mpr hSync), if_neg (not_not.mpr hPid), if_neg (not_or.mpr ⟨hNone, hOnly⟩),
      if_neg (Nat.not_le.mpr hPay)]
    by_cases hPusi : Pusi (packetAt buf off)
    case neg =>
      rw [decryptTsPacket_continues hAudio hPusi, if_neg (by exact hPusi)]
      exact decryptFragmentIn_ok aes key st hOff _ 0
    case pos =>
      rw [if_pos (by exact hPusi)]
      by_cases hPes : StartsPes ((packetAt buf off).drop (payOffOf (packetAt buf off)))
      case neg =>
        rw [decryptTsPacket_broken hAudio hPusi hPes, replaced_self]
        by_cases hShort : tsPktSize - payOffOf (packetAt buf off) < 9
        · rw [if_pos hShort]
        · have hCode : ((packetAt buf off).drop (payOffOf (packetAt buf off))).take 4 ≠
              [0, 0, 1, 0xC0] := fun h => hPes ⟨by omega, h⟩
          rw [if_neg hShort, readStartCode hOff (by omega)]
          simp only [if_pos hCode]
      case pos =>
        rw [decryptTsPacket_starts hAudio hPusi hPes, pesStart, hLength]
        obtain ⟨hRoom, hCode⟩ := hPes
        rw [if_neg (by omega), readStartCode hOff (by omega)]
        simp only [if_neg (not_not.mpr hCode)]
        rw [readByte_pes hOff (by omega), readByte_pes hOff (by omega), readByte_pes hOff (by omega),
          pesExtractIvIn_ok hOff hPay]
        simp only
        cases pesExtractIv ((packetAt buf off).drop (payOffOf (packetAt buf off))) with
        | none => exact decryptFragmentIn_ok aes key _ hOff _ _
        | some iv => exact decryptFragmentIn_ok aes key _ hOff _ _

end Packet

-- ---------------------------------------------------------------------------
-- What a fragment may change
-- ---------------------------------------------------------------------------

section Fragment

variable (aes : Aes) (key : Block) (st : PesDecState) (start : Nat) (fragment : Bytes)

theorem length_decryptFragment_out :
    (decryptFragment aes key st start fragment).2.length = fragment.length := by
  obtain ⟨output, iv, hDec, hOut⟩ := decryptFragment_span aes key st start fragment
  have hCount := decryptCount_le st start fragment.length
  have hOutput := length_aesCbcDecrypt hDec
  rw [List.length_take, List.length_drop, Nat.min_eq_left hCount] at hOutput
  rw [hOut, List.length_append, List.length_append, List.length_take, List.length_drop, hOutput]
  omega

/-- In front of `start` nothing changes. -/
theorem decryptFragment_front :
    (decryptFragment aes key st start fragment).2.take start = fragment.take start := by
  obtain ⟨output, iv, hDec, hOut⟩ := decryptFragment_span aes key st start fragment
  have hCount := decryptCount_le st start fragment.length
  have hOutput := length_aesCbcDecrypt hDec
  rw [List.length_take, List.length_drop, Nat.min_eq_left hCount] at hOutput
  by_cases hStart : start ≤ fragment.length
  · rw [hOut, List.append_assoc, List.take_append_of_le_length (by rw [List.length_take]; omega),
      List.take_take, Nat.min_self]
  · -- a fragment that ends before `start` is left alone
    have hNone : output = [] := List.length_eq_zero_iff.mp (by omega)
    rw [hOut, hNone, List.append_nil, List.drop_of_length_le (by omega), List.append_nil,
      List.take_take, Nat.min_self]

theorem decryptFragment_remaining
    (h : 0 < (decryptFragment aes key st start fragment).1.remaining) : 0 < st.remaining := by
  by_contra hNone
  rw [decryptFragment_idle _ (Int.not_lt.mp hNone)] at h
  exact hNone h

end Fragment

-- ---------------------------------------------------------------------------
-- The payload area
-- ---------------------------------------------------------------------------

/-- `9 + PES_header_data_length` -/
def pesHeaderLength (pes : Bytes) : Nat := 9 + (pes.getD 8 0).toNat

/-- Where the payload area of a packet begins, when `left` bytes of the PES header are
still to come. Without a header (`none`), and in any other packet, there is no such
area. -/
def areaStart (left : Option Nat) (pkt : Bytes) : Nat :=
  if CarriesAudio pkt then
    if Pusi pkt then
      if StartsPes (pkt.drop (payOffOf pkt)) then
        payOffOf pkt + pesHeaderLength (pkt.drop (payOffOf pkt))
      else tsPktSize
    else left.elim tsPktSize (payOffOf pkt + ·)
  else tsPktSize

/-- What is left of the PES header behind a packet. -/
def headerLeft (left : Option Nat) (pkt : Bytes) : Option Nat :=
  if CarriesAudio pkt then
    if Pusi pkt then
      if StartsPes (pkt.drop (payOffOf pkt)) then
        some (pesHeaderLength (pkt.drop (payOffOf pkt)) - (tsPktSize - payOffOf pkt))
      else none
    else left.map (· - (tsPktSize - payOffOf pkt))
  else left

/-- What is left of the PES header in front of the `k`-th packet. -/
def headerLeftAt (buf : Bytes) : Nat → Option Nat
  | 0 => none
  | k + 1 => headerLeft (headerLeftAt buf k) (packetAt buf (tsPktSize * k))

/-- The byte at `i` belongs to the payload area of a whole packet of the audio PID. -/
def InPayload (buf : Bytes) (i : Nat) : Prop :=
  i / tsPktSize < buf.length / tsPktSize ∧
    areaStart (headerLeftAt buf (i / tsPktSize)) (packetAt buf (tsPktSize * (i / tsPktSize))) ≤
      i % tsPktSize

/-- Only behind a whole header there is something to decrypt. -/
def PesDecState.Knows (st : PesDecState) (left : Option Nat) : Prop :=
  0 < st.remaining → left = some 0

/-- An IV is found behind a header that is all there. -/
theorem pesExtractIv_some {pes : Bytes} {iv : Block} (h : pesExtractIv pes = some iv) :
    pesHeaderLength pes + 17 ≤ pes.length := by
  rw [pesExtractIv] at h
  split at h
  · cases h
  split at h
  · cases h
  · simp only at h
    split at h
    · cases h
    · rename_i hRoom
      exact Nat.not_lt.mp hRoom

theorem pesStart_remaining {st : PesDecState} {pes : Bytes} (h : 0 < (pesStart st pes).1.remaining) :
    pesHeaderLength pes ≤ pes.length := by
  rw [pesStart] at h
  simp only at h
  cases hIv : pesExtractIv pes with
  | none =>
    rw [hIv] at h
    exact absurd h (lt_irrefl _)
  | some iv =>
    have hRoom := pesExtractIv_some hIv
    omega

theorem pesStart_start (st : PesDecState) (pes : Bytes) :
    (pesStart st pes).2 = min (pesHeaderLength pes) pes.length := by
  rw [pesStart]
  simp only
  split
  · rfl
  · rfl

theorem length_decryptTsPacket (aes : Aes) (key : Block) (st : PesDecState) {pkt : Bytes}
    (hPkt : pkt.length = tsPktSize) : (decryptTsPacket aes key st pkt).2.length = tsPktSize := by
  -- whatever is decrypted, the payload keeps its length
  have hKeeps : ∀ out : Bytes, out.length = (pkt.drop (payOffOf pkt)).length →
      (pkt.take (payOffOf pkt) ++ out).length = tsPktSize := by
    intro out hOut
    rw [List.length_append, hOut, ← List.length_append, List.take_append_drop, hPkt]
  by_cases hAudio : CarriesAudio pkt
  · by_cases hPusi : Pusi pkt
    · by_cases hPes : StartsPes (pkt.drop (payOffOf pkt))
      · rw [decryptTsPacket_starts hAudio hPusi hPes]
        exact hKeeps _ (length_decryptFragment_out ..)
      · rw [decryptTsPacket_broken hAudio hPusi hPes]
        exact hPkt
    · rw [decryptTsPacket_continues hAudio hPusi]
      exact hKeeps _ (length_decryptFragment_out ..)
  · rw [decryptTsPacket_skipped hAudio]
    exact hPkt

/-- A decrypted payload is the old one up to `start`. -/
theorem take_decrypted (aes : Aes) (key : Block) (st : PesDecState) (pkt : Bytes)
    {payOff start : Nat} (hPay : payOff ≤ pkt.length) :
    (pkt.take payOff ++ (decryptFragment aes key st start (pkt.drop payOff)).2).take (payOff + start) =
      pkt.take (payOff + start) := by
  have hLength : (pkt.take payOff).length = payOff := by
    rw [List.length_take, Nat.min_eq_left hPay]
  rw [List.take_append, hLength, List.take_take, Nat.min_eq_right (Nat.le_add_right _ _),
    Nat.add_sub_cancel_left, decryptFragment_front, ← List.take_add]

/-- One packet changes in its payload area only, and the bookkeeping goes on. -/
theorem decryptTsPacket_local (aes : Aes) (key : Block) {st : PesDecState} {left : Option Nat}
    {pkt : Bytes} (hPkt : pkt.length = tsPktSize) (hKnows : st.Knows left) :
    (decryptTsPacket aes key st pkt).2.take (areaStart left pkt) = pkt.take (areaStart left pkt) ∧
      (decryptTsPacket aes key st pkt).1.Knows (headerLeft left pkt) := by
  by_cases hAudio : CarriesAudio pkt
  case neg =>
    rw [decryptTsPacket_skipped hAudio, headerLeft, if_neg hAudio]
    exact ⟨rfl, hKnows⟩
  have hPay : payOffOf pkt ≤ pkt.length := by
    rw [hPkt]
    exact hAudio.2.2.2.2.le
  rw [areaStart, headerLeft, if_pos hAudio, if_pos hAudio]
  by_cases hPusi : Pusi pkt
  case neg =>
    rw [decryptTsPacket_continues hAudio hPusi, if_neg hPusi, if_neg hPusi]
    refine ⟨?_, fun hSome => ?_⟩
    · by_cases hIdle : 0 < st.remaining
      · rw [hKnows hIdle]
        exact take_decrypted aes key st pkt hPay
      · rw [decryptFragment_idle _ (Int.not_lt.mp hIdle), List.take_append_drop]
    · rw [hKnows (decryptFragment_remaining aes key st 0 _ hSome)]
      simp
  rw [if_pos hPusi, if_pos hPusi]
  by_cases hPes : StartsPes (pkt.drop (payOffOf pkt))
  case neg =>
    rw [decryptTsPacket_broken hAudio hPusi hPes, if_neg hPes, if_neg hPes]
    exact ⟨rfl, fun hSome => absurd hSome (lt_irrefl _)⟩
  rw [decryptTsPacket_starts hAudio hPusi hPes, if_pos hPes, if_pos hPes]
  have hPesLength : (pkt.drop (payOffOf pkt)).length = tsPktSize - payOffOf pkt := by
    rw [List.length_drop, hPkt]
  refine ⟨?_, fun hSome => ?_⟩
  · by_cases hIdle : 0 < (pesStart st (pkt.drop (payOffOf pkt))).1.remaining
    · rw [pesStart_start, Nat.min_eq_left (pesStart_remaining hIdle)]
      exact take_decrypted aes key _ pkt hPay
    · rw [decryptFragment_idle _ (Int.not_lt.mp hIdle), List.take_append_drop]
  · have hWhole := pesStart_remaining (decryptFragment_remaining aes key _ _ _ hSome)
    rw [hPesLength] at hWhole
    rw [Nat.sub_eq_zero_of_le hWhole]

-- ---------------------------------------------------------------------------
-- The whole buffer
-- ---------------------------------------------------------------------------

theorem take_replaced {buf pkt : Bytes} {off : Nat} (hOff : off + tsPktSize ≤ buf.length)
    (hPkt : pkt.length = tsPktSize) :
    (replaced buf off pkt).take (off + tsPktSize) = buf.take off ++ pkt := by
  have hFront : (buf.take off ++ pkt).length = off + tsPktSize := by
    rw [List.length_append, List.length_take, hPkt]
    omega
  rw [replaced, ← hFront, List.take_left]

theorem drop_replaced {buf pkt : Bytes} {off : Nat} (hOff : off + tsPktSize ≤ buf.length)
    (hPkt : pkt.length = tsPktSize) :
    (replaced buf off pkt).drop (off + tsPktSize) = buf.drop (off + tsPktSize) := by
  have hFront : (buf.take off ++ pkt).length = off + tsPktSize := by
    rw [List.length_append, List.length_take, hPkt]
    omega
  rw [replaced, ← hFront, List.drop_left]

/-- The loop from `off` on does what `decryptTsPackets` does to the rest of the buffer. -/
theorem decryptTsFrom_ok (aes : Aes) (key : Block) {n off : Nat} {buf : Bytes}
    (hOff : off ≤ buf.length) (hCount : (buf.length - off) / tsPktSize = n) (st : PesDecState) :
    decryptTsFrom aes key buf.length off st buf =
      .ok (buf.take off ++ decryptTsPackets aes key n st (buf.drop off)) := by
  induction n generalizing off buf st with
  | zero =>
    have hEnd : ¬off + tsPktSize ≤ buf.length := by
      simp only [tsPktSize] at hCount ⊢
      omega
    rw [decryptTsFrom, if_neg hEnd, decryptTsPackets, List.take_append_drop]
  | succ n ih =>
    have hRoom : off + tsPktSize ≤ buf.length := by
      simp only [tsPktSize] at hCount ⊢
      omega
    have hPkt := length_decryptTsPacket aes key st (length_packetAt hRoom)
    have hBuf := length_replaced hRoom hPkt
    have hLess : ((replaced buf off (decryptTsPacket aes key st (packetAt buf off)).2).length -
        (off + tsPktSize)) / tsPktSize = n := by
      rw [hBuf]
      simp only [tsPktSize] at hCount ⊢
      omega
    have hRest := ih (by rw [hBuf]; exact hRoom) hLess
      (decryptTsPacket aes key st (packetAt buf off)).1
    rw [hBuf, take_replaced hRoom hPkt, drop_replaced hRoom hPkt] at hRest
    rw [decryptTsFrom, if_pos hRoom, decryptTsPacketIn_ok aes key st hRoom, decryptTsPackets,
      ← packetAt, List.drop_drop, ← List.append_assoc]
    exact hRest

/-- No access of `decrypt_ts_media` leaves the buffer. -/
theorem decryptTsMediaIn_ok (aes : Aes) (key : Block) (buf : Bytes) :
    decryptTsMediaIn aes key buf = .ok (decryptTsMedia aes key buf) :=
  decryptTsFrom_ok aes key (Nat.zero_le _) rfl .init

/-- What is left of the buffer in front of the `k`-th packet is decrypted in its payload
areas only. -/
theorem decryptTsPackets_local (aes : Aes) (key : Block) (buf : Bytes) {n k : Nat}
    (hCount : k + n = buf.length / tsPktSize) {st : PesDecState}
    (hKnows : st.Knows (headerLeftAt buf k)) :
    (decryptTsPackets aes key n st (buf.drop (tsPktSize * k))).length =
        buf.length - tsPktSize * k ∧
      ∀ j, ¬InPayload buf (tsPktSize * k + j) →
        (decryptTsPackets aes key n st (buf.drop (tsPktSize * k)))[j]? = buf[tsPktSize * k + j]? := by
  induction n generalizing k st with
  | zero =>
    refine ⟨by rw [decryptTsPackets, List.length_drop], fun j _ => ?_⟩
    rw [decryptTsPackets, List.getElem?_drop]
  | succ n ih =>
    have hRoom : tsPktSize * k + tsPktSize ≤ buf.length := by
      simp only [tsPktSize] at hCount ⊢
      omega
    have hPkt := length_packetAt hRoom
    have hOut := length_decryptTsPacket aes key st hPkt
    obtain ⟨hFront, hNext⟩ := decryptTsPacket_local aes key hPkt hKnows
    obtain ⟨hLength, hRest⟩ := ih (k := k + 1) (by omega) hNext
    rw [Nat.mul_succ] at hLength hRest
    rw [decryptTsPackets, ← packetAt, List.drop_drop]
    refine ⟨by rw [List.length_append, hOut, hLength]; omega, fun j hOutside => ?_⟩
    by_cases hHere : j < tsPktSize
    · -- the packet itself: `j` lies in front of its payload area
      have hPacket : (tsPktSize * k + j) / tsPktSize = k := by
        rw [Nat.mul_add_div (by decide), Nat.div_eq_of_lt hHere, Nat.add_zero]
      have hByte : (tsPktSize * k + j) % tsPktSize = j := by
        rw [Nat.mul_add_mod, Nat.mod_eq_of_lt hHere]
      rw [InPayload, hPacket, hByte, not_and, Nat.not_le] at hOutside
      have hBefore := hOutside (by omega)
      rw [List.getElem?_append_left (by omega), ← List.getElem?_take_of_lt hBefore, hFront,
        List.getElem?_take_of_lt hBefore, packetAt, List.getElem?_take_of_lt hHere,
        List.getElem?_drop]
    · -- the packets behind it
      have hShift : tsPktSize * k + j = tsPktSize * k + tsPktSize + (j - tsPktSize) := by omega
      rw [hShift] at hOutside ⊢
      rw [List.getElem?_append_right (by omega), hOut]
      exact hRest _ hOutside

/-- **Memory safety and locality.** Whatever the buffer holds, `decrypt_ts_media` makes
no access outside of it, returns, and changes no byte outside of the payload areas. -/
theorem decryptTsMedia_local (aes : Aes) (key : Block) (buf : Bytes) :
    ∃ out, decryptTsMediaIn aes key buf = .ok out ∧ out.length = buf.length ∧
      ∀ i, ¬InPayload buf i → out[i]? = buf[i]? := by
  refine ⟨_, decryptTsMediaIn_ok aes key buf, ?_⟩
  have hKnows : PesDecState.init.Knows (headerLeftAt buf 0) := fun h => absurd h (lt_irrefl _)
  obtain ⟨hLength, hOutside⟩ := decryptTsPackets_local aes key buf (k := 0)
    (Nat.zero_add _) hKnows
  simp only [Nat.mul_zero, Nat.zero_add, List.drop_zero, Nat.sub_zero] at hLength hOutside
  exact ⟨hLength, hOutside⟩

/-- Headers are no payload: a byte of a payload area lies in a whole packet of the audio
PID, behind the TS header and the adaptation field, and behind the PES header if one
begins there. -/
theorem InPayload.behind_headers {buf : Bytes} {i : Nat} (h : InPayload buf i) :
    i < tsPktSize * (buf.length / tsPktSize) ∧
      CarriesAudio (packetAt buf (tsPktSize * (i / tsPktSize))) ∧
      4 ≤ i % tsPktSize ∧ payOffOf (packetAt buf (tsPktSize * (i / tsPktSize))) ≤ i % tsPktSize ∧
      (Pusi (packetAt buf (tsPktSize * (i / tsPktSize))) →
        payOffOf (packetAt buf (tsPktSize * (i / tsPktSize))) +
          pesHeaderLength ((packetAt buf (tsPktSize * (i / tsPktSize))).drop
            (payOffOf (packetAt buf (tsPktSize * (i / tsPktSize))))) ≤ i % tsPktSize) := by
  obtain ⟨hWhole, hArea⟩ := h
  have hByte : i % tsPktSize < tsPktSize := Nat.mod_lt _ (by decide)
  generalize packetAt buf (tsPktSize * (i / tsPktSize)) = pkt at hArea ⊢
  have hHeader : 4 ≤ payOffOf pkt := by
    rw [payOffOf]
    split
    · omega
    · exact le_refl _
  refine ⟨?_, ?_⟩
  · simp only [tsPktSize] at hWhole ⊢
    omega
  rw [areaStart] at hArea
  by_cases hAudio : CarriesAudio pkt
  case neg =>
    rw [if_neg hAudio] at hArea
    omega
  rw [if_pos hAudio] at hArea
  by_cases hPusi : Pusi pkt
  case pos =>
    rw [if_pos hPusi] at hArea
    split at hArea
    · exact ⟨hAudio, by omega, by omega, fun _ => hArea⟩
    · omega
  case neg =>
    rw [if_neg hPusi] at hArea
    cases hLeft : headerLeftAt buf (i / tsPktSize) with
    | none =>
      rw [hLeft, Option.elim_none] at hArea
      omega
    | some left =>
      rw [hLeft, Option.elim_some] at hArea
      exact ⟨hAudio, by omega, by omega, fun h => absurd h hPusi⟩

end EspMiplay.Miplay
