import EspMiplay.Miplay.TsMedia

/-!
# The payload of an RTP packet

`media_receive_task` strips the header of an RTP packet with its three optional
parts: CSRCs, a header extension, padding. What the code selects is a slice of
the packet, whatever the packet holds (`rtpSlice_inside`). For a packet that is
well formed the slice is the payload, unless there is none: the test
`hdr_len < end` takes an empty payload for a header that reaches too far, and
the whole packet is handed on as TS data.

## Results

* `RtpShell.rtpPayload_wrap` — what is selected from a well-formed packet.
* `rtpSlice_inside`          — the slice of any packet.
* `rtpPayload_iff`           — both, for every packet.
-/

namespace EspMiplay.Miplay

-- ---------------------------------------------------------------------------
-- Well-formed packets
-- ---------------------------------------------------------------------------

/-- An RTP packet without its payload: header and padding. -/
structure RtpShell where
  /-- version, padding, extension, CSRC count -/
  flags : UInt8
  /-- marker, payload type, sequence number, timestamp, SSRC -/
  fixed : List.Vector UInt8 11
  csrcs : Bytes
  /-- profile and words of the header extension -/
  extension : Option (UInt16 × Bytes)
  /-- filler in front of the padding length -/
  padding : Option Bytes
  hVersion : flags &&& 0xC0 = 0x80
  hCsrcs : csrcs.length = (flags &&& 0x0F).toNat * 4
  hExtended : flags &&& 0x10 ≠ 0 ↔ extension.isSome
  hExtension : ∀ x ∈ extension, x.2.length % 4 = 0
  hPadded : flags &&& 0x20 ≠ 0 ↔ padding.isSome
  hPadding : ∀ filler ∈ padding, filler.length < 255

namespace RtpShell

def header (r : RtpShell) : Bytes :=
  r.flags :: r.fixed.toList ++ r.csrcs ++
    r.extension.elim [] fun x => putBe16 x.1 ++ putBe16 (UInt16.ofNat (x.2.length / 4)) ++ x.2

def trailer (r : RtpShell) : Bytes :=
  r.padding.elim [] fun filler => filler ++ [UInt8.ofNat (filler.length + 1)]

/-- The packet around its payload. -/
def wrap (r : RtpShell) (payload : Bytes) : Bytes := r.header ++ payload ++ r.trailer

end RtpShell

/-- An RTP packet, no longer than the reader takes. -/
structure RtpData extends RtpShell where
  payload : Bytes
  hSize : (toRtpShell.wrap payload).length ≤ 4096

def RtpData.bytes (r : RtpData) : Bytes := r.wrap r.payload

-- ---------------------------------------------------------------------------
-- What the code selects
-- ---------------------------------------------------------------------------

/-- Where the CSRCs end. -/
def rtpCsrcEnd (rtp : Bytes) : Nat := 12 + (rtp.getD 0 0 &&& 0x0F).toNat * 4

/-- `hdr_len`: the extension is skipped if its own header is there. -/
def rtpHdrLen (rtp : Bytes) : Int :=
  if rtp.getD 0 0 &&& 0x10 ≠ 0 ∧ rtpCsrcEnd rtp + 4 ≤ rtp.length then
    rtpCsrcEnd rtp + 4 +
      (getBe16 (rtp.getD (rtpCsrcEnd rtp + 2) 0) (rtp.getD (rtpCsrcEnd rtp + 3) 0)).toNat * 4
  else rtpCsrcEnd rtp

/-- `end` -/
def rtpEnd (rtp : Bytes) : Int :=
  rtp.length - if rtp.getD 0 0 &&& 0x20 ≠ 0 then ((rtp.getD (rtp.length - 1) 0).toNat : Int) else 0

/-- `ts_data`, as an offset into `rtp_buf`, and `ts_len`. -/
def rtpSlice (rtp : Bytes) : Int × Int :=
  if rtp.getD 0 0 &&& 0xC0 = 0x80 then
    if rtpHdrLen rtp < rtpEnd rtp then (rtpHdrLen rtp, rtpEnd rtp - rtpHdrLen rtp)
    else (0, rtp.length)
  else (0, rtp.length)

theorem rtpHdrLen_pos (rtp : Bytes) : 12 ≤ rtpHdrLen rtp := by
  have hCsrcs : 12 ≤ rtpCsrcEnd rtp := Nat.le_add_right _ _
  unfold rtpHdrLen
  split
  · omega
  · omega

theorem rtpEnd_le (rtp : Bytes) : rtpEnd rtp ≤ rtp.length := by
  unfold rtpEnd
  split
  · omega
  · omega

/-- The slice lies inside the packet, whatever the packet holds. -/
theorem rtpSlice_inside (rtp : Bytes) :
    0 ≤ (rtpSlice rtp).1 ∧ 0 ≤ (rtpSlice rtp).2 ∧
      (rtpSlice rtp).1 + (rtpSlice rtp).2 ≤ rtp.length := by
  have hHeader := rtpHdrLen_pos rtp
  have hEnd := rtpEnd_le rtp
  unfold rtpSlice
  split
  · split
    · exact ⟨by omega, by omega, by omega⟩
    · exact ⟨le_refl _, by omega, by omega⟩
  · exact ⟨le_refl _, by omega, by omega⟩

/-- What is handed on is the slice. -/
theorem rtpPayload_eq_slice (rtp : Bytes) :
    rtpPayload rtp = (rtp.drop (rtpSlice rtp).1.toNat).take (rtpSlice rtp).2.toNat := by
  have hHeader : ∃ n : Nat, rtpHdrLen rtp = n ∧ (if rtp.getD 0 0 &&& 0x10 ≠ 0 ∧
        12 + (rtp.getD 0 0 &&& 0x0F).toNat * 4 + 4 ≤ rtp.length then
      12 + (rtp.getD 0 0 &&& 0x0F).toNat * 4 + 4 +
        (getBe16 (rtp.getD (12 + (rtp.getD 0 0 &&& 0x0F).toNat * 4 + 2) 0)
          (rtp.getD (12 + (rtp.getD 0 0 &&& 0x0F).toNat * 4 + 3) 0)).toNat * 4
      else 12 + (rtp.getD 0 0 &&& 0x0F).toNat * 4) = n := by
    refine ⟨_, ?_, rfl⟩
    rw [rtpHdrLen, rtpCsrcEnd]
    split
    · push_cast
      rfl
    · rfl
  obtain ⟨header, hInt, hNat⟩ := hHeader
  have hPadding : ∃ n : Nat, rtpEnd rtp = rtp.length - (n : Int) ∧
      (if rtp.getD 0 0 &&& 0x20 ≠ 0 then (rtp.getD (rtp.length - 1) 0).toNat else 0) = n := by
    refine ⟨_, ?_, rfl⟩
    rw [rtpEnd]
    split
    · rfl
    · rfl
  obtain ⟨padding, hEnd, hPad⟩ := hPadding
  simp only [rtpPayload, rtpSlice, hInt, hNat, hEnd, hPad]
  split
  · -- the subtraction of the padding is the only one that can go below zero
    by_cases hSome : header < rtp.length - padding
    · rw [if_pos hSome, if_pos (by omega)]
      simp only [Int.toNat_natCast]
      congr 1
      omega
    · rw [if_neg hSome, if_neg (by omega)]
      simp
  · simp

-- ---------------------------------------------------------------------------
-- Well-formed packets are taken apart
-- ---------------------------------------------------------------------------

namespace RtpShell

variable (r : RtpShell) {ts : Bytes}

theorem length_header :
    r.header.length = 12 + r.csrcs.length + r.extension.elim 0 fun x => 4 + x.2.length := by
  cases hExtension : r.extension <;> simp [header, hExtension] <;> omega

theorem length_trailer : r.trailer.length = r.padding.elim 0 fun filler => filler.length + 1 := by
  cases hPadding : r.padding <;> simp [trailer, hPadding]

theorem length_wrap (ts : Bytes) :
    (r.wrap ts).length = r.header.length + ts.length + r.trailer.length := by
  simp [wrap, Nat.add_assoc]

/-- Behind the CSRCs of an extended packet comes the header of the extension. -/
theorem getBe16_words {x : UInt16 × Bytes} (hExtension : r.extension = some x)
    (hSize : (r.wrap ts).length ≤ 4096) :
    (getBe16 ((r.wrap ts).getD (12 + r.csrcs.length + 2) 0)
      ((r.wrap ts).getD (12 + r.csrcs.length + 3) 0)).toNat = x.2.length / 4 := by
  obtain ⟨more, hMore⟩ : ∃ more, r.wrap ts = (r.flags :: r.fixed.toList ++ r.csrcs) ++
      (putBe16 x.1 ++ (putBe16 (UInt16.ofNat (x.2.length / 4)) ++ more)) :=
    ⟨x.2 ++ ts ++ r.trailer, by simp [wrap, header, hExtension]⟩
  have hAt : 12 + r.csrcs.length = (r.flags :: r.fixed.toList ++ r.csrcs).length := by simp; omega
  have hHigh : (r.wrap ts).getD (12 + r.csrcs.length + 2) 0 =
      (UInt16.ofNat (x.2.length / 4) >>> 8).toUInt8 := by
    rw [hMore, hAt, List.getD_eq_getElem?_getD, List.getElem?_append_right (by omega),
      Nat.add_sub_cancel_left]
    rfl
  have hLow : (r.wrap ts).getD (12 + r.csrcs.length + 3) 0 =
      (UInt16.ofNat (x.2.length / 4)).toUInt8 := by
    rw [hMore, hAt, List.getD_eq_getElem?_getD, List.getElem?_append_right (by omega),
      Nat.add_sub_cancel_left]
    rfl
  have hWords : x.2.length ≤ 4096 := by
    have hLength := r.length_wrap ts
    have hHeader := r.length_header
    rw [hExtension, Option.elim_some] at hHeader
    omega
  rw [hHigh, hLow, getBe16_putBe16]
  exact UInt16.toNat_ofNat_of_lt' (by simp only [UInt16.size]; omega)

theorem rtpHdrLen_wrap (hSize : (r.wrap ts).length ≤ 4096) :
    rtpHdrLen (r.wrap ts) = r.header.length := by
  have hFirst : (r.wrap ts).getD 0 0 = r.flags := rfl
  have hCsrcs : rtpCsrcEnd (r.wrap ts) = 12 + r.csrcs.length := by
    rw [rtpCsrcEnd, hFirst, r.hCsrcs]
  rw [rtpHdrLen, hFirst, hCsrcs]
  have hHeader := r.length_header
  cases hExtension : r.extension with
  | none =>
    have hFlag : ¬(r.flags &&& 0x10 ≠ 0) := by rw [r.hExtended, hExtension]; simp
    rw [hExtension, Option.elim_none] at hHeader
    rw [if_neg fun h => hFlag h.1, hHeader]
    rfl
  | some x =>
    have hFlag : r.flags &&& 0x10 ≠ 0 := by rw [r.hExtended, hExtension]; rfl
    have hWhole := r.hExtension x (by simp [hExtension])
    have hLength := r.length_wrap ts
    rw [hExtension, Option.elim_some] at hHeader
    rw [if_pos ⟨hFlag, by omega⟩, r.getBe16_words hExtension hSize]
    omega

theorem rtpEnd_wrap (ts : Bytes) : rtpEnd (r.wrap ts) = (r.header.length + ts.length : Nat) := by
  have hFirst : (r.wrap ts).getD 0 0 = r.flags := rfl
  have hLength := r.length_wrap ts
  have hTrailer := r.length_trailer
  rw [rtpEnd, hFirst]
  cases hPadding : r.padding with
  | none =>
    have hFlag : ¬(r.flags &&& 0x20 ≠ 0) := by rw [r.hPadded, hPadding]; simp
    rw [hPadding, Option.elim_none] at hTrailer
    rw [if_neg hFlag]
    omega
  | some filler =>
    have hFlag : r.flags &&& 0x20 ≠ 0 := by rw [r.hPadded, hPadding]; rfl
    have hShort := r.hPadding filler (by simp [hPadding])
    rw [hPadding, Option.elim_some] at hTrailer
    -- the last byte counts the padding, itself included
    have hLast : (r.wrap ts).getD ((r.wrap ts).length - 1) 0 = UInt8.ofNat (filler.length + 1) := by
      have hBytes : r.wrap ts = (r.header ++ ts ++ filler) ++ [UInt8.ofNat (filler.length + 1)] := by
        simp [wrap, trailer, hPadding]
      rw [hBytes, List.length_append, List.length_singleton, Nat.add_sub_cancel,
        List.getD_eq_getElem?_getD, List.getElem?_append_right (le_refl _), Nat.sub_self]
      rfl
    have hCount : (UInt8.ofNat (filler.length + 1)).toNat = filler.length + 1 :=
      UInt8.toNat_ofNat_of_lt' (by simp only [UInt8.size]; omega)
    rw [if_pos hFlag, hLast, hCount]
    omega

/-- The payload is selected, or the whole packet when there is none. -/
theorem rtpPayload_wrap (hSize : (r.wrap ts).length ≤ 4096) :
    rtpPayload (r.wrap ts) = if ts = [] then r.wrap ts else ts := by
  have hFirst : (r.wrap ts).getD 0 0 = r.flags := rfl
  have hSlice : rtpSlice (r.wrap ts) =
      if ts = [] then (0, ((r.wrap ts).length : Int))
      else ((r.header.length : Int), (ts.length : Int)) := by
    rw [rtpSlice, hFirst, if_pos r.hVersion, r.rtpHdrLen_wrap hSize, r.rtpEnd_wrap]
    by_cases hNone : ts = []
    · rw [if_pos hNone, hNone, if_neg (by simp)]
    · have hPos : 0 < ts.length := List.length_pos_iff.mpr hNone
      rw [if_neg hNone, if_pos (by omega)]
      congr 1
      omega
  rw [rtpPayload_eq_slice, hSlice]
  by_cases hNone : ts = []
  · rw [if_pos hNone, if_pos hNone]
    simp
  · rw [if_neg hNone, if_neg hNone]
    simp [wrap]

end RtpShell

/-- **RTP payloads.** A well-formed packet is taken apart exactly when it has a payload;
what is selected from any packet lies inside it. -/
theorem rtpPayload_iff (r : RtpData) (rtp : Bytes) :
    (rtpPayload r.bytes = r.payload ↔ r.payload ≠ []) ∧
      rtpPayload rtp = (rtp.drop (rtpSlice rtp).1.toNat).take (rtpSlice rtp).2.toNat ∧
        0 ≤ (rtpSlice rtp).1 ∧ 0 ≤ (rtpSlice rtp).2 ∧
        (rtpSlice rtp).1 + (rtpSlice rtp).2 ≤ rtp.length := by
  refine ⟨?_, rtpPayload_eq_slice rtp, rtpSlice_inside rtp⟩
  rw [RtpData.bytes, r.rtpPayload_wrap r.hSize]
  by_cases hNone : r.payload = []
  · -- the header alone is longer than nothing
    have hHeader : r.wrap r.payload ≠ [] := by simp [RtpShell.wrap, RtpShell.header]
    simp [hNone] at hHeader ⊢
    exact hHeader
  · simp [hNone]

/-- Version 2, without extension, CSRCs and padding. -/
def bareFlags : UInt8 := 0x80

theorem words_of_none : ∀ x ∈ (none : Option (UInt16 × Bytes)), x.2.length % 4 = 0 := by simp

theorem filler_of_none : ∀ filler ∈ (none : Option Bytes), filler.length < 255 := by simp

/-- A packet of twelve bytes: all header. -/
def bareRtp : RtpData where
  flags := bareFlags
  fixed := List.Vector.replicate 11 0
  csrcs := []
  extension := none
  padding := none
  hVersion := by decide
  hCsrcs := by decide
  hExtended := by decide
  hExtension := words_of_none
  hPadded := by decide
  hPadding := filler_of_none
  payload := []
  hSize := by decide

/-- Its header is handed on as TS data. -/
theorem bareRtp_forwarded : ¬∀ r : RtpData, rtpPayload r.bytes = r.payload := by
  intro hAll
  have hBare := hAll bareRtp
  revert hBare
  decide

end EspMiplay.Miplay
