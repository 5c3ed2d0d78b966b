import EspMiplay.Miplay.RtspReader
import EspMiplay.Miplay.TsMedia

/-!
# Finding the frames of a media stream again

`media_receive_task` reads a frame header of four bytes, however `recv` cuts the
stream and however often it times out. When the first byte is no `$`, it shifts
the header by one and asks for one more byte, once. If the new first byte is no
`$` either, all four are thrown away, and a timeout at this one call ends the
task.

So five bytes of garbage are consumed at a time. The frames behind it are found
when at most one byte is left over, and no `recv` for the fifth byte times out.

## Results

* `recvFull_spec`, `recvOne_spec` — what the two ways of reading take.
* `mediaRound_*`                  — one round of the loop.
* `mediaRounds_frames`            — aligned frames are all delivered.
* `mediaRounds_garbage`           — which garbage is got over.
* `resynchronises_iff`            — the frames behind garbage are delivered, and no
  marker is thrown away, exactly in these cases.
* `delivered_mediaRounds`         — without timeouts the cuts make no difference.
* `mediaRounds_enough`            — the rounds come to an end.
-/

namespace EspMiplay.Miplay

-- ---------------------------------------------------------------------------
-- `recv` on the media socket
-- ---------------------------------------------------------------------------

/-- The bytes that arrive, however they are cut. -/
def recvBytes (vs : List Recv) : Bytes := vs.flatMap Recv.bytes

/-- A `recv` called behind `n` bytes times out. -/
def stallsAt : List Recv → Nat → Bool
  | [], _ => false
  | .timeout :: vs, n => n == 0 || stallsAt vs n
  | .data bs :: vs, n => bs.length ≤ n && stallsAt vs (n - bs.length)

/-- `while (got < n)`: timeouts are waited out; `none` when the connection ends first. -/
def recvFull : Nat → List Recv → Option (Bytes × List Recv)
  | 0, vs => some ([], vs)
  | _ + 1, [] => none
  | n + 1, .timeout :: vs => recvFull (n + 1) vs
  | n + 1, .data bs :: vs =>
    if n + 1 < bs.length then some (bs.take (n + 1), .data (bs.drop (n + 1)) :: vs)
    else (recvFull (n + 1 - bs.length) vs).map fun r => (bs ++ r.1, r.2)

/-- A single `recv` of one byte: `none` when it times out or the connection has ended. -/
def recvOne : List Recv → Option (UInt8 × List Recv)
  | [] => none
  | .timeout :: _ => none
  | .data [] :: vs => recvOne vs
  | .data (b :: bs) :: vs => some (b, .data bs :: vs)

-- ---------------------------------------------------------------------------
-- The loop
-- ---------------------------------------------------------------------------

/-- What a round comes to. -/
inductive FrameEvent where
  /-- an RTP packet in `rtp_buf` -/
  | packet (rtp : Bytes)
  /-- `continue`: the four bytes of `hdr` are given up -/
  | thrown (hdr : Bytes)
  deriving DecidableEq

/-- The round from the length on. -/
def mediaBody (hdr : Bytes) (vs : List Recv) : Option (FrameEvent × List Recv) :=
  let rtpLen := (getBe16 (hdr.getD 2 0) (hdr.getD 3 0)).toNat
  if rtpLen < 12 ∨ rtpLen > 4096 then some (.thrown hdr, vs)
  else (recvFull rtpLen vs).map fun r => (.packet r.1, r.2)

/-- One round of the receive loop; `none` when it goes to `m_cleanup`. -/
def mediaRound (vs : List Recv) : Option (FrameEvent × List Recv) :=
  match recvFull 4 vs with
  | none => none
  | some (hdr, vs) =>
    if hdr.getD 0 0 ≠ 0x24 then
      match recvOne vs with
      | none => none
      | some (b, vs) =>
        if hdr.getD 1 0 ≠ 0x24 then some (.thrown (hdr.drop 1 ++ [b]), vs)
        else mediaBody (hdr.drop 1 ++ [b]) vs
    else mediaBody hdr vs

def mediaRounds : Nat → List Recv → List FrameEvent
  | 0, _ => []
  | fuel + 1, vs =>
    match mediaRound vs with
    | none => []
    | some (e, vs) => e :: mediaRounds fuel vs

/-- All rounds: each takes at least four bytes. -/
def mediaEvents (vs : List Recv) : List FrameEvent := mediaRounds (recvBytes vs).length vs

/-- The packet of a round that got one. -/
def FrameEvent.rtp : FrameEvent → Option Bytes
  | .packet rtp => some rtp
  | .thrown _ => none

/-- The packets that are handed on. -/
def delivered (es : List FrameEvent) : List Bytes := es.filterMap FrameEvent.rtp

/-- No marker is given up with a header. -/
def KeepsMarkers (es : List FrameEvent) : Prop := ∀ hdr, .thrown hdr ∈ es → 0x24 ∉ hdr

-- ---------------------------------------------------------------------------
-- What `recv` takes
-- ---------------------------------------------------------------------------

@[simp] theorem recvBytes_nil : recvBytes [] = [] := rfl

@[simp] theorem recvBytes_timeout (vs : List Recv) : recvBytes (.timeout :: vs) = recvBytes vs := rfl

@[simp] theorem recvBytes_data (bs : Bytes) (vs : List Recv) :
    recvBytes (.data bs :: vs) = bs ++ recvBytes vs := rfl

/-- Behind the bytes that were taken the connection goes on as before. -/
def TakesFrom (vs : List Recv) (bs : Bytes) (vs' : List Recv) : Prop :=
  recvBytes vs = bs ++ recvBytes vs' ∧ ∀ n, stallsAt vs' n = stallsAt vs (bs.length + n)

theorem TakesFrom.trans {vs₁ vs₂ vs₃ : List Recv} {bs₁ bs₂ : Bytes} (h : TakesFrom vs₁ bs₁ vs₂)
    (h' : TakesFrom vs₂ bs₂ vs₃) : TakesFrom vs₁ (bs₁ ++ bs₂) vs₃ := by
  refine ⟨by rw [h.1, h'.1, List.append_assoc], fun n => ?_⟩
  rw [h'.2, h.2, List.length_append, Nat.add_assoc]

/-- What is left to come. -/
theorem TakesFrom.rest {vs vs' : List Recv} {bs rest : Bytes} (h : TakesFrom vs bs vs')
    (hBytes : recvBytes vs = bs ++ rest) : recvBytes vs' = rest :=
  List.append_cancel_left (h.1.symm.trans hBytes)

theorem stallsAt_data (bs : Bytes) (vs : List Recv) (n : Nat) :
    stallsAt (.data bs :: vs) (bs.length + n) = stallsAt vs n := by
  rw [stallsAt, Nat.add_sub_cancel_left]
  simp

theorem stallsAt_timeout (vs : List Recv) {n : Nat} (h : 0 < n) :
    stallsAt (.timeout :: vs) n = stallsAt vs n := by
  have hBehind : (n == 0) = false := by
    rw [beq_eq_false_iff_ne]
    omega
  rw [stallsAt, hBehind, Bool.false_or]

/-- The loop gets its bytes if they come. -/
theorem recvFull_spec (n : Nat) (vs : List Recv) :
    (recvBytes vs).length < n ∧ recvFull n vs = none ∨
      n ≤ (recvBytes vs).length ∧ ∃ vs', recvFull n vs = some ((recvBytes vs).take n, vs') ∧
        TakesFrom vs ((recvBytes vs).take n) vs' := by
  induction vs generalizing n with
  | nil =>
    cases n with
    | zero => exact .inr ⟨le_refl _, [], rfl, rfl, fun _ => by simp⟩
    | succ n => exact .inl ⟨Nat.succ_pos n, rfl⟩
  | cons v vs ih =>
    cases n with
    | zero => exact .inr ⟨Nat.zero_le _, v :: vs, by simp [recvFull], by simp, fun _ => by simp⟩
    | succ n =>
      cases v with
      | timeout =>
        rw [recvBytes_timeout, recvFull]
        rcases ih (n + 1) with hShort | ⟨hEnough, vs', hTaken, hBytes, hStalls⟩
        · exact .inl hShort
        · refine .inr ⟨hEnough, vs', hTaken, hBytes, fun m => ?_⟩
          rw [hStalls, stallsAt_timeout]
          rw [List.length_take, Nat.min_eq_left hEnough]
          omega
      | data bs =>
        rw [recvBytes_data, recvFull, List.length_append]
        split
        · -- the rest of the piece is left for the next `recv`
          rename_i hMore
          refine .inr ⟨by omega, .data (bs.drop (n + 1)) :: vs, ?_, ?_, fun m => ?_⟩
          · rw [List.take_append_of_le_length (by omega)]
          · rw [recvBytes_data, recvBytes_data, List.take_append_of_le_length (by omega),
              ← List.append_assoc, List.take_append_drop]
          · rw [List.take_append_of_le_length (by omega), List.length_take,
              Nat.min_eq_left (by omega), stallsAt, stallsAt, List.length_drop]
            congr 1
            · exact decide_eq_decide.mpr (by omega)
            · congr 1
              omega
        · rename_i hAll
          rcases ih (n + 1 - bs.length) with ⟨hShort, hNone⟩ | ⟨hEnough, vs', hTaken, hBytes, hStalls⟩
          · exact .inl ⟨by omega, by rw [hNone]; rfl⟩
          · have hTake : (bs ++ recvBytes vs).take (n + 1) =
                bs ++ (recvBytes vs).take (n + 1 - bs.length) := by
              rw [List.take_append, List.take_of_length_le (by omega)]
            refine .inr ⟨by omega, vs', by rw [hTaken, hTake]; rfl, ?_, fun m => ?_⟩
            · rw [recvBytes_data, hTake, List.append_assoc, ← hBytes]
            · rw [hTake, List.length_append, Nat.add_assoc, stallsAt_data, hStalls]

/-- The single call gets its byte if that comes in time. -/
theorem recvOne_spec (vs : List Recv) :
    (recvBytes vs = [] ∨ stallsAt vs 0 = true) ∧ recvOne vs = none ∨
      stallsAt vs 0 = false ∧ ∃ b vs', recvOne vs = some (b, vs') ∧ TakesFrom vs [b] vs' := by
  induction vs with
  | nil => exact .inl ⟨.inl rfl, rfl⟩
  | cons v vs ih =>
    cases v with
    | timeout => exact .inl ⟨.inr rfl, rfl⟩
    | data bs =>
      cases bs with
      | nil =>
        have hStalls : ∀ n, stallsAt (.data [] :: vs) n = stallsAt vs n := by
          intro n
          have hSkip := stallsAt_data [] vs n
          rwa [List.length_nil, Nat.zero_add] at hSkip
        rw [hStalls, recvBytes_data, List.nil_append, recvOne]
        rcases ih with hNone | ⟨hTimely, b, vs', hTaken, hBytes, hRest⟩
        · exact .inl hNone
        · exact .inr ⟨hTimely, b, vs', hTaken, hBytes, fun n => by rw [hRest, hStalls]⟩
      | cons b bs =>
        refine .inr ⟨by simp [stallsAt], b, .data bs :: vs, rfl, rfl, fun n => ?_⟩
        rw [stallsAt, stallsAt, List.length_cons, List.length_singleton]
        congr 1
        · exact decide_eq_decide.mpr (by omega)
        · congr 1
          omega

-- ---------------------------------------------------------------------------
-- One round
-- ---------------------------------------------------------------------------

section Round

variable {vs : List Recv}

/-- The connection ends within a header. -/
theorem mediaRound_short (h : (recvBytes vs).length < 4) : mediaRound vs = none := by
  rcases recvFull_spec 4 vs with ⟨-, hNone⟩ | ⟨hEnough, -⟩
  · rw [mediaRound, hNone]
  · exact absurd h (Nat.not_lt.mpr hEnough)

/-- A header with the marker in front is taken as it is. -/
theorem mediaRound_aligned {c hi lo : UInt8} {rest : Bytes}
    (h : recvBytes vs = 0x24 :: c :: hi :: lo :: rest) :
    ∃ vs', TakesFrom vs [0x24, c, hi, lo] vs' ∧ mediaRound vs = mediaBody [0x24, c, hi, lo] vs' := by
  rcases recvFull_spec 4 vs with ⟨hShort, -⟩ | ⟨-, vs', hTaken, hFrom⟩
  · simp only [h, List.length_cons] at hShort
    omega
  · have hHdr : (recvBytes vs).take 4 = [0x24, c, hi, lo] := by rw [h]; rfl
    rw [hHdr] at hTaken hFrom
    refine ⟨vs', hFrom, ?_⟩
    rw [mediaRound, hTaken]
    rfl

variable {g c hi lo : UInt8} {rest : Bytes}

/-- Behind a wrong marker the fifth byte has to come at once. -/
theorem mediaRound_stalled (h : recvBytes vs = g :: c :: hi :: lo :: rest) (hMarker : g ≠ 0x24)
    (hStall : stallsAt vs 4 = true) : mediaRound vs = none := by
  rcases recvFull_spec 4 vs with ⟨hShort, -⟩ | ⟨-, vs', hTaken, hFrom⟩
  · simp only [h, List.length_cons] at hShort
    omega
  · have hHdr : (recvBytes vs).take 4 = [g, c, hi, lo] := by rw [h]; rfl
    rw [hHdr] at hTaken hFrom
    have hHere : stallsAt vs' 0 = true := by
      rw [hFrom.2]
      exact hStall
    rcases recvOne_spec vs' with ⟨-, hNone⟩ | ⟨hTimely, -⟩
    · simp only [mediaRound, hTaken, List.getD_cons_zero, ne_eq, hMarker, not_false_eq_true, if_true,
        hNone]
    · rw [hHere] at hTimely
      cases hTimely

/-- The header shifted by one. -/
theorem mediaRound_shifted {b : UInt8} (h : recvBytes vs = g :: c :: hi :: lo :: b :: rest)
    (hMarker : g ≠ 0x24) (hTimely : stallsAt vs 4 = false) :
    ∃ vs', TakesFrom vs [g, c, hi, lo, b] vs' ∧
      mediaRound vs =
        if c ≠ 0x24 then some (.thrown [c, hi, lo, b], vs') else mediaBody [c, hi, lo, b] vs' := by
  rcases recvFull_spec 4 vs with ⟨hShort, -⟩ | ⟨-, vs', hTaken, hFrom⟩
  · simp only [h, List.length_cons] at hShort
    omega
  have hHdr : (recvBytes vs).take 4 = [g, c, hi, lo] := by rw [h]; rfl
  rw [hHdr] at hTaken hFrom
  have hLeft : recvBytes vs' = b :: rest := hFrom.rest h
  have hHere : stallsAt vs' 0 = false := by
    rw [hFrom.2]
    exact hTimely
  rcases recvOne_spec vs' with ⟨hNone, -⟩ | ⟨-, b', vs'', hOne, hOneFrom⟩
  · rw [hLeft, hHere] at hNone
    simp at hNone
  · have hByte : b' = b := by
      have hAll := hOneFrom.1
      rw [hLeft] at hAll
      exact (List.cons.inj hAll).1.symm
    subst hByte
    refine ⟨vs'', hFrom.trans hOneFrom, ?_⟩
    simp only [mediaRound, hTaken, List.getD_cons_zero, List.getD_cons_succ, ne_eq, hMarker,
      not_false_eq_true, if_true, hOne, List.drop_succ_cons, List.drop_zero, List.cons_append,
      List.nil_append]

end Round

-- ---------------------------------------------------------------------------
-- Frames
-- ---------------------------------------------------------------------------

/-- A valid frame: `$`, channel, length, RTP packet. -/
structure MediaFrame where
  channel : UInt8
  rtp : Bytes
  hShort : 12 ≤ rtp.length
  hLong : rtp.length ≤ 4096

namespace MediaFrame

def bytes (f : MediaFrame) : Bytes :=
  [0x24, f.channel] ++ putBe16 (UInt16.ofNat f.rtp.length) ++ f.rtp

/-- The upper and the lower byte of the length. -/
def hi (f : MediaFrame) : UInt8 := (UInt16.ofNat f.rtp.length >>> 8).toUInt8

def lo (f : MediaFrame) : UInt8 := (UInt16.ofNat f.rtp.length).toUInt8

theorem bytes_eq (f : MediaFrame) : f.bytes = 0x24 :: f.channel :: f.hi :: f.lo :: f.rtp := rfl

theorem length_bytes (f : MediaFrame) : f.bytes.length = 4 + f.rtp.length := by
  rw [bytes_eq]
  simp only [List.length_cons]
  omega

variable {f : MediaFrame} {vs : List Recv} {rest : Bytes}

/-- Behind its header a frame is read to its end. -/
theorem mediaBody_frame (h : recvBytes vs = f.rtp ++ rest) :
    ∃ vs', TakesFrom vs f.rtp vs' ∧
      mediaBody [0x24, f.channel, f.hi, f.lo] vs = some (.packet f.rtp, vs') := by
  have hShort := f.hShort
  have hLong := f.hLong
  have hCount : (getBe16 f.hi f.lo).toNat = f.rtp.length := by
    rw [hi, lo, getBe16_putBe16]
    exact UInt16.toNat_ofNat_of_lt' (by simp only [UInt16.size]; omega)
  have hTake : (recvBytes vs).take f.rtp.length = f.rtp := by rw [h, List.take_left]
  rcases recvFull_spec f.rtp.length vs with ⟨hFew, -⟩ | ⟨-, vs', hTaken, hFrom⟩
  · rw [h, List.length_append] at hFew
    omega
  · rw [hTake] at hTaken hFrom
    refine ⟨vs', hFrom, ?_⟩
    simp only [mediaBody, List.getD_cons_succ, List.getD_cons_zero, hCount]
    rw [if_neg (by omega), hTaken]
    rfl

theorem mediaRound_frame (h : recvBytes vs = f.bytes ++ rest) :
    ∃ vs', TakesFrom vs f.bytes vs' ∧ mediaRound vs = some (.packet f.rtp, vs') := by
  have hBytes : recvBytes vs = 0x24 :: f.channel :: f.hi :: f.lo :: (f.rtp ++ rest) := h
  obtain ⟨vs₁, hHdr, hRound⟩ := mediaRound_aligned hBytes
  have hBody : recvBytes vs₁ = f.rtp ++ rest := hHdr.rest hBytes
  obtain ⟨vs₂, hRtp, hPacket⟩ := mediaBody_frame hBody
  exact ⟨vs₂, hHdr.trans hRtp, by rw [hRound, hPacket]⟩

/-- One byte of garbage is got over by the shift. -/
theorem mediaRound_late {g : UInt8} (h : recvBytes vs = g :: (f.bytes ++ rest)) (hMarker : g ≠ 0x24)
    (hTimely : stallsAt vs 4 = false) :
    ∃ vs', TakesFrom vs (g :: f.bytes) vs' ∧ mediaRound vs = some (.packet f.rtp, vs') := by
  have hBytes : recvBytes vs = g :: 0x24 :: f.channel :: f.hi :: f.lo :: (f.rtp ++ rest) := h
  obtain ⟨vs₁, hHdr, hRound⟩ := mediaRound_shifted hBytes hMarker hTimely
  have hBody : recvBytes vs₁ = f.rtp ++ rest := hHdr.rest hBytes
  obtain ⟨vs₂, hRtp, hPacket⟩ := mediaBody_frame hBody
  refine ⟨vs₂, hHdr.trans hRtp, ?_⟩
  rw [hRound, if_neg (not_not.mpr rfl), hPacket]

end MediaFrame

/-- Frames that are read from their first byte on are all delivered, whatever times out. -/
theorem mediaRounds_frames {frames : List MediaFrame} {vs : List Recv} {fuel : Nat}
    (h : recvBytes vs = frames.flatMap MediaFrame.bytes) (hFuel : frames.length ≤ fuel) :
    mediaRounds fuel vs = frames.map fun f => .packet f.rtp := by
  induction frames generalizing vs fuel with
  | nil =>
    cases fuel with
    | zero => rfl
    | succ fuel => rw [mediaRounds, mediaRound_short (by rw [h]; decide)]; rfl
  | cons f frames ih =>
    obtain ⟨fuel, rfl⟩ := Nat.exists_eq_add_of_le' (Nat.zero_lt_of_lt hFuel : 1 ≤ fuel)
    rw [List.flatMap_cons] at h
    obtain ⟨vs', hFrom, hRound⟩ := MediaFrame.mediaRound_frame h
    have hRest : recvBytes vs' = frames.flatMap MediaFrame.bytes := hFrom.rest h
    rw [mediaRounds, hRound, List.map_cons, ← ih hRest (by simpa using hFuel)]

-- ---------------------------------------------------------------------------
-- Garbage in front of the frames
-- ---------------------------------------------------------------------------

@[simp] theorem delivered_nil : delivered [] = [] := rfl

@[simp] theorem delivered_packet (rtp : Bytes) (es : List FrameEvent) :
    delivered (.packet rtp :: es) = rtp :: delivered es := rfl

@[simp] theorem delivered_thrown (hdr : Bytes) (es : List FrameEvent) :
    delivered (.thrown hdr :: es) = delivered es := rfl

@[simp] theorem keepsMarkers_nil : KeepsMarkers [] := by simp [KeepsMarkers]

@[simp] theorem keepsMarkers_packet (rtp : Bytes) (es : List FrameEvent) :
    KeepsMarkers (.packet rtp :: es) ↔ KeepsMarkers es := by
  simp [KeepsMarkers]

@[simp] theorem keepsMarkers_thrown (hdr : Bytes) (es : List FrameEvent) :
    KeepsMarkers (.thrown hdr :: es) ↔ 0x24 ∉ hdr ∧ KeepsMarkers es := by
  simp [KeepsMarkers]

theorem delivered_frames (frames : List MediaFrame) :
    delivered (frames.map fun f => .packet f.rtp) = frames.map MediaFrame.rtp := by
  induction frames with
  | nil => rfl
  | cons f frames ih => rw [List.map_cons, delivered_packet, ih, List.map_cons]

theorem keepsMarkers_frames (frames : List MediaFrame) :
    KeepsMarkers (frames.map fun f => .packet f.rtp) := by
  induction frames with
  | nil => exact keepsMarkers_nil
  | cons f frames ih => exact (keepsMarkers_packet _ _).mpr ih

/-- The frames are all handed on, and no marker is given up with a header. -/
def Resynchronised (frames : List MediaFrame) (es : List FrameEvent) : Prop :=
  delivered es = frames.map MediaFrame.rtp ∧ KeepsMarkers es

theorem resynchronised_frames (frames : List MediaFrame) :
    Resynchronised frames (frames.map fun f => .packet f.rtp) :=
  ⟨delivered_frames frames, keepsMarkers_frames frames⟩

/-- A connection given up is no loss if nothing was still to come. -/
theorem resynchronised_nil (frames : List MediaFrame) : Resynchronised frames [] ↔ frames = [] := by
  rw [Resynchronised, delivered_nil, eq_comm, List.map_eq_nil_iff]
  exact and_iff_left keepsMarkers_nil

/-- What is left of the garbage is one byte at most, and every fifth byte comes at once. -/
def GetsOver (n : Nat) (vs : List Recv) : Prop :=
  n % 5 ≤ 1 ∧ ∀ i, i % 5 = 4 → i < n + 4 → stallsAt vs i = false

/-- Five bytes of garbage are consumed by a round, if it does not stall. -/
theorem getsOver_add_five {n : Nat} {vs vs' : List Recv} {bs : Bytes} (hFive : bs.length = 5)
    (hFrom : TakesFrom vs bs vs') (hTimely : stallsAt vs 4 = false) :
    GetsOver (n + 5) vs ↔ GetsOver n vs' := by
  have hStalls : ∀ i, stallsAt vs' i = stallsAt vs (5 + i) := by
    intro i
    rw [hFrom.2, hFive]
  rw [GetsOver, GetsOver, Nat.add_mod_right]
  refine and_congr_right fun _ => ⟨fun h i hi hLess => ?_, fun h i hi hLess => ?_⟩
  · rw [hStalls]
    exact h (5 + i) (by omega) (by omega)
  · by_cases hFirst : i = 4
    · rw [hFirst]
      exact hTimely
    · obtain ⟨j, rfl⟩ : ∃ j, i = 5 + j := ⟨i - 5, by omega⟩
      rw [← hStalls]
      exact h j (by omega) (by omega)

/-- Behind a wrong marker that is the last of the stream the task ends. -/
theorem mediaRound_last {vs : List Recv} {g c hi lo : UInt8} (h : recvBytes vs = [g, c, hi, lo])
    (hMarker : g ≠ 0x24) : mediaRound vs = none := by
  rcases recvFull_spec 4 vs with ⟨hShort, -⟩ | ⟨-, vs', hTaken, hFrom⟩
  · simp only [h, List.length_cons, List.length_nil] at hShort
    omega
  · have hHdr : (recvBytes vs).take 4 = [g, c, hi, lo] := by rw [h]; rfl
    rw [hHdr] at hTaken hFrom
    have hEnd : recvBytes vs' = [] := hFrom.rest h
    rcases recvOne_spec vs' with ⟨-, hNone⟩ | ⟨-, b, vs'', -, hByte⟩
    · simp only [mediaRound, hTaken, List.getD_cons_zero, ne_eq, hMarker, not_false_eq_true, if_true,
        hNone]
    · have hSome := hByte.1
      rw [hEnd] at hSome
      cases hSome

section Garbage

variable {vs : List Recv} {frames : List MediaFrame} {fuel : Nat}

/-- A round that ends the task. -/
theorem resynchronised_ended (h : mediaRound vs = none) :
    Resynchronised frames (mediaRounds (fuel + 1) vs) ↔ frames = [] := by
  rw [mediaRounds, h]
  exact resynchronised_nil frames

/-- Two to four bytes of garbage: the marker is in the header when it is given up. -/
theorem not_resynchronised {g c x y z : UInt8} {rest : Bytes}
    (h : recvBytes vs = g :: c :: x :: y :: z :: rest) (hFirst : g ≠ 0x24) (hSecond : c ≠ 0x24)
    (hMarker : 0x24 ∈ [x, y, z]) (hSome : frames ≠ []) :
    ¬Resynchronised frames (mediaRounds (fuel + 1) vs) := by
  by_cases hStall : stallsAt vs 4 = true
  · rw [resynchronised_ended (mediaRound_stalled h hFirst hStall)]
    exact hSome
  · obtain ⟨vs', -, hRound⟩ := mediaRound_shifted h hFirst (eq_false_of_ne_true hStall)
    rw [if_pos hSecond] at hRound
    rw [mediaRounds, hRound, Resynchronised, keepsMarkers_thrown]
    exact fun hKeeps => hKeeps.2.1 (List.mem_cons_of_mem _ hMarker)

/-- Less than a header is left, and nothing is to come. -/
theorem resynchronised_rest (hNone : frames = []) (hEnd : mediaRound vs = none) {n : Nat} :
    Resynchronised frames (mediaRounds (fuel + 1) vs) ↔ frames = [] ∨ GetsOver n vs :=
  iff_of_true ((resynchronised_ended hEnd).mpr hNone) (.inl hNone)

/-- With frames to come, the marker of the first one is given up. -/
theorem resynchronised_lost {n : Nat} (hSome : frames ≠ []) (hMany : ¬n % 5 ≤ 1)
    (hLost : ¬Resynchronised frames (mediaRounds (fuel + 1) vs)) :
    Resynchronised frames (mediaRounds (fuel + 1) vs) ↔ frames = [] ∨ GetsOver n vs :=
  iff_of_false hLost fun h => h.elim hSome fun hOver => hMany hOver.1

/-- One byte of garbage. -/
theorem resynchronised_one {g : UInt8} (hMarker : g ≠ 0x24)
    (h : recvBytes vs = g :: frames.flatMap MediaFrame.bytes) (hFuel : frames.length ≤ fuel) :
    Resynchronised frames (mediaRounds (fuel + 1) vs) ↔ frames = [] ∨ GetsOver 1 vs := by
  cases frames with
  | nil => exact resynchronised_rest rfl (mediaRound_short (by rw [h]; simp))
  | cons f frames =>
    rw [List.flatMap_cons] at h
    by_cases hStall : stallsAt vs 4 = true
    · have hNot : ¬GetsOver 1 vs := fun hOver => by
        have hTimely := hOver.2 4 rfl (by decide)
        rw [hStall] at hTimely
        cases hTimely
      rw [resynchronised_ended (mediaRound_stalled h hMarker hStall), or_iff_left hNot]
    · have hTimely := eq_false_of_ne_true hStall
      obtain ⟨vs', hFrom, hRound⟩ := MediaFrame.mediaRound_late h hMarker hTimely
      have hLeft : recvBytes vs' = frames.flatMap MediaFrame.bytes := hFrom.rest h
      have hOver : GetsOver 1 vs := by
        refine ⟨le_refl _, fun i hi hLess => ?_⟩
        rw [show i = 4 by omega]
        exact hTimely
      rw [mediaRounds, hRound]
      simp only
      rw [mediaRounds_frames hLeft (Nat.le_of_succ_le (by simpa using hFuel))]
      exact iff_of_true (resynchronised_frames (f :: frames)) (.inr hOver)

theorem length_frames_le (frames : List MediaFrame) :
    frames.length ≤ (frames.flatMap MediaFrame.bytes).length := by
  induction frames with
  | nil => exact le_refl _
  | cons f frames ih =>
    rw [List.flatMap_cons, List.length_append, f.length_bytes, List.length_cons]
    omega

/-- At most four bytes of garbage. -/
theorem resynchronised_short {garbage : Bytes} (hGarbage : 0x24 ∉ garbage)
    (hShort : garbage.length < 5)
    (h : recvBytes vs = garbage ++ frames.flatMap MediaFrame.bytes)
    (hFuel : (recvBytes vs).length ≤ fuel) :
    Resynchronised frames (mediaRounds fuel vs) ↔ frames = [] ∨ GetsOver garbage.length vs := by
  have hFrames := length_frames_le frames
  have hLength := congrArg List.length h
  rw [List.length_append] at hLength
  rcases garbage with _ | ⟨g, garbage⟩
  · -- in step from the beginning
    rw [mediaRounds_frames h (by omega)]
    refine iff_of_true (resynchronised_frames frames) (.inr ⟨by decide, fun i hi hLess => ?_⟩)
    simp only [List.length_nil] at hLess
    omega
  obtain ⟨fuel, rfl⟩ : ∃ n, fuel = n + 1 :=
    Nat.exists_eq_add_of_le' (by simp only [List.length_cons] at hLength; omega)
  simp only [List.mem_cons, not_or] at hGarbage
  have hFirst := Ne.symm hGarbage.1
  rcases garbage with _ | ⟨c, garbage⟩
  · exact resynchronised_one hFirst h (by simp only [List.length_cons] at hLength; omega)
  simp only [List.mem_cons, not_or] at hGarbage
  have hSecond := Ne.symm hGarbage.2.1
  -- two to four bytes: only the connection's end can make up for them
  cases frames with
  | nil =>
    rcases garbage with _ | ⟨x, _ | ⟨y, _ | ⟨z, garbage⟩⟩⟩
    · exact resynchronised_rest rfl (mediaRound_short (by rw [h]; simp))
    · exact resynchronised_rest rfl (mediaRound_short (by rw [h]; simp))
    · exact resynchronised_rest rfl (mediaRound_last h hFirst)
    · simp only [List.length_cons] at hShort
      omega
  | cons f frames =>
    have hSome : f :: frames ≠ [] := List.cons_ne_nil _ _
    rcases garbage with _ | ⟨x, _ | ⟨y, _ | ⟨z, garbage⟩⟩⟩
    · exact resynchronised_lost hSome (by simp)
        (not_resynchronised h hFirst hSecond (by simp) hSome)
    · exact resynchronised_lost hSome (by simp)
        (not_resynchronised h hFirst hSecond (by simp) hSome)
    · exact resynchronised_lost hSome (by simp)
        (not_resynchronised h hFirst hSecond (by simp) hSome)
    · simp only [List.length_cons] at hShort
      omega

/-- **Garbage.** Every five bytes of it go with one round. -/
theorem resynchronised_iff {garbage : Bytes} (hGarbage : 0x24 ∉ garbage)
    (h : recvBytes vs = garbage ++ frames.flatMap MediaFrame.bytes)
    (hFuel : (recvBytes vs).length ≤ fuel) :
    Resynchronised frames (mediaRounds fuel vs) ↔ frames = [] ∨ GetsOver garbage.length vs := by
  induction hLength : garbage.length using Nat.strongRecOn generalizing garbage vs fuel with
  | _ length ih =>
    subst hLength
    -- a round takes five bytes, so the cases are less than five and five or more
    by_cases hShort : garbage.length < 5
    · exact resynchronised_short hGarbage hShort h hFuel
    obtain ⟨g, c, x, y, z, rest, rfl⟩ : ∃ g c x y z rest, garbage = g :: c :: x :: y :: z :: rest := by
      rcases garbage with _ | ⟨g, _ | ⟨c, _ | ⟨x, _ | ⟨y, _ | ⟨z, rest⟩⟩⟩⟩⟩
      case cons.cons.cons.cons.cons => exact ⟨g, c, x, y, z, rest, rfl⟩
      all_goals
        simp only [List.length_cons, List.length_nil] at hShort
        omega
    simp only [List.mem_cons, not_or] at hGarbage
    obtain ⟨hFirst, hSecond, hThird, hFourth, hFifth, hRest⟩ := hGarbage
    obtain ⟨fuel, rfl⟩ : ∃ n, fuel = n + 1 := by
      rw [h] at hFuel
      exact Nat.exists_eq_add_of_le' (Nat.le_trans (by simp) hFuel)
    by_cases hStall : stallsAt vs 4 = true
    · have hNot : ¬GetsOver (g :: c :: x :: y :: z :: rest).length vs := fun hOver => by
        have hTimely := hOver.2 4 rfl (by simp only [List.length_cons]; omega)
        rw [hStall] at hTimely
        cases hTimely
      rw [resynchronised_ended (mediaRound_stalled h (Ne.symm hFirst) hStall), or_iff_left hNot]
    · -- the round throws away what has no marker in it, and the rest of the garbage is shorter
      have hTimely := eq_false_of_ne_true hStall
      obtain ⟨vs', hFrom, hRound⟩ := mediaRound_shifted h (Ne.symm hFirst) hTimely
      rw [if_pos (Ne.symm hSecond)] at hRound
      have hLeft : recvBytes vs' = rest ++ frames.flatMap MediaFrame.bytes := hFrom.rest h
      have hLess : (recvBytes vs').length ≤ fuel := by
        rw [h] at hFuel
        rw [hLeft]
        simp only [List.length_append, List.length_cons] at hFuel ⊢
        omega
      have hNext := ih rest.length (by simp only [List.length_cons]; omega) hRest hLeft hLess rfl
      rw [List.length_cons, List.length_cons, List.length_cons, List.length_cons, List.length_cons,
        getsOver_add_five rfl hFrom hTimely, ← hNext, mediaRounds, hRound, Resynchronised,
        delivered_thrown, keepsMarkers_thrown]
      refine and_congr_right fun _ => and_iff_right ?_
      simp only [List.mem_cons, List.not_mem_nil, or_false, not_or]
      exact ⟨hSecond, hThird, hFourth, hFifth⟩

end Garbage

/-- **Resynchronisation.** Whatever garbage without a marker precedes the frames, however
the stream is cut and whenever `recv` times out: the frames are all handed on, and no
marker is given up, exactly if there are none, or the garbage is got over. -/
theorem resynchronises_iff (garbage : Bytes) (hGarbage : 0x24 ∉ garbage) (frames : List MediaFrame)
    (vs : List Recv) (hStream : recvBytes vs = garbage ++ frames.flatMap MediaFrame.bytes) :
    Resynchronised frames (mediaEvents vs) ↔ frames = [] ∨ GetsOver garbage.length vs :=
  resynchronised_iff hGarbage hStream (le_refl _)

/-- A frame of silence. -/
def silentFrame : MediaFrame where
  channel := 0
  rtp := List.replicate 12 0
  hShort := by decide
  hLong := by decide

/-- Six bytes of garbage, in three pieces. -/
theorem resynchronises_behind_six :
    Resynchronised [silentFrame]
        (mediaEvents [.data [1, 2, 3], .data [4, 5, 6], .data silentFrame.bytes]) ↔
      [silentFrame] = [] ∨
        GetsOver 6 [.data [1, 2, 3], .data [4, 5, 6], .data silentFrame.bytes] :=
  resynchronises_iff [1, 2, 3, 4, 5, 6] (by decide) [silentFrame]
    [.data [1, 2, 3], .data [4, 5, 6], .data silentFrame.bytes] rfl

/-- Behind two bytes of garbage a frame is lost. -/
theorem garbage_loses_frame :
    ¬∀ (garbage : Bytes) (frames : List MediaFrame) (vs : List Recv), 0x24 ∉ garbage →
      recvBytes vs = garbage ++ frames.flatMap MediaFrame.bytes →
      Resynchronised frames (mediaEvents vs) := by
  intro hAll
  have hTwo := (hAll [1, 2] [silentFrame] [.data ([1, 2] ++ silentFrame.bytes)] (by decide) rfl).1
  revert hTwo
  decide +kernel

-- ---------------------------------------------------------------------------
-- The stream as a whole
-- ---------------------------------------------------------------------------

/-- Nothing times out. -/
def Timely (vs : List Recv) : Prop := ∀ n, stallsAt vs n = false

theorem Timely.takesFrom {vs vs' : List Recv} {bs : Bytes} (h : Timely vs)
    (hFrom : TakesFrom vs bs vs') : Timely vs' := fun n => by rw [hFrom.2, h]

/-- Behind a header the packet is read, if its length makes sense. -/
theorem delivered_body {fuel : Nat} (hdr : Bytes) {vs : List Recv} {rest : Bytes}
    (h : recvBytes vs = rest) (hTimely : Timely vs)
    (ih : ∀ vs, Timely vs → delivered (mediaRounds fuel vs) = rtpPackets fuel (recvBytes vs)) :
    delivered ((mediaBody hdr vs).elim [] fun r => r.1 :: mediaRounds fuel r.2) =
      if (getBe16 (hdr.getD 2 0) (hdr.getD 3 0)).toNat < 12 ∨
          (getBe16 (hdr.getD 2 0) (hdr.getD 3 0)).toNat > 4096 then rtpPackets fuel rest
      else if rest.length < (getBe16 (hdr.getD 2 0) (hdr.getD 3 0)).toNat then []
      else
        rest.take (getBe16 (hdr.getD 2 0) (hdr.getD 3 0)).toNat ::
          rtpPackets fuel (rest.drop (getBe16 (hdr.getD 2 0) (hdr.getD 3 0)).toNat) := by
  subst h
  rw [mediaBody]
  generalize (getBe16 (hdr.getD 2 0) (hdr.getD 3 0)).toNat = len
  by_cases hBad : len < 12 ∨ len > 4096
  · rw [if_pos hBad, if_pos hBad]
    exact ih vs hTimely
  rw [if_neg hBad, if_neg hBad]
  rcases recvFull_spec len vs with ⟨hFew, hNone⟩ | ⟨hEnough, vs', hTaken, hFrom⟩
  · rw [hNone, if_pos hFew]
    rfl
  · have hLeft : recvBytes vs' = (recvBytes vs).drop len :=
      hFrom.rest (List.take_append_drop len _).symm
    rw [hTaken, if_neg (Nat.not_lt.mpr hEnough), ← hLeft, ← ih vs' (hTimely.takesFrom hFrom)]
    rfl

theorem mediaRounds_succ (fuel : Nat) (vs : List Recv) :
    mediaRounds (fuel + 1) vs = (mediaRound vs).elim [] fun r => r.1 :: mediaRounds fuel r.2 := by
  rw [mediaRounds]
  cases mediaRound vs with
  | none => rfl
  | some r => rfl

/-- Round by round the packets are read that `rtpPackets` reads off the whole stream. -/
theorem delivered_mediaRounds (fuel : Nat) (vs : List Recv) (hTimely : Timely vs) :
    delivered (mediaRounds fuel vs) = rtpPackets fuel (recvBytes vs) := by
  induction fuel generalizing vs with
  | zero => rfl
  | succ fuel ih =>
    rw [mediaRounds_succ, rtpPackets]
    rcases hBytes : recvBytes vs with _ | ⟨m, _ | ⟨c, _ | ⟨hi, _ | ⟨lo, rest⟩⟩⟩⟩
    case cons.cons.cons.cons =>
      -- as the marker stands: first, second, or nowhere in the first two bytes
      by_cases hMarker : m = 0x24
      · subst hMarker
        obtain ⟨vs', hFrom, hRound⟩ := mediaRound_aligned hBytes
        have hLeft : recvBytes vs' = rest := hFrom.rest hBytes
        rw [hRound, delivered_body _ hLeft (hTimely.takesFrom hFrom) ih]
        rfl
      rcases rest with _ | ⟨b, rest⟩
      · rw [mediaRound_last hBytes hMarker, interleavedHeader, if_neg hMarker]
        rfl
      obtain ⟨vs', hFrom, hRound⟩ := mediaRound_shifted hBytes hMarker (hTimely 4)
      have hLeft : recvBytes vs' = rest := hFrom.rest hBytes
      rw [hRound, interleavedHeader, if_neg hMarker]
      by_cases hSecond : c = 0x24
      · rw [if_neg (not_not.mpr hSecond), delivered_body _ hLeft (hTimely.takesFrom hFrom) ih]
        simp only [hSecond, if_true]
        rfl
      · rw [if_pos hSecond]
        simp only [hSecond, if_false, Option.elim_some, delivered_thrown]
        rw [ih vs' (hTimely.takesFrom hFrom), hLeft]
    all_goals
      rw [mediaRound_short (by rw [hBytes]; simp)]
      rfl

/-- Uncut or cut, a stream that comes in time brings the ring buffer the same bytes. -/
theorem mediaReceive_eq (aes : Aes) (streamKey : Option Block) {vs : List Recv} (hTimely : Timely vs) :
    mediaReceive aes streamKey (recvBytes vs) =
      (delivered (mediaEvents vs)).flatMap (mediaPayload aes streamKey) := by
  rw [mediaEvents, delivered_mediaRounds _ vs hTimely, mediaReceive]

theorem TakesFrom.length {vs vs' : List Recv} {bs : Bytes} (h : TakesFrom vs bs vs') :
    (recvBytes vs).length = bs.length + (recvBytes vs').length := by
  rw [h.1, List.length_append]

theorem mediaBody_takes {hdr : Bytes} {vs vs' : List Recv} {e : FrameEvent}
    (h : mediaBody hdr vs = some (e, vs')) : (recvBytes vs').length ≤ (recvBytes vs).length := by
  rw [mediaBody] at h
  split at h
  · cases h
    exact le_refl _
  · rcases recvFull_spec (getBe16 (hdr.getD 2 0) (hdr.getD 3 0)).toNat vs with
      ⟨-, hNone⟩ | ⟨-, vs₁, hTaken, hFrom⟩
    · rw [hNone] at h
      cases h
    · rw [hTaken] at h
      cases h
      have hLength := hFrom.length
      dsimp only
      omega

/-- A round takes a header at least. -/
theorem mediaRound_takes {vs vs' : List Recv} {e : FrameEvent}
    (h : mediaRound vs = some (e, vs')) : (recvBytes vs').length + 4 ≤ (recvBytes vs).length := by
  rw [mediaRound] at h
  rcases recvFull_spec 4 vs with ⟨-, hNone⟩ | ⟨hEnough, vs₁, hTaken, hFrom⟩
  · rw [hNone] at h
    cases h
  rw [hTaken] at h
  have hHdr := hFrom.length
  rw [List.length_take, Nat.min_eq_left hEnough] at hHdr
  simp only at h
  split at h
  · rcases recvOne_spec vs₁ with ⟨-, hNone⟩ | ⟨-, b, vs₂, hOne, hByte⟩
    · rw [hNone] at h
      cases h
    · rw [hOne] at h
      have hLength := hByte.length
      rw [List.length_singleton] at hLength
      simp only at h
      split at h
      · cases h
        omega
      · have hBody := mediaBody_takes h
        omega
  · have hBody := mediaBody_takes h
    omega

/-- `mediaEvents` are all rounds there are. -/
theorem mediaRounds_enough {fuel : Nat} {vs : List Recv} (hFuel : (recvBytes vs).length ≤ fuel) :
    mediaRounds fuel vs = mediaEvents vs := by
  -- any two amounts of fuel will do: by induction on both at once
  have hAny : ∀ (n m : Nat) (vs : List Recv), (recvBytes vs).length ≤ n →
      (recvBytes vs).length ≤ m → mediaRounds n vs = mediaRounds m vs := by
    intro n
    induction n with
    | zero =>
      intro m vs hn _
      cases m with
      | zero => rfl
      | succ m => rw [mediaRounds_succ, mediaRound_short (by omega)]; rfl
    | succ n ih =>
      intro m vs hn hm
      cases m with
      | zero => rw [mediaRounds_succ, mediaRound_short (by omega)]; rfl
      | succ m =>
        rw [mediaRounds_succ, mediaRounds_succ]
        cases hRound : mediaRound vs with
        | none => rfl
        | some r =>
          have hTakes := mediaRound_takes hRound
          rw [Option.elim_some, Option.elim_some, ih m r.2 (by omega) (by omega)]
  exact hAny fuel _ vs hFuel (le_refl _)

end EspMiplay.Miplay
