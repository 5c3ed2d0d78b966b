import Mathlib.Data.List.TakeWhile
import EspMiplay.Lib.Framing
import EspMiplay.Miplay.SafetyConversation

/-!
# The control-frame receive loop

`handle_client` accumulates what `recv` delivers in one buffer and takes whole
frames off its front: a nine-byte big-endian header (`$`, outer type, command,
sequence number, payload length) and the payload.

- `frameMove` is one turn of the inner `while (buf_used >= 9)`.
- `receiveLoop` is the outer loop; `cuts` decides how much of what has arrived
  each `recv` hands over.
- `referenceFrames` reads a whole stream, one byte at a time.

Main result: `receiveLoop_eq`, whatever the cuts.
-/

namespace EspMiplay.Miplay

open Framing

def miplayFrameMagic : UInt8 := 0x24
def miplayFrameHdrLen : Nat := 9
/-- `MIPLAY_RX_BUF_LEN` -/
def miplayRxBufLen : Nat := miplayMaxFramePayload + miplayFrameHdrLen

/-! ## Headers -/

/-- `buf[1]`: 0x00 plain, 0x04 Alone, 0x14 Safety. -/
def outerType (buf : Bytes) : UInt8 := buf.getD 1 0

def frameCmd (buf : Bytes) : UInt16 := ((buf.getD 1 0).toUInt16 <<< 8) ||| (buf.getD 2 0).toUInt16

def frameSeq (buf : Bytes) : UInt16 := ((buf.getD 3 0).toUInt16 <<< 8) ||| (buf.getD 4 0).toUInt16

def framePlen (buf : Bytes) : Nat :=
  (getBe32 (buf.getD 5 0) (buf.getD 6 0) (buf.getD 7 0) (buf.getD 8 0)).toNat

def frameTotal (buf : Bytes) : Nat := miplayFrameHdrLen + framePlen buf

def framePayload (buf : Bytes) : Bytes := buf.drop miplayFrameHdrLen

def miplayFrameHdrPlausible (outer : UInt8) (plen : Nat) : Bool :=
  if plen > miplayMaxFramePayload then false
  else outer == 0x00 || outer == 0x04 || outer == 0x14

/-- The bytes start with a header the loop accepts. -/
def HeadPlausible (s : Bytes) : Prop :=
  s.getD 0 0 = miplayFrameMagic ∧ miplayFrameHdrPlausible (outerType s) (framePlen s) = true

instance (s : Bytes) : Decidable (HeadPlausible s) := inferInstanceAs (Decidable (_ ∧ _))

/-- A header is the same whatever follows it. -/
theorem getD_append_hdr {xs : Bytes} (ys : Bytes) {i : Nat} (hi : i < miplayFrameHdrLen)
    (h : miplayFrameHdrLen ≤ xs.length) : (xs ++ ys).getD i 0 = xs.getD i 0 := by
  simp [List.getD, List.getElem?_append_left (show i < xs.length by omega)]

theorem framePlen_append {xs : Bytes} (ys : Bytes) (h : miplayFrameHdrLen ≤ xs.length) :
    framePlen (xs ++ ys) = framePlen xs := by
  unfold framePlen
  rw [getD_append_hdr ys (by decide) h, getD_append_hdr ys (by decide) h,
    getD_append_hdr ys (by decide) h, getD_append_hdr ys (by decide) h]

theorem headPlausible_append {xs : Bytes} (ys : Bytes) (h : miplayFrameHdrLen ≤ xs.length) :
    HeadPlausible (xs ++ ys) ↔ HeadPlausible xs := by
  unfold HeadPlausible outerType
  rw [framePlen_append ys h, getD_append_hdr ys (by decide) h, getD_append_hdr ys (by decide) h]

theorem HeadPlausible.total_le {s : Bytes} (h : HeadPlausible s) :
    frameTotal s ≤ miplayRxBufLen := by
  have hPlen : framePlen s ≤ miplayMaxFramePayload := by
    by_contra hBig
    have := h.2
    rw [miplayFrameHdrPlausible, if_pos (by omega)] at this
    cases this
  unfold frameTotal miplayRxBufLen
  omega

/-! ## The inner loop -/

/-- The scan for the next magic byte: never the byte in front. -/
def badMagicSkip (buf : Bytes) : Nat :=
  1 + ((buf.drop 1).takeWhile (· ≠ miplayFrameMagic)).length

/-- One turn of `while (buf_used >= MIPLAY_FRAME_HDR_LEN)`. -/
def frameMove (buf : Bytes) : Move Bytes :=
  if buf.length < miplayFrameHdrLen then .wait
  else if buf.getD 0 0 ≠ miplayFrameMagic then .skip (badMagicSkip buf)
  else if !miplayFrameHdrPlausible (outerType buf) (framePlen buf) then .skip 1
  else if buf.length < frameTotal buf then .wait
  else .take (buf.take (frameTotal buf)) (frameTotal buf)

/-- A frame is taken exactly when a plausible header and its payload are there. -/
theorem frameMove_take {buf b : Bytes} {n : Nat} (h : frameMove buf = .take b n) :
    miplayFrameHdrLen ≤ buf.length ∧ HeadPlausible buf ∧ frameTotal buf ≤ buf.length ∧
      b = buf.take (frameTotal buf) ∧ n = frameTotal buf := by
  unfold frameMove at h
  split_ifs at h with hLen hMagic hPlausible hTotal
  cases h
  exact ⟨by omega, ⟨by simpa using hMagic, by simpa using hPlausible⟩, by omega, rfl, rfl⟩

/-- A frame carries at most a payload of the full size. -/
theorem length_framePayload_le {buf b : Bytes} {n : Nat} (h : frameMove buf = .take b n) :
    (framePayload b).length ≤ miplayMaxFramePayload := by
  obtain ⟨-, hHead, hTotal, rfl, -⟩ := frameMove_take h
  have hFit := hHead.total_le
  rw [framePayload, List.length_drop, List.length_take, Nat.min_eq_left hTotal]
  unfold miplayRxBufLen at hFit
  omega

/-- The loop waits for the rest of a header, or for the rest of a frame. -/
theorem frameMove_wait {buf : Bytes} (h : frameMove buf = .wait) :
    buf.length < miplayFrameHdrLen ∨
      (miplayFrameHdrLen ≤ buf.length ∧ HeadPlausible buf ∧ buf.length < frameTotal buf) := by
  unfold frameMove at h
  split_ifs at h with hLen hMagic hPlausible hTotal
  · exact Or.inl hLen
  · exact Or.inr ⟨by omega, ⟨by simpa using hMagic, by simpa using hPlausible⟩, hTotal⟩

/-- Bytes are skipped only in front of something that is no header: one byte, or
everything up to the next magic. -/
theorem frameMove_skip {buf : Bytes} {n : Nat} (h : frameMove buf = .skip n) :
    miplayFrameHdrLen ≤ buf.length ∧ ¬ HeadPlausible buf ∧
      (n = 1 ∨ (buf.getD 0 0 ≠ miplayFrameMagic ∧ n = badMagicSkip buf)) := by
  unfold frameMove at h
  split_ifs at h with hLen hMagic hPlausible hTotal <;> cases h
  · exact ⟨by omega, fun hHead => hMagic hHead.1, Or.inr ⟨hMagic, rfl⟩⟩
  · exact ⟨by omega, fun hHead => by simp [hHead.2] at hPlausible, Or.inl rfl⟩

theorem badMagicSkip_le {buf : Bytes} (h : 0 < buf.length) : badMagicSkip buf ≤ buf.length := by
  have hLen := (List.takeWhile_prefix (· ≠ miplayFrameMagic) : _ <+: buf.drop 1).length_le
  rw [List.length_drop] at hLen
  unfold badMagicSkip
  omega

/-- The bytes up to the next magic are none. -/
theorem badMagicSkip_take {buf : Bytes} (hMagic : buf.getD 0 0 ≠ miplayFrameMagic) :
    ∀ b ∈ buf.take (badMagicSkip buf), b ≠ miplayFrameMagic := by
  cases buf with
  | nil => simp
  | cons c cs =>
    intro b hb
    rw [badMagicSkip, Nat.add_comm, List.take_succ_cons, List.mem_cons] at hb
    rcases hb with rfl | hb
    · exact hMagic
    · rw [List.drop_one, List.tail_cons,
        ← List.prefix_iff_eq_take.mp (List.takeWhile_prefix _)] at hb
      simpa using List.mem_takeWhile_imp hb

def frameScanner : Scanner UInt8 Bytes where
  move := frameMove
  skip_pos := by
    intro xs n h
    obtain ⟨hLen, -, rfl | ⟨-, rfl⟩⟩ := frameMove_skip h
    · exact ⟨Nat.one_pos, by unfold miplayFrameHdrLen at hLen; omega⟩
    · exact ⟨Nat.le_add_right .., badMagicSkip_le (by unfold miplayFrameHdrLen at hLen; omega)⟩
  take_pos := by
    intro xs b n h
    obtain ⟨hLen, -, hTotal, -, rfl⟩ := frameMove_take h
    exact ⟨by unfold frameTotal miplayFrameHdrLen; omega, hTotal⟩

/-! ## The reference parser -/

/-- Skip one byte while the head is no plausible header, else take the whole
frame; a stream that ends inside a header or a frame holds no further frame. -/
def referenceFrames (s : Bytes) : List Bytes :=
  if s.length < miplayFrameHdrLen then []
  else if HeadPlausible s then
    if s.length < frameTotal s then []
    else s.take (frameTotal s) :: referenceFrames (s.drop (frameTotal s))
  else referenceFrames (s.drop 1)
termination_by s.length
decreasing_by
  · rename_i hLen _ _
    simp only [List.length_drop, frameTotal, miplayFrameHdrLen] at *
    omega
  · rename_i hLen _
    simp only [List.length_drop, miplayFrameHdrLen] at *
    omega

theorem referenceFrames_short {s : Bytes} (h : s.length < miplayFrameHdrLen) :
    referenceFrames s = [] := by
  rw [referenceFrames, if_pos h]

/-- A head that is not plausible is skipped, also near the end of the stream. -/
theorem referenceFrames_skip {s : Bytes} (h : ¬ HeadPlausible s) :
    referenceFrames s = referenceFrames (s.drop 1) := by
  by_cases hLen : s.length < miplayFrameHdrLen
  · have hDrop : (s.drop 1).length < miplayFrameHdrLen := by
      rw [List.length_drop]
      omega
    rw [referenceFrames_short hLen, referenceFrames_short hDrop]
  · rw [referenceFrames, if_neg hLen, if_neg h]

theorem referenceFrames_take {s : Bytes} (hLen : miplayFrameHdrLen ≤ s.length)
    (hHead : HeadPlausible s) (hTotal : frameTotal s ≤ s.length) :
    referenceFrames s = s.take (frameTotal s) :: referenceFrames (s.drop (frameTotal s)) := by
  rw [referenceFrames, if_neg (by omega), if_pos hHead, if_neg (by omega)]

/-- Bytes that are not the magic are skipped one and all. -/
theorem referenceFrames_skip_run {xs : Bytes} (hxs : ∀ b ∈ xs, b ≠ miplayFrameMagic)
    (ys : Bytes) : referenceFrames (xs ++ ys) = referenceFrames ys := by
  induction xs with
  | nil => rfl
  | cons b xs ih =>
    have hHead : ¬ HeadPlausible (b :: xs ++ ys) := fun h => hxs b (List.mem_cons_self ..) h.1
    rw [referenceFrames_skip hHead]
    exact ih fun c hc => hxs c (List.mem_cons_of_mem _ hc)

/-- **The inner loop reads streams the way the reference parser does.** -/
theorem frameScanner_sound : frameScanner.Sound referenceFrames where
  wait := by
    intro xs h
    rcases frameMove_wait h with hShort | ⟨hLen, hHead, hTotal⟩
    · exact referenceFrames_short hShort
    · rw [referenceFrames, if_neg (by omega), if_pos hHead, if_pos hTotal]
  skip := by
    intro xs n h ys
    obtain ⟨hLen, hHead, rfl | ⟨hMagic, rfl⟩⟩ := frameMove_skip h
    · have hSkip := referenceFrames_skip (mt (headPlausible_append ys hLen).mp hHead)
      rwa [List.drop_append_of_le_length (by unfold miplayFrameHdrLen at hLen; omega)] at hSkip
    · have hRun := referenceFrames_skip_run (badMagicSkip_take hMagic)
        (xs.drop (badMagicSkip xs) ++ ys)
      rwa [← List.append_assoc, List.take_append_drop] at hRun
  take := by
    intro xs b n h ys
    obtain ⟨hLen, hHead, hTotal, rfl, rfl⟩ := frameMove_take h
    have hSame : frameTotal (xs ++ ys) = frameTotal xs := by
      rw [frameTotal, frameTotal, framePlen_append ys hLen]
    have hLen' : (xs ++ ys).length = xs.length + ys.length := List.length_append
    rw [referenceFrames_take (by omega) ((headPlausible_append ys hLen).mpr hHead) (by omega),
      hSame, List.take_append_of_le_length hTotal, List.drop_append_of_le_length hTotal]

/-! ## The outer loop -/

/-- What the loop holds between two `recv` calls: the accumulated bytes, those
still to arrive, what the dispatched frames have made of the handler's state,
and (a ghost) the bytes the buffer-full branch has thrown away. -/
structure Rx (σ : Type*) where
  buf : Bytes
  pending : Bytes
  state : σ
  lost : Bytes

/-- `while (s_running)`, until `recv` reports the end of the stream. The `k`-th
`recv` delivers at least one byte and at most what was asked for, what has
arrived and `cuts k + 1`. -/
def receiveLoop {σ : Type*} (dispatch : σ → Bytes → σ) (cuts : Nat → Nat) (k : Nat)
    (r : Rx σ) : Rx σ :=
  if miplayRxBufLen - r.buf.length = 0 then
    -- `space <= 0`
    receiveLoop dispatch cuts k { r with buf := [], lost := r.lost ++ r.buf }
  else if r.pending = [] then r
  else
    let n := min (cuts k + 1) (min (miplayRxBufLen - r.buf.length) r.pending.length)
    let d := frameScanner.drain (r.buf ++ r.pending.take n)
    receiveLoop dispatch cuts (k + 1)
      { buf := d.2, pending := r.pending.drop n, state := d.1.foldl dispatch r.state,
        lost := r.lost }
termination_by (r.pending.length, r.buf.length)
decreasing_by
  · rename_i hFull
    refine Prod.Lex.right _ ?_
    have : 0 < miplayRxBufLen := by decide
    simp only [List.length_nil]
    omega
  · rename_i hSpace hPending
    refine Prod.Lex.left _ _ ?_
    have := List.length_pos_iff.mpr hPending
    simp only [List.length_drop]
    omega

/-- The loop from an empty buffer. -/
def receive {σ : Type*} (dispatch : σ → Bytes → σ) (cuts : Nat → Nat) (state : σ)
    (stream : Bytes) : Rx σ :=
  receiveLoop dispatch cuts 0 { buf := [], pending := stream, state := state, lost := [] }

/-- A drained buffer always has room: it is shorter than the longest frame. -/
theorem length_drained_lt (xs : Bytes) : (frameScanner.drain xs).2.length < miplayRxBufLen := by
  rcases frameMove_wait (frameScanner.move_drain xs) with hShort | ⟨-, hHead, hTotal⟩
  · exact hShort.trans (by decide)
  · exact hTotal.trans_le hHead.total_le

/-- **The run of the loop.** From a buffer that holds no complete frame, the
handler's state is what the reference parser's frames make of it, and no byte
is lost. -/
theorem receiveLoop_eq {σ : Type*} (dispatch : σ → Bytes → σ) (cuts : Nat → Nat) (k : Nat)
    (r : Rx σ) (hBuf : referenceFrames r.buf = []) (hRoom : r.buf.length < miplayRxBufLen) :
    (receiveLoop dispatch cuts k r).state =
        (referenceFrames (r.buf ++ r.pending)).foldl dispatch r.state ∧
      (receiveLoop dispatch cuts k r).lost = r.lost := by
  induction hLen : r.pending.length using Nat.strongRecOn generalizing k r with
  | _ len ih =>
    rw [receiveLoop, if_neg (by omega)]
    by_cases hPending : r.pending = []
    · rw [if_pos hPending, hPending, List.append_nil, hBuf]
      exact ⟨rfl, rfl⟩
    · rw [if_neg hPending]
      set n := min (cuts k + 1) (min (miplayRxBufLen - r.buf.length) r.pending.length) with hn
      have hPos := List.length_pos_iff.mpr hPending
      have hSplit := frameScanner_sound.drain (r.buf ++ r.pending.take n) (r.pending.drop n)
      rw [List.append_assoc, List.take_append_drop] at hSplit
      -- the rest of the stream is shorter, and the drained buffer waits again
      obtain ⟨hState, hLost⟩ := ih (r.pending.drop n).length (by rw [List.length_drop]; omega)
        (k + 1)
        { buf := (frameScanner.drain (r.buf ++ r.pending.take n)).2
          pending := r.pending.drop n
          state := (frameScanner.drain (r.buf ++ r.pending.take n)).1.foldl dispatch r.state
          lost := r.lost }
        (frameScanner_sound.ref_drain (r.buf ++ r.pending.take n)) (length_drained_lt _) rfl
      refine ⟨?_, hLost⟩
      rw [hSplit, List.foldl_append]
      exact hState

/-! ## Streams of valid frames -/

/-- One whole frame: a plausible header and exactly its payload. -/
def IsFrame (f : Bytes) : Prop :=
  miplayFrameHdrLen ≤ f.length ∧ HeadPlausible f ∧ f.length = frameTotal f

theorem referenceFrames_cons {f : Bytes} (hf : IsFrame f) (s : Bytes) :
    referenceFrames (f ++ s) = f :: referenceFrames s := by
  obtain ⟨hLen, hHead, hTotal⟩ := hf
  have hSame : frameTotal (f ++ s) = f.length := by
    rw [hTotal, frameTotal, frameTotal, framePlen_append s hLen]
  have hLen' : (f ++ s).length = f.length + s.length := List.length_append
  rw [referenceFrames_take (by omega) ((headPlausible_append s hLen).mpr hHead) (by omega), hSame,
    List.take_left, List.drop_left]

theorem referenceFrames_flatten {fs : List Bytes} (hfs : ∀ f ∈ fs, IsFrame f) :
    referenceFrames fs.flatten = fs := by
  induction fs with
  | nil => exact referenceFrames_short (by decide)
  | cons f fs ih =>
    rw [List.flatten_cons, referenceFrames_cons (hfs f (List.mem_cons_self ..)),
      ih fun g hg => hfs g (List.mem_cons_of_mem _ hg)]

/-- **The receive loop dispatches the frames of the stream**, whatever the cuts:
those of the reference parser, none of the bytes lost to a full buffer; and a
concatenation of valid frames is dispatched frame by frame. -/
theorem receive_dispatches {σ : Type*} (dispatch : σ → Bytes → σ) (cuts : Nat → Nat)
    (state : σ) :
    (∀ stream : Bytes,
      (receive dispatch cuts state stream).state =
          (referenceFrames stream).foldl dispatch state ∧
        (receive dispatch cuts state stream).lost = []) ∧
    (∀ fs : List Bytes, (∀ f ∈ fs, IsFrame f) →
      (receive dispatch cuts state fs.flatten).state = fs.foldl dispatch state) := by
  have hAll : ∀ stream : Bytes,
      (receive dispatch cuts state stream).state =
          (referenceFrames stream).foldl dispatch state ∧
        (receive dispatch cuts state stream).lost = [] := fun stream =>
    receiveLoop_eq dispatch cuts 0 _ (referenceFrames_short (Nat.succ_pos 8))
      (Nat.succ_pos (miplayMaxFramePayload + 8))
  refine ⟨hAll, fun fs hfs => ?_⟩
  rw [(hAll fs.flatten).1, referenceFrames_flatten hfs]

/-- A SetVolume frame of volume `$$$$` and an empty heartbeat, one byte at a time. -/
theorem receive_dispatches_volume_heartbeat :
    (receive (fun fs f => fs ++ [f]) (fun _ => 0) []
        [[0x24, 0, 0x0C, 0, 1, 0, 0, 0, 4, 0x24, 0x24, 0x24, 0x24],
          [0x24, 0, 0x1A, 0, 2, 0, 0, 0, 0]].flatten).state =
      [[0x24, 0, 0x0C, 0, 1, 0, 0, 0, 4, 0x24, 0x24, 0x24, 0x24],
        [0x24, 0, 0x1A, 0, 2, 0, 0, 0, 0]] :=
  (receive_dispatches (fun fs f => fs ++ [f]) (fun _ => 0) []).2 _ (by
    intro f hf
    simp only [List.mem_cons, List.not_mem_nil, or_false] at hf
    rcases hf with rfl | rfl <;> exact ⟨by decide, by decide, by decide⟩)

end EspMiplay.Miplay
