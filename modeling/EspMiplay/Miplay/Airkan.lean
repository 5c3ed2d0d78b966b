import Mathlib.Data.List.GetD
import EspMiplay.Lib.Framing
import EspMiplay.Miplay.TextBounds
import EspMiplay.Miplay.TsMedia

/-!
# The airkan remote control

`airkan_rc_client_task` takes the messages of the phone's remote control off a buffer of 256
bytes: a type, the length of what follows in two bytes, and that. A key message has a header
of its own and sub-entries behind it, of five bytes or of nine.

A length that cannot be met empties the buffer, and so does a full buffer in front of the next
`recv`. The second never happens (`length_drained_lt`), the first not on a stream of messages
that fit.

## Results

* `rcScanner_reads` — the messages are taken off the buffer one by one.
* `airkanRcLoop_run` — where the loop stands after any passes.
* `rcWalk_latest`   — the sub-entries that count.
* `airkanRc_law`    — every message is handled once, and read inside its bytes.
-/

namespace EspMiplay.Miplay.Airkan

open Framing

/-- `AIRKAN_RC_BUF_SZ` -/
def airkanRcBufSz : Nat := 256

/-- `need`, by the length at the front of the buffer. -/
def rcNeed (rbuf : Bytes) : Nat := 3 + (getBe16 (rbuf.getD 1 0) (rbuf.getD 2 0)).toNat

-- ---------------------------------------------------------------------------
-- One message
-- ---------------------------------------------------------------------------

/-- The last values of the sub-entries 2 and 3. -/
structure RcKey where
  keyCode : Int := -1
  action : Int := -1
  deriving DecidableEq

/-- `if (sc == 2) action = v; if (sc == 3) key_code = v;` -/
def RcKey.hear (key : RcKey) (sc : UInt8) (v : Int) : RcKey where
  keyCode := if sc = 3 then v else key.keyCode
  action := if sc = 2 then v else key.action

def readBe32 (data : Bytes) (i : Nat) : Access UInt32 := do
  return getBe32 (← readByte data i) (← readByte data (i + 1)) (← readByte data (i + 2))
    (← readByte data (i + 3))

/-- `(sc == 7 || sc == 8) ? 9 : 5` -/
def subSize (sc : UInt8) : Nat := if sc = 7 ∨ sc = 8 then 9 else 5

theorem subSize_ge (sc : UInt8) : 5 ≤ subSize sc := by
  rw [subSize]
  split_ifs <;> omega

/-- `while (off + 5 <= need && off < 10 + (int)data_len)`. A read behind the message faults. -/
def rcWalk (msg : Bytes) (dataLen off : Nat) (key : RcKey) : Access RcKey :=
  if off + 5 ≤ rcNeed msg ∧ off < 10 + dataLen then do
    let sc ← readByte msg off
    let v ← readBe32 msg (off + 1)
    rcWalk msg dataLen (off + subSize sc) (key.hear sc v.toInt32.toInt)
  else .ok key
termination_by rcNeed msg - off
decreasing_by
  have hSize := subSize_ge sc
  omega

/-- The branches of the loop over the buffer. -/
inductive RcMessage where
  | version (phoneVer : UInt32)
  | heartbeat
  | key (code : UInt8) (seqId : UInt32) (dataLen : Nat) (entries : RcKey)
  | unknown
  deriving DecidableEq

def rcRead (versionDone : Bool) (msg : Bytes) : Access RcMessage := do
  let type ← readByte msg 0
  if type = 5 ∧ !versionDone then
    if 8 ≤ rcNeed msg then return .version (← readBe32 msg 4) else return .version 0
  else if type = 2 then return .heartbeat
  else if type = 4 ∧ 10 ≤ rcNeed msg then
    let code ← readByte msg 3
    let seqId ← readBe32 msg 4
    let dataLen := (getBe16 (← readByte msg 8) (← readByte msg 9)).toNat
    return .key code seqId dataLen (← rcWalk msg dataLen 10 {})
  else return .unknown

-- ---------------------------------------------------------------------------
-- What is done
-- ---------------------------------------------------------------------------

/-- What the device answers while a key is handled. -/
structure RcWorld where
  /-- `miplay_get_volume()` -/
  volume : UInt32
  /-- `miplay_get_position_ms()` -/
  position : UInt64
  /-- `lvgl_port_ui_is_standby()` -/
  standby : Bool
  /-- `esp_timer_get_time() / 1000` -/
  nowMs : Int

inductive RcEffect where
  | send (bytes : Bytes)
  /-- `miplay_set_volume` -/
  | setVolume (percent : UInt32)
  | volumePopup
  /-- `miplay_send_receiver_control` -/
  | control (action : Bytes) (value : Int)
  | resetIdle
  | enterStandby
  | exitStandby
  deriving DecidableEq

structure RcState where
  versionDone : Bool := false
  okIsPlaying : Bool := true
  okLastMs : Int := -1
  deriving DecidableEq

/-- `AIRKAN_REPORT_VERSION` -/
def airkanReportVersion : UInt32 := 0x01000008

def verResp : Bytes := [0x05, 0x00, 0x06, 0x02, 0x01] ++ putBe32 airkanReportVersion

/-- The OK key, with its debouncing. -/
def rcOk (w : RcWorld) (s : RcState) : List RcEffect × RcState :=
  if 0 ≤ s.okLastMs ∧ w.nowMs - s.okLastMs < 300 then ([], { s with okLastMs := w.nowMs })
  else
    ([.control (if s.okIsPlaying then ascii "pause" else ascii "play") 0],
      { s with okIsPlaying := !s.okIsPlaying, okLastMs := w.nowMs })

/-- `switch (key_code)`, and what follows it. -/
def rcPress (w : RcWorld) (s : RcState) (keyCode : Int) : List RcEffect × RcState :=
  if keyCode = 24 then ([.setVolume (w.volume + 5), .volumePopup, .resetIdle], s)
  else if keyCode = 25 then
    ([.setVolume (if 5 < w.volume then w.volume - 5 else 0), .volumePopup, .resetIdle], s)
  else if keyCode = 19 then ([.resetIdle, .control (ascii "next") 0], s)
  else if keyCode = 20 then ([.resetIdle, .control (ascii "prev") 0], s)
  else if keyCode = 21 then
    let target := if 15000 < w.position then (w.position - 15000).toInt64.toInt else 0
    ([.control (ascii "seek") target, .resetIdle], s)
  else if keyCode = 22 then
    ([.control (ascii "seek") (w.position + 15000).toInt64.toInt, .resetIdle], s)
  else if keyCode = 23 ∨ keyCode = 66 then
    let r := rcOk w s
    (.resetIdle :: r.1, r.2)
  else if keyCode = 26 then
    ([.resetIdle, if w.standby then .exitStandby else .enterStandby], s)
  else ([.resetIdle], s)

def rcAct (w : RcWorld) (s : RcState) : RcMessage → List RcEffect × RcState
  | .version _ => ([.send verResp], { s with versionDone := true })
  | .key code _ _ entries =>
    if code = 1 ∧ 0 ≤ entries.keyCode ∧ entries.action = 0 then rcPress w s entries.keyCode
    else ([], s)
  | .heartbeat | .unknown => ([], s)

/-- The messages so far, and what was done. -/
structure RcRun where
  state : RcState := {}
  messages : List RcMessage := []
  effects : List RcEffect := []
  deriving DecidableEq

/-- One message is handled; the device is asked anew for each. -/
def rcHandle (world : Nat → RcWorld) (run : Access RcRun) (msg : Bytes) : Access RcRun := do
  let run ← run
  let message ← rcRead run.state.versionDone msg
  let acted := rcAct (world run.messages.length) run.state message
  return {
    state := acted.2
    messages := run.messages ++ [message]
    effects := run.effects ++ acted.1 }

-- ---------------------------------------------------------------------------
-- The loop
-- ---------------------------------------------------------------------------

/-- `while (rlen >= 3)` -/
def rcMove (rbuf : Bytes) : Move Bytes :=
  if rbuf.length < 3 then .wait
  else if rcNeed rbuf > airkanRcBufSz then .skip rbuf.length
  else if rbuf.length < rcNeed rbuf then .wait
  else .take (rbuf.take (rcNeed rbuf)) (rcNeed rbuf)

def rcScanner : Scanner UInt8 Bytes where
  move := rcMove
  skip_pos := by
    intro xs n h
    rw [rcMove] at h
    split_ifs at h
    cases h
    omega
  take_pos := by
    intro xs b n h
    rw [rcMove] at h
    split_ifs at h
    cases h
    rw [rcNeed] at *
    omega

/-- What `select` and `recv` come back with. -/
inductive RcSelect where
  | failed
  | timeout
  /-- there is something: `recv` is given one byte more than this, or what there is -/
  | readable (cut : Nat)
  /-- `recv` fails -/
  | broken

structure RcPass where
  now : Int
  /-- the heartbeat, if it is due, can be sent -/
  beatSent : Bool
  select : RcSelect

structure RcTask (σ : Type*) where
  rbuf : Bytes
  /-- still to arrive -/
  pending : Bytes
  lastBeat : Int
  state : σ
  /-- heartbeats sent -/
  beats : Nat := 0
  /-- thrown away by a full buffer -/
  lost : Bytes := []

variable {σ : Type*}

/-- `recv` behind what is in the buffer, and the messages that are complete then; `none` when
the connection has ended. -/
def rcReceive (dispatch : σ → Bytes → σ) (cut : Nat) (t : RcTask σ) : Option (RcTask σ) :=
  let full : Bool := airkanRcBufSz ≤ t.rbuf.length
  let kept := if full then [] else t.rbuf
  let n := min (cut + 1) (min (airkanRcBufSz - kept.length) t.pending.length)
  if n = 0 then none
  else
    let d := rcScanner.drain (kept ++ t.pending.take n)
    some { t with
      rbuf := d.2
      pending := t.pending.drop n
      state := d.1.foldl dispatch t.state
      lost := if full then t.lost ++ t.rbuf else t.lost }

/-- The heartbeat is due every four seconds. -/
def rcBeat (now : Int) (t : RcTask σ) : RcTask σ :=
  if 4000 ≤ now - t.lastBeat then { t with lastBeat := now, beats := t.beats + 1 } else t

/-- One pass of the loop, and whether there is another. -/
def rcPass (dispatch : σ → Bytes → σ) (t : RcTask σ) (pass : RcPass) : RcTask σ × Bool :=
  if 4000 ≤ pass.now - t.lastBeat ∧ !pass.beatSent then (t, false)
  else
    let t := rcBeat pass.now t
    match pass.select with
    | .failed | .broken => (t, false)
    | .timeout => (t, true)
    | .readable cut =>
      match rcReceive dispatch cut t with
      | none => (t, false)
      | some t => (t, true)

/-- `while (s_running)` -/
def airkanRcLoop (dispatch : σ → Bytes → σ) : List RcPass → RcTask σ → RcTask σ
  | [], t => t
  | pass :: passes, t =>
    let r := rcPass dispatch t pass
    if r.2 then airkanRcLoop dispatch passes r.1 else r.1

-- ---------------------------------------------------------------------------
-- The messages of a stream
-- ---------------------------------------------------------------------------

/-- A whole message that fits. -/
def IsRcMessage (m : Bytes) : Prop := m.length = rcNeed m ∧ m.length ≤ airkanRcBufSz

instance (m : Bytes) : Decidable (IsRcMessage m) := inferInstanceAs (Decidable (_ ∧ _))

section Stream

variable {xs ys m : Bytes} {ms : List Bytes} {dispatch : σ → Bytes → σ} {t t' : RcTask σ}

theorem rcNeed_ge (rbuf : Bytes) : 3 ≤ rcNeed rbuf := Nat.le_add_right ..

theorem rcNeed_append (h : 3 ≤ xs.length) (ys : Bytes) : rcNeed (xs ++ ys) = rcNeed xs := by
  rw [rcNeed, rcNeed, List.getD_append _ _ _ _ (by omega), List.getD_append _ _ _ _ (by omega)]

theorem rcScanner_reads : rcScanner.Reads IsRcMessage where
  take := by
    rintro m ⟨hWhole, hFits⟩ ys
    have hHead := rcNeed_ge m
    have hNeed : rcNeed (m ++ ys) = m.length := by
      rw [rcNeed_append (by omega), hWhole]
    change rcMove (m ++ ys) = _
    rw [rcMove, List.length_append, hNeed, if_neg (by omega), if_neg (by omega),
      if_neg (by omega), List.take_left]
  wait := by
    rintro m xs ys ⟨hWhole, hFits⟩ rfl hMore
    have hPos := List.length_pos_iff.2 hMore
    have hLen : (xs ++ ys).length = xs.length + ys.length := List.length_append
    change rcMove xs = .wait
    rw [rcMove]
    by_cases hHead : xs.length < 3
    · rw [if_pos hHead]
    · have hNeed := rcNeed_append (Nat.le_of_not_lt hHead) ys
      rw [if_neg hHead, if_neg (by omega), if_pos (by omega)]

/-- The next `recv` has room. -/
theorem length_drained_lt (h : rcMove xs = .wait) : xs.length < airkanRcBufSz := by
  rw [rcMove] at h
  split_ifs at h with hHead hLong hShort
  · exact Nat.lt_trans hHead (by decide)
  · omega

/-- So many messages have been handled, and the bytes of the others are all there. -/
structure Standing (dispatch : σ → Bytes → σ) (state : σ) (ms : List Bytes) (t : RcTask σ) :
    Prop where
  split : ∃ done rest, ms = done ++ rest ∧ t.state = done.foldl dispatch state ∧
    t.rbuf ++ t.pending = rest.flatten
  waits : rcMove t.rbuf = .wait
  lost : t.lost = []

/-- What `recv` adds, when it has something to add. -/
theorem rcReceive_waiting (hWaits : rcMove t.rbuf = .wait) (cut : Nat) :
    rcReceive dispatch cut t =
      if t.pending = [] then none
      else
        let n := min (cut + 1) (min (airkanRcBufSz - t.rbuf.length) t.pending.length)
        let d := rcScanner.drain (t.rbuf ++ t.pending.take n)
        some { t with
          rbuf := d.2
          pending := t.pending.drop n
          state := d.1.foldl dispatch t.state } := by
  have hRoom := length_drained_lt hWaits
  have hFull : ¬airkanRcBufSz ≤ t.rbuf.length := by omega
  simp only [rcReceive, hFull, decide_false, Bool.false_eq_true, if_false]
  by_cases hNone : t.pending = []
  · rw [if_pos hNone, hNone, List.length_nil, if_pos (by omega)]
  · have hPos := List.length_pos_iff.2 hNone
    rw [if_neg hNone, if_neg (by omega)]

theorem Standing.received {state : σ} (hms : ∀ m ∈ ms, IsRcMessage m)
    (h : Standing dispatch state ms t) {cut : Nat} (hStep : rcReceive dispatch cut t = some t') :
    Standing dispatch state ms t' := by
  rw [rcReceive_waiting h.waits] at hStep
  split_ifs at hStep with hNone
  obtain rfl := Option.some.inj hStep
  obtain ⟨done, rest, rfl, hState, hBytes⟩ := h.split
  set n := min (cut + 1) (min (airkanRcBufSz - t.rbuf.length) t.pending.length)
  have hSplit : t.rbuf ++ t.pending.take n ++ t.pending.drop n = rest.flatten := by
    rw [List.append_assoc, List.take_append_drop, hBytes]
  obtain ⟨later, hRest, hLeft⟩ := rcScanner_reads.drain
    (fun m hMem => hms m (List.mem_append_right _ hMem)) hSplit
  refine ⟨⟨done ++ (rcScanner.drain (t.rbuf ++ t.pending.take n)).1, later, ?_, ?_, hLeft⟩,
    rcScanner.move_drain _, h.lost⟩
  · rw [List.append_assoc, ← hRest]
  · rw [List.foldl_append, ← hState]

/-- Nothing but `recv` moves the buffer. -/
theorem Standing.beaten {state : σ} (h : Standing dispatch state ms t) (now : Int) :
    Standing dispatch state ms (rcBeat now t) := by
  rw [rcBeat]
  split_ifs
  · exact ⟨h.split, h.waits, h.lost⟩
  · exact h

theorem Standing.passed {state : σ} (hms : ∀ m ∈ ms, IsRcMessage m)
    (h : Standing dispatch state ms t) (pass : RcPass) :
    Standing dispatch state ms (rcPass dispatch t pass).1 := by
  have hBeat := h.beaten pass.now
  rw [rcPass]
  split_ifs
  · exact h
  cases pass.select with
  | failed => exact hBeat
  | timeout => exact hBeat
  | broken => exact hBeat
  | readable cut =>
    simp only
    cases hStep : rcReceive dispatch cut (rcBeat pass.now t) with
    | none => exact hBeat
    | some t' => exact hBeat.received hms hStep

/-- **Any passes** leave it so. -/
theorem airkanRcLoop_run {state : σ} (hms : ∀ m ∈ ms, IsRcMessage m) (passes : List RcPass)
    (h : Standing dispatch state ms t) :
    Standing dispatch state ms (airkanRcLoop dispatch passes t) := by
  induction passes generalizing t with
  | nil => exact h
  | cons pass passes ih =>
    rw [airkanRcLoop]
    split_ifs
    · exact ih (h.passed hms pass)
    · exact h.passed hms pass

/-- When the last byte has come, the last message has been handled. -/
theorem Standing.all_handled {state : σ} (hms : ∀ m ∈ ms, IsRcMessage m)
    (h : Standing dispatch state ms t) (hEnd : t.pending = []) :
    t.state = ms.foldl dispatch state ∧ t.rbuf = [] := by
  obtain ⟨done, rest, rfl, hState, hBytes⟩ := h.split
  rw [hEnd, List.append_nil] at hBytes
  have hWaits := h.waits
  rw [hBytes] at hWaits
  obtain rfl := rcScanner_reads.drained
    (fun m hMem => hms m (List.mem_append_right _ hMem)) hWaits
  rw [List.append_nil]
  exact ⟨hState, hBytes⟩

/-- A pass that does not end the connection. -/
def RcPass.Keeps (pass : RcPass) : Prop :=
  pass.beatSent ∧ (pass.select = .timeout ∨ ∃ cut, pass.select = .readable cut)

def RcSelect.reads : RcSelect → Bool
  | .readable _ => true
  | _ => false

theorem rcBeat_rbuf (now : Int) (t : RcTask σ) : (rcBeat now t).rbuf = t.rbuf := by
  rw [rcBeat]
  split_ifs <;> rfl

theorem rcBeat_pending (now : Int) (t : RcTask σ) : (rcBeat now t).pending = t.pending := by
  rw [rcBeat]
  split_ifs <;> rfl

/-- A `recv` takes at least one byte. -/
theorem rcPass_keeps {pass : RcPass} (hKeeps : pass.Keeps) (hWaits : rcMove t.rbuf = .wait)
    (hMore : t.pending ≠ []) :
    (rcPass dispatch t pass).2 ∧ rcMove (rcPass dispatch t pass).1.rbuf = .wait ∧
      (rcPass dispatch t pass).1.pending.length + (if pass.select.reads then 1 else 0) ≤
        t.pending.length := by
  obtain ⟨hSent, hSelect⟩ := hKeeps
  have hStop : ¬(4000 ≤ pass.now - t.lastBeat ∧ !pass.beatSent) := by simp [hSent]
  rw [rcPass, if_neg hStop]
  rcases hSelect with hTimeout | ⟨cut, hReadable⟩
  · rw [hTimeout]
    refine ⟨rfl, ?_, ?_⟩
    · rw [rcBeat_rbuf]
      exact hWaits
    · rw [rcBeat_pending]
      exact Nat.le_refl _
  · have hBeatWaits : rcMove (rcBeat pass.now t).rbuf = .wait := by
      rw [rcBeat_rbuf]
      exact hWaits
    have hBeatMore : (rcBeat pass.now t).pending ≠ [] := by
      rw [rcBeat_pending]
      exact hMore
    have hRoom := length_drained_lt hBeatWaits
    have hPos := List.length_pos_iff.2 hBeatMore
    rw [hReadable]
    simp only [rcReceive_waiting hBeatWaits, if_neg hBeatMore]
    refine ⟨trivial, rcScanner.move_drain _, ?_⟩
    rw [List.length_drop, ← rcBeat_pending pass.now t, RcSelect.reads, if_pos rfl]
    omega

theorem rcPass_pending_nil (pass : RcPass) (hEnd : t.pending = []) :
    (rcPass dispatch t pass).1.pending = [] := by
  have hBeat : (rcBeat pass.now t).pending = [] := by rw [rcBeat_pending, hEnd]
  rw [rcPass]
  split_ifs
  · exact hEnd
  cases pass.select with
  | failed => exact hBeat
  | timeout => exact hBeat
  | broken => exact hBeat
  | readable cut =>
    simp only
    cases hStep : rcReceive dispatch cut (rcBeat pass.now t) with
    | none => exact hBeat
    | some t' =>
      rw [rcReceive, hBeat, List.length_nil, Nat.min_zero, Nat.min_zero] at hStep
      cases hStep

theorem airkanRcLoop_pending_nil (passes : List RcPass) (hEnd : t.pending = []) :
    (airkanRcLoop dispatch passes t).pending = [] := by
  induction passes generalizing t with
  | nil => exact hEnd
  | cons pass passes ih =>
    have hPass : (rcPass dispatch t pass).1.pending = [] :=
      rcPass_pending_nil pass hEnd
    rw [airkanRcLoop]
    split_ifs
    · exact ih hPass
    · exact hPass

/-- So the whole stream arrives in time. -/
theorem airkanRcLoop_arrives (passes : List RcPass) (hKeep : ∀ pass ∈ passes, pass.Keeps)
    (hWaits : rcMove t.rbuf = .wait)
    (hEnough : t.pending.length ≤ passes.countP (·.select.reads)) :
    (airkanRcLoop dispatch passes t).pending = [] := by
  induction passes generalizing t with
  | nil => exact List.length_eq_zero_iff.1 (Nat.le_zero.1 hEnough)
  | cons pass passes ih =>
    obtain ⟨hFirst, hLater⟩ := List.forall_mem_cons.1 hKeep
    by_cases hEnd : t.pending = []
    · exact airkanRcLoop_pending_nil _ hEnd
    · obtain ⟨hOn, hWaits', hLess⟩ := @rcPass_keeps _ dispatch _ _ hFirst hWaits hEnd
      rw [airkanRcLoop, if_pos hOn]
      refine ih hLater hWaits' ?_
      rw [List.countP_cons] at hEnough
      omega

end Stream

-- ---------------------------------------------------------------------------
-- Sub-entries
-- ---------------------------------------------------------------------------

/-- Where the sub-entries begin, one behind the other. -/
def subOffset (msg : Bytes) : Nat → Nat
  | 0 => 10
  | n + 1 => subOffset msg n + subSize (msg.getD (subOffset msg n) 0)

def subValue (msg : Bytes) (n : Nat) : Int :=
  (getBe32 (msg.getD (subOffset msg n + 1) 0) (msg.getD (subOffset msg n + 2) 0)
    (msg.getD (subOffset msg n + 3) 0) (msg.getD (subOffset msg n + 4) 0)).toInt32.toInt

/-- The sub-entry is one of the declared data, of this kind, and the message has all of it. -/
structure IsSub (msg : Bytes) (dataLen : Nat) (sc : UInt8) (n : Nat) : Prop where
  declared : subOffset msg n < 10 + dataLen
  fits : subOffset msg n + subSize sc ≤ msg.length
  kind : msg.getD (subOffset msg n) 0 = sc

/-- The value of the last such sub-entry from the `n`-th on, or else the value before. -/
def Latest (msg : Bytes) (dataLen : Nat) (sc : UInt8) (n : Nat) (before v : Int) : Prop :=
  (∃ m, n ≤ m ∧ IsSub msg dataLen sc m ∧ (∀ l, m < l → ¬IsSub msg dataLen sc l) ∧
    v = subValue msg m) ∨
  (∀ m, n ≤ m → ¬IsSub msg dataLen sc m) ∧ v = before

section Sub

variable {msg : Bytes} {dataLen n : Nat} {sc : UInt8} {before v : Int}

theorem readByte_eq {data : Bytes} {i : Nat} (h : i < data.length) :
    readByte data i = .ok (data.getD i 0) := by
  rw [readByte, List.getElem?_eq_getElem h, List.getD_eq_getElem _ _ h]

theorem readBe32_eq {data : Bytes} {i : Nat} (h : i + 4 ≤ data.length) :
    readBe32 data i = .ok (getBe32 (data.getD i 0) (data.getD (i + 1) 0) (data.getD (i + 2) 0)
      (data.getD (i + 3) 0)) := by
  rw [readBe32, readByte_eq (by omega), readByte_eq (by omega), readByte_eq (by omega),
    readByte_eq (by omega)]
  rfl

theorem subOffset_mono (msg : Bytes) : Monotone (subOffset msg) :=
  monotone_nat_of_le_succ fun _ => Nat.le_add_right ..

/-- The loop is still on when it comes to one of these. -/
theorem IsSub.walked (hSize : subSize sc = 5) {m : Nat} (hLe : n ≤ m)
    (h : IsSub msg dataLen sc m) :
    subOffset msg n + 5 ≤ msg.length ∧ subOffset msg n < 10 + dataLen := by
  have hMono := subOffset_mono msg hLe
  have hFits := h.fits
  have hDeclared := h.declared
  omega

/-- One more sub-entry in front. -/
theorem Latest.step (hSize : subSize sc = 5)
    (hWalked : subOffset msg n + 5 ≤ msg.length ∧ subOffset msg n < 10 + dataLen)
    (h : Latest msg dataLen sc (n + 1)
      (if msg.getD (subOffset msg n) 0 = sc then subValue msg n else before) v) :
    Latest msg dataLen sc n before v := by
  rcases h with ⟨m, hLe, hSub, hLast, rfl⟩ | ⟨hNone, rfl⟩
  · exact .inl ⟨m, Nat.le_of_succ_le hLe, hSub, hLast, rfl⟩
  · by_cases hKind : msg.getD (subOffset msg n) 0 = sc
    · rw [if_pos hKind]
      exact .inl ⟨n, Nat.le_refl n, ⟨hWalked.2, by rw [hSize]; exact hWalked.1, hKind⟩,
        hNone, rfl⟩
    · rw [if_neg hKind]
      refine .inr ⟨fun m hLe => ?_, rfl⟩
      rcases Nat.eq_or_lt_of_le hLe with rfl | hLt
      · exact fun hSub => hKind hSub.kind
      · exact hNone m hLt

/-- **The walk** ends inside the message, with the last values. -/
theorem rcWalk_latest (hWhole : msg.length = rcNeed msg) (dataLen n : Nat) (key : RcKey) :
    ∃ k, rcWalk msg dataLen (subOffset msg n) key = .ok k ∧
      Latest msg dataLen 2 n key.action k.action ∧
        Latest msg dataLen 3 n key.keyCode k.keyCode := by
  -- what is left of the message behind the sub-entry
  induction hLeft : msg.length - subOffset msg n using Nat.strongRecOn generalizing n key with
  | _ left ih =>
    rw [rcWalk, ← hWhole]
    by_cases hWalked : subOffset msg n + 5 ≤ msg.length ∧ subOffset msg n < 10 + dataLen
    · have hSize := subSize_ge (msg.getD (subOffset msg n) 0)
      have hNext : subOffset msg (n + 1) =
        subOffset msg n + subSize (msg.getD (subOffset msg n) 0) := rfl
      obtain ⟨k, hWalk, hAction, hKey⟩ := ih (msg.length - subOffset msg (n + 1)) (by omega) (n + 1)
        (key.hear (msg.getD (subOffset msg n) 0) (subValue msg n)) rfl
      rw [if_pos hWalked, readByte_eq (by omega), Access.ok_bind, readBe32_eq (by omega),
        Access.ok_bind]
      exact ⟨k, hWalk, hAction.step (by decide) hWalked, hKey.step (by decide) hWalked⟩
    · rw [if_neg hWalked]
      exact ⟨key, rfl, .inr ⟨fun m hLe hSub => hWalked (hSub.walked (by decide) hLe), rfl⟩,
        .inr ⟨fun m hLe hSub => hWalked (hSub.walked (by decide) hLe), rfl⟩⟩

/-- `data_len` -/
def rcDataLen (msg : Bytes) : Nat := (getBe16 (msg.getD 8 0) (msg.getD 9 0)).toNat

/-- A key message has its action and its key from the last sub-entries of theirs. -/
structure KeyRead (msg : Bytes) (message : RcMessage) (k : RcKey) : Prop where
  read : message = .key (msg.getD 3 0) (getBe32 (msg.getD 4 0) (msg.getD 5 0) (msg.getD 6 0)
    (msg.getD 7 0)) (rcDataLen msg) k
  action : Latest msg (rcDataLen msg) 2 0 (-1) k.action
  keyCode : Latest msg (rcDataLen msg) 3 0 (-1) k.keyCode

theorem rcRead_key (hWhole : msg.length = rcNeed msg) (versionDone : Bool)
    (hType : msg.getD 0 0 = 4) (hLong : 10 ≤ msg.length) :
    ∃ message k, rcRead versionDone msg = .ok message ∧ KeyRead msg message k := by
  obtain ⟨k, hWalk, hAction, hKey⟩ := rcWalk_latest hWhole (rcDataLen msg) 0 {}
  refine ⟨_, k, ?_, rfl, hAction, hKey⟩
  have hVersion : ¬((4 : UInt8) = 5 ∧ !versionDone) := fun h => absurd h.1 (by decide)
  have hBeat : ¬(4 : UInt8) = 2 := by decide
  rw [rcRead, readByte_eq (by omega), Access.ok_bind, hType, if_neg hVersion, if_neg hBeat,
    if_pos ⟨rfl, by rw [← hWhole]; exact hLong⟩, readByte_eq (by omega), Access.ok_bind,
    readBe32_eq (by omega), Access.ok_bind, readByte_eq (by omega), Access.ok_bind,
    readByte_eq (by omega), Access.ok_bind]
  change (rcWalk msg (rcDataLen msg) (subOffset msg 0) {} >>= _) = _
  rw [hWalk, Access.ok_bind]
  rfl

/-- A shorter one has no sub-entries. -/
theorem rcRead_short (hWhole : msg.length = rcNeed msg) (versionDone : Bool)
    (hType : msg.getD 0 0 = 4) (hShort : msg.length < 10) :
    rcRead versionDone msg = .ok .unknown := by
  have hHead := rcNeed_ge msg
  have hVersion : ¬((4 : UInt8) = 5 ∧ !versionDone) := fun h => absurd h.1 (by decide)
  have hBeat : ¬(4 : UInt8) = 2 := by decide
  have hKey : ¬((4 : UInt8) = 4 ∧ 10 ≤ rcNeed msg) := fun h => by omega
  rw [rcRead, readByte_eq (by omega), Access.ok_bind, hType, if_neg hVersion, if_neg hBeat,
    if_neg hKey]
  rfl

/-- Whatever the message is, it is read inside its bytes. -/
theorem rcRead_ok (hWhole : msg.length = rcNeed msg) (versionDone : Bool) :
    ∃ message, rcRead versionDone msg = .ok message := by
  have hHead := rcNeed_ge msg
  by_cases hKey : msg.getD 0 0 = 4 ∧ 10 ≤ rcNeed msg
  · obtain ⟨message, -, hRead, -⟩ := rcRead_key hWhole versionDone hKey.1 (by omega)
    exact ⟨message, hRead⟩
  rw [rcRead, readByte_eq (by omega), Access.ok_bind]
  split_ifs
  · rw [readBe32_eq (by omega), Access.ok_bind]
    exact ⟨_, rfl⟩
  all_goals exact ⟨_, rfl⟩

/-- So no message makes the task leave its buffer. -/
theorem rcHandle_ok {ms : List Bytes} (hms : ∀ m ∈ ms, m.length = rcNeed m)
    (world : Nat → RcWorld) (run : RcRun) :
    ∃ last, ms.foldl (rcHandle world) (.ok run) = .ok last ∧
      last.messages.length = run.messages.length + ms.length := by
  induction ms generalizing run with
  | nil => exact ⟨run, rfl, rfl⟩
  | cons m ms ih =>
    obtain ⟨hm, hRest⟩ := List.forall_mem_cons.1 hms
    obtain ⟨message, hRead⟩ := rcRead_ok hm run.state.versionDone
    rw [List.foldl_cons, rcHandle, Access.ok_bind, hRead, Access.ok_bind]
    obtain ⟨last, hLast, hCount⟩ := ih hRest _
    refine ⟨last, hLast, ?_⟩
    rw [hCount, List.length_append, List.length_singleton, List.length_cons]
    omega

end Sub

/-- **Every stream of messages that fit**, in any passes. -/
theorem airkanRc_law (world : Nat → RcWorld) (run : RcRun) (ms : List Bytes)
    (hms : ∀ m ∈ ms, IsRcMessage m) (lastBeat : Int) (passes : List RcPass) :
    let t := airkanRcLoop (rcHandle world) passes
      { rbuf := [], pending := ms.flatten, lastBeat := lastBeat, state := .ok run }
    Standing (rcHandle world) (.ok run) ms t ∧
      (t.pending = [] → t.state = ms.foldl (rcHandle world) (.ok run) ∧
        ∃ last, t.state = .ok last ∧
          last.messages.length = run.messages.length + ms.length) ∧
      ((∀ pass ∈ passes, pass.Keeps) →
        ms.flatten.length ≤ passes.countP (·.select.reads) → t.pending = []) ∧
      ∀ m ∈ ms, ∀ versionDone, (∃ message, rcRead versionDone m = .ok message) ∧
        (m.getD 0 0 = 4 → 10 ≤ m.length →
          ∃ message k, rcRead versionDone m = .ok message ∧ KeyRead m message k) ∧
        (m.getD 0 0 = 4 → m.length < 10 → rcRead versionDone m = .ok .unknown) := by
  intro t
  have hStart : Standing (rcHandle world) (.ok run) ms
      { rbuf := [], pending := ms.flatten, lastBeat := lastBeat, state := .ok run } :=
    ⟨⟨[], ms, rfl, rfl, rfl⟩, rcScanner.move_nil, rfl⟩
  have hRun : Standing (rcHandle world) (.ok run) ms t := airkanRcLoop_run hms passes hStart
  refine ⟨hRun, fun hEnd => ?_, fun hKeep hEnough =>
    airkanRcLoop_arrives passes hKeep hStart.waits hEnough, fun m hMem versionDone =>
    ⟨rcRead_ok (hms m hMem).1 versionDone, rcRead_key (hms m hMem).1 versionDone,
      rcRead_short (hms m hMem).1 versionDone⟩⟩
  obtain ⟨hState, -⟩ := hRun.all_handled hms hEnd
  rw [hState]
  exact ⟨rfl, rcHandle_ok (fun m hMem => (hms m hMem).1) world run⟩

/-- A heartbeat, and the key for more volume. -/
def volumeKey : List Bytes :=
  [[2, 0, 0], [4, 0, 17, 1, 0, 0, 0, 1, 0, 10, 2, 0, 0, 0, 0, 3, 0, 0, 0, 24]]

/-- Byte by byte. -/
theorem volumeKey_handled :
    (airkanRcLoop (rcHandle fun _ => ⟨50, 0, false, 0⟩) (List.replicate 23 ⟨0, true, .readable 0⟩)
      { rbuf := [], pending := volumeKey.flatten, lastBeat := 0, state := .ok {} }).state =
      volumeKey.foldl (rcHandle fun _ => ⟨50, 0, false, 0⟩) (.ok {}) := by
  obtain ⟨-, hAll, hEnd, -⟩ := airkanRc_law (fun _ => ⟨50, 0, false, 0⟩) {} volumeKey (by decide) 0
    (List.replicate 23 ⟨0, true, .readable 0⟩)
  refine (hAll (hEnd (fun pass hMem => ?_) (by decide))).1
  rw [List.eq_of_mem_replicate hMem]
  exact ⟨rfl, .inr ⟨0, rfl⟩⟩

end EspMiplay.Miplay.Airkan
