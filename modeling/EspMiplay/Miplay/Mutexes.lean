import EspMiplay.Lib.Locks
import EspMiplay.Miplay.SessionTable

/-!
# The two mutexes

`s_session_mux` and `s_send_mux` are plain mutexes, and where both are held the
session mutex is the outer one.

- `Calls` has the mutex calls of each function of `miplay.c`, in the order of its
  source and with all of its early returns; `stepCalls` says which of them a step of the
  component makes.
- `lockDiscipline_iff`: in every reachable state, every task that is about to go on
  makes its calls in order and leaves behind what it should, except for a session
  that runs inline and comes to the end of its cleanup.
- There it waits for the mutex it holds (`inline_waits_for_itself`): the frame that
  started the session has kept `s_session_mux`, and
  `miplay_mark_media_session_closed` takes it again.
-/

namespace EspMiplay.Miplay

open Effect Transition

/-- The mutexes, in the order in which they are nested. -/
inductive Mux where
  /-- `s_session_mux` -/
  | session
  /-- `s_send_mux` -/
  | send
  deriving DecidableEq

def Mux.rank : Mux → Nat
  | session => 0
  | send => 1

theorem Mux.rank_injective : Function.Injective Mux.rank := by
  intro m m' h
  cases m <;> cases m' <;> first | rfl | cases h

instance : LinearOrder Mux := LinearOrder.lift' Mux.rank Mux.rank_injective

/-! ## The calls of each function

Nothing that is called here and left out takes either mutex; the application's
callbacks do not. -/

abbrev Calls := Locks.Code Mux

namespace Calls

open Locks.Code

/-- `current`: the session is of the current generation. -/
def miplayMarkMediaSessionClosed (current : Bool) : Calls :=
  if current then locked .session (locked .send skip) else skip

def miplaySessionAlloc : Calls := locked .session skip

def miplaySessionRelease : Calls := locked .session skip

/-! ### Sending -/

def miplaySendCmd : Calls := locked .send skip

def sendEncryptedCmd : Calls := locked .send skip

def sendEncryptedCmdAutoSeq : Calls := locked .send skip

def miplaySendMediaInfoQuery : Calls := locked .session (locked .send skip)

/-- Too long, no memory, or no room: three returns before anything is sent. -/
def sendPlainEnvelope : Calls := choices miplaySendCmd [skip, skip, skip]

/-- The mutex is given back where the envelope does not fit, and after sending. -/
def sendEncryptedEnvelope : Calls :=
  optional (steps [take .send, choice (give .send) (give .send)])

def miplayNotifyEmptyMediaInfoEx : Calls := optional sendEncryptedCmdAutoSeq

/-- Encrypted once there is a session key, else plain. -/
def replyEither : Calls := choice sendEncryptedCmd miplaySendCmd

/-- NOTIFY 5, 6 and 7. -/
def sendCapabilities : Calls := steps [miplaySendCmd, optional miplaySendCmd, miplaySendCmd]

/-! ### Control frames -/

/-- Each known command of the Alone namespace is answered. -/
def handleAlone : Calls := choices skip [sendEncryptedCmd, sendEncryptedCmd, sendEncryptedCmd]

def handleSafetyInfo : Calls := steps [sendPlainEnvelope, optional sendEncryptedEnvelope]

/-- Malformed, wrong, or accepted. -/
def handleSafetyAuthAck : Calls :=
  choices (steps [optional sendEncryptedEnvelope, optional miplayNotifyEmptyMediaInfoEx])
    [skip, skip, skip, skip]

/-- Nothing to open, or up to the start of the RTSP task. -/
def handleOpenDevice : Calls :=
  choices (steps [sendEncryptedCmd, optional miplayNotifyEmptyMediaInfoEx]) [skip, skip]

/-- No memory, no room, or an answer. -/
def handleGetDeviceInfo : Calls := choices replyEither [skip, skip]

def handleSetLocalDevInfo : Calls := steps [optional sendCapabilities, replyEither]

def handleSetVolume : Calls := steps [sendEncryptedCmd, sendEncryptedCmdAutoSeq]

/-- The switch; the commands that share their calls share a line. -/
def dispatchFrame : Calls :=
  choices skip
    [handleAlone,
      -- Notify, SafetyAuth, GetMediaInfoAck, and what is not handled
      skip,
      -- NativeVersion
      miplaySendCmd,
      -- SafetyAck
      sendCapabilities,
      handleOpenDevice,
      -- Heartbeat, GetMirrorMode
      replyEither,
      handleSafetyInfo,
      handleSafetyAuthAck,
      handleGetDeviceInfo,
      handleSetLocalDevInfo,
      -- GetVolume, GetState, SetPlaySource, Pause, Resume, SetPosition, SetMirrorKey,
      -- SetMediaInfo, SetMediaState
      sendEncryptedCmd,
      -- GetMediaInfo
      miplayNotifyEmptyMediaInfoEx,
      handleSetVolume]

/-- One round of the frame loop. Every `break` and `goto frame_done` of the switch
comes to the give at the end; the inline fallback returns from the middle of OPEN and
runs the session first. -/
def handleFrame (inline : Bool) : Calls :=
  if inline then steps [take .session, handleOpenDevice]
  else locked .session dispatchFrame

/-! ### The control task -/

/-- First critical section of `handle_client`. -/
def enterClient : Calls := locked .session skip

/-- No memory, or the second critical section. -/
def greetClient : Calls := choices (locked .session miplaySendCmd) [skip, skip]

/-- Behind an inline session. -/
def inlineReturn : Calls := give .session

def disconnectCleanup : Calls := locked .session (locked .send skip)

/-! ### Local controls -/

def miplaySendReceiverControl : Calls :=
  choices
    (steps
      [take .session,
        choice
          -- the second mutex cannot be had
          (give .session)
          (steps
            [take .send,
              choices
                -- sent
                (steps [give .send, give .session])
                [ -- no session to send to
                  steps [give .send, give .session],
                  -- not a known action
                  steps [give .send, give .session]]])])
    -- no mutexes, or the first one cannot be had
    [skip, skip]

/-! ### RTSP and media tasks -/

/-- Only the end of `rtsp_cleanup` takes a mutex. -/
def rtspRunStep (w : World) (r : RtspRun) : Calls :=
  if r.pc = .markClosed then miplayMarkMediaSessionClosed (w.rtsp.generation == r.arg.generation)
  else skip

/-- And of `m_cleanup`. -/
def mediaStep (w : World) (m : MediaRun) : Calls :=
  if m.pc = .markClosed then miplayMarkMediaSessionClosed (w.rtsp.generation == m.generation)
  else skip

end Calls

/-! ## What a task holds, and what it calls -/

def runsInline : Option CtlPc → Bool
  | some (.inline _) => true
  | _ => false

/-- The task of slot `i` is inside the inline fallback. -/
def isInline (w : World) (i : Slot) : Bool := runsInline (w.ctl i)

/-- The task that takes the step. -/
def Action.task : Action → Owner
  | .accept .. | .alloc | .reject | .spawn | .tcpRelease => .tcp
  | .enter i | .greet i _ _ | .recv i _ | .full i | .skip i | .frame i | .hangup i | .quit i
  | .cleanup i | .notify i | .release i | .inline i _ => .ctl i
  | .rtsp h _ => .rtsp h
  | .media h _ => .media h
  | .image h _ => .image h
  | .control .. | .query _ | .setVolume _ => .button

/-- The mutexes a task holds between two steps. -/
def holds (w : World) : Owner → List Mux
  | .ctl i => if w.sessionMux = some i then [.session] else []
  | _ => []

/-- The calls of the step from `w` to `w'`. -/
def stepCalls (w w' : World) : Action → Calls
  | .alloc => Calls.miplaySessionAlloc
  | .tcpRelease | .release _ => Calls.miplaySessionRelease
  | .enter _ => Calls.enterClient
  | .greet .. => Calls.greetClient
  | .frame i => Calls.handleFrame (isInline w' i)
  | .cleanup _ => Calls.disconnectCleanup
  | .inline i _ =>
    match w.ctl i with
    | some (.inline r) => if r.pc = .done then Calls.inlineReturn else Calls.rtspRunStep w r
    | _ => .skip
  | .rtsp h _ =>
    match w.rtspTasks h with
    | some r => Calls.rtspRunStep w r
    | none => .skip
  | .media h _ =>
    match w.mediaTasks h with
    | some m => Calls.mediaStep w m
    | none => .skip
  | .control .. => Calls.miplaySendReceiverControl
  | .query _ => Calls.miplaySendMediaInfoQuery
  | _ => .skip

/-- The same state with the mutex free: a step that is possible here is one its task
wants to take, even where it has to wait. -/
def World.unlocked (w : World) : World := { w with sessionMux := none }

/-- The lock discipline in a state. -/
structure LockDiscipline (env : Env) (w : World) : Prop where
  /-- no request for what is held already, nor for the outer mutex under the inner one -/
  ordered : ∀ a w', step env w.unlocked a = some w' → ∀ tr done,
    Locks.Exec (stepCalls w w' a) tr done → Locks.Ordered (holds w a.task) tr
  /-- what a step takes it gives back; nothing else changes hands -/
  returned : ∀ a w', step env w a = some w' →
    (∀ tr, Locks.Exec (stepCalls w w' a) tr true →
      Locks.heldAfter (holds w a.task) tr = holds w' a.task) ∧
    ∀ t, t ≠ a.task → holds w' t = holds w t
  /-- between two steps only a session that runs inline holds a mutex -/
  between : ∀ t, holds w t ≠ [] → ∃ i, t = .ctl i ∧ isInline w i

/-- A session that runs inline is about to mark its control session closed. -/
def WaitsForItself (w : World) : Prop :=
  ∃ i r, w.ctl i = some (.inline r) ∧ r.pc = .markClosed ∧
    r.arg.generation = w.rtsp.generation

/-! ## Who holds the session mutex -/

/-- `s_session_mux` is held between steps by the inline fallback, and by it alone. -/
def MuxHeld (w : World) : Prop := ∀ i, w.sessionMux = some i ↔ isInline w i

/-- What leaves the mutex and the control tasks alone. -/
structure SameHold (w w' : World) : Prop where
  mux : w'.sessionMux = w.sessionMux
  ctl : w'.ctl = w.ctl

instance : IsPreorder World SameHold where
  refl _ := ⟨rfl, rfl⟩
  trans _ _ _ h h' := ⟨h'.mux.trans h.mux, h'.ctl.trans h.ctl⟩

theorem SameHold.trans {w w' w'' : World} (h : SameHold w w') (h' : SameHold w' w'') :
    SameHold w w'' :=
  trans_of SameHold h h'

theorem sameHold_frame (env : Env) (who : Owner) (i : Slot) (sock : Int) :
    FrameRules env who i sock SameHold where
  toSendRules := .of_log (fun _ _ => ⟨rfl, rfl⟩) (fun _ _ _ => ⟨rfl, rfl⟩)
    (fun _ _ _ _ _ => ⟨rfl, rfl⟩) (fun _ => ⟨rfl, rfl⟩)
  media _ _ _ _ _ _ := ⟨rfl, rfl⟩
  callback _ _ _ := ⟨rfl, rfl⟩
  route _ := ⟨rfl, rfl⟩
  save _ := ⟨rfl, rfl⟩
  connected _ := ⟨rfl, rfl⟩
  told _ := ⟨rfl, rfl⟩

theorem startRtspSession_sameHold {env : Env} {i : Slot} {sock : Int} {host : Bytes} {port : Int}
    {has : Bool} {key : Block} {force : Bool} :
    Does SameHold (miplayStartRtspSession env i sock host port has key force) :=
  startRtspSession_does (fun _ _ => ⟨rfl, rfl⟩) (fun _ _ _ => ⟨rfl, rfl⟩) (fun _ => ⟨rfl, rfl⟩)
    (fun _ _ _ => ⟨rfl, rfl⟩) (fun _ _ => ⟨rfl, rfl⟩) host port has key force

theorem sameHold_command (env : Env) (i : Slot) (f : Frame) (h : Handler) :
    CommandRules env i f h SameHold where
  restart _ := tryRestartRtsp_does fun _ _ _ _ => startRtspSession_sameHold
  streamKey _ _ _ _ := ⟨rfl, rfl⟩
  authKey _ _ _ := ⟨rfl, rfl⟩
  opened _ _ := ⟨rfl, rfl⟩
  stream _ w host port :=
    openStream_does (sameHold_frame ..).toSwitchRules w.keys host port (fun _ => ⟨rfl, rfl⟩)
      startRtspSession_sameHold (fun _ _ => ⟨rfl, rfl⟩) w
  close _ _ := ⟨rfl, rfl⟩

theorem handleFrame_sameHold (env : Env) (i : Slot) (h : Handler) (frame : Bytes) :
    Does SameHold (handleFrame env i h frame) :=
  handleFrame_does (fun _ => ⟨rfl, rfl⟩)
    (unifiedDecrypt_does (fun _ _ => ⟨rfl, rfl⟩) (fun _ _ => ⟨rfl, rfl⟩)
      (fun _ _ _ _ _ => ⟨rfl, rfl⟩) _)
    (fun _ => sameHold_frame ..) fun _ _ => sameHold_command ..

theorem sameHold_activity (env : Env) (who : Owner) : TaskRules env who (fun _ _ => True) SameHold where
  tick _ _ := ⟨rfl, rfl⟩
  shared _ _ _ _ _ _ _ _ := ⟨rfl, rfl⟩
  stopped _ := ⟨rfl, rfl⟩
  opened _ _ _ := ⟨rfl, rfl⟩
  closed _ _ := ⟨rfl, rfl⟩
  used _ _ := ⟨rfl, rfl⟩
  imageTask _ _ _ := ⟨rfl, rfl⟩
  mediaTask _ _ _ := ⟨rfl, rfl⟩
  newTask _ := ⟨rfl, rfl⟩
  media _ _ := ⟨rfl, rfl⟩
  mediaCb _ _ := ⟨rfl, rfl⟩
  startCb _ _ := ⟨rfl, rfl⟩
  markClosed _ _ := markClosed_does _ (fun _ _ => ⟨rfl, rfl⟩) (fun _ => ⟨rfl, rfl⟩)

theorem greetSession_sameHold (env : Env) (i : Slot) (localIp : UInt32) (localPort : UInt16) :
    Does SameHold (greetSession env i localIp localPort) :=
  greetSession_does (fun _ _ => ⟨rfl, rfl⟩) (fun _ _ _ _ => ⟨rfl, rfl⟩)
    (fun sock => (sameHold_frame env (.ctl i) i sock).toSendRules) fun _ => ⟨rfl, rfl⟩

theorem tcpAlloc_sameHold (w : World) (sock : Int) (peerIp : UInt32) (peerPort : UInt16) :
    SameHold w (w.after (tcpAlloc sock peerIp peerPort)) := by
  obtain ⟨i, -, hAfter⟩ | ⟨-, hAfter⟩ := tcpAlloc_cases w sock peerIp peerPort
  all_goals rw [hAfter]; exact ⟨rfl, rfl⟩

/-- All that a step can do to the mutex and to the tasks that run a session inline. -/
inductive HoldStep (w : World) (a : Action) (w' : World) : Prop where
  | keep (hMux : w'.sessionMux = w.sessionMux) (hInline : isInline w' = isInline w)
  /-- a frame ends in the inline fallback -/
  | fallback {i : Slot} (hTask : a.task = .ctl i) (hFree : w.sessionMux = none)
      (hMux : w'.sessionMux = some i) (hInline : isInline w' = Function.update (isInline w) i true)
  /-- and the fallback ends -/
  | giveBack {i : Slot} (hTask : a.task = .ctl i) (hWas : isInline w i) (hMux : w'.sessionMux = none)
      (hInline : isInline w' = Function.update (isInline w) i false)

theorem isInline_update {w w' : World} {i : Slot} {pc : Option CtlPc}
    (hCtl : w'.ctl = Function.update w.ctl i pc) :
    isInline w' = Function.update (isInline w) i (runsInline pc) := by
  funext j
  by_cases hj : j = i
  · subst hj
    simp only [isInline, hCtl, Function.update_self]
  · simp only [isInline, hCtl, Function.update_of_ne hj]

theorem isInline_congr {w w' : World} (hCtl : w'.ctl = w.ctl) : isInline w' = isInline w := by
  funext j
  simp only [isInline, hCtl]

theorem SameHold.step {w w' : World} {a : Action} (h : SameHold w w') : HoldStep w a w' :=
  .keep h.mux (isInline_congr h.ctl)

/-- The task of slot `i` goes on, and runs a session inline after the step if it did
before. -/
theorem HoldStep.of_setCtl {w w₁ : World} {a : Action} {i : Slot} {pc : Option CtlPc}
    (hSame : SameHold w w₁) (hpc : runsInline pc = isInline w i) :
    HoldStep w a { w₁ with ctl := Function.update w₁.ctl i pc } := by
  refine .keep hSame.mux ?_
  rw [isInline_update rfl, isInline_congr hSame.ctl, hpc, Function.update_eq_self]

theorem isInline_of_ctl {w : World} {i : Slot} {pc : CtlPc} (hCtl : w.ctl i = some pc) :
    isInline w i = runsInline (some pc) := by
  rw [isInline, hCtl]

theorem serveFrame_hold {env : Env} {w : World} {i : Slot} {h : Handler} {fr : Bytes} {n : Nat}
    (hWas : isInline w i = false) (hFree : w.sessionMux = none) :
    HoldStep w (.frame i) (w.after (serveFrame env i h fr n)) := by
  have hSame := handleFrame_sameHold env i h fr w
  simp only [World.after, serveFrame, run_bind]
  split
  · exact .of_setCtl hSame hWas.symm
  · refine .fallback rfl hFree rfl ((isInline_update rfl).trans ?_)
    rw [← isInline_congr hSame.ctl]
    rfl

theorem greetClient_hold {env : Env} {w : World} {a : Action} {i : Slot} {localIp : UInt32}
    {localPort : UInt16} (hWas : isInline w i = false) :
    HoldStep w a (w.after (greetClient env i localIp localPort)) := by
  simp only [World.after, greetClient, run_bind, run_oracle, run_ite]
  split
  · exact .of_setCtl ⟨rfl, rfl⟩ hWas.symm
  · split
    · exact .of_setCtl ⟨rfl, rfl⟩ hWas.symm
    · have hGreet := greetSession_sameHold env i localIp localPort { w with tick := w.tick + 2 }
      exact .of_setCtl ⟨hGreet.mux, hGreet.ctl⟩ hWas.symm

/-- **The mutex inversion.** -/
theorem Step.hold {env : Env} {w w' : World} {a : Action} (h : TaskTable w)
    (hStep : Step env w a w') : HoldStep w a w' := by
  have hActivity := sameHold_activity env
  cases hStep with
  | accept hTcp hPos hFree => exact SameHold.step ⟨rfl, rfl⟩
  | alloc hTcp hMux => exact (tcpAlloc_sameHold w _ _ _).step
  | reject hTcp => exact SameHold.step ⟨rfl, rfl⟩
  | @spawn i hTcp =>
    obtain ⟨-, hAfter⟩ | ⟨-, hAfter⟩ := tcpSpawn_cases env w i
    · rw [hAfter]
      refine .keep rfl ((isInline_update rfl).trans ?_)
      rw [Function.update_eq_self_iff, isInline, (h.starting i (.inl hTcp)).2]
      rfl
    · rw [hAfter]
      exact SameHold.step ⟨rfl, rfl⟩
  | tcpRelease hTcp hMux =>
    have hStart := h.starting _ (.inr hTcp)
    simp only [World.after, run_bind, miplaySessionRelease_run hStart.1]
    exact SameHold.step ⟨rfl, rfl⟩
  | enter hCtl hMux => exact .of_setCtl ⟨rfl, rfl⟩ (isInline_of_ctl hCtl).symm
  | greet hCtl hMux => exact greetClient_hold (isInline_of_ctl hCtl)
  | recv hCtl hRun hMove hChunk hSpace => exact .of_setCtl ⟨rfl, rfl⟩ (isInline_of_ctl hCtl).symm
  | full hCtl hRun hMove hFull => exact .of_setCtl (refl_of SameHold w) (isInline_of_ctl hCtl).symm
  | skip hCtl hMove => exact .of_setCtl (refl_of SameHold w) (isInline_of_ctl hCtl).symm
  | frame hCtl hMove hMux => exact serveFrame_hold (isInline_of_ctl hCtl) hMux
  | hangup hCtl hRun hMove => exact .of_setCtl ⟨rfl, rfl⟩ (isInline_of_ctl hCtl).symm
  | quit hCtl hRun hMove => exact .of_setCtl (refl_of SameHold w) (isInline_of_ctl hCtl).symm
  | @cleanup i hCtl hMux =>
    obtain ⟨_, _, _, _, _, _, hRun⟩ := disconnectCleanup_run w i
    simp only [World.after, run_bind, hRun]
    exact .of_setCtl ⟨rfl, rfl⟩ (isInline_of_ctl hCtl).symm
  | notify hCtl => exact .of_setCtl ⟨rfl, rfl⟩ (isInline_of_ctl hCtl).symm
  | release hCtl hMux =>
    have hUse := h.serving _ (by rw [hCtl]; simp)
    simp only [World.after, run_bind, miplaySessionRelease_run hUse, run_setCtl]
    refine .keep rfl ((isInline_update rfl).trans ?_)
    rw [Function.update_eq_self_iff, isInline_of_ctl hCtl]
    rfl
  | @inlineDone i r o hCtl hPc =>
    have hLeft : (w.after do inlineReturn i; setCtl i (some .leaving)).ctl =
        Function.update w.ctl i (some .leaving) := rfl
    exact .giveBack rfl (isInline_of_ctl hCtl) rfl (isInline_update hLeft)
  | inline hCtl hPc hMark hFits =>
    exact .of_setCtl ((hActivity _).rtspRunStep _ hFits fun _ _ _ => trivial)
      (isInline_of_ctl hCtl).symm
  | rtspDone hTask hPc => exact SameHold.step ⟨rfl, rfl⟩
  | @rtsp t r o hTask hPc hMark hFits =>
    have hRun := (hActivity (.rtsp t)).rtspRunStep r hFits fun _ _ _ => trivial
    exact SameHold.step ⟨hRun.mux, hRun.ctl⟩
  | @media t m o hTask hMark =>
    have hRun := (hActivity (.media t)).mediaStep m o w
    exact SameHold.step ⟨hRun.mux, hRun.ctl⟩
  | @image t r o hTask =>
    have hRun := (hActivity (.image t)).imageStep r o w
    exact SameHold.step ⟨hRun.mux, hRun.ctl⟩
  | control hMux =>
    exact (sendReceiverControl_does (fun _ _ => ⟨rfl, rfl⟩)
      (fun _ _ => (sameHold_frame ..).toSwitchRules) _ _ w).step
  | query hMux =>
    exact (sendMediaInfoQuery_does (fun _ _ => ⟨rfl, rfl⟩)
      (fun _ _ => (sameHold_frame ..).toSwitchRules) _ w).step
  | setVolume => exact SameHold.step ⟨rfl, rfl⟩

/-- **Step lemma.** -/
theorem MuxHeld.step {env : Env} {w w' : World} {a : Action} (h : MuxHeld w) (hTasks : TaskTable w)
    (hStep : Step env w a w') : MuxHeld w' := by
  intro j
  cases hStep.hold hTasks with
  | keep hMux hInline => rw [hMux, hInline, h j]
  | @fallback i hTask hFree hMux hInline =>
    -- nobody held it, so nobody else runs inline
    have hNone : isInline w j = false := by
      simpa [hFree] using h j
    by_cases hj : j = i
    · simp [hMux, hInline, hj]
    · simp [hMux, hInline, hj, hNone, Ne.symm hj]
  | @giveBack i hTask hWas hMux hInline =>
    have hHolder := (h i).mpr hWas
    by_cases hj : j = i
    · simp [hMux, hInline, hj]
    · have hOther : isInline w j = false := by
        simpa [hHolder, Ne.symm hj] using h j
      simp [hMux, hInline, hj, hOther]

theorem MuxHeld.initial (volume : Nat) : MuxHeld (World.initial volume) := by
  intro i
  simp [World.initial, isInline, runsInline]

/-! ## Every step keeps the discipline -/

/-- What a task holds according to where it stands. -/
def standing (w : World) : Owner → List Mux
  | .ctl i => if isInline w i then [.session] else []
  | _ => []

theorem MuxHeld.holds_eq {w : World} (h : MuxHeld w) (t : Owner) : holds w t = standing w t := by
  cases t with
  | ctl i => simp only [holds, standing, h i]
  | _ => rfl

theorem standing_ctl {w : World} {i : Slot} {pc : Option CtlPc} (hCtl : w.ctl i = pc)
    (hpc : runsInline pc = false) : standing w (.ctl i) = [] := by
  simp [standing, isInline, hCtl, hpc]

/-- A control task that holds nothing, neither before its step nor after. -/
theorem check_free {w w' : World} {i : Slot} {pc pc' : Option CtlPc} {p : Calls}
    (hCheck : Locks.check p [] = some []) (hCtl : w.ctl i = pc) (hCtl' : w'.ctl i = pc')
    (hpc : runsInline pc = false) (hpc' : runsInline pc' = false) :
    Locks.check p (standing w (.ctl i)) = some (standing w' (.ctl i)) := by
  rw [standing_ctl hCtl hpc, standing_ctl hCtl' hpc', hCheck]

theorem check_greetClient {env : Env} {w : World} {i : Slot} {localIp : UInt32}
    {localPort : UInt16} (hCtl : w.ctl i = some .entered) :
    Locks.check Calls.greetClient (standing w (.ctl i)) =
      some (standing (w.after (greetClient env i localIp localPort)) (.ctl i)) := by
  simp only [World.after, greetClient, run_bind, run_oracle, run_ite]
  split
  · exact check_free (by decide) hCtl (Function.update_self ..) rfl rfl
  · split
    · exact check_free (by decide) hCtl (Function.update_self ..) rfl rfl
    · exact check_free (by decide) hCtl (Function.update_self ..) rfl rfl

/-- A frame keeps the mutex exactly where it leaves its task inline. -/
theorem check_handleFrame (w w' : World) {i : Slot} {h : Handler}
    (hCtl : w.ctl i = some (.serving h)) :
    Locks.check (Calls.handleFrame (isInline w' i)) (standing w (.ctl i)) =
      some (standing w' (.ctl i)) := by
  rw [standing_ctl hCtl rfl, standing]
  cases isInline w' i <;> decide

/-- The cleanup of a session, where the mutex it takes is not its own. -/
theorem check_markClosed (current : Bool) :
    Locks.check (Calls.miplayMarkMediaSessionClosed current) [] = some [] := by
  cases current <;> decide

theorem check_rtspRunStep (w : World) (r : RtspRun) :
    Locks.check (Calls.rtspRunStep w r) [] = some [] := by
  unfold Calls.rtspRunStep
  split
  · exact check_markClosed _
  · rfl

theorem check_mediaStep (w : World) (m : MediaRun) :
    Locks.check (Calls.mediaStep w m) [] = some [] := by
  unfold Calls.mediaStep
  split
  · exact check_markClosed _
  · rfl

/-- An inline session that does not come to the end of its cleanup makes no calls. -/
theorem rtspRunStep_inline {w : World} {i : Slot} {r : RtspRun} (hWait : ¬WaitsForItself w)
    (hCtl : w.ctl i = some (.inline r)) : Calls.rtspRunStep w r = .skip := by
  unfold Calls.rtspRunStep
  split
  · rename_i hPc
    have hOld : (w.rtsp.generation == r.arg.generation) = false := by
      rw [beq_eq_false_iff_ne]
      exact fun hGen => hWait ⟨i, r, hCtl, hPc, hGen.symm⟩
    rw [hOld]
    rfl
  · rfl

/-- From where a task stands, the calls of its step are in order and lead to where it
stands then. -/
theorem Step.calls {env : Env} {w w' : World} {a : Action} (hWait : ¬WaitsForItself w)
    (hStep : Step env w a w') :
    Locks.check (stepCalls w w' a) (standing w a.task) = some (standing w' a.task) := by
  cases hStep with
  | accept hTcp hPos hFree => rfl
  | alloc hTcp hMux => rfl
  | reject hTcp => rfl
  | spawn hTcp => rfl
  | tcpRelease hTcp hMux => rfl
  | enter hCtl hMux =>
    exact check_free (p := Calls.enterClient) (by decide) hCtl (Function.update_self ..) rfl rfl
  | greet hCtl hMux => exact check_greetClient hCtl
  | recv hCtl hRun hMove hChunk hSpace =>
    exact check_free (p := .skip) rfl hCtl (Function.update_self ..) rfl rfl
  | full hCtl hRun hMove hFull =>
    exact check_free (p := .skip) rfl hCtl (Function.update_self ..) rfl rfl
  | skip hCtl hMove => exact check_free (p := .skip) rfl hCtl (Function.update_self ..) rfl rfl
  | frame hCtl hMove hMux => exact check_handleFrame w _ hCtl
  | hangup hCtl hRun hMove =>
    exact check_free (p := .skip) rfl hCtl (Function.update_self ..) rfl rfl
  | quit hCtl hRun hMove =>
    exact check_free (p := .skip) rfl hCtl (Function.update_self ..) rfl rfl
  | cleanup hCtl hMux =>
    exact check_free (p := Calls.disconnectCleanup) (by decide) hCtl (Function.update_self ..)
      rfl rfl
  | notify hCtl => exact check_free (p := .skip) rfl hCtl (Function.update_self ..) rfl rfl
  | release hCtl hMux =>
    exact check_free (p := Calls.miplaySessionRelease) (by decide) hCtl (Function.update_self ..)
      rfl rfl
  | @inlineDone i r o hCtl hPc =>
    have hFrom : standing w (.ctl i) = [.session] := by
      simp [standing, isInline, runsInline, hCtl]
    have hTo : standing (w.after do inlineReturn i; setCtl i (some .leaving)) (.ctl i) = [] :=
      standing_ctl (Function.update_self ..) rfl
    simp only [stepCalls, Action.task, hCtl, if_pos hPc, hFrom, hTo]
    decide
  | @inline i r o hCtl hPc hMark hFits =>
    have hFrom : standing w (.ctl i) = [.session] := by
      simp [standing, isInline, runsInline, hCtl]
    have hTo : standing (w.after do
        let r' ← rtspRunStep env (.ctl i) r o
        setCtl i (some (.inline r'))) (.ctl i) = [.session] := by
      simp [standing, isInline, runsInline, World.after]
    simp only [stepCalls, Action.task, hCtl, if_neg hPc, rtspRunStep_inline hWait hCtl, hFrom, hTo]
    rfl
  | rtspDone hTask hPc =>
    simp only [stepCalls, hTask]
    exact check_rtspRunStep w _
  | rtsp hTask hPc hMark hFits =>
    simp only [stepCalls, hTask]
    exact check_rtspRunStep w _
  | media hTask hMark =>
    simp only [stepCalls, hTask]
    exact check_mediaStep w _
  | image hTask => rfl
  | control hMux => rfl
  | query hMux => rfl
  | setVolume => rfl

/-! ## The lock discipline -/

/-- Only the task that takes a step starts or ends an inline session. -/
theorem Step.standing_other {env : Env} {w w' : World} {a : Action} (hTasks : TaskTable w)
    (hStep : Step env w a w') {t : Owner} (ht : t ≠ a.task) : standing w' t = standing w t := by
  cases t with
  | ctl j =>
    have hInline : isInline w' j = isInline w j := by
      cases hStep.hold hTasks with
      | keep hMux hInline => rw [hInline]
      | @fallback i hTask hFree hMux hInline =>
        have hj : j ≠ i := fun h => ht (by rw [h, hTask])
        rw [hInline, Function.update_of_ne hj]
      | @giveBack i hTask hWas hMux hInline =>
        have hj : j ≠ i := fun h => ht (by rw [h, hTask])
        rw [hInline, Function.update_of_ne hj]
    simp only [standing, hInline]
  | _ => rfl

theorem stepCalls_unlocked (w w' : World) (a : Action) :
    stepCalls w.unlocked w' a = stepCalls w w' a := by
  cases a <;> rfl

theorem lockDiscipline_of {env : Env} {w : World} (hTasks : TaskTable w) (hHeld : MuxHeld w)
    (hWait : ¬WaitsForItself w) : LockDiscipline env w where
  ordered a w' hStep tr done hExec := by
    have hCalls := Step.calls (w := w.unlocked) hWait (step_cases hStep)
    rw [stepCalls_unlocked] at hCalls
    rw [hHeld.holds_eq]
    exact (Locks.check_sound hCalls hExec).1
  returned a w' hStep := by
    have hHeld' := hHeld.step hTasks (step_cases hStep)
    refine ⟨fun tr hExec => ?_, fun t ht => ?_⟩
    · rw [hHeld.holds_eq, hHeld'.holds_eq]
      exact (Locks.check_sound ((step_cases hStep).calls hWait) hExec).2 rfl
    · rw [hHeld.holds_eq, hHeld'.holds_eq]
      exact (step_cases hStep).standing_other hTasks ht
  between t ht := by
    rw [hHeld.holds_eq] at ht
    cases t with
    | ctl i => exact ⟨i, rfl, by simpa [standing] using ht⟩
    | _ => exact absurd rfl ht

/-- The request for the mutex that is already held. -/
theorem inline_waits_for_itself {env : Env} {w : World} (hHeld : MuxHeld w)
    (hWait : WaitsForItself w) : ¬LockDiscipline env w := by
  obtain ⟨i, r, hCtl, hPc, hGen⟩ := hWait
  intro h
  obtain ⟨w', hStep⟩ : ∃ w', step env w.unlocked (.inline i .go) = some w' := by
    simp [step, World.unlocked, hCtl, hPc, markBlocked, Outcome.fits]
  have hCalls : stepCalls w w' (.inline i .go) = Calls.miplayMarkMediaSessionClosed true := by
    simp [stepCalls, hCtl, hPc, Calls.rtspRunStep, hGen]
  have hFirst : Locks.Exec (Calls.miplayMarkMediaSessionClosed true) [.take .session] false :=
    .seq (.take _) (.start _)
  have hHolds : holds w (.ctl i) = [.session] := by
    simp [hHeld.holds_eq, standing, isInline, runsInline, hCtl]
  have hOrdered := h.ordered _ _ hStep _ _ (hCalls ▸ hFirst)
  rw [Action.task, hHolds] at hOrdered
  exact hOrdered.1.not_mem (List.mem_singleton_self _)

theorem muxHeld_of_run {env : Env} {volume : Nat} {as : List Action} {w : World}
    (hRun : run (step env) (World.initial volume) as = some w) : TaskTable w ∧ MuxHeld w :=
  invariant_of_run (I := fun w => TaskTable w ∧ MuxHeld w)
    (fun _ _ _ h hStep => ⟨h.1.step (step_cases hStep), h.2.step h.1 (step_cases hStep)⟩)
    ⟨.initial volume, .initial volume⟩ hRun

/-- **Lock discipline.** In every reachable state it holds if and only if no session
that runs inline is about to wait for the mutex its own frame has kept. -/
theorem lockDiscipline_iff (env : Env) (volume : Nat) (as : List Action) (w : World)
    (hRun : run (step env) (World.initial volume) as = some w) :
    LockDiscipline env w ↔ ¬WaitsForItself w := by
  obtain ⟨hTasks, hHeld⟩ := muxHeld_of_run hRun
  exact ⟨fun h hWait => inline_waits_for_itself hHeld hWait h, lockDiscipline_of hTasks hHeld⟩

/-- A phone is served while the application presses a button. -/
theorem lockDiscipline_iff_connected : ∃ w,
    run (step (Env.smooth plainCrypto)) (World.initial 50) (connectRun 54) = some w ∧
      (LockDiscipline (Env.smooth plainCrypto) w ↔ ¬WaitsForItself w) :=
  ⟨_, rfl, lockDiscipline_iff _ 50 (connectRun 54) _ rfl⟩

/-- The first allocations succeed, and no later one. -/
def Env.starved (first : Nat) : Env :=
  { Env.smooth plainCrypto with heap := fun n => n < first }

/-- A phone connects and opens a stream; there is no memory for the task of its
session, which runs inline, finds no memory for a socket and ends. -/
def inlineRun : List Action :=
  connectRun 54 ++ frameRun (frameOf 0 0 (containerOf (ascii "wfd://10.0.0.2:8554"))) ++
    [.inline 0 .go, .inline 0 (.fd (-1)), .inline 0 .go, .inline 0 .go, .inline 0 .go, .inline 0 .go]

/-- Whether the session of slot 0 is about to wait for itself. -/
def waitsInSlot0 (w : World) : Bool :=
  match w.ctl 0 with
  | some (.inline r) => r.pc = .markClosed ∧ r.arg.generation = w.rtsp.generation
  | _ => false

theorem waitsForItself_of_slot0 {w : World} (h : waitsInSlot0 w = true) : WaitsForItself w := by
  unfold waitsInSlot0 at h
  split at h
  · rename_i r hCtl
    exact ⟨0, r, hCtl, by simpa using h⟩
  · cases h

set_option maxRecDepth 1000 in
/-- The task waits for ever for the mutex it holds. -/
theorem inlineFallback_deadlocks :
    ¬∀ env volume as w, run (step env) (World.initial volume) as = some w →
      LockDiscipline env w := by
  intro hAll
  obtain ⟨w, hRun, hWaits⟩ := (Option.any_eq_true _ _).mp
    (show (run (step (Env.starved 15)) (World.initial 50) inlineRun).any waitsInSlot0 = true by
      decide +kernel)
  exact inline_waits_for_itself (muxHeld_of_run hRun).2 (waitsForItself_of_slot0 hWaits)
    (hAll _ _ _ w hRun)

end EspMiplay.Miplay
