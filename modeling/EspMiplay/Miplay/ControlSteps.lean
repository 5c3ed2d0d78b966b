import EspMiplay.Miplay.SessionTable

/-!
# Control-side steps

Many properties are about the media side only: the playback state, the stream
and its tasks. A relation on worlds that looks at nothing else is
`ControlBlind`; it holds across every step of the control side but four: a
frame, `disconnect_cleanup`, a local control, and the steps of the listener.

## Results

* `ControlBlind.step`       — the other steps, all at once.
* `ControlBlind.listener`   — the listener, when `R` does not look at it either.
* `ControlBlind.cleanup`    — `disconnect_cleanup`, from its effect on the player.
* `ControlBlind.frameRules` — the frame rules, from the media effects.
* `ControlBlind.serveFrame` — a frame, from its rules.
-/

namespace EspMiplay.Miplay

open Effect

/-- `R` looks neither at sessions, registers, descriptors and control tasks, nor at
what is logged of them. -/
structure ControlBlind (R : World → World → Prop) : Prop where
  blind : ∀ (w : World) regs sess count active peer kernel ctl mux tick, R w
    { w with
      regs := regs, sess := sess, sessionCount := count, activeClientSock := active
      activePeerIp := peer, kernel := kernel, ctl := ctl, sessionMux := mux, tick := tick }
  log : ∀ w op, ¬op.Stream → R w { w with log := w.log ++ [op] }

/-- The steps of a control task outside frames and cleanup, and the query. -/
def Action.Control : Action → Prop
  | .enter _ | .greet .. | .recv .. | .full _ | .skip _ | .hangup _ | .quit _ | .notify _
  | .release _ | .query _ => True
  | _ => False

/-- The steps of `miplay_tcp_task`. -/
def Action.Listener : Action → Prop
  | .accept .. | .alloc | .reject | .spawn | .tcpRelease => True
  | _ => False

namespace ControlBlind

variable {R : World → World → Prop} {env : Env} {w w' : World} {a : Action}

/-! ## Primitive effects -/

theorem tick (hR : ControlBlind R) (w : World) (n : Nat) : R w { w with tick := n } :=
  hR.blind w w.regs w.sess w.sessionCount w.activeClientSock w.activePeerIp w.kernel w.ctl
    w.sessionMux n

theorem regs (hR : ControlBlind R) (w : World) (r : Regs) : R w { w with regs := r } :=
  hR.blind w r w.sess w.sessionCount w.activeClientSock w.activePeerIp w.kernel w.ctl w.sessionMux
    w.tick

theorem table (hR : ControlBlind R) (w : World) (sess : Slot → Session) (count : Nat) :
    R w { w with sess := sess, sessionCount := count } :=
  hR.blind w w.regs sess count w.activeClientSock w.activePeerIp w.kernel w.ctl w.sessionMux w.tick

theorem active (hR : ControlBlind R) (w : World) (sock : Int) (peer : UInt32) :
    R w { w with activeClientSock := sock, activePeerIp := peer } :=
  hR.blind w w.regs w.sess w.sessionCount sock peer w.kernel w.ctl w.sessionMux w.tick

theorem setCtl (hR : ControlBlind R) (i : Slot) (pc : Option CtlPc) : Does R (setCtl i pc) :=
  fun w => hR.blind w w.regs w.sess w.sessionCount w.activeClientSock w.activePeerIp w.kernel _
    w.sessionMux w.tick

theorem setMux (hR : ControlBlind R) (w : World) (mux : Option Slot) :
    R w { w with sessionMux := mux } :=
  hR.blind w w.regs w.sess w.sessionCount w.activeClientSock w.activePeerIp w.kernel w.ctl mux w.tick

theorem useFd (hR : ControlBlind R) (who : Owner) (fd : Int) : Does R (useFd who fd) :=
  fun w => hR.log w _ id

theorem save (hR : ControlBlind R) (i : Slot) : Does R (miplaySessionSave i) :=
  fun w => hR.table w _ w.sessionCount

theorem load (hR : ControlBlind R) (i : Slot) : Does R (miplaySessionLoad i) :=
  fun w => hR.regs w _

variable [IsPreorder World R]

/-- The log and the descriptor table, one after the other. -/
theorem kernel (hR : ControlBlind R) (w : World) (op : Op) (k : Kernel)
    (hOp : ¬op.Stream) : R w { w with log := w.log ++ [op], kernel := k } :=
  trans_of R (hR.log w op hOp) (hR.blind _ w.regs w.sess w.sessionCount w.activeClientSock
    w.activePeerIp k w.ctl w.sessionMux w.tick)

theorem closeFd (hR : ControlBlind R) (who : Owner) (fd : Int) : Does R (closeFd who fd) :=
  fun w => hR.kernel w _ _ id

theorem openFd (hR : ControlBlind R) (who : Owner) (fd : Int) : Does R (openFd who fd) :=
  fun w => hR.kernel w _ _ id

/-! ## Sending, and the rules of a frame -/

theorem sendRules (hR : ControlBlind R) (who : Owner) (i : Slot) (sock : Int) :
    SendRules env who i sock R :=
  .of_log (fun w _ => hR.tick w _)
    (fun w op hOp => hR.log w op (by cases op <;> first | exact id | exact hOp.elim))
    (fun w _ _ _ _ => hR.regs w _)
    fun w => hR.table w _ w.sessionCount

theorem frameRules (hR : ControlBlind R)
    (hMedia : ∀ (w : World) connected media paused volume hint last, R w
      { w with
        connected := connected, media := media, mediaPaused := paused, volumePercent := volume
        hint := hint, infoQueryLastUs := last })
    (who : Owner) (i : Slot) (sock : Int) : FrameRules env who i sock R where
  toSendRules := hR.sendRules who i sock
  media w media paused volume hint last := hMedia w w.connected media paused volume hint last
  callback w op hOp := hR.log w op fun hStream => by cases op <;> first | exact hOp | exact hStream
  route w := hR.active w sock (w.sess i).peerIp
  save := hR.save i
  connected w := hMedia w true w.media w.mediaPaused w.volumePercent w.hint w.infoQueryLastUs
  told w := hR.log w _ id

theorem startRtspSession (hR : ControlBlind R)
    (hRtsp : ∀ w rtsp paused, R w { w with rtsp := rtsp, mediaPaused := paused })
    (hTasks : ∀ w tasks n, R w { w with rtspTasks := tasks, nextTask := n }) {i : Slot}
    (hStarted : ∀ arg, Does R (emit (.rtspStarted i arg))) {sock : Int} {host : Bytes} {port : Int}
    {has : Bool} {key : Block} {force : Bool} :
    Does R (miplayStartRtspSession env i sock host port has key force) :=
  startRtspSession_does (fun w _ => hR.tick w _) hRtsp (fun w => hR.regs w _) hTasks hStarted host
    port has key force

/-- The commands with effects of their own, when a start of a session and a new
stream key have them. -/
theorem commandRules (hR : ControlBlind R) {i : Slot} {f : Frame} {h : Handler}
    (hFrame : SwitchRules env (.ctl i) i f.sock R)
    (hStart : ∀ host port has key force,
      Does R (miplayStartRtspSession env i f.sock host port has key force))
    (hKeys : ∀ w keys, R w { w with keys := keys })
    (hStream : ∀ w op, op.Stream → R w { w with log := w.log ++ [op] }) :
    CommandRules env i f h R where
  restart _ := tryRestartRtsp_does fun _ _ _ _ => hStart _ _ _ _ _
  streamKey _ _ _ := Does.bind (fun w => hKeys w _) fun _ w => hStream w _ trivial
  authKey _ _ w := hKeys w _
  opened _ w := hR.regs w _
  stream _ w host port := openStream_does hFrame w.keys host port (fun w => hStream w _ trivial)
    (hStart _ _ _ _ _) (fun _ w => hStream w _ trivial) w
  close _ := hR.closeFd _ _

/-- The whole critical section of a frame. -/
theorem serveFrame (hR : ControlBlind R) {i : Slot} {h : Handler} {frame : Bytes} {n : Nat}
    (hFrame : ∀ sock, FrameRules env (.ctl i) i sock R)
    (hCommand : ∀ f, f.cmd = frameCmd frame → CommandRules env i f h R) :
    Does R (serveFrame env i h frame n) := by
  have hDecrypt : Does R (unifiedDecrypt env i (framePayload frame)) :=
    unifiedDecrypt_does (fun w _ => hR.tick w _) (fun w _ => hR.regs w _)
      (fun w _ _ _ _ => hR.log w _ id) _
  refine (handleFrame_does (hR.load i) hDecrypt hFrame hCommand).bind fun r => ?_
  cases r with
  | next h' => exact hR.setCtl _ _
  | inline r => exact Does.bind (fun w => hR.setMux w _) fun _ => hR.setCtl _ _

theorem control (hR : ControlBlind R) (hFrame : ∀ i sock, SwitchRules env .button i sock R)
    (action : Bytes) (value : Int) : Does R (miplaySendReceiverControl env action value) :=
  sendReceiverControl_does hR.load hFrame action value

/-! ## Whole steps -/

theorem enterClient (hR : ControlBlind R) (i : Slot) : Does R (enterClient i) :=
  (hR.load i).bind fun _ => Does.bind (fun w => hR.regs w _) fun _ =>
    Does.bind (fun w => hR.active w _ _) fun _ => hR.save i

theorem greetSession (hR : ControlBlind R) (i : Slot) (localIp : UInt32) (localPort : UInt16) :
    Does R (greetSession env i localIp localPort) :=
  greetSession_does hR.regs (fun _ _ _ w => hR.log w _ id) (hR.sendRules (.ctl i) i) (hR.save i)

theorem greetClient (hR : ControlBlind R) (i : Slot) (localIp : UInt32) (localPort : UInt16) :
    Does R (greetClient env i localIp localPort) := by
  have hHeap : Does R (oracle env.heap) := fun w => hR.tick w _
  refine hHeap.bind fun _ => Does.ite (fun _ => hR.setCtl _ _) fun _ => hHeap.bind fun _ => ?_
  exact Does.ite (fun _ => hR.setCtl _ _) fun _ =>
    (hR.greetSession i localIp localPort).bind fun _ => hR.setCtl _ _

theorem release (hR : ControlBlind R) (i : Slot) : Does R (miplaySessionRelease i) :=
  Does.get.bind fun _ => Does.ite (fun _ => Does.bind (fun w => hR.table w _ w.sessionCount)
    fun _ w => hR.table w w.sess _) fun _ => Does.pure _

theorem inlineReturn (hR : ControlBlind R) (i : Slot) : Does R (inlineReturn i) :=
  Does.get.bind fun _ => (hR.closeFd _ _).bind fun _ => (hR.save i).bind fun _ w => hR.setMux w _

theorem query (hR : ControlBlind R) (sock : Int) : Does R (miplaySendMediaInfoQuery env sock) := by
  refine Does.get.bind fun w => ?_
  split
  · exact Does.pure _
  · rename_i i _
    refine (hR.load i).bind fun _ => Does.get.bind fun w => Does.ite (fun _ => ?_) fun _ => hR.save i
    exact ((hR.sendRules _ i _).auto _ _ (Nat.zero_le _)).bind fun _ => hR.save i

theorem step (hR : ControlBlind R) (hStep : Step env w a w') (hControl : a.Control) : R w w' := by
  cases hStep with
  | enter => exact (hR.enterClient _).bind (fun _ => hR.setCtl _ _) w
  | greet => exact hR.greetClient _ _ _ w
  | recv => exact Does.get_bind (fun w => ((hR.useFd _ _).bind fun _ => hR.setCtl _ _) w) w
  | full => exact hR.setCtl _ _ w
  | skip => exact hR.setCtl _ _ w
  | hangup => exact Does.get_bind (fun w => ((hR.useFd _ _).bind fun _ => hR.setCtl _ _) w) w
  | quit => exact hR.setCtl _ _ w
  | notify => exact Does.bind (fun w => hR.log w _ id) (fun _ => hR.setCtl _ _) w
  | release => exact (hR.release _).bind (fun _ => hR.setCtl _ _) w
  | query => exact hR.query _ w
  | _ => exact hControl.elim

/-- The listener changes its own program point besides. -/
theorem listener (hR : ControlBlind R) (hTcp : ∀ w tcp, R w { w with tcp := tcp })
    (hStep : Step env w a w') (hListener : a.Listener) : R w w' := by
  have hNext : Does R tcpNext := fun w => hTcp w _
  have hSet (t : TcpPc) : Does R (setTcp t) := fun w => hTcp w t
  cases hStep with
  | accept => exact (hR.openFd _ _).bind (fun _ => hSet _) w
  | @alloc sock peerIp peerPort =>
    obtain ⟨i, -, hAfter⟩ | ⟨-, hAfter⟩ := tcpAlloc_cases w sock peerIp peerPort
    · rw [hAfter]
      have hRow := hR.table w (Function.update w.sess i (newSession sock peerIp peerPort))
        (w.sessionCount + 1)
      exact trans_of R hRow (hTcp _ (.creating i))
    · rw [hAfter]
      exact hTcp w _
  | reject => exact (hR.closeFd _ _).bind (fun _ => hNext) w
  | spawn =>
    refine Does.bind (fun w => hR.tick w _) (fun _ => Does.ite (fun _ => ?_) fun _ => ?_) w
    · exact (hR.setCtl _ _).bind fun _ => hNext
    · exact Does.get.bind fun w => (hR.closeFd _ _).bind fun _ => hSet _
  | tcpRelease => exact (hR.release _).bind (fun _ => hNext) w
  | _ => exact hListener.elim

theorem closeSession (hR : ControlBlind R)
    (hLast : ∀ w, R w { w with connected := false, mediaPaused := true }) (i : Slot) (sock : Int) :
    Does R (do
      Miplay.closeFd (.ctl i) sock
      modifyRegs fun _ => { Regs.cleared with notifySeq := 8 }
      miplaySessionSave i
      match miplaySessionActive (← get) with
      | some j =>
        modify fun w =>
          { w with activeClientSock := (w.sess j).sock, activePeerIp := (w.sess j).peerIp }
        miplaySessionLoad j
        return false
      | none =>
        modify fun w => { w with connected := false, mediaPaused := true }
        return true) := by
  refine (hR.closeFd _ _).bind fun _ => Does.bind (fun w => hR.regs w _) fun _ =>
    (hR.save i).bind fun _ => Does.get.bind fun w => ?_
  split
  · exact Does.bind (fun w => hR.active w _ _) fun _ => (hR.load _).bind fun _ => Does.pure _
  · exact Does.bind hLast fun _ => Does.pure _

/-- When the last usable session has left, the player is paused. -/
theorem cleanup (hR : ControlBlind R)
    (hLast : ∀ w, R w { w with connected := false, mediaPaused := true }) (i : Slot) :
    Does R (disconnectCleanup i) := by
  have hTail := hR.closeSession hLast i
  refine Does.get.bind fun w => (hR.load i).bind fun _ => Does.get.bind fun w' => ?_
  exact Does.ite (fun _ => Does.bind (fun w => hR.active w _ _) fun _ => hTail _) fun _ => hTail _

end ControlBlind

end EspMiplay.Miplay
