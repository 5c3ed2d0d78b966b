import EspMiplay.Lib.Transition
import EspMiplay.Miplay.Effects

/-!
# The session table

When is `s_sessions` a table, in the sense that a socket number leads to the one
session it belongs to?

- `sessionTable_along`: along every run, the table is in order after every step
  exactly when no connection is entered into it under a number that another
  slot in use still carries.
- The number can be there: `disconnect_cleanup` closes the descriptor, but the
  slot stays in use until `miplay_session_release`, and `accept` may return the
  number in between (`sessionTable_disordered`).
-/

namespace EspMiplay.Miplay

open Effect Transition

/-- The table is in order: sockets tell the slots in use apart, the counter is
right, and a lookup finds the slot whose task serves the socket. -/
structure TableInOrder (w : World) : Prop where
  distinct : ∀ i j, (w.sess i).inUse → (w.sess j).inUse → (w.sess i).sock = (w.sess j).sock → i = j
  count : w.sessionCount = slots.countP fun i => (w.sess i).inUse
  count_le : w.sessionCount ≤ 3
  found : ∀ i, w.ctl i ≠ none → miplaySessionFind w (w.sess i).sock = some i

/-- The step does not enter a number that a slot in use carries. -/
def EntersFreshSocket (w : World) (a : Action) : Prop :=
  a = .alloc → ∀ sock peerIp peerPort, w.tcp = .accepted sock peerIp peerPort →
    (∃ i, (w.sess i).inUse = false) → ∀ j, (w.sess j).inUse → (w.sess j).sock ≠ sock

/-! ## What leaves the table alone -/

structure SameTable (w w' : World) : Prop where
  inUse : ∀ i, (w'.sess i).inUse = (w.sess i).inUse
  sock : ∀ i, (w'.sess i).sock = (w.sess i).sock
  count : w'.sessionCount = w.sessionCount
  ctl : w'.ctl = w.ctl
  tcp : w'.tcp = w.tcp

instance : IsPreorder World SameTable where
  refl _ := ⟨fun _ => rfl, fun _ => rfl, rfl, rfl, rfl⟩
  trans _ _ _ h h' :=
    ⟨fun i => (h'.inUse i).trans (h.inUse i), fun i => (h'.sock i).trans (h.sock i),
      h'.count.trans h.count, h'.ctl.trans h.ctl, h'.tcp.trans h.tcp⟩

theorem SameTable.trans {w w' w'' : World} (h : SameTable w w') (h' : SameTable w' w'') :
    SameTable w w'' :=
  trans_of SameTable h h'

theorem SameTable.of_sess {w w' : World} (hSess : w'.sess = w.sess)
    (hCount : w'.sessionCount = w.sessionCount) (hCtl : w'.ctl = w.ctl) (hTcp : w'.tcp = w.tcp) :
    SameTable w w' :=
  ⟨fun i => by rw [hSess], fun i => by rw [hSess], hCount, hCtl, hTcp⟩

/-- A slot may change, but neither its socket nor whether it is in use. -/
theorem sameTable_update {w : World} {i : Slot} {s : Session} (hUse : s.inUse = (w.sess i).inUse)
    (hSock : s.sock = (w.sess i).sock) :
    SameTable w { w with sess := Function.update w.sess i s } := by
  refine ⟨fun j => ?_, fun j => ?_, rfl, rfl, rfl⟩
  all_goals by_cases hj : j = i
  · subst hj
    simpa using hUse
  · simp [hj]
  · subst hj
    simpa using hSock
  · simp [hj]

theorem miplaySessionSave_sameTable (i : Slot) : Does SameTable (miplaySessionSave i) :=
  fun _ => sameTable_update rfl rfl

theorem sameTable_frame (env : Env) (who : Owner) (i : Slot) (sock : Int) :
    FrameRules env who i sock SameTable where
  toSendRules := .of_log (fun _ _ => .of_sess rfl rfl rfl rfl) (fun _ _ _ => .of_sess rfl rfl rfl rfl)
    (fun _ _ _ _ _ => .of_sess rfl rfl rfl rfl) (fun _ => sameTable_update rfl rfl)
  media _ _ _ _ _ _ := .of_sess rfl rfl rfl rfl
  callback _ _ _ := .of_sess rfl rfl rfl rfl
  route _ := .of_sess rfl rfl rfl rfl
  save := miplaySessionSave_sameTable i
  connected _ := .of_sess rfl rfl rfl rfl
  told _ := .of_sess rfl rfl rfl rfl

theorem startRtspSession_sameTable {env : Env} {i : Slot} {sock : Int} {host : Bytes}
    {port : Int} {has : Bool} {key : Block} {force : Bool} :
    Does SameTable (miplayStartRtspSession env i sock host port has key force) :=
  startRtspSession_does (fun _ _ => .of_sess rfl rfl rfl rfl) (fun _ _ _ => .of_sess rfl rfl rfl rfl)
    (fun _ => .of_sess rfl rfl rfl rfl) (fun _ _ _ => .of_sess rfl rfl rfl rfl)
    (fun _ _ => .of_sess rfl rfl rfl rfl) host port has key force

theorem sameTable_command (env : Env) (i : Slot) (f : Frame) (h : Handler) :
    CommandRules env i f h SameTable where
  restart _ := tryRestartRtsp_does fun _ _ _ _ => startRtspSession_sameTable
  streamKey _ _ _ _ := .of_sess rfl rfl rfl rfl
  authKey _ _ _ := .of_sess rfl rfl rfl rfl
  opened _ _ := .of_sess rfl rfl rfl rfl
  stream _ w host port :=
    openStream_does (sameTable_frame ..).toSwitchRules w.keys host port (fun _ => .of_sess rfl rfl rfl rfl)
      startRtspSession_sameTable (fun _ _ => .of_sess rfl rfl rfl rfl) w
  close _ _ := .of_sess rfl rfl rfl rfl

theorem sameTable_task (env : Env) (who : Owner) : TaskRules env who (fun _ _ => True) SameTable where
  tick _ _ := .of_sess rfl rfl rfl rfl
  shared _ _ _ _ _ _ _ _ := .of_sess rfl rfl rfl rfl
  stopped _ := .of_sess rfl rfl rfl rfl
  opened _ _ _ := .of_sess rfl rfl rfl rfl
  closed _ _ := .of_sess rfl rfl rfl rfl
  used _ _ := .of_sess rfl rfl rfl rfl
  imageTask _ _ _ := .of_sess rfl rfl rfl rfl
  mediaTask _ _ _ := .of_sess rfl rfl rfl rfl
  newTask _ := .of_sess rfl rfl rfl rfl
  media _ _ := .of_sess rfl rfl rfl rfl
  mediaCb _ _ := .of_sess rfl rfl rfl rfl
  startCb _ _ := .of_sess rfl rfl rfl rfl
  markClosed _ _ := markClosed_does _ (fun _ _ => sameTable_update rfl rfl)
    (fun _ => .of_sess rfl rfl rfl rfl)

theorem frameBody_sameTable (env : Env) (i : Slot) (sock : Int) (h : Handler) (frame : Bytes) :
    Does SameTable (frameBody env i sock h frame) :=
  frameBody_does
    (unifiedDecrypt_does (fun _ _ => .of_sess rfl rfl rfl rfl) (fun _ _ => .of_sess rfl rfl rfl rfl)
      (fun _ _ _ _ _ => .of_sess rfl rfl rfl rfl) _)
    (sameTable_frame ..) fun _ _ _ => sameTable_command ..

theorem handleFrame_sameTable (env : Env) (i : Slot) (h : Handler) (frame : Bytes) :
    Does SameTable (handleFrame env i h frame) := by
  refine Does.get.bind fun w => Does.bind (fun _ => .of_sess rfl rfl rfl rfl) fun _ =>
    (frameBody_sameTable env i _ h frame).bind fun r => ?_
  cases r with
  | next h' => exact (miplaySessionSave_sameTable i).bind fun _ => Does.pure _
  | inline r => exact (Does.pure _).bind fun _ => Does.pure _

theorem enterClient_sameTable (i : Slot) : Does SameTable (enterClient i) := by
  refine Does.bind (fun _ => .of_sess rfl rfl rfl rfl) fun _ =>
    Does.bind (fun _ => .of_sess rfl rfl rfl rfl) fun _ =>
      Does.bind (fun _ => .of_sess rfl rfl rfl rfl) fun _ => ?_
  exact miplaySessionSave_sameTable i

/-- What `disconnect_cleanup` leaves: the socket is closed and the slot's registers
are cleared; besides, it finds another session for the buttons or notes the
disconnect. -/
theorem disconnectCleanup_run (w : World) (i : Slot) :
    ∃ notify regs active peer connected paused, (disconnectCleanup i).run w =
      (notify,
        { w with
          regs := regs
          activeClientSock := active
          activePeerIp := peer
          connected := connected
          mediaPaused := paused
          log := w.log ++ [.closed (.ctl i) (w.sess i).sock (w.kernel.fds (w.sess i).sock)]
          kernel := { w.kernel with fds := Function.update w.kernel.fds (w.sess i).sock none }
          sess := Function.update w.sess i
            { w.sess i with regs := { Regs.cleared with notifySeq := 8 } } }) := by
  have hSaved : ({ Regs.cleared with notifySeq := 8 } : Regs).saved =
      { Regs.cleared with notifySeq := 8 } := rfl
  simp only [disconnectCleanup, run_bind, run_get, run_miplaySessionLoad, run_ite, run_modify,
    run_closeFd, run_modifyRegs, run_miplaySessionSave, hSaved]
  split
  all_goals
    split
    · exact ⟨_, _, _, _, _, _, rfl⟩
    · exact ⟨_, _, _, _, _, _, rfl⟩

theorem disconnectCleanup_sameTable (i : Slot) : Does SameTable (disconnectCleanup i) := by
  intro w
  obtain ⟨_, _, _, _, _, _, hRun⟩ := disconnectCleanup_run w i
  have hRow : SameTable w
      { w with
        sess := Function.update w.sess i
          { w.sess i with regs := { Regs.cleared with notifySeq := 8 } } } :=
    sameTable_update rfl rfl
  rw [hRun]
  exact ⟨hRow.inUse, hRow.sock, rfl, rfl, rfl⟩

theorem inlineReturn_sameTable (i : Slot) : Does SameTable (inlineReturn i) := by
  refine Does.get.bind fun w => Does.bind (fun _ => .of_sess rfl rfl rfl rfl) fun _ => ?_
  exact (miplaySessionSave_sameTable i).bind fun _ _ => .of_sess rfl rfl rfl rfl

theorem greetSession_sameTable (env : Env) (i : Slot) (localIp : UInt32) (localPort : UInt16) :
    Does SameTable (greetSession env i localIp localPort) :=
  greetSession_does (fun _ _ => .of_sess rfl rfl rfl rfl) (fun _ _ _ _ => .of_sess rfl rfl rfl rfl)
    (fun sock => (sameTable_frame env (.ctl i) i sock).toSendRules) (miplaySessionSave_sameTable i)

theorem sendReceiverControl_sameTable (env : Env) (action : Bytes) (value : Int) :
    Does SameTable (miplaySendReceiverControl env action value) :=
  sendReceiverControl_does (fun _ _ => .of_sess rfl rfl rfl rfl)
    (fun _ _ => (sameTable_frame ..).toSwitchRules) _ _

theorem sendMediaInfoQuery_sameTable (env : Env) (sock : Int) :
    Does SameTable (miplaySendMediaInfoQuery env sock) :=
  sendMediaInfoQuery_does (fun _ _ => .of_sess rfl rfl rfl rfl)
    (fun _ _ => (sameTable_frame ..).toSwitchRules) _

/-! ## Rows and tasks -/

/-- A slot with a control task is in use, and so is the one the listener works on. -/
structure TaskTable (w : World) : Prop where
  serving : ∀ i, w.ctl i ≠ none → (w.sess i).inUse
  starting : ∀ i, w.tcp = .creating i ∨ w.tcp = .releasing i → (w.sess i).inUse ∧ w.ctl i = none

/-- The same sockets in use. -/
structure SameRows (w w' : World) : Prop where
  inUse : ∀ i, (w'.sess i).inUse = (w.sess i).inUse
  sock : ∀ i, (w'.sess i).sock = (w.sess i).sock
  count : w'.sessionCount = w.sessionCount

theorem SameTable.rows {w w' : World} (h : SameTable w w') : SameRows w w' :=
  ⟨h.inUse, h.sock, h.count⟩

theorem SameRows.of_sess {w w' : World} (hSess : w'.sess = w.sess)
    (hCount : w'.sessionCount = w.sessionCount) : SameRows w w' :=
  ⟨fun i => by rw [hSess], fun i => by rw [hSess], hCount⟩

/-- The row of a new connection. -/
def newSession (sock : Int) (peerIp : UInt32) (peerPort : UInt16) : Session :=
  { Session.zero with
    inUse := true
    sock := sock
    peerIp := peerIp
    peerPort := peerPort
    regs := { Regs.cleared with notifySeq := 8 } }

/-! ## Taking a slot and giving it back -/

/-- The listener finds a free slot, or rejects the connection. -/
theorem tcpAlloc_cases (w : World) (sock : Int) (peerIp : UInt32) (peerPort : UInt16) :
    (∃ i, (w.sess i).inUse = false ∧ w.after (tcpAlloc sock peerIp peerPort) =
      { w with
        sess := Function.update w.sess i (newSession sock peerIp peerPort)
        sessionCount := w.sessionCount + 1
        tcp := .creating i }) ∨
    ((∀ i, (w.sess i).inUse) ∧
      w.after (tcpAlloc sock peerIp peerPort) = { w with tcp := .rejecting sock }) := by
  cases hFind : slots.find? fun i => !(w.sess i).inUse with
  | none =>
    refine .inr ⟨fun i => ?_, ?_⟩
    · simpa using List.find?_eq_none.mp hFind i (mem_slots i)
    · simp only [World.after, tcpAlloc, miplaySessionAlloc, setTcp, run_bind, run_get, hFind, run_pure,
        run_modify]
  | some i =>
    refine .inl ⟨i, by simpa using List.find?_some hFind, ?_⟩
    simp only [World.after, tcpAlloc, miplaySessionAlloc, setTcp, run_bind, run_get, hFind, run_pure,
      run_modify, run_modifySession]
    rfl

theorem tcpAlloc_ctl (w : World) (sock : Int) (peerIp : UInt32) (peerPort : UInt16) :
    (w.after (tcpAlloc sock peerIp peerPort)).ctl = w.ctl := by
  obtain ⟨i, -, hAfter⟩ | ⟨-, hAfter⟩ := tcpAlloc_cases w sock peerIp peerPort
  all_goals rw [hAfter]

/-- The task of an entered connection starts, or its socket is closed. -/
theorem tcpSpawn_cases (env : Env) (w : World) (i : Slot) :
    (env.heap w.tick ∧ w.after (tcpSpawn env i) =
      { w with
        tick := w.tick + 1
        ctl := Function.update w.ctl i (some .created)
        tcp := if w.running then .accepting else .stopped }) ∨
    (env.heap w.tick = false ∧ w.after (tcpSpawn env i) =
      { w with
        tick := w.tick + 1
        log := w.log ++ [.closed .tcp (w.sess i).sock (w.kernel.fds (w.sess i).sock)]
        kernel := { w.kernel with fds := Function.update w.kernel.fds (w.sess i).sock none }
        tcp := .releasing i }) := by
  cases hHeap : env.heap w.tick with
  | true => exact .inl ⟨rfl, by simp [World.after, tcpSpawn, tcpNext, hHeap]⟩
  | false => exact .inr ⟨rfl, by simp [World.after, tcpSpawn, setTcp, hHeap]⟩

theorem miplaySessionRelease_run {w : World} {i : Slot} (hUse : (w.sess i).inUse) :
    (miplaySessionRelease i).run w = ((),
      { w with
        sess := Function.update w.sess i { w.sess i with inUse := false }
        sessionCount := w.sessionCount - 1 }) := by
  simp [miplaySessionRelease, hUse]

theorem tcpNext_cases (w : World) (i : Slot) :
    (w.after tcpNext).tcp ≠ .creating i ∧ (w.after tcpNext).tcp ≠ .releasing i := by
  simp only [World.after, tcpNext, run_modify]
  split <;> simp

theorem tcpNext_accepted (w : World) {sock : Int} {peerIp : UInt32} {peerPort : UInt16} :
    (w.after tcpNext).tcp ≠ .accepted sock peerIp peerPort := by
  simp only [World.after, tcpNext, run_modify]
  split <;> simp

/-! ## What a step does to the table -/

/-- The task of slot `i` has not done its cleanup. -/
def Running (w : World) (i : Slot) : Prop :=
  w.ctl i ≠ none ∧ ∀ notify, w.ctl i ≠ some (.cleaned notify)

instance (w : World) (i : Slot) : Decidable (Running w i) := inferInstanceAs (Decidable (_ ∧ _))

/-- The listener has no connection at hand. -/
def TcpPc.Idle (tcp : TcpPc) : Prop :=
  (∀ i, tcp ≠ .creating i ∧ tcp ≠ .releasing i) ∧
    ∀ sock peerIp peerPort, tcp ≠ .accepted sock peerIp peerPort

theorem tcpNext_idle (w : World) : (w.after tcpNext).tcp.Idle := by
  simp only [World.after, tcpNext, run_modify]
  split <;> simp [TcpPc.Idle]

/-- All that a step can do to the rows, the control tasks and the listener. -/
inductive TableStep (w : World) (a : Action) (w' : World) : Prop where
  | same (hSame : SameTable w w')
  /-- a control task goes on -/
  | task {i : Slot} {pc : CtlPc} (hRun : Running w i) (hRows : SameRows w w')
      (hCtl : w'.ctl = Function.update w.ctl i (some pc)) (hTcp : w'.tcp = w.tcp)
  /-- a control task that is done with its cleanup tells the application of it -/
  | told {i : Slot} (hCleaned : w.ctl i = some (.cleaned true)) (hRows : SameRows w w')
      (hCtl : w'.ctl = Function.update w.ctl i (some (.cleaned false))) (hTcp : w'.tcp = w.tcp)
  | accept {fd : Int} {peerIp : UInt32} {peerPort : UInt16} (hAct : a = .accept fd peerIp peerPort)
      (hRows : SameRows w w') (hCtl : w'.ctl = w.ctl) (hTcp : w'.tcp = .accepted fd peerIp peerPort)
  /-- a connection is entered -/
  | enter {i : Slot} {sock : Int} {peerIp : UInt32} {peerPort : UInt16} (hAct : a = .alloc)
      (hTcp : w.tcp = .accepted sock peerIp peerPort) (hFree : (w.sess i).inUse = false)
      (hTo : w' =
        { w with
          sess := Function.update w.sess i (newSession sock peerIp peerPort)
          sessionCount := w.sessionCount + 1
          tcp := .creating i })
  /-- no slot is free, or the connection is closed again -/
  | reject (hRows : SameRows w w') (hCtl : w'.ctl = w.ctl) (hTcp : w'.tcp.Idle)
  /-- the task of an entered connection is there -/
  | start {i : Slot} (hTcp : w.tcp = .creating i) (hRows : SameRows w w')
      (hCtl : w'.ctl = Function.update w.ctl i (some .created)) (hIdle : w'.tcp.Idle)
  /-- it could not be created -/
  | drop {i : Slot} (hTcp : w.tcp = .creating i) (hRows : SameRows w w') (hCtl : w'.ctl = w.ctl)
      (hTcp' : w'.tcp = .releasing i)
  /-- a slot is given back, by the listener or by its task -/
  | leave {i : Slot} (hUse : (w.sess i).inUse)
      (hSess : w'.sess = Function.update w.sess i { w.sess i with inUse := false })
      (hCount : w'.sessionCount = w.sessionCount - 1)
      (hBy : w.tcp = .releasing i ∧ w'.ctl = w.ctl ∧ w'.tcp.Idle ∨
        w.ctl i = some (.cleaned false) ∧ w'.ctl = Function.update w.ctl i none ∧ w'.tcp = w.tcp)

theorem TableStep.of_setCtl {w w₁ : World} {a : Action} {i : Slot} {pc : CtlPc}
    (hRun : Running w i) (hSame : SameTable w w₁) :
    TableStep w a { w₁ with ctl := Function.update w₁.ctl i (some pc) } :=
  .task hRun ⟨hSame.inUse, hSame.sock, hSame.count⟩ (by rw [hSame.ctl]) hSame.tcp

theorem greetClient_table {env : Env} {w : World} {a : Action} {i : Slot} {localIp : UInt32}
    {localPort : UInt16} (hRun : Running w i) :
    TableStep w a (w.after (greetClient env i localIp localPort)) := by
  have hTick (n : Nat) : SameTable w { w with tick := w.tick + n } := .of_sess rfl rfl rfl rfl
  simp only [World.after, greetClient, run_bind, run_oracle, run_ite]
  split
  · exact .of_setCtl hRun (hTick 1)
  · split
    · exact .of_setCtl hRun (hTick 2)
    · exact .of_setCtl hRun (trans_of SameTable (hTick 2) (greetSession_sameTable ..))

theorem serveFrame_table {env : Env} {w : World} {a : Action} {i : Slot} {h : Handler}
    {fr : Bytes} {n : Nat} (hRun : Running w i) :
    TableStep w a (w.after (serveFrame env i h fr n)) := by
  have hSame := handleFrame_sameTable env i h fr w
  simp only [World.after, serveFrame, run_bind]
  split
  · exact .of_setCtl hRun hSame
  · exact .of_setCtl hRun (hSame.trans (.of_sess rfl rfl rfl rfl))

/-- **The table inversion.** -/
theorem Step.table {env : Env} {w w' : World} {a : Action} (h : TaskTable w)
    (hStep : Step env w a w') : TableStep w a w' := by
  have hActivity := sameTable_task env
  have hRunning {i : Slot} {pc : CtlPc} (hCtl : w.ctl i = some pc)
      (hpc : ∀ notify, pc ≠ .cleaned notify) : Running w i := by
    simpa [Running, hCtl] using hpc
  cases hStep with
  | accept hTcp hPos hFree =>
    exact .accept rfl (.of_sess rfl rfl) rfl (by simp [World.after, setTcp])
  | @alloc sock peerIp peerPort hTcp hMux =>
    obtain ⟨i, hFree, hAfter⟩ | ⟨-, hAfter⟩ := tcpAlloc_cases w sock peerIp peerPort
    · exact .enter rfl hTcp hFree hAfter
    · rw [hAfter]
      exact .reject (.of_sess rfl rfl) rfl (by simp [TcpPc.Idle])
  | reject hTcp => exact .reject (.of_sess rfl rfl) rfl (tcpNext_idle _)
  | @spawn i hTcp =>
    obtain ⟨-, hAfter⟩ | ⟨-, hAfter⟩ := tcpSpawn_cases env w i
    · rw [hAfter]
      exact .start hTcp (.of_sess rfl rfl) rfl (tcpNext_idle w)
    · rw [hAfter]
      exact .drop hTcp (.of_sess rfl rfl) rfl rfl
  | tcpRelease hTcp hMux =>
    have hStart := h.starting _ (.inr hTcp)
    simp only [World.after, run_bind, miplaySessionRelease_run hStart.1]
    exact .leave hStart.1 rfl rfl (.inl ⟨hTcp, rfl, tcpNext_idle _⟩)
  | enter hCtl hMux => exact .of_setCtl (hRunning hCtl (by simp)) (enterClient_sameTable _ w)
  | greet hCtl hMux => exact greetClient_table (hRunning hCtl (by simp))
  | recv hCtl hRun hMove hChunk hSpace =>
    exact .of_setCtl (hRunning hCtl (by simp)) (.of_sess rfl rfl rfl rfl)
  | full hCtl hRun hMove hFull =>
    exact .of_setCtl (hRunning hCtl (by simp)) (refl_of SameTable w)
  | skip hCtl hMove => exact .of_setCtl (hRunning hCtl (by simp)) (refl_of SameTable w)
  | frame hCtl hMove hMux => exact serveFrame_table (hRunning hCtl (by simp))
  | hangup hCtl hRun hMove =>
    exact .of_setCtl (hRunning hCtl (by simp)) (.of_sess rfl rfl rfl rfl)
  | quit hCtl hRun hMove => exact .of_setCtl (hRunning hCtl (by simp)) (refl_of SameTable w)
  | cleanup hCtl hMux =>
    exact .of_setCtl (hRunning hCtl (by simp)) (disconnectCleanup_sameTable _ w)
  | notify hCtl => exact .told hCtl (.of_sess rfl rfl) rfl rfl
  | release hCtl hMux =>
    have hUse := h.serving _ (by rw [hCtl]; simp)
    simp only [World.after, run_bind, miplaySessionRelease_run hUse, run_setCtl]
    exact .leave hUse rfl rfl (.inr ⟨hCtl, rfl, rfl⟩)
  | inlineDone hCtl hPc => exact .of_setCtl (hRunning hCtl (by simp)) (inlineReturn_sameTable _ w)
  | inline hCtl hPc hMark hFits =>
    exact .of_setCtl (hRunning hCtl (by simp))
      ((hActivity _).rtspRunStep _ hFits fun _ _ _ => trivial)
  | rtspDone hTask hPc => exact .same (.of_sess rfl rfl rfl rfl)
  | @rtsp t r o hTask hPc hMark hFits =>
    exact .same (((hActivity (.rtsp t)).rtspRunStep r hFits fun _ _ _ => trivial).trans
      (.of_sess rfl rfl rfl rfl))
  | @media t m o hTask hMark =>
    exact .same (((hActivity (.media t)).mediaStep m o w).trans (.of_sess rfl rfl rfl rfl))
  | @image t r o hTask =>
    exact .same (((hActivity (.image t)).imageStep r o w).trans (.of_sess rfl rfl rfl rfl))
  | control hMux => exact .same (sendReceiverControl_sameTable env _ _ w)
  | query hMux => exact .same (sendMediaInfoQuery_sameTable env _ w)
  | setVolume => exact .same (.of_sess rfl rfl rfl rfl)

namespace TaskTable

variable {w w' : World}

/-- No slot in use is given up; the tasks may go on. -/
theorem of_rows (hUse : ∀ i, (w'.sess i).inUse = (w.sess i).inUse)
    (hServing : ∀ i, w'.ctl i ≠ none → (w.sess i).inUse)
    (hStarting : ∀ i, w'.tcp = .creating i ∨ w'.tcp = .releasing i →
      (w.sess i).inUse ∧ w'.ctl i = none) : TaskTable w' where
  serving i hi := by
    rw [hUse]
    exact hServing i hi
  starting i hi := by
    rw [hUse]
    exact hStarting i hi

theorem of_sameTable (h : TaskTable w) (hSame : SameTable w w') : TaskTable w' :=
  TaskTable.of_rows hSame.inUse (fun i hi => h.serving i (hSame.ctl ▸ hi))
    fun i hi => hSame.ctl ▸ h.starting i (hSame.tcp ▸ hi)

/-- A control task goes on to its next program point. -/
theorem task {i : Slot} {pc : CtlPc} (h : TaskTable w) (hTask : w.ctl i ≠ none)
    (hRows : SameRows w w') (hCtl : w'.ctl = Function.update w.ctl i (some pc))
    (hTcp : w'.tcp = w.tcp) : TaskTable w' := by
  refine TaskTable.of_rows hRows.inUse (fun j hj => ?_) fun j hj => ?_
  · by_cases hij : j = i
    · exact hij ▸ h.serving i hTask
    · rw [hCtl, Function.update_of_ne hij] at hj
      exact h.serving j hj
  · have hStart := h.starting j (hTcp ▸ hj)
    have hij : j ≠ i := by
      rintro rfl
      exact hTask hStart.2
    rw [hCtl, Function.update_of_ne hij]
    exact hStart

/-- The listener moves on, and no row changes. -/
theorem tcp (h : TaskTable w) (hRows : SameRows w w') (hCtl : w'.ctl = w.ctl)
    (hTcp : ∀ i, w'.tcp ≠ .creating i ∧ w'.tcp ≠ .releasing i) : TaskTable w' := by
  refine TaskTable.of_rows hRows.inUse (fun i hi => h.serving i (hCtl ▸ hi)) fun i hi => ?_
  exact absurd hi (not_or.mpr (hTcp i))

/-- **Step lemma.** -/
theorem step {env : Env} {a : Action} (h : TaskTable w) (hStep : Step env w a w') :
    TaskTable w' := by
  cases hStep.table h with
  | same hSame => exact h.of_sameTable hSame
  | task hRun hRows hCtl hTcp => exact h.task hRun.1 hRows hCtl hTcp
  | told hCleaned hRows hCtl hTcp => exact h.task (by rw [hCleaned]; simp) hRows hCtl hTcp
  | accept hAct hRows hCtl hTcp => exact h.tcp hRows hCtl (by simp [hTcp])
  | @enter i sock peerIp peerPort hAct hTcp hFree hTo =>
    subst hTo
    have hIdle : w.ctl i = none := by
      by_contra hCtl
      simp [h.serving i hCtl] at hFree
    refine ⟨fun j hj => ?_, fun j hj => ?_⟩
    · have hij : j ≠ i := by
        rintro rfl
        exact hj hIdle
      simpa [hij] using h.serving j hj
    · obtain rfl : i = j := by simpa using hj
      exact ⟨by simp [newSession], hIdle⟩
  | reject hRows hCtl hTcp => exact h.tcp hRows hCtl hTcp.1
  | @start i hTcp hRows hCtl hIdle =>
    have hStart := h.starting i (.inl hTcp)
    refine TaskTable.of_rows hRows.inUse (fun j hj => ?_) fun j hj => ?_
    · by_cases hij : j = i
      · exact hij ▸ hStart.1
      · exact h.serving j (by simpa [hCtl, hij] using hj)
    · exact absurd hj (not_or.mpr (hIdle.1 j))
  | @drop i hTcp hRows hCtl hTcp' =>
    refine TaskTable.of_rows hRows.inUse (fun j hj => h.serving j (hCtl ▸ hj)) fun j hj => ?_
    obtain rfl : i = j := by simpa [hTcp'] using hj
    exact hCtl ▸ h.starting i (.inl hTcp)
  | @leave i hUse hSess hCount hBy =>
    have hOther {j : Slot} (hij : j ≠ i) : (w'.sess j).inUse = (w.sess j).inUse := by
      rw [hSess, Function.update_of_ne hij]
    obtain ⟨hTcp, hCtl, hIdle⟩ | ⟨hCleaned, hCtl, hTcp⟩ := hBy
    · refine ⟨fun j hj => ?_, fun j hj => absurd hj (not_or.mpr (hIdle.1 j))⟩
      have hij : j ≠ i := by
        rintro rfl
        exact hj (hCtl ▸ (h.starting _ (.inr hTcp)).2)
      rw [hOther hij]
      exact h.serving j (hCtl ▸ hj)
    · refine ⟨fun j hj => ?_, fun j hj => ?_⟩
      · have hij : j ≠ i := by
          rintro rfl
          simp [hCtl] at hj
        rw [hOther hij]
        exact h.serving j (by simpa [hCtl, hij] using hj)
      · have hStart := h.starting j (hTcp ▸ hj)
        have hij : j ≠ i := by
          rintro rfl
          simp [hCleaned] at hStart
        rw [hOther hij, hCtl, Function.update_of_ne hij]
        exact hStart

theorem initial (volume : Nat) : TaskTable (World.initial volume) where
  serving i hi := by simp [World.initial] at hi
  starting i hi := by simp [World.initial] at hi

end TaskTable

/-! ## The invariant -/

/-- Together with what relates the table to the tasks. -/
structure TableInv (w : World) : Prop extends TaskTable w where
  distinct : ∀ i j, (w.sess i).inUse → (w.sess j).inUse → (w.sess i).sock = (w.sess j).sock → i = j
  count : w.sessionCount = slots.countP fun i => (w.sess i).inUse

/-- A lookup among distinct sockets. -/
theorem miplaySessionFind_of_distinct {w : World} {i : Slot}
    (hDistinct : ∀ i j, (w.sess i).inUse → (w.sess j).inUse →
      (w.sess i).sock = (w.sess j).sock → i = j)
    (hUse : (w.sess i).inUse) : miplaySessionFind w (w.sess i).sock = some i := by
  cases hFind : miplaySessionFind w (w.sess i).sock with
  | none =>
    have hNone := List.find?_eq_none.mp hFind i (mem_slots i)
    simp [hUse] at hNone
  | some j =>
    have hj := List.find?_some hFind
    simp only [Bool.and_eq_true, beq_iff_eq] at hj
    rw [hDistinct j i hj.1 hUse hj.2]

/-- How many slots are in use when the use of one of them changes. -/
theorem countP_update {sess : Slot → Session} {i : Slot} (s : Session)
    (hUse : (sess i).inUse = !s.inUse) :
    (slots.countP fun j => (Function.update sess i s j).inUse) + (if s.inUse then 0 else 1) =
      (slots.countP fun j => (sess j).inUse) + (if s.inUse then 1 else 0) := by
  rcases slot_cases i with rfl | rfl | rfl <;> cases h : s.inUse <;>
    simp [slots, List.countP_cons, hUse, h] <;> omega

namespace TableInv

variable {w w' : World}

theorem inOrder (h : TableInv w) : TableInOrder w where
  distinct := h.distinct
  count := h.count
  count_le := h.count ▸ List.countP_le_length
  found i hi := miplaySessionFind_of_distinct h.distinct (h.serving i hi)

theorem of_rows (h : TableInv w) (hTasks : TaskTable w') (hRows : SameRows w w') :
    TableInv w' where
  toTaskTable := hTasks
  distinct i j := by
    rw [hRows.inUse, hRows.inUse, hRows.sock, hRows.sock]
    exact h.distinct i j
  count := by
    rw [hRows.count, h.count]
    simp only [hRows.inUse]

/-- The listener enters a connection under a fresh number. -/
theorem enter {i : Slot} {sock : Int} {peerIp : UInt32} {peerPort : UInt16} (h : TableInv w)
    (hTasks : TaskTable w') (hFree : (w.sess i).inUse = false)
    (hSess : w'.sess = Function.update w.sess i (newSession sock peerIp peerPort))
    (hCount : w'.sessionCount = w.sessionCount + 1)
    (hFresh : ∀ j, (w.sess j).inUse → (w.sess j).sock ≠ sock) : TableInv w' := by
  refine ⟨hTasks, fun j k => ?_, ?_⟩
  · -- the new row differs from the old ones by its number
    rw [hSess]
    by_cases hj : j = i <;> by_cases hk : k = i
    · grind
    · subst hj
      simp only [Function.update_self, Function.update_of_ne hk]
      intro _ hUse hSock
      exact absurd hSock.symm (hFresh k hUse)
    · subst hk
      simp only [Function.update_self, Function.update_of_ne hj]
      intro hUse _ hSock
      exact absurd hSock (hFresh j hUse)
    · simp only [Function.update_of_ne hj, Function.update_of_ne hk]
      exact h.distinct j k
  · have hMore := countP_update (newSession sock peerIp peerPort) hFree
    simp only [newSession, if_true, Nat.add_zero] at hMore
    rw [hCount, hSess, newSession, hMore, h.count]

theorem leave {i : Slot} (h : TableInv w) (hTasks : TaskTable w') (hUse : (w.sess i).inUse)
    (hSess : w'.sess = Function.update w.sess i { w.sess i with inUse := false })
    (hCount : w'.sessionCount = w.sessionCount - 1) : TableInv w' := by
  refine ⟨hTasks, fun j k => ?_, ?_⟩
  · rw [hSess]
    by_cases hj : j = i <;> by_cases hk : k = i
    · grind
    · subst hj
      simp
    · subst hk
      simp
    · simp only [Function.update_of_ne hj, Function.update_of_ne hk]
      exact h.distinct j k
  · have hGone := countP_update { w.sess i with inUse := false } hUse
    simp only [Bool.false_eq_true, if_false, Nat.add_zero] at hGone
    rw [hCount, hSess, h.count, ← hGone, Nat.add_sub_cancel]

/-- **Step lemma.** -/
theorem step {env : Env} {a : Action} (h : TableInv w) (hStep : Step env w a w')
    (hFresh : EntersFreshSocket w a) : TableInv w' := by
  have hTasks := h.toTaskTable.step hStep
  cases hStep.table h.toTaskTable with
  | same hSame => exact h.of_rows hTasks hSame.rows
  | task hRun hRows => exact h.of_rows hTasks hRows
  | told hCleaned hRows => exact h.of_rows hTasks hRows
  | accept hAct hRows => exact h.of_rows hTasks hRows
  | enter hAct hTcp hFree hTo =>
    have hNew := hFresh hAct _ _ _ hTcp ⟨_, hFree⟩
    subst hTo
    exact h.enter hTasks hFree rfl rfl hNew
  | reject hRows => exact h.of_rows hTasks hRows
  | start hTcp hRows => exact h.of_rows hTasks hRows
  | drop hTcp hRows => exact h.of_rows hTasks hRows
  | leave hUse hSess hCount => exact h.leave hTasks hUse hSess hCount

theorem initial (volume : Nat) : TableInv (World.initial volume) where
  toTaskTable := .initial volume
  distinct i j hUse := by simp [World.initial, Session.zero] at hUse
  count := rfl

end TableInv

/-- A number that a slot in use carries spoils the table. -/
theorem not_tableInOrder_tcpAlloc {w : World} {sock : Int} {peerIp : UInt32} {peerPort : UInt16}
    {j : Slot} (hFree : ∃ i, (w.sess i).inUse = false) (hUse : (w.sess j).inUse)
    (hSock : (w.sess j).sock = sock) :
    ¬TableInOrder (w.after (tcpAlloc sock peerIp peerPort)) := by
  obtain ⟨i, hFree, hAfter⟩ | ⟨hAll, -⟩ := tcpAlloc_cases w sock peerIp peerPort
  · intro h
    have hij : j ≠ i := by
      rintro rfl
      simp [hFree] at hUse
    rw [hAfter] at h
    refine hij (h.distinct j i ?_ ?_ ?_)
    all_goals simp [hij, newSession, hUse, hSock]
  · obtain ⟨i, hFree⟩ := hFree
    simp [hAll i] at hFree

/-! ## Runs -/

/-- **Session table.** Along every run the table is in order after every step if
and only if no step enters a number that a slot in use still carries. -/
theorem sessionTable_along (env : Env) (volume : Nat) (as : List Action) :
    Along (step env) (fun _ _ w' => TableInOrder w') (World.initial volume) as ↔
      Along (step env) (fun w a _ => EntersFreshSocket w a) (World.initial volume) as := by
  refine along_iff_of_invariant (I := TableInv) (fun w a w' hInv hStep => ?_)
    (fun w a w' hInv hStep hFresh => hInv.step (step_cases hStep) hFresh) (TableInv.initial volume)
  refine ⟨fun hOrder hAlloc sock peerIp peerPort hTcp hFree j hUse hSock => ?_,
    fun hFresh => (hInv.step (step_cases hStep) hFresh).inOrder⟩
  subst hAlloc
  cases step_cases hStep with
  | alloc hTcp' hMux =>
    obtain ⟨rfl, rfl, rfl⟩ : sock = _ ∧ peerIp = _ ∧ peerPort = _ := by
      simpa [hTcp] using hTcp'
    exact not_tableInOrder_tcpAlloc hFree hUse hSock hOrder

/-- A phone connects and hangs up; the next one gets its number while the slot of
the first is still in use. -/
def reusedNumberRun : List Action :=
  [.accept 54 1 1, .alloc, .spawn, .enter 0, .greet 0 0 0, .hangup 0, .cleanup 0, .accept 54 2 2]

/-- Two slots in use carry the socket 54 after `reusedNumberRun` and one `alloc`. -/
theorem sessionTable_disordered :
    ¬∃ crypto : Crypto, ∀ env : Env, env.toCrypto = crypto → ∀ volume as,
      Along (step env) (fun _ _ w' => TableInOrder w') (World.initial volume) as := by
  rintro ⟨crypto, hAll⟩
  have hAlong := hAll (Env.smooth crypto) rfl 50 (reusedNumberRun ++ [.alloc])
  obtain ⟨t, u, hRun, hLast, hUse, hUse', hSock⟩ : ∃ t u,
      run (step (Env.smooth crypto)) (World.initial 50) reusedNumberRun = some t ∧
        step (Env.smooth crypto) t .alloc = some u ∧ (u.sess 0).inUse ∧ (u.sess 1).inUse ∧
          (u.sess 0).sock = (u.sess 1).sock :=
    ⟨_, _, rfl, rfl, rfl, rfl, rfl⟩
  exact absurd ((hAlong.last hRun hLast).distinct 0 1 hUse hUse' hSock) (by decide)

end EspMiplay.Miplay
