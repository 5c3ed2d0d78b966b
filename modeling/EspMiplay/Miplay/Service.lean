import EspMiplay.Miplay.ControlSteps

/-!
# The service keeps running

`s_running` is the loop condition of the listener, of every control task and of
every RTSP run: once it is false no connection is accepted any more, and no
stream gets as far as its first `connect`. It should become false in
`miplay_stop` only. There is one other place: a TEARDOWN that reaches the
keepalive loop. In the handshake loop the same message only ends the session.

## Results

* `keepRead_running`       — the one step that can stop the service, exactly.
* `step_running`           — all steps.
* `openStream_starts`      — an OPEN starts a run whatever has happened before.
* `inService_along`        — the service is up along a run exactly when no
  keepalive loop is handed a TEARDOWN.
* `teardown_stops_service` — a phone that does so.
-/

namespace EspMiplay.Miplay

open Effect Transition

/-! ## The condition -/

/-- The headers `rtsp_read_msg` hands out if it is called, or goes on, now. -/
def nextMessage (w : World) (inBody : Bool) : Option Bytes :=
  if w.rtsp.buf.allocated then
    match rtspResume inBody w.rtsp.buf.used with
    | .message headers _ _ => some headers
    | _ => none
  else none

def isTeardown (headers : Bytes) : Bool :=
  !rtspIsResponse headers && rtspMethod headers == ascii "TEARDOWN"

/-- The run is about to read a TEARDOWN in its keepalive loop. -/
def RtspRun.HearsTeardown (w : World) (r : RtspRun) : Prop :=
  r.pc = .keepRead ∧ (nextMessage w r.inBody).any isTeardown

def Action.HearsTeardown (w : World) : Action → Prop
  | .rtsp h _ =>
    match w.rtspTasks h with
    | some r => r.HearsTeardown w
    | none => False
  | .inline i _ =>
    match w.ctl i with
    | some (.inline r) => r.HearsTeardown w
    | _ => False
  | _ => False

/-! ## What a running service does -/

/-- The last thing logged is the start of a run for slot `i`. -/
def JustStarted (i : Slot) (w : World) : Prop :=
  ∃ arg, w.log.getLast? = some (.rtspStarted i arg)

/-- The service is up: the listener is in its loop, an RTSP run gets to `connect`,
and an OPEN starts such a run. -/
structure InService (env : Env) (w : World) : Prop where
  running : w.running = true
  listens : w.tcp ≠ .stopped
  connects : ∀ who r attempt n, r.pc = .socket attempt → attempt < 3 → 0 ≤ n →
    ((rtspRunStep env who r (.fd n)).run w).1.pc = .connect attempt
  opens : ∀ i f h keys host port, 0 < port →
    JustStarted i (w.after (openStream env i f h keys host port))

/-! ## One message of the keepalive loop -/

def ReadResult.headers : ReadResult → Option Bytes
  | .message headers _ => some headers
  | _ => none

/-- A read touches the shared buffer only, and hands out the next message. -/
theorem rtspReadMsg_run (env : Env) (inBody : Bool) (w : World) :
    ∃ tick rtsp, ((rtspReadMsg env inBody).run w).2 = { w with tick := tick, rtsp := rtsp } ∧
      ((rtspReadMsg env inBody).run w).1.headers = nextMessage w inBody := by
  -- an empty buffer holds no message
  have hEmpty : rtspResume inBody [] = .more [] false := by cases inBody <;> rfl
  cases hBuf : w.rtsp.buf.allocated with
  | false =>
    cases hHeap : env.heap w.tick with
    | false => exact ⟨w.tick + 1, w.rtsp, by simp [rtspReadMsg, hBuf, hHeap],
        by simp [rtspReadMsg, nextMessage, ReadResult.headers, hBuf, hHeap]⟩
    | true => exact ⟨w.tick + 1, _, by simp [rtspReadMsg, hBuf, hHeap, hEmpty]; rfl,
        by simp [rtspReadMsg, nextMessage, ReadResult.headers, hBuf, hHeap, hEmpty]⟩
  | true =>
    cases hScan : rtspResume inBody w.rtsp.buf.used with
    | more buf inBody | message headers body rest | fail buf setsErrno =>
      exact ⟨w.tick, _, by simp [rtspReadMsg, hBuf, hScan]; rfl,
        by simp [rtspReadMsg, nextMessage, ReadResult.headers, hBuf, hScan]⟩

/-- The response and, behind a TEARDOWN, the end of the service. -/
theorem rtspHandleKeepalive_running {w : World} (who : Owner) (r : RtspRun) (headers : Bytes)
    (hRun : w.running = true) :
    (w.after (rtspHandleKeepalive who r headers)).running = true ↔ ¬isTeardown headers := by
  by_cases hResp : rtspIsResponse headers
  · simp [World.after, rtspHandleKeepalive, isTeardown, hResp, hRun]
  · by_cases hMethod : rtspMethod headers = ascii "TEARDOWN"
    · simp [World.after, rtspHandleKeepalive, isTeardown, hResp, hMethod]
    · simp [World.after, rtspHandleKeepalive, isTeardown, hResp, hMethod, hRun]

/-- **The stop.** A step from the top of the keepalive loop leaves the service up
unless it reads a TEARDOWN. -/
theorem keepRead_running {env : Env} {w : World} (who : Owner) {r : RtspRun} (o : Outcome)
    (hPc : r.pc = .keepRead) (hRun : w.running = true) :
    (w.after (rtspRunStep env who r o)).running = true ↔ ¬r.HearsTeardown w := by
  obtain ⟨tick, rtsp, hAfter, hHeaders⟩ := rtspReadMsg_run env r.inBody w
  rw [RtspRun.HearsTeardown, ← hHeaders]
  simp only [World.after, rtspRunStep, hPc, run_bind, run_get, hRun, Bool.not_true,
    Bool.false_eq_true, if_false, true_and]
  rcases hRead : (rtspReadMsg env r.inBody).run w with ⟨result, w₁⟩
  rw [hRead] at hAfter
  obtain rfl : w₁ = { w with tick := tick, rtsp := rtsp } := hAfter
  cases result with
  | block inBody => simp [ReadResult.headers, hRun]
  | message headers body =>
    simp only [ReadResult.headers, Option.any_some]
    exact rtspHandleKeepalive_running who _ headers hRun
  | failed setsErrno => cases h : !setsErrno && r.errAgain <;> simp [ReadResult.headers, h, hRun]

/-! ## The other steps -/

def SameService (w w' : World) : Prop := w'.running = w.running ∧ w'.tcp = w.tcp

instance : IsPreorder World SameService where
  refl _ := ⟨rfl, rfl⟩
  trans _ _ _ h h' := ⟨h'.1.trans h.1, h'.2.trans h.2⟩

theorem sameService_blind : ControlBlind SameService where
  blind _ _ _ _ _ _ _ _ _ _ := ⟨rfl, rfl⟩
  log _ _ _ := ⟨rfl, rfl⟩

theorem sameService_frame (env : Env) (who : Owner) (i : Slot) (sock : Int) :
    FrameRules env who i sock SameService :=
  sameService_blind.frameRules (fun _ _ _ _ _ _ _ => ⟨rfl, rfl⟩) who i sock

theorem serveFrame_sameService (env : Env) (i : Slot) (h : Handler) (frame : Bytes) (n : Nat) :
    Does SameService (serveFrame env i h frame n) := by
  have hStart {sock : Int} {host : Bytes} {port : Int} {has : Bool} {key : Block} {force : Bool} :
      Does SameService (miplayStartRtspSession env i sock host port has key force) :=
    sameService_blind.startRtspSession (fun _ _ _ => ⟨rfl, rfl⟩) (fun _ _ _ => ⟨rfl, rfl⟩)
      fun _ _ => ⟨rfl, rfl⟩
  refine sameService_blind.serveFrame (fun _ => sameService_frame ..) fun f _ => ?_
  exact sameService_blind.commandRules (sameService_frame ..).toSwitchRules (fun _ _ _ _ _ => hStart)
    (fun _ _ => ⟨rfl, rfl⟩) fun _ _ _ => ⟨rfl, rfl⟩

theorem sameService_activity (env : Env) (who : Owner) :
    ActivityRules env who (fun _ _ => True) SameService where
  tick _ _ := ⟨rfl, rfl⟩
  shared _ _ _ _ _ _ _ _ := ⟨rfl, rfl⟩
  opened _ _ _ := ⟨rfl, rfl⟩
  closed _ _ := ⟨rfl, rfl⟩
  used _ _ := ⟨rfl, rfl⟩
  imageTask _ _ _ := ⟨rfl, rfl⟩
  mediaTask _ _ _ := ⟨rfl, rfl⟩
  newTask _ := ⟨rfl, rfl⟩
  media _ _ := ⟨rfl, rfl⟩
  mediaCb _ _ := ⟨rfl, rfl⟩
  startCb _ _ := ⟨rfl, rfl⟩
  markClosed _ _ := markClosed_does _ (fun _ _ => ⟨rfl, rfl⟩) fun _ => ⟨rfl, rfl⟩

/-- A step of an RTSP run, wherever it stands. -/
theorem rtspRunStep_running {env : Env} {w : World} (who : Owner) {r : RtspRun} {o : Outcome}
    (hFits : o.fits w r.pc) (hRun : w.running = true) :
    (w.after (rtspRunStep env who r o)).running = true ↔ ¬r.HearsTeardown w := by
  by_cases hPc : r.pc = .keepRead
  · exact keepRead_running who o hPc hRun
  · have hSame : SameService w (w.after (rtspRunStep env who r o)) :=
      (sameService_activity env who).rtspRunStep r hFits (fun _ _ _ => trivial)
        fun h => absurd h hPc
    simp [hSame.1, hRun, RtspRun.HearsTeardown, hPc]

theorem rtspRunStep_tcp {env : Env} {w : World} (who : Owner) {r : RtspRun} {o : Outcome}
    (hFits : o.fits w r.pc) : (w.after (rtspRunStep env who r o)).tcp = w.tcp :=
  ((sameTable_task env who).rtspRunStep r hFits fun _ _ _ => trivial).tcp

/-! ## Every step -/

/-- The listener and the loop conditions. -/
def Up (w : World) : Prop := w.running = true ∧ w.tcp ≠ .stopped

theorem SameService.up {w w' : World} (h : SameService w w') (hUp : Up w) : Up w' := by
  rwa [Up, h.1, h.2]

/-- While the service runs the listener comes back to `accept`. -/
theorem listener_up {env : Env} {w w' : World} {a : Action} (hStep : Step env w a w')
    (hListener : a.Listener) (hUp : Up w) : Up w' := by
  have hRunning : w'.running = w.running := by
    let R (w w' : World) : Prop := w'.running = w.running
    have hPre : IsPreorder World R := { refl := fun _ => rfl, trans := fun _ _ _ h h' => h'.trans h }
    have hBlind : ControlBlind R := ⟨fun _ _ _ _ _ _ _ _ _ _ => rfl, fun _ _ _ => rfl⟩
    exact hBlind.listener (fun _ _ => rfl) hStep hListener
  refine ⟨hRunning.trans hUp.1, ?_⟩
  have hRun := hUp.1
  cases hStep with
  | accept => simp [World.after, setTcp]
  | @alloc sock peerIp peerPort =>
    obtain ⟨i, -, hAfter⟩ | ⟨-, hAfter⟩ := tcpAlloc_cases w sock peerIp peerPort
    all_goals rw [hAfter]; simp
  | reject => simp [World.after, tcpNext, hRun]
  | spawn =>
    simp only [World.after, tcpSpawn, tcpNext, setTcp, run_bind, run_oracle, run_ite, run_setCtl,
      run_modify, run_get, run_closeFd, hRun, if_true]
    split <;> simp
  | @tcpRelease i =>
    have hRelease : (w.after (miplaySessionRelease i)).running = true := by
      simp only [World.after, miplaySessionRelease, run_bind, run_get, run_ite, run_modifySession,
        run_modify, run_pure]
      split <;> exact hRun
    simp only [World.after, tcpNext, run_bind, run_modify] at hRelease ⊢
    simp [hRelease]
  | _ => exact hListener.elim

theorem step_up {env : Env} {w w' : World} {a : Action} (hStep : Step env w a w') (hUp : Up w) :
    (w'.running = true ↔ ¬a.HearsTeardown w) ∧ w'.tcp ≠ .stopped := by
  -- a step that is not an RTSP run's hears nothing
  have hSame (h : SameService w w') (hDeaf : ¬a.HearsTeardown w) :
      (w'.running = true ↔ ¬a.HearsTeardown w) ∧ w'.tcp ≠ .stopped :=
    ⟨iff_of_true (h.up hUp).1 hDeaf, (h.up hUp).2⟩
  by_cases hListener : a.Listener
  · have hUp' := listener_up hStep hListener hUp
    exact ⟨iff_of_true hUp'.1 (by cases a <;> first | exact id | exact hListener.elim), hUp'.2⟩
  by_cases hControl : a.Control
  · exact hSame (sameService_blind.step hStep hControl)
      (by cases a <;> first | exact id | exact hControl.elim)
  cases hStep with
  | frame => exact hSame (serveFrame_sameService env _ _ _ _ w) id
  | @cleanup i =>
    exact hSame ((sameService_blind.cleanup (fun _ => ⟨rfl, rfl⟩) i).bind
      (fun _ => sameService_blind.setCtl _ _) w) id
  | @inlineDone i r o hCtl hPc =>
    refine hSame ((sameService_blind.inlineReturn i).bind
      (fun _ => sameService_blind.setCtl _ _) w) ?_
    simp [Action.HearsTeardown, hCtl, RtspRun.HearsTeardown, hPc]
  | @inline i r o hCtl hPc hMark hFits =>
    have hHears : (Action.inline i o).HearsTeardown w = r.HearsTeardown w := by
      simp only [Action.HearsTeardown, hCtl]
    rw [hHears]
    exact ⟨rtspRunStep_running (.ctl i) hFits hUp.1, (rtspRunStep_tcp (.ctl i) hFits).trans_ne hUp.2⟩
  | @rtspDone n r o hTask hPc =>
    refine hSame ⟨rfl, rfl⟩ ?_
    simp [Action.HearsTeardown, hTask, RtspRun.HearsTeardown, hPc]
  | @rtsp n r o hTask hPc hMark hFits =>
    have hHears : (Action.rtsp n o).HearsTeardown w = r.HearsTeardown w := by
      simp only [Action.HearsTeardown, hTask]
    rw [hHears]
    exact ⟨rtspRunStep_running (.rtsp n) hFits hUp.1,
      (rtspRunStep_tcp (.rtsp n) hFits).trans_ne hUp.2⟩
  | @media n m o =>
    exact hSame ((sameService_activity env (.media n)).mediaStep m o |>.bind
      (fun _ _ => ⟨rfl, rfl⟩) <| w) id
  | @image n t o =>
    exact hSame ((sameService_activity env (.image n)).imageStep t o |>.bind
      (fun _ _ => ⟨rfl, rfl⟩) <| w) id
  | control => exact hSame (sameService_blind.control (fun _ _ => (sameService_frame ..).toSwitchRules) _ _ w) id
  | setVolume => exact hSame ⟨rfl, rfl⟩ id
  | accept | alloc | reject | spawn | tcpRelease => exact absurd trivial hListener
  | _ => exact absurd trivial hControl

/-! ## What being up is good for -/

theorem justStarted_emit (i : Slot) (arg : RtspArg) (w : World) :
    JustStarted i (w.after (emit (.rtspStarted i arg))) :=
  ⟨arg, by simp [World.after]⟩

/-- Success is reported only behind a start. -/
def StartsIfTrue (i : Slot) (m : M Bool) : Prop :=
  ∀ w, (m.run w).1 = true → JustStarted i (w.after m)

theorem startsIfTrue_false (i : Slot) : StartsIfTrue i (pure false) := fun _ h => by
  cases h

theorem startsIfTrue_bind {i : Slot} {α : Type} {m : M α} {k : α → M Bool}
    (hk : ∀ a, StartsIfTrue i (k a)) : StartsIfTrue i (m >>= k) :=
  fun w => hk (m.run w).1 (m.run w).2

theorem startsIfTrue_ite {i : Slot} {c : Prop} [Decidable c] {m n : M Bool} (hm : StartsIfTrue i m)
    (hn : StartsIfTrue i n) : StartsIfTrue i (if c then m else n) := by
  split
  · exact hm
  · exact hn

theorem createRtspTask_starts (env : Env) (i : Slot) (arg : RtspArg) :
    StartsIfTrue i (createRtspTask env i arg) := by
  refine startsIfTrue_bind fun _ => startsIfTrue_bind fun heap => startsIfTrue_ite ?_
    (startsIfTrue_false i)
  refine startsIfTrue_bind fun handle => startsIfTrue_bind fun _ => startsIfTrue_bind fun _ => ?_
  exact fun w _ => justStarted_emit i arg w

theorem miplayStartRtspSession_starts (env : Env) (i : Slot) (sock : Int) (host : Bytes) (port : Int)
    (has : Bool) (key : Block) (force : Bool) :
    StartsIfTrue i (miplayStartRtspSession env i sock host port has key force) := by
  refine startsIfTrue_bind fun w => startsIfTrue_ite (startsIfTrue_false i) ?_
  refine startsIfTrue_ite (startsIfTrue_false i) ?_
  refine startsIfTrue_bind fun _ => startsIfTrue_bind fun _ => startsIfTrue_bind fun _ =>
    startsIfTrue_bind fun heap => ?_
  exact startsIfTrue_ite (startsIfTrue_false i) (createRtspTask_starts env i _)

/-- An OPEN starts a run, in a task or inline, whatever has happened before. -/
theorem openStream_starts (env : Env) (i : Slot) (f : Frame) (h : Handler) (keys : StreamKeys)
    (host : Bytes) {port : Int} (hPort : 0 < port) (w : World) :
    JustStarted i (w.after (openStream env i f h keys host port)) := by
  have hNeg : ¬port ≤ 0 := by omega
  have hStart := miplayStartRtspSession_starts env i f.sock host port keys.has keys.key true
  simp only [openStream, World.after, run_bind, run_get, run_ite, hNeg, if_false]
  -- the notify changes the world the start begins in, and nothing else
  split
  all_goals
    split
    · exact hStart _ ‹_›
    · exact justStarted_emit i _ _

theorem Up.inService {w : World} (env : Env) (hUp : Up w) : InService env w where
  running := hUp.1
  listens := hUp.2
  connects who r attempt n hPc hAttempt hn := by
    have hLow : ¬attempt ≥ 3 := by omega
    have hNeg : ¬n < 0 := by omega
    simp [rtspRunStep, hPc, hUp.1, hLow, hNeg]
  opens i f h keys host port hPort := openStream_starts env i f h keys host hPort w

/-! ## Runs -/

/-- **The service and the TEARDOWNs.** Along every run the service is up exactly when
no keepalive loop is handed a TEARDOWN. -/
theorem inService_along (env : Env) (volume : Nat) (as : List Action) :
    Along (step env) (fun _ _ w' => InService env w') (World.initial volume) as ↔
      Along (step env) (fun w a _ => ¬a.HearsTeardown w) (World.initial volume) as := by
  refine along_iff_of_invariant (I := Up) (fun w a w' hUp hStep => ?_)
    (fun w a w' hUp hStep hDeaf => ?_) ⟨rfl, by simp [World.initial]⟩
  all_goals obtain ⟨hRunning, hTcp⟩ := step_up (step_cases hStep) hUp
  · exact ⟨fun h => hRunning.mp h.running, fun h => Up.inService env ⟨hRunning.mpr h, hTcp⟩⟩
  · exact ⟨hRunning.mpr hDeaf, hTcp⟩

/-- A phone opens a stream, plays, and ends the session with a TEARDOWN. -/
def teardownRun : List Action :=
  connectRun 54 ++ frameRun (frameOf 0 0 (containerOf (ascii "wfd://10.0.0.2:8554"))) ++
    [.rtsp 0 .go, .rtsp 0 (.fd 55), .rtsp 0 (.connected 0 0), .rtsp 0 .go, .rtsp 0 .go,
      .rtsp 0 .go, .rtsp 0 (.data (ascii "PLAY * RTSP/1.0\r\nCSeq: 1\r\n\r\n") false),
      .rtsp 0 .go, .rtsp 0 .go, .rtsp 0 .go, .rtsp 0 .go,
      .rtsp 0 (.data (ascii "TEARDOWN * RTSP/1.0\r\nCSeq: 2\r\n\r\n") false), .rtsp 0 .go]

/-- Behind it `s_running` is false. -/
theorem teardown_stops_service :
    ¬∀ env volume as,
      Along (step env) (fun _ _ w' => InService env w') (World.initial volume) as := by
  intro hAll
  have hEnd : (run (step (Env.smooth plainCrypto)) (World.initial 50) teardownRun).map
      World.running = some false := by
    decide +kernel
  obtain ⟨w, hRun, hRunning⟩ := Option.map_eq_some_iff.mp hEnd
  have hUp := (hAll (Env.smooth plainCrypto) 50 teardownRun).final (fun w => w.running = true)
    (fun _ _ _ h => h.running) rfl hRun
  rw [hRunning] at hUp
  cases hUp

end EspMiplay.Miplay
