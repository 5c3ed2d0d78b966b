import Mathlib.Data.List.DropRight
import EspMiplay.Miplay.Handshake
import EspMiplay.Miplay.TextBounds

/-!
# Where a stream comes from

The target of a stream and its key are process-wide: an OPEN on any control connection
saves the target, a SetMirrorKey on any of them the key, and neither is forgotten when the
connection is closed. A stream is started with what was saved last.

## Results

* `startRtspSession_cases` — what a start saves and logs.
* `step_traced`            — every step.
* `streams_along`          — the streams of every run.
* `companionStream_used`   — a stream with the target and the key of another connection.
-/

namespace EspMiplay.Miplay

open Effect Transition

-- ---------------------------------------------------------------------------
-- What the log tells
-- ---------------------------------------------------------------------------

/-- A stream key that was received. -/
def Op.receivedKey : Op → Option (Slot × Block)
  | .mirrorKey i key => some (i, key)
  | _ => none

/-- A target that was received with an OPEN. -/
def Op.receivedTarget : Op → Option (Slot × Bytes × Int)
  | .openSaved i host port => some (i, host, port)
  | _ => none

def Op.startedStream : Op → Option (Slot × RtspArg)
  | .rtspStarted i arg => some (i, arg)
  | _ => none

def lastKey (log : List Op) : Option (Slot × Block) := (log.filterMap Op.receivedKey).getLast?

def lastTarget (log : List Op) : Option (Slot × Bytes × Int) :=
  (log.filterMap Op.receivedTarget).getLast?

/-- Every stream of the log, with what was logged in front of its start. -/
def Streams (P : List Op → Slot → RtspArg → Prop) (log : List Op) : Prop :=
  ∀ n i arg, log[n]?.bind Op.startedStream = some (i, arg) → P (log.take n) i arg

/--
The stream has the target of the last OPEN and the last stream key. One that an OPEN starts is
logged right behind it, and the OPEN is one of its own connection.
-/
structure FromLast (log : List Op) (i : Slot) (arg : RtspArg) : Prop where
  target : ∃ i host, lastTarget log = some (i, host, arg.port) ∧
    strncpy 64 arg.host = strncpy 64 host
  key : (lastKey log).map Prod.snd = if arg.hasStreamKey then some arg.streamKey else none
  opened : ∀ j host port, log.getLast? = some (.openSaved j host port) → j = i

/-- The log since the connection of the slot was greeted. -/
def sinceGreeted (i : Slot) (log : List Op) : List Op :=
  log.rtakeWhile fun
    | .keyed j _ _ _ => i ≠ j
    | _ => true

/-- The last stream key that came over the connection of the slot. -/
def ownKey (i : Slot) (log : List Op) : Option Block :=
  (((sinceGreeted i log).filterMap Op.receivedKey).filter (·.1 = i)).getLast?.map Prod.snd

/-- The stream has a target that came over its own connection. -/
def OwnTarget (log : List Op) (i : Slot) (arg : RtspArg) : Prop :=
  ∃ host, (i, host, arg.port) ∈ (sinceGreeted i log).filterMap Op.receivedTarget ∧
    strncpy 64 arg.host = strncpy 64 host

/-- The stream has the last key that came over its own connection. -/
def OwnKey (log : List Op) (i : Slot) (arg : RtspArg) : Prop :=
  ownKey i log = if arg.hasStreamKey then some arg.streamKey else none

section Log

variable {P : List Op → Slot → RtspArg → Prop} {log : List Op} {op : Op}

theorem lastKey_append (h : op.receivedKey = none) : lastKey (log ++ [op]) = lastKey log := by
  simp [lastKey, h]

theorem lastTarget_append (h : op.receivedTarget = none) :
    lastTarget (log ++ [op]) = lastTarget log := by
  simp [lastTarget, h]

theorem streams_append :
    Streams P (log ++ [op]) ↔
      Streams P log ∧ ∀ i arg, op.startedStream = some (i, arg) → P log i arg := by
  constructor
  · intro h
    constructor
    · intro n i arg hStart
      have hLt : n < log.length := by
        by_contra hGe
        rw [List.getElem?_eq_none (by omega)] at hStart
        cases hStart
      have hSame := h n i arg (by rw [List.getElem?_append_left hLt]; exact hStart)
      rwa [List.take_append_of_le_length hLt.le] at hSame
    · intro i arg hStart
      have hHere := h log.length i arg (by simpa using hStart)
      rwa [List.take_left] at hHere
  · rintro ⟨hBefore, hHere⟩ n i arg hStart
    rcases Nat.lt_trichotomy n log.length with hLt | rfl | hGt
    · rw [List.getElem?_append_left hLt] at hStart
      rw [List.take_append_of_le_length hLt.le]
      exact hBefore n i arg hStart
    · rw [List.take_left]
      exact hHere i arg (by simpa using hStart)
    · rw [List.getElem?_eq_none (by simp; omega)] at hStart
      cases hStart

end Log

-- ---------------------------------------------------------------------------
-- What is saved
-- ---------------------------------------------------------------------------

/-- What is saved is what was received last, and so it is with every stream. -/
structure Saved (w : World) : Prop where
  key : (lastKey w.log).map Prod.snd = if w.keys.has then some w.keys.key else none
  target : 0 < w.rtsp.portSaved → w.rtsp.hostSaved ≠ [] → ∃ i host,
    lastTarget w.log = some (i, host, w.rtsp.portSaved) ∧ w.rtsp.hostSaved = strncpy 64 host
  streams : Streams FromLast w.log

/-- The streams of the OPENs are started, too. -/
structure Traced (w : World) : Prop extends Saved w where
  started : ∀ j host port, w.log.getLast? ≠ some (.openSaved j host port)

theorem traced_log {w : World} {op : Op} (h : Traced w) (hKey : op.receivedKey = none)
    (hTarget : op.receivedTarget = none) (hStart : op.startedStream = none) :
    Traced { w with log := w.log ++ [op] } where
  started j host port hEq := by
    rw [List.getLast?_concat] at hEq
    cases hEq
    cases hTarget
  key := by
    rw [lastKey_append hKey]
    exact h.key
  target hPort hHost := by
    rw [lastTarget_append hTarget]
    exact h.target hPort hHost
  streams := streams_append.2 ⟨h.streams, fun i arg hEq => by
    rw [hStart] at hEq
    cases hEq⟩

theorem traced_started {w : World} {i : Slot} {arg : RtspArg} (h : Saved w)
    (hFrom : FromLast w.log i arg) : Traced { w with log := w.log ++ [.rtspStarted i arg] } where
  started j host port hEq := by
    rw [List.getLast?_concat] at hEq
    cases hEq
  key := by
    rw [lastKey_append rfl]
    exact h.key
  target hPort hHost := by
    rw [lastTarget_append rfl]
    exact h.target hPort hHost
  streams := streams_append.2 ⟨h.streams, fun j arg' hEq => by
    cases hEq
    exact hFrom⟩

theorem traced_mirrorKey {w : World} (h : Traced w) (i : Slot) (key iv : Block) :
    Traced { w with
      keys := { w.keys with key := key, iv := iv, has := true }
      log := w.log ++ [.mirrorKey i key] } where
  started j host port hEq := by
    rw [List.getLast?_concat] at hEq
    cases hEq
  key := by simp [lastKey, Op.receivedKey]
  target hPort hHost := by
    rw [lastTarget_append rfl]
    exact h.target hPort hHost
  streams := streams_append.2 ⟨h.streams, fun j arg hEq => by cases hEq⟩

theorem traced_blind : ControlBlind (Keep Traced) where
  blind _ _ _ _ _ _ _ _ _ _ h := ⟨⟨h.key, h.target, h.streams⟩, h.started⟩
  log w op hOp h := by
    refine traced_log h ?_ ?_ ?_ <;>
    · cases op <;> first | rfl | exact absurd trivial hOp

theorem traced_frame (env : Env) (who : Owner) (i : Slot) (sock : Int) :
    FrameRules env who i sock (Keep Traced) :=
  traced_blind.frameRules
    (fun _ _ _ _ _ _ _ h => ⟨⟨h.key, h.target, h.streams⟩, h.started⟩) who i sock

theorem traced_activity (env : Env) (who : Owner) :
    TaskRules env who (fun _ _ => True) (Keep Traced) where
  tick _ _ h := ⟨⟨h.key, h.target, h.streams⟩, h.started⟩
  shared _ _ _ _ _ _ _ _ h := ⟨⟨h.key, h.target, h.streams⟩, h.started⟩
  stopped _ h := ⟨⟨h.key, h.target, h.streams⟩, h.started⟩
  opened w fd _ := traced_blind.openFd who fd w
  closed fd := traced_blind.closeFd who fd
  used fd := traced_blind.useFd who fd
  imageTask _ _ _ h := ⟨⟨h.key, h.target, h.streams⟩, h.started⟩
  mediaTask _ _ _ h := ⟨⟨h.key, h.target, h.streams⟩, h.started⟩
  newTask _ h := ⟨⟨h.key, h.target, h.streams⟩, h.started⟩
  media _ _ h := ⟨⟨h.key, h.target, h.streams⟩, h.started⟩
  mediaCb _ _ h := traced_log h rfl rfl rfl
  startCb _ _ h := traced_log h rfl rfl rfl
  markClosed _ _ := markClosed_does _ (fun _ _ h => ⟨⟨h.key, h.target, h.streams⟩, h.started⟩)
    fun _ h => ⟨⟨h.key, h.target, h.streams⟩, h.started⟩

-- ---------------------------------------------------------------------------
-- The start of a stream
-- ---------------------------------------------------------------------------

/-- A start with a target saves it; a stream is logged when there is memory for its task. -/
theorem startRtspSession_cases (env : Env) (i : Slot) (w : World) {sock : Int} {host : Bytes}
    {port : Int} (has : Bool) (key : Block) (force : Bool)
    (hGo : ¬(cstr host = [] ∨ port ≤ 0 ∨ sock < 0))
    (hFree : (!force && w.regs.mediaSessionOpened && w.rtsp.task.isSome) = false) :
    ∃ ok w', (miplayStartRtspSession env i sock host port has key force).run w = (ok, w') ∧
      w'.keys = w.keys ∧ w'.rtsp.hostSaved = strncpy 64 host ∧ w'.rtsp.portSaved = port ∧
      (ok = false ∧ w'.log = w.log ∨ ok = true ∧ ∃ arg : RtspArg, arg.host = strncpy 64 host ∧
        arg.port = port ∧ arg.hasStreamKey = has ∧ (has → arg.streamKey = key) ∧
        w'.log = w.log ++ [.rtspStarted i arg]) := by
  simp only [miplayStartRtspSession, createRtspTask, run_bind, run_get, run_ite, if_neg hGo, hFree,
    Bool.false_eq_true, if_false, run_modifyRtsp, run_modify, run_modifyRegs, run_oracle, run_pure,
    run_newTask, run_setRtspTask, run_emit]
  cases hArg : env.heap w.tick with
  | false =>
    simp only [Bool.not_false, if_true]
    exact ⟨_, _, rfl, by simp⟩
  | true =>
    cases hTask : env.heap (w.tick + 1) <;>
    · simp only [Bool.not_true, Bool.false_eq_true, if_false, if_true]
      exact ⟨_, _, rfl, by simp +contextual⟩

/-- A stream that is started with the last target and the last key, which are saved by then. -/
theorem start_saved {env : Env} {i : Slot} {w w' : World} {sock : Int} {host : Bytes} {port : Int}
    {force ok : Bool}
    (hKey : (lastKey w.log).map Prod.snd = if w.keys.has then some w.keys.key else none)
    (hStreams : Streams FromLast w.log)
    (hTarget : ∃ j host', lastTarget w.log = some (j, host', port) ∧
      strncpy 64 host = strncpy 64 host')
    (hOpen : ∀ j host port, w.log.getLast? = some (.openSaved j host port) → j = i)
    (hGo : ¬(cstr host = [] ∨ port ≤ 0 ∨ sock < 0))
    (hFree : (!force && w.regs.mediaSessionOpened && w.rtsp.task.isSome) = false)
    (hRun : (miplayStartRtspSession env i sock host port w.keys.has w.keys.key force).run w =
      (ok, w')) :
    Saved w' ∧ w'.keys = w.keys ∧
      (ok = false ∧ w'.log = w.log ∨
        ok = true ∧ ∃ arg, w'.log = w.log ++ [.rtspStarted i arg]) := by
  obtain ⟨ok', w₁, hStart, hKeys, hHost, hPort, hLog⟩ :=
    startRtspSession_cases env i w w.keys.has w.keys.key force hGo hFree
  obtain ⟨rfl, rfl⟩ := Prod.mk.inj (hStart.symm.trans hRun)
  obtain ⟨j, host', hLast, hSame⟩ := hTarget
  rcases hLog with ⟨hOk, hLog⟩ | ⟨hOk, arg, hArgHost, hArgPort, hArgHas, hArgKey, hLog⟩
  · refine ⟨⟨by rw [hLog, hKeys]; exact hKey, fun _ _ => ⟨j, host', ?_, ?_⟩,
      by rw [hLog]; exact hStreams⟩, hKeys, .inl ⟨hOk, hLog⟩⟩
    · rw [hLog, hPort, hLast]
    · rw [hHost, hSame]
  · refine ⟨⟨?_, fun _ _ => ⟨j, host', ?_, by rw [hHost, hSame]⟩, ?_⟩, hKeys,
      .inr ⟨hOk, arg, hLog⟩⟩
    · rw [hLog, hKeys, lastKey_append rfl]
      exact hKey
    · rw [hLog, hPort, lastTarget_append rfl, hLast]
    · rw [hLog]
      refine streams_append.2 ⟨hStreams, fun k arg' hEq => ?_⟩
      cases hEq
      refine ⟨⟨j, host', by rw [hLast, hArgPort], ?_⟩, ?_, hOpen⟩
      · rw [hArgHost, strncpy_strncpy, hSame]
      · rw [hKey, hArgHas]
        split_ifs with hHas
        · rw [hArgKey hHas]
        · rfl

theorem restart_traced (env : Env) (i : Slot) (sock : Int) :
    Does (Keep Traced) (miplayTryRestartRtsp env i sock) := by
  intro w h
  simp only [miplayTryRestartRtsp, run_bind, run_get, run_ite, run_pure]
  split_ifs with hNone hBusy
  · exact h
  · exact h
  · obtain ⟨hPort, hHost⟩ := not_or.1 hNone
    obtain ⟨j, host, hLast, hSaved⟩ := h.target (by omega) hHost
    by_cases hGo : cstr w.rtsp.hostSaved = [] ∨ w.rtsp.portSaved ≤ 0 ∨ sock < 0
    · simpa [miplayStartRtspSession, hGo] using h
    · have hFree : (!false && w.regs.mediaSessionOpened && w.rtsp.task.isSome) = false := by
        simpa using hBusy
      obtain ⟨ok, w', hRun⟩ : ∃ ok w', (miplayStartRtspSession env i sock w.rtsp.hostSaved
          w.rtsp.portSaved w.keys.has w.keys.key false).run w = (ok, w') := ⟨_, _, rfl⟩
      obtain ⟨hNow, -, hLog⟩ := start_saved h.key h.streams
        ⟨j, host, hLast, by rw [hSaved, strncpy_strncpy]⟩
        (fun _ _ _ hEq => absurd hEq (h.started _ _ _)) hGo hFree hRun
      rw [hRun]
      refine ⟨hNow, fun _ _ _ hEq => ?_⟩
      rcases hLog with ⟨-, hLog⟩ | ⟨-, arg, hLog⟩
      · rw [hLog] at hEq
        exact h.started _ _ _ hEq
      · rw [hLog, List.getLast?_concat] at hEq
        cases hEq

/-- A port is found only with a host. -/
theorem wfdTarget_host {url : Bytes} (hNul : ∀ c ∈ url, c ≠ 0) (hPort : 0 < (wfdTarget url).2) :
    cstr (wfdTarget url).1 ≠ [] := by
  have hTake {n : Nat} (hPos : 0 < n) (hLe : n ≤ (url.drop 6).length) :
      cstr ((url.drop 6).take n) ≠ [] := by
    rw [cstr_eq_self fun c hMem => hNul c (List.mem_of_mem_drop (List.mem_of_mem_take hMem))]
    intro hNil
    have hLength := congrArg List.length hNil
    rw [List.length_take, List.length_nil] at hLength
    omega
  revert hPort
  simp only [wfdTarget, wfdTarget.viaQuery]
  repeat' split
  all_goals
    intro hPort
    first
    | exact absurd hPort (lt_irrefl _)
    | exact hTake (by omega) (by omega)

section Open

variable {env : Env} {i : Slot} {f : Frame} {h : Handler}

/-- The stream of an OPEN, from the target on. -/
theorem openTarget_traced {w : World} (hTraced : Traced w) {host : Bytes} {port : Int}
    (hHost : cstr host ≠ []) (hPort : 0 < port) (hSock : 0 ≤ f.sock) :
    Traced (w.after (do
      emit (.openSaved i (cstr host) port)
      if ← miplayStartRtspSession env i f.sock host port w.keys.has w.keys.key true then
        return .next h
      else
        let arg : RtspArg :=
          { host := host, port := port, clientSock := f.sock
            generation := (← get).rtsp.generation, hasStreamKey := w.keys.has
            streamKey := w.keys.key }
        emit (.rtspStarted i arg)
        return FrameEnd.inline (RtspRun.begin arg))) := by
  have hGo : ¬(cstr host = [] ∨ port ≤ 0 ∨ f.sock < 0) := by
    rintro (hNil | hNeg | hNeg)
    · exact hHost hNil
    · omega
    · omega
  let w₁ : World := { w with log := w.log ++ [.openSaved i (cstr host) port] }
  have hLast : lastTarget w₁.log = some (i, cstr host, port) := by
    simp [w₁, lastTarget, Op.receivedTarget]
  have hKey : (lastKey w₁.log).map Prod.snd = if w₁.keys.has then some w₁.keys.key else none := by
    rw [show w₁.log = w.log ++ [.openSaved i (cstr host) port] from rfl, lastKey_append rfl]
    exact hTraced.key
  have hStreams : Streams FromLast w₁.log :=
    streams_append.2 ⟨hTraced.streams, fun k arg hEq => by cases hEq⟩
  have hOpen (j : Slot) (host' : Bytes) (port' : Int)
      (hEq : w₁.log.getLast? = some (.openSaved j host' port')) : j = i := by
    rw [List.getLast?_concat] at hEq
    cases hEq
    rfl
  obtain ⟨ok, w', hRun⟩ : ∃ ok w',
      (miplayStartRtspSession env i f.sock host port w₁.keys.has w₁.keys.key true).run w₁ =
        (ok, w') := ⟨_, _, rfl⟩
  obtain ⟨hSaved, hKeys, hLog⟩ := start_saved hKey hStreams
    ⟨i, cstr host, hLast, (strncpy_cstr 64 host).symm⟩ hOpen hGo rfl hRun
  simp only [World.after, run_bind, run_emit, run_ite, run_get, run_pure]
  rw [show ({ w with log := w.log ++ [.openSaved i (cstr host) port] } : World) = w₁ from rfl,
    show w.keys = w₁.keys from rfl, hRun]
  rcases hLog with ⟨rfl, hLog⟩ | ⟨rfl, arg, hLog⟩
  · -- there is no task, and the run is inline
    refine traced_started hSaved
      ⟨⟨i, cstr host, by rw [hLog, hLast], (strncpy_cstr 64 host).symm⟩, ?_, ?_⟩
    · rw [hLog, hKey]
    · rw [hLog]
      exact hOpen
  · refine ⟨hSaved, fun _ _ _ hEq => ?_⟩
    rw [if_pos rfl, hLog, List.getLast?_concat] at hEq
    cases hEq

theorem openStream_traced {w : World} (hTraced : Traced w) {host : Bytes} {port : Int}
    (hHost : 0 < port → cstr host ≠ []) (hSock : 0 ≤ f.sock) :
    Traced (w.after (openStream env i f h w.keys host port)) := by
  -- the notify leaves the stream keys alone
  let R := Keep fun w' => Traced w' ∧ w'.keys = w.keys
  have hRules : SendRules env (.ctl i) i f.sock R :=
    .of_log (fun _ _ h => ⟨⟨⟨h.1.key, h.1.target, h.1.streams⟩, h.1.started⟩, h.2⟩)
      (fun w op hOp h => ⟨traced_blind.log w op (by cases op <;> first | exact id | exact hOp.elim)
        h.1, h.2⟩)
      (fun _ _ _ _ _ h => ⟨⟨⟨h.1.key, h.1.target, h.1.streams⟩, h.1.started⟩, h.2⟩)
      fun _ h => ⟨⟨⟨h.1.key, h.1.target, h.1.streams⟩, h.1.started⟩, h.2⟩
  have hStarted (w' : World) (hTraced : Traced w') (hKeys : w'.keys = w.keys) :
      Traced (w'.after (do
        if port ≤ 0 then return .next h
        emit (.openSaved i (cstr host) port)
        if ← miplayStartRtspSession env i f.sock host port w.keys.has w.keys.key true then
          return .next h
        else
          let arg : RtspArg :=
            { host := host, port := port, clientSock := f.sock
              generation := (← get).rtsp.generation, hasStreamKey := w.keys.has
              streamKey := w.keys.key }
          emit (.rtspStarted i arg)
          return FrameEnd.inline (RtspRun.begin arg))) := by
    by_cases hPort : port ≤ 0
    · simpa [World.after, hPort] using hTraced
    · rw [if_neg hPort, ← hKeys]
      exact openTarget_traced hTraced (hHost (by omega)) (by omega) hSock
  rw [World.after, openStream, run_bind, run_get]
  dsimp only
  split
  · have hNotified := notifyEmptyMediaInfo_does hRules w ⟨hTraced, rfl⟩
    exact hStarted _ hNotified.1 hNotified.2
  · exact hStarted w hTraced rfl

theorem handleOpenDevice_traced (hSock : 0 ≤ f.sock) :
    Does (Keep Traced) (handleOpenDevice env i f h) := by
  unfold handleOpenDevice
  split
  · exact Does.pure _
  · split
    · exact Does.pure _
    · rename_i plaintext _ start _
      refine (ack_does (traced_frame env (.ctl i) i f.sock).toSendRules _ _).bind fun _ =>
        Does.bind (fun _ h => ⟨⟨h.key, h.target, h.streams⟩, h.started⟩) fun _ =>
          Does.bind (fun _ h => ⟨⟨h.key, h.target, h.streams⟩, h.started⟩) fun _ =>
            Does.get_bind fun w hTraced => ?_
      exact openStream_traced hTraced (fun hPort => wfdTarget_host (cstr_nonzero _) hPort) hSock

end Open

theorem dispatch_traced {env : Env} {i : Slot} {f : Frame} {h : Handler} (hSock : 0 ≤ f.sock) :
    Does (Keep Traced) (dispatchFrame env i f h) := by
  have hFrame := traced_frame env (.ctl i) i f.sock
  by_cases hOuter : f.outer = 0x04
  · rw [dispatchFrame, if_pos hOuter]
    exact (handleAlone_does hFrame.toSwitchRules).bind fun _ => Does.pure _
  by_cases hOpen : f.cmd = cmdOpenDevice
  · rw [dispatchFrame, if_neg hOuter, if_pos hOpen]
    exact handleOpenDevice_traced hSock
  exact dispatchFrame_does hFrame
    { restart := fun _ => restart_traced env i f.sock
      streamKey := fun _ key iv _ h => traced_mirrorKey h i key iv
      authKey := fun _ _ _ h => ⟨⟨h.key, h.target, h.streams⟩, h.started⟩
      opened := fun hCmd => absurd hCmd hOpen
      stream := fun hCmd => absurd hCmd hOpen
      close := fun _ => traced_blind.closeFd _ _ }

-- ---------------------------------------------------------------------------
-- Every step
-- ---------------------------------------------------------------------------

/-- A slot in use has a descriptor. -/
structure Sockets (w : World) : Prop extends TaskTable w where
  inUse : ∀ i, (w.sess i).inUse → 0 ≤ (w.sess i).sock
  accepted : ∀ sock peerIp peerPort, w.tcp = .accepted sock peerIp peerPort → 0 ≤ sock

theorem Sockets.step {env : Env} {w w' : World} {a : Action} (h : Sockets w)
    (hStep : Step env w a w') : Sockets w' := by
  have hTable := h.toTaskTable.step hStep
  -- the rows, where none is entered
  have hRows (hRows : SameRows w w') (i : Slot) (hUse : (w'.sess i).inUse) :
      0 ≤ (w'.sess i).sock := by
    rw [hRows.inUse] at hUse
    rw [hRows.sock]
    exact h.inUse i hUse
  cases hStep.table h.toTaskTable with
  | same hSame =>
    exact ⟨hTable, hRows hSame.rows, by rw [hSame.tcp]; exact h.accepted⟩
  | task hRun hSame hCtl hTcp => exact ⟨hTable, hRows hSame, by rw [hTcp]; exact h.accepted⟩
  | told hCleaned hSame hCtl hTcp => exact ⟨hTable, hRows hSame, by rw [hTcp]; exact h.accepted⟩
  | @accept fd peerIp peerPort hAct hSame hCtl hTcp =>
    refine ⟨hTable, hRows hSame, fun sock ip port hEq => ?_⟩
    rw [hTcp] at hEq
    subst hAct
    cases hEq
    cases hStep with
    | accept _ hPos _ => exact hPos
  | @enter i sock peerIp peerPort hAct hTcp hFree hTo =>
    subst hTo
    refine ⟨hTable, fun j hUse => ?_, fun _ _ _ hEq => by cases hEq⟩
    by_cases hj : j = i
    · subst hj
      simpa [newSession] using h.accepted sock peerIp peerPort hTcp
    · simp only [Function.update_of_ne hj] at hUse ⊢
      exact h.inUse j hUse
  | reject hSame hCtl hIdle =>
    exact ⟨hTable, hRows hSame, fun _ _ _ hEq => absurd hEq (hIdle.2 _ _ _)⟩
  | start hTcp hSame hCtl hIdle =>
    exact ⟨hTable, hRows hSame, fun _ _ _ hEq => absurd hEq (hIdle.2 _ _ _)⟩
  | drop hTcp hSame hCtl hTcp' =>
    exact ⟨hTable, hRows hSame, fun _ _ _ hEq => by rw [hTcp'] at hEq; cases hEq⟩
  | @leave i hUse hSess hCount hBy =>
    refine ⟨hTable, fun j hInUse => ?_, fun sock ip port hEq => ?_⟩
    · by_cases hj : j = i
      · rw [hj, hSess, Function.update_self] at hInUse
        cases hInUse
      · rw [hSess, Function.update_of_ne hj] at hInUse ⊢
        exact h.inUse j hInUse
    · obtain ⟨-, -, hIdle⟩ | ⟨-, -, hTcp⟩ := hBy
      · exact absurd hEq (hIdle.2 _ _ _)
      · exact h.accepted sock ip port (hTcp ▸ hEq)

/-- What was received last is saved, and the slots have descriptors. -/
structure TracedInv (w : World) : Prop extends Sockets w, Traced w

theorem step_traced {env : Env} {w w' : World} {a : Action} (h : TracedInv w)
    (hStep : Step env w a w') : Traced w' := by
  by_cases hListener : a.Listener
  · exact traced_blind.listener (fun _ _ h => ⟨⟨h.key, h.target, h.streams⟩, h.started⟩)
      hStep hListener h.toTraced
  by_cases hControl : a.Control
  · exact traced_blind.step hStep hControl h.toTraced
  cases hStep with
  | @frame i hd fr n hCtl =>
    have hSock : 0 ≤ (openFrame env w i fr).2.sock := h.inUse i (h.serving i (by rw [hCtl]; simp))
    exact serveFrame_of_dispatch traced_blind (dispatch_traced hSock _) h.toTraced
  | @cleanup i =>
    exact ((traced_blind.cleanup (fun _ h => ⟨⟨h.key, h.target, h.streams⟩, h.started⟩) i).bind
      fun _ => traced_blind.setCtl _ _) w h.toTraced
  | inlineDone =>
    exact ((traced_blind.inlineReturn _).bind fun _ => traced_blind.setCtl _ _) w h.toTraced
  | @inline i r o hCtl hPc hMark hFits =>
    have hRun :=
      (traced_activity env (.ctl i)).rtspRunStep r hFits (fun _ _ _ => trivial) h.toTraced
    exact traced_blind.setCtl i _ _ hRun
  | rtspDone => exact ⟨⟨h.key, h.target, h.streams⟩, h.started⟩
  | @rtsp n r o hTask hPc hMark hFits =>
    have hRun :=
      (traced_activity env (.rtsp n)).rtspRunStep r hFits (fun _ _ _ => trivial) h.toTraced
    exact ⟨⟨hRun.key, hRun.target, hRun.streams⟩, hRun.started⟩
  | @media n m o =>
    exact (((traced_activity env (.media n)).mediaStep m o).bind
      fun _ => (traced_activity env (.media n)).mediaTask _ _) w h.toTraced
  | @image n t o =>
    exact (((traced_activity env (.image n)).imageStep t o).bind
      fun _ => (traced_activity env (.image n)).imageTask _ _) w h.toTraced
  | control =>
    exact traced_blind.control (fun _ _ => (traced_frame ..).toSwitchRules) _ _ w h.toTraced
  | setVolume => exact (traced_frame env .button 0 0).miplaySetVolume _ w h.toTraced
  | accept | alloc | reject | spawn | tcpRelease => exact absurd trivial hListener
  | _ => exact absurd trivial hControl

theorem TracedInv.initial (volume : Nat) : TracedInv (World.initial volume) where
  toTaskTable := TaskTable.initial volume
  inUse _ hUse := by cases hUse
  accepted _ _ _ hEq := by cases hEq
  key := rfl
  target hPort _ := absurd hPort (lt_irrefl _)
  streams n i arg hStart := by
    rw [show (World.initial volume).log = [] from rfl, List.getElem?_nil] at hStart
    cases hStart
  started _ _ _ hEq := by cases hEq

/-- **The streams of a run** have what was received last, on whichever connection. -/
theorem streams_along (env : Env) (volume : Nat) (as : List Action) :
    Along (step env) (fun _ _ w' => Streams FromLast w'.log)
      (World.initial volume) as := by
  have hAny : Along (step env) (fun _ _ _ => True) (World.initial volume) as :=
    Along.of_forall (fun _ _ _ _ => trivial) _ _
  refine Along.of_invariant (fun w a w' hInv hStep _ => ?_) (TracedInv.initial volume) hAny
  have hTraced := step_traced hInv (step_cases hStep)
  exact ⟨⟨hInv.toSockets.step (step_cases hStep), hTraced⟩, hTraced.streams⟩

theorem not_along_streams {env : Env} {volume : Nat} {as : List Action} {w : World} {n : Nat}
    {i : Slot} {arg : RtspArg} {P : List Op → Slot → RtspArg → Prop}
    (hRun : run (step env) (World.initial volume) as = some w)
    (hStart : w.log[n]?.bind Op.startedStream = some (i, arg)) (hNot : ¬P (w.log.take n) i arg) :
    ¬∀ env volume as,
      Along (step env) (fun _ _ w' => Streams P w'.log) (World.initial volume) as := by
  intro hAll
  have hEnd := (hAll env volume as).final (fun w => Streams P w.log) (fun _ _ _ h => h)
    (fun n i arg h => by
      rw [show (World.initial volume).log = [] from rfl, List.getElem?_nil] at h
      cases h) hRun
  exact hNot (hEnd n i arg hStart)

/-- A phone sends a stream key and opens a stream, and another one sends media information. -/
def companionStreamRun : List Action :=
  let key := Block.ofBytes (hexToLower Block.zero.toList)
  let streamKey := ascii
    "\x7b\"streamKey\":\"0123456789abcdef\",\"streamIV\":\"fedcba9876543210\"\x7d"
  let iv := (safetyEncrypt plainCrypto.aes true streamKey key key encryptBufSize).2
  let target := ascii "wfd://10.0.0.2:8554"
  let sealed := (safetyEncrypt plainCrypto.aes true target key iv encryptBufSize).1.getD []
  connectRun 54 ++ frameRun (frameOf 0 0x6C (containerOf streamKey)) ++
    frameRun (frameOf 0 0 sealed) ++
    [.accept 60 2 2, .alloc, .spawn, .enter 1, .greet 1 0 0, .recv 1 (frameOf 0 0x12 []), .frame 1]

/-- The stream of the other phone, and what had come over its connection. -/
def companionStream (log : List Op) : Option (Slot × Bool) × Option Block × Bool :=
  let n := log.findIdx fun op => op.startedStream.map Prod.fst = some 1
  ((log[n]?.bind Op.startedStream).map fun p => (p.1, p.2.hasStreamKey), ownKey 1 (log.take n),
    ((sinceGreeted 1 (log.take n)).filterMap Op.receivedTarget).any (·.1 = 1))

set_option maxRecDepth 100000 in
theorem companionStreamRun_stream :
    (run (step (Env.smooth plainCrypto)) (World.initial 50) companionStreamRun).map
      (fun w => companionStream w.log) = some (some (1, true), none, false) := by
  decide +kernel

/-- The stream has neither a target nor a key of its own connection. -/
theorem companionStream_used :
    (¬∀ env volume as,
      Along (step env) (fun _ _ w' => Streams OwnTarget w'.log) (World.initial volume) as) ∧
    ¬∀ env volume as,
      Along (step env) (fun _ _ w' => Streams OwnKey w'.log) (World.initial volume) as := by
  obtain ⟨w, hRun, hLog⟩ := Option.map_eq_some_iff.mp companionStreamRun_stream
  obtain ⟨hStart, hRest⟩ := Prod.mk.inj hLog
  obtain ⟨hKey, hTarget⟩ := Prod.mk.inj hRest
  obtain ⟨⟨i, arg⟩, hOp, hArg⟩ := Option.map_eq_some_iff.mp hStart
  obtain ⟨rfl, hHas⟩ := Prod.mk.inj hArg
  refine ⟨not_along_streams hRun hOp ?_, not_along_streams hRun hOp ?_⟩
  · rintro ⟨host, hMem, -⟩
    exact absurd (List.any_eq_false.1 hTarget _ hMem) (by simp)
  · intro hOwn
    rw [OwnKey, hKey, if_pos hHas] at hOwn
    cases hOwn

end EspMiplay.Miplay
