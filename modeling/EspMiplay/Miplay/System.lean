import EspMiplay.Miplay.Control

/-!
# The component as a transition system

The tasks of `miplay.c` side by side: the listener, up to three control tasks,
any number of RTSP, media and image tasks, and the local API calls. An
`Action` is one task's next uninterrupted piece of work together with what
comes from outside; `step` refuses it (`none`) where that task is not there or
is blocked.

- A control frame, `disconnect_cleanup`, `miplay_session_alloc` and
  `miplay_session_release` each hold `s_session_mux` and are one step each;
  `accept`, the close and the release of a slot are steps of their own, and so
  is the callback behind `disconnect_cleanup`.
- `World.sessionMux` is set only while an inline RTSP run keeps the mutex.
- A descriptor number handed out by `accept` or `socket` is any number that is
  not open at that moment.
-/

namespace EspMiplay.Miplay

/-! ## Local API calls -/

def keyNotify (key : String) : Bytes :=
  UInt8.ofNat (ascii key).length :: ascii key ++ [0x00, 0x01]

def putBe64 (n : Nat) : Bytes :=
  putBe32 (UInt32.ofNat (n / 4294967296)) ++ putBe32 (UInt32.ofNat (n % 4294967296))

/-- `(uint32_t)value` of a volume, at most 100. -/
def controlVolume (value : Int) : Nat := min (value.toNat % 4294967296) 100

/-- The body of a receiver control; `none` for an action it does not know. -/
def receiverControlBody (action : Bytes) (value : Int) : Option Bytes :=
  if action = ascii "pause" then some (keyNotify "key-pause")
  else if action = ascii "resume" ∨ action = ascii "play" then some (keyNotify "key-resume")
  else if action = ascii "seek" then
    some (8 :: ascii "key-seek" ++ 0x09 :: putBe64 value.toNat)
  else if action = ascii "volume" then
    some (6 :: ascii "volume" ++ 0x07 :: putBe32 (UInt32.ofNat (controlVolume value)))
  else if action = ascii "next" then some (keyNotify "key-next")
  else if action = ascii "prev" then some (keyNotify "key-prev")
  else none

def isResumeAction (action : Bytes) : Bool := action = ascii "resume" ∨ action = ascii "play"

/-- The frame of a receiver control, and the state it projects at once. -/
def emitReceiverControl (env : Env) (sock : Int) (action : Bytes) (value : Int) (body : Bytes) :
    M Unit := do
  if action = ascii "volume" then miplaySetVolume (controlVolume value)
  let sent ← sendEncryptedCmdAutoSeq env .button sock cmdNotify body
  if sent && (action = ascii "pause" || isResumeAction action) then
    let wire : Int := if action = ascii "pause" then 3 else 2
    miplayEmitMediaEvent
      { miplayMediaEventInit with
        status := wire
        deviceState := wire
        playerState := if action = ascii "pause" then .paused else .playing
        changed := { status := true, deviceState := true, playerState := true } }

/-- A receiver control on the session it is routed to. -/
def receiverControlOn (env : Env) (i : Slot) (action : Bytes) (value : Int) : M Unit := do
  miplaySessionLoad i
  let s := (← get).sess i
  if s.sock < 0 ∨ !s.inUse ∨ !s.regs.mediaSessionOpened ∨ !s.regs.hasSessionKey then return
  match receiverControlBody action value with
  | none => return
  | some body =>
    emitReceiverControl env s.sock action value body
    miplaySessionSave i

/-- The pause gate is set whether or not there is a session to tell. -/
def controlPauseGate (action : Bytes) : M Unit :=
  if action = ascii "pause" then miplaySetAudioPaused true
  else if isResumeAction action then miplaySetAudioPaused false
  else return

/-- `miplay_send_receiver_control`. -/
def miplaySendReceiverControl (env : Env) (action : Bytes) (value : Int) : M Unit := do
  controlPauseGate action
  match miplaySessionActive (← get) with
  | none => return
  | some i => receiverControlOn env i action value

/-- `miplay_send_media_info_query`; nothing in the source calls it. -/
def miplaySendMediaInfoQuery (env : Env) (sock : Int) : M Unit := do
  match miplaySessionFind (← get) sock with
  | none => return
  | some i =>
    miplaySessionLoad i
    let w ← get
    if sock ≥ 0 ∧ (w.sess i).inUse ∧ w.regs.hasSessionKey then
      let _ ← sendEncryptedCmdAutoSeq env .button sock cmdGetMediaInfo []
    miplaySessionSave i

/-! ## The control task -/

/-- First critical section of `handle_client`. -/
def enterClient (i : Slot) : M Unit := do
  miplaySessionLoad i
  modifyRegs fun r =>
    { r with
      notifySeq := 8
      reverseControlReady := false
      playSourceRegistered := false
      mediaSessionOpened := false }
  modify fun w =>
    { w with activeClientSock := (w.sess i).sock, activePeerIp := (w.sess i).peerIp }
  miplaySessionSave i

/-- Second critical section of `handle_client`: keys, challenge and DEVICE_ID. -/
def greetSession (env : Env) (i : Slot) (localIp : UInt32) (localPort : UInt16) : M Unit := do
  miplaySessionLoad i
  let s := (← get).sess i
  deriveSessionKey env s.peerIp s.peerPort localIp localPort
  generateAuthMsg env
  emit (.keyed i s.sock ((← get).connOf s.sock) (← get).regs.authKey)
  let _ ← miplaySendCmd env (.ctl i) s.sock cmdSafetyChallenge 4 (deviceIdDigits env)
  miplaySessionSave i

/-- Receive buffer and event come first; without them the task leaves. -/
def greetClient (env : Env) (i : Slot) (localIp : UInt32) (localPort : UInt16) : M Unit := do
  if !(← oracle env.heap) then setCtl i (some .leaving)
  else if !(← oracle env.heap) then setCtl i (some .leaving)
  else
    greetSession env i localIp localPort
    setCtl i (some (.serving Handler.initial))

/-- A frame is dispatched and taken off the buffer. -/
def serveFrame (env : Env) (i : Slot) (h : Handler) (frame : Bytes) (n : Nat) : M Unit := do
  match ← handleFrame env i h frame with
  | .next h' => setCtl i (some (.serving { h' with buf := h.buf.drop n }))
  | .inline r =>
    modify fun w => { w with sessionMux := some i }
    setCtl i (some (.inline r))

/-- The handler's way out behind an inline run. -/
def inlineReturn (i : Slot) : M Unit := do
  closeFd (.ctl i) ((← get).sess i).sock
  miplaySessionSave i
  modify fun w => { w with sessionMux := none }

/-! ## The listener -/

def tcpNext : M Unit := modify fun w => { w with tcp := if w.running then .accepting else .stopped }

def setTcp (t : TcpPc) : M Unit := modify fun w => { w with tcp := t }

def tcpAlloc (sock : Int) (peerIp : UInt32) (peerPort : UInt16) : M Unit := do
  match ← miplaySessionAlloc sock peerIp peerPort with
  | some i => setTcp (.creating i)
  | none => setTcp (.rejecting sock)

def tcpSpawn (env : Env) (i : Slot) : M Unit := do
  if ← oracle env.heap then
    setCtl i (some .created)
    tcpNext
  else
    closeFd .tcp ((← get).sess i).sock
    setTcp (.releasing i)

/-! ## Actions -/

inductive Action where
  | accept (fd : Int) (peerIp : UInt32) (peerPort : UInt16)
  | alloc
  | reject
  | spawn
  | tcpRelease
  | enter (i : Slot)
  | greet (i : Slot) (localIp : UInt32) (localPort : UInt16)
  | recv (i : Slot) (chunk : Bytes)
  | full (i : Slot)
  | skip (i : Slot)
  | frame (i : Slot)
  /-- `select` or `recv` failed, or the peer has closed -/
  | hangup (i : Slot)
  /-- `s_running` is seen false -/
  | quit (i : Slot)
  | cleanup (i : Slot)
  /-- `s_connected_cb(false)`, outside the mutexes -/
  | notify (i : Slot)
  | release (i : Slot)
  | inline (i : Slot) (o : Outcome)
  | rtsp (h : Nat) (o : Outcome)
  | media (h : Nat) (o : Outcome)
  | image (h : Nat) (o : Outcome)
  | control (action : Bytes) (value : Int)
  | query (sock : Int)
  | setVolume (percent : Nat)

/-- What may come from outside at a program point of an RTSP run. -/
def Outcome.fits (w : World) : RtspPc → Outcome → Prop
  | .socket attempt, .fd n => n < 0 ∨ w.kernel.fds n = none ∨ attempt ≥ 3 ∨ w.running = false
  | .socket attempt, _ => attempt ≥ 3 ∨ w.running = false
  | .imageSocket, .fd n => n < 0 ∨ w.kernel.fds n = none
  | .imageSocket, _ => False
  | .multiSocket, .fd n => n < 0 ∨ w.kernel.fds n = none
  | .multiSocket, _ => False
  | .recv, .data bytes _ => bytes ≠ [] ∧ bytes.length ≤ rtspBufSize - 1 - w.rtsp.buf.used.length
  | .keepRecv, .data bytes _ =>
    bytes ≠ [] ∧ bytes.length ≤ rtspBufSize - 1 - w.rtsp.buf.used.length
  | _, _ => True

instance (w : World) (pc : RtspPc) (o : Outcome) : Decidable (o.fits w pc) := by
  unfold Outcome.fits
  split <;> infer_instance

/-- `miplay_mark_media_session_closed` needs the mutex unless it returns at once. -/
def markBlocked (w : World) (generation : Nat) : Bool :=
  w.rtsp.generation == generation && w.sessionMux.isSome

/-- The world after a computation. -/
def World.after {α : Type} (w : World) (m : M α) : World := (m.run w).2

/-- One step of the whole component. -/
def step (env : Env) (w : World) : Action → Option World
  | .accept fd peerIp peerPort =>
    if w.tcp = .accepting ∧ 0 ≤ fd ∧ w.kernel.fds fd = none then
      some (w.after do
        openFd .tcp fd
        setTcp (.accepted fd peerIp peerPort))
    else none
  | .alloc =>
    match w.tcp with
    | .accepted sock peerIp peerPort =>
      if w.sessionMux = none then some (w.after (tcpAlloc sock peerIp peerPort)) else none
    | _ => none
  | .reject =>
    match w.tcp with
    | .rejecting sock =>
      some (w.after do
        closeFd .tcp sock
        tcpNext)
    | _ => none
  | .spawn =>
    match w.tcp with
    | .creating i => some (w.after (tcpSpawn env i))
    | _ => none
  | .tcpRelease =>
    match w.tcp with
    | .releasing i =>
      if w.sessionMux = none then
        some (w.after do
          miplaySessionRelease i
          tcpNext)
      else none
    | _ => none
  | .enter i =>
    match w.ctl i with
    | some .created =>
      if w.sessionMux = none then
        some (w.after do
          enterClient i
          setCtl i (some .entered))
      else none
    | _ => none
  | .greet i localIp localPort =>
    match w.ctl i with
    | some .entered =>
      if w.sessionMux = none then some (w.after (greetClient env i localIp localPort)) else none
    | _ => none
  | .recv i chunk =>
    match w.ctl i with
    | some (.serving h) =>
      if w.running ∧ frameMove h.buf = .wait ∧ chunk ≠ [] ∧
          chunk.length ≤ miplayRxBufLen - h.buf.length then
        some (w.after do
          useFd (.ctl i) ((← get).sess i).sock
          setCtl i (some (.serving { h with buf := h.buf ++ chunk })))
      else none
    | _ => none
  | .full i =>
    match w.ctl i with
    | some (.serving h) =>
      if w.running ∧ frameMove h.buf = .wait ∧ miplayRxBufLen ≤ h.buf.length then
        some (w.after (setCtl i (some (.serving { h with buf := [] }))))
      else none
    | _ => none
  | .skip i =>
    match w.ctl i with
    | some (.serving h) =>
      match frameMove h.buf with
      | .skip n => some (w.after (setCtl i (some (.serving { h with buf := h.buf.drop n }))))
      | _ => none
    | _ => none
  | .frame i =>
    match w.ctl i with
    | some (.serving h) =>
      match frameMove h.buf with
      | .take fr n =>
        if w.sessionMux = none then some (w.after (serveFrame env i h fr n)) else none
      | _ => none
    | _ => none
  | .hangup i =>
    match w.ctl i with
    | some (.serving h) =>
      if w.running ∧ frameMove h.buf = .wait then
        some (w.after do
          useFd (.ctl i) ((← get).sess i).sock
          setCtl i (some .leaving))
      else none
    | _ => none
  | .quit i =>
    match w.ctl i with
    | some (.serving h) =>
      if w.running = false ∧ frameMove h.buf = .wait then
        some (w.after (setCtl i (some .leaving)))
      else none
    | _ => none
  | .cleanup i =>
    match w.ctl i with
    | some .leaving =>
      if w.sessionMux = none then
        some (w.after do
          let notify ← disconnectCleanup i
          setCtl i (some (.cleaned notify)))
      else none
    | _ => none
  | .notify i =>
    match w.ctl i with
    | some (.cleaned true) =>
      some (w.after do
        emit (.connectedCb false)
        setCtl i (some (.cleaned false)))
    | _ => none
  | .release i =>
    match w.ctl i with
    | some (.cleaned false) =>
      if w.sessionMux = none then
        some (w.after do
          miplaySessionRelease i
          setCtl i none)
      else none
    | _ => none
  | .inline i o =>
    match w.ctl i with
    | some (.inline r) =>
      if r.pc = .done then
        some (w.after do
          inlineReturn i
          setCtl i (some .leaving))
      else if r.pc = .markClosed ∧ markBlocked w r.arg.generation then none
      else if o.fits w r.pc then
        some (w.after do
          let r' ← rtspRunStep env (.ctl i) r o
          setCtl i (some (.inline r')))
      else none
    | _ => none
  | .rtsp h o =>
    match w.rtspTasks h with
    | some r =>
      if r.pc = .done then
        some (w.after do
          modifyRtsp fun s => { s with task := none }
          setRtspTask h none)
      else if r.pc = .markClosed ∧ markBlocked w r.arg.generation then none
      else if o.fits w r.pc then
        some (w.after do
          let r' ← rtspRunStep env (.rtsp h) r o
          setRtspTask h (some r'))
      else none
    | none => none
  | .media h o =>
    match w.mediaTasks h with
    | some m =>
      if m.pc = .markClosed ∧ markBlocked w m.generation then none
      else
        some (w.after do
          let m' ← mediaStep env h m o
          setMediaTask h m')
    | none => none
  | .image h o =>
    match w.imageTasks h with
    | some t =>
      some (w.after do
        let t' ← imageStep h t o
        setImageTask h t')
    | none => none
  | .control action value =>
    if w.sessionMux = none then some (w.after (miplaySendReceiverControl env action value))
    else none
  | .query sock =>
    if w.sessionMux = none then some (w.after (miplaySendMediaInfoQuery env sock)) else none
  | .setVolume percent => some (w.after (miplaySetVolume percent))

/-! ## The cases of a step

`Step` says the same as `step`, with one constructor for each way an action can
go; `step_cases` is the inversion every invariant proof starts from. -/

inductive Step (env : Env) (w : World) : Action → World → Prop where
  | accept {fd : Int} {peerIp : UInt32} {peerPort : UInt16} (hTcp : w.tcp = .accepting)
      (hPos : 0 ≤ fd) (hFree : w.kernel.fds fd = none) :
      Step env w (.accept fd peerIp peerPort) (w.after do
        openFd .tcp fd
        setTcp (.accepted fd peerIp peerPort))
  | alloc {sock : Int} {peerIp : UInt32} {peerPort : UInt16}
      (hTcp : w.tcp = .accepted sock peerIp peerPort) (hMux : w.sessionMux = none) :
      Step env w .alloc (w.after (tcpAlloc sock peerIp peerPort))
  | reject {sock : Int} (hTcp : w.tcp = .rejecting sock) :
      Step env w .reject (w.after do
        closeFd .tcp sock
        tcpNext)
  | spawn {i : Slot} (hTcp : w.tcp = .creating i) : Step env w .spawn (w.after (tcpSpawn env i))
  | tcpRelease {i : Slot} (hTcp : w.tcp = .releasing i) (hMux : w.sessionMux = none) :
      Step env w .tcpRelease (w.after do
        miplaySessionRelease i
        tcpNext)
  | enter {i : Slot} (hCtl : w.ctl i = some .created) (hMux : w.sessionMux = none) :
      Step env w (.enter i) (w.after do
        enterClient i
        setCtl i (some .entered))
  | greet {i : Slot} {localIp : UInt32} {localPort : UInt16} (hCtl : w.ctl i = some .entered)
      (hMux : w.sessionMux = none) :
      Step env w (.greet i localIp localPort) (w.after (greetClient env i localIp localPort))
  | recv {i : Slot} {h : Handler} {chunk : Bytes} (hCtl : w.ctl i = some (.serving h))
      (hRun : w.running = true) (hMove : frameMove h.buf = .wait) (hChunk : chunk ≠ [])
      (hSpace : chunk.length ≤ miplayRxBufLen - h.buf.length) :
      Step env w (.recv i chunk) (w.after do
        useFd (.ctl i) ((← get).sess i).sock
        setCtl i (some (.serving { h with buf := h.buf ++ chunk })))
  | full {i : Slot} {h : Handler} (hCtl : w.ctl i = some (.serving h))
      (hRun : w.running = true) (hMove : frameMove h.buf = .wait)
      (hFull : miplayRxBufLen ≤ h.buf.length) :
      Step env w (.full i) (w.after (setCtl i (some (.serving { h with buf := [] }))))
  | skip {i : Slot} {h : Handler} {n : Nat} (hCtl : w.ctl i = some (.serving h))
      (hMove : frameMove h.buf = .skip n) :
      Step env w (.skip i)
        (w.after (setCtl i (some (.serving { h with buf := h.buf.drop n }))))
  | frame {i : Slot} {h : Handler} {fr : Bytes} {n : Nat} (hCtl : w.ctl i = some (.serving h))
      (hMove : frameMove h.buf = .take fr n) (hMux : w.sessionMux = none) :
      Step env w (.frame i) (w.after (serveFrame env i h fr n))
  | hangup {i : Slot} {h : Handler} (hCtl : w.ctl i = some (.serving h))
      (hRun : w.running = true) (hMove : frameMove h.buf = .wait) :
      Step env w (.hangup i) (w.after do
        useFd (.ctl i) ((← get).sess i).sock
        setCtl i (some .leaving))
  | quit {i : Slot} {h : Handler} (hCtl : w.ctl i = some (.serving h))
      (hRun : w.running = false) (hMove : frameMove h.buf = .wait) :
      Step env w (.quit i) (w.after (setCtl i (some .leaving)))
  | cleanup {i : Slot} (hCtl : w.ctl i = some .leaving) (hMux : w.sessionMux = none) :
      Step env w (.cleanup i) (w.after do
        let notify ← disconnectCleanup i
        setCtl i (some (.cleaned notify)))
  | notify {i : Slot} (hCtl : w.ctl i = some (.cleaned true)) :
      Step env w (.notify i) (w.after do
        emit (.connectedCb false)
        setCtl i (some (.cleaned false)))
  | release {i : Slot} (hCtl : w.ctl i = some (.cleaned false)) (hMux : w.sessionMux = none) :
      Step env w (.release i) (w.after do
        miplaySessionRelease i
        setCtl i none)
  | inlineDone {i : Slot} {r : RtspRun} {o : Outcome} (hCtl : w.ctl i = some (.inline r))
      (hPc : r.pc = .done) :
      Step env w (.inline i o) (w.after do
        inlineReturn i
        setCtl i (some .leaving))
  | inline {i : Slot} {r : RtspRun} {o : Outcome} (hCtl : w.ctl i = some (.inline r))
      (hPc : r.pc ≠ .done) (hMark : ¬(r.pc = .markClosed ∧ markBlocked w r.arg.generation))
      (hFits : o.fits w r.pc) :
      Step env w (.inline i o) (w.after do
        let r' ← rtspRunStep env (.ctl i) r o
        setCtl i (some (.inline r')))
  | rtspDone {h : Nat} {r : RtspRun} {o : Outcome} (hTask : w.rtspTasks h = some r)
      (hPc : r.pc = .done) :
      Step env w (.rtsp h o) (w.after do
        modifyRtsp fun s => { s with task := none }
        setRtspTask h none)
  | rtsp {h : Nat} {r : RtspRun} {o : Outcome} (hTask : w.rtspTasks h = some r)
      (hPc : r.pc ≠ .done) (hMark : ¬(r.pc = .markClosed ∧ markBlocked w r.arg.generation))
      (hFits : o.fits w r.pc) :
      Step env w (.rtsp h o) (w.after do
        let r' ← rtspRunStep env (.rtsp h) r o
        setRtspTask h (some r'))
  | media {h : Nat} {m : MediaRun} {o : Outcome} (hTask : w.mediaTasks h = some m)
      (hMark : ¬(m.pc = .markClosed ∧ markBlocked w m.generation)) :
      Step env w (.media h o) (w.after do
        let m' ← mediaStep env h m o
        setMediaTask h m')
  | image {h : Nat} {t : ImageRun} {o : Outcome} (hTask : w.imageTasks h = some t) :
      Step env w (.image h o) (w.after do
        let t' ← imageStep h t o
        setImageTask h t')
  | control {action : Bytes} {value : Int} (hMux : w.sessionMux = none) :
      Step env w (.control action value) (w.after (miplaySendReceiverControl env action value))
  | query {sock : Int} (hMux : w.sessionMux = none) :
      Step env w (.query sock) (w.after (miplaySendMediaInfoQuery env sock))
  | setVolume {percent : Nat} : Step env w (.setVolume percent) (w.after (miplaySetVolume percent))

theorem step_cases {env : Env} {w w' : World} {a : Action} (h : step env w a = some w') :
    Step env w a w' := by
  -- every branch of `step` is a guard and a result, or `none`
  cases a with
  | hangup i =>
    simp only [step] at h
    repeat' split at h
    all_goals cases h
    exact .hangup ‹_› (by grind) (by grind)
  | quit i =>
    simp only [step] at h
    repeat' split at h
    all_goals cases h
    exact .quit ‹_› (by grind) (by grind)
  | inline i o =>
    simp only [step] at h
    repeat' split at h
    all_goals cases h
    · exact .inlineDone ‹_› ‹_›
    · exact .inline ‹_› ‹_› ‹_› ‹_›
  | rtsp i o =>
    simp only [step] at h
    repeat' split at h
    all_goals cases h
    · exact .rtspDone ‹_› ‹_›
    · exact .rtsp ‹_› ‹_› ‹_› ‹_›
  | _ =>
    simp only [step] at h
    repeat' split at h
    all_goals cases h
    all_goals constructor <;> grind

/-! ## Runs -/

/-- The state `miplay_init` leaves. -/
def World.initial (volume : Nat) : World where
  regs := Regs.cleared
  sess := fun _ => Session.zero
  sessionCount := 0
  activeClientSock := -1
  activePeerIp := 0
  connected := false
  running := true
  media := ⟨[], [], [], [], [], [], 0, 0, 0, 0⟩
  mediaPaused := false
  volumePercent := min volume 100
  hint := { lastMs := -1, lastRxUs := 0, generation := 0, stalledTicks := 0 }
  infoQueryLastUs := 0
  keys := { key := Block.zero, iv := Block.zero, has := false, authKey := [], hasAuth := false }
  rtsp :=
    { generation := 0, hostSaved := [], portSaved := 0, restartPending := false, task := none
      buf := { allocated := false, used := [] }, imageSock := -1, multiSock := -1
      imagePort := 0, multiPort := 0 }
  kernel := { fds := fun _ => none, nextConn := 0 }
  tcp := .accepting
  ctl := fun _ => none
  sessionMux := none
  rtspTasks := fun _ => none
  mediaTasks := fun _ => none
  imageTasks := fun _ => none
  nextTask := 0
  tick := 0
  log := []

/-- Every allocation and every send succeeds, time stands still, and nothing lies
behind a payload. -/
def Env.smooth (crypto : Crypto) : Env :=
  { crypto with
    heap := fun _ => true
    send := fun _ => true
    clock := fun _ => 0
    random := fun _ => 0
    tail := fun _ => []
    appVolume := fun _ => 50
    mac := List.Vector.replicate 6 0
    deviceId := [] }

/-- AES that leaves every block as it is, and digests that are all zero. -/
def plainCrypto : Crypto where
  aes := fun _ => Equiv.refl Block
  md5 := fun _ => Block.zero
  sha256 := fun _ => List.Vector.replicate 32 0

/-- A received frame, under sequence number 1. -/
def frameOf (outer sub : UInt8) (payload : Bytes) : Bytes :=
  [0x24, outer, sub, 0, 1] ++ putBe32 (UInt32.ofNat payload.length) ++ payload

/-- What a phone seals under key and IV of a session whose digests are all zero. -/
def containerOf (plaintext : Bytes) : Bytes :=
  let key := Block.ofBytes (hexToLower Block.zero.toList)
  (safetyEncrypt plainCrypto.aes true plaintext key key encryptBufSize).1.getD []

/-- A phone connects as slot 0 and is greeted. -/
def connectRun (fd : Int) : List Action :=
  [.accept fd 1 1, .alloc, .spawn, .enter 0, .greet 0 0 0]

/-- One frame of slot 0, received in one piece. -/
def frameRun (frame : Bytes) : List Action := [.recv 0 frame, .frame 0]

end EspMiplay.Miplay
