import EspMiplay.Miplay.SafetyConversation

/-!
# State of the MiPlay component

The file-scope variables of `miplay.c` that the control, RTSP, media and image
tasks share, the tasks themselves, and the kernel's descriptor table.

- `Regs` are the process-wide registers that `miplay_session_load` and
  `miplay_session_save` swap in and out; a `Session` is one slot of
  `s_sessions` and holds a copy of them.
- `Kernel` is the descriptor table: which connection a descriptor number
  stands for. Connection numbers are never reused, descriptor numbers are.
- `World.log` is a ghost: what was sent, decrypted, opened, closed and started,
  in order. No step reads it.
- `Env` is what the component does not decide: the ciphers and digests of
  mbedTLS, whether an allocation or a `send` succeeds, the clock, the random
  numbers, and the bytes that happen to lie behind a payload. Each use
  advances `World.tick`, so a run sees any sequence of outcomes.
-/

namespace EspMiplay.Miplay

/-! ## What the environment decides -/

/-- mbedTLS: the block cipher and the digests. -/
structure Crypto where
  aes : Aes
  md5 : Bytes → Block
  sha256 : Bytes → List.Vector UInt8 32

structure Env extends Crypto where
  /-- the `n`-th allocation or task creation succeeds -/
  heap : Nat → Bool
  /-- the `n`-th frame is accepted whole by the socket, if it is open -/
  send : Nat → Bool
  /-- `esp_timer_get_time` -/
  clock : Nat → Int
  /-- `esp_random` -/
  random : Nat → UInt32
  /-- memory behind a buffer that is read as a C string -/
  tail : Nat → Bytes
  /-- the volume the application sets when it is told of a connection -/
  appVolume : Nat → Nat
  /-- `s_mac` -/
  mac : List.Vector UInt8 6
  /-- `s_device_id` -/
  deviceId : Bytes

/-! ## Sessions -/

/-- The registers swapped by `miplay_session_load` / `miplay_session_save`. -/
structure Regs where
  aesKey : Block
  encryptIv : Block
  decryptIv : Block
  authKey : Bytes
  authMsg : Bytes
  hasSessionKey : Bool
  notifySeq : Nat
  reverseControlReady : Bool
  playSourceRegistered : Bool
  mediaSessionOpened : Bool
  deriving DecidableEq

/-- All bytes zero, every flag off. -/
def Regs.cleared : Regs where
  aesKey := Block.zero
  encryptIv := Block.zero
  decryptIv := Block.zero
  authKey := List.replicate 33 0
  authMsg := List.replicate 33 0
  hasSessionKey := false
  notifySeq := 0
  reverseControlReady := false
  playSourceRegistered := false
  mediaSessionOpened := false

/-- `miplay_session_t`. -/
structure Session where
  inUse : Bool
  sock : Int
  peerIp : UInt32
  peerPort : UInt16
  regs : Regs
  mediaInfoNotifySent : Bool
  deriving DecidableEq

/-- `memset(slot, 0, sizeof(*slot))`. -/
def Session.zero : Session where
  inUse := false
  sock := 0
  peerIp := 0
  peerPort := 0
  regs := Regs.cleared
  mediaInfoNotifySent := false

/-- An index into `s_sessions[MIPLAY_MAX_CONTROL_SESSIONS]`. -/
abbrev Slot := Fin 3

instance neZeroSlots : @NeZero Nat Zero.ofOfNat0 3 := ⟨Nat.succ_ne_zero 2⟩

/-! ## Media -/

/-- `MIPLAY_PLAYER_STATE_*`. -/
inductive PlayerState where
  | unknown
  | stopped
  | playing
  | paused
  deriving DecidableEq, Repr

/-- The `MIPLAY_MEDIA_CHANGED_*` bits. -/
structure Changed where
  id : Bool := false
  audioId : Bool := false
  title : Bool := false
  artist : Bool := false
  album : Bool := false
  coverUrl : Bool := false
  duration : Bool := false
  position : Bool := false
  status : Bool := false
  deviceState : Bool := false
  playerState : Bool := false
  deriving DecidableEq, Repr

/-- `changed != 0` -/
def Changed.any (c : Changed) : Bool :=
  c.id || c.audioId || c.title || c.artist || c.album || c.coverUrl || c.duration ||
    c.position || c.status || c.deviceState || c.playerState

/-- `miplay_media_event_t`; texts are the C strings without their NUL. -/
structure MediaEvent where
  changed : Changed
  id : Bytes
  audioId : Bytes
  title : Bytes
  artist : Bytes
  album : Bytes
  coverUrl : Bytes
  durationMs : Int
  positionMs : Int
  status : Int
  deviceState : Int
  playerState : PlayerState
  deriving DecidableEq

/-- The device snapshot `s_media_*`. -/
structure Media where
  id : Bytes
  audioId : Bytes
  title : Bytes
  artist : Bytes
  album : Bytes
  coverUrl : Bytes
  duration : Nat
  position : Nat
  status : Int
  deviceState : Int
  deriving DecidableEq

/-- `s_position_hint_*`. -/
structure PositionHint where
  lastMs : Int
  lastRxUs : Int
  generation : Nat
  stalledTicks : Nat
  deriving DecidableEq

/-- What SetMirrorKey leaves: `s_stream_key`, `s_stream_iv`, `s_mirror_auth_key`. -/
structure StreamKeys where
  key : Block
  iv : Block
  has : Bool
  authKey : Bytes
  hasAuth : Bool
  deriving DecidableEq

/-! ## RTSP, media and image tasks -/

/-- `s_rtsp_buf` and `s_rtsp_buf_used`: whether the buffer is allocated, and the
bytes in use. -/
structure RtspBuf where
  allocated : Bool
  used : Bytes
  deriving DecidableEq

/-- Process-wide variables of the media side. -/
structure Rtsp where
  generation : Nat
  hostSaved : Bytes
  portSaved : Int
  restartPending : Bool
  task : Option Nat
  buf : RtspBuf
  imageSock : Int
  multiSock : Int
  imagePort : Nat
  multiPort : Nat
  deriving DecidableEq

/-- `rtsp_task_arg_t`. -/
structure RtspArg where
  host : Bytes
  port : Int
  clientSock : Int
  generation : Nat
  hasStreamKey : Bool
  streamKey : Block
  deriving DecidableEq

/-- Where an RTSP run stands: the program points of `miplay_rtsp_run` between
which other tasks can get in, and the end of `miplay_rtsp_task_wrapper`. -/
inductive RtspPc where
  /-- `rtsp_read_msg_reset()` on entry -/
  | start
  /-- `socket()` of the given attempt -/
  | socket (attempt : Nat)
  /-- `connect()` on the new socket -/
  | connect (attempt : Nat)
  /-- headers and body buffers, then `rtsp_read_msg_reset()` -/
  | buffers
  /-- top of the handshake loop: the generation is looked at -/
  | loop
  /-- inside `rtsp_read_msg`, before it looks at the shared buffer -/
  | read
  /-- blocked in `recv` inside `rtsp_read_msg` -/
  | recv
  /-- the data sockets of a capability GET_PARAMETER -/
  | imageSocket
  | multiSocket
  | imageConnect
  | multiConnect
  | imageTask
  /-- the handshake loop is left: start the media task, if it is playing -/
  | launch
  /-- keepalive loop -/
  | keepRead
  | keepRecv
  /-- `rtsp_cleanup`, one statement at a time -/
  | closeRtsp
  | closeImage
  | closeMulti
  | clearPorts
  | markClosed
  | checkPending
  | setPending
  /-- the run returns; in the wrapper, `s_rtsp_task = NULL` -/
  | done
  deriving DecidableEq

/-- One activation of `miplay_rtsp_run`. -/
structure RtspRun where
  arg : RtspArg
  pc : RtspPc
  sock : Int
  state : Nat
  cseq : Int
  sentOptions : Bool
  cseqOfOptions : Int
  cseqOfSetup : Int
  cseqOfPlay : Int
  /-- the task's `errno` is EAGAIN -/
  errAgain : Bool
  /-- `recv` was called for a body -/
  inBody : Bool
  deriving DecidableEq

/-- Where the media task stands. -/
inductive MediaPc where
  /-- `s_media_start_cb(true)` -/
  | start
  | alloc
  /-- top of the receive loop: the pause gate is looked at -/
  | loop
  /-- `recv` of RTP data; the generation is looked at before each -/
  | recv
  /-- `m_cleanup`, one statement at a time -/
  | stop
  | markClosed
  | emitStopped
  | closeMedia
  | closeRtsp
  | closeImage
  | clearPorts
  deriving DecidableEq

/-- `media_task_arg_t` and the local state of `media_receive_task`. -/
structure MediaRun where
  mediaSock : Int
  clientSock : Int
  rtspSock : Int
  generation : Nat
  hasStreamKey : Bool
  streamKey : Block
  pc : MediaPc
  playingReported : Bool
  wasPausedSnapshot : Bool
  deriving DecidableEq

/-- `image_drain_arg_t`; `closing` once the receive loop is left. -/
structure ImageRun where
  sock : Int
  generation : Nat
  closing : Bool
  deriving DecidableEq

/-! ## Control tasks -/

/-- Local variables of `handle_client`. -/
structure Handler where
  buf : Bytes
  authChallengeSent : Bool
  pendingAckValid : Bool
  pendingAckHex : Bytes
  pendingAckSeq : UInt16
  deriving DecidableEq

def Handler.initial : Handler where
  buf := []
  authChallengeSent := false
  pendingAckValid := false
  pendingAckHex := []
  pendingAckSeq := 0

/-- Where the control task of a slot stands. -/
inductive CtlPc where
  /-- the task is created and has not entered `handle_client` -/
  | created
  /-- after the first critical section -/
  | entered
  /-- in the receive loop -/
  | serving (h : Handler)
  /-- the loop is left; `disconnect_cleanup` is next -/
  | leaving
  /-- inside the inline fallback, holding `s_session_mux` -/
  | inline (r : RtspRun)
  /-- the mutexes of `disconnect_cleanup` are given back; the application may still
  have to be told, then `miplay_session_release` is next -/
  | cleaned (notify : Bool)
  deriving DecidableEq

/-- Where `miplay_tcp_task` stands. -/
inductive TcpPc where
  /-- blocked in `accept` -/
  | accepting
  | accepted (sock : Int) (peerIp : UInt32) (peerPort : UInt16)
  /-- no slot was free -/
  | rejecting (sock : Int)
  | creating (slot : Slot)
  /-- the control task could not be created and the socket is closed -/
  | releasing (slot : Slot)
  | stopped
  deriving DecidableEq

/-! ## Kernel and ghost log -/

/-- Never reused, unlike descriptor numbers. -/
abbrev Conn := Nat

structure Kernel where
  fds : Int → Option Conn
  nextConn : Conn

/-- How a frame on the control channel was sent. -/
inductive Sealing where
  | plain
  /-- SafetyData under `key`, starting from `iv` -/
  | sealed (key iv iv' : Block) (plaintext : Bytes)

/-- Who uses a descriptor; `button` is the task of a local control. -/
inductive Owner where
  | tcp
  | button
  | ctl (slot : Slot)
  | rtsp (handle : Nat)
  | media (handle : Nat)
  | image (handle : Nat)
  deriving DecidableEq

inductive Op where
  /-- a descriptor comes into being, by `accept` or `socket` -/
  | opened (who : Owner) (fd : Int) (conn : Conn)
  /-- `close(fd)`, and the connection the number stood for -/
  | closed (who : Owner) (fd : Int) (conn : Option Conn)
  /-- `recv` or `send` on a descriptor -/
  | used (who : Owner) (fd : Int) (conn : Option Conn)
  /-- a whole control frame handed to the socket; `auto` for an automatic number -/
  | frame (fd : Int) (conn : Option Conn) (cmd seq : UInt16) (payload : Bytes) (how : Sealing)
      (auto : Bool)
  /-- a received SafetyData container was run through `safety_decrypt` -/
  | decrypted (slot : Slot) (key iv iv' : Block) (data : Bytes)
  /-- `s_auth_key` of a connection is derived -/
  | keyed (slot : Slot) (fd : Int) (conn : Option Conn) (authKey : Bytes)
  | openSaved (slot : Slot) (host : Bytes) (port : Int)
  | mirrorKey (slot : Slot) (key : Block)
  | rtspStarted (slot : Slot) (arg : RtspArg)
  | mediaCb (e : MediaEvent)
  | connectedCb (connected : Bool)
  | volChangedCb (vol : Nat)
  | mediaStartCb (start : Bool)
  | nvsSave (vol : Nat)

/-! ## The world -/

structure World where
  regs : Regs
  sess : Slot → Session
  sessionCount : Nat
  activeClientSock : Int
  activePeerIp : UInt32
  connected : Bool
  running : Bool
  media : Media
  mediaPaused : Bool
  volumePercent : Nat
  hint : PositionHint
  infoQueryLastUs : Int
  keys : StreamKeys
  rtsp : Rtsp
  kernel : Kernel
  tcp : TcpPc
  ctl : Slot → Option CtlPc
  /-- the slot whose inline fallback holds `s_session_mux` -/
  sessionMux : Option Slot
  rtspTasks : Nat → Option RtspRun
  mediaTasks : Nat → Option MediaRun
  imageTasks : Nat → Option ImageRun
  nextTask : Nat
  tick : Nat
  log : List Op

abbrev M := StateM World

/-! ## Oracles and the log -/

/-- The next outcome of an oracle. -/
def oracle {α : Type} (f : Nat → α) : M α := do
  let w ← get
  set { w with tick := w.tick + 1 }
  return f w.tick

def emit (op : Op) : M Unit := modify fun w => { w with log := w.log ++ [op] }

/-! ## Tasks -/

def setCtl (i : Slot) (pc : Option CtlPc) : M Unit :=
  modify fun w => { w with ctl := Function.update w.ctl i pc }

def setRtspTask (h : Nat) (t : Option RtspRun) : M Unit :=
  modify fun w => { w with rtspTasks := Function.update w.rtspTasks h t }

def setMediaTask (h : Nat) (t : Option MediaRun) : M Unit :=
  modify fun w => { w with mediaTasks := Function.update w.mediaTasks h t }

def setImageTask (h : Nat) (t : Option ImageRun) : M Unit :=
  modify fun w => { w with imageTasks := Function.update w.imageTasks h t }

/-- The handle of a new task. -/
def newTask : M Nat := do
  let w ← get
  set { w with nextTask := w.nextTask + 1 }
  return w.nextTask

/-! ## Running the primitives -/

section Run

variable (w : World)

@[simp high] theorem run_pure {α : Type} (a : α) : (pure a : M α).run w = (a, w) := (rfl)

@[simp high] theorem run_bind {α β : Type} (m : M α) (f : α → M β) :
    (m >>= f).run w = (f (m.run w).1).run (m.run w).2 := (rfl)

@[simp high] theorem run_map {α β : Type} (m : M α) (f : α → β) :
    (f <$> m).run w = (f (m.run w).1, (m.run w).2) := (rfl)

@[simp high] theorem run_get : (get : M World).run w = (w, w) := (rfl)

@[simp high] theorem run_set (w' : World) : (set w' : M Unit).run w = ((), w') := (rfl)

@[simp high] theorem run_modify (f : World → World) : (modify f : M Unit).run w = ((), f w) := (rfl)

@[simp high] theorem run_ite {α : Type} {c : Prop} [Decidable c] (m n : M α) :
    (if c then m else n).run w = if c then m.run w else n.run w := by
  split <;> rfl

@[simp high] theorem run_oracle {α : Type} (f : Nat → α) :
    (oracle f).run w = (f w.tick, { w with tick := w.tick + 1 }) := (rfl)

@[simp high] theorem run_emit (op : Op) :
    (emit op).run w = ((), { w with log := w.log ++ [op] }) := (rfl)

@[simp high] theorem run_setCtl (i : Slot) (pc : Option CtlPc) :
    (setCtl i pc).run w = ((), { w with ctl := Function.update w.ctl i pc }) := (rfl)

@[simp high] theorem run_setRtspTask (h : Nat) (t : Option RtspRun) :
    (setRtspTask h t).run w = ((), { w with rtspTasks := Function.update w.rtspTasks h t }) := (rfl)

@[simp high] theorem run_setMediaTask (h : Nat) (t : Option MediaRun) :
    (setMediaTask h t).run w = ((), { w with mediaTasks := Function.update w.mediaTasks h t }) := (rfl)

@[simp high] theorem run_setImageTask (h : Nat) (t : Option ImageRun) :
    (setImageTask h t).run w = ((), { w with imageTasks := Function.update w.imageTasks h t }) := (rfl)

@[simp high] theorem run_newTask :
    newTask.run w = (w.nextTask, { w with nextTask := w.nextTask + 1 }) := (rfl)

end Run

end EspMiplay.Miplay
