import EspMiplay.Miplay.RtspMessage
import EspMiplay.Miplay.Session

/-!
# The RTSP, media and image tasks

`miplay_rtsp_run` (in its task, or inline in a control task),
`media_receive_task` and `image_drain_task`, cut into steps at the points where
another task can get in. A step does what the source does between two such
points; what comes from outside (the result of `socket`, `connect`, `recv`) is
its `Outcome`.

The texts of the RTSP requests and responses are left out: a `send` on the RTSP
socket is only recorded as a use of that descriptor.
-/

namespace EspMiplay.Miplay

inductive Outcome where
  /-- nothing comes from outside -/
  | go
  /-- `socket` returned this -/
  | fd (n : Int)
  /-- `connect` succeeded; the local ports of the two data sockets -/
  | connected (imagePort multiPort : Nat)
  /-- `connect` failed -/
  | refused
  /-- `recv` delivered bytes; for the media task, whether they complete a packet -/
  | data (bytes : Bytes) (packet : Bool)
  /-- for the media task: `recv` completed a header that is none of a packet -/
  | badHeader
  /-- `recv` timed out (EAGAIN) -/
  | timeout
  /-- `recv` returned 0 -/
  | closed
  /-- `recv` failed otherwise -/
  | error
  deriving DecidableEq

def modifyRtsp (f : Rtsp → Rtsp) : M Unit := modify fun w => { w with rtsp := f w.rtsp }

@[simp high] theorem run_modifyRtsp (w : World) (f : Rtsp → Rtsp) :
    (modifyRtsp f).run w = ((), { w with rtsp := f w.rtsp }) := (rfl)

/-! ## The shared receive buffer -/

def rtspReadMsgReset : M Unit :=
  modifyRtsp fun s => { s with buf := { allocated := false, used := [] } }

/-- What a call of `rtsp_read_msg` comes to before it blocks in `recv`. -/
inductive ReadResult where
  | block (inBody : Bool)
  | message (headers body : Bytes)
  | failed (setsErrno : Bool)

/-- A call, or what it does after a `recv` (for a body or not). -/
def rtspReadMsg (env : Env) (inBody : Bool) : M ReadResult := do
  if !(← get).rtsp.buf.allocated then
    if !(← oracle env.heap) then return .failed false
    modifyRtsp fun s => { s with buf := { allocated := true, used := [] } }
  let used := (← get).rtsp.buf.used
  match rtspResume inBody used with
  | .more buf inBody =>
    modifyRtsp fun s => { s with buf := { s.buf with used := buf } }
    return .block inBody
  | .message headers body rest =>
    modifyRtsp fun s => { s with buf := { s.buf with used := rest } }
    return .message headers body
  | .fail buf setsErrno =>
    modifyRtsp fun s => { s with buf := { s.buf with used := buf } }
    return .failed setsErrno

/-- The bytes `recv` put behind those in use. -/
def rtspAppend (bytes : Bytes) : M Unit :=
  modifyRtsp fun s => { s with buf := { s.buf with used := s.buf.used ++ bytes } }

/-! ## The RTSP run -/

namespace RtspRun

/-- A run as `miplay_rtsp_run` begins. -/
def begin (arg : RtspArg) : RtspRun where
  arg := arg
  pc := .start
  sock := -1
  state := 0
  cseq := 1
  sentOptions := false
  cseqOfOptions := 0
  cseqOfSetup := 0
  cseqOfPlay := 0
  errAgain := false
  inBody := false

def goto (r : RtspRun) (pc : RtspPc) : RtspRun := { r with pc := pc }

end RtspRun

/-- The phone's answer to one of our requests. -/
def rtspHandleResponse (who : Owner) (r : RtspRun) (headers : Bytes) : M RtspRun := do
  let peer := rtspGetCseq headers
  let r := r.goto .loop
  if !rtspHas "200" headers then return r
  if peer = r.cseqOfOptions then return r
  -- the number of our GET_PARAMETER stays 0, we never send one
  if peer = 0 then return r
  if peer = r.cseqOfSetup then
    useFd who r.sock
    return { r with cseqOfSetup := 0, cseqOfPlay := r.cseq, cseq := r.cseq + 1 }
  if peer = r.cseqOfPlay then return { r with state := 2 }
  return r

/-- A request of the phone during the handshake. -/
def rtspHandleRequest (who : Owner) (r : RtspRun) (headers body : Bytes) : M RtspRun := do
  let method := rtspMethod headers
  let peer := rtspGetCseq headers
  let r := r.goto .loop
  if method = ascii "OPTIONS" then
    useFd who r.sock
    if r.sentOptions then return r
    useFd who r.sock
    return { r with sentOptions := true, cseqOfOptions := r.cseq, cseq := r.cseq + 1 }
  else if method = ascii "rtp_ports" then
    if peer ≠ 0 then useFd who r.sock
    return r
  else if method = ascii "GET_PARAMETER" then
    if rtspAsksCapabilities body && (← get).rtsp.imageSock < 0 then
      return r.goto .imageSocket
    useFd who r.sock
    return r
  else if method = ascii "SET_PARAMETER" then
    useFd who r.sock
    if rtspHas "wfd_trigger_method: SETUP" body then
      useFd who r.sock
      return { r with cseqOfSetup := r.cseq, cseq := r.cseq + 1, state := 1 }
    return r
  else if method = ascii "PLAY" then
    useFd who r.sock
    return { r with state := 2 }
  else if method = ascii "TEARDOWN" then
    useFd who r.sock
    return r.goto .launch
  else
    useFd who r.sock
    return r

def rtspHandleHandshake (who : Owner) (r : RtspRun) (headers body : Bytes) : M RtspRun :=
  if rtspIsResponse headers then rtspHandleResponse who r headers
  else rtspHandleRequest who r headers body

/-- A message in the keepalive loop. A TEARDOWN stops the whole service. -/
def rtspHandleKeepalive (who : Owner) (r : RtspRun) (headers : Bytes) : M RtspRun := do
  if rtspIsResponse headers then return r.goto .keepRead
  useFd who r.sock
  if rtspMethod headers = ascii "TEARDOWN" then
    modify fun w => { w with running := false }
    return r.goto .closeRtsp
  return r.goto .keepRead

/-- `close` of a data socket held in a global, if there is one. -/
def closeImageSock (who : Owner) : M Unit := do
  let fd := (← get).rtsp.imageSock
  if fd ≥ 0 then
    closeFd who fd
    modifyRtsp fun s => { s with imageSock := -1 }

def closeMultiSock (who : Owner) : M Unit := do
  let fd := (← get).rtsp.multiSock
  if fd ≥ 0 then
    closeFd who fd
    modifyRtsp fun s => { s with multiSock := -1 }

/-- The capability answer behind the data sockets. -/
def rtspAnswer (who : Owner) (r : RtspRun) : M RtspRun := do
  useFd who r.sock
  return r.goto .loop

/-- Hands the image socket to an image task, or closes it. -/
def startImageDrain (env : Env) (who : Owner) (generation : Nat) : M Unit := do
  let sock := (← get).rtsp.imageSock
  -- both the argument and the task need memory
  if (← oracle env.heap) && (← oracle env.heap) then
    let h ← newTask
    setImageTask h (some { sock := sock, generation := generation, closing := false })
  else closeFd who sock
  modifyRtsp fun s => { s with imageSock := -1 }

/-- `media_task_arg_t` and `miplay_create_task(media_receive_task, ..)`. -/
def launchMedia (env : Env) (r : RtspRun) : M Unit := do
  let multi := (← get).rtsp.multiSock
  if (← oracle env.heap) && (← oracle env.heap) then
    let h ← newTask
    setMediaTask h
      (some
        { mediaSock := if multi ≥ 0 then multi else r.sock
          clientSock := r.arg.clientSock
          rtspSock := r.sock
          generation := r.arg.generation
          hasStreamKey := r.arg.hasStreamKey
          streamKey := r.arg.streamKey
          pc := .start
          playingReported := false
          wasPausedSnapshot := false })
    modifyRtsp fun s => { s with imageSock := -1, multiSock := -1 }

/-- The result of a `recv` inside `rtsp_read_msg`. -/
def rtspReceived (who : Owner) (r : RtspRun) (again gone : RtspPc) (keepalive : Bool) :
    Outcome → M RtspRun
  | .data bytes _ => do
    useFd who r.sock
    rtspAppend bytes
    return r.goto (if keepalive then .keepRead else .read)
  | .timeout => do
    useFd who r.sock
    return { r with errAgain := true, inBody := false, pc := again }
  | .closed => do
    useFd who r.sock
    -- the keepalive loop looks at `errno` even when the phone has closed
    return { r with inBody := false, pc := if keepalive && r.errAgain then again else gone }
  | _ => do
    useFd who r.sock
    return { r with errAgain := false, inBody := false, pc := gone }

/-- One step of `miplay_rtsp_run`. -/
def rtspRunStep (env : Env) (who : Owner) (r : RtspRun) (o : Outcome) : M RtspRun :=
  match r.pc with
  | .start => do
    rtspReadMsgReset
    return r.goto (.socket 0)
  | .socket attempt => do
    if attempt ≥ 3 ∨ !(← get).running then return r.goto .closeRtsp
    match o with
    | .fd n =>
      if n < 0 then return { r with sock := n, pc := .closeRtsp }
      openFd who n
      return { r with sock := n, pc := .connect attempt }
    | _ => return r
  | .connect attempt =>
    match o with
    | .connected _ _ => do
      rtspReadMsgReset
      return r.goto .buffers
    | _ => do
      closeFd who r.sock
      return { r with sock := -1, pc := .socket (attempt + 1) }
  | .buffers => do
    if (← oracle env.heap) && (← oracle env.heap) then
      rtspReadMsgReset
      return r.goto .loop
    else
      closeFd who r.sock
      return { r with sock := -1, pc := .closeRtsp }
  | .loop => do
    let w ← get
    if w.running && w.rtsp.generation == r.arg.generation && r.state < 2 then
      return r.goto .read
    else return r.goto .launch
  | .read => do
    match ← rtspReadMsg env r.inBody with
    | .block inBody => return { r with inBody := inBody, pc := .recv }
    | .message headers body => rtspHandleHandshake who { r with inBody := false } headers body
    | .failed setsErrno =>
      if !setsErrno && r.errAgain then return r.goto .loop
      else return { r with errAgain := false, pc := .launch }
  | .recv => rtspReceived who r .loop .launch false o
  | .imageSocket =>
    match o with
    | .fd n => do
      if n ≥ 0 then openFd who n
      modifyRtsp fun s => { s with imageSock := n }
      return r.goto .multiSocket
    | _ => return r
  | .multiSocket =>
    match o with
    | .fd n => do
      if n ≥ 0 then openFd who n
      modifyRtsp fun s => { s with multiSock := n }
      let w ← get
      if w.rtsp.imageSock ≥ 0 ∧ w.rtsp.multiSock ≥ 0 then return r.goto .imageConnect
      else rtspAnswer who r
    | _ => return r
  | .imageConnect =>
    match o with
    | .connected _ _ => return r.goto .multiConnect
    | _ => do
      let w ← get
      closeFd who w.rtsp.imageSock
      closeFd who w.rtsp.multiSock
      modifyRtsp fun s => { s with imageSock := -1, multiSock := -1 }
      rtspAnswer who r
  | .multiConnect =>
    match o with
    | .connected imagePort multiPort => do
      modifyRtsp fun s => { s with imagePort := imagePort, multiPort := multiPort }
      return r.goto .imageTask
    | _ => do
      let w ← get
      closeFd who w.rtsp.imageSock
      closeFd who w.rtsp.multiSock
      modifyRtsp fun s => { s with imageSock := -1, multiSock := -1 }
      rtspAnswer who r
  | .imageTask => do
    startImageDrain env who r.arg.generation
    rtspAnswer who r
  | .launch => do
    if r.state ≥ 2 then
      launchMedia env r
      return r.goto .keepRead
    else return r.goto .closeRtsp
  | .keepRead => do
    if !(← get).running then return r.goto .closeRtsp
    match ← rtspReadMsg env r.inBody with
    | .block inBody => return { r with inBody := inBody, pc := .keepRecv }
    | .message headers _ => rtspHandleKeepalive who { r with inBody := false } headers
    | .failed setsErrno =>
      if !setsErrno && r.errAgain then return r
      else return { r with errAgain := false, pc := .closeRtsp }
  | .keepRecv => rtspReceived who r .keepRead .closeRtsp true o
  | .closeRtsp => do
    if r.sock ≥ 0 then closeFd who r.sock
    return r.goto .closeImage
  | .closeImage => do
    closeImageSock who
    return r.goto .closeMulti
  | .closeMulti => do
    closeMultiSock who
    return r.goto .clearPorts
  | .clearPorts => do
    modifyRtsp fun s => { s with imagePort := 0, multiPort := 0 }
    return r.goto .markClosed
  | .markClosed => do
    miplayMarkMediaSessionClosed r.arg.clientSock r.arg.generation
    return r.goto .checkPending
  | .checkPending => do
    let w ← get
    if w.connected && w.activeClientSock == r.arg.clientSock &&
        w.rtsp.generation == r.arg.generation && w.rtsp.hostSaved ≠ [] && w.rtsp.portSaved > 0 then
      return r.goto .setPending
    else return r.goto .done
  | .setPending => do
    modifyRtsp fun s => { s with restartPending := true }
    return r.goto .done
  | .done => return r

/-! ## Starting a run -/

/-- Reserves a handle for `miplay_rtsp_task_wrapper` and starts it. The handle
variable is cleared first, and stays so when there is no memory. -/
def createRtspTask (env : Env) (i : Slot) (arg : RtspArg) : M Bool := do
  modifyRtsp fun s => { s with task := none }
  if ← oracle env.heap then
    let h ← newTask
    setRtspTask h (some (RtspRun.begin arg))
    modifyRtsp fun s => { s with task := some h }
    emit (.rtspStarted i arg)
    return true
  else return false

/-- The slot is that of the frame being handled. -/
def miplayStartRtspSession (env : Env) (i : Slot) (clientSock : Int) (host : Bytes) (port : Int)
    (hasStreamKey : Bool) (streamKey : Block) (force : Bool) : M Bool := do
  let w ← get
  if cstr host = [] ∨ port ≤ 0 ∨ clientSock < 0 then return false
  if !force && w.regs.mediaSessionOpened && w.rtsp.task.isSome then return false
  let generation := w.rtsp.generation + 1
  modifyRtsp fun s =>
    { s with
      hostSaved := strncpy 64 host
      portSaved := port
      generation := generation
      restartPending := false }
  modify fun w => { w with mediaPaused := false }
  modifyRegs fun r => { r with mediaSessionOpened := true }
  let arg : RtspArg :=
    { host := strncpy 64 host
      port := port
      clientSock := clientSock
      generation := generation
      hasStreamKey := hasStreamKey
      streamKey := if hasStreamKey then streamKey else Block.zero }
  if !(← oracle env.heap) then return false
  createRtspTask env i arg

def miplayTryRestartRtsp (env : Env) (i : Slot) (clientSock : Int) : M Unit := do
  let w ← get
  if w.rtsp.portSaved ≤ 0 ∨ w.rtsp.hostSaved = [] then return
  if w.regs.mediaSessionOpened && w.rtsp.task.isSome then return
  let _ ← miplayStartRtspSession env i clientSock w.rtsp.hostSaved w.rtsp.portSaved w.keys.has
    w.keys.key false

/-! ## The media task -/

/-- One step of `media_receive_task`; `none` when the task is gone. -/
def mediaStep (env : Env) (h : Nat) (m : MediaRun) (o : Outcome) : M (Option MediaRun) :=
  match m.pc with
  | .start => do
    emit (.mediaStartCb true)
    return some { m with pc := .alloc }
  | .alloc => do
    if ← oracle env.heap then return some { m with pc := .loop }
    else
      if m.mediaSock ≠ m.rtspSock then closeFd (.media h) m.mediaSock
      return none
  | .loop => do
    let w ← get
    if !w.running || w.rtsp.generation != m.generation then return some { m with pc := .stop }
    return some { m with wasPausedSnapshot := w.mediaPaused, pc := .recv }
  | .recv => do
    let w ← get
    if !w.running || w.rtsp.generation != m.generation then return some { m with pc := .stop }
    match o with
    | .data _ packet =>
      useFd (.media h) m.mediaSock
      if !packet then return some m
      if !m.playingReported && !m.wasPausedSnapshot then
        miplayEmitStateEvent env 2 .playing
        return some { m with playingReported := true, pc := .loop }
      return some { m with pc := .loop }
    | .badHeader =>
      useFd (.media h) m.mediaSock
      return some { m with pc := .loop }
    | .timeout =>
      useFd (.media h) m.mediaSock
      return some m
    | _ =>
      useFd (.media h) m.mediaSock
      return some { m with pc := .stop }
  | .stop => do
    if (← get).rtsp.generation = m.generation then
      emit (.mediaStartCb false)
      return some { m with pc := .markClosed }
    else return some { m with pc := .emitStopped }
  | .markClosed => do
    miplayMarkMediaSessionClosed m.clientSock m.generation
    return some { m with pc := .emitStopped }
  | .emitStopped => do
    if m.playingReported ∧ (← get).rtsp.generation = m.generation then
      miplayEmitStateEvent env 0 .stopped
    return some { m with pc := .closeMedia }
  | .closeMedia => do
    closeFd (.media h) m.mediaSock
    return some { m with pc := .closeRtsp }
  | .closeRtsp => do
    if m.rtspSock ≥ 0 then closeFd (.media h) m.rtspSock
    return some { m with pc := .closeImage }
  | .closeImage => do
    closeImageSock (.media h)
    return some { m with pc := .clearPorts }
  | .clearPorts => do
    modifyRtsp fun s => { s with imagePort := 0, multiPort := 0 }
    return none

/-! ## The image task -/

/-- One step of `image_drain_task`. -/
def imageStep (h : Nat) (t : ImageRun) (o : Outcome) : M (Option ImageRun) := do
  if t.closing then
    closeFd (.image h) t.sock
    return none
  let w ← get
  if !w.running || w.rtsp.generation != t.generation then return some { t with closing := true }
  useFd (.image h) t.sock
  match o with
  | .data _ _ => return some t
  | .timeout => return some t
  | _ => return some { t with closing := true }

end EspMiplay.Miplay
