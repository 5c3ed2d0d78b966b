import EspMiplay.Miplay.Media

/-!
# Sessions and sending

The session table, the swap of the registers in and out of a slot, the
descriptor operations, and the ways a control frame is sent.

Every function here runs inside a critical section of `s_session_mux`,
`s_send_mux` or both, so it is one uninterrupted computation on the world.
-/

namespace EspMiplay.Miplay

def slots : List Slot := [0, 1, 2]

theorem mem_slots : ∀ i : Slot, i ∈ slots := by decide

theorem slot_cases : ∀ i : Slot, i = 0 ∨ i = 1 ∨ i = 2 := by decide

/-! ## Descriptors -/

def World.connOf (w : World) (fd : Int) : Option Conn := w.kernel.fds fd

/-- `close(fd)`. -/
def closeFd (who : Owner) (fd : Int) : M Unit := do
  let w ← get
  emit (.closed who fd (w.connOf fd))
  modify fun w =>
    { w with kernel := { w.kernel with fds := Function.update w.kernel.fds fd none } }

/-- `accept` or `socket` has returned `fd`, a number not in use. -/
def openFd (who : Owner) (fd : Int) : M Unit := do
  let w ← get
  emit (.opened who fd w.kernel.nextConn)
  modify fun w =>
    { w with kernel :=
      { fds := Function.update w.kernel.fds fd (some w.kernel.nextConn)
        nextConn := w.kernel.nextConn + 1 } }

/-- `recv` or `send` is called on `fd`. -/
def useFd (who : Owner) (fd : Int) : M Unit := do
  let w ← get
  emit (.used who fd (w.connOf fd))

/-! ## The registers -/

def miplaySessionLoad (i : Slot) : M Unit := modify fun w => { w with regs := (w.sess i).regs }

def modifySession (i : Slot) (f : Session → Session) : M Unit :=
  modify fun w => { w with sess := Function.update w.sess i (f (w.sess i)) }

def miplaySessionSave (i : Slot) : M Unit := do
  let regs := (← get).regs
  modifySession i fun s => { s with regs := { regs with notifySeq := max regs.notifySeq 8 } }

def modifyRegs (f : Regs → Regs) : M Unit := modify fun w => { w with regs := f w.regs }

section Run

variable (w : World)

@[simp high] theorem run_closeFd (who : Owner) (fd : Int) :
    (closeFd who fd).run w = ((), { w with
      log := w.log ++ [.closed who fd (w.kernel.fds fd)]
      kernel := { w.kernel with fds := Function.update w.kernel.fds fd none } }) := (rfl)

@[simp high] theorem run_openFd (who : Owner) (fd : Int) :
    (openFd who fd).run w = ((), { w with
      log := w.log ++ [.opened who fd w.kernel.nextConn]
      kernel :=
        { fds := Function.update w.kernel.fds fd (some w.kernel.nextConn)
          nextConn := w.kernel.nextConn + 1 } }) := (rfl)

@[simp high] theorem run_useFd (who : Owner) (fd : Int) :
    (useFd who fd).run w = ((), { w with log := w.log ++ [.used who fd (w.kernel.fds fd)] }) := (rfl)

@[simp high] theorem run_miplaySessionLoad (i : Slot) :
    (miplaySessionLoad i).run w = ((), { w with regs := (w.sess i).regs }) := (rfl)

@[simp high] theorem run_modifySession (i : Slot) (f : Session → Session) :
    (modifySession i f).run w =
      ((), { w with sess := Function.update w.sess i (f (w.sess i)) }) := (rfl)

/-- What `miplay_session_save` writes: the number never falls below 8. -/
def Regs.saved (r : Regs) : Regs := { r with notifySeq := max r.notifySeq 8 }

@[simp high] theorem run_miplaySessionSave (i : Slot) :
    (miplaySessionSave i).run w = ((), { w with
      sess := Function.update w.sess i { w.sess i with regs := w.regs.saved } }) := (rfl)

@[simp high] theorem run_modifyRegs (f : Regs → Regs) :
    (modifyRegs f).run w = ((), { w with regs := f w.regs }) := (rfl)

end Run

/-! ## Lookup -/

def miplaySessionFind (w : World) (sock : Int) : Option Slot :=
  slots.find? fun i => (w.sess i).inUse && (w.sess i).sock == sock

/-- The peer whose media session is open: the active socket's, else the last one
found, else none (0). -/
def preferredPeer (activeSock : Int) : List Session → UInt32 → UInt32
  | [], preferred => preferred
  | s :: ss, preferred =>
    if !s.inUse || !s.regs.hasSessionKey || !s.regs.mediaSessionOpened then
      preferredPeer activeSock ss preferred
    else if s.sock = activeSock then s.peerIp
    else preferredPeer activeSock ss s.peerIp

/-- How well a session is suited for a button. -/
def routeScore (activeSock : Int) (s : Session) : Nat :=
  (if s.regs.reverseControlReady then 4 else 0) + (if s.regs.playSourceRegistered then 2 else 0) +
    (if s.regs.mediaSessionOpened then 1 else 0) + (if s.sock = activeSock then 1 else 0)

/-- The first slot with the highest score among the candidates. -/
def bestRoute (w : World) (preferred : UInt32) : List Slot → Option (Slot × Nat) →
    Option (Slot × Nat)
  | [], best => best
  | i :: is, best =>
    let s := w.sess i
    if !s.inUse || !s.regs.hasSessionKey then bestRoute w preferred is best
    else if preferred ≠ 0 ∧ s.peerIp ≠ preferred then bestRoute w preferred is best
    else
      let score := routeScore w.activeClientSock s
      match best with
      | none => bestRoute w preferred is (some (i, score))
      | some (j, bestScore) =>
        bestRoute w preferred is (if score > bestScore then some (i, score) else some (j, bestScore))

def miplaySessionActive (w : World) : Option Slot :=
  let opened := preferredPeer w.activeClientSock (slots.map w.sess) 0
  let preferred :=
    if opened = 0 then
      match miplaySessionFind w w.activeClientSock with
      | some i => if (w.sess i).regs.hasSessionKey then (w.sess i).peerIp else 0
      | none => 0
    else opened
  (bestRoute w preferred slots none).map Prod.fst

/-! ## Allocation -/

/-- The first free slot, taken into use; `none` when all three are. -/
def miplaySessionAlloc (sock : Int) (peerIp : UInt32) (peerPort : UInt16) :
    M (Option Slot) := do
  let w ← get
  match slots.find? fun i => !(w.sess i).inUse with
  | none => return none
  | some i =>
    modifySession i fun _ =>
      { Session.zero with
        inUse := true
        sock := sock
        peerIp := peerIp
        peerPort := peerPort
        regs := { Regs.cleared with notifySeq := 8 } }
    modify fun w => { w with sessionCount := w.sessionCount + 1 }
    return some i

def miplaySessionRelease (i : Slot) : M Unit := do
  if ((← get).sess i).inUse then
    modifySession i fun s => { s with inUse := false }
    modify fun w => { w with sessionCount := w.sessionCount - 1 }

/-- The media or RTSP task of `generation` has ended for the session on `sock`. -/
def miplayMarkMediaSessionClosed (sock : Int) (generation : Nat) : M Unit := do
  let w ← get
  if w.rtsp.generation = generation then
    match miplaySessionFind w sock with
    | some i => modifySession i fun s => { s with regs := { s.regs with mediaSessionOpened := false } }
    | none => pure ()
    if w.activeClientSock = sock then
      modifyRegs fun r => { r with mediaSessionOpened := false }

/-! ## Callbacks -/

/-- `miplay_set_volume`. -/
def miplaySetVolume (percent : Nat) : M Unit := do
  modify fun w => { w with volumePercent := min percent 100 }
  emit (.nvsSave (min percent 100))

/-- `s_connected_cb(true)`: the application pushes its own volume down. -/
def connectedCallback (env : Env) : M Unit := do
  emit (.connectedCb true)
  miplaySetVolume (← oracle env.appVolume)

/-! ## Sending -/

/-- `miplay_send_cmd_raw`: the nine-byte header and the payload. A ghost argument
says how the payload was made. -/
def miplaySendCmdRaw (env : Env) (who : Owner) (sock : Int) (cmd seq : UInt16)
    (payload : Bytes) (how : Sealing) (auto : Bool) : M Bool := do
  useFd who sock
  let conn := (← get).connOf sock
  if (← oracle env.send) && conn.isSome then
    emit (.frame sock conn cmd seq payload how auto)
    return true
  else return false

def miplaySendCmd (env : Env) (who : Owner) (sock : Int) (cmd seq : UInt16)
    (payload : Bytes) : M Bool :=
  miplaySendCmdRaw env who sock cmd seq payload .plain false

/-- `sizeof(s_encrypt_buf)` -/
def encryptBufSize : Nat := miplayMaxFramePayload + safetyDataHdrLen + 16

/-- Encrypts under the registers and sends; the IV register moves on. -/
def sealAndSend (env : Env) (who : Owner) (sock : Int) (cmd seq : UInt16) (plaintext : Bytes)
    (auto : Bool) : M Bool := do
  let heap ← oracle env.heap
  let r := (← get).regs
  match safetyEncrypt env.aes heap plaintext r.aesKey r.encryptIv encryptBufSize with
  | (none, _) => return false
  | (some sd, iv') =>
    modifyRegs fun r => { r with encryptIv := iv' }
    miplaySendCmdRaw env who sock cmd seq sd (.sealed r.aesKey r.encryptIv iv' plaintext) auto

/-- `send_encrypted_cmd_locked`; `send_encrypted_cmd` is the same under the lock. -/
def sendEncryptedCmd (env : Env) (who : Owner) (sock : Int) (cmd seq : UInt16)
    (payload : Bytes) (auto : Bool := false) : M Bool :=
  if payload.length > miplayMaxFramePayload then return false
  else sealAndSend env who sock cmd seq payload auto

/-- The automatic number given out, and the register afterwards. -/
def notifySeqOf (n : Nat) : Nat := if n < 8 ∨ n > 65535 then 8 else n

def notifySeqNext (n : Nat) : Nat := if notifySeqOf n = 65535 then 8 else notifySeqOf n + 1

def miplayNextNotifySeq : M UInt16 := do
  let n := (← get).regs.notifySeq
  modifyRegs fun r => { r with notifySeq := notifySeqNext n }
  return UInt16.ofNat (notifySeqOf n)

def sendEncryptedCmdAutoSeq (env : Env) (who : Owner) (sock : Int) (cmd : UInt16)
    (payload : Bytes) : M Bool := do
  let seq ← miplayNextNotifySeq
  sendEncryptedCmd env who sock cmd seq payload true

/-- `SAFETY_VALUE_TYPE` -/
def safetyValueType : UInt8 := 30

/-- tagLen, tag, value type (4 bytes LE), one length byte, payload. -/
def safetyEnvelopeEncode (isAck : Bool) (payload : Bytes) (outMax : Nat) : Option Bytes :=
  let tag := if isAck then ascii "ack" else ascii "cmd"
  if 1 + 3 + 4 + 1 + payload.length > outMax then none
  else some (3 :: tag ++ [safetyValueType, 0, 0, 0, UInt8.ofNat payload.length] ++ payload)

def sendPlainEnvelope (env : Env) (who : Owner) (sock : Int) (cmd seq : UInt16)
    (payload : Bytes) : M Bool := do
  if payload.length > 2048 then return false
  if !(← oracle env.heap) then return false
  match safetyEnvelopeEncode true payload (1 + 3 + 4 + 1 + payload.length) with
  | none => return false
  | some envelope => miplaySendCmd env who sock cmd seq envelope

def sendEncryptedEnvelope (env : Env) (who : Owner) (sock : Int) (cmd seq : UInt16)
    (isAck : Bool) (payload : Bytes) : M Bool := do
  if payload.length > 2048 then return false
  match safetyEnvelopeEncode isAck payload (9 + 2048) with
  | none => return false
  | some envelope => sealAndSend env who sock cmd seq envelope false

def cmdNotify : UInt16 := 0x0022

/-- The first encrypted notify of a session. -/
def miplayNotifyEmptyMediaInfoEx (env : Env) (i : Slot) (sock : Int) : M Unit := do
  match miplayBuildMediaInfoEx 64 with
  | none => return
  | some body =>
    if ← sendEncryptedCmdAutoSeq env (.ctl i) sock cmdNotify body then
      modifySession i fun s => { s with mediaInfoNotifySent := true }
      modifyRegs fun r => { r with reverseControlReady := true }

/-! ## Disconnect -/

/-- `disconnect_cleanup` up to the end of its critical section; whether the
application has to be told of a disconnect. -/
def disconnectCleanup (i : Slot) : M Bool := do
  let sock := ((← get).sess i).sock
  miplaySessionLoad i
  if (← get).activeClientSock = sock then
    modify fun w => { w with activeClientSock := -1, activePeerIp := 0 }
  closeFd (.ctl i) sock
  modifyRegs fun _ => { Regs.cleared with notifySeq := 8 }
  miplaySessionSave i
  match miplaySessionActive (← get) with
  | some j =>
    modify fun w => { w with activeClientSock := (w.sess j).sock, activePeerIp := (w.sess j).peerIp }
    miplaySessionLoad j
    return false
  | none =>
    modify fun w => { w with connected := false, mediaPaused := true }
    return true

end EspMiplay.Miplay
