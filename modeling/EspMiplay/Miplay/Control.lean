import EspMiplay.Miplay.Auth
import EspMiplay.Miplay.Receive
import EspMiplay.Miplay.Rtsp

/-!
# Control frames

The body of the inner loop of `handle_client`: one received frame, from
`miplay_session_load` to `miplay_session_save`. The whole of it runs under
`s_session_mux`.

- `unifiedDecrypt` tries SafetyData first; a container it refuses is passed on
  as it came (`payload` stays the ciphertext).
- One definition for each command, under the command's name; `dispatchFrame`
  is the source's switch.
- A `Frame` carries the bytes behind the payload, for the places where the
  payload is read as a C string.
-/

namespace EspMiplay.Miplay

/-! ## Commands -/

def cmdOpenDevice : UInt16 := 0x0000
def cmdPause : UInt16 := 0x0004
def cmdResume : UInt16 := 0x0006
def cmdSetVolume : UInt16 := 0x000C
def cmdGetVolume : UInt16 := 0x000E
def cmdSetMediaInfo : UInt16 := 0x0012
def cmdSetMediaInfoAck : UInt16 := 0x0013
def cmdGetMediaInfo : UInt16 := 0x0014
def cmdGetMediaInfoAck : UInt16 := 0x0015
def cmdHeartbeat : UInt16 := 0x001A
def cmdHeartbeatAck : UInt16 := 0x001B
def cmdGetState : UInt16 := 0x001C
def cmdGetDeviceInfo : UInt16 := 0x001E
def cmdGetDeviceInfoAck : UInt16 := 0x001F
def cmdSafetyChallenge : UInt16 := 0x0028
def cmdSafetyAck : UInt16 := 0x0029
def cmdGetMirrorMode : UInt16 := 0x0034
def cmdGetMirrorModeAck : UInt16 := 0x0035
def cmdNativeVersion : UInt16 := 0x0036
def cmdNativeVersionAck : UInt16 := 0x0037
def cmdSetPlaySource : UInt16 := 0x0040
def cmdSetPosition : UInt16 := 0x0056
def cmdSetLocalDevInfo : UInt16 := 0x0058
def cmdSetLocalDevAck : UInt16 := 0x0059
def cmdSetMediaState : UInt16 := 0x005E
def cmdSetMediaStateAck : UInt16 := 0x005F
def cmdSetMirrorKey : UInt16 := 0x006C
def cmdSafetyInfo : UInt16 := 0x1400
def cmdSafetyInfoAck : UInt16 := 0x1401
def cmdSafetyAuth : UInt16 := 0x1402
def cmdSafetyAuthAck : UInt16 := 0x1403

/-! ## Frames -/

/-- A frame as the branches see it: `decrypted` is the content of `dec_buf`, and
`payload` that content, or the payload as received. -/
structure Frame where
  sock : Int
  outer : UInt8
  cmd : UInt16
  seq : UInt16
  payload : Bytes
  decrypted : Option Bytes
  /-- what lies in memory behind the payload -/
  behind : Bytes

/-- The payload as a C string reads on. -/
def Frame.mem (f : Frame) : Bytes := f.payload ++ f.behind

/-- What is left of `handle_client` after a frame: the loop goes on, or the
inline fallback has started. -/
inductive FrameEnd where
  | next (h : Handler)
  | inline (r : RtspRun)

/-- Outcomes of the next `n` allocations. -/
def heapWindow (env : Env) (n : Nat) : M (Nat → Bool) := do
  let w ← get
  set { w with tick := w.tick + n }
  return fun k => env.heap (w.tick + k)

/-! ## Decryption -/

/-- The payload is long enough and starts with 00 07 01 E0. -/
def SafetyMarked (payload : Bytes) : Prop :=
  safetyDataHdrLen ≤ payload.length ∧
    payload.take 4 = [0x00, 0x07, safetyDataVersion, safetyDataFlags]

instance (payload : Bytes) : Decidable (SafetyMarked payload) :=
  inferInstanceAs (Decidable (_ ∧ _))

/-- `safety_decrypt` into a buffer of the payload's own size; it returns, as
`safetyDecrypt_eq_result` shows for every payload a frame can carry. -/
def decryptPayload (aes : Aes) (heap : Bool) (payload : Bytes) (key iv : Block) :
    Option Bytes × Block :=
  match safetyDecrypt aes heap payload key iv payload.length with
  | .ok r => r
  | .error _ => (none, iv)

def unifiedDecrypt (env : Env) (i : Slot) (payload : Bytes) : M (Option Bytes) := do
  let r := (← get).regs
  if !r.hasSessionKey ∨ ¬ SafetyMarked payload then return none
  if !(← oracle env.heap) then return none
  let heap ← oracle env.heap
  let (plaintext, iv') := decryptPayload env.aes heap payload r.aesKey r.decryptIv
  modifyRegs fun r => { r with decryptIv := iv' }
  emit (.decrypted i r.aesKey r.decryptIv iv' payload)
  return plaintext

/-! ## Sending helpers -/

section Branches

variable (env : Env) (i : Slot) (f : Frame)

/-- An encrypted reply under the frame's own number. -/
def reply (cmd : UInt16) (payload : Bytes) : M Bool :=
  sendEncryptedCmd env (.ctl i) f.sock cmd f.seq payload

/-- Encrypted once there is a session key, else plain. -/
def replyEither (cmd : UInt16) (payload : Bytes) : M Unit := do
  if (← get).regs.hasSessionKey then
    let _ ← reply env i f cmd payload
  else
    let _ ← miplaySendCmd env (.ctl i) f.sock cmd f.seq payload

def sendPlain (cmd seq : UInt16) (payload : Bytes) : M Unit := do
  let _ ← miplaySendCmd env (.ctl i) f.sock cmd seq payload

def ack (cmd : UInt16) (payload : Bytes) : M Unit := do
  let _ ← reply env i f cmd payload

/-- A state or volume: a zero byte and the word. -/
def scalarBody (n : Nat) : Bytes := 0 :: putBe32 (UInt32.ofNat n)

def stateBody (w : World) : Bytes := scalarBody w.media.deviceState.toNat

/-- NOTIFY 5, 6, 7: what this receiver can do. -/
def sendCapabilities : M Unit := do
  sendPlain env i f cmdNotify 5 (4 :: ascii "mode" ++ [3, 2])
  match miplayBuildMediaInfoEx 8192 with
  | some body => sendPlain env i f cmdNotify 6 body
  | none => pure ()
  sendPlain env i f cmdNotify 7 (5 :: ascii "state" ++ [3, 0])

/-! ## Alone namespace (outer type 0x04) -/

def handleAloneSetState : M Unit := do
  let heap ← heapWindow env 16
  match miplayParseMediaStatePayload heap f.payload miplayMediaEventInit with
  | some e =>
    miplayApplyPlaybackControl e
    miplayEmitMediaEvent e
  | none => pure ()
  ack env i f (f.cmd + 1) []

def handleAloneGetState : M Unit := do
  ack env i f (f.cmd + 1) (stateBody (← get))

def handleAloneSetMediaInfo : M Unit := do
  let heap ← heapWindow env 16
  match miplayParseSetMediaInfoJson heap f.payload miplayMediaEventInit with
  | (e, true) => miplayEmitMediaEvent e
  | (_, false) =>
    match miplayParseNotifyPayload (fun n => heap (12 + n)) f.payload miplayMediaEventInit with
    | some e => miplayEmitMediaEvent e
    | none => pure ()
  ack env i f (f.cmd + 1) []

def handleAlone : M Unit :=
  let sub := f.cmd &&& 0xFF
  if sub = 0x14 then handleAloneSetState env i f
  else if sub = 0x16 then handleAloneGetState env i f
  else if sub = 0x18 then handleAloneSetMediaInfo env i f
  else return

/-! ## Session set-up -/

def handleNotify : M Unit := do
  let heap ← heapWindow env 16
  match miplayParseNotifyPayload heap f.payload miplayMediaEventInit with
  | some e => miplayEmitMediaEvent e
  | none => pure ()

def handleNativeVersion : M Unit :=
  sendPlain env i f cmdNativeVersionAck f.seq (ascii "2.1.5071614" ++ [0])

def handleSafetyAck : M Unit := sendCapabilities env i f

/-- The host and port of a `wfd://` URL; port 0 when there is none. -/
def wfdTarget (url : Bytes) : Bytes × Int :=
  let u := url.drop 6
  match strchr 0x3A u, strchr 0x3F u with
  | some colon, q =>
    let hl := u.length - colon.length
    if q.elim true fun q => q.length < colon.length then
      if 0 < hl ∧ hl < 64 then (u.take hl, atoi (colon.drop 1)) else ([], 0)
    else viaQuery u q
  | none, q => viaQuery u q
where
  viaQuery (u : Bytes) : Option Bytes → Bytes × Int
    | some q =>
      let hl := u.length - q.length
      if 0 < hl ∧ hl < 64 then (u.take hl, 8554) else ([], 0)
    | none => ([], 0)

/-- The stream of an OPEN, with the stream key as it was before the notify: in a
task of its own, or inline where none can be started. -/
def openStream (h : Handler) (keys : StreamKeys) (host : Bytes) (port : Int) : M FrameEnd := do
  if !((← get).sess i).mediaInfoNotifySent then
    miplayNotifyEmptyMediaInfoEx env i f.sock
  if port ≤ 0 then return .next h
  emit (.openSaved i (cstr host) port)
  if ← miplayStartRtspSession env i f.sock host port keys.has keys.key true then
    return .next h
  else
    -- the generation as it is by now
    let arg : RtspArg :=
      { host := host, port := port, clientSock := f.sock
        generation := (← get).rtsp.generation, hasStreamKey := keys.has
        streamKey := keys.key }
    emit (.rtspStarted i arg)
    return .inline (RtspRun.begin arg)

def handleOpenDevice (h : Handler) : M FrameEnd := do
  match f.decrypted with
  | none => return .next h
  | some plaintext =>
    match memmem (ascii "wfd://") plaintext with
    | none => return .next h
    | some start =>
      let (host, port) := wfdTarget (cstr (start.take 159))
      ack env i f (cmdOpenDevice + 1) [0, 0, 0, 0, 0]
      modifyRegs fun r => { r with mediaSessionOpened := true }
      modify fun w =>
        { w with activeClientSock := f.sock, activePeerIp := (w.sess i).peerIp }
      openStream env i f h (← get).keys host port

def handleHeartbeat : M Unit := replyEither env i f cmdHeartbeatAck []

/-! ## Mutual authentication (outer type 0x14) -/

def selectionJson : Bytes :=
  ascii ("\x7b\n\t\"aesIvType\": \"2\",\n\t\"aesKeyType\": \"1\",\n\t\"authAlgorithmType\": \"4\",\n\t" ++
    "\"authKeyType\": \"1\",\n\t\"integrityType\": \"1\",\n\t\"result\": \"0\" \n\x7d \n")

def challengeJson (authMsg : Bytes) : Bytes :=
  ascii "\x7b\n\t\"authMsg\": \"" ++ cstr authMsg ++ ascii "\" \n\x7d \n"

def ackJson (hex : Bytes) : Bytes :=
  ascii "\x7b\n\t\"authMsgAck\": \"" ++ hex ++ ascii "\",\n\t\"result\": \"0\" \n\x7d \n"

def handleSafetyInfo (h : Handler) : M Handler := do
  let _ ← sendPlainEnvelope env (.ctl i) f.sock cmdSafetyInfoAck f.seq selectionJson
  if h.authChallengeSent then return h
  let sent ← sendEncryptedEnvelope env (.ctl i) f.sock cmdSafetyAuth 0 false
    (challengeJson (← get).regs.authMsg)
  return { h with authChallengeSent := sent }

def isSeparator (c : UInt8) : Bool := c = 0x3A ∨ c = 0x20 ∨ c = 0x09

/-- The quoted string behind a member name, if it is closed and at most `maxLen`
bytes long; else the empty string. -/
def quotedValue (maxLen : Nat) (p : Bytes) : Bytes :=
  let p := skipWhile isSeparator p
  if peek p ≠ 0x22 then []
  else
    let p := p.drop 1
    match strchr 0x22 p with
    | none => []
    | some e => if p.length - e.length ≤ maxLen then p.take (p.length - e.length) else []

/-- The phone's challenge; the answer waits for its SafetyAuthAck. -/
def handleSafetyAuth (h : Handler) : M Handler := do
  match f.decrypted with
  | none => return h
  | some plaintext =>
    let peerAuthMsg := match memmem (ascii "\"authMsg\"") plaintext with
      | some am => quotedValue 32 (am.drop 9 ++ f.behind)
      | none => []
    let authKey := (← get).regs.authKey
    return { h with
      pendingAckHex := hexToLower (hmacSha256 env (authKey.take 32) (cstr peerAuthMsg))
      pendingAckSeq := f.seq
      pendingAckValid := true }

/-- The `authMsgAck` inside the envelope; `none` when the envelope is malformed. -/
def peerAck (plaintext behind : Bytes) : Option Bytes :=
  let tagLen := (plaintext ++ behind).getD 0 0
  if tagLen ≠ 3 ∨ plaintext.length < 9 then none
  else if (plaintext.getD 8 0).toNat > plaintext.length - 9 then none
  else
    match strstr (ascii "\"authMsgAck\"") (plaintext.drop 9 ++ behind) with
    -- the offset is one more than the quoted name is long
    | some am => some (quotedValue 64 (am.drop 13))
    | none => some []

/-- A wrong HMAC closes the socket; the frame ends, the loop does not. -/
def handleSafetyAuthAck (h : Handler) : M Handler := do
  match f.decrypted with
  | none => return h
  | some plaintext =>
    match peerAck plaintext f.behind with
    | none => return h
    | some peer =>
      let r := (← get).regs
      let expected := hexToLower (hmacSha256 env (r.authKey.take 32) (cstr r.authMsg))
      if cstr peer ≠ expected then
        closeFd (.ctl i) f.sock
        return h
      if h.pendingAckValid then
        let _ ← sendEncryptedEnvelope env (.ctl i) f.sock cmdSafetyAuthAck h.pendingAckSeq true
          (ackJson h.pendingAckHex)
      let wasConnected := (← get).connected
      modify fun w =>
        { w with
          connected := true
          activeClientSock := f.sock
          activePeerIp := (w.sess i).peerIp }
      if !((← get).sess i).mediaInfoNotifySent then
        miplayNotifyEmptyMediaInfoEx env i f.sock
      miplaySessionSave i
      if !wasConnected then connectedCallback env
      return { h with pendingAckValid := false }

/-! ## Queries -/

def handleGetDeviceInfo : M Unit := do
  if (← oracle env.heap) && (← oracle env.heap) then
    replyEither env i f cmdGetDeviceInfoAck (buildDeviceInfoPayload env)

def handleSetLocalDevInfo : M Unit := do
  if (memmem (ascii "\"canAlonePlayCtrl\"") f.payload).isSome &&
      (memmem (ascii "\"1\"") f.payload).isSome then
    sendCapabilities env i f
  replyEither env i f cmdSetLocalDevAck []

def handleGetMirrorMode : M Unit := replyEither env i f cmdGetMirrorModeAck (scalarBody 1)

def handleGetVolume : M Unit := do
  ack env i f (cmdGetVolume + 1) (scalarBody (← get).volumePercent)

def handleGetState : M Unit := do
  ack env i f (cmdGetState + 1) (stateBody (← get))

def handleGetMediaInfoAck : M Unit := do
  let heap ← heapWindow env 32
  let parsed :=
    match miplayParseMediaInfoEx heap f.payload with
    | some e => some e
    | none =>
      match miplayParseSetMediaInfoJson (fun n => heap (2 + n)) f.payload miplayMediaEventInit with
      | (e, true) => some e
      | (_, false) =>
        miplayParseNotifyPayload (fun n => heap (16 + n)) f.payload miplayMediaEventInit
  match parsed with
  | some e => miplayEmitMediaEvent e
  | none => pure ()
  modifyRegs fun r => { r with reverseControlReady := true }

def handleGetMediaInfo : M Unit := miplayNotifyEmptyMediaInfoEx env i f.sock

/-! ## Media commands -/

def handleSetPlaySource : M Unit := do
  let heap ← heapWindow env 16
  match miplayParseSetMediaInfoJson heap f.payload miplayMediaEventInit with
  | (e, true) => miplayEmitMediaEvent e
  | (_, false) => pure ()
  if ← reply env i f (cmdSetPlaySource + 1) [] then
    modifyRegs fun r => { r with playSourceRegistered := true }

/-- `key_len "volume" 0x07` and the word, of which only the last byte is set. -/
def volumeNotify (percent : Nat) : Bytes :=
  6 :: ascii "volume" ++ [0x07, 0, 0, 0, UInt8.ofNat percent]

def handleSetVolume : M Unit := do
  if f.payload.length ≥ 4 then
    let vol := opackU32Be f.payload
    if vol ≤ 100 then
      modify fun w => { w with volumePercent := vol }
      emit (.nvsSave vol)
      emit (.volChangedCb vol)
  ack env i f (cmdSetVolume + 1) (scalarBody (← get).volumePercent)
  let _ ← sendEncryptedCmdAutoSeq env (.ctl i) f.sock cmdNotify
    (volumeNotify (← get).volumePercent)

/-- A control event reaches the pause gate and the snapshot. -/
def applyControl (e : MediaEvent) : M Unit := do
  if e.changed.any then
    miplayApplyPlaybackControl e
    miplayEmitMediaEvent e

def playerEvent (player : PlayerState) : MediaEvent :=
  { miplayMediaEventResetControl with playerState := player, changed := { playerState := true } }

def handlePause : M Unit := do
  miplaySetAudioPaused true
  applyControl (playerEvent .paused)
  ack env i f (f.cmd + 1) []

def handleResume : M Unit := do
  miplaySetAudioPaused false
  if (← get).rtsp.restartPending then miplayTryRestartRtsp env i f.sock
  applyControl (playerEvent .playing)
  ack env i f (f.cmd + 1) []

def trackChangePrevMinMs : Int := 5000
def trackChangeNewMaxMs : Int := 4000
def trackChangeRewindMs : Int := 5000
def mediaInfoQueryCooldownUs : Int := 2000000

/-- Only notes the time: the query itself is not sent. -/
def miplayMaybeQueryMediaInfoOnRewind (lastMs positionMs : Int) : M Unit := do
  if lastMs < trackChangePrevMinMs ∨ positionMs < 0 ∨ positionMs > trackChangeNewMaxMs ∨
      lastMs - positionMs < trackChangeRewindMs then return
  let nowUs ← oracle env.clock
  let last := (← get).infoQueryLastUs
  if last > 0 ∧ nowUs - last < mediaInfoQueryCooldownUs then return
  modify fun w => { w with infoQueryLastUs := nowUs }

def positionEvent (positionMs : Int) : MediaEvent :=
  { miplayMediaEventResetControl with positionMs := positionMs, changed := { position := true } }

def handleSetPosition : M Unit := do
  if f.payload.length ≥ 8 then
    let rewindFromMs := (← get).hint.lastMs
    let e ← miplayProjectStateFromPosition env (positionEvent (toInt64 (opackU64Be f.payload)))
    applyControl e
    ack env i f (f.cmd + 1) []
    if f.sock ≥ 0 then miplayMaybeQueryMediaInfoOnRewind env rewindFromMs e.positionMs
  else ack env i f (f.cmd + 1) []

def isKeyPadding (c : UInt8) : Bool := c = 0x20 ∨ c = 0x22

/-- Behind the colon of a member, past blanks and the opening quote. -/
def keyText (member : Bytes) : Option Bytes :=
  (strchr 0x3A member).map fun colon => skipWhile isKeyPadding (colon.drop 1)

def handleSetMirrorKey : M Unit := do
  let streamKey := strstr (ascii "\"streamKey\"") f.mem
  let streamIv := strstr (ascii "\"streamIV\"") f.mem
  let authKey := strstr (ascii "\"authKey\"") f.mem
  match streamKey.bind keyText, streamIv.bind keyText with
  | some key, some iv =>
    modify fun w =>
      { w with keys := { w.keys with key := Block.ofBytes key, iv := Block.ofBytes iv, has := true } }
    emit (.mirrorKey i (Block.ofBytes key))
  | _, _ => pure ()
  match authKey.bind keyText with
  | some key =>
    modify fun w => { w with keys := { w.keys with authKey := key.take 16 ++ [0], hasAuth := true } }
  | none => pure ()
  ack env i f 0x006D [0]

/-- A stub that carries a title does not stop the player. -/
def ignoreStubStopped (e : MediaEvent) : MediaEvent :=
  if peek e.title ≠ 0 ∧ e.changed.playerState ∧ e.playerState = .stopped then
    { e with changed := { e.changed with playerState := false, deviceState := false,
                                          status := false } }
  else e

def handleSetMediaInfo : M Unit := do
  let heap ← heapWindow env 16
  match miplayParseSetMediaInfoJson heap f.payload miplayMediaEventInit with
  | (e, true) =>
    let e := ignoreStubStopped e.marked
    if e.changed.any then miplayEmitMediaEvent e
  | (_, false) => pure ()
  ack env i f cmdSetMediaInfoAck []
  miplayTryRestartRtsp env i f.sock

def handleSetMediaState : M Unit := do
  let heap ← heapWindow env 32
  match miplayParseMediaStatePayload heap f.payload miplayMediaEventInit with
  | some e =>
    miplayApplyPlaybackControl e
    miplayEmitMediaEvent e
  | none => pure ()
  ack env i f cmdSetMediaStateAck []

/-! ## The switch -/

/-- Commands that neither use the handler's own state nor leave it. -/
def dispatchCommand : M Unit :=
  if f.cmd = cmdNotify then handleNotify env f
  else if f.cmd = cmdNativeVersion then handleNativeVersion env i f
  else if f.cmd = cmdSafetyAck then handleSafetyAck env i f
  else if f.cmd = cmdHeartbeat then handleHeartbeat env i f
  else if f.cmd = cmdGetDeviceInfo then handleGetDeviceInfo env i f
  else if f.cmd = cmdSetLocalDevInfo then handleSetLocalDevInfo env i f
  else if f.cmd = cmdGetMirrorMode then handleGetMirrorMode env i f
  else if f.cmd = cmdGetVolume then handleGetVolume env i f
  else if f.cmd = cmdGetState then handleGetState env i f
  else if f.cmd = cmdGetMediaInfoAck then handleGetMediaInfoAck env f
  else if f.cmd = cmdGetMediaInfo then handleGetMediaInfo env i f
  else if f.cmd = cmdSetPlaySource then handleSetPlaySource env i f
  else if f.cmd = cmdSetVolume then handleSetVolume env i f
  else if f.cmd = cmdPause then handlePause env i f
  else if f.cmd = cmdResume then handleResume env i f
  else if f.cmd = cmdSetPosition then handleSetPosition env i f
  else if f.cmd = cmdSetMirrorKey then handleSetMirrorKey env i f
  else if f.cmd = cmdSetMediaInfo then handleSetMediaInfo env i f
  else if f.cmd = cmdSetMediaState then handleSetMediaState env i f
  else return

def dispatchFrame (h : Handler) : M FrameEnd :=
  if f.outer = 0x04 then do
    handleAlone env i f
    return .next h
  else if f.cmd = cmdOpenDevice then handleOpenDevice env i f h
  else if f.cmd = cmdSafetyInfo then do
    return .next (← handleSafetyInfo env i f h)
  else if f.cmd = cmdSafetyAuth then do
    return .next (← handleSafetyAuth env f h)
  else if f.cmd = cmdSafetyAuthAck then do
    return .next (← handleSafetyAuthAck env i f h)
  else do
    dispatchCommand env i f
    return .next h

end Branches

/-- Decryption and the switch, under the registers of slot `i`. -/
def frameBody (env : Env) (i : Slot) (sock : Int) (h : Handler) (frame : Bytes) : M FrameEnd := do
  let received := framePayload frame
  let decrypted ← unifiedDecrypt env i received
  let behind ← oracle env.tail
  let f : Frame :=
    { sock := sock
      outer := outerType frame
      cmd := frameCmd frame
      seq := frameSeq frame
      payload := decrypted.getD received
      decrypted := decrypted
      behind := behind }
  dispatchFrame env i f h

/-- One frame of the session in slot `i`, between taking and giving
`s_session_mux`; the inline fallback leaves the registers unsaved. -/
def handleFrame (env : Env) (i : Slot) (h : Handler) (frame : Bytes) : M FrameEnd := do
  let sock := ((← get).sess i).sock
  miplaySessionLoad i
  let r ← frameBody env i sock h frame
  match r with
  | .next _ => miplaySessionSave i
  | .inline _ => pure ()
  return r

end EspMiplay.Miplay
