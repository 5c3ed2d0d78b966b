import EspMiplay.Lib.Effect
import EspMiplay.Miplay.System

/-!
# What handling a frame can do

Every branch of the control-frame switch is put together from a few primitive
effects. `SendRules`, `SwitchRules` and `FrameRules` list them for a preorder `R` on worlds,
and one lemma for each branch concludes that the branch respects `R`. An
invariant of the component is then checked against the primitives only.

Two effects are not in the lists, because only named commands have them:
`miplayTryRestartRtsp` (Resume, SetMediaInfo), the RTSP start of OPEN, the
stream keys (SetMirrorKey) and the close on a wrong HMAC (SafetyAuthAck).

`SessionRules`, `ActivityRules` and `TaskRules` do the same for the RTSP, media and image
tasks.
-/

namespace EspMiplay.Miplay

open Effect

/-- Callbacks about the player, and the stored volume. -/
def Op.Callback : Op → Prop
  | .mediaCb _ | .volChangedCb _ | .nvsSave _ => True
  | _ => False

/-- What a stream is made of: its parameters, its start, and the player's. -/
def Op.Stream : Op → Prop
  | .openSaved .. | .mirrorKey .. | .rtspStarted .. | .mediaStartCb _ => True
  | _ => False

/-- What goes over a socket. -/
def Op.Traffic : Op → Prop
  | .used .. | .frame .. => True
  | _ => False

/-! ## The primitives -/

/-- Answering on `sock`, as slot `i`. -/
structure SendRules (env : Env) (who : Owner) (i : Slot) (sock : Int)
    (R : World → World → Prop) : Prop where
  tick : ∀ w n, R w { w with tick := w.tick + n }
  plain : ∀ cmd seq payload, Does R (miplaySendCmd env who sock cmd seq payload)
  sealed : ∀ cmd seq plaintext, Does R (sealAndSend env who sock cmd seq plaintext false)
  auto : ∀ cmd plaintext, plaintext.length ≤ miplayMaxFramePayload →
    Does R (sendEncryptedCmdAutoSeq env who sock cmd plaintext)
  ready : ∀ w reverse source, R w
    { w with regs := { w.regs with
      reverseControlReady := reverse, playSourceRegistered := source } }
  notified : ∀ w, R w
    { w with sess := Function.update w.sess i { w.sess i with mediaInfoNotifySent := true } }

/-- What a frame does besides that is not about the player. -/
structure AnswerRules (env : Env) (who : Owner) (i : Slot) (sock : Int)
    (R : World → World → Prop) : Prop extends SendRules env who i sock R where
  volume : ∀ (w : World) volume, R w { w with volumePercent := volume }
  callback : ∀ w op, op.Callback → R w { w with log := w.log ++ [op] }
  route : ∀ w, R w { w with activeClientSock := sock, activePeerIp := (w.sess i).peerIp }
  save : Does R (miplaySessionSave i)

/-- All that a frame does, in the branches without an effect of their own. -/
structure SwitchRules (env : Env) (who : Owner) (i : Slot) (sock : Int)
    (R : World → World → Prop) : Prop extends AnswerRules env who i sock R where
  media : ∀ (w : World) media paused volume hint last, R w
    { w with
      media := media
      mediaPaused := paused
      volumePercent := volume
      hint := hint
      infoQueryLastUs := last }
  volume w volume := media w w.media w.mediaPaused volume w.hint w.infoQueryLastUs

/-- The same with the end of the handshake. -/
structure FrameRules (env : Env) (who : Owner) (i : Slot) (sock : Int)
    (R : World → World → Prop) : Prop extends SwitchRules env who i sock R where
  connected : ∀ w, R w { w with connected := true }
  told : ∀ w, R w { w with log := w.log ++ [.connectedCb true] }

variable {env : Env} {who : Owner} {i : Slot} {sock : Int} {f : Frame} {h : Handler}
variable {R : World → World → Prop}

/-! ## Sending -/

namespace SendRules

theorem oracle (hR : SendRules env who i sock R) {α : Type} (g : Nat → α) : Does R (oracle g) :=
  fun w => hR.tick w 1

theorem heapWindow (hR : SendRules env who i sock R) (n : Nat) : Does R (heapWindow env n) :=
  fun w => hR.tick w n

theorem setReverseReady (hR : SendRules env who i sock R) :
    Does R (modifyRegs fun r => { r with reverseControlReady := true }) :=
  fun w => hR.ready w true w.regs.playSourceRegistered

variable [IsPreorder World R]

theorem sendEncryptedCmd (hR : SendRules env who i sock R) (cmd seq : UInt16) (payload : Bytes) :
    Does R (sendEncryptedCmd env who sock cmd seq payload) :=
  Does.ite (fun _ => Does.pure _) fun _ => hR.sealed _ _ _

theorem sendPlainEnvelope (hR : SendRules env who i sock R) (cmd seq : UInt16) (payload : Bytes) :
    Does R (sendPlainEnvelope env who sock cmd seq payload) := by
  refine Does.ite (fun _ => Does.pure _) fun _ => (hR.oracle _).bind fun heap =>
    Does.ite (fun _ => Does.pure _) fun _ => ?_
  split
  · exact Does.pure _
  · exact hR.plain _ _ _

theorem sendEncryptedEnvelope (hR : SendRules env who i sock R) (cmd seq : UInt16) (isAck : Bool)
    (payload : Bytes) : Does R (sendEncryptedEnvelope env who sock cmd seq isAck payload) := by
  refine Does.ite (fun _ => Does.pure _) fun _ => ?_
  split
  · exact Does.pure _
  · exact hR.sealed _ _ _

theorem length_volumeNotify (percent : Nat) : (volumeNotify percent).length = 12 := rfl

/-- The empty media information is short enough for a frame. -/
theorem length_mediaInfoEx {body : Bytes} (hBody : miplayBuildMediaInfoEx 64 = some body) :
    body.length ≤ miplayMaxFramePayload := by
  obtain rfl : body = (miplayBuildMediaInfoEx 64).getD [] := by rw [hBody]; rfl
  decide

end SendRules

/-- A relation that looks neither at what is sent, nor at the registers sending
moves on, nor at the oracles respects every way of sending. -/
theorem SendRules.of_log [IsPreorder World R] (hTick : ∀ w n, R w { w with tick := w.tick + n })
    (hLog : ∀ w op, op.Traffic → R w { w with log := w.log ++ [op] })
    (hRegs : ∀ w encryptIv notifySeq reverse source, R w
      { w with regs := { w.regs with
        encryptIv := encryptIv, notifySeq := notifySeq
        reverseControlReady := reverse, playSourceRegistered := source } })
    (hNotified : ∀ w, R w
      { w with sess := Function.update w.sess i { w.sess i with mediaInfoNotifySent := true } }) :
    SendRules env who i sock R := by
  have hRaw (cmd seq : UInt16) (payload : Bytes) (how : Sealing) (auto : Bool) :
      Does R (miplaySendCmdRaw env who sock cmd seq payload how auto) := by
    refine Does.bind (fun w => hLog w _ trivial) fun _ => Does.get.bind fun w =>
      Does.bind (fun w => hTick w 1) fun accepted => ?_
    exact Does.ite (fun _ => Does.bind (fun w => hLog w _ trivial) fun _ => Does.pure _)
      fun _ => Does.pure _
  have hSealed (cmd seq : UInt16) (plaintext : Bytes) (auto : Bool) :
      Does R (sealAndSend env who sock cmd seq plaintext auto) := by
    refine Does.bind (fun w => hTick w 1) fun heap => Does.get.bind fun w => ?_
    dsimp only
    split
    · exact Does.pure _
    · refine Does.bind (fun w => ?_) fun _ => hRaw _ _ _ _ _
      exact hRegs w _ w.regs.notifySeq w.regs.reverseControlReady w.regs.playSourceRegistered
  exact
    { tick := hTick
      plain := fun cmd seq payload => hRaw cmd seq payload .plain false
      sealed := fun cmd seq plaintext => hSealed cmd seq plaintext false
      auto := fun cmd plaintext _ => by
        have hNext : Does R miplayNextNotifySeq := Does.get.bind fun n =>
          Does.bind (fun w => hRegs w w.regs.encryptIv _ w.regs.reverseControlReady
            w.regs.playSourceRegistered) fun _ => Does.pure _
        exact hNext.bind fun seq => Does.ite (fun _ => Does.pure _) fun _ => hSealed _ _ _ _
      ready := fun w reverse source => hRegs w w.regs.encryptIv w.regs.notifySeq reverse source
      notified := hNotified }

section Branches

variable [IsPreorder World R]

theorem notifyEmptyMediaInfo_does (hR : SendRules env (.ctl i) i sock R) :
    Does R (miplayNotifyEmptyMediaInfoEx env i sock) := by
  unfold miplayNotifyEmptyMediaInfoEx
  split
  · exact Does.pure _
  · rename_i body hBody
    refine (hR.auto _ _ (SendRules.length_mediaInfoEx hBody)).bind fun sent => ?_
    refine Does.ite (fun _ => ?_) fun _ => Does.pure _
    exact Does.bind (fun w => hR.notified w) fun _ => hR.setReverseReady

variable (hR : SendRules env (.ctl i) i f.sock R)

include hR

theorem reply_does (cmd : UInt16) (payload : Bytes) : Does R (reply env i f cmd payload) :=
  hR.sendEncryptedCmd _ _ _

theorem ack_does (cmd : UInt16) (payload : Bytes) : Does R (ack env i f cmd payload) :=
  (reply_does hR cmd payload).bind fun _ => Does.pure _

theorem sendPlain_does (cmd seq : UInt16) (payload : Bytes) :
    Does R (sendPlain env i f cmd seq payload) :=
  (hR.plain _ _ _).bind fun _ => Does.pure _

theorem replyEither_does (cmd : UInt16) (payload : Bytes) :
    Does R (replyEither env i f cmd payload) :=
  Does.get.bind fun _ => Does.ite (fun _ => ack_does hR cmd payload)
    fun _ => sendPlain_does hR cmd f.seq payload

theorem sendCapabilities_does : Does R (sendCapabilities env i f) := by
  refine (sendPlain_does hR _ _ _).bind fun _ => ?_
  dsimp only
  split
  · exact (sendPlain_does hR _ _ _).bind fun _ => sendPlain_does hR _ _ _
  · exact (Does.pure _).bind fun _ => sendPlain_does hR _ _ _

/-! ## Branches that only answer -/

theorem handleAloneGetState_does : Does R (handleAloneGetState env i f) :=
  Does.get.bind fun _ => ack_does hR _ _

theorem handleNativeVersion_does : Does R (handleNativeVersion env i f) :=
  sendPlain_does hR _ _ _

theorem handleSafetyAck_does : Does R (handleSafetyAck env i f) := sendCapabilities_does hR

theorem handleHeartbeat_does : Does R (handleHeartbeat env i f) := replyEither_does hR _ _

theorem handleSafetyInfo_does : Does R (handleSafetyInfo env i f h) := by
  refine (hR.sendPlainEnvelope _ _ _).bind fun _ => Does.ite (fun _ => Does.pure _) fun _ => ?_
  exact Does.get.bind fun _ => (hR.sendEncryptedEnvelope _ _ _ _).bind fun _ => Does.pure _

omit hR in
theorem handleSafetyAuth_does : Does R (handleSafetyAuth env f h) := by
  unfold handleSafetyAuth
  split
  · exact Does.pure _
  · exact Does.get.bind fun _ => Does.pure _

theorem handleGetDeviceInfo_does : Does R (handleGetDeviceInfo env i f) := by
  unfold handleGetDeviceInfo
  refine (hR.oracle _).bind fun first => (hR.oracle _).bind fun second => ?_
  exact Does.ite (fun _ => replyEither_does hR _ _) fun _ => Does.pure _

theorem handleSetLocalDevInfo_does : Does R (handleSetLocalDevInfo env i f) := by
  refine Does.ite (fun _ => ?_) fun _ => replyEither_does hR _ _
  exact (sendCapabilities_does hR).bind fun _ => replyEither_does hR _ _

theorem handleGetMirrorMode_does : Does R (handleGetMirrorMode env i f) := replyEither_does hR _ _

theorem handleGetVolume_does : Does R (handleGetVolume env i f) :=
  Does.get.bind fun _ => ack_does hR _ _

theorem handleGetState_does : Does R (handleGetState env i f) :=
  Does.get.bind fun _ => ack_does hR _ _

theorem handleGetMediaInfo_does : Does R (handleGetMediaInfo env i f) :=
  notifyEmptyMediaInfo_does hR

end Branches

/-! ## Volume and callbacks -/

namespace AnswerRules

theorem emit (hR : AnswerRules env who i sock R) (op : Op) (hOp : op.Callback) :
    Does R (emit op) :=
  fun w => hR.callback w op hOp

variable [IsPreorder World R]

theorem miplaySetVolume (hR : AnswerRules env who i sock R) (percent : Nat) :
    Does R (miplaySetVolume percent) :=
  Does.bind (fun w => hR.volume w _) fun _ => hR.emit (.nvsSave _) trivial

theorem connectedCallback (hR : AnswerRules env who i sock R)
    (hTold : ∀ w, R w { w with log := w.log ++ [.connectedCb true] }) :
    Does R (connectedCallback env) :=
  Does.bind hTold fun _ => (hR.oracle _).bind fun _ => hR.miplaySetVolume _

end AnswerRules

/-! ## Media effects -/

namespace SwitchRules

theorem setAudioPaused (hR : SwitchRules env who i sock R) (paused : Bool) :
    Does R (miplaySetAudioPaused paused) :=
  fun w => hR.media w w.media paused w.volumePercent w.hint w.infoQueryLastUs

theorem resetHint (hR : SwitchRules env who i sock R) : Does R miplayResetPositionStateHint :=
  fun w => hR.media w w.media w.mediaPaused w.volumePercent _ w.infoQueryLastUs

variable [IsPreorder World R]

theorem emitMediaEvent (hR : SwitchRules env who i sock R) (e : MediaEvent) :
    Does R (miplayEmitMediaEvent e) := by
  refine Does.ite (fun _ => ?_) fun _ => Does.pure _
  exact Does.bind (fun w => hR.media w _ w.mediaPaused w.volumePercent w.hint w.infoQueryLastUs)
    fun _ => hR.emit (.mediaCb _) trivial

theorem applyPlaybackControl (hR : SwitchRules env who i sock R) (e : MediaEvent) :
    Does R (miplayApplyPlaybackControl e) := by
  refine Does.ite (fun _ => ?_) fun _ => Does.pure _
  split
  · exact (hR.setAudioPaused true).bind fun _ => hR.resetHint
  · exact (hR.setAudioPaused false).bind fun _ => hR.resetHint
  · exact Does.pure _

theorem applyControl (hR : SwitchRules env who i sock R) (e : MediaEvent) :
    Does R (applyControl e) :=
  Does.ite (fun _ => (hR.applyPlaybackControl e).bind fun _ => hR.emitMediaEvent e)
    fun _ => Does.pure _

theorem projectPosition (hR : SwitchRules env who i sock R) (e : MediaEvent) :
    Does R (do
      let nowUs ← oracle env.clock
      let positionMs := max e.positionMs 0
      let w ← get
      let (inferred, stalledTicks) := inferState w.hint nowUs positionMs
      set { w with
        hint := { w.hint with lastMs := positionMs, lastRxUs := nowUs, stalledTicks } }
      return projectEvent inferred w.media.deviceState e) :=
  (hR.oracle _).bind fun _ w =>
    hR.media w w.media w.mediaPaused w.volumePercent _ w.infoQueryLastUs

theorem projectState (hR : SwitchRules env who i sock R) (e : MediaEvent) :
    Does R (miplayProjectStateFromPosition env e) := by
  have hProject := hR.projectPosition e
  refine Does.ite (fun _ => Does.pure _) fun _ => Does.get.bind fun w => Does.get.bind fun w' => ?_
  exact Does.ite (fun _ => hR.resetHint.bind fun _ => hProject) fun _ => hProject

theorem maybeQuery (hR : SwitchRules env who i sock R) (lastMs positionMs : Int) :
    Does R (miplayMaybeQueryMediaInfoOnRewind env lastMs positionMs) := by
  refine Does.ite (fun _ => Does.pure _) fun _ => (hR.oracle _).bind fun nowUs =>
    Does.get.bind fun w => Does.ite (fun _ => Does.pure _) fun _ => ?_
  exact fun w => hR.media w w.media w.mediaPaused w.volumePercent w.hint nowUs

end SwitchRules

section Branches

variable [IsPreorder World R] (hR : SwitchRules env (.ctl i) i f.sock R)

include hR

theorem handleAloneSetState_does : Does R (handleAloneSetState env i f) := by
  refine (hR.heapWindow _).bind fun heap => ?_
  dsimp only
  split
  · exact (hR.applyPlaybackControl _).bind fun _ => (hR.emitMediaEvent _).bind
      fun _ => ack_does hR.toSendRules _ _
  · exact ack_does hR.toSendRules _ _

theorem handleAloneSetMediaInfo_does : Does R (handleAloneSetMediaInfo env i f) := by
  refine (hR.heapWindow _).bind fun heap => ?_
  dsimp only
  split
  · exact (hR.emitMediaEvent _).bind fun _ => ack_does hR.toSendRules _ _
  · split
    · exact (hR.emitMediaEvent _).bind fun _ => ack_does hR.toSendRules _ _
    · exact ack_does hR.toSendRules _ _

theorem handleAlone_does : Does R (handleAlone env i f) :=
  Does.ite (fun _ => handleAloneSetState_does hR) fun _ =>
    Does.ite (fun _ => handleAloneGetState_does hR.toSendRules) fun _ =>
      Does.ite (fun _ => handleAloneSetMediaInfo_does hR) fun _ => Does.pure _

theorem handleNotify_does : Does R (handleNotify env f) := by
  refine (hR.heapWindow _).bind fun heap => ?_
  split
  · exact hR.emitMediaEvent _
  · exact Does.pure _

theorem handleGetMediaInfoAck_does : Does R (handleGetMediaInfoAck env f) := by
  refine (hR.heapWindow _).bind fun heap => ?_
  dsimp only
  split
  · exact (hR.emitMediaEvent _).bind fun _ => hR.setReverseReady
  · exact hR.setReverseReady

theorem handleSetPlaySource_does : Does R (handleSetPlaySource env i f) := by
  have hReply : Does R (do
      if ← reply env i f (cmdSetPlaySource + 1) [] then
        modifyRegs fun r => { r with playSourceRegistered := true }) :=
    (reply_does hR.toSendRules _ _).bind fun _ => Does.ite
      (fun _ w => hR.ready w w.regs.reverseControlReady true) fun _ => Does.pure _
  refine (hR.heapWindow _).bind fun heap => ?_
  dsimp only
  split
  · exact (hR.emitMediaEvent _).bind fun _ => hReply
  · exact hReply

omit hR in
theorem handleSetVolume_does (hR : AnswerRules env (.ctl i) i f.sock R) :
    Does R (handleSetVolume env i f) := by
  have hAnswer : Does R (do
      ack env i f (cmdSetVolume + 1) (scalarBody (← get).volumePercent)
      let _ ← sendEncryptedCmdAutoSeq env (.ctl i) f.sock cmdNotify
        (volumeNotify (← get).volumePercent)) :=
    Does.get.bind fun w => (ack_does hR.toSendRules _ _).bind fun _ => Does.get.bind fun w' =>
      (hR.auto _ _ (by rw [SendRules.length_volumeNotify]; decide)).bind fun _ => Does.pure _
  refine Does.ite (fun _ => ?_) fun _ => hAnswer
  refine Does.ite (fun _ => ?_) fun _ => hAnswer
  exact Does.bind (fun w => hR.volume w _) fun _ => (hR.emit (.nvsSave _) trivial).bind fun _ =>
    (hR.emit (.volChangedCb _) trivial).bind fun _ => hAnswer

theorem handlePause_does : Does R (handlePause env i f) :=
  (hR.setAudioPaused true).bind fun _ => (hR.applyControl _).bind fun _ =>
    ack_does hR.toSendRules _ _

theorem handleResume_does (hRestart : Does R (miplayTryRestartRtsp env i f.sock)) :
    Does R (handleResume env i f) := by
  have hTail : Does R (do
      applyControl (playerEvent .playing)
      ack env i f (f.cmd + 1) []) :=
    (hR.applyControl _).bind fun _ => ack_does hR.toSendRules _ _
  refine (hR.setAudioPaused false).bind fun _ => Does.get.bind fun w => ?_
  exact Does.ite (fun _ => hRestart.bind fun _ => hTail) fun _ => hTail

theorem handleSetPosition_does : Does R (handleSetPosition env i f) := by
  refine Does.ite (fun _ => ?_) fun _ => ack_does hR.toSendRules _ _
  refine Does.get.bind fun w => (hR.projectState _).bind fun e => (hR.applyControl e).bind fun _ =>
    (ack_does hR.toSendRules _ _).bind fun _ => ?_
  exact Does.ite (fun _ => hR.maybeQuery _ _) fun _ => Does.pure _

omit hR in
theorem mirrorAuthKey_does (hR : SendRules env (.ctl i) i f.sock R)
    (hAuthKey : ∀ key, Does R (modify fun w =>
      { w with keys := { w.keys with authKey := key, hasAuth := true } })) :
    Does R (do
      match (strstr (ascii "\"authKey\"") f.mem).bind keyText with
      | some key =>
        modify fun w =>
          { w with keys := { w.keys with authKey := key.take 16 ++ [0], hasAuth := true } }
      | none => pure ()
      ack env i f 0x006D [0]) := by
  split
  · exact (hAuthKey _).bind fun _ => ack_does hR _ _
  · exact ack_does hR _ _

omit hR in
theorem handleSetMirrorKey_does (hR : SendRules env (.ctl i) i f.sock R)
    (hKeys : ∀ key iv, Does R (do
      modify fun w => { w with keys := { w.keys with key := key, iv := iv, has := true } }
      emit (.mirrorKey i key)))
    (hAuthKey : ∀ key, Does R (modify fun w =>
      { w with keys := { w.keys with authKey := key, hasAuth := true } })) :
    Does R (handleSetMirrorKey env i f) := by
  have hTail := mirrorAuthKey_does hR hAuthKey
  unfold handleSetMirrorKey
  dsimp only
  split
  · exact (hKeys _ _).bind fun _ => hTail
  · exact hTail

theorem handleSetMediaInfo_does (hRestart : Does R (miplayTryRestartRtsp env i f.sock)) :
    Does R (handleSetMediaInfo env i f) := by
  have hTail : Does R (do
      ack env i f cmdSetMediaInfoAck []
      miplayTryRestartRtsp env i f.sock) :=
    (ack_does hR.toSendRules _ _).bind fun _ => hRestart
  refine (hR.heapWindow _).bind fun heap => ?_
  dsimp only
  split
  · exact Does.ite (fun _ => (hR.emitMediaEvent _).bind fun _ => hTail) fun _ => hTail
  · exact hTail

theorem handleSetMediaState_does : Does R (handleSetMediaState env i f) := by
  refine (hR.heapWindow _).bind fun heap => ?_
  dsimp only
  split
  · exact (hR.applyPlaybackControl _).bind fun _ => (hR.emitMediaEvent _).bind
      fun _ => ack_does hR.toSendRules _ _
  · exact ack_does hR.toSendRules _ _

/-! ## Branches with effects of their own -/

omit hR in
/-- The socket is closed on a wrong HMAC and at no other place. -/
theorem handleSafetyAuthAck_does (hR : AnswerRules env (.ctl i) i f.sock R)
    (hConnected : ∀ w, R w { w with connected := true })
    (hTold : ∀ w, R w { w with log := w.log ++ [.connectedCb true] })
    (hClose : Does R (closeFd (.ctl i) f.sock)) : Does R (handleSafetyAuthAck env i f h) := by
  have hTell (wasConnected : Bool) : Does R (do
      miplaySessionSave i
      if !wasConnected then connectedCallback env
      return { h with pendingAckValid := false }) := by
    refine hR.save.bind fun _ => ?_
    exact Does.ite (fun _ => (hR.connectedCallback hTold).bind fun _ => Does.pure _)
      fun _ => Does.pure _
  have hAccepted : Does R (do
      let wasConnected := (← get).connected
      modify fun w =>
        { w with
          connected := true
          activeClientSock := f.sock
          activePeerIp := (w.sess i).peerIp }
      if !((← get).sess i).mediaInfoNotifySent then
        miplayNotifyEmptyMediaInfoEx env i f.sock
      miplaySessionSave i
      if !wasConnected then connectedCallback env
      return { h with pendingAckValid := false }) := by
    have hRoute (w : World) : R w
        { w with
          connected := true, activeClientSock := f.sock, activePeerIp := (w.sess i).peerIp } :=
      trans_of R (hConnected w) (hR.route _)
    refine Does.get.bind fun w => Does.bind hRoute fun _ => Does.get.bind fun w' => ?_
    exact Does.ite
      (fun _ => (notifyEmptyMediaInfo_does hR.toSendRules).bind fun _ => hTell _)
      fun _ => hTell _
  unfold handleSafetyAuthAck
  split
  · exact Does.pure _
  · split
    · exact Does.pure _
    · refine Does.get.bind fun w => Does.ite (fun _ => hClose.bind fun _ => Does.pure _) fun _ => ?_
      exact Does.ite (fun _ => (hR.sendEncryptedEnvelope _ _ _ _).bind fun _ => hAccepted)
        fun _ => hAccepted

theorem openStream_does (keys : StreamKeys) (host : Bytes) (port : Int)
    (hSaved : Does R (emit (.openSaved i (cstr host) port)))
    (hStart : Does R (miplayStartRtspSession env i f.sock host port keys.has keys.key true))
    (hInline : ∀ arg, Does R (emit (.rtspStarted i arg))) :
    Does R (openStream env i f h keys host port) := by
  have hStarted : Does R (do
      if port ≤ 0 then return .next h
      emit (.openSaved i (cstr host) port)
      if ← miplayStartRtspSession env i f.sock host port keys.has keys.key true then
        return .next h
      else
        let arg : RtspArg :=
          { host := host, port := port, clientSock := f.sock
            generation := (← get).rtsp.generation, hasStreamKey := keys.has
            streamKey := keys.key }
        emit (.rtspStarted i arg)
        return FrameEnd.inline (RtspRun.begin arg)) := by
    refine Does.ite (fun _ => Does.pure _) fun _ => hSaved.bind fun _ => hStart.bind fun started => ?_
    exact Does.ite (fun _ => Does.pure _) fun _ => Does.get.bind fun w =>
      (hInline _).bind fun _ => Does.pure _
  refine Does.get.bind fun w => Does.ite (fun _ => ?_) fun _ => hStarted
  exact (notifyEmptyMediaInfo_does hR.toSendRules).bind fun _ => hStarted

theorem handleOpenDevice_does
    (hOpened : ∀ w, R w { w with regs := { w.regs with mediaSessionOpened := true } })
    (hStream : ∀ w host port, R w ((openStream env i f h w.keys host port).run w).2) :
    Does R (handleOpenDevice env i f h) := by
  unfold handleOpenDevice
  split
  · exact Does.pure _
  · split
    · exact Does.pure _
    · refine (ack_does hR.toSendRules _ _).bind fun _ => Does.bind hOpened fun _ =>
        Does.bind (fun w => hR.route w) fun _ => ?_
      exact Does.get_bind fun w => hStream w _ _

end Branches

/-! ## The whole switch -/

/-- The effects that only named commands have. -/
structure CommandRules (env : Env) (i : Slot) (f : Frame) (h : Handler)
    (R : World → World → Prop) : Prop where
  restart : f.cmd = cmdResume ∨ f.cmd = cmdSetMediaInfo → Does R (miplayTryRestartRtsp env i f.sock)
  streamKey : f.cmd = cmdSetMirrorKey → ∀ key iv, Does R (do
    modify fun w => { w with keys := { w.keys with key := key, iv := iv, has := true } }
    emit (.mirrorKey i key))
  authKey : f.cmd = cmdSetMirrorKey → ∀ key, Does R (modify fun w =>
    { w with keys := { w.keys with authKey := key, hasAuth := true } })
  opened : f.cmd = cmdOpenDevice →
    ∀ w, R w { w with regs := { w.regs with mediaSessionOpened := true } }
  stream : f.cmd = cmdOpenDevice →
    ∀ w host port, R w ((openStream env i f h w.keys host port).run w).2
  close : f.cmd = cmdSafetyAuthAck → Does R (closeFd (.ctl i) f.sock)

section Switch

variable [IsPreorder World R]

theorem dispatchCommand_does (hR : SwitchRules env (.ctl i) i f.sock R)
    (hC : CommandRules env i f h R) : Does R (dispatchCommand env i f) := by
  refine Does.ite (fun _ => handleNotify_does hR) fun _ => ?_
  refine Does.ite (fun _ => handleNativeVersion_does hR.toSendRules) fun _ => ?_
  refine Does.ite (fun _ => handleSafetyAck_does hR.toSendRules) fun _ => ?_
  refine Does.ite (fun _ => handleHeartbeat_does hR.toSendRules) fun _ => ?_
  refine Does.ite (fun _ => handleGetDeviceInfo_does hR.toSendRules) fun _ => ?_
  refine Does.ite (fun _ => handleSetLocalDevInfo_does hR.toSendRules) fun _ => ?_
  refine Does.ite (fun _ => handleGetMirrorMode_does hR.toSendRules) fun _ => ?_
  refine Does.ite (fun _ => handleGetVolume_does hR.toSendRules) fun _ => ?_
  refine Does.ite (fun _ => handleGetState_does hR.toSendRules) fun _ => ?_
  refine Does.ite (fun _ => handleGetMediaInfoAck_does hR) fun _ => ?_
  refine Does.ite (fun _ => handleGetMediaInfo_does hR.toSendRules) fun _ => ?_
  refine Does.ite (fun _ => handleSetPlaySource_does hR) fun _ => ?_
  refine Does.ite (fun _ => handleSetVolume_does hR.toAnswerRules) fun _ => ?_
  refine Does.ite (fun _ => handlePause_does hR) fun _ => ?_
  refine Does.ite (fun hCmd => handleResume_does hR (hC.restart (.inl hCmd))) fun _ => ?_
  refine Does.ite (fun _ => handleSetPosition_does hR) fun _ => ?_
  refine Does.ite
    (fun hCmd => handleSetMirrorKey_does hR.toSendRules (hC.streamKey hCmd) (hC.authKey hCmd)) fun _ => ?_
  refine Does.ite (fun hCmd => handleSetMediaInfo_does hR (hC.restart (.inr hCmd))) fun _ => ?_
  exact Does.ite (fun _ => handleSetMediaState_does hR) fun _ => Does.pure _

/-- The switch, with the end of the handshake left to the caller. -/
theorem dispatchFrame_at {w : World} (hR : SwitchRules env (.ctl i) i f.sock R)
    (hC : CommandRules env i f h R)
    (hAck : f.outer ≠ 0x04 → f.cmd = cmdSafetyAuthAck →
      R w ((handleSafetyAuthAck env i f h).run w).2) :
    R w ((dispatchFrame env i f h).run w).2 := by
  unfold dispatchFrame
  split
  · exact (handleAlone_does hR).bind (fun _ => Does.pure _) w
  split
  · rename_i hCmd
    exact handleOpenDevice_does hR (hC.opened hCmd) (hC.stream hCmd) w
  split
  · exact (handleSafetyInfo_does hR.toSendRules).bind (fun _ => Does.pure _) w
  split
  · exact handleSafetyAuth_does.bind (fun _ => Does.pure _) w
  split
  · rename_i hOuter _ _ _ hCmd
    exact hAck hOuter hCmd
  · exact (dispatchCommand_does hR hC).bind (fun _ => Does.pure _) w

theorem dispatchFrame_does (hR : FrameRules env (.ctl i) i f.sock R)
    (hC : CommandRules env i f h R) : Does R (dispatchFrame env i f h) :=
  fun w => dispatchFrame_at hR.toSwitchRules hC fun _ hCmd =>
    handleSafetyAuthAck_does hR.toAnswerRules hR.connected hR.told (hC.close hCmd) w

theorem unifiedDecrypt_does (hTick : ∀ w n, R w { w with tick := w.tick + n })
    (hIv : ∀ w iv, R w { w with regs := { w.regs with decryptIv := iv } })
    (hLog : ∀ w key iv iv' data, R w { w with log := w.log ++ [.decrypted i key iv iv' data] })
    (payload : Bytes) : Does R (unifiedDecrypt env i payload) := by
  refine Does.get.bind fun w => Does.ite (fun _ => Does.pure _) fun _ =>
    Does.bind (fun w => hTick w 1) fun heap => Does.ite (fun _ => Does.pure _) fun _ => ?_
  exact Does.bind (fun w => hTick w 1) fun heap => Does.bind (fun w => hIv w _) fun _ =>
    Does.bind (fun w => hLog w _ _ _ _) fun _ => Does.pure _

/-- **Frame rule.** What holds of the primitives holds of the frame. -/
theorem frameBody_does {frame : Bytes} (hDecrypt : Does R (unifiedDecrypt env i (framePayload frame)))
    (hR : FrameRules env (.ctl i) i sock R)
    (hC : ∀ f, f.sock = sock → f.cmd = frameCmd frame → CommandRules env i f h R) :
    Does R (frameBody env i sock h frame) :=
  hDecrypt.bind fun _ => (hR.oracle _).bind fun _ => dispatchFrame_does hR (hC _ rfl rfl)

/-- The frame rule for a relation that does not look at the registers. -/
theorem handleFrame_does {frame : Bytes} (hLoad : Does R (miplaySessionLoad i))
    (hDecrypt : Does R (unifiedDecrypt env i (framePayload frame)))
    (hR : ∀ sock, FrameRules env (.ctl i) i sock R)
    (hC : ∀ f, f.cmd = frameCmd frame → CommandRules env i f h R) :
    Does R (handleFrame env i h frame) := by
  refine Does.get.bind fun w => hLoad.bind fun _ =>
    (frameBody_does hDecrypt (hR _) fun f _ hCmd => hC f hCmd).bind fun r => ?_
  cases r with
  | next h' => exact (hR 0).save.bind fun _ => Does.pure _
  | inline r => exact (Does.pure _).bind fun _ => Does.pure _

/-- The greeting: keys, challenge and the first frame. -/
theorem greetSession_does {localIp : UInt32} {localPort : UInt16}
    (hRegs : ∀ w r, R w { w with regs := r })
    (hKeyed : ∀ sock conn key, Does R (emit (.keyed i sock conn key)))
    (hSend : ∀ sock, SendRules env (.ctl i) i sock R) (hSave : Does R (miplaySessionSave i)) :
    Does R (greetSession env i localIp localPort) := by
  have hAuth : Does R (generateAuthMsg env) := by
    -- four random words, then the register
    have hRandom : Does R (oracle env.random) := fun w => (hSend 0).tick w 1
    exact hRandom.bind fun _ => hRandom.bind fun _ => hRandom.bind fun _ => hRandom.bind fun _ w =>
      hRegs w _
  refine Does.bind (fun w => hRegs w _) fun _ => Does.get.bind fun w =>
    Does.bind (fun w => hRegs w _) fun _ => hAuth.bind fun _ => Does.get.bind fun w =>
      Does.get.bind fun w => (hKeyed _ _ _).bind fun _ => ?_
  exact ((hSend _).plain _ _ _).bind fun _ => hSave

/-! ## Local calls -/

theorem length_receiverControlBody {action body : Bytes} {value : Int}
    (hBody : receiverControlBody action value = some body) :
    body.length ≤ miplayMaxFramePayload := by
  have hKey (key : String) (hLen : (ascii key).length ≤ 16) :
      (keyNotify key).length ≤ miplayMaxFramePayload := by
    simp only [keyNotify, List.length_cons, List.length_append, List.length_nil,
      miplayMaxFramePayload]
    omega
  unfold receiverControlBody at hBody
  repeat' split at hBody
  all_goals cases hBody
  all_goals first
    | exact hKey _ (by decide)
    | simp only [putBe64, putBe32, ascii, List.length_cons, List.length_append, List.length_nil,
        miplayMaxFramePayload]
      decide

theorem controlPauseGate_does (hR : SwitchRules env .button i sock R) (action : Bytes) :
    Does R (controlPauseGate action) :=
  Does.ite (fun _ => hR.setAudioPaused true) fun _ =>
    Does.ite (fun _ => hR.setAudioPaused false) fun _ => Does.pure _

theorem emitReceiverControl_does (hR : SwitchRules env .button i sock R) {action body : Bytes}
    {value : Int} (hBody : receiverControlBody action value = some body) :
    Does R (emitReceiverControl env sock action value body) := by
  have hSend : Does R (do
      let sent ← sendEncryptedCmdAutoSeq env .button sock cmdNotify body
      if sent && (action = ascii "pause" || isResumeAction action) then
        let wire : Int := if action = ascii "pause" then 3 else 2
        miplayEmitMediaEvent
          { miplayMediaEventInit with
            status := wire
            deviceState := wire
            playerState := if action = ascii "pause" then .paused else .playing
            changed := { status := true, deviceState := true, playerState := true } }) := by
    refine (hR.auto _ _ (length_receiverControlBody hBody)).bind fun sent => ?_
    exact Does.ite (fun _ => hR.emitMediaEvent _) fun _ => Does.pure _
  exact Does.ite (fun _ => (hR.miplaySetVolume _).bind fun _ => hSend) fun _ => hSend

/-- A button, behind the load of its session's registers. -/
theorem receiverControlLoaded_does (hR : ∀ sock, SwitchRules env .button i sock R)
    (action : Bytes) (value : Int) :
    Does R (do
      let s := (← get).sess i
      if s.sock < 0 ∨ !s.inUse ∨ !s.regs.mediaSessionOpened ∨ !s.regs.hasSessionKey then return
      match receiverControlBody action value with
      | none => return
      | some body =>
        emitReceiverControl env s.sock action value body
        miplaySessionSave i) := by
  refine Does.get.bind fun w => Does.ite (fun _ => Does.pure _) fun _ => ?_
  split
  · exact Does.pure _
  · rename_i body hBody
    exact (emitReceiverControl_does (hR _) hBody).bind fun _ => (hR 0).save

/-- From where the registers of its session are loaded. -/
theorem receiverControlOn_at (hR : ∀ sock, SwitchRules env .button i sock R) (action : Bytes)
    (value : Int) (w : World) :
    R { w with regs := (w.sess i).regs } (w.after (receiverControlOn env i action value)) :=
  receiverControlLoaded_does hR action value _

omit [IsPreorder World R] in
/-- The gate comes first, then the session the button is routed to. -/
theorem after_sendReceiverControl (action : Bytes) (value : Int) (w : World) :
    w.after (miplaySendReceiverControl env action value) =
      (w.after (controlPauseGate action)).after (do
        match miplaySessionActive (← get) with
        | none => return
        | some i => receiverControlOn env i action value) := rfl

theorem sendReceiverControl_does (hLoad : ∀ i, Does R (miplaySessionLoad i))
    (hR : ∀ i sock, SwitchRules env .button i sock R) (action : Bytes) (value : Int) :
    Does R (miplaySendReceiverControl env action value) := by
  refine (controlPauseGate_does (hR 0 0) action).bind fun _ => Does.get.bind fun w => ?_
  split
  · exact Does.pure _
  · exact fun w => trans_of R (hLoad _ w) (receiverControlOn_at (hR _) action value w)

/-- The query, from where the registers of its session are loaded. -/
theorem sendMediaInfoQuery_at {S : Slot → World → World → Prop} [∀ i, IsPreorder World (S i)]
    (hR : ∀ i sock, SwitchRules env .button i sock (S i)) (sock : Int) (w : World) :
    w.after (miplaySendMediaInfoQuery env sock) = w ∨
      ∃ i, S i { w with regs := (w.sess i).regs } (w.after (miplaySendMediaInfoQuery env sock)) := by
  simp only [World.after, miplaySendMediaInfoQuery, run_bind, run_get]
  split
  · exact .inl rfl
  · rename_i i _
    have hOn : Does (S i) (do
        let w ← get
        if sock ≥ 0 ∧ (w.sess i).inUse ∧ w.regs.hasSessionKey then
          let _ ← sendEncryptedCmdAutoSeq env .button sock cmdGetMediaInfo []
        miplaySessionSave i) := by
      refine Does.get.bind fun w => Does.ite (fun _ => ?_) fun _ => (hR i sock).save
      exact ((hR i sock).auto _ _ (Nat.zero_le _)).bind fun _ => (hR i sock).save
    exact .inr ⟨i, hOn _⟩

theorem sendMediaInfoQuery_does (hLoad : ∀ i, Does R (miplaySessionLoad i))
    (hR : ∀ i sock, SwitchRules env .button i sock R) (sock : Int) :
    Does R (miplaySendMediaInfoQuery env sock) := by
  intro w
  change R w (w.after (miplaySendMediaInfoQuery env sock))
  obtain hSame | ⟨i, hOn⟩ := sendMediaInfoQuery_at hR sock w
  · rw [hSame]
    exact refl_of R w
  · exact trans_of R (hLoad i w) hOn

end Switch

/-! ## Starting and ending a media session -/

section MediaSession

variable [IsPreorder World R]

theorem startRtspSession_does (hTick : ∀ w n, R w { w with tick := w.tick + n })
    (hRtsp : ∀ w rtsp paused, R w { w with rtsp := rtsp, mediaPaused := paused })
    (hOpened : ∀ w, R w { w with regs := { w.regs with mediaSessionOpened := true } })
    (hTasks : ∀ w tasks n, R w { w with rtspTasks := tasks, nextTask := n })
    (hStarted : ∀ arg, Does R (emit (.rtspStarted i arg)))
    (host : Bytes) (port : Int) (has : Bool) (key : Block) (force : Bool) :
    Does R (miplayStartRtspSession env i sock host port has key force) := by
  have hCreate (arg : RtspArg) : Does R (createRtspTask env i arg) := by
    refine Does.bind (fun w => hRtsp w _ w.mediaPaused) fun _ => Does.bind (fun w => hTick w 1)
      fun heap => Does.ite (fun _ => ?_) fun _ => Does.pure _
    exact Does.bind (fun w => hTasks w w.rtspTasks _) fun h =>
      Does.bind (fun w => hTasks w _ w.nextTask) fun _ =>
        Does.bind (fun w => hRtsp w _ w.mediaPaused) fun _ => (hStarted arg).bind fun _ => Does.pure _
  refine Does.get.bind fun w => Does.ite (fun _ => Does.pure _) fun _ =>
    Does.ite (fun _ => Does.pure _) fun _ => ?_
  refine Does.bind (fun w => hRtsp w _ w.mediaPaused) fun _ =>
    Does.bind (fun w => hRtsp w w.rtsp _) fun _ => Does.bind hOpened fun _ =>
      Does.bind (fun w => hTick w 1) fun heap => ?_
  exact Does.ite (fun _ => Does.pure _) fun _ => hCreate _

theorem tryRestartRtsp_does
    (hStart : ∀ host port has key, Does R (miplayStartRtspSession env i sock host port has key false)) :
    Does R (miplayTryRestartRtsp env i sock) := by
  refine Does.get.bind fun w => Does.ite (fun _ => Does.pure _) fun _ =>
    Does.ite (fun _ => Does.pure _) fun _ => ?_
  exact (hStart _ _ _ _).bind fun _ => Does.pure _

theorem markClosed_does (generation : Nat)
    (hSess : ∀ w i, R w
      { w with sess := (Function.update w.sess i
        { w.sess i with regs := { (w.sess i).regs with mediaSessionOpened := false } }) })
    (hRegs : ∀ w, R w { w with regs := { w.regs with mediaSessionOpened := false } }) :
    Does R (miplayMarkMediaSessionClosed sock generation) := by
  refine Does.get.bind fun w => Does.ite (fun _ => ?_) fun _ => Does.pure _
  have hTail : Does R (do
      if w.activeClientSock = sock then
        modifyRegs fun r => { r with mediaSessionOpened := false }) :=
    Does.ite (fun _ => hRegs) fun _ => Does.pure _
  dsimp only
  split
  · exact Does.bind (fun w => hSess w _) fun _ => hTail
  · exact hTail

end MediaSession

/-! ## Tasks -/

/-- What a step of an RTSP or image task is put together from, the stop on a TEARDOWN
apart; `Free` is what is known of a descriptor number that `socket` returns. -/
structure SessionRules (env : Env) (who : Owner) (Free : World → Int → Prop)
    (R : World → World → Prop) : Prop where
  tick : ∀ w n, R w { w with tick := w.tick + n }
  /-- of the process-wide variables the tasks change these -/
  shared : ∀ (w : World) task buf image multi imagePort multiPort pending, R w
    { w with rtsp := { w.rtsp with
      task := task, buf := buf, imageSock := image, multiSock := multi
      imagePort := imagePort, multiPort := multiPort, restartPending := pending } }
  opened : ∀ w fd, Free w fd → R w ((openFd who fd).run w).2
  closed : ∀ fd, Does R (closeFd who fd)
  used : ∀ fd, Does R (useFd who fd)
  imageTask : ∀ h t, Does R (setImageTask h t)
  mediaTask : ∀ h t, Does R (setMediaTask h t)
  newTask : Does R newTask
  markClosed : ∀ sock generation, Does R (miplayMarkMediaSessionClosed sock generation)

/-- The same with what a media task does besides. -/
structure ActivityRules (env : Env) (who : Owner) (Free : World → Int → Prop)
    (R : World → World → Prop) : Prop extends SessionRules env who Free R where
  media : ∀ w media, R w { w with media := media }
  mediaCb : ∀ w e, R w { w with log := w.log ++ [.mediaCb e] }
  startCb : ∀ w start, R w { w with log := w.log ++ [.mediaStartCb start] }

/-- All that a task does. -/
structure TaskRules (env : Env) (who : Owner) (Free : World → Int → Prop)
    (R : World → World → Prop) : Prop extends ActivityRules env who Free R where
  stopped : ∀ w, R w { w with running := false }

/-! ### Messages

What a handshake message leads to is a few answers on the RTSP socket. -/

section Messages

variable {who : Owner} [IsPreorder World R]

theorem answer_does (hUsed : ∀ fd, Does R (useFd who fd)) (r : RtspRun) :
    Does R (rtspAnswer who r) :=
  (hUsed _).bind fun _ => Does.pure _

theorem handleResponse_does (hUsed : ∀ fd, Does R (useFd who fd)) (r : RtspRun)
    (headers : Bytes) : Does R (rtspHandleResponse who r headers) := by
  refine Does.ite (fun _ => Does.pure _) fun _ => Does.ite (fun _ => Does.pure _) fun _ =>
    Does.ite (fun _ => Does.pure _) fun _ => Does.ite (fun _ => ?_) fun _ => ?_
  · exact (hUsed _).bind fun _ => Does.pure _
  · exact Does.ite (fun _ => Does.pure _) fun _ => Does.pure _

theorem handleRequest_does (hUsed : ∀ fd, Does R (useFd who fd)) (r : RtspRun)
    (headers body : Bytes) : Does R (rtspHandleRequest who r headers body) := by
  have hAnswer (r' : RtspRun) : Does R (do useFd who r.sock; return r') :=
    (hUsed _).bind fun _ => Does.pure _
  refine Does.ite (fun _ => (hUsed _).bind fun _ => ?_) fun _ => ?_
  · exact Does.ite (fun _ => Does.pure _) fun _ => hAnswer _
  refine Does.ite (fun _ => Does.ite (fun _ => hAnswer _) fun _ => Does.pure _) fun _ => ?_
  refine Does.ite (fun _ => ?_) fun _ => ?_
  · -- the data sockets are opened at the program points that follow
    refine Does.get.bind fun w => Does.ite (fun _ => Does.pure _) fun _ => hAnswer _
  refine Does.ite (fun _ => (hUsed _).bind fun _ => ?_) fun _ => ?_
  · exact Does.ite (fun _ => hAnswer _) fun _ => Does.pure _
  refine Does.ite (fun _ => hAnswer _) fun _ => ?_
  exact Does.ite (fun _ => hAnswer _) fun _ => hAnswer _

theorem handleHandshake_does (hUsed : ∀ fd, Does R (useFd who fd)) (r : RtspRun)
    (headers body : Bytes) : Does R (rtspHandleHandshake who r headers body) :=
  Does.ite (fun _ => handleResponse_does hUsed r headers)
    fun _ => handleRequest_does hUsed r headers body

end Messages

namespace SessionRules

variable {who : Owner} {Free : World → Int → Prop}

theorem oracle (hR : SessionRules env who Free R) {α : Type} (g : Nat → α) : Does R (oracle g) :=
  fun w => hR.tick w 1

theorem modifyRtsp (hR : SessionRules env who Free R) {g : Rtsp → Rtsp}
    (hg : ∀ s, g s = { s with
      task := (g s).task, buf := (g s).buf, imageSock := (g s).imageSock
      multiSock := (g s).multiSock, imagePort := (g s).imagePort
      multiPort := (g s).multiPort, restartPending := (g s).restartPending }) :
    Does R (modifyRtsp g) := by
  intro w
  have h := hR.shared w (g w.rtsp).task (g w.rtsp).buf (g w.rtsp).imageSock (g w.rtsp).multiSock
    (g w.rtsp).imagePort (g w.rtsp).multiPort (g w.rtsp).restartPending
  rw [← hg] at h
  exact h

theorem bufReset (hR : SessionRules env who Free R) : Does R rtspReadMsgReset :=
  hR.modifyRtsp fun _ => rfl

variable [IsPreorder World R]

theorem scanBuffer (hR : SessionRules env who Free R) (inBody : Bool) :
    Does R (do
      let used := (← get).rtsp.buf.used
      match rtspResume inBody used with
      | .more buf inBody =>
        Miplay.modifyRtsp fun s => { s with buf := { s.buf with used := buf } }
        return ReadResult.block inBody
      | .message headers body rest =>
        Miplay.modifyRtsp fun s => { s with buf := { s.buf with used := rest } }
        return .message headers body
      | .fail buf setsErrno =>
        Miplay.modifyRtsp fun s => { s with buf := { s.buf with used := buf } }
        return .failed setsErrno) := by
  refine Does.get.bind fun w => ?_
  dsimp only
  split
  all_goals exact (hR.modifyRtsp fun _ => rfl).bind fun _ => Does.pure _

theorem readMsg (hR : SessionRules env who Free R) (inBody : Bool) :
    Does R (rtspReadMsg env inBody) := by
  have hScan := hR.scanBuffer inBody
  refine Does.get.bind fun w => Does.ite (fun _ => (hR.oracle _).bind fun heap => ?_) fun _ => hScan
  exact Does.ite (fun _ => Does.pure _) fun _ => (hR.modifyRtsp fun _ => rfl).bind fun _ => hScan

theorem handleKeepalive (hR : SessionRules env who Free R)
    (hStopped : ∀ w, R w { w with running := false }) (r : RtspRun) (headers : Bytes) :
    Does R (rtspHandleKeepalive who r headers) := by
  refine Does.ite (fun _ => Does.pure _) fun _ => (hR.used _).bind fun _ => ?_
  exact Does.ite (fun _ => Does.bind hStopped fun _ => Does.pure _) fun _ => Does.pure _

theorem received (hR : SessionRules env who Free R) (r : RtspRun) (again gone : RtspPc)
    (keepalive : Bool) (o : Outcome) : Does R (rtspReceived who r again gone keepalive o) := by
  unfold rtspReceived
  split
  · exact (hR.used _).bind fun _ => (hR.modifyRtsp fun _ => rfl).bind fun _ => Does.pure _
  all_goals exact (hR.used _).bind fun _ => Does.pure _

theorem closeImageSock (hR : SessionRules env who Free R) : Does R (closeImageSock who) :=
  Does.get.bind fun _ => Does.ite
    (fun _ => (hR.closed _).bind fun _ => hR.modifyRtsp fun _ => rfl) fun _ => Does.pure _

theorem closeMultiSock (hR : SessionRules env who Free R) : Does R (closeMultiSock who) :=
  Does.get.bind fun _ => Does.ite
    (fun _ => (hR.closed _).bind fun _ => hR.modifyRtsp fun _ => rfl) fun _ => Does.pure _

theorem startImageDrain (hR : SessionRules env who Free R) (generation : Nat) :
    Does R (startImageDrain env who generation) := by
  refine Does.get.bind fun w => (hR.oracle _).bind fun first => (hR.oracle _).bind fun second => ?_
  refine Does.ite (fun _ => hR.newTask.bind fun h => (hR.imageTask _ _).bind fun _ => ?_) fun _ => ?_
  · exact hR.modifyRtsp fun _ => rfl
  · exact (hR.closed _).bind fun _ => hR.modifyRtsp fun _ => rfl

theorem launchMedia (hR : SessionRules env who Free R) (r : RtspRun) : Does R (launchMedia env r) := by
  refine Does.get.bind fun w => (hR.oracle _).bind fun first => (hR.oracle _).bind fun second => ?_
  exact Does.ite (fun _ => hR.newTask.bind fun h => (hR.mediaTask _ _).bind fun _ =>
    hR.modifyRtsp fun _ => rfl) fun _ => Does.pure _

/-- A data socket whose number goes into a process-wide variable. -/
theorem dataSocket (hR : SessionRules env who Free R) {w : World} {n : Int} {g : Rtsp → Rtsp} {α : Type}
    {k : M α} (hFree : ¬n < 0 → Free w n)
    (hg : ∀ s, g s = { s with
      task := (g s).task, buf := (g s).buf, imageSock := (g s).imageSock
      multiSock := (g s).multiSock, imagePort := (g s).imagePort
      multiPort := (g s).multiPort, restartPending := (g s).restartPending })
    (hk : Does R k) :
    R w ((do
      if n ≥ 0 then openFd who n
      Miplay.modifyRtsp g
      k).run w).2 := by
  have hRest : Does R (do Miplay.modifyRtsp g; k) := (hR.modifyRtsp hg).bind fun _ => hk
  dsimp only
  split
  · exact trans_of R (hR.opened w n (hFree (by omega))) (hRest _)
  · exact hRest w

/-- Both data sockets are given up. -/
theorem closeData (hR : SessionRules env who Free R) (r : RtspRun) :
    Does R (do
      let w ← get
      closeFd who w.rtsp.imageSock
      closeFd who w.rtsp.multiSock
      Miplay.modifyRtsp fun s => { s with imageSock := -1, multiSock := -1 }
      rtspAnswer who r) :=
  Does.get.bind fun _ => (hR.closed _).bind fun _ => (hR.closed _).bind fun _ =>
    (hR.modifyRtsp fun _ => rfl).bind fun _ => answer_does hR.used r

/-- A step of an RTSP run, in its task or inline; only the keepalive loop can stop
the service. -/
theorem rtspRunStep (hR : SessionRules env who Free R) (r : RtspRun) {o : Outcome} {w : World}
    (hFits : o.fits w r.pc) (hFree : ∀ n, o = .fd n → w.kernel.fds n = none → Free w n)
    (hStopped : r.pc = .keepRead → ∀ w, R w { w with running := false }) :
    R w ((rtspRunStep env who r o).run w).2 := by
  unfold Miplay.rtspRunStep
  cases hPc : r.pc with
  | start => exact (hR.bufReset.bind fun _ => Does.pure _) w
  | socket attempt =>
    rw [hPc] at hFits
    refine Does.get_bind_at ?_
    split
    · exact refl_of R w
    cases o with
    | fd n =>
      dsimp only
      split
      · exact refl_of R w
      · -- a number that is handed out is not in use
        have hUnused : w.kernel.fds n = none := by
          simp only [Outcome.fits] at hFits
          grind
        exact hR.opened w n (hFree n rfl hUnused)
    | _ => exact refl_of R w
  | connect attempt =>
    cases o with
    | connected p q => exact (hR.bufReset.bind fun _ => Does.pure _) w
    | _ => exact ((hR.closed _).bind fun _ => Does.pure _) w
  | buffers =>
    refine ((hR.oracle _).bind fun first => (hR.oracle _).bind fun second => ?_ : Does R _) w
    exact Does.ite (fun _ => hR.bufReset.bind fun _ => Does.pure _)
      fun _ => (hR.closed _).bind fun _ => Does.pure _
  | loop => exact (Does.get.bind fun _ => Does.ite (fun _ => Does.pure _) fun _ => Does.pure _) w
  | read =>
    refine ((hR.readMsg _).bind fun result => ?_ : Does R _) w
    cases result with
    | block => exact Does.pure _
    | message headers body =>
      exact handleHandshake_does hR.used _ _ _
    | failed setsErrno => exact Does.ite (fun _ => Does.pure _) fun _ => Does.pure _
  | recv => exact hR.received r _ _ _ o w
  | imageSocket =>
    rw [hPc] at hFits
    cases o with
    | fd n =>
      exact hR.dataSocket (fun hn => hFree n rfl (hFits.resolve_left hn)) (fun _ => rfl) (Does.pure _)
    | _ => exact refl_of R w
  | multiSocket =>
    rw [hPc] at hFits
    cases o with
    | fd n =>
      exact hR.dataSocket (fun hn => hFree n rfl (hFits.resolve_left hn)) (fun _ => rfl)
        (Does.get.bind fun _ => Does.ite (fun _ => Does.pure _) fun _ => answer_does hR.used r)
    | _ => exact refl_of R w
  | imageConnect =>
    cases o with
    | connected p q => exact refl_of R w
    | _ => exact hR.closeData r w
  | multiConnect =>
    cases o with
    | connected p q => exact ((hR.modifyRtsp fun _ => rfl).bind fun _ => Does.pure _) w
    | _ => exact hR.closeData r w
  | imageTask => exact ((hR.startImageDrain _).bind fun _ => answer_does hR.used r) w
  | launch =>
    exact (Does.ite (fun _ => (hR.launchMedia r).bind fun _ => Does.pure _)
      fun _ => Does.pure _ : Does R _) w
  | keepRead =>
    refine (Does.get.bind fun _ => Does.ite (fun _ => Does.pure _) fun _ =>
      (hR.readMsg _).bind fun result => ?_ : Does R _) w
    cases result with
    | block => exact Does.pure _
    | message headers body => exact hR.handleKeepalive (hStopped hPc) _ _
    | failed setsErrno => exact Does.ite (fun _ => Does.pure _) fun _ => Does.pure _
  | keepRecv => exact hR.received r _ _ _ o w
  | closeRtsp =>
    exact (Does.ite (fun _ => (hR.closed _).bind fun _ => Does.pure _)
      fun _ => Does.pure _ : Does R _) w
  | closeImage => exact (hR.closeImageSock.bind fun _ => Does.pure _) w
  | closeMulti => exact (hR.closeMultiSock.bind fun _ => Does.pure _) w
  | clearPorts => exact ((hR.modifyRtsp fun _ => rfl).bind fun _ => Does.pure _) w
  | markClosed => exact ((hR.markClosed _ _).bind fun _ => Does.pure _) w
  | checkPending =>
    exact (Does.get.bind fun _ => Does.ite (fun _ => Does.pure _) fun _ => Does.pure _) w
  | setPending => exact ((hR.modifyRtsp fun _ => rfl).bind fun _ => Does.pure _) w
  | done => exact refl_of R w

end SessionRules

/-! ### Media and image tasks -/

namespace ActivityRules

variable {who : Owner} {Free : World → Int → Prop} [IsPreorder World R]

theorem emitStateEvent (hR : ActivityRules env who Free R) (wireState : Int) (player : PlayerState) :
    Does R (miplayEmitStateEvent env wireState player) := by
  refine (hR.oracle _).bind fun heap => Does.ite (fun _ => ?_) fun _ => Does.pure _
  refine Does.ite (fun _ => ?_) fun _ => Does.pure _
  exact Does.bind (fun w => hR.media w _) fun _ w => hR.mediaCb w _

theorem mediaStep {handle : Nat} (hR : ActivityRules env (.media handle) Free R) (m : MediaRun)
    (o : Outcome) : Does R (mediaStep env handle m o) := by
  unfold Miplay.mediaStep
  cases hPc : m.pc with
  | start => exact Does.bind (fun w => hR.startCb w true) fun _ => Does.pure _
  | alloc =>
    refine (hR.oracle _).bind fun heap => Does.ite (fun _ => Does.pure _) fun _ => ?_
    exact Does.ite (fun _ => (hR.closed _).bind fun _ => Does.pure _) fun _ => Does.pure _
  | loop => exact Does.get.bind fun w => Does.ite (fun _ => Does.pure _) fun _ => Does.pure _
  | recv =>
    refine Does.get.bind fun w => Does.ite (fun _ => Does.pure _) fun _ => ?_
    cases o with
    | data bytes packet =>
      refine (hR.used _).bind fun _ => Does.ite (fun _ => Does.pure _) fun _ => ?_
      exact Does.ite (fun _ => (hR.emitStateEvent _ _).bind fun _ => Does.pure _)
        fun _ => Does.pure _
    | _ => exact (hR.used _).bind fun _ => Does.pure _
  | stop =>
    refine Does.get.bind fun w => Does.ite (fun _ => ?_) fun _ => Does.pure _
    exact Does.bind (fun w => hR.startCb w false) fun _ => Does.pure _
  | markClosed => exact (hR.markClosed _ _).bind fun _ => Does.pure _
  | emitStopped =>
    refine Does.get.bind fun w => Does.ite (fun _ => ?_) fun _ => Does.pure _
    exact (hR.emitStateEvent _ _).bind fun _ => Does.pure _
  | closeMedia => exact (hR.closed _).bind fun _ => Does.pure _
  | closeRtsp =>
    exact Does.ite (fun _ => (hR.closed _).bind fun _ => Does.pure _) fun _ => Does.pure _
  | closeImage => exact hR.closeImageSock.bind fun _ => Does.pure _
  | clearPorts => exact (hR.modifyRtsp fun _ => rfl).bind fun _ => Does.pure _

end ActivityRules

theorem SessionRules.imageStep {Free : World → Int → Prop} [IsPreorder World R] {handle : Nat}
    (hR : SessionRules env (.image handle) Free R) (t : ImageRun)
    (o : Outcome) : Does R (Miplay.imageStep handle t o) := by
  refine Does.ite (fun _ => (hR.closed _).bind fun _ => Does.pure _) fun _ => Does.get.bind fun w =>
    Does.ite (fun _ => Does.pure _) fun _ => (hR.used _).bind fun _ => ?_
  cases o <;> exact Does.pure _

theorem TaskRules.rtspRunStep {who : Owner} {Free : World → Int → Prop} [IsPreorder World R]
    (hR : TaskRules env who Free R) (r : RtspRun) {o : Outcome} {w : World} (hFits : o.fits w r.pc)
    (hFree : ∀ n, o = .fd n → w.kernel.fds n = none → Free w n) :
    R w ((Miplay.rtspRunStep env who r o).run w).2 :=
  hR.toSessionRules.rtspRunStep r hFits hFree fun _ => hR.stopped

end EspMiplay.Miplay
