import EspMiplay.Miplay.Handshake

/-!
# Containers that are refused

A payload that `safety_decrypt` refuses is not dropped: the switch goes on with
the container itself as payload. Most branches make nothing of it, because a
container starts with a zero byte: to the notify reader that is an empty label,
to the JSON reader an empty text, and as a volume its first word is out of range.

- OPEN, SafetyAuth and SafetyAuthAck ask for a decrypted payload and drop it.
- Pause and Resume do not look at their payload, SetPosition takes any eight
  bytes: those three carry the command out.
- SetMediaInfo tries to restart the stream whatever it read.
- A container refused for its padding has moved the IV of the session.

## Results

* `dispatchFrame_container` — the switch on a refused container.
* `refused_decryptIv`       — when a refusal leaves the IV.
* `corrupt_along`           — refused containers without effect, over runs.
* `corrupt_pauses`          — a refused container that pauses the player.
-/

namespace EspMiplay.Miplay

open Effect Transition

/-! ## The condition -/

/-- The payload is run through `safety_decrypt`, which refuses it. -/
def Refused (env : Env) (w : World) (i : Slot) (payload : Bytes) : Prop :=
  let r := (w.sess i).regs
  r.hasSessionKey ∧ SafetyMarked payload ∧ env.heap w.tick ∧
    (decryptPayload env.aes (env.heap (w.tick + 1)) payload r.aesKey r.decryptIv).1 = none

/-- The refusal comes before the cipher runs, or the last ciphertext block happens to
be the IV. -/
def RefusedWithIv (env : Env) (w : World) (i : Slot) (payload : Bytes) : Prop :=
  RefusedEarly (env.heap (w.tick + 1)) payload payload.length ∨
    (ciphertextBlocks payload).getLastD (w.sess i).regs.decryptIv = (w.sess i).regs.decryptIv

/-- There is a stream target, and no run holds back a restart from slot `i`. -/
def CanRestart (w : World) (i : Slot) : Prop :=
  0 < w.rtsp.portSaved ∧ w.rtsp.hostSaved ≠ [] ∧
    ¬((w.sess i).regs.mediaSessionOpened ∧ w.rtsp.task.isSome)

/-- No command that is carried out whatever its payload is. -/
def NeedsPayload (w : World) (i : Slot) (frame : Bytes) : Prop :=
  outerType frame = 0x04 ∨
    frameCmd frame ≠ cmdPause ∧ frameCmd frame ≠ cmdResume ∧ frameCmd frame ≠ cmdSetPosition ∧
      (frameCmd frame = cmdSetMediaInfo → ¬CanRestart w i)

/-- The slot and the frame that a step takes off its buffer. -/
def Action.received (w : World) : Action → Option (Slot × Bytes)
  | .frame i =>
    match w.ctl i with
    | some (.serving h) =>
      match frameMove h.buf with
      | .take fr _ => some (i, fr)
      | _ => none
    | _ => none
  | _ => none

theorem received_frame {w : World} {i : Slot} {h : Handler} {frame : Bytes} {n : Nat}
    (hCtl : w.ctl i = some (.serving h)) (hMove : frameMove h.buf = .take frame n) :
    (Action.frame i).received w = some (i, frame) := by
  simp only [Action.received, hCtl, hMove]

instance (env : Env) (w : World) (i : Slot) (payload : Bytes) : Decidable (Refused env w i payload) :=
  inferInstanceAs (Decidable (_ ∧ _ ∧ _ ∧ _))

instance (env : Env) (w : World) (i : Slot) (payload : Bytes) :
    Decidable (RefusedWithIv env w i payload) :=
  inferInstanceAs (Decidable (_ ∨ _))

instance (w : World) (i : Slot) : Decidable (CanRestart w i) :=
  inferInstanceAs (Decidable (_ ∧ _ ∧ ¬_))

instance (w : World) (i : Slot) (frame : Bytes) : Decidable (NeedsPayload w i frame) :=
  inferInstanceAs (Decidable (_ ∨ _ ∧ _ ∧ _ ∧ (_ → _)))

/-! ## A container is no payload -/

/-- The payload starts like a container. -/
structure Container (payload : Bytes) : Prop where
  head : payload.take 4 = [0x00, 0x07, safetyDataVersion, safetyDataFlags]
  length : 6 ≤ payload.length

namespace Container

variable {payload : Bytes}

theorem eq_cons (h : Container payload) : ∃ rest, payload = 0 :: rest ∧ 5 ≤ rest.length := by
  cases payload with
  | nil => cases h.head
  | cons b rest =>
    have hHead := h.head
    have hLen := h.length
    simp only [List.take_succ_cons, List.cons.injEq] at hHead
    simp only [List.length_cons] at hLen
    exact ⟨rest, by rw [hHead.1], by omega⟩

/-- No notify. -/
theorem notify (h : Container payload) (heap : Nat → Bool) (e : MediaEvent) :
    miplayParseNotifyPayload heap payload e = none := by
  obtain ⟨rest, rfl, -⟩ := h.eq_cons
  exact miplayParseNotifyPayload_zero heap rest e

/-- No media information. -/
theorem mediaInfoEx (h : Container payload) (heap : Nat → Bool) :
    miplayParseMediaInfoEx heap payload = none := by
  obtain ⟨rest, rfl, -⟩ := h.eq_cons
  simp [miplayParseMediaInfoEx, opackReadLabel_zero]

/-- No JSON text. -/
theorem json (h : Container payload) (heap : Nat → Bool) :
    miplayParseSetMediaInfoJson heap payload miplayMediaEventInit = (miplayMediaEventInit, false) := by
  obtain ⟨rest, rfl, -⟩ := h.eq_cons
  exact miplayParseSetMediaInfoJson_nul heap rest

/-- No player state. -/
theorem mediaState (h : Container payload) (heap : Nat → Bool) :
    miplayParseMediaStatePayload heap payload miplayMediaEventInit = none := by
  obtain ⟨rest, rfl, hLen⟩ := h.eq_cons
  exact miplayParseMediaStatePayload_nul heap hLen

/-- No member of a C string. -/
theorem member (h : Container payload) (behind : Bytes) {needle : Bytes}
    (hNeedle : needle.headD 0 ≠ 0) : strstr needle (payload ++ behind) = none := by
  obtain ⟨rest, rfl, -⟩ := h.eq_cons
  exact strstr_of_nul hNeedle rfl

/-- No volume: the word is 459232. -/
theorem volume (h : Container payload) : ¬opackU32Be payload ≤ 100 := by
  have hWord : opackU32Be payload = opackU32Be (payload.take 4) := by
    simp only [opackU32Be, List.getD_eq_getElem?_getD, List.getElem?_take]
    simp
  rw [hWord, h.head]
  decide

end Container

/-! ## The switch on a container -/

/-- What the switch leaves alone. -/
structure Untouched (w w' : World) : Prop extends SamePlayer w w' where
  rtsp : w'.rtsp = w.rtsp
  decryptIv : w'.regs.decryptIv = w.regs.decryptIv
  opened : w'.regs.mediaSessionOpened = w.regs.mediaSessionOpened
  stored : ∀ j, (w'.sess j).regs = (w.sess j).regs

instance : IsPreorder World Untouched where
  refl w := ⟨refl_of SamePlayer w, rfl, rfl, rfl, fun _ => rfl⟩
  trans _ _ _ h h' :=
    ⟨trans_of SamePlayer h.toSamePlayer h'.toSamePlayer, h'.rtsp.trans h.rtsp,
      h'.decryptIv.trans h.decryptIv, h'.opened.trans h.opened,
      fun j => (h'.stored j).trans (h.stored j)⟩

theorem untouched_send (env : Env) (who : Owner) (i : Slot) (sock : Int) :
    SendRules env who i sock Untouched :=
  .of_log (fun _ _ => ⟨⟨rfl, rfl, rfl, rfl⟩, rfl, rfl, rfl, fun _ => rfl⟩)
    (fun _ _ _ => ⟨⟨rfl, rfl, rfl, rfl⟩, rfl, rfl, rfl, fun _ => rfl⟩)
    (fun _ _ _ _ _ => ⟨⟨rfl, rfl, rfl, rfl⟩, rfl, rfl, rfl, fun _ => rfl⟩)
    fun w => ⟨⟨rfl, rfl, rfl, rfl⟩, rfl, rfl, rfl, fun j => by
      by_cases hj : j = i
      · subst hj
        simp
      · simp [hj]⟩

section Switch

variable {env : Env} {i : Slot} {f : Frame} {h : Handler}

theorem handleNotify_container (hPayload : Container f.payload) :
    Does Untouched (handleNotify env f) := by
  have hR := untouched_send env .button 0 f.sock
  refine (hR.heapWindow _).bind fun heap => ?_
  rw [hPayload.notify]
  exact Does.pure _

theorem handleGetMediaInfoAck_container (hPayload : Container f.payload) :
    Does Untouched (handleGetMediaInfoAck env f) := by
  have hR := untouched_send env .button 0 f.sock
  refine (hR.heapWindow _).bind fun heap => ?_
  rw [hPayload.mediaInfoEx, hPayload.json, hPayload.notify]
  exact hR.setReverseReady

theorem handleSetPlaySource_container (hPayload : Container f.payload) :
    Does Untouched (handleSetPlaySource env i f) := by
  have hR := untouched_send env (.ctl i) i f.sock
  refine (hR.heapWindow _).bind fun heap => ?_
  rw [hPayload.json]
  exact (reply_does hR _ _).bind fun _ => Does.ite
    (fun _ w => hR.ready w w.regs.reverseControlReady true) fun _ => Does.pure _

theorem handleSetVolume_container (hPayload : Container f.payload) :
    Does Untouched (handleSetVolume env i f) := by
  have hR := untouched_send env (.ctl i) i f.sock
  have hAnswer : Does Untouched (do
      ack env i f (cmdSetVolume + 1) (scalarBody (← get).volumePercent)
      let _ ← sendEncryptedCmdAutoSeq env (.ctl i) f.sock cmdNotify
        (volumeNotify (← get).volumePercent)) :=
    Does.get.bind fun w => (ack_does hR _ _).bind fun _ => Does.get.bind fun w' =>
      (hR.auto _ _ (by rw [SendRules.length_volumeNotify]; decide)).bind fun _ => Does.pure _
  refine Does.ite (fun _ => ?_) fun _ => hAnswer
  exact Does.ite (fun hVol => absurd hVol hPayload.volume) fun _ => hAnswer

theorem handleSetMirrorKey_container (hPayload : Container f.payload) :
    Does Untouched (handleSetMirrorKey env i f) := by
  have hR := untouched_send env (.ctl i) i f.sock
  have hNone {needle : String} (hNeedle : (ascii needle).headD 0 ≠ 0) :
      strstr (ascii needle) f.mem = none :=
    hPayload.member f.behind hNeedle
  unfold handleSetMirrorKey
  rw [hNone (by decide), hNone (by decide), hNone (by decide)]
  exact ack_does hR _ _

theorem handleSetMediaState_container (hPayload : Container f.payload) :
    Does Untouched (handleSetMediaState env i f) := by
  have hR := untouched_send env (.ctl i) i f.sock
  refine (hR.heapWindow _).bind fun heap => ?_
  rw [hPayload.mediaState]
  exact ack_does hR _ _

/-- SetMediaInfo, as long as it cannot restart the stream. -/
theorem handleSetMediaInfo_container {w : World} (hPayload : Container f.payload)
    (hRestart : 0 < w.rtsp.portSaved → w.rtsp.hostSaved ≠ [] →
      w.regs.mediaSessionOpened ∧ w.rtsp.task.isSome) :
    Untouched w (w.after (handleSetMediaInfo env i f)) := by
  have hR := untouched_send env (.ctl i) i f.sock
  -- the restart looks at the world behind the answer
  have hAck : Untouched w (w.after (do
      let _ ← heapWindow env 16
      ack env i f cmdSetMediaInfoAck [])) :=
    ((hR.heapWindow 16).bind fun _ => ack_does hR _ _) w
  have hRun : w.after (handleSetMediaInfo env i f) =
      (w.after (do
        let _ ← heapWindow env 16
        ack env i f cmdSetMediaInfoAck [])).after (miplayTryRestartRtsp env i f.sock) := by
    simp only [World.after, handleSetMediaInfo, run_bind, hPayload.json]
  rw [hRun]
  refine trans_of Untouched hAck ?_
  generalize w.after _ = w₁ at hAck
  simp only [World.after, miplayTryRestartRtsp, run_bind, run_get]
  by_cases hTarget : w₁.rtsp.portSaved ≤ 0 ∨ w₁.rtsp.hostSaved = []
  · rw [if_pos hTarget]
    exact refl_of Untouched w₁
  · rw [not_or, hAck.rtsp] at hTarget
    have hOpen := hRestart (by omega) hTarget.2
    rw [← hAck.opened, ← hAck.rtsp] at hOpen
    rw [if_neg (by rw [not_or, hAck.rtsp]; exact hTarget), if_pos (by simpa using hOpen)]
    exact refl_of Untouched w₁

/-- The commands that read their payload make nothing of a container. -/
theorem dispatchCommand_container {w : World} (hPayload : Container f.payload)
    (hPause : f.cmd ≠ cmdPause) (hResume : f.cmd ≠ cmdResume) (hPosition : f.cmd ≠ cmdSetPosition)
    (hRestart : f.cmd = cmdSetMediaInfo → 0 < w.rtsp.portSaved → w.rtsp.hostSaved ≠ [] →
      w.regs.mediaSessionOpened ∧ w.rtsp.task.isSome) :
    Untouched w (w.after (dispatchCommand env i f)) := by
  by_cases hCmd : f.cmd ∉ playerCommands
  · exact dispatchCommand_answers (untouched_send ..) hCmd w
  rw [not_not] at hCmd
  simp only [playerCommands, List.mem_cons, List.not_mem_nil, or_false, hPause, hResume, hPosition,
    false_or] at hCmd
  unfold dispatchCommand
  rcases hCmd with hCmd | hCmd | hCmd | hCmd | hCmd | hCmd | hCmd
  · rw [if_pos hCmd]
    exact handleNotify_container hPayload w
  all_goals rw [hCmd]
  · exact handleGetMediaInfoAck_container hPayload w
  · exact handleSetPlaySource_container hPayload w
  · exact handleSetVolume_container hPayload w
  · exact handleSetMirrorKey_container hPayload w
  · exact handleSetMediaInfo_container hPayload (hRestart hCmd)
  · exact handleSetMediaState_container hPayload w

theorem handleAlone_container (hPayload : Container f.payload) :
    Does Untouched (handleAlone env i f) := by
  have hR := untouched_send env (.ctl i) i f.sock
  refine Does.ite (fun _ => ?_) fun _ => Does.ite (fun _ => handleAloneGetState_does hR) fun _ =>
    Does.ite (fun _ => ?_) fun _ => Does.pure _
  · refine (hR.heapWindow _).bind fun heap => ?_
    rw [hPayload.mediaState]
    exact ack_does hR _ _
  · refine (hR.heapWindow _).bind fun heap => ?_
    rw [hPayload.json, hPayload.notify]
    exact ack_does hR _ _

/-- **The switch on a refused container.** -/
theorem dispatchFrame_container {w : World} (hPayload : Container f.payload)
    (hRefused : f.decrypted = none)
    (hCmd : f.outer = 0x04 ∨ f.cmd ≠ cmdPause ∧ f.cmd ≠ cmdResume ∧ f.cmd ≠ cmdSetPosition ∧
      (f.cmd = cmdSetMediaInfo → 0 < w.rtsp.portSaved → w.rtsp.hostSaved ≠ [] →
        w.regs.mediaSessionOpened ∧ w.rtsp.task.isSome)) :
    Untouched w (w.after (dispatchFrame env i f h)) := by
  have hR := untouched_send env (.ctl i) i f.sock
  unfold dispatchFrame
  by_cases hOuter : f.outer = 0x04
  · rw [if_pos hOuter]
    exact (handleAlone_container hPayload).bind (fun _ => Does.pure _) w
  · obtain ⟨hPause, hResume, hPosition, hRestart⟩ := hCmd.resolve_left hOuter
    rw [if_neg hOuter]
    by_cases hOpen : f.cmd = cmdOpenDevice
    · rw [if_pos hOpen, handleOpenDevice, hRefused]
      exact refl_of Untouched w
    rw [if_neg hOpen]
    by_cases hInfo : f.cmd = cmdSafetyInfo
    · rw [if_pos hInfo]
      exact (handleSafetyInfo_does hR).bind (fun _ => Does.pure _) w
    rw [if_neg hInfo]
    by_cases hAuth : f.cmd = cmdSafetyAuth
    · rw [if_pos hAuth]
      exact handleSafetyAuth_does.bind (fun _ => Does.pure _) w
    rw [if_neg hAuth]
    by_cases hAck : f.cmd = cmdSafetyAuthAck
    · rw [if_pos hAck, handleSafetyAuthAck, hRefused]
      exact refl_of Untouched w
    rw [if_neg hAck]
    have hCommand : Untouched w (w.after (dispatchCommand env i f)) :=
      dispatchCommand_container hPayload hPause hResume hPosition hRestart
    exact hCommand

end Switch

/-! ## Decryption -/

theorem refused_decryptIv {aes : Aes} {heap : Bool} {payload : Bytes} {key iv : Block}
    (hLen : payload.length ≤ miplayMaxFramePayload)
    (hNone : (decryptPayload aes heap payload key iv).1 = none) :
    (decryptPayload aes heap payload key iv).2 = iv ↔
      RefusedEarly heap payload payload.length ∨ (ciphertextBlocks payload).getLastD iv = iv := by
  have hSize : payload.length ≤ intMax := hLen.trans (by decide)
  have hResult : decryptPayload aes heap payload key iv =
      safetyResult aes heap payload key iv payload.length := by
    rw [decryptPayload, safetyDecrypt_eq_result aes heap key iv hSize (.inr hSize)]
  rw [hResult] at hNone ⊢
  by_cases hEarly : RefusedEarly heap payload payload.length
  · rw [safetyResult, if_pos hEarly]
    exact iff_of_true rfl (.inl hEarly)
  · rw [safetyResult, if_neg hEarly] at hNone ⊢
    simp only [Cbc.decrypt_snd] at hNone ⊢
    split at hNone
    · rename_i hPadding
      rw [if_pos hPadding]
      simp only [hEarly, false_or]
    · cases hNone

theorem openFrame_refused {env : Env} {w : World} {i : Slot} {frame : Bytes}
    (hRefused : Refused env w i (framePayload frame)) :
    (openFrame env w i frame).2.decrypted = none ∧
      (openFrame env w i frame).1.regs = { (w.sess i).regs with
        decryptIv := (decryptPayload env.aes (env.heap (w.tick + 1)) (framePayload frame)
          (w.sess i).regs.aesKey (w.sess i).regs.decryptIv).2 } := by
  obtain ⟨hKey, hMarked, hHeap, hNone⟩ := hRefused
  have hTry : ¬(!(w.sess i).regs.hasSessionKey ∨ ¬SafetyMarked (framePayload frame)) := by
    simpa [hKey] using hMarked
  simp only [openFrame, unifiedDecrypt, run_bind, run_get, if_neg hTry, run_oracle, hHeap,
    Bool.not_true, Bool.false_eq_true, if_false, run_modifyRegs, run_emit, run_pure]
  exact ⟨hNone, trivial⟩

/-! ## Runs -/

/-- A refused container leaves the player, the generation, the stream key and the IV
of its session as they were. -/
def CorruptIsInert (env : Env) (w : World) (a : Action) (w' : World) : Prop :=
  ∀ r ∈ a.received w, Refused env w r.1 (framePayload r.2) →
    SamePlayer w w' ∧ w'.rtsp.generation = w.rtsp.generation ∧
      (w'.sess r.1).regs.decryptIv = (w.sess r.1).regs.decryptIv

/-- Refused containers come under commands that need a payload, and are refused
without a move of the IV. -/
def CorruptIsHarmless (env : Env) (w : World) (a : Action) : Prop :=
  ∀ r ∈ a.received w, Refused env w r.1 (framePayload r.2) →
    NeedsPayload w r.1 r.2 ∧ RefusedWithIv env w r.1 (framePayload r.2)

instance (env : Env) (w : World) (a : Action) : Decidable (CorruptIsHarmless env w a) :=
  inferInstanceAs (Decidable (∀ r ∈ a.received w, _ → _))

/-- Player and stream side, as seen by the steps around the switch. -/
def SameStream (w w' : World) : Prop := SamePlayer w w' ∧ w'.rtsp = w.rtsp

instance : IsPreorder World SameStream where
  refl w := ⟨refl_of SamePlayer w, rfl⟩
  trans _ _ _ h h' := ⟨trans_of SamePlayer h.1 h'.1, h'.2.trans h.2⟩

theorem sameStream_blind : ControlBlind SameStream where
  blind _ _ _ _ _ _ _ _ _ _ := ⟨⟨rfl, rfl, rfl, rfl⟩, rfl⟩
  log _ _ _ := ⟨⟨rfl, rfl, rfl, rfl⟩, rfl⟩

/-- One frame. -/
theorem serveFrame_container {env : Env} {w : World} {i : Slot} {h : Handler} {frame : Bytes} {n : Nat}
    (hMove : frameMove h.buf = .take frame n) (hRefused : Refused env w i (framePayload frame))
    (hCmd : NeedsPayload w i frame) (hIv : RefusedWithIv env w i (framePayload frame)) :
    SameStream w (w.after (serveFrame env i h frame n)) ∧
      ((w.after (serveFrame env i h frame n)).sess i).regs.decryptIv =
        (w.sess i).regs.decryptIv := by
  obtain ⟨hNone, hRegs⟩ := openFrame_refused hRefused
  obtain ⟨iv, tick, log, hWorld⟩ := openFrame_world env w i frame
  have hKept : (decryptPayload env.aes (env.heap (w.tick + 1)) (framePayload frame)
      (w.sess i).regs.aesKey (w.sess i).regs.decryptIv).2 = (w.sess i).regs.decryptIv :=
    (refused_decryptIv (length_framePayload_le hMove) hRefused.2.2.2).mpr hIv
  have hPayload : Container (openFrame env w i frame).2.payload := by
    have hReceived : (openFrame env w i frame).2.payload = framePayload frame := by
      change (openFrame env w i frame).2.decrypted.getD (framePayload frame) = _
      rw [hNone, Option.getD_none]
    have hMarked := hRefused.2.1
    rw [hReceived]
    exact ⟨hMarked.2, (by decide : 6 ≤ safetyDataHdrLen).trans hMarked.1⟩
  have hSwitch : Untouched (openFrame env w i frame).1
      ((openFrame env w i frame).1.after (dispatchFrame env i (openFrame env w i frame).2 h)) := by
    refine dispatchFrame_container hPayload hNone ?_
    refine hCmd.imp id fun ⟨hPause, hResume, hPosition, hRestart⟩ => ⟨hPause, hResume, hPosition, ?_⟩
    intro hInfo hPort hHost
    rw [hWorld] at hPort hHost ⊢
    by_contra hOpen
    exact hRestart hInfo ⟨hPort, hHost, hOpen⟩
  refine ⟨serveFrame_of_dispatch sameStream_blind ⟨hSwitch.toSamePlayer, hSwitch.rtsp⟩, ?_⟩
  -- the register goes back into the slot, or the slot was left alone
  have hIv' := hSwitch.decryptIv.trans (by rw [hRegs, hKept] : _ = (w.sess i).regs.decryptIv)
  have hStored := (hSwitch.stored i).trans (by rw [hWorld] : _ = (w.sess i).regs)
  rw [World.after, serveFrame, run_bind, handleFrame_run]
  rcases hRun : (dispatchFrame env i (openFrame env w i frame).2 h).run
    (openFrame env w i frame).1 with ⟨h' | r, w'⟩
  all_goals rw [World.after, hRun] at hIv' hStored
  · simpa [World.after, Regs.saved] using hIv'
  · simp only [run_bind, run_modify, run_setCtl]
    exact congrArg Regs.decryptIv hStored

/-- **Refused containers.** In every run whose refused containers come under commands
that need a payload and are refused without a move of the IV, they are inert. -/
theorem corrupt_along (env : Env) (volume : Nat) (as : List Action)
    (hRun : Along (step env) (fun w a _ => CorruptIsHarmless env w a) (World.initial volume) as) :
    Along (step env) (CorruptIsInert env) (World.initial volume) as := by
  refine Along.of_invariant (I := fun _ => True) (fun w a w' _ hStep hHarmless => ⟨trivial, ?_⟩)
    trivial hRun
  intro r hReceived hRefused
  obtain ⟨hCmd, hIv⟩ := hHarmless r hReceived hRefused
  cases step_cases hStep with
  | @frame i h frame n hCtl hMove hMux =>
    obtain rfl : (i, frame) = r := by
      simpa [received_frame hCtl hMove] using hReceived
    obtain ⟨hSame, hKept⟩ := serveFrame_container hMove hRefused hCmd hIv
    exact ⟨hSame.1, congrArg Rtsp.generation hSame.2, hKept⟩
  | _ => cases hReceived

/-- A container of one ciphertext byte. -/
def brokenContainer : Bytes := [0x00, 0x07, 0x01, 0xE0, 0x00, 0x00, 0x00, 0x00, 0x00, 0x00]

/-- As a volume it is refused and answered. -/
theorem corrupt_along_volume :
    Along (step (Env.smooth plainCrypto)) (CorruptIsInert (Env.smooth plainCrypto))
      (World.initial 50) (connectRun 54 ++ frameRun (frameOf 0 0x0C brokenContainer)) :=
  corrupt_along (Env.smooth plainCrypto) 50 _ (by decide +kernel)

/-- As a Pause it closes the pause gate. -/
theorem corrupt_pauses :
    ¬∀ env volume as, Along (step env) (CorruptIsInert env) (World.initial volume) as := by
  intro hAll
  let env := Env.smooth plainCrypto
  obtain ⟨w, w', hRun, hStep, hEnd⟩ := exists_last_of_any
    (show (run (step env) (World.initial 50)
        (connectRun 54 ++ [.recv 0 (frameOf 0 0x04 brokenContainer)])).any
      (fun w => (step env w (.frame 0)).any fun w' =>
        ((Action.frame 0).received w == some (0, frameOf 0 0x04 brokenContainer)) &&
          decide (Refused env w 0 brokenContainer) && (w'.mediaPaused != w.mediaPaused)) = true by
      decide +kernel)
  rw [Bool.and_eq_true, Bool.and_eq_true, beq_iff_eq, decide_eq_true_iff, bne_iff_ne] at hEnd
  obtain ⟨⟨hReceived, hRefused⟩, hPaused⟩ := hEnd
  have hInert := (hAll env 50 _).last hRun hStep _ hReceived hRefused
  exact hPaused hInert.1.paused

end EspMiplay.Miplay
