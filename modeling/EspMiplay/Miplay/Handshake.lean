import EspMiplay.Miplay.ControlSteps

/-!
# Before the handshake is complete

A control session authenticates with a SafetyAuthAck whose HMAC is right. No
branch of the frame switch asks whether that has happened: every command is
carried out from the first frame on. What is guarded is OPEN alone, which must
arrive sealed under the session's own key, and that key is there from the
greeting.

The model does not store who has authenticated, as the source does not;
`AuthWorld` carries it along beside the component.

## Results

* `dispatchFrame_answers`   — the commands that only answer.
* `dispatchFrame_noStart`   — the commands that start no stream.
* `guarded_along`           — what no frame can do, authenticated or not.
* `unauthenticated_pauses`  — what an unauthenticated phone can do.
-/

namespace EspMiplay.Miplay

open Effect Transition

variable {env : Env} {i : Slot} {R : World → World → Prop}

/-! ## What a frame brings -/

/-- The world behind the decryption of a frame, and the frame as the branches see it. -/
def openFrame (env : Env) (w : World) (i : Slot) (frame : Bytes) : World × Frame :=
  let received := framePayload frame
  let r := (unifiedDecrypt env i received).run { w with regs := (w.sess i).regs }
  ({ r.2 with tick := r.2.tick + 1 },
    { sock := (w.sess i).sock
      outer := outerType frame
      cmd := frameCmd frame
      seq := frameSeq frame
      payload := r.1.getD received
      decrypted := r.1
      behind := env.tail r.2.tick })

/-- Decryption, the switch, and the registers back into their slot. -/
theorem handleFrame_run (w : World) (h : Handler) (frame : Bytes) :
    (handleFrame env i h frame).run w =
      match (dispatchFrame env i (openFrame env w i frame).2 h).run (openFrame env w i frame).1 with
      | (.next h', w') => (.next h', w'.after (miplaySessionSave i))
      | (.inline r, w') => (.inline r, w') := by
  have hBody : (frameBody env i (w.sess i).sock h frame).run { w with regs := (w.sess i).regs } =
      (dispatchFrame env i (openFrame env w i frame).2 h).run (openFrame env w i frame).1 := rfl
  simp only [handleFrame, run_bind, run_get, run_miplaySessionLoad, hBody]
  rcases (dispatchFrame env i (openFrame env w i frame).2 h).run (openFrame env w i frame).1 with
    ⟨_ | _, w'⟩ <;> rfl

/-- What the switch does to the world it begins in, the whole critical section does. -/
theorem serveFrame_of_dispatch [IsPreorder World R] (hR : ControlBlind R) {w : World}
    {h : Handler} {frame : Bytes} {n : Nat}
    (hDispatch : R (openFrame env w i frame).1
      ((openFrame env w i frame).1.after (dispatchFrame env i (openFrame env w i frame).2 h))) :
    R w (w.after (serveFrame env i h frame n)) := by
  have hOpen : R w (openFrame env w i frame).1 := by
    have hDecrypt : Does R (unifiedDecrypt env i (framePayload frame)) :=
      unifiedDecrypt_does (fun w _ => hR.tick w _) (fun w _ => hR.regs w _)
        (fun w _ _ _ _ => hR.log w _ id) _
    exact trans_of R (hR.regs w _) (trans_of R (hDecrypt _) (hR.tick _ _))
  have hBody := trans_of R hOpen hDispatch
  rw [World.after, serveFrame, run_bind, handleFrame_run]
  rcases hRun : (dispatchFrame env i (openFrame env w i frame).2 h).run
    (openFrame env w i frame).1 with ⟨h' | r, w'⟩
  all_goals rw [World.after, hRun] at hBody
  · exact trans_of R hBody (trans_of R (hR.save i w') (hR.setCtl i _ _))
  · exact trans_of R hBody (trans_of R (hR.setMux w' _) (hR.setCtl i _ _))

/-! ## The commands -/

/-- The commands that can change the player, the volume or the stream key. -/
def playerCommands : List UInt16 :=
  [cmdNotify, cmdGetMediaInfoAck, cmdSetPlaySource, cmdSetVolume, cmdPause, cmdResume,
    cmdSetPosition, cmdSetMirrorKey, cmdSetMediaInfo, cmdSetMediaState]

def Frame.SetsPlayer (f : Frame) : Prop :=
  if f.outer = 0x04 then f.cmd &&& 0xFF = 0x14 ∨ f.cmd &&& 0xFF = 0x18 else f.cmd ∈ playerCommands

/-- The commands that can start a stream: a sealed OPEN, Resume and SetMediaInfo. -/
def Frame.Starts (f : Frame) : Prop :=
  f.outer ≠ 0x04 ∧
    (f.cmd = cmdOpenDevice ∧ f.decrypted.isSome ∨ f.cmd = cmdResume ∨ f.cmd = cmdSetMediaInfo)

/-- A SafetyAuthAck with the right HMAC. -/
def Frame.passesAuth (env : Env) (r : Regs) (f : Frame) : Bool :=
  f.outer != 0x04 && f.cmd == cmdSafetyAuthAck &&
    match f.decrypted with
    | none => false
    | some plaintext =>
      match peerAck plaintext f.behind with
      | none => false
      | some peer =>
        cstr peer == hexToLower (hmacSha256 env (r.authKey.take 32) (cstr r.authMsg))

/-! ## Commands that only answer -/

theorem dispatchCommand_answers [IsPreorder World R] {f : Frame}
    (hR : SendRules env (.ctl i) i f.sock R) (hCmd : f.cmd ∉ playerCommands) :
    Does R (dispatchCommand env i f) := by
  simp only [playerCommands, List.mem_cons, List.not_mem_nil, or_false, not_or] at hCmd
  obtain ⟨hNotify, hInfoAck, hSource, hVolume, hPause, hResume, hPosition, hKey, hInfo, hState⟩ := hCmd
  unfold dispatchCommand
  rw [if_neg hNotify, if_neg hInfoAck, if_neg hSource, if_neg hVolume, if_neg hPause, if_neg hResume,
    if_neg hPosition, if_neg hKey, if_neg hInfo, if_neg hState]
  refine Does.ite (fun _ => handleNativeVersion_does hR) fun _ => ?_
  refine Does.ite (fun _ => handleSafetyAck_does hR) fun _ => ?_
  refine Does.ite (fun _ => handleHeartbeat_does hR) fun _ => ?_
  refine Does.ite (fun _ => handleGetDeviceInfo_does hR) fun _ => ?_
  refine Does.ite (fun _ => handleSetLocalDevInfo_does hR) fun _ => ?_
  refine Does.ite (fun _ => handleGetMirrorMode_does hR) fun _ => ?_
  refine Does.ite (fun _ => handleGetVolume_does hR) fun _ => ?_
  refine Does.ite (fun _ => handleGetState_does hR) fun _ => ?_
  exact Does.ite (fun _ => handleGetMediaInfo_does hR) fun _ => Does.pure _

/-- An answer to the challenge that does not pass closes the socket at most. -/
theorem handleSafetyAuthAck_fails [IsPreorder World R] {f : Frame} {h : Handler} {w : World}
    (hClose : Does R (closeFd (.ctl i) f.sock)) (hOuter : f.outer ≠ 0x04)
    (hCmd : f.cmd = cmdSafetyAuthAck) (hFails : ¬f.passesAuth env w.regs) :
    R w ((handleSafetyAuthAck env i f h).run w).2 := by
  have hOuter' : (f.outer != 0x04) = true := by simpa using hOuter
  simp only [Frame.passesAuth, hOuter', hCmd, beq_self_eq_true, Bool.true_and] at hFails
  unfold handleSafetyAuthAck
  cases hDec : f.decrypted with
  | none => exact refl_of R w
  | some plaintext =>
    rw [hDec] at hFails
    dsimp only at hFails ⊢
    cases hAck : peerAck plaintext f.behind with
    | none => exact refl_of R w
    | some peer =>
      rw [hAck] at hFails
      have hWrong : cstr peer ≠
          hexToLower (hmacSha256 env (w.regs.authKey.take 32) (cstr w.regs.authMsg)) := by
        simpa using hFails
      simp only [run_bind, run_get, if_pos hWrong]
      exact hClose w

/-- A frame that neither touches the player, nor starts a stream, nor completes the
handshake only answers. -/
theorem dispatchFrame_answers [IsPreorder World R] {f : Frame} {h : Handler} {w : World}
    (hR : SendRules env (.ctl i) i f.sock R) (hClose : Does R (closeFd (.ctl i) f.sock))
    (hPlayer : ¬f.SetsPlayer) (hStarts : ¬f.Starts) (hFails : ¬f.passesAuth env w.regs) :
    R w (w.after (dispatchFrame env i f h)) := by
  unfold dispatchFrame
  by_cases hOuter : f.outer = 0x04
  · rw [if_pos hOuter]
    rw [Frame.SetsPlayer, if_pos hOuter, not_or] at hPlayer
    have hAlone : Does R (handleAlone env i f) := by
      unfold handleAlone
      dsimp only
      rw [if_neg hPlayer.1, if_neg hPlayer.2]
      exact Does.ite (fun _ => handleAloneGetState_does hR) fun _ => Does.pure _
    exact hAlone.bind (fun _ => Does.pure _) w
  · rw [if_neg hOuter]
    rw [Frame.SetsPlayer, if_neg hOuter] at hPlayer
    by_cases hOpen : f.cmd = cmdOpenDevice
    · -- a plain OPEN is dropped
      have hPlain : f.decrypted = none := by
        by_contra hSome
        exact hStarts ⟨hOuter, .inl ⟨hOpen, Option.isSome_iff_ne_none.mpr hSome⟩⟩
      rw [if_pos hOpen, handleOpenDevice, hPlain]
      exact refl_of R w
    · rw [if_neg hOpen]
      by_cases hAck : f.cmd = cmdSafetyAuthAck
      · have hInfo : f.cmd ≠ cmdSafetyInfo := by rw [hAck]; decide
        have hAuth : f.cmd ≠ cmdSafetyAuth := by rw [hAck]; decide
        rw [if_neg hInfo, if_neg hAuth, if_pos hAck]
        exact handleSafetyAuthAck_fails hClose hOuter hAck hFails
      · refine (Does.ite (fun _ => (handleSafetyInfo_does hR).bind fun _ => Does.pure _) fun _ => ?_ :
          Does R _) w
        refine Does.ite (fun _ => handleSafetyAuth_does.bind fun _ => Does.pure _) fun _ => ?_
        rw [if_neg hAck]
        exact (dispatchCommand_answers hR hPlayer).bind fun _ => Does.pure _

/-- A frame that is no start respects every relation that the starts alone break. -/
theorem dispatchFrame_noStart [IsPreorder World R] {f : Frame} {h : Handler}
    (hR : FrameRules env (.ctl i) i f.sock R) (hClose : Does R (closeFd (.ctl i) f.sock))
    (hKeys : ∀ w keys, R w { w with keys := keys })
    (hKeyed : ∀ w key, R w { w with log := w.log ++ [.mirrorKey i key] }) (hStarts : ¬f.Starts) :
    Does R (dispatchFrame env i f h) := by
  by_cases hOuter : f.outer = 0x04
  · rw [dispatchFrame, if_pos hOuter]
    exact (handleAlone_does hR.toSwitchRules).bind fun _ => Does.pure _
  · by_cases hOpen : f.cmd = cmdOpenDevice
    · have hPlain : f.decrypted = none := by
        by_contra hSome
        exact hStarts ⟨hOuter, .inl ⟨hOpen, Option.isSome_iff_ne_none.mpr hSome⟩⟩
      rw [dispatchFrame, if_neg hOuter, if_pos hOpen, handleOpenDevice, hPlain]
      exact Does.pure _
    · exact dispatchFrame_does hR
        { restart := fun hCmd => absurd ⟨hOuter, .inr hCmd⟩ hStarts
          streamKey := fun _ _ _ => Does.bind (fun w => hKeys w _) fun _ w => hKeyed w _
          authKey := fun _ _ w => hKeys w _
          opened := fun hCmd => absurd hCmd hOpen
          stream := fun hCmd => absurd hCmd hOpen
          close := fun _ => hClose }

/-! ## What stays the same -/

/-- Metadata, playback state, pause gate, volume and stream key. -/
structure SamePlayer (w w' : World) : Prop where
  media : w'.media = w.media
  paused : w'.mediaPaused = w.mediaPaused
  volume : w'.volumePercent = w.volumePercent
  keys : w'.keys = w.keys

instance : IsPreorder World SamePlayer where
  refl _ := ⟨rfl, rfl, rfl, rfl⟩
  trans _ _ _ h h' :=
    ⟨h'.media.trans h.media, h'.paused.trans h.paused, h'.volume.trans h.volume, h'.keys.trans h.keys⟩

theorem samePlayer_blind : ControlBlind SamePlayer where
  blind _ _ _ _ _ _ _ _ _ _ := ⟨rfl, rfl, rfl, rfl⟩
  log _ _ _ := ⟨rfl, rfl, rfl, rfl⟩

def Op.isStart : Op → Bool
  | .rtspStarted .. => true
  | _ => false

/-- No RTSP run is started, and the generation does not move. -/
structure NoStart (w w' : World) : Prop where
  generation : w'.rtsp.generation = w.rtsp.generation
  tasks : w'.rtspTasks = w.rtspTasks
  starts : w'.log.filter Op.isStart = w.log.filter Op.isStart

instance : IsPreorder World NoStart where
  refl _ := ⟨rfl, rfl, rfl⟩
  trans _ _ _ h h' :=
    ⟨h'.generation.trans h.generation, h'.tasks.trans h.tasks, h'.starts.trans h.starts⟩

theorem noStart_log (w : World) {op : Op} (hOp : op.isStart = false) :
    NoStart w { w with log := w.log ++ [op] } :=
  ⟨rfl, rfl, by simp [hOp]⟩

theorem noStart_blind : ControlBlind NoStart where
  blind _ _ _ _ _ _ _ _ _ _ := ⟨rfl, rfl, rfl⟩
  log w op hOp := noStart_log w (by cases op <;> first | rfl | exact (hOp trivial).elim)

/-! ## Runs -/

/-- What a frame cannot do: outside the commands for it, change the player; and
outside a sealed OPEN, Resume and SetMediaInfo, start a stream. -/
def FrameGuarded (env : Env) (w : World) (a : Action) (w' : World) : Prop :=
  ∀ i h frame n, a = .frame i → w.ctl i = some (.serving h) → frameMove h.buf = .take frame n →
    let f := (openFrame env w i frame).2
    (¬f.SetsPlayer → ¬f.Starts → ¬f.passesAuth env (w.sess i).regs → SamePlayer w w') ∧
      (¬f.Starts → NoStart w w')

/-- Decryption moves an IV and the log. -/
theorem openFrame_world (env : Env) (w : World) (i : Slot) (frame : Bytes) :
    ∃ iv tick log, (openFrame env w i frame).1 =
      { w with
        regs := { (w.sess i).regs with decryptIv := iv }
        tick := tick
        log := log } := by
  simp only [openFrame, unifiedDecrypt, run_bind, run_get, run_ite, run_pure, run_oracle,
    run_modifyRegs, run_emit]
  split
  · exact ⟨_, _, _, rfl⟩
  · split
    · exact ⟨_, _, _, rfl⟩
    · exact ⟨_, _, _, rfl⟩

theorem passesAuth_openFrame (env : Env) (w : World) (i : Slot) (frame : Bytes) (f : Frame) :
    f.passesAuth env (openFrame env w i frame).1.regs = f.passesAuth env (w.sess i).regs := by
  obtain ⟨iv, tick, log, hWorld⟩ := openFrame_world env w i frame
  rw [hWorld]
  rfl

/-- **Without the handshake.** In no run does a frame change the player or start a
stream but through the commands for it; of these OPEN must come sealed. -/
theorem guarded_along (env : Env) (volume : Nat) (as : List Action) :
    Along (step env) (FrameGuarded env) (World.initial volume) as := by
  refine Along.of_forall (fun w a w' hStep => ?_) _ _
  intro i h frame n hAct hCtl hMove
  subst hAct
  cases step_cases hStep with
  | @frame _ h' frame' n' hCtl' hMove' hMux =>
    obtain rfl : h = h' := by simpa [hCtl] using hCtl'
    obtain ⟨rfl, rfl⟩ : frame = frame' ∧ n = n' := by simpa [hMove] using hMove'
    refine ⟨fun hPlayer hStarts hFails => ?_, fun hStarts => ?_⟩
    · refine serveFrame_of_dispatch samePlayer_blind ?_
      refine dispatchFrame_answers (samePlayer_blind.sendRules _ _ _)
        (samePlayer_blind.closeFd _ _) hPlayer hStarts ?_
      rwa [passesAuth_openFrame]
    · refine serveFrame_of_dispatch noStart_blind ?_
      exact dispatchFrame_noStart (noStart_blind.frameRules (fun _ _ _ _ _ _ _ => ⟨rfl, rfl, rfl⟩) _ _ _)
        (noStart_blind.closeFd _ _) (fun _ _ => ⟨rfl, rfl, rfl⟩) (fun w _ => noStart_log w rfl)
        hStarts _

/-! ## Who has authenticated -/

/-- The component together with who has authenticated since the connection began. -/
structure AuthWorld where
  world : World
  auth : Slot → Bool

/-- A frame can complete the handshake of its session; `disconnect_cleanup` ends the
session. -/
def authNext (env : Env) (s : AuthWorld) : Action → Slot → Bool
  | .frame i =>
    match s.world.ctl i with
    | some (.serving h) =>
      match frameMove h.buf with
      | .take frame _ =>
        if (openFrame env s.world i frame).2.passesAuth env (s.world.sess i).regs then
          Function.update s.auth i true
        else s.auth
      | _ => s.auth
    | _ => s.auth
  | .cleanup i => Function.update s.auth i false
  | _ => s.auth

def authStep (env : Env) (s : AuthWorld) (a : Action) : Option AuthWorld :=
  (step env s.world a).map fun w => { world := w, auth := authNext env s a }

def AuthWorld.initial (volume : Nat) : AuthWorld where
  world := World.initial volume
  auth := fun _ => false

/-- A phone that has only been greeted pauses the player and opens a stream. -/
theorem unauthenticated_pauses :
    (¬∀ env volume as, Along (authStep env)
      (fun s a s' => ∀ i, a = .frame i → s'.auth i = false → SamePlayer s.world s'.world)
      (AuthWorld.initial volume) as) ∧
    (¬∀ env volume as, Along (authStep env)
      (fun s a s' => ∀ i, a = .frame i → s'.auth i = false → NoStart s.world s'.world)
      (AuthWorld.initial volume) as) := by
  let env := Env.smooth plainCrypto
  constructor
  · intro hAll
    obtain ⟨s, s', hRun, hStep, hPaused⟩ := exists_last_of_any
      (show (run (authStep env) (AuthWorld.initial 50)
          (connectRun 54 ++ [.recv 0 (frameOf 0 0x04 [])])).any
        (fun s => (authStep env s (.frame 0)).any fun s' =>
          s'.world.mediaPaused != s.world.mediaPaused && !s'.auth 0) = true by decide +kernel)
    rw [Bool.and_eq_true, Bool.not_eq_true'] at hPaused
    have hSame := (hAll env 50 _).last hRun hStep 0 rfl hPaused.2
    simp [hSame.paused] at hPaused
  · intro hAll
    obtain ⟨s, s', hRun, hStep, hStarted⟩ := exists_last_of_any
      (show (run (authStep env) (AuthWorld.initial 50)
          (connectRun 54 ++ [.recv 0 (frameOf 0 0 (containerOf (ascii "wfd://10.0.0.2:8554")))])).any
        (fun s => (authStep env s (.frame 0)).any fun s' =>
          s'.world.rtsp.generation != s.world.rtsp.generation && !s'.auth 0) = true by
        decide +kernel)
    rw [Bool.and_eq_true, Bool.not_eq_true'] at hStarted
    have hSame := (hAll env 50 _).last hRun hStep 0 rfl hStarted.2
    simp [hSame.generation] at hStarted

end EspMiplay.Miplay
