import EspMiplay.Miplay.Route

/-!
# A control that is not delivered

`miplay_send_receiver_control` returns nothing: whoever presses a button cannot
tell whether the phone has been told. The call sets the pause gate before it
looks for a session, and stores the volume before it sends. The state behind a
pause or resume it projects only if the notify went out.

## Results

* `delivered_iff`              — when the notify is handed to the socket.
* `undelivered_unaffected_iff` — when a call that does not get so far leaves
  everything as it was.
* `undelivered_pause`          — a pause that is dropped and takes effect.
-/

namespace EspMiplay.Miplay

open Effect

/-- `miplay_send_receiver_control` as it can be called: the action may be NULL, and
before `miplay_init` there are no mutexes. -/
def sendReceiverControl (env : Env) (muxes : Bool) (action : Option Bytes) (value : Int) : M Unit :=
  match action with
  | none => return
  | some action =>
    if muxes then miplaySendReceiverControl env action value else controlPauseGate action

/-! ## What the call is to do -/

/-- The notify has been handed to the socket. -/
def Delivered (w w' : World) : Prop :=
  ∃ ops, w'.log = w.log ++ ops ∧
    ∃ sock conn seq sd how, Op.frame sock conn cmdNotify seq sd how true ∈ ops

/-- The call gets as far as sending, on the session of slot `i`. -/
def Attempts (w : World) (muxes : Bool) (action : Option Bytes) (value : Int) (i : Slot) : Prop :=
  muxes = true ∧ miplaySessionActive w = some i ∧ (Opened w i ∧ 0 ≤ (w.sess i).sock) ∧
    ∃ a, action = some a ∧ (receiverControlBody a value).isSome = true

/-- There is memory to seal the notify, and the socket takes it. -/
def Takes (env : Env) (w : World) (sock : Int) : Prop :=
  env.heap w.tick = true ∧ env.send (w.tick + 1) = true ∧ (w.kernel.fds sock).isSome = true

/-- Pause gate, volume, snapshot and sessions are as before, apart from the sequence
number and the IV of the session an attempt was made on. -/
structure Unaffected (attempted : Slot → Prop) (w w' : World) : Prop where
  mediaPaused : w'.mediaPaused = w.mediaPaused
  volume : w'.volumePercent = w.volumePercent
  media : w'.media = w.media
  sessions : ∀ i, w'.sess i = w.sess i ∨ attempted i ∧ ∃ seq iv, w'.sess i =
    { w.sess i with regs := { (w.sess i).regs with notifySeq := seq, encryptIv := iv } }

/-- The gate a button leaves. -/
def gateBehind (action : Bytes) (paused : Bool) : Bool :=
  if action = ascii "pause" then true
  else if isResumeAction action then false
  else paused

/-- What the call writes early is there already. -/
structure WritesNothingNew (w : World) (muxes : Bool) (action : Option Bytes) (value : Int) :
    Prop where
  gate : ∀ a, action = some a → gateBehind a w.mediaPaused = w.mediaPaused
  volume : action = some (ascii "volume") → (∃ i, Attempts w muxes action value i) →
    w.volumePercent = controlVolume value

/-! ## One call -/

section Call

variable {env : Env} (w : World) {action body : Bytes} {value : Int}

theorem run_controlPauseGate (action : Bytes) :
    (controlPauseGate action).run w =
      ((), { w with mediaPaused := gateBehind action w.mediaPaused }) := by
  simp only [controlPauseGate, gateBehind, miplaySetAudioPaused]
  split
  · rfl
  · split <;> rfl

/-- A notify that is not taken moves the counters on, and no frame is logged. -/
theorem sendNotify_fails (sock : Int) (hLen : body.length ≤ miplayMaxFramePayload)
    (hFails : ¬Takes env w sock) :
    ∃ seq iv tick ops,
      (sendEncryptedCmdAutoSeq env .button sock cmdNotify body).run w =
        (false, { w with
          regs := { w.regs with notifySeq := seq, encryptIv := iv }
          tick := tick
          log := w.log ++ ops }) ∧
      ∀ op ∈ ops, op = .used .button sock (w.kernel.fds sock) := by
  have hFit : safetyLen body.length ≤ encryptBufSize := by
    simp only [safetyLen, encryptBufSize, miplayMaxFramePayload] at hLen ⊢
    omega
  have hShort : ¬body.length > miplayMaxFramePayload := by omega
  -- either there is no memory to seal it, or the socket refuses the sealed frame
  cases hHeap : env.heap w.tick with
  | false =>
    have hSeal : safetyEncrypt env.aes false body w.regs.aesKey w.regs.encryptIv encryptBufSize =
        (none, w.regs.encryptIv) := by simp [safetyEncrypt]
    refine ⟨notifySeqNext w.regs.notifySeq, w.regs.encryptIv, w.tick + 1, [], ?_, by simp⟩
    simp only [sendEncryptedCmdAutoSeq, miplayNextNotifySeq, sendEncryptedCmd, hShort, if_false,
      sealAndSend, run_bind, run_get, run_modifyRegs, run_pure, run_oracle, hHeap, hSeal,
      List.append_nil]
  | true =>
    obtain ⟨sd, iv', hSeal⟩ :=
      safetyEncrypt_produces env.aes body w.regs.aesKey w.regs.encryptIv hFit
    have hRefused : (env.send (w.tick + 1) && (w.kernel.fds sock).isSome) = false := by
      by_contra hBoth
      rw [Bool.not_eq_false, Bool.and_eq_true] at hBoth
      exact hFails ⟨hHeap, hBoth⟩
    refine ⟨notifySeqNext w.regs.notifySeq, iv', w.tick + 2,
      [.used .button sock (w.kernel.fds sock)], ?_, by simp⟩
    simp only [sendEncryptedCmdAutoSeq, miplayNextNotifySeq, sendEncryptedCmd, hShort, if_false,
      sealAndSend, miplaySendCmdRaw, run_bind, run_get, run_modifyRegs, run_pure, run_oracle, hHeap,
      hSeal, run_useFd, World.connOf, hRefused, Bool.false_eq_true]

variable (action value) in
/-- Then only a volume has been written. -/
theorem emitReceiverControl_fails (sock : Int) (hLen : body.length ≤ miplayMaxFramePayload)
    (hFails : ¬Takes env w sock) :
    ∃ seq iv tick ops,
      w.after (emitReceiverControl env sock action value body) = { w with
        volumePercent :=
          if action = ascii "volume" then controlVolume value else w.volumePercent
        regs := { w.regs with notifySeq := seq, encryptIv := iv }
        tick := tick
        log := w.log ++ ops } ∧
      ∀ op ∈ ops, op = .used .button sock (w.kernel.fds sock) ∨
        op = .nvsSave (controlVolume value) := by
  by_cases hVolume : action = ascii "volume"
  · -- the volume is stored, and saved, before the notify goes out
    have hMax : min (controlVolume value) 100 = controlVolume value := by
      rw [controlVolume, Nat.min_assoc, Nat.min_self]
    obtain ⟨seq, iv, tick, ops, hRun, hOps⟩ :=
      sendNotify_fails (w.after (miplaySetVolume (controlVolume value))) sock hLen hFails
    refine ⟨seq, iv, tick, .nvsSave (controlVolume value) :: ops, ?_, ?_⟩
    · simp only [World.after] at hRun
      simp only [World.after, emitReceiverControl, if_pos hVolume, run_bind, hRun]
      simp [miplaySetVolume, hMax]
    · intro op hop
      rcases List.mem_cons.1 hop with rfl | hop
      · exact .inr rfl
      · exact .inl (hOps op hop)
  · obtain ⟨seq, iv, tick, ops, hRun, hOps⟩ := sendNotify_fails w sock hLen hFails
    refine ⟨seq, iv, tick, ops, ?_, fun op hop => .inl (hOps op hop)⟩
    simp only [World.after, emitReceiverControl, if_neg hVolume, run_bind, hRun]
    simp

variable (env action value) in
/-- The choice of the session does not look at the pause gate. -/
theorem after_control :
    w.after (miplaySendReceiverControl env action value) =
      match miplaySessionActive w with
      | none => { w with mediaPaused := gateBehind action w.mediaPaused }
      | some j => World.after { w with mediaPaused := gateBehind action w.mediaPaused }
          (receiverControlOn env j action value) :=
  after_receiverControl env w value (run_controlPauseGate w action)

variable (env) in
/-- Without an attempt only the gate and the working registers are other ones. -/
theorem sendReceiverControl_dropped {muxes : Bool}
    (hNone : ∀ i, ¬Attempts w muxes (some action) value i) :
    ∃ regs, w.after (sendReceiverControl env muxes (some action) value) =
      { w with mediaPaused := gateBehind action w.mediaPaused, regs := regs } := by
  cases muxes with
  | false => exact ⟨w.regs, by
      simp [sendReceiverControl, World.after, run_controlPauseGate]⟩
  | true =>
    have hRun := after_control env w action value
    simp only [sendReceiverControl, if_true]
    rw [hRun]
    cases hActive : miplaySessionActive w with
    | none => exact ⟨w.regs, rfl⟩
    | some j =>
      refine ⟨(w.sess j).regs, ?_⟩
      -- the registers of the session are loaded before the session is looked at again
      by_cases hGuard : (w.sess j).sock < 0 ∨ !(w.sess j).inUse ∨
          !(w.sess j).regs.mediaSessionOpened ∨ !(w.sess j).regs.hasSessionKey
      · simp only [World.after, receiverControlOn, run_bind, run_miplaySessionLoad, run_get,
          if_pos hGuard, run_pure]
      · have hOpened : Opened w j ∧ 0 ≤ (w.sess j).sock := by
          simp only [Opened]
          simp only [Bool.not_eq_true'] at hGuard
          grind
        cases hBody : receiverControlBody action value with
        | none =>
          simp only [World.after, receiverControlOn, run_bind, run_miplaySessionLoad, run_get,
            if_neg hGuard, hBody, run_pure]
        | some body =>
          exact absurd ⟨rfl, hActive, hOpened, action, rfl, by rw [hBody]; rfl⟩ (hNone j)

/-- An attempt goes the way of `emitReceiverControl`, on the registers of its session. -/
theorem after_attempt {muxes : Bool} {j : Slot} (h : Attempts w muxes (some action) value j)
    (hBody : receiverControlBody action value = some body) :
    w.after (sendReceiverControl env muxes (some action) value) =
      World.after
        (World.after { w with
            mediaPaused := gateBehind action w.mediaPaused
            regs := (w.sess j).regs }
          (emitReceiverControl env (w.sess j).sock action value body))
        (miplaySessionSave j) := by
  obtain ⟨rfl, hActive, ⟨hOpened, hSock⟩, -⟩ := h
  have hGuard : ¬((w.sess j).sock < 0 ∨ !(w.sess j).inUse ∨
      !(w.sess j).regs.mediaSessionOpened ∨ !(w.sess j).regs.hasSessionKey) := by
    simp only [Opened] at hOpened
    simp only [Bool.not_eq_true']
    grind
  have hRun := after_control env w action value
  simp only [sendReceiverControl, if_true]
  rw [hRun, hActive]
  simp only [World.after, receiverControlOn, run_bind, run_miplaySessionLoad, run_get,
    if_neg hGuard, hBody]

/-- A failed attempt has moved the counters of its session on, and stored a volume. -/
theorem sendReceiverControl_fails {muxes : Bool} {j : Slot}
    (h : Attempts w muxes (some action) value j) (hFails : ¬Takes env w (w.sess j).sock) :
    ∃ seq iv regs tick ops,
      w.after (sendReceiverControl env muxes (some action) value) = { w with
        mediaPaused := gateBehind action w.mediaPaused
        volumePercent :=
          if action = ascii "volume" then controlVolume value else w.volumePercent
        sess := Function.update w.sess j { w.sess j with
          regs := { (w.sess j).regs with notifySeq := seq, encryptIv := iv } }
        regs := regs
        tick := tick
        log := w.log ++ ops } ∧
      ∀ op ∈ ops, ∀ sock conn seq sd how, op ≠ .frame sock conn cmdNotify seq sd how true := by
  obtain ⟨a, hAct, hSome⟩ := h.2.2.2
  obtain rfl := Option.some.inj hAct
  obtain ⟨body, hBody⟩ := Option.isSome_iff_exists.1 hSome
  obtain ⟨seq, iv, tick, ops, hRun, hOps⟩ := emitReceiverControl_fails
    { w with mediaPaused := gateBehind action w.mediaPaused, regs := (w.sess j).regs }
    action value (w.sess j).sock (length_receiverControlBody hBody) hFails
  refine ⟨max seq 8, iv, { (w.sess j).regs with notifySeq := seq, encryptIv := iv }, tick, ops, ?_,
    fun op hop sock conn seq sd how hFrame => ?_⟩
  · rw [after_attempt w h hBody, hRun]
    rfl
  · rcases hOps op hop with rfl | rfl <;> cases hFrame

end Call

/-! ## Exactly -/

section Exact

variable (env : Env) (w : World) (muxes : Bool) (action : Option Bytes) (value : Int)

/-- An attempt the socket takes. -/
def Delivers : Prop := ∃ i, Attempts w muxes action value i ∧ Takes env w (w.sess i).sock

/-- Only one session is tried. -/
theorem Attempts.unique {w : World} {muxes : Bool} {action : Option Bytes} {value : Int}
    {i j : Slot} (hi : Attempts w muxes action value i)
    (hj : Attempts w muxes action value j) : i = j :=
  Option.some.inj (hi.2.1.symm.trans hj.2.1)

/-- What is logged without a frame delivers nothing. -/
theorem not_delivered {w w' : World} (ops : List Op) (hLog : w'.log = w.log ++ ops)
    (hOps : ∀ op ∈ ops, ∀ sock conn seq sd how, op ≠ .frame sock conn cmdNotify seq sd how true) :
    ¬Delivered w w' := by
  rintro ⟨ops', hLog', sock, conn, seq, sd, how, hFrame⟩
  rw [hLog, List.append_cancel_left_eq] at hLog'
  exact hOps _ (hLog' ▸ hFrame) sock conn seq sd how rfl

/-- **Delivery.** The notify is handed to the socket exactly when an attempt is made
that the socket takes. -/
theorem delivered_iff :
    Delivered w (w.after (sendReceiverControl env muxes action value)) ↔
      Delivers env w muxes action value := by
  cases action with
  | none =>
    refine iff_of_false (not_delivered [] (by simp [sendReceiverControl, World.after])
      (by simp)) ?_
    rintro ⟨i, ⟨-, -, -, a, hNone, -⟩, -⟩
    cases hNone
  | some action =>
    by_cases hAttempt : ∃ j, Attempts w muxes (some action) value j
    · obtain ⟨j, hAttempt⟩ := hAttempt
      by_cases hTakes : Takes env w (w.sess j).sock
      · refine iff_of_true ?_ ⟨j, hAttempt, hTakes⟩
        obtain ⟨a, hAct, hSome⟩ := hAttempt.2.2.2
        obtain rfl := Option.some.inj hAct
        obtain ⟨body, hBody⟩ := Option.isSome_iff_exists.1 hSome
        have hSent : ∃ ops, (World.after
            { w with mediaPaused := gateBehind action w.mediaPaused, regs := (w.sess j).regs }
            (emitReceiverControl env (w.sess j).sock action value body)).log = w.log ++ ops ∧
              SendsBody env w.tick (w.sess j).regs (w.sess j).sock
                (w.kernel.fds (w.sess j).sock) body ops :=
          emitReceiverControl_sends _ _ (length_receiverControlBody hBody) hTakes.1
        rw [Delivered, after_attempt w hAttempt hBody]
        obtain ⟨ops, hLog, -, hSends⟩ := hSent
        obtain ⟨seq, sd, iv', -, hFrame⟩ := hSends hTakes.2.1 hTakes.2.2
        exact ⟨ops, hLog, _, _, _, _, _, hFrame⟩
      · obtain ⟨seq, iv, regs, tick, ops, hRun, hOps⟩ :=
          sendReceiverControl_fails w hAttempt hTakes
        refine iff_of_false (not_delivered ops (by rw [hRun]) hOps) ?_
        rintro ⟨i, hi, hTakes'⟩
        exact hTakes (hAttempt.unique hi ▸ hTakes')
    · obtain ⟨regs, hRun⟩ := sendReceiverControl_dropped env w
        fun i hi => hAttempt ⟨i, hi⟩
      refine iff_of_false (not_delivered [] (by rw [hRun]; simp) (by simp)) ?_
      rintro ⟨i, hi, -⟩
      exact hAttempt ⟨i, hi⟩

/-- Where nothing is delivered, the early writes are all that can be seen. -/
theorem unaffected_iff (hNot : ¬Delivers env w muxes action value) :
    Unaffected (Attempts w muxes action value) w
        (w.after (sendReceiverControl env muxes action value)) ↔
      WritesNothingNew w muxes action value := by
  cases action with
  | none =>
    refine iff_of_true ⟨rfl, rfl, rfl, fun i => .inl rfl⟩ ⟨fun a hNone => ?_, fun hNone => ?_⟩
    all_goals cases hNone
  | some action =>
    by_cases hAttempt : ∃ j, Attempts w muxes (some action) value j
    · obtain ⟨j, hj⟩ := hAttempt
      have hFails : ¬Takes env w (w.sess j).sock := fun hTakes => hNot ⟨j, hj, hTakes⟩
      obtain ⟨seq, iv, regs, tick, ops, hRun, -⟩ := sendReceiverControl_fails w hj hFails
      rw [hRun]
      constructor
      · intro h
        refine ⟨fun a hAct => Option.some.inj hAct ▸ h.mediaPaused, fun hVolume _ => ?_⟩
        have hStored := h.volume
        simp only [if_pos (Option.some.inj hVolume)] at hStored
        exact hStored.symm
      · intro h
        refine ⟨h.gate action rfl, ?_, rfl, fun i => ?_⟩
        · by_cases hVolume : action = ascii "volume"
          · simp only [if_pos hVolume]
            exact (h.volume (congrArg some hVolume) ⟨j, hj⟩).symm
          · simp only [if_neg hVolume]
        · -- the session of the attempt keeps all but its counters
          by_cases hi : i = j
          · subst hi
            exact .inr ⟨hj, seq, iv, Function.update_self ..⟩
          · exact .inl (Function.update_of_ne hi ..)
    · obtain ⟨regs, hRun⟩ := sendReceiverControl_dropped env w fun i hi => hAttempt ⟨i, hi⟩
      rw [hRun]
      constructor
      · intro h
        exact ⟨fun a hAct => Option.some.inj hAct ▸ h.mediaPaused,
          fun _ hTried => absurd hTried hAttempt⟩
      · intro h
        exact ⟨h.gate action rfl, rfl, rfl, fun i => .inl rfl⟩

/-- **No effect.** A call that does not deliver leaves gate, volume, snapshot and
sessions alone exactly when it delivers, or writes early what is there already. -/
theorem undelivered_unaffected_iff :
    (¬Delivered w (w.after (sendReceiverControl env muxes action value)) →
        Unaffected (Attempts w muxes action value) w
          (w.after (sendReceiverControl env muxes action value))) ↔
      Delivers env w muxes action value ∨ WritesNothingNew w muxes action value := by
  rw [delivered_iff, or_iff_not_imp_left]
  exact forall_congr' fun hNot => unaffected_iff env w muxes action value hNot

end Exact

/-- Nobody is connected, and the pause button closes the gate. -/
theorem undelivered_pause :
    ¬∀ (env : Env) (w : World) (muxes : Bool) (action : Option Bytes) (value : Int),
      ¬Delivered w (w.after (sendReceiverControl env muxes action value)) →
        Unaffected (Attempts w muxes action value) w
          (w.after (sendReceiverControl env muxes action value)) := by
  intro hAll
  have hNobody (i : Slot) :
      ¬Attempts (World.initial 50) true (some (ascii "pause")) 0 i := by
    rintro ⟨-, hActive, -⟩
    have hNone : miplaySessionActive (World.initial 50) = none := by decide +kernel
    rw [hNone] at hActive
    cases hActive
  have hQuiet : ¬Delivers (Env.smooth plainCrypto) (World.initial 50) true
      (some (ascii "pause")) 0 := by
    rintro ⟨i, hi, -⟩
    exact hNobody i hi
  have hSame := hAll (Env.smooth plainCrypto) (World.initial 50) true (some (ascii "pause")) 0
    (fun hDelivered => hQuiet ((delivered_iff ..).1 hDelivered))
  have hGate := ((unaffected_iff _ _ _ _ _ hQuiet).1 hSame).gate _ rfl
  exact absurd hGate (by decide)

end EspMiplay.Miplay
