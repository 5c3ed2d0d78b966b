import EspMiplay.Miplay.Handshake
import EspMiplay.Miplay.Route

/-!
# The connected flag

`s_connected` is meant to say that a phone has authenticated, and
`s_connected_cb` to tell the application of it.

A phone that leaves is replaced by another session, if there is one, and then
the flag stays. `miplay_session_active_locked` takes any session with a key for
one: every greeted session has a key, authenticated or not. And the callback of
a cleanup comes after the mutexes are given back, when the next phone may have
authenticated already.

## Results

* `miplaySessionActive_eq_none_iff` — no session is left to take over.
* `serveFrame_flags`                — what a frame does to the flag.
* `flagRight_along`                 — when the flag is right along a run.
* `companion_keeps_connected`       — a merely greeted socket keeps it.
-/

namespace EspMiplay.Miplay

open Effect Transition

/-! ## What the application has been told -/

/-- The last value passed to `s_connected_cb`. -/
def lastTold (log : List Op) : Bool :=
  log.foldl (fun told op => match op with | .connectedCb c => c | _ => told) false

/-- A cleanup has noted the disconnect and has not told the application of it. -/
def Pending (w : World) : Prop := ∃ i, w.ctl i = some (.cleaned true)

instance (w : World) : Decidable (Pending w) := inferInstanceAs (Decidable (∃ _, _))

/-- What the application has been told, once the callbacks under way have come. -/
def settledTold (w : World) : Bool := if Pending w then false else lastTold w.log

/-- The flag says that some session has authenticated, and so does the callback. -/
def FlagRight (s : AuthWorld) : Prop :=
  (s.world.connected = true ↔ ∃ i, s.auth i = true) ∧ settledTold s.world = s.world.connected

@[simp] theorem lastTold_append_singleton (log : List Op) (op : Op) :
    lastTold (log ++ [op]) = match op with | .connectedCb c => c | _ => lastTold log := by
  simp only [lastTold, List.foldl_append, List.foldl_cons, List.foldl_nil]

/-! ## The conditions -/

/-- The next frame of slot `i` completes its handshake. -/
def AuthPasses (env : Env) (w : World) (i : Slot) : Prop :=
  ∃ h frame n, w.ctl i = some (.serving h) ∧ frameMove h.buf = .take frame n ∧
    (openFrame env w i frame).2.passesAuth env (w.sess i).regs = true

/-- In use and with a session key. -/
def Keyed (w : World) (i : Slot) : Prop :=
  (w.sess i).inUse = true ∧ (w.sess i).regs.hasSessionKey = true

/-- The last authenticated session leaves no greeted one behind, and no handshake is
completed while a cleanup has yet to tell the application. -/
def FlagKept (env : Env) (s : AuthWorld) (a : Action) (_ : AuthWorld) : Prop :=
  (∀ i, a = .cleanup i → s.auth i = true → (∀ j, j ≠ i → s.auth j = false) →
    ∀ j, j ≠ i → ¬Keyed s.world j) ∧
  ∀ i, a = .frame i → AuthPasses env s.world i → ¬Pending s.world

/-! ## Whether a session takes over -/

/-- A peer that is preferred is the peer of a session with a key. -/
theorem preferredPeer_cases (activeSock : Int) (ss : List Session) (preferred : UInt32) :
    preferredPeer activeSock ss preferred = preferred ∨
      ∃ s ∈ ss, s.inUse = true ∧ s.regs.hasSessionKey = true ∧
        s.peerIp = preferredPeer activeSock ss preferred := by
  induction ss generalizing preferred with
  | nil => exact .inl rfl
  | cons s ss ih =>
    rw [preferredPeer]
    split
    · obtain h | ⟨t, hMem, ht⟩ := ih preferred
      · exact .inl h
      · exact .inr ⟨t, List.mem_cons_of_mem s hMem, ht⟩
    · rename_i hOpen
      obtain ⟨hUse, hKey⟩ : s.inUse = true ∧ s.regs.hasSessionKey = true := by grind
      split
      · exact .inr ⟨s, List.mem_cons_self, hUse, hKey, rfl⟩
      · obtain h | ⟨t, hMem, ht⟩ := ih s.peerIp
        · exact .inr ⟨s, List.mem_cons_self, hUse, hKey, h.symm⟩
        · exact .inr ⟨t, List.mem_cons_of_mem s hMem, ht⟩

theorem routePeer_cases (w : World) :
    routePeer w = 0 ∨ ∃ i, Keyed w i ∧ (w.sess i).peerIp = routePeer w := by
  unfold routePeer
  dsimp only
  split
  · split
    · rename_i i hFind
      split
      · rename_i hKey
        have hUse : (w.sess i).inUse ∧ (w.sess i).sock = w.activeClientSock := by
          simpa using List.find?_some hFind
        exact .inr ⟨i, ⟨hUse.1, hKey⟩, rfl⟩
      · exact .inl rfl
    · exact .inl rfl
  · rename_i hOpened
    obtain h | ⟨s, hMem, hUse, hKey, hPeer⟩ :=
      preferredPeer_cases w.activeClientSock (slots.map w.sess) 0
    · exact absurd h hOpened
    · obtain ⟨i, -, rfl⟩ := List.mem_map.mp hMem
      exact .inr ⟨i, ⟨hUse, hKey⟩, hPeer⟩

/-- The preference for a peer never leaves the choice empty. -/
theorem miplaySessionActive_eq_none_iff (w : World) :
    miplaySessionActive w = none ↔ ∀ i, ¬Keyed w i := by
  rw [miplaySessionActive_eq_argmax, List.argmax_eq_none, List.filter_eq_nil_iff]
  simp only [mem_slots, forall_const, decide_eq_true_eq]
  refine ⟨fun hNone i hKeyed => ?_, fun hNone i hCand => hNone i ⟨hCand.1, hCand.2.1⟩⟩
  obtain hPeer | ⟨j, hj, hPeer⟩ := routePeer_cases w
  · exact hNone i ⟨hKeyed.1, hKeyed.2, .inl hPeer⟩
  · exact hNone j ⟨hj.1, hj.2, .inr hPeer⟩

/-! ## What leaves the flag alone -/

/-- The flag, the log as far as the callback goes, and which sessions have a key. -/
structure SameFlags (w w' : World) : Prop where
  connected : w'.connected = w.connected
  told : lastTold w'.log = lastTold w.log
  key : ∀ i, (w'.sess i).regs.hasSessionKey = (w.sess i).regs.hasSessionKey
  loaded : w'.regs.hasSessionKey = w.regs.hasSessionKey
  ctl : w'.ctl = w.ctl
  mux : w'.sessionMux = w.sessionMux

instance : IsPreorder World SameFlags where
  refl _ := ⟨rfl, rfl, fun _ => rfl, rfl, rfl, rfl⟩
  trans _ _ _ h h' :=
    ⟨h'.connected.trans h.connected, h'.told.trans h.told, fun i => (h'.key i).trans (h.key i),
      h'.loaded.trans h.loaded, h'.ctl.trans h.ctl, h'.mux.trans h.mux⟩

/-- The registers of slot `i` are loaded, as far as the key goes. -/
def Loaded (i : Slot) (w : World) : Prop :=
  w.regs.hasSessionKey = (w.sess i).regs.hasSessionKey

/-- Inside a critical section of slot `i`. -/
def FlagsIn (i : Slot) (w w' : World) : Prop := Loaded i w → SameFlags w w'

theorem SameFlags.loadedAt {i : Slot} {w w' : World} (h : SameFlags w w') (hIn : Loaded i w) :
    Loaded i w' := by
  rw [Loaded, h.loaded, h.key]
  exact hIn

instance (i : Slot) : IsPreorder World (FlagsIn i) where
  refl w _ := refl_of SameFlags w
  trans _ _ _ h h' hIn := trans_of SameFlags (h hIn) (h' ((h hIn).loadedAt hIn))

variable {env : Env} {who : Owner} {i : Slot} {w w' : World}

theorem SameFlags.trans {w₁ w₂ w₃ : World} (h : SameFlags w₁ w₂) (h' : SameFlags w₂ w₃) :
    SameFlags w₁ w₃ :=
  trans_of SameFlags h h'

theorem SameFlags.setConnected (h : SameFlags w w') (c : Bool) :
    SameFlags { w with connected := c } { w' with connected := c } :=
  ⟨rfl, h.told, h.key, h.loaded, h.ctl, h.mux⟩

theorem SameFlags.of_eq (hConnected : w'.connected = w.connected)
    (hTold : lastTold w'.log = lastTold w.log) (hSess : w'.sess = w.sess)
    (hLoaded : w'.regs.hasSessionKey = w.regs.hasSessionKey) (hCtl : w'.ctl = w.ctl)
    (hMux : w'.sessionMux = w.sessionMux) : SameFlags w w' :=
  ⟨hConnected, hTold, fun i => by rw [hSess], hLoaded, hCtl, hMux⟩

/-- An event of the socket or the player is no callback about the connection. -/
theorem sameFlags_log (w : World) {op : Op} (hOp : op.Traffic ∨ op.Callback) :
    SameFlags w { w with log := w.log ++ [op] } := by
  refine .of_eq rfl ?_ rfl rfl rfl rfl
  rw [lastTold_append_singleton]
  cases op with
  | connectedCb c => exact (hOp.elim id id).elim
  | _ => rfl

/-- A slot may change, but not whether it has a key. -/
theorem sameFlags_update {s : Session}
    (hKey : s.regs.hasSessionKey = (w.sess i).regs.hasSessionKey) :
    SameFlags w { w with sess := Function.update w.sess i s } := by
  refine ⟨rfl, rfl, fun j => ?_, rfl, rfl, rfl⟩
  by_cases hij : j = i
  · subst hij
    simpa using hKey
  · simp [hij]

theorem sameFlags_save (hIn : Loaded i w) : SameFlags w (w.after (miplaySessionSave i)) :=
  sameFlags_update hIn

theorem flagsIn_switch (env : Env) (who : Owner) (i : Slot) (sock : Int) :
    SwitchRules env who i sock (FlagsIn i) where
  toSendRules := .of_log (fun _ _ _ => .of_eq rfl rfl rfl rfl rfl rfl)
    (fun w _ hOp _ => sameFlags_log w (.inl hOp))
    (fun _ _ _ _ _ _ => .of_eq rfl rfl rfl rfl rfl rfl) (fun _ _ => sameFlags_update rfl)
  media _ _ _ _ _ _ _ := .of_eq rfl rfl rfl rfl rfl rfl
  callback w _ hOp _ := sameFlags_log w (.inr hOp)
  route _ _ := .of_eq rfl rfl rfl rfl rfl rfl
  save _ hIn := sameFlags_save hIn

theorem startRtspSession_flags {sock : Int} {host : Bytes} {port : Int} {has : Bool} {key : Block}
    {force : Bool} :
    Does (FlagsIn i) (miplayStartRtspSession env i sock host port has key force) := by
  have hStarted (arg : RtspArg) : Does (FlagsIn i) (emit (.rtspStarted i arg)) :=
    fun _ _ => .of_eq rfl (lastTold_append_singleton ..) rfl rfl rfl rfl
  exact startRtspSession_does (fun _ _ _ => .of_eq rfl rfl rfl rfl rfl rfl)
    (fun _ _ _ _ => .of_eq rfl rfl rfl rfl rfl rfl) (fun _ _ => .of_eq rfl rfl rfl rfl rfl rfl)
    (fun _ _ _ _ => .of_eq rfl rfl rfl rfl rfl rfl) hStarted host port has key force

theorem flagsIn_command (env : Env) (i : Slot) (f : Frame) (h : Handler) :
    CommandRules env i f h (FlagsIn i) where
  restart _ := tryRestartRtsp_does fun _ _ _ _ => startRtspSession_flags
  streamKey _ _ _ _ _ := .of_eq rfl (lastTold_append_singleton ..) rfl rfl rfl rfl
  authKey _ _ _ _ := .of_eq rfl rfl rfl rfl rfl rfl
  opened _ _ _ := .of_eq rfl rfl rfl rfl rfl rfl
  stream _ w host port :=
    openStream_does (flagsIn_switch ..) w.keys host port
      (fun _ _ => .of_eq rfl (lastTold_append_singleton ..) rfl rfl rfl rfl) startRtspSession_flags
      (fun _ _ _ => .of_eq rfl (lastTold_append_singleton ..) rfl rfl rfl rfl) w
  close _ _ _ := .of_eq rfl (lastTold_append_singleton ..) rfl rfl rfl rfl

/-! ## The end of the handshake -/

/-- An answer that passes: the flag is set between two stretches of sending, and the
application is told last, if the flag was not set before. -/
theorem handleSafetyAuthAck_passes {R : World → World → Prop} [IsPreorder World R] {f : Frame}
    (h : Handler) (hR : SwitchRules env (.ctl i) i f.sock R)
    (hPass : f.passesAuth env w.regs = true) :
    ∃ w₁ w₂, R w w₁ ∧ R { w₁ with connected := true } w₂ ∧
      w.after (handleSafetyAuthAck env i f h) =
        if w₁.connected then w₂ else w₂.after (connectedCallback env) := by
  have hTail : Does R (do
      if !((← get).sess i).mediaInfoNotifySent then
        miplayNotifyEmptyMediaInfoEx env i f.sock
      miplaySessionSave i) := by
    refine Does.get.bind fun w => Does.ite (fun _ => ?_) fun _ => hR.save
    exact (notifyEmptyMediaInfo_does hR.toSendRules).bind fun _ => hR.save
  have hAccepted (w₁ : World) (hSent : R w w₁)
      (hAfter : w.after (handleSafetyAuthAck env i f h) = w₁.after (do
        let wasConnected := (← get).connected
        modify fun w =>
          { w with
            connected := true
            activeClientSock := f.sock
            activePeerIp := (w.sess i).peerIp }
        if !((← get).sess i).mediaInfoNotifySent then
          miplayNotifyEmptyMediaInfoEx env i f.sock
        miplaySessionSave i
        if !wasConnected then connectedCallback env
        return { h with pendingAckValid := false })) :
      ∃ w₁ w₂, R w w₁ ∧ R { w₁ with connected := true } w₂ ∧
        w.after (handleSafetyAuthAck env i f h) =
          if w₁.connected then w₂ else w₂.after (connectedCallback env) := by
    refine ⟨w₁, _, hSent, trans_of R (hR.route { w₁ with connected := true }) (hTail _), ?_⟩
    rw [hAfter]
    by_cases hWas : w₁.connected <;> by_cases hNotified : (w₁.sess i).mediaInfoNotifySent
    all_goals simp [World.after, hWas, hNotified]
  simp only [Frame.passesAuth, Bool.and_eq_true] at hPass
  unfold handleSafetyAuthAck at hAccepted ⊢
  cases hDec : f.decrypted with
  | none => simp [hDec] at hPass
  | some plaintext =>
    cases hAck : peerAck plaintext f.behind with
    | none => simp [hDec, hAck] at hPass
    | some peer =>
      have hRight : ¬cstr peer ≠
          hexToLower (hmacSha256 env (w.regs.authKey.take 32) (cstr w.regs.authMsg)) := by
        simpa [hDec, hAck] using hPass.2
      simp only [hDec, hAck] at hAccepted ⊢
      by_cases hPending : h.pendingAckValid
      · refine hAccepted _ (hR.sendEncryptedEnvelope cmdSafetyAuthAck h.pendingAckSeq true
          (ackJson h.pendingAckHex) w) ?_
        simp only [World.after, run_bind, run_get, if_neg hRight, if_pos hPending]
      · refine hAccepted w (refl_of R w) ?_
        simp only [World.after, run_bind, run_get, if_neg hRight, if_neg hPending]

/-- What the switch does to the flag and the callback; no key is touched. -/
structure FlagsAfter (passes : Bool) (w w' : World) : Prop where
  connected : w'.connected = (w.connected || passes)
  told : lastTold w'.log = (lastTold w.log || passes && !w.connected)
  key : ∀ i, (w'.sess i).regs.hasSessionKey = (w.sess i).regs.hasSessionKey
  loaded : w'.regs.hasSessionKey = w.regs.hasSessionKey
  ctl : w'.ctl = w.ctl
  mux : w'.sessionMux = w.sessionMux

theorem SameFlags.after (h : SameFlags w w') : FlagsAfter false w w' where
  connected := by rw [h.connected, Bool.or_false]
  told := by rw [h.told, Bool.false_and, Bool.or_false]
  key := h.key
  loaded := h.loaded
  ctl := h.ctl
  mux := h.mux

theorem FlagsAfter.of_same {passes : Bool} {w₁ w₂ w₃ : World} (h : SameFlags w₁ w₂)
    (h' : FlagsAfter passes w₂ w₃) : FlagsAfter passes w₁ w₃ where
  connected := by rw [h'.connected, h.connected]
  told := by rw [h'.told, h.told, h.connected]
  key j := (h'.key j).trans (h.key j)
  loaded := h'.loaded.trans h.loaded
  ctl := h'.ctl.trans h.ctl
  mux := h'.mux.trans h.mux

theorem FlagsAfter.loadedAt {passes : Bool} (h : FlagsAfter passes w w') (hIn : Loaded i w) :
    Loaded i w' := by
  rw [Loaded, h.loaded, h.key]
  exact hIn

theorem dispatchFrame_flags {f : Frame} {h : Handler} (hIn : Loaded i w) :
    FlagsAfter (f.passesAuth env w.regs) w (w.after (dispatchFrame env i f h)) := by
  cases hPass : f.passesAuth env w.regs with
  | false =>
    have hFlags : FlagsIn i w (w.after (dispatchFrame env i f h)) :=
      dispatchFrame_at (flagsIn_switch ..) (flagsIn_command ..) fun hOuter hCmd =>
        handleSafetyAuthAck_fails (fun _ _ => .of_eq rfl (lastTold_append_singleton ..) rfl rfl rfl rfl)
          hOuter hCmd (by simp [hPass])
    exact (hFlags hIn).after
  | true =>
    obtain ⟨w₁, w₂, hSent, hRest, hAfter⟩ :=
      handleSafetyAuthAck_passes h (flagsIn_switch env (.ctl i) i f.sock) hPass
    have hRun : w.after (dispatchFrame env i f h) = w.after (handleSafetyAuthAck env i f h) := by
      obtain ⟨⟨hOuter, hCmd⟩, -⟩ : (f.outer ≠ 0x04 ∧ f.cmd = cmdSafetyAuthAck) ∧ _ := by
        simpa [Frame.passesAuth] using hPass
      have hOther : f.cmd ≠ cmdOpenDevice ∧ f.cmd ≠ cmdSafetyInfo ∧ f.cmd ≠ cmdSafetyAuth := by
        rw [hCmd]
        decide
      simp only [World.after, dispatchFrame, if_neg hOuter, if_neg hOther.1, if_neg hOther.2.1,
        if_neg hOther.2.2, if_pos hCmd, run_bind, run_pure]
    have hSent := hSent hIn
    have hRest := hRest (hSent.loadedAt hIn)
    have hSet : SameFlags { w with connected := true } w₂ := (hSent.setConnected true).trans hRest
    rw [hRun, hAfter, hSent.connected]
    cases hWas : w.connected with
    | true =>
      refine ⟨?_, ?_, hSet.key, hSet.loaded, hSet.ctl, hSet.mux⟩
      · simp [hSet.connected]
      · simp [hSet.told, hWas]
    | false =>
      have hTold : lastTold (w₂.after (connectedCallback env)).log = true := by
        simp [World.after, connectedCallback, miplaySetVolume, lastTold]
      refine ⟨?_, ?_, hSet.key, hSet.loaded, hSet.ctl, hSet.mux⟩
      · rw [Bool.or_true]
        exact hSet.connected
      · simp [hTold, hWas]

/-- What a frame of slot `i` does to the flag, the keys and its task. -/
structure FrameFlags (i : Slot) (passes : Bool) (w w' : World) : Prop where
  connected : w'.connected = (w.connected || passes)
  told : lastTold w'.log = (lastTold w.log || passes && !w.connected)
  key : ∀ j, (w'.sess j).regs.hasSessionKey = (w.sess j).regs.hasSessionKey
  goesOn : (∃ h, w'.ctl = Function.update w.ctl i (some (.serving h)) ∧
      w'.sessionMux = w.sessionMux) ∨
    ∃ r, w'.ctl = Function.update w.ctl i (some (.inline r)) ∧ w'.sessionMux = some i ∧ Loaded i w'

/-- **Frame lemma.** -/
theorem serveFrame_flags (env : Env) (w : World) (i : Slot) (h : Handler) (frame : Bytes) (n : Nat) :
    FrameFlags i ((openFrame env w i frame).2.passesAuth env (w.sess i).regs) w
      (w.after (serveFrame env i h frame n)) := by
  have hDecrypt : Does SameFlags (unifiedDecrypt env i (framePayload frame)) :=
    unifiedDecrypt_does (fun _ _ => .of_eq rfl rfl rfl rfl rfl rfl)
      (fun _ _ => .of_eq rfl rfl rfl rfl rfl rfl)
      (fun _ _ _ _ _ => .of_eq rfl (lastTold_append_singleton ..) rfl rfl rfl rfl) _
  have hOpen : SameFlags { w with regs := (w.sess i).regs } (openFrame env w i frame).1 :=
    (hDecrypt _).trans (.of_eq rfl rfl rfl rfl rfl rfl)
  have hDispatch : FlagsAfter ((openFrame env w i frame).2.passesAuth env (w.sess i).regs)
      (openFrame env w i frame).1
      ((openFrame env w i frame).1.after (dispatchFrame env i (openFrame env w i frame).2 h)) :=
    passesAuth_openFrame env w i frame _ ▸ dispatchFrame_flags (hOpen.loadedAt rfl)
  have hFlags := hDispatch.of_same hOpen
  generalize (openFrame env w i frame).2.passesAuth env (w.sess i).regs = passes at hFlags ⊢
  rw [World.after] at hFlags
  rw [World.after, serveFrame, run_bind, handleFrame_run]
  rcases hRun : (dispatchFrame env i (openFrame env w i frame).2 h).run
    (openFrame env w i frame).1 with ⟨h' | r, w₁⟩
  all_goals
    rw [hRun] at hFlags
    have hIn : Loaded i w₁ := hFlags.loadedAt rfl
  · have hSaved := sameFlags_save hIn
    refine ⟨hFlags.connected, hFlags.told, fun j => (hSaved.key j).trans (hFlags.key j),
      .inl ⟨{ h' with buf := h.buf.drop n }, ?_, hFlags.mux⟩⟩
    exact congrArg (Function.update · i _) hFlags.ctl
  · refine ⟨hFlags.connected, hFlags.told, hFlags.key, .inr ⟨r, ?_, rfl, hIn⟩⟩
    exact congrArg (Function.update · i _) hFlags.ctl

/-! ## The invariant -/

/-- The flag is right; who has authenticated has a key and a task that has not done its
cleanup, and the registers of an inline run are those of its slot. -/
structure AuthInv (s : AuthWorld) : Prop where
  tasks : TaskTable s.world
  greeted : ∀ i, s.auth i = true →
    Greeted s.world i ∧ (s.world.sess i).regs.hasSessionKey = true
  held : ∀ i r, s.world.ctl i = some (.inline r) →
    s.world.sessionMux = some i ∧ Loaded i s.world
  right : FlagRight s

theorem pending_update {i : Slot} {pc : Option CtlPc} (hCtl : w'.ctl = Function.update w.ctl i pc)
    (hOld : w.ctl i ≠ some (.cleaned true)) (hNew : pc ≠ some (.cleaned true)) :
    Pending w' ↔ Pending w := by
  refine exists_congr fun j => ?_
  rw [hCtl]
  by_cases hij : j = i
  · subst hij
    simp [hOld, hNew]
  · rw [Function.update_of_ne hij]

theorem settledTold_congr (hPending : Pending w' ↔ Pending w)
    (hTold : lastTold w'.log = lastTold w.log) : settledTold w' = settledTold w := by
  simp only [settledTold, hPending, hTold]

theorem settledTold_of_pending (h : Pending w) : settledTold w = false := if_pos h

namespace AuthInv

variable {s : AuthWorld}

theorem no_inline (h : AuthInv s) (hMux : s.world.sessionMux = none) (i : Slot) (r : RtspRun) :
    s.world.ctl i ≠ some (.inline r) := by
  intro hCtl
  simp [(h.held i r hCtl).1] at hMux

/-- Nobody authenticates or leaves, and the flag stays. -/
theorem keep (h : AuthInv s) (hTasks : TaskTable w') (hConnected : w'.connected = s.world.connected)
    (hTold : settledTold w' = settledTold s.world)
    (hGreeted : ∀ i, s.auth i = true → Greeted s.world i → Greeted w' i)
    (hKey : ∀ i, s.auth i = true →
      (w'.sess i).regs.hasSessionKey = (s.world.sess i).regs.hasSessionKey)
    (hHeld : ∀ i r, w'.ctl i = some (.inline r) → w'.sessionMux = some i ∧ Loaded i w') :
    AuthInv { world := w', auth := s.auth } where
  tasks := hTasks
  greeted i hi := ⟨hGreeted i hi (h.greeted i hi).1, (hKey i hi).trans (h.greeted i hi).2⟩
  held := hHeld
  right := by
    have hRight := h.right
    simp only [FlagRight, hConnected, hTold]
    exact hRight

/-- Neither the flag nor a control task is concerned. -/
theorem of_flags (h : AuthInv s) (hTasks : TaskTable w') (hFlags : SameFlags s.world w') :
    AuthInv { world := w', auth := s.auth } := by
  refine h.keep hTasks hFlags.connected (settledTold_congr ?_ hFlags.told) (fun i _ hi => ?_)
    (fun i _ => hFlags.key i) fun i r hi => ?_
  · simp only [Pending, hFlags.ctl]
  · rwa [Greeted, hFlags.ctl]
  · obtain ⟨hMux, hIn⟩ := h.held i r (hFlags.ctl ▸ hi)
    exact ⟨hFlags.mux.trans hMux, hFlags.loadedAt hIn⟩

/-- The task of slot `i` goes on, outside a critical section that it keeps. -/
theorem task {i : Slot} {pc : Option CtlPc} (h : AuthInv s) (hTasks : TaskTable w')
    (hOld : s.world.ctl i ≠ some (.cleaned true)) (hNew : pc ≠ some (.cleaned true))
    (hInline : ∀ r, pc ≠ some (.inline r)) (hGreeted : s.auth i = true → AfterGreeting pc)
    (hCtl : w'.ctl = Function.update s.world.ctl i pc)
    (hConnected : w'.connected = s.world.connected)
    (hTold : lastTold w'.log = lastTold s.world.log)
    (hKey : ∀ j, s.auth j = true →
      (w'.sess j).regs.hasSessionKey = (s.world.sess j).regs.hasSessionKey)
    (hHeld : ∀ j r, j ≠ i → s.world.ctl j = some (.inline r) →
      w'.sessionMux = some j ∧ Loaded j w') :
    AuthInv { world := w', auth := s.auth } := by
  refine h.keep hTasks hConnected (settledTold_congr (pending_update hCtl hOld hNew) hTold)
    (fun j hj hGreet => ?_) hKey fun j r hj => ?_
  · rw [Greeted, hCtl]
    by_cases hij : j = i
    · subst hij
      rw [Function.update_self]
      exact hGreeted hj
    · rwa [Function.update_of_ne hij]
  · rw [hCtl] at hj
    have hij : j ≠ i := by
      rintro rfl
      exact hInline r (by simpa using hj)
    exact hHeld j r hij (by rwa [Function.update_of_ne hij] at hj)

theorem auth_none {i : Slot} (h : AuthInv s) (hCtl : ¬AfterGreeting (s.world.ctl i)) :
    s.auth i = false := by
  by_contra hAuth
  exact hCtl (h.greeted i (by simpa using hAuth)).1

theorem ne_of_auth {i j : Slot} (h : AuthInv s) (hCtl : ¬AfterGreeting (s.world.ctl i))
    (hj : s.auth j = true) : j ≠ i := by
  rintro rfl
  exact hCtl (h.greeted _ hj).1

theorem ne_of_inline {i j : Slot} {r : RtspRun} (hInline : ∀ r, s.world.ctl i ≠ some (.inline r))
    (hj : s.world.ctl j = some (.inline r)) : j ≠ i := by
  rintro rfl
  exact hInline r hj

/-- The task of slot `i` goes on, and nothing else of interest happens. -/
theorem goOn {i : Slot} {pc₀ pc : CtlPc} (h : AuthInv s)
    (hTasks : TaskTable { w' with ctl := Function.update w'.ctl i (some pc) })
    (hCtl : s.world.ctl i = some pc₀) (hOld : pc₀ ≠ .cleaned true) (hNew : pc ≠ .cleaned true)
    (hInline : ∀ r, pc = .inline r → ∃ r₀, pc₀ = .inline r₀)
    (hGreeted : AfterGreeting (some pc₀) → AfterGreeting (some pc))
    (hFlags : SameFlags s.world w') :
    AuthInv { world := { w' with ctl := Function.update w'.ctl i (some pc) }, auth := s.auth } := by
  refine h.keep hTasks hFlags.connected
    (settledTold_congr (pending_update (by rw [hFlags.ctl]) (by simpa [hCtl] using hOld)
      (by simpa using hNew)) hFlags.told)
    (fun j _ hGreet => ?_) (fun j _ => hFlags.key j) fun j r hj => ?_
  · rw [Greeted] at hGreet ⊢
    by_cases hij : j = i
    · subst hij
      rw [hCtl] at hGreet
      simpa using hGreeted hGreet
    · simpa [hij, hFlags.ctl] using hGreet
  · have hWas : ∃ r₀, s.world.ctl j = some (.inline r₀) := by
      by_cases hij : j = i
      · subst hij
        obtain ⟨r₀, rfl⟩ := hInline r (by simpa using hj)
        exact ⟨r₀, hCtl⟩
      · exact ⟨r, by simpa [hij, hFlags.ctl] using hj⟩
    obtain ⟨r₀, hr₀⟩ := hWas
    obtain ⟨hMux, hIn⟩ := h.held j r₀ hr₀
    exact ⟨hFlags.mux.trans hMux, hFlags.loadedAt hIn⟩

/-- A row of a slot without an authenticated session changes. -/
theorem row {i : Slot} {row : Session} {w' : World} (h : AuthInv s) (hTasks : TaskTable w')
    (hFree : ¬AfterGreeting (s.world.ctl i))
    (hSess : w'.sess = Function.update s.world.sess i row) (hCtl : w'.ctl = s.world.ctl)
    (hConnected : w'.connected = s.world.connected)
    (hTold : lastTold w'.log = lastTold s.world.log) (hMux : w'.sessionMux = s.world.sessionMux)
    (hRegs : w'.regs = s.world.regs) : AuthInv { world := w', auth := s.auth } := by
  have hOther {j : Slot} (hij : j ≠ i) : w'.sess j = s.world.sess j := by
    rw [hSess, Function.update_of_ne hij]
  refine h.keep hTasks hConnected (settledTold_congr (by simp only [Pending, hCtl]) hTold)
    (fun j _ hGreet => by rwa [Greeted, hCtl]) (fun j hj => by rw [hOther (h.ne_of_auth hFree hj)])
    fun j r hj => ?_
  rw [hCtl] at hj
  have hij : j ≠ i := by
    rintro rfl
    exact hFree (hj ▸ afterGreeting_inline r)
  rw [hMux, Loaded, hRegs, hOther hij]
  exact h.held j r hj

/-- The task of slot `i` leaves a critical section that it does not keep; what is
loaded then is of no interest. -/
theorem leaveSection {i : Slot} {pc₀ : CtlPc} {pc : Option CtlPc} (h : AuthInv s) (hTasks : TaskTable w')
    (hMux : s.world.sessionMux = none) (hCtl : s.world.ctl i = some pc₀)
    (hFree : ¬AfterGreeting (some pc₀)) (hOld : pc₀ ≠ .cleaned true)
    (hNew : pc ≠ some (.cleaned true)) (hInline : ∀ r, pc ≠ some (.inline r))
    (hCtl' : w'.ctl = Function.update s.world.ctl i pc)
    (hConnected : w'.connected = s.world.connected)
    (hTold : lastTold w'.log = lastTold s.world.log)
    (hSess : ∀ j, j ≠ i → (w'.sess j).regs.hasSessionKey = (s.world.sess j).regs.hasSessionKey) :
    AuthInv { world := w', auth := s.auth } := by
  have hFree' : ¬AfterGreeting (s.world.ctl i) := hCtl ▸ hFree
  refine h.keep hTasks hConnected (settledTold_congr (pending_update hCtl' (by simpa [hCtl] using hOld)
    hNew) hTold) (fun j hj hGreet => ?_) (fun j hj => hSess j (h.ne_of_auth hFree' hj)) fun j r hj => ?_
  · rwa [Greeted, hCtl', Function.update_of_ne (h.ne_of_auth hFree' hj)]
  · rw [hCtl'] at hj
    exact absurd (inline_of_update hInline hj) (h.no_inline hMux j r)

end AuthInv

/-- All slots but `i`, and the flag. -/
structure SameOthers (i : Slot) (w w' : World) : Prop where
  connected : w'.connected = w.connected
  told : lastTold w'.log = lastTold w.log
  sess : ∀ j, j ≠ i → w'.sess j = w.sess j
  ctl : w'.ctl = w.ctl

instance (i : Slot) : IsPreorder World (SameOthers i) where
  refl _ := ⟨rfl, rfl, fun _ _ => rfl, rfl⟩
  trans _ _ _ h h' :=
    ⟨h'.connected.trans h.connected, h'.told.trans h.told,
      fun j hj => (h'.sess j hj).trans (h.sess j hj), h'.ctl.trans h.ctl⟩

theorem sameOthers_update (w : World) (i : Slot) (row : Session) :
    SameOthers i w { w with sess := Function.update w.sess i row } :=
  ⟨rfl, rfl, fun _ hj => Function.update_of_ne hj .., rfl⟩

theorem greetSession_others (env : Env) (i : Slot) (localIp : UInt32) (localPort : UInt16) :
    Does (SameOthers i) (greetSession env i localIp localPort) := by
  have hSame {w w' : World} (hConnected : w'.connected = w.connected)
      (hTold : lastTold w'.log = lastTold w.log) (hSess : w'.sess = w.sess)
      (hCtl : w'.ctl = w.ctl) : SameOthers i w w' :=
    ⟨hConnected, hTold, fun j _ => by rw [hSess], hCtl⟩
  have hSend (sock : Int) : SendRules env (.ctl i) i sock (SameOthers i) :=
    .of_log (fun _ _ => hSame rfl rfl rfl rfl)
      (fun w _ hOp => hSame rfl (sameFlags_log w (.inl hOp)).told rfl rfl)
      (fun _ _ _ _ _ => hSame rfl rfl rfl rfl) fun w => sameOthers_update w i _
  exact greetSession_does (fun _ _ => hSame rfl rfl rfl rfl)
    (fun _ _ _ _ => hSame rfl (lastTold_append_singleton ..) rfl rfl) hSend
    fun w => sameOthers_update w i _

theorem sameFlags_task (env : Env) (who : Owner) :
    TaskRules env who (fun _ _ => True) SameFlags where
  tick _ _ := .of_eq rfl rfl rfl rfl rfl rfl
  shared _ _ _ _ _ _ _ _ := .of_eq rfl rfl rfl rfl rfl rfl
  stopped _ := .of_eq rfl rfl rfl rfl rfl rfl
  opened _ _ _ := .of_eq rfl (lastTold_append_singleton ..) rfl rfl rfl rfl
  closed _ _ := .of_eq rfl (lastTold_append_singleton ..) rfl rfl rfl rfl
  used _ _ := .of_eq rfl (lastTold_append_singleton ..) rfl rfl rfl rfl
  imageTask _ _ _ := .of_eq rfl rfl rfl rfl rfl rfl
  mediaTask _ _ _ := .of_eq rfl rfl rfl rfl rfl rfl
  newTask _ := .of_eq rfl rfl rfl rfl rfl rfl
  media _ _ := .of_eq rfl rfl rfl rfl rfl rfl
  mediaCb _ _ := .of_eq rfl (lastTold_append_singleton ..) rfl rfl rfl rfl
  startCb _ _ := .of_eq rfl (lastTold_append_singleton ..) rfl rfl rfl rfl
  markClosed _ _ := markClosed_does _ (fun _ _ => sameFlags_update rfl)
    fun _ => .of_eq rfl rfl rfl rfl rfl rfl

namespace AuthInv

variable {s : AuthWorld}

/-- A button or the query: what is loaded before it, and left loaded after it, is of no
interest. -/
theorem call {r : Regs} {w₁ : World} (h : AuthInv s) (hTasks : TaskTable w')
    (hMux : s.world.sessionMux = none) (hBefore : SameFlags s.world w₁)
    (hFlags : SameFlags { w₁ with regs := r } w') : AuthInv { world := w', auth := s.auth } := by
  have hCtl : w'.ctl = s.world.ctl := hFlags.ctl.trans hBefore.ctl
  refine h.keep hTasks (hFlags.connected.trans hBefore.connected)
    (settledTold_congr (by simp only [Pending, hCtl]) (hFlags.told.trans hBefore.told))
    (fun j _ hGreet => by rwa [Greeted, hCtl]) (fun j _ => (hFlags.key j).trans (hBefore.key j))
    fun j r hj => ?_
  exact absurd (hCtl ▸ hj) (h.no_inline hMux j r)

theorem control {action : Bytes} {value : Int} (h : AuthInv s)
    (hTasks : TaskTable (s.world.after (miplaySendReceiverControl env action value)))
    (hMux : s.world.sessionMux = none) :
    AuthInv
      { world := s.world.after (miplaySendReceiverControl env action value), auth := s.auth } := by
  have hGate : Does SameFlags (controlPauseGate action) := by
    refine Does.ite (fun _ _ => .of_eq rfl rfl rfl rfl rfl rfl) fun _ => ?_
    exact Does.ite (fun _ _ => .of_eq rfl rfl rfl rfl rfl rfl) fun _ => Does.pure _
  rw [after_sendReceiverControl] at hTasks ⊢
  have hBefore : SameFlags s.world (s.world.after (controlPauseGate action)) := hGate s.world
  generalize s.world.after (controlPauseGate action) = w₁ at hBefore hTasks ⊢
  simp only [World.after, run_bind, run_get] at hTasks ⊢
  split at hTasks
  · exact h.of_flags hTasks hBefore
  · rename_i i _
    exact h.call hTasks hMux hBefore
      (receiverControlOn_at (flagsIn_switch env .button i) action value w₁ rfl)

theorem query {sock : Int} (h : AuthInv s)
    (hTasks : TaskTable (s.world.after (miplaySendMediaInfoQuery env sock)))
    (hMux : s.world.sessionMux = none) :
    AuthInv { world := s.world.after (miplaySendMediaInfoQuery env sock), auth := s.auth } := by
  obtain hSame | ⟨i, hOn⟩ :=
    sendMediaInfoQuery_at (fun i sock => flagsIn_switch env .button i sock) sock s.world
  · rw [hSame]
    exact h
  · exact h.call hTasks hMux (refl_of SameFlags s.world) (hOn rfl)

theorem leaveOthers {i : Slot} {pc₀ pc : CtlPc} {w₁ : World} (h : AuthInv s)
    (hTasks : TaskTable { w₁ with ctl := Function.update w₁.ctl i (some pc) })
    (hMux : s.world.sessionMux = none) (hCtl : s.world.ctl i = some pc₀)
    (hFree : ¬AfterGreeting (some pc₀)) (hOld : pc₀ ≠ .cleaned true)
    (hNew : some pc ≠ some (.cleaned true)) (hInline : ∀ r, some pc ≠ some (.inline r))
    (hOthers : SameOthers i s.world w₁) :
    AuthInv { world := { w₁ with ctl := Function.update w₁.ctl i (some pc) }, auth := s.auth } :=
  h.leaveSection hTasks hMux hCtl hFree hOld hNew hInline (by rw [hOthers.ctl]) hOthers.connected
    hOthers.told fun j hj => by rw [hOthers.sess j hj]

/-- The callback of a cleanup comes while the flag is down. -/
theorem notify {i : Slot} (h : AuthInv s) (hCtl : s.world.ctl i = some (.cleaned true))
    (hTasks : TaskTable (s.world.after do
      emit (.connectedCb false)
      Miplay.setCtl i (some (.cleaned false)))) :
    AuthInv
      { world := s.world.after do
          emit (.connectedCb false)
          Miplay.setCtl i (some (.cleaned false))
        auth := s.auth } := by
  have hPending : Pending s.world := ⟨i, hCtl⟩
  have hOther {j : Slot} (hj : s.auth j = true) : j ≠ i :=
    h.ne_of_auth (by simp [hCtl, AfterGreeting]) hj
  refine h.keep hTasks rfl ?_ (fun j hj hGreet => ?_) (fun _ _ => rfl) fun j r hj => ?_
  · simp [settledTold, hPending, World.after]
  · simpa [Greeted, World.after, hOther hj] using hGreet
  · exact h.held j r (inline_of_update (by simp) hj)

/-- The inline run is over: its registers are saved, and the mutex is given back. -/
theorem inlineReturn {i : Slot} {r : RtspRun} (h : AuthInv s)
    (hCtl : s.world.ctl i = some (.inline r))
    (hTasks : TaskTable (s.world.after do
      Miplay.inlineReturn i
      Miplay.setCtl i (some .leaving))) :
    AuthInv
      { world := s.world.after do
          Miplay.inlineReturn i
          Miplay.setCtl i (some .leaving)
        auth := s.auth } := by
  obtain ⟨hMux, hIn⟩ := h.held i r hCtl
  refine h.keep hTasks rfl (settledTold_congr (pending_update rfl (by simp [hCtl]) (by simp)) ?_)
    (fun j hj hGreet => ?_) (fun j _ => (sameFlags_save hIn).key j) fun j r' hj => ?_
  · exact lastTold_append_singleton ..
  · by_cases hij : j = i
    · subst hij
      simp [Greeted, World.after, AfterGreeting]
    · simpa [Greeted, World.after, Miplay.inlineReturn, hij] using hGreet
  · -- no other run can have held the mutex
    have hInline : s.world.ctl j = some (.inline r') := inline_of_update (by simp) hj
    obtain rfl : i = j := by simpa [hMux] using (h.held j r' hInline).1
    simp [World.after] at hj

/-- The steps that are neither a frame nor a cleanup. -/
theorem step_other {a : Action} (h : AuthInv s) (hStep : Step env s.world a w')
    (hFrame : ∀ i, a ≠ .frame i) (hCleanup : ∀ i, a ≠ .cleanup i) :
    AuthInv { world := w', auth := s.auth } := by
  have hTasks := h.tasks.step hStep
  cases hStep with
  | accept hTcp hPos hFree =>
    exact h.of_flags hTasks (.of_eq rfl (lastTold_append_singleton ..) rfl rfl rfl rfl)
  | @alloc sock peerIp peerPort hTcp hMux =>
    obtain ⟨i, hFree, hAfter⟩ | ⟨-, hAfter⟩ := tcpAlloc_cases s.world sock peerIp peerPort
    · have hIdle : s.world.ctl i = none := by
        by_contra hCtl
        simp [h.tasks.serving i hCtl] at hFree
      rw [hAfter] at hTasks ⊢
      exact h.row hTasks (by simp [hIdle, AfterGreeting]) rfl rfl rfl rfl rfl rfl
    · rw [hAfter] at hTasks ⊢
      exact h.of_flags hTasks (.of_eq rfl rfl rfl rfl rfl rfl)
  | reject hTcp =>
    exact h.of_flags hTasks (.of_eq rfl (lastTold_append_singleton ..) rfl rfl rfl rfl)
  | @spawn i hTcp =>
    have hIdle := (h.tasks.starting i (.inl hTcp)).2
    obtain ⟨-, hAfter⟩ | ⟨-, hAfter⟩ := tcpSpawn_cases env s.world i
    · rw [hAfter] at hTasks ⊢
      refine h.task hTasks (by simp [hIdle]) (by simp) (by simp) (fun hAuth => ?_) rfl rfl rfl
        (fun _ _ => rfl) fun j r _ hj => h.held j r hj
      exact absurd hIdle (h.greeted i hAuth).1.1
    · rw [hAfter] at hTasks ⊢
      exact h.of_flags hTasks (.of_eq rfl (lastTold_append_singleton ..) rfl rfl rfl rfl)
  | @tcpRelease i hTcp hMux =>
    have hUse := (h.tasks.starting i (.inr hTcp)).1
    simp only [World.after, run_bind, miplaySessionRelease_run hUse] at hTasks ⊢
    have hRow : SameFlags s.world
        { s.world with
          sess := Function.update s.world.sess i { s.world.sess i with inUse := false } } :=
      sameFlags_update rfl
    exact h.of_flags hTasks ⟨rfl, rfl, hRow.key, rfl, rfl, rfl⟩
  | @enter i hCtl hMux =>
    obtain ⟨regs, active, peer, -, -, hAfter⟩ := enterClient_run s.world i
    have hOthers : SameOthers i s.world (s.world.after (enterClient i)) := by
      rw [hAfter]
      exact ⟨rfl, rfl, fun _ hj => Function.update_of_ne hj .., rfl⟩
    exact h.leaveOthers hTasks hMux hCtl (by simp [AfterGreeting]) (by simp) (by simp) (by simp) hOthers
  | @greet i localIp localPort hCtl hMux =>
    have hFree : ¬AfterGreeting (some .entered) := by simp [AfterGreeting]
    have hTick (n : Nat) : SameOthers i s.world { s.world with tick := s.world.tick + n } :=
      ⟨rfl, rfl, fun _ _ => rfl, rfl⟩
    revert hTasks
    simp only [World.after, greetClient, run_bind, run_oracle, run_ite]
    split
    · intro hTasks
      exact h.leaveOthers hTasks hMux hCtl hFree (by simp) (by simp) (by simp) (hTick 1)
    · split <;> intro hTasks
      · exact h.leaveOthers hTasks hMux hCtl hFree (by simp) (by simp) (by simp) (hTick 2)
      · exact h.leaveOthers hTasks hMux hCtl hFree (by simp) (by simp) (by simp)
          (trans_of (SameOthers i) (hTick 2) (greetSession_others ..))
  | recv hCtl hRun hMove hChunk hSpace =>
    exact h.goOn hTasks hCtl (by simp) (by simp) (by simp) (fun _ => afterGreeting_serving _)
      (.of_eq rfl (lastTold_append_singleton ..) rfl rfl rfl rfl)
  | full hCtl hRun hMove hFull =>
    exact h.goOn hTasks hCtl (by simp) (by simp) (by simp) (fun _ => afterGreeting_serving _)
      (refl_of SameFlags s.world)
  | skip hCtl hMove =>
    exact h.goOn hTasks hCtl (by simp) (by simp) (by simp) (fun _ => afterGreeting_serving _)
      (refl_of SameFlags s.world)
  | frame => exact absurd rfl (hFrame _)
  | hangup hCtl hRun hMove =>
    exact h.goOn hTasks hCtl (by simp) (by simp) (by simp) (fun _ => afterGreeting_leaving)
      (.of_eq rfl (lastTold_append_singleton ..) rfl rfl rfl rfl)
  | quit hCtl hRun hMove =>
    exact h.goOn hTasks hCtl (by simp) (by simp) (by simp) (fun _ => afterGreeting_leaving)
      (refl_of SameFlags s.world)
  | cleanup => exact absurd rfl (hCleanup _)
  | @notify i hCtl => exact h.notify hCtl hTasks
  | @release i hCtl hMux =>
    have hUse := h.tasks.serving i (by simp [hCtl])
    simp only [World.after, run_bind, miplaySessionRelease_run hUse, run_setCtl] at hTasks ⊢
    have hOthers := sameOthers_update s.world i { s.world.sess i with inUse := false }
    exact h.leaveSection hTasks hMux hCtl (by simp [AfterGreeting]) (by simp) (by simp) (by simp) rfl
      rfl rfl fun j hj => congrArg (·.regs.hasSessionKey) (hOthers.sess j hj)
  | @inlineDone i r o hCtl hPc => exact h.inlineReturn hCtl hTasks
  | inline hCtl hPc hMark hFits =>
    exact h.goOn hTasks hCtl (by simp) (by simp) (fun _ _ => ⟨_, rfl⟩)
      (fun _ => afterGreeting_inline _) ((sameFlags_task env _).rtspRunStep _ hFits fun _ _ _ => trivial)
  | rtspDone hTask hPc => exact h.of_flags hTasks (.of_eq rfl rfl rfl rfl rfl rfl)
  | @rtsp t r o hTask hPc hMark hFits =>
    exact h.of_flags hTasks (((sameFlags_task env (.rtsp t)).rtspRunStep r hFits
      fun _ _ _ => trivial).trans (.of_eq rfl rfl rfl rfl rfl rfl))
  | @media t m o hTask hMark =>
    exact h.of_flags hTasks (((sameFlags_task env (.media t)).mediaStep m o _).trans
      (.of_eq rfl rfl rfl rfl rfl rfl))
  | @image t r o hTask =>
    exact h.of_flags hTasks (((sameFlags_task env (.image t)).imageStep r o _).trans
      (.of_eq rfl rfl rfl rfl rfl rfl))
  | control hMux => exact h.control hTasks hMux
  | query hMux => exact h.query hTasks hMux
  | setVolume =>
    exact h.of_flags hTasks (.of_eq rfl (lastTold_append_singleton ..) rfl rfl rfl rfl)

end AuthInv

/-! ## Handshakes and cleanups -/

/-- Only a session with a key can decrypt the answer to its challenge. -/
theorem key_of_passesAuth {i : Slot} {frame : Bytes}
    (hPass : (openFrame env w i frame).2.passesAuth env (w.sess i).regs = true) :
    (w.sess i).regs.hasSessionKey = true := by
  by_contra hKey
  have hNone : (openFrame env w i frame).2.decrypted = none := by
    simp only [openFrame, unifiedDecrypt, run_bind, run_get, run_ite]
    rw [if_pos (.inl (by simpa using hKey))]
    rfl
  simp [Frame.passesAuth, hNone] at hPass

/-- A cleanup tells the application if no other session has a key. -/
theorem cleanup_run (w : World) (i : Slot) :
    ∃ notify regs active peer, (notify = true ↔ ∀ j, j ≠ i → ¬Keyed w j) ∧
      w.after (do
        let notify ← disconnectCleanup i
        setCtl i (some (.cleaned notify))) =
      { w with
        regs := regs
        activeClientSock := active
        activePeerIp := peer
        connected := !notify && w.connected
        mediaPaused := notify || w.mediaPaused
        log := w.log ++ [.closed (.ctl i) (w.sess i).sock (w.kernel.fds (w.sess i).sock)]
        kernel := { w.kernel with fds := Function.update w.kernel.fds (w.sess i).sock none }
        sess := Function.update w.sess i
          { w.sess i with regs := { Regs.cleared with notifySeq := 8 } }
        ctl := Function.update w.ctl i (some (.cleaned notify)) } := by
  have hSaved : ({ Regs.cleared with notifySeq := 8 } : Regs).saved =
      { Regs.cleared with notifySeq := 8 } := rfl
  -- the cleaned slot has no key any more
  have hActive (w₁ : World) (hSess : w₁.sess = Function.update w.sess i
      { w.sess i with regs := { Regs.cleared with notifySeq := 8 } }) :
      miplaySessionActive w₁ = none ↔ ∀ j, j ≠ i → ¬Keyed w j := by
    rw [miplaySessionActive_eq_none_iff]
    refine forall_congr' fun j => ?_
    by_cases hij : j = i
    · subst hij
      simp [Keyed, hSess, Regs.cleared]
    · simp [Keyed, hSess, hij]
  simp only [World.after, disconnectCleanup, run_bind, run_get, run_miplaySessionLoad, run_ite,
    run_modify, run_closeFd, run_modifyRegs, run_miplaySessionSave, hSaved]
  split
  all_goals
    split
    · rename_i hSome
      refine ⟨false, _, _, _, iff_of_false (by simp) fun hNone => ?_, rfl⟩
      rw [(hActive _ rfl).mpr hNone] at hSome
      cases hSome
    · rename_i hNone
      exact ⟨true, _, _, _, iff_of_true rfl ((hActive _ rfl).mp hNone), rfl⟩

namespace AuthInv

variable {s s' : AuthWorld} {i : Slot} {a : Action}

theorem keyed (h : AuthInv s) (hAuth : s.auth i = true) : Keyed s.world i :=
  ⟨h.tasks.serving i (h.greeted i hAuth).1.1, (h.greeted i hAuth).2⟩

/-- A cleanup leaves the flag right exactly if it was no last authenticated session
beside a greeted one. -/
theorem cleanup (h : AuthInv s) (hCtl : s.world.ctl i = some .leaving)
    (hMux : s.world.sessionMux = none) {w' : World} (hTasks : TaskTable w')
    (hAfter : w' = s.world.after do
      let notify ← disconnectCleanup i
      Miplay.setCtl i (some (.cleaned notify))) :
    (FlagRight { world := w', auth := Function.update s.auth i false } ↔
      FlagKept env s (.cleanup i) { world := w', auth := Function.update s.auth i false }) ∧
    (FlagRight { world := w', auth := Function.update s.auth i false } →
      AuthInv { world := w', auth := Function.update s.auth i false }) := by
  obtain ⟨notify, regs, active, peer, hNotify, hRun⟩ := cleanup_run s.world i
  rw [hRun] at hAfter
  have hCtl' : w'.ctl = Function.update s.world.ctl i (some (.cleaned notify)) := by rw [hAfter]
  have hConnected : w'.connected = (!notify && s.world.connected) := by rw [hAfter]
  have hTold : lastTold w'.log = lastTold s.world.log := by
    rw [hAfter]
    exact lastTold_append_singleton ..
  have hSess (j : Slot) (hij : j ≠ i) : w'.sess j = s.world.sess j := by
    rw [hAfter]
    exact Function.update_of_ne hij ..
  have hAuth {j : Slot} (hj : Function.update s.auth i false j = true) : j ≠ i ∧ s.auth j = true := by
    by_cases hij : j = i
    · subst hij
      simp at hj
    · exact ⟨hij, by simpa [hij] using hj⟩
  constructor
  · have hAuth' : (∃ j, Function.update s.auth i false j = true) ↔ ∃ j, j ≠ i ∧ s.auth j = true := by
      refine ⟨fun ⟨j, hj⟩ => ⟨j, hAuth hj⟩, fun ⟨j, hij, hj⟩ => ⟨j, ?_⟩⟩
      rwa [Function.update_of_ne hij]
    obtain ⟨hFlag, hSettled⟩ := h.right
    simp only [FlagRight, FlagKept, hAuth', hConnected, Action.cleanup.injEq, reduceCtorEq,
      false_implies, implies_true, and_true, forall_eq']
    cases hNote : notify with
    | true =>
      -- nobody is left
      have hNone := hNotify.mp hNote
      have hPending : Pending w' := ⟨i, by rw [hCtl', hNote, Function.update_self]⟩
      refine iff_of_true ⟨?_, settledTold_of_pending hPending⟩ fun _ _ => hNone
      simpa using fun j hij hj => hNone j hij (h.keyed hj)
    | false =>
      -- the flag and the callback stay as they are
      have hSome : ¬∀ j, j ≠ i → ¬Keyed s.world j := fun hNone => by
        simpa [hNote] using hNotify.mpr hNone
      have hSettled' : settledTold w' = settledTold s.world :=
        settledTold_congr (pending_update hCtl' (by simp [hCtl]) (by simp [hNote])) hTold
      rw [hSettled', hSettled]
      simp only [Bool.not_false, Bool.true_and, and_true, hFlag]
      constructor
      · intro hSame hi hAlone
        obtain ⟨j, hij, hj⟩ := hSame.mp ⟨i, hi⟩
        simp [hAlone j hij] at hj
      · intro hKept
        refine ⟨fun ⟨k, hk⟩ => ?_, fun ⟨j, _, hj⟩ => ⟨j, hj⟩⟩
        by_cases hki : k = i
        · subst hki
          by_contra hAlone
          exact hSome (hKept hk fun j hij => by simpa using fun hj => hAlone ⟨j, hij, hj⟩)
        · exact ⟨k, hki, hk⟩
  · intro hRight
    refine ⟨hTasks, fun j hj => ?_, fun j r hj => ?_, hRight⟩
    · obtain ⟨hij, hj⟩ := hAuth hj
      obtain ⟨hGreet, hKey⟩ := h.greeted j hj
      refine ⟨?_, by rw [hSess j hij, hKey]⟩
      rwa [Greeted, hCtl', Function.update_of_ne hij]
    · rw [hCtl'] at hj
      exact absurd (inline_of_update (by simp) hj) (h.no_inline hMux j r)

/-- A frame leaves the flag right exactly if it completes no handshake before a cleanup
has told the application. -/
theorem frame {hd : Handler} {fr : Bytes} {n : Nat} (h : AuthInv s)
    (hCtl : s.world.ctl i = some (.serving hd)) (hMove : frameMove hd.buf = .take fr n)
    (hMux : s.world.sessionMux = none) {w' : World} (hTasks : TaskTable w')
    (hAfter : w' = s.world.after (serveFrame env i hd fr n)) :
    (FlagRight { world := w', auth := authNext env s (.frame i) } ↔
      FlagKept env s (.frame i) { world := w', auth := authNext env s (.frame i) }) ∧
    (FlagRight { world := w', auth := authNext env s (.frame i) } →
      AuthInv { world := w', auth := authNext env s (.frame i) }) := by
  have hFlags := serveFrame_flags env s.world i hd fr n
  rw [← hAfter] at hFlags
  have hPasses : AuthPasses env s.world i ↔
      (openFrame env s.world i fr).2.passesAuth env (s.world.sess i).regs = true := by
    refine ⟨fun ⟨h', fr', n', hCtl', hMove', hPass⟩ => ?_, fun hPass => ⟨hd, fr, n, hCtl, hMove, hPass⟩⟩
    obtain rfl : hd = h' := by simpa [hCtl] using hCtl'
    obtain ⟨rfl, -⟩ : fr = fr' ∧ n = n' := by simpa [hMove] using hMove'
    exact hPass
  have hKey : (openFrame env s.world i fr).2.passesAuth env (s.world.sess i).regs = true →
      (s.world.sess i).regs.hasSessionKey = true := key_of_passesAuth
  have hNext : authNext env s (.frame i) =
      if (openFrame env s.world i fr).2.passesAuth env (s.world.sess i).regs then
        Function.update s.auth i true
      else s.auth := by
    simp only [authNext, hCtl, hMove]
  rw [hNext]
  generalize (openFrame env s.world i fr).2.passesAuth env (s.world.sess i).regs = passes at *
  obtain ⟨pc, hCtl', hpc⟩ : ∃ pc, w'.ctl = Function.update s.world.ctl i (some pc) ∧
      AfterGreeting (some pc) := by
    obtain ⟨h', hTo, -⟩ | ⟨r, hTo, -⟩ := hFlags.goesOn
    · exact ⟨_, hTo, afterGreeting_serving h'⟩
    · exact ⟨_, hTo, afterGreeting_inline r⟩
  have hPending : Pending w' ↔ Pending s.world :=
    pending_update hCtl' (by simp [hCtl]) (hpc.2.2.2 true)
  obtain ⟨hFlag, hSettled⟩ := h.right
  constructor
  · simp only [FlagRight, FlagKept, Action.frame.injEq, reduceCtorEq, false_implies, implies_true,
      true_and, forall_eq', hPasses, hFlags.connected]
    cases passes with
    | false =>
      have hTold : settledTold w' = settledTold s.world :=
        settledTold_congr hPending (by simp [hFlags.told])
      simpa [hTold, hSettled] using hFlag
    | true =>
      have hAuth : ∃ j, Function.update s.auth i true j = true := ⟨i, Function.update_self ..⟩
      simp only [Bool.or_true, if_true, hAuth, true_and, forall_const]
      by_cases hWas : Pending s.world
      · -- the callback that is still to come takes the flag back
        simp [settledTold_of_pending (hPending.mpr hWas), hWas]
      · rw [settledTold, if_neg hWas] at hSettled
        simp [settledTold, hPending, hWas, hFlags.told, hSettled]
  · intro hRight
    refine ⟨hTasks, fun j hj => ?_, fun j r hj => ?_, hRight⟩
    · by_cases hij : j = i
      · subst hij
        refine ⟨by rwa [Greeted, hCtl', Function.update_self], ?_⟩
        rw [hFlags.key]
        cases passes with
        | true => exact hKey rfl
        | false => exact (h.greeted j hj).2
      · have hWas : s.auth j = true := by
          cases passes <;> simpa [hij] using hj
        obtain ⟨hGreet, hKeyed⟩ := h.greeted j hWas
        refine ⟨?_, by rw [hFlags.key, hKeyed]⟩
        rwa [Greeted, hCtl', Function.update_of_ne hij]
    · -- the mutex was free, so the run is the frame's own
      obtain ⟨h', hTo, -⟩ | ⟨r', hTo, hHeld⟩ := hFlags.goesOn
      · rw [hTo] at hj
        exact absurd (inline_of_update (by simp) hj) (h.no_inline hMux j r)
      · by_cases hij : j = i
        · exact hij ▸ hHeld
        · rw [hTo, Function.update_of_ne hij] at hj
          exact absurd hj (h.no_inline hMux j r)

theorem step (h : AuthInv s) (hStep : authStep env s a = some s') :
    (FlagRight s' ↔ FlagKept env s a s') ∧ (FlagRight s' → AuthInv s') := by
  obtain ⟨w', hWorld, rfl⟩ := Option.map_eq_some_iff.mp hStep
  have hCases := step_cases hWorld
  have hTasks := h.tasks.step hCases
  by_cases hFrame : ∃ i, a = .frame i
  · obtain ⟨i, rfl⟩ := hFrame
    cases hCases with
    | frame hCtl hMove hMux => exact h.frame hCtl hMove hMux hTasks rfl
  by_cases hCleanup : ∃ i, a = .cleanup i
  · obtain ⟨i, rfl⟩ := hCleanup
    cases hCases with
    | cleanup hCtl hMux => exact h.cleanup hCtl hMux hTasks rfl
  · simp only [not_exists] at hFrame hCleanup
    have hNext : authNext env s a = s.auth := by
      cases a with
      | frame i => exact absurd rfl (hFrame i)
      | cleanup i => exact absurd rfl (hCleanup i)
      | _ => rfl
    have hInv := h.step_other hCases hFrame hCleanup
    rw [hNext]
    refine ⟨iff_of_true hInv.right ⟨fun i hi => absurd hi (hCleanup i), fun i hi => absurd hi (hFrame i)⟩,
      fun _ => hInv⟩

theorem initial (volume : Nat) : AuthInv (AuthWorld.initial volume) where
  tasks := .initial volume
  greeted i hi := by simp [AuthWorld.initial] at hi
  held i r hi := by simp [AuthWorld.initial, World.initial] at hi
  right := by simp [FlagRight, AuthWorld.initial, World.initial, settledTold, Pending, lastTold]

end AuthInv

/-- **Connected flag.** Along every run the flag and the callback are right after every
step if and only if no last authenticated session leaves a greeted one behind, and
no handshake is completed before a cleanup has told the application. -/
theorem flagRight_along (env : Env) (volume : Nat) (as : List Action) :
    Along (authStep env) (fun _ _ s' => FlagRight s') (AuthWorld.initial volume) as ↔
      Along (authStep env) (FlagKept env) (AuthWorld.initial volume) as :=
  along_iff_of_invariant (I := AuthInv) (fun _ _ _ hInv hStep => (hInv.step hStep).1)
    (fun _ _ _ hInv hStep hKept => (hInv.step hStep).2 ((hInv.step hStep).1.mpr hKept))
    (AuthInv.initial volume)

/-- The answer a phone gives to its challenge when all digests are zero. -/
def plainAckFrame : Bytes :=
  let body := ascii "\"authMsgAck\":\"" ++ List.replicate 64 0x30 ++ ascii "\""
  frameOf 0x14 0x03 (containerOf ((safetyEnvelopeEncode true body 2048).getD []))

/-- A phone authenticates; another socket connects and is greeted; the phone hangs up. -/
def companionLeftRun : List Action :=
  connectRun 54 ++ frameRun plainAckFrame ++
    [.accept 55 2 2, .alloc, .spawn, .enter 1, .greet 1 0 0, .hangup 0]

set_option maxRecDepth 1000 in
/-- After the cleanup of the only authenticated session the flag is still set. -/
theorem companion_keeps_connected :
    ¬∀ env volume as,
      Along (authStep env) (fun _ _ s' => FlagRight s') (AuthWorld.initial volume) as := by
  intro hAll
  obtain ⟨s, s', hRun, hStep, hLeft⟩ := exists_last_of_any
    (show (run (authStep (Env.smooth plainCrypto)) (AuthWorld.initial 50) companionLeftRun).any
      (fun s => (authStep (Env.smooth plainCrypto) s (.cleanup 0)).any fun s' =>
        s'.world.connected && decide (∀ i, s'.auth i = false)) = true by decide +kernel)
  rw [Bool.and_eq_true, decide_eq_true_eq] at hLeft
  have hRight := (hAll (Env.smooth plainCrypto) 50 (companionLeftRun ++ [.cleanup 0])).last hRun hStep
  obtain ⟨i, hAuth⟩ := hRight.1.mp hLeft.1
  simp [hLeft.2 i] at hAuth

end EspMiplay.Miplay
