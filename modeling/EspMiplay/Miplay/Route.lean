import EspMiplay.Miplay.Isolation
import Mathlib.Data.List.MinMax

/-!
# Where a button goes

A local control is meant for the phone that plays. `miplay_session_active_locked`
picks one session for it by score, and `miplay_send_receiver_control` then drops
the action unless that one session has its media session open. The score does
not ask for that: a companion connection that has registered a play source
outweighs the connection the stream belongs to.

## Results

* `miplaySessionActive_eq_some_iff` — the choice, as a first maximum.
* `emitReceiverControl_sends`       — the frame that goes out.
* `receiverControl_sent_iff`        — one call: sent on an open session or not.
* `control_along`                   — over runs, exactly when the first of the
  best-scored sessions is an open one.
* `control_dropped`                 — a companion that outweighs the stream.
-/

namespace EspMiplay.Miplay

open Effect Transition

/-! ## Candidates -/

/-- In use, with a session key and an open media session. -/
def Opened (w : World) (i : Slot) : Prop :=
  (w.sess i).inUse ∧ (w.sess i).regs.hasSessionKey ∧ (w.sess i).regs.mediaSessionOpened

/-- The peer a control is kept to; 0 for any. -/
def routePeer (w : World) : UInt32 :=
  let opened := preferredPeer w.activeClientSock (slots.map w.sess) 0
  if opened = 0 then
    match miplaySessionFind w w.activeClientSock with
    | some i => if (w.sess i).regs.hasSessionKey then (w.sess i).peerIp else 0
    | none => 0
  else opened

/-- In use, with a session key, of the peer the control is kept to. -/
def Candidate (w : World) (i : Slot) : Prop :=
  (w.sess i).inUse ∧ (w.sess i).regs.hasSessionKey ∧
    (routePeer w = 0 ∨ (w.sess i).peerIp = routePeer w)

instance (w : World) (i : Slot) : Decidable (Opened w i) := inferInstanceAs (Decidable (_ ∧ _ ∧ _))

instance (w : World) (i : Slot) : Decidable (Candidate w i) :=
  inferInstanceAs (Decidable (_ ∧ _ ∧ _))

def scoreOf (w : World) (i : Slot) : Nat := routeScore w.activeClientSock (w.sess i)

/-- The first candidate with the highest score. -/
def FirstBest (w : World) (j : Slot) : Prop :=
  Candidate w j ∧ ∀ k, Candidate w k → k ≠ j →
    scoreOf w k < scoreOf w j ∨ scoreOf w k = scoreOf w j ∧ j < k

/-- The loop of the source keeps the first maximum it has seen. -/
theorem bestRoute_eq_foldl (w : World) (is : List Slot) (best : Option Slot) :
    (bestRoute w (routePeer w) is (best.map fun j => (j, scoreOf w j))).map Prod.fst =
      (is.filter fun i => Candidate w i).foldl
        (List.argAux fun b c => scoreOf w c < scoreOf w b) best := by
  induction is generalizing best with
  | nil => cases best <;> rfl
  | cons i is ih =>
    rw [bestRoute]
    by_cases hCand : Candidate w i
    · obtain ⟨hUse, hKey, hPeer⟩ := hCand
      have hPeer' : ¬(routePeer w ≠ 0 ∧ (w.sess i).peerIp ≠ routePeer w) := by tauto
      rw [List.filter_cons_of_pos (by simpa [Candidate, hUse, hKey] using hPeer), List.foldl_cons]
      simp only [hUse, hKey, Bool.not_true, Bool.or_self, Bool.false_eq_true, if_false, hPeer']
      cases best with
      | none => exact ih (some i)
      | some j =>
        simp only [Option.map_some, List.argAux]
        change _ = List.foldl _ (if scoreOf w j < scoreOf w i then some i else some j) _
        split
        · rename_i hMore
          rw [if_pos (show scoreOf w j < scoreOf w i from hMore)]
          exact ih (some i)
        · rename_i hLess
          rw [if_neg (show ¬scoreOf w j < scoreOf w i from hLess)]
          exact ih (some j)
    · rw [List.filter_cons_of_neg (by simpa using hCand)]
      have hSkip : (!(w.sess i).inUse || !(w.sess i).regs.hasSessionKey) = true ∨
          (routePeer w ≠ 0 ∧ (w.sess i).peerIp ≠ routePeer w) := by
        simp only [Candidate] at hCand
        simp only [Bool.or_eq_true, Bool.not_eq_true']
        grind
      split
      · exact ih best
      · rw [if_pos (hSkip.resolve_left ‹_›)]
        exact ih best

theorem miplaySessionActive_eq_argmax (w : World) :
    miplaySessionActive w = (slots.filter fun i => Candidate w i).argmax (scoreOf w) :=
  bestRoute_eq_foldl w slots none

/-- In a filtered list of slots the positions are in order. -/
theorem idxOf_filter_slots (p : Slot → Bool) (i j : Slot) (hi : p i) (hj : p j) :
    (slots.filter p).idxOf i ≤ (slots.filter p).idxOf j ↔ i ≤ j := by
  rcases slot_cases i with rfl | rfl | rfl <;> rcases slot_cases j with rfl | rfl | rfl <;>
    cases h₀ : p 0 <;> cases h₁ : p 1 <;> cases h₂ : p 2 <;>
    simp_all [slots, List.filter]

theorem miplaySessionActive_eq_some_iff {w : World} {j : Slot} :
    miplaySessionActive w = some j ↔ FirstBest w j := by
  rw [miplaySessionActive_eq_argmax, List.argmax_eq_some_iff]
  have hMem (k : Slot) : (k ∈ slots.filter fun i => Candidate w i) ↔ Candidate w k := by
    simp [mem_slots]
  have hOrder {i k : Slot} (hi : Candidate w i) (hk : Candidate w k) :=
    idxOf_filter_slots (fun i => Candidate w i) i k (by simpa using hi) (by simpa using hk)
  simp only [hMem, FirstBest]
  refine and_congr_right fun hj => ⟨fun ⟨hLe, hFirst⟩ k hk hne => ?_, fun hBest => ⟨fun k hk => ?_,
    fun k hk hLe => ?_⟩⟩
  · rcases Nat.lt_or_eq_of_le (hLe k hk) with hLt | hEq
    · exact .inl hLt
    · have hFirst : j ≤ k := (hOrder hj hk).mp (hFirst k hk hEq.ge)
      have hVal : k.val ≠ j.val := fun h => hne (Fin.ext h)
      exact .inr ⟨hEq, Nat.lt_of_le_of_ne hFirst (Ne.symm hVal)⟩
  · by_cases hkj : k = j
    · rw [hkj]
    · rcases hBest k hk hkj with hLt | hEq
      · exact hLt.le
      · exact hEq.1.le
  · refine (hOrder hj hk).mpr ?_
    by_cases hkj : k = j
    · exact hkj ▸ Fin.le_refl k
    · rcases hBest k hk hkj with hLt | hEq
      · omega
      · exact Fin.le_of_lt hEq.2

/-! ## One call -/

/-- `send` is called on `sock`, and if the socket takes the frame it is the
automatically numbered notify with this body, sealed under `r`. -/
def SendsBody (env : Env) (tick : Nat) (r : Regs) (sock : Int) (conn : Option Conn) (body : Bytes)
    (ops : List Op) : Prop :=
  .used .button sock conn ∈ ops ∧
    (env.send (tick + 1) → conn.isSome → ∃ seq sd iv',
      safetyEncrypt env.aes true body r.aesKey r.encryptIv encryptBufSize = (some sd, iv') ∧
        .frame sock conn cmdNotify seq sd (.sealed r.aesKey r.encryptIv iv' body) true ∈ ops)

/-- The call sends the body on the session of slot `j`, under its registers. -/
def SentOn (env : Env) (w w' : World) (j : Slot) (body : Bytes) : Prop :=
  ∃ ops, w'.log = w.log ++ ops ∧
    SendsBody env w.tick (w.sess j).regs (w.sess j).sock (w.kernel.fds (w.sess j).sock) body ops

/-- A valid action is sent on an open session, if there is one. -/
def ControlReaches (env : Env) (w : World) (a : Action) (w' : World) : Prop :=
  ∀ action value body, a = .control action value → receiverControlBody action value = some body →
    (∃ i, Opened w i) → ∃ j, Opened w j ∧ SentOn env w w' j body

/-- The first of the best-scored candidates is an open session, and `safety_encrypt`
has memory. -/
def RoutesToOpened (env : Env) (w : World) : Prop :=
  env.heap w.tick ∧ ∃ j, FirstBest w j ∧ Opened w j ∧ 0 ≤ (w.sess j).sock

section Call

variable {env : Env} (w : World) {action body : Bytes} {value : Int}

theorem SendsBody.mono {tick : Nat} {r : Regs} {sock : Int} {conn : Option Conn} {ops ops' : List Op}
    (h : SendsBody env tick r sock conn body ops) (hSub : ops ⊆ ops') :
    SendsBody env tick r sock conn body ops' := by
  refine ⟨hSub h.1, fun hSend hConn => ?_⟩
  obtain ⟨seq, sd, iv', hSeal, hFrame⟩ := h.2 hSend hConn
  exact ⟨seq, sd, iv', hSeal, hSub hFrame⟩

/-- The encrypted notify, when there is memory. -/
theorem sendNotify_sends (sock : Int) (hLen : body.length ≤ miplayMaxFramePayload)
    (hHeap : env.heap w.tick = true) :
    ∃ ops, (w.after (sendEncryptedCmdAutoSeq env .button sock cmdNotify body)).log = w.log ++ ops ∧
      SendsBody env w.tick w.regs sock (w.kernel.fds sock) body ops := by
  have hFit : safetyLen body.length ≤ encryptBufSize := by
    simp only [safetyLen, encryptBufSize, miplayMaxFramePayload] at hLen ⊢
    omega
  obtain ⟨sd, iv', hSeal⟩ :=
    safetyEncrypt_produces env.aes body w.regs.aesKey w.regs.encryptIv hFit
  have hShort : ¬body.length > miplayMaxFramePayload := by omega
  have hLog : (w.after (sendEncryptedCmdAutoSeq env .button sock cmdNotify body)).log =
      w.log ++ ([.used .button sock (w.kernel.fds sock)] ++
        if env.send (w.tick + 1) && (w.kernel.fds sock).isSome then
          [.frame sock (w.kernel.fds sock) cmdNotify (UInt16.ofNat (notifySeqOf w.regs.notifySeq)) sd
            (.sealed w.regs.aesKey w.regs.encryptIv iv' body) true]
        else []) := by
    simp only [World.after, sendEncryptedCmdAutoSeq, miplayNextNotifySeq, sendEncryptedCmd, hShort,
      if_false, sealAndSend, miplaySendCmdRaw, run_bind, run_get, run_modifyRegs, run_pure,
      run_oracle, hHeap, hSeal, run_useFd, World.connOf]
    cases env.send (w.tick + 1) <;> cases w.kernel.fds sock <;> simp
  refine ⟨_, hLog, List.mem_append_left _ (List.mem_singleton_self _), fun hSend hConn => ?_⟩
  refine ⟨UInt16.ofNat (notifySeqOf w.regs.notifySeq), sd, iv', hSeal, ?_⟩
  rw [if_pos (by simp [hSend, hConn])]
  exact List.mem_append_right _ (List.mem_singleton_self _)

/-- Without memory nothing is sent, and the call reports so. -/
theorem sendNotify_noHeap (sock : Int) (hHeap : env.heap w.tick = false) :
    ((sendEncryptedCmdAutoSeq env .button sock cmdNotify body).run w).1 = false ∧
      (w.after (sendEncryptedCmdAutoSeq env .button sock cmdNotify body)).log = w.log := by
  have hSeal : safetyEncrypt env.aes false body w.regs.aesKey w.regs.encryptIv encryptBufSize =
      (none, w.regs.encryptIv) := by
    simp [safetyEncrypt]
  simp only [World.after, sendEncryptedCmdAutoSeq, miplayNextNotifySeq, sendEncryptedCmd, run_ite,
    sealAndSend, run_bind, run_get, run_modifyRegs, run_pure, run_oracle, hHeap, hSeal]
  split <;> exact ⟨rfl, rfl⟩

/-- What a control does with the action it can send. -/
theorem emitReceiverControl_sends (sock : Int) (hLen : body.length ≤ miplayMaxFramePayload)
    (hHeap : env.heap w.tick = true) :
    ∃ ops, (w.after (emitReceiverControl env sock action value body)).log = w.log ++ ops ∧
      SendsBody env w.tick w.regs sock (w.kernel.fds sock) body ops := by
  -- the volume is stored before, the state is projected behind
  have hTail (w : World) (hHeap : env.heap w.tick = true) :
      ∃ ops, (w.after (do
          let sent ← sendEncryptedCmdAutoSeq env .button sock cmdNotify body
          if sent && (action = ascii "pause" || isResumeAction action) then
            let wire : Int := if action = ascii "pause" then 3 else 2
            miplayEmitMediaEvent
              { miplayMediaEventInit with
                status := wire
                deviceState := wire
                playerState := if action = ascii "pause" then .paused else .playing
                changed := { status := true, deviceState := true, playerState := true } })).log =
          w.log ++ ops ∧
        SendsBody env w.tick w.regs sock (w.kernel.fds sock) body ops := by
    obtain ⟨ops, hLog, hSends⟩ := sendNotify_sends w sock hLen hHeap
    have hProject : Does LogGrows (do
        if ((sendEncryptedCmdAutoSeq env .button sock cmdNotify body).run w).1 &&
            (action = ascii "pause" || isResumeAction action) then
          let wire : Int := if action = ascii "pause" then 3 else 2
          miplayEmitMediaEvent
            { miplayMediaEventInit with
              status := wire
              deviceState := wire
              playerState := if action = ascii "pause" then .paused else .playing
              changed := { status := true, deviceState := true, playerState := true } }) :=
      Does.ite (fun _ => (logGrows_frame env .button 0 sock).toSwitchRules.emitMediaEvent _) fun _ => Does.pure _
    obtain ⟨more, hMore⟩ := hProject (w.after (sendEncryptedCmdAutoSeq env .button sock cmdNotify body))
    refine ⟨ops ++ more, ?_, hSends.mono (List.subset_append_left ..)⟩
    rw [← List.append_assoc, ← hLog, hMore]
    rfl
  by_cases hVolume : action = ascii "volume"
  · obtain ⟨ops, hLog, hSends⟩ := hTail (w.after (miplaySetVolume (controlVolume value))) hHeap
    refine ⟨.nvsSave (min (controlVolume value) 100) :: ops, ?_,
      hSends.mono (List.subset_cons_self ..)⟩
    simp only [World.after, emitReceiverControl, if_pos hVolume, run_bind] at hLog ⊢
    rw [hLog]
    simp [miplaySetVolume]
  · obtain ⟨ops, hLog, hSends⟩ := hTail w hHeap
    refine ⟨ops, ?_, hSends⟩
    simp only [World.after, emitReceiverControl, if_neg hVolume] at hLog ⊢
    exact hLog

/-- A call that finds no memory logs a stored volume at most. -/
theorem emitReceiverControl_noHeap (sock : Int) (hHeap : env.heap w.tick = false) :
    ∃ ops, (w.after (emitReceiverControl env sock action value body)).log = w.log ++ ops ∧
      ∀ op ∈ ops, op.Callback := by
  have hFail (w : World) (hHeap : env.heap w.tick = false) :
      ((sendEncryptedCmdAutoSeq env .button sock cmdNotify body).run w).1 = false ∧
        (w.after (sendEncryptedCmdAutoSeq env .button sock cmdNotify body)).log = w.log :=
    sendNotify_noHeap w sock hHeap
  by_cases hVolume : action = ascii "volume"
  · obtain ⟨hSent, hLog⟩ := hFail (w.after (miplaySetVolume (controlVolume value))) hHeap
    refine ⟨[.nvsSave (min (controlVolume value) 100)], ?_, by simp [Op.Callback]⟩
    simp only [World.after] at hSent hLog ⊢
    simp only [emitReceiverControl, if_pos hVolume, run_bind, hSent, Bool.false_and,
      Bool.false_eq_true, if_false, run_pure]
    rw [hLog]
    simp [miplaySetVolume]
  · obtain ⟨hSent, hLog⟩ := hFail w hHeap
    refine ⟨[], ?_, by simp⟩
    simp only [World.after] at hSent hLog ⊢
    simp only [emitReceiverControl, if_neg hVolume, run_bind, hSent, Bool.false_and,
      Bool.false_eq_true, if_false, run_pure, List.append_nil]
    exact hLog

theorem controlPauseGate_run (action : Bytes) :
    ∃ paused, (controlPauseGate action).run w = ((), { w with mediaPaused := paused }) := by
  unfold controlPauseGate
  split
  · exact ⟨true, rfl⟩
  · split
    · exact ⟨false, rfl⟩
    · exact ⟨w.mediaPaused, rfl⟩

/-- On a session that is not open the action is dropped. -/
theorem receiverControlOn_dropped {j : Slot} (hBad : ¬(Opened w j ∧ 0 ≤ (w.sess j).sock)) :
    (w.after (receiverControlOn env j action value)).log = w.log := by
  have hGuard : (w.sess j).sock < 0 ∨ !(w.sess j).inUse ∨ !(w.sess j).regs.mediaSessionOpened ∨
      !(w.sess j).regs.hasSessionKey := by
    simp only [Opened] at hBad
    simp only [Bool.not_eq_true']
    grind
  simp only [World.after, receiverControlOn, run_bind, run_miplaySessionLoad, run_get, if_pos hGuard,
    run_pure]

/-- On an open session it goes the way of `emitReceiverControl`. -/
theorem receiverControlOn_log {j : Slot} (hOpened : Opened w j) (hSock : 0 ≤ (w.sess j).sock)
    (hBody : receiverControlBody action value = some body) :
    (w.after (receiverControlOn env j action value)).log =
      (World.after { w with regs := (w.sess j).regs }
        (emitReceiverControl env (w.sess j).sock action value body)).log := by
  have hGuard : ¬((w.sess j).sock < 0 ∨ !(w.sess j).inUse ∨
      !(w.sess j).regs.mediaSessionOpened ∨ !(w.sess j).regs.hasSessionKey) := by
    simp only [Opened] at hOpened
    simp only [Bool.not_eq_true']
    grind
  simp only [World.after, receiverControlOn, run_bind, run_miplaySessionLoad, run_get,
    if_neg hGuard, hBody, run_miplaySessionSave]

variable (env value) in
/-- The choice does not look at the pause gate. -/
theorem after_receiverControl {paused : Bool}
    (hGate : (controlPauseGate action).run w = ((), { w with mediaPaused := paused })) :
    w.after (miplaySendReceiverControl env action value) =
      match miplaySessionActive w with
      | none => { w with mediaPaused := paused }
      | some j => World.after { w with mediaPaused := paused } (receiverControlOn env j action value) := by
  have hSame : miplaySessionActive { w with mediaPaused := paused } = miplaySessionActive w := rfl
  have hAfter : w.after (controlPauseGate action) = { w with mediaPaused := paused } := by
    rw [World.after, hGate]
  rw [after_sendReceiverControl, hAfter]
  simp only [World.after, run_bind, run_get, hSame]
  cases miplaySessionActive w <;> rfl

/-- **One call.** A valid action is sent on an open session exactly when the first of
the best-scored candidates is one. -/
theorem receiverControl_sent_iff (hBody : receiverControlBody action value = some body) :
    (∃ j, Opened w j ∧
      SentOn env w (w.after (miplaySendReceiverControl env action value)) j body) ↔
        RoutesToOpened env w := by
  obtain ⟨paused, hGate⟩ := controlPauseGate_run w action
  have hRun := after_receiverControl env w value hGate
  have hSilent (hLog : (w.after (miplaySendReceiverControl env action value)).log = w.log) :
      ¬∃ j, Opened w j ∧
        SentOn env w (w.after (miplaySendReceiverControl env action value)) j body := by
    rintro ⟨j, -, ops, hOps, hUsed, -⟩
    rw [hLog, List.self_eq_append_right] at hOps
    simp [hOps] at hUsed
  rw [RoutesToOpened]
  simp only [← miplaySessionActive_eq_some_iff]
  cases hActive : miplaySessionActive w with
  | none =>
    rw [hActive] at hRun
    exact iff_of_false (hSilent (by rw [hRun])) (by simp)
  | some j =>
    rw [hActive] at hRun
    by_cases hGood : Opened w j ∧ 0 ≤ (w.sess j).sock
    · have hLog : (w.after (miplaySendReceiverControl env action value)).log =
          (World.after { w with mediaPaused := paused, regs := (w.sess j).regs }
            (emitReceiverControl env (w.sess j).sock action value body)).log := by
        rw [hRun]
        exact receiverControlOn_log { w with mediaPaused := paused } hGood.1 hGood.2 hBody
      cases hHeap : env.heap w.tick with
      | false =>
        have hQuiet : ∃ ops, (w.after (miplaySendReceiverControl env action value)).log =
            w.log ++ ops ∧ ∀ op ∈ ops, op.Callback := by
          rw [hLog]
          exact emitReceiverControl_noHeap { w with mediaPaused := paused, regs := (w.sess j).regs }
            (w.sess j).sock hHeap
        obtain ⟨ops, hOps, hQuiet⟩ := hQuiet
        refine iff_of_false ?_ (by simp)
        rintro ⟨k, -, ops', hOps', hUsed, -⟩
        rw [hOps, List.append_cancel_left_eq] at hOps'
        exact hQuiet _ (hOps' ▸ hUsed)
      | true =>
        refine iff_of_true ⟨j, hGood.1, ?_⟩ ⟨rfl, j, rfl, hGood⟩
        rw [SentOn, hLog]
        exact emitReceiverControl_sends { w with mediaPaused := paused, regs := (w.sess j).regs }
          (w.sess j).sock (length_receiverControlBody hBody) hHeap
    · refine iff_of_false (hSilent ?_) ?_
      · rw [hRun]
        exact receiverControlOn_dropped { w with mediaPaused := paused } hGood
      · rintro ⟨-, k, hk, hGood'⟩
        obtain rfl : j = k := by simpa using hk
        exact hGood hGood'

end Call

/-! ## Runs -/

/-- **Routing.** Along every run, a valid action is sent on an open session whenever
there is one, exactly when at each such call the first of the best-scored
candidates is open. -/
theorem control_along (env : Env) (volume : Nat) (as : List Action) :
    Along (step env) (ControlReaches env) (World.initial volume) as ↔
      Along (step env)
        (fun w a _ => ∀ action value body, a = .control action value →
          receiverControlBody action value = some body → (∃ i, Opened w i) → RoutesToOpened env w)
        (World.initial volume) as := by
  refine along_iff_of_invariant (I := fun _ => True) (fun w a w' _ hStep => ?_)
    (fun _ _ _ _ _ _ => trivial) trivial
  rw [ControlReaches]
  refine forall_congr' fun action => forall_congr' fun value => forall_congr' fun body =>
    forall_congr' fun hAct => forall_congr' fun hBody => forall_congr' fun _ => ?_
  subst hAct
  cases step_cases hStep with
  | control hMux => exact receiverControl_sent_iff w hBody

/-- A phone plays over its first connection; a second one of the same phone asks for
the media information and registers a play source. -/
def companionRun : List Action :=
  connectRun 54 ++ frameRun (frameOf 0 0 (containerOf (ascii "wfd://10.0.0.2:8554"))) ++
    [.accept 55 1 2, .alloc, .spawn, .enter 1, .greet 1 0 0, .recv 1 (frameOf 0 0x14 []), .frame 1,
      .recv 1 (frameOf 0 0x40 []), .frame 1]

/-- Its pause button is dropped. -/
theorem control_dropped :
    ¬∀ env volume as, Along (step env) (ControlReaches env) (World.initial volume) as := by
  intro hAll
  have hBefore : (run (step (Env.smooth plainCrypto)) (World.initial 50) companionRun).map
      (fun w => ((step (Env.smooth plainCrypto) w (.control (ascii "pause") 0)).map
        (fun w' => (w'.log.length - w.log.length, decide (Opened w 0))))) = some (some (0, true)) := by
    decide +kernel
  obtain ⟨w, hRun, hStep⟩ := Option.map_eq_some_iff.mp hBefore
  obtain ⟨w', hStep, hSame⟩ := Option.map_eq_some_iff.mp hStep
  rw [Prod.mk.injEq, decide_eq_true_iff] at hSame
  have hReach := (hAll (Env.smooth plainCrypto) 50 (companionRun ++ [.control (ascii "pause") 0])).last
    hRun hStep (ascii "pause") 0 _ rfl rfl ⟨0, hSame.2⟩
  obtain ⟨j, -, ops, hOps, hUsed, -⟩ := hReach
  rw [hOps, List.length_append, Nat.add_sub_cancel_left, List.length_eq_zero_iff] at hSame
  simp [hSame.1] at hUsed

end EspMiplay.Miplay
