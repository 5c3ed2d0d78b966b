import EspMiplay.Miplay.Registers

/-!
# Isolation of the control sessions

Do the registers that `miplay_session_load` and `miplay_session_save` swap in and
out act like registers of each session's own?

- `sessions_isolated`: with allocations and sends succeeding, the log of every
  run is one of independent sessions (`Channels.replay`), and every received
  container is decrypted, as long as no number is handed out that a running
  task carries as its socket.
- `sessions_not_isolated`: without that, they do not. A wrong HMAC closes the
  socket, but the loop goes on with the frames already received; once the
  number stands for another phone's connection, that phone gets the answers.
-/

namespace EspMiplay.Miplay

open Effect Transition

/-- `Kept`, with `cur` holding the mutex. -/
structure KeptAt (aes : Aes) (cur : Option Slot) (w : World) : Prop where
  mux : w.sessionMux = cur
  kept : ∃ m, Kept aes cur w m

namespace KeptAt

variable {aes : Aes} {cur : Option Slot} {w w' : World}

theorem self (h : KeptAt aes cur w) : KeptAt aes w.sessionMux w := by
  rw [h.mux]
  exact h

theorem of_eq (h : KeptAt aes cur w) (hLog : w'.log = w.log) (hSess : w'.sess = w.sess)
    (hKernel : w'.kernel = w.kernel) (hCtl : w'.ctl = w.ctl) (hRegs : w'.regs = w.regs)
    (hMux : w'.sessionMux = w.sessionMux) : KeptAt aes cur w' := by
  obtain ⟨m, hm⟩ := h.kept
  exact ⟨hMux.trans h.mux, m, hm.of_eq hLog hSess hKernel hCtl hRegs⟩

/-- Outside a critical section nothing depends on what the registers hold. -/
theorem idle (h : KeptAt aes none w) (regs : Regs) : KeptAt aes none { w with regs := regs } := by
  obtain ⟨m, hm⟩ := h.kept
  exact ⟨h.mux, m, hm.congr hm.replay (fun _ => rfl) (fun _ => rfl) rfl rfl fun _ => .refl _⟩

theorem note (h : KeptAt aes cur w) {op : Op} (hOp : ∀ m : Channels, m.observe aes op = some m) :
    KeptAt aes cur { w with log := w.log ++ [op] } := by
  obtain ⟨m, hm⟩ := h.kept
  exact ⟨h.mux, m, hm.note (hOp m)⟩

theorem notes (h : KeptAt aes cur w) {ops : List Op}
    (hOps : ∀ op ∈ ops, ∀ m : Channels, m.observe aes op = some m) :
    KeptAt aes cur { w with log := w.log ++ ops } := by
  induction ops generalizing w with
  | nil =>
    rw [List.append_nil]
    exact h
  | cons op ops ih =>
    have hRest := ih (h.note (hOps op (List.mem_cons_self ..))) fun op' hOp' =>
      hOps op' (List.mem_cons_of_mem _ hOp')
    rw [List.append_cons]
    exact hRest

theorem close (h : KeptAt aes cur w) (who : Owner) (fd : Int) :
    KeptAt aes cur ((closeFd who fd).run w).2 := by
  have hNoted : KeptAt aes cur { w with log := w.log ++ [.closed who fd (w.kernel.fds fd)] } :=
    h.note fun _ => rfl
  obtain ⟨m, hm⟩ := hNoted.kept
  exact ⟨h.mux, m, hm.close fd⟩

theorem opened (h : KeptAt aes cur w) (who : Owner) {fd : Int} (hFree : w.kernel.fds fd = none)
    (hFresh : ∀ i, Greeted w i → (w.sess i).sock ≠ fd) :
    KeptAt aes cur ((openFd who fd).run w).2 := by
  have hNoted : KeptAt aes cur { w with log := w.log ++ [.opened who fd w.kernel.nextConn] } :=
    h.note fun _ => rfl
  obtain ⟨m, hm⟩ := hNoted.kept
  exact ⟨h.mux, m, hm.opened hFree hFresh⟩

theorem callback (h : KeptAt aes cur w) {op : Op} (hOp : op.Callback) :
    KeptAt aes cur { w with log := w.log ++ [op] } :=
  h.note fun _ => by cases op <;> first | rfl | cases hOp

/-- The tasks of the media side leave the registers of every session alone, but for
the opened flag. -/
theorem taskRules (env : Env) (who : Owner) :
    TaskRules env who
      (fun w fd => w.kernel.fds fd = none ∧ ∀ i, Greeted w i → (w.sess i).sock ≠ fd)
      (Keep (KeptAt aes cur)) where
  tick _ _ h := h.of_eq rfl rfl rfl rfl rfl rfl
  shared _ _ _ _ _ _ _ _ h := h.of_eq rfl rfl rfl rfl rfl rfl
  stopped _ h := h.of_eq rfl rfl rfl rfl rfl rfl
  opened _ _ hFree h := h.opened who hFree.1 hFree.2
  closed fd _ h := h.close who fd
  used _ _ h := h.note fun _ => rfl
  imageTask _ _ _ h := h.of_eq rfl rfl rfl rfl rfl rfl
  mediaTask _ _ _ h := h.of_eq rfl rfl rfl rfl rfl rfl
  newTask _ h := h.of_eq rfl rfl rfl rfl rfl rfl
  media _ _ h := h.of_eq rfl rfl rfl rfl rfl rfl
  mediaCb _ _ h := h.note fun _ => rfl
  startCb _ _ h := h.note fun _ => rfl
  markClosed sock generation := by
    refine markClosed_does generation (fun w i h => ?_) fun w h => ?_
    · obtain ⟨m, hm⟩ := h.kept
      refine ⟨h.mux, m, hm.congr hm.replay (fun j => ?_) (fun j => ?_) rfl rfl fun j => ?_⟩
      all_goals by_cases hj : j = i
      · subst hj
        simp
      · simp [hj]
      · subst hj
        simp
      · simp [hj]
      · subst hj
        simp only [regsOf, Function.update_self]
        split <;> exact ⟨rfl, rfl, rfl, rfl, rfl⟩
      · simp only [regsOf, Function.update_of_ne hj]
        exact .refl _
    · obtain ⟨m, hm⟩ := h.kept
      refine ⟨h.mux, m, hm.congr hm.replay (fun _ => rfl) (fun _ => rfl) rfl rfl fun j => ?_⟩
      simp only [regsOf]
      split <;> exact ⟨rfl, rfl, rfl, rfl, rfl⟩

/-- A greeted control task goes on. -/
theorem goOn {i : Slot} {pc : CtlPc} (h : KeptAt aes cur w) (hpc : AfterGreeting (some pc))
    (hGreeted : Greeted w i) : KeptAt aes cur { w with ctl := Function.update w.ctl i (some pc) } := by
  obtain ⟨m, hm⟩ := h.kept
  exact ⟨h.mux, m, hm.setCtl (iff_of_true hpc hGreeted) hpc.2.2.1⟩

/-- A slot without a key is taken, entered, cleaned or given back. -/
theorem clear {i : Slot} {s : Session} {pc : Option CtlPc} (h : KeptAt aes none w)
    (hClosed : Greeted w i → w.kernel.fds (w.sess i).sock = none) (hGreeted : ¬AfterGreeting pc)
    (hUse : s.inUse → s.regs.hasSessionKey = false ∧ s.regs.notifySeq = 8)
    (hEntered : pc = some .entered → s.inUse) :
    KeptAt aes none
      { w with sess := Function.update w.sess i s, ctl := Function.update w.ctl i pc } := by
  obtain ⟨m, hm⟩ := h.kept
  exact ⟨h.mux, m, hm.clear hClosed hGreeted hUse hEntered⟩

end KeptAt

/-! ## Critical sections -/

theorem inline_of_update {ctl : Slot → Option CtlPc} {i j : Slot} {pc : Option CtlPc} {r : RtspRun}
    (hpc : ∀ r, pc ≠ some (.inline r)) (hj : Function.update ctl i pc j = some (.inline r)) :
    ctl j = some (.inline r) := by
  by_cases hji : j = i
  · subst hji
    exact absurd (by simpa using hj) (hpc r)
  · simpa [hji] using hj

/-- What a critical section of slot `i` leaves, once the registers are saved. -/
theorem InSession.save {aes : Aes} {i : Slot} {sock : Int} {w : World} (h : InSession aes i sock w) :
    KeptAt aes none ((miplaySessionSave i).run w).2 := by
  obtain ⟨m, hm⟩ := h.kept
  exact ⟨h.mux, m, hm.save h.inUse⟩

/-- A critical section begins. -/
theorem KeptAt.enter {aes : Aes} {i : Slot} {w : World} (h : KeptAt aes none w)
    (hUse : (w.sess i).inUse) (hKey : (w.sess i).regs.hasSessionKey) :
    InSession aes i (w.sess i).sock { w with regs := (w.sess i).regs } := by
  obtain ⟨m, hm⟩ := h.kept
  exact ⟨⟨m, hm.load i⟩, hUse, rfl, hKey, h.mux⟩

/-- The listener takes a slot, or rejects the connection. -/
theorem KeptAt.alloc {aes : Aes} {w : World} {sock : Int} {peerIp : UInt32} {peerPort : UInt16}
    (h : KeptAt aes none w) (hRoster : Roster w) :
    KeptAt aes none (w.after (tcpAlloc sock peerIp peerPort)) := by
  obtain ⟨i, hFree, hAfter⟩ | ⟨-, hAfter⟩ := tcpAlloc_cases w sock peerIp peerPort
  · have hIdle : w.ctl i = none := by
      by_contra hCtl
      simp [hRoster.serving i hCtl] at hFree
    have hClear : KeptAt aes none
        { w with
          sess := Function.update w.sess i (newSession sock peerIp peerPort)
          ctl := Function.update w.ctl i none } :=
      h.clear (fun hi => absurd hIdle hi.1) (by simp [AfterGreeting]) (fun _ => ⟨rfl, rfl⟩) (by simp)
    rw [hAfter]
    exact hClear.of_eq rfl rfl rfl (Function.update_eq_self_iff.mpr hIdle.symm).symm rfl rfl
  · rw [hAfter]
    exact h.of_eq rfl rfl rfl rfl rfl rfl

/-- A slot without a greeted task is given back. -/
theorem KeptAt.release {aes : Aes} {w : World} {i : Slot} {pc : Option CtlPc}
    (h : KeptAt aes none w) (hGreeted : ¬Greeted w i) (hpc : pc = none) :
    KeptAt aes none
      { w with
        sess := Function.update w.sess i { w.sess i with inUse := false }
        ctl := Function.update w.ctl i pc } := by
  subst hpc
  exact h.clear (fun hi => absurd hi hGreeted) (by simp [AfterGreeting]) (by simp) (by simp)

section Ideal

variable {env : Env} (hHeap : ∀ n, env.heap n = true) (hSend : ∀ n, env.send n = true)
variable {w : World}

include hHeap hSend

/-- A button: the session it is routed to, if it may be told, is told under its own
registers. -/
theorem KeptAt.control (h : KeptAt env.aes none w) (action : Bytes) (value : Int) :
    KeptAt env.aes none (w.after (miplaySendReceiverControl env action value)) := by
  have hGate : KeptAt env.aes none (w.after (controlPauseGate action)) := by
    unfold World.after controlPauseGate
    split
    · exact h.of_eq rfl rfl rfl rfl rfl rfl
    · split
      · exact h.of_eq rfl rfl rfl rfl rfl rfl
      · exact h
  rw [after_sendReceiverControl]
  generalize w.after (controlPauseGate action) = w₁ at hGate ⊢
  simp only [World.after, run_bind, run_get]
  split
  · exact hGate
  · rename_i i _
    simp only [receiverControlOn, run_bind, run_miplaySessionLoad, run_get, run_ite]
    split
    · exact hGate.idle _
    · rename_i hGuard
      split
      · exact hGate.idle _
      · rename_i body hBody
        simp only [not_or, Bool.not_eq_true', Bool.not_eq_false] at hGuard
        have hIn := hGate.enter hGuard.2.1 hGuard.2.2.2
        exact (emitReceiverControl_does (InSession.frameRules hHeap hSend).toSwitchRules hBody _ hIn).save

theorem KeptAt.query (h : KeptAt env.aes none w) (sock : Int) :
    KeptAt env.aes none (w.after (miplaySendMediaInfoQuery env sock)) := by
  simp only [World.after, miplaySendMediaInfoQuery, run_bind, run_get]
  split
  · exact h
  · rename_i i hFind
    obtain ⟨hUse, rfl⟩ : (w.sess i).inUse ∧ (w.sess i).sock = sock := by
      simpa using List.find?_some hFind
    simp only [run_bind, run_miplaySessionLoad, run_get, run_ite]
    split
    · rename_i hGuard
      have hIn := h.enter hUse hGuard.2.2
      exact (hIn.sendAutoSeq hHeap hSend _ (Nat.zero_le _)).save
    · -- nothing is sent, and the slot gets back what was loaded
      obtain ⟨m, hm⟩ := h.kept
      exact ⟨h.mux, m, (hm.load i).save hUse⟩

/-- The frame of a greeted session; the mutex is given back, or kept by the inline run. -/
theorem KeptAt.serveFrame {i : Slot} {hd : Handler} {frame : Bytes} {n : Nat}
    (h : KeptAt env.aes none w) (hCtl : w.ctl i = some (.serving hd)) (hUse : (w.sess i).inUse)
    (hNone : ∀ j r, w.ctl j ≠ some (.inline r)) :
    KeptAt env.aes (w.after (serveFrame env i hd frame n)).sessionMux
        (w.after (serveFrame env i hd frame n)) ∧
      ∀ j r, (w.after (serveFrame env i hd frame n)).ctl j = some (.inline r) →
        (w.after (serveFrame env i hd frame n)).sessionMux = some j := by
  have hGreeted : Greeted w i := by
    rw [Greeted, hCtl]
    exact afterGreeting_serving hd
  obtain ⟨m, hm⟩ := h.kept
  have hIn := h.enter hUse ((hm.keyed i hUse).mpr hGreeted)
  have hBody := InSession.frameBody hHeap hSend hd frame _ hIn
  have hSame := frameBody_sameTable env i (w.sess i).sock hd frame { w with regs := (w.sess i).regs }
  simp only [World.after, Miplay.serveFrame, handleFrame, run_bind, run_get, run_miplaySessionLoad]
  rcases hRun : (frameBody env i (w.sess i).sock hd frame).run
    { w with regs := (w.sess i).regs } with ⟨_ | r, w₁⟩
  all_goals
    rw [hRun] at hBody hSame
    have hCtl₁ : w₁.ctl = w.ctl := hSame.ctl
    have hGreeted₁ : Greeted w₁ i := by
      rw [Greeted, hCtl₁]
      exact hGreeted
  · simp only [run_bind, run_miplaySessionSave, run_pure, run_setCtl]
    have hSaved := hBody.save
    refine ⟨(hSaved.goOn (afterGreeting_serving _) hGreeted₁).self, fun j r hj => ?_⟩
    exact absurd (inline_of_update (by simp) (hCtl₁ ▸ hj)) (hNone j r)
  · simp only [run_bind, run_pure, run_modify, run_setCtl]
    obtain ⟨m', hm'⟩ := hBody.kept
    have hHeld : KeptAt env.aes (some i) { w₁ with sessionMux := some i } :=
      ⟨rfl, m', hm'.of_eq rfl rfl rfl rfl rfl⟩
    refine ⟨hHeld.goOn (afterGreeting_inline r) hGreeted₁, fun j r' hj => ?_⟩
    by_cases hji : j = i
    · rw [hji]
    · rw [hCtl₁] at hj
      exact absurd (by simpa [hji] using hj) (hNone j r')

omit hHeap in
/-- A connection is greeted, and its channel starts. -/
theorem KeptAt.greet {i : Slot} {localIp : UInt32} {localPort : UInt16} {hd : Handler}
    (h : KeptAt env.aes none w) (hCtl : w.ctl i = some .entered) (hUse : (w.sess i).inUse)
    (hApart : ∀ j, Greeted w j → (w.sess j).sock ≠ (w.sess i).sock) :
    KeptAt env.aes none (w.after do
      greetSession env i localIp localPort
      Miplay.setCtl i (some (.serving hd))) := by
  obtain ⟨regs, seq, payload, hKey, hSeq, hAes, hEnc, hDec, hAfter⟩ :=
    greetSession_run hSend w i localIp localPort
  have hKeyed : KeptAt env.aes none
      { w with
        log := w.log ++
          [.keyed i (w.sess i).sock (w.kernel.fds (w.sess i).sock) regs.saved.authKey]
        sess := Function.update w.sess i { w.sess i with regs := regs.saved }
        ctl := Function.update w.ctl i (some (.serving hd)) } := by
    obtain ⟨m, hm⟩ := h.kept
    have h8 : 8 ≤ (w.sess i).regs.notifySeq := (hm.numbers i hUse).1
    have hSaved : regs.saved.notifySeq = (w.sess i).regs.notifySeq := by
      simp [Regs.saved, hSeq, h8]
    exact ⟨h.mux, _, hm.greet hCtl hApart (afterGreeting_serving hd) hKey hSaved hAes hEnc hDec⟩
  simp only [World.after, run_bind] at hAfter ⊢
  rw [hAfter, run_setCtl]
  refine ((hKeyed.notes ?_).idle regs).of_eq (List.append_assoc _ _ _) rfl rfl rfl rfl rfl
  intro op hOp m
  split at hOp <;> simp only [List.mem_append, List.mem_singleton, List.append_nil] at hOp
  · rcases hOp with rfl | rfl <;> rfl
  · subst hOp
    rfl

omit hHeap hSend in
theorem KeptAt.cleanup {i : Slot} (h : KeptAt env.aes none w) :
    KeptAt env.aes none (w.after do
      let notify ← disconnectCleanup i
      Miplay.setCtl i (some (.cleaned notify))) := by
  obtain ⟨notify, regs, active, peer, connected, paused, hRun⟩ := disconnectCleanup_run w i
  have hClosed := h.close (.ctl i) (w.sess i).sock
  have hClear : KeptAt env.aes none
      { ((closeFd (.ctl i) (w.sess i).sock).run w).2 with
        sess := Function.update w.sess i
          { w.sess i with regs := { Regs.cleared with notifySeq := 8 } }
        ctl := Function.update w.ctl i (some (.cleaned notify)) } :=
    hClosed.clear (fun _ => Function.update_self ..) (by simp [AfterGreeting])
      (fun _ => ⟨rfl, rfl⟩) (by simp)
  simp only [World.after, run_bind, hRun, run_setCtl]
  exact (hClear.idle regs).of_eq rfl rfl rfl rfl rfl rfl

end Ideal

/-! ## The invariant -/

structure Isolated (aes : Aes) (w : World) : Prop where
  roster : Roster w
  kept : KeptAt aes w.sessionMux w
  holder : ∀ i r, w.ctl i = some (.inline r) → w.sessionMux = some i

namespace Isolated

variable {env : Env} {w w' : World}

/-- The tasks of the media side, and whatever else keeps the table. -/
theorem of_task {cur : Option Slot} (h : Isolated env.aes w) (hMux : w.sessionMux = cur)
    (hSame : SameTable w w') (hKept : KeptAt env.aes cur w') : Isolated env.aes w' where
  roster := h.roster.of_sameTable hSame
  kept := hKept.self
  holder i r hi := by
    rw [hKept.mux, ← hMux]
    exact h.holder i r (hSame.ctl ▸ hi)

/-- The mutex is as it was, and no inline run begins. -/
theorem next {cur : Option Slot} (h : Isolated env.aes w) (hMux : w.sessionMux = cur)
    (hRoster : Roster w') (hKept : KeptAt env.aes cur w')
    (hInline : ∀ i r, w'.ctl i = some (.inline r) → ∃ r', w.ctl i = some (.inline r')) :
    Isolated env.aes w' where
  roster := hRoster
  kept := hKept.self
  holder i r hi := by
    obtain ⟨r', hOld⟩ := hInline i r hi
    rw [hKept.mux, ← hMux]
    exact h.holder i r' hOld

theorem free (h : Isolated env.aes w) (hMux : w.sessionMux = none) : KeptAt env.aes none w := by
  rw [← hMux]
  exact h.kept

/-- Where no inline run holds the mutex, there is none. -/
theorem no_inline (h : Isolated env.aes w) (hMux : w.sessionMux = none) (i : Slot) (r : RtspRun) :
    w.ctl i ≠ some (.inline r) :=
  fun hi => by simp [h.holder i r hi] at hMux

/-- A slot that is not greeted has no key. -/
theorem no_key {i : Slot} (h : Isolated env.aes w) (hMux : w.sessionMux = none)
    (hCtl : w.ctl i ≠ none) (hGreeted : ¬Greeted w i) : (w.sess i).regs.hasSessionKey = false := by
  obtain ⟨m, hm⟩ := (h.free hMux).kept
  have hKeyed := hm.keyed i (h.roster.serving i hCtl)
  simpa [regsOf, hGreeted] using hKeyed

theorem initial (aes : Aes) (volume : Nat) : Isolated aes (World.initial volume) := by
  refine ⟨Roster.initial volume, ⟨rfl, fun _ => none, rfl, ?_, ?_, ?_, ?_, ?_, ?_, ?_, ?_⟩, ?_⟩
  all_goals simp [World.initial, Session.zero]

section Ideal

variable (hHeap : ∀ n, env.heap n = true) (hSend : ∀ n, env.send n = true)

include hHeap hSend

/-- **Step lemma.** -/
theorem step {a : Action} (h : Isolated env.aes w) (hStep : Step env w a w')
    (hFresh : LeavesRunningSockets w a) : Isolated env.aes w' := by
  have hRoster := h.roster.step hStep hFresh
  -- no number that is handed out is a greeted session's
  have hApart (fd : Int) (hOut : a.handsOut = some fd) (i : Slot) (hi : Greeted w i) :
      (w.sess i).sock ≠ fd := hFresh fd hOut i hi.running
  have hGreeted {i : Slot} {pc : CtlPc} (hCtl : w.ctl i = some pc)
      (hpc : AfterGreeting (some pc)) : Greeted w i := by
    rw [Greeted, hCtl]
    exact hpc
  cases hStep with
  | accept hTcp hPos hFree =>
    refine h.next rfl hRoster ?_ fun i r hi => ⟨r, hi⟩
    exact (h.kept.opened .tcp hFree (hApart _ rfl)).of_eq rfl rfl rfl rfl rfl rfl
  | alloc hTcp hMux =>
    refine h.next hMux hRoster ((h.free hMux).alloc h.roster) fun i r hi => ⟨r, ?_⟩
    rw [tcpAlloc_ctl] at hi
    exact hi
  | reject hTcp =>
    refine h.next rfl hRoster ?_ fun i r hi => ⟨r, hi⟩
    exact (h.kept.close _ _).of_eq rfl rfl rfl rfl rfl rfl
  | @spawn i hTcp =>
    have hIdle := (h.roster.starting i (.inl hTcp)).2
    obtain ⟨-, hAfter⟩ | ⟨hFail, -⟩ := tcpSpawn_cases env w i
    · rw [hAfter] at hRoster ⊢
      refine h.next rfl hRoster ?_ fun j r hj => ⟨r, inline_of_update (by simp) hj⟩
      obtain ⟨m, hm⟩ := h.kept.kept
      have hIff : AfterGreeting (some .created) ↔ Greeted w i := by
        simp [Greeted, hIdle, AfterGreeting]
      exact ⟨rfl, m, (hm.setCtl hIff (by simp)).of_eq rfl rfl rfl rfl rfl⟩
    · rw [hHeap] at hFail
      cases hFail
  | @tcpRelease i hTcp hMux =>
    have hStart := h.roster.starting i (.inr hTcp)
    have hNot : ¬Greeted w i := fun hi => hi.1 hStart.2
    simp only [World.after, run_bind, miplaySessionRelease_run hStart.1] at hRoster ⊢
    refine h.next hMux hRoster ?_ fun j r hj => ⟨r, hj⟩
    exact ((h.free hMux).release hNot rfl).of_eq rfl rfl rfl
      (Function.update_eq_self_iff.mpr hStart.2.symm).symm rfl rfl
  | @enter i hCtl hMux =>
    have hNot : ¬Greeted w i := by simp [Greeted, hCtl, AfterGreeting]
    obtain ⟨regs, active, peer, hSeq, hKey, hAfter⟩ := enterClient_run w i
    have hNoKey := hKey.trans (h.no_key hMux (by simp [hCtl]) hNot)
    simp only [World.after, run_bind] at hAfter hRoster ⊢
    rw [hAfter] at hRoster ⊢
    refine h.next hMux hRoster ?_ fun j r hj => ⟨r, inline_of_update (by simp) hj⟩
    have hClear : KeptAt env.aes none
        { w with
          sess := Function.update w.sess i { w.sess i with regs := regs }
          ctl := Function.update w.ctl i (some .entered) } :=
      (h.free hMux).clear (fun hi => absurd hi hNot) (by simp [AfterGreeting])
        (fun _ => ⟨hNoKey, hSeq⟩) fun _ => h.roster.serving i (by simp [hCtl])
    exact (hClear.idle regs).of_eq rfl rfl rfl rfl rfl rfl
  | @greet i localIp localPort hCtl hMux =>
    have hRun : Running w i := by simp [Running, hCtl]
    have hOther (j : Slot) (hj : Greeted w j) : (w.sess j).sock ≠ (w.sess i).sock := by
      intro hSock
      obtain rfl := h.roster.apart j i hj.running hRun hSock
      simp [Greeted, hCtl, AfterGreeting] at hj
    have hTick : KeptAt env.aes none { w with tick := w.tick + 1 + 1 } :=
      (h.free hMux).of_eq rfl rfl rfl rfl rfl rfl
    rw [greetClient_run hHeap] at hRoster ⊢
    have hUse := h.roster.serving i (by simp [hCtl])
    refine h.next hMux hRoster (hTick.greet hSend hCtl hUse hOther) fun j r hj => ⟨r, ?_⟩
    have hSame := greetSession_sameTable env i localIp localPort { w with tick := w.tick + 1 + 1 }
    simp only [World.after, run_bind, run_setCtl, hSame.ctl] at hj
    exact inline_of_update (by simp) hj
  | recv hCtl hRun hMove hChunk hSpace =>
    refine h.next rfl hRoster ?_ fun j r hj => ⟨r, inline_of_update (by simp) hj⟩
    exact (h.kept.note fun _ => rfl).goOn (afterGreeting_serving _)
      (hGreeted hCtl (afterGreeting_serving _))
  | full hCtl hRun hMove hFull =>
    refine h.next rfl hRoster ?_ fun j r hj => ⟨r, inline_of_update (by simp) hj⟩
    exact h.kept.goOn (afterGreeting_serving _) (hGreeted hCtl (afterGreeting_serving _))
  | skip hCtl hMove =>
    refine h.next rfl hRoster ?_ fun j r hj => ⟨r, inline_of_update (by simp) hj⟩
    exact h.kept.goOn (afterGreeting_serving _) (hGreeted hCtl (afterGreeting_serving _))
  | @frame i hd fr n hCtl hMove hMux =>
    obtain ⟨hServed, hHolder⟩ := (h.free hMux).serveFrame hHeap hSend hCtl
      (h.roster.serving i (by simp [hCtl])) (h.no_inline hMux)
    exact ⟨hRoster, hServed, hHolder⟩
  | hangup hCtl hRun hMove =>
    refine h.next rfl hRoster ?_ fun j r hj => ⟨r, inline_of_update (by simp) hj⟩
    exact (h.kept.note fun _ => rfl).goOn afterGreeting_leaving
      (hGreeted hCtl (afterGreeting_serving _))
  | quit hCtl hRun hMove =>
    refine h.next rfl hRoster ?_ fun j r hj => ⟨r, inline_of_update (by simp) hj⟩
    exact h.kept.goOn afterGreeting_leaving (hGreeted hCtl (afterGreeting_serving _))
  | @cleanup i hCtl hMux =>
    refine h.next hMux hRoster (h.free hMux).cleanup fun j r hj => ⟨r, ?_⟩
    have hSame := disconnectCleanup_sameTable i w
    simp only [World.after, run_bind, run_setCtl, hSame.ctl] at hj
    exact inline_of_update (by simp) hj
  | @notify i hCtl =>
    have hNot : ¬Greeted w i := by simp [Greeted, hCtl, AfterGreeting]
    have hNoted : KeptAt env.aes w.sessionMux { w with log := w.log ++ [.connectedCb false] } :=
      h.kept.note fun _ => rfl
    obtain ⟨m, hm⟩ := hNoted.kept
    have hStays : AfterGreeting (some (.cleaned false)) ↔ Greeted w i :=
      iff_of_false (by simp [AfterGreeting]) hNot
    refine h.next rfl hRoster ⟨hNoted.mux, m, hm.setCtl hStays (by simp)⟩ fun j r hj =>
      ⟨r, inline_of_update (by simp) hj⟩
  | @release i hCtl hMux =>
    have hUse := h.roster.serving i (by simp [hCtl])
    have hNot : ¬Greeted w i := by simp [Greeted, hCtl, AfterGreeting]
    simp only [World.after, run_bind, miplaySessionRelease_run hUse, run_setCtl] at hRoster ⊢
    refine h.next hMux hRoster ?_ fun j r hj => ⟨r, inline_of_update (by simp) hj⟩
    exact ((h.free hMux).release hNot rfl).of_eq rfl rfl rfl rfl rfl rfl
  | @inlineDone i r o hCtl hPc =>
    have hClosed := h.kept.close (.ctl i) (w.sess i).sock
    rw [h.holder i r hCtl] at hClosed
    obtain ⟨m, hm⟩ := hClosed.kept
    have hSaved := hm.save (h.roster.serving i (by simp [hCtl]))
    refine ⟨hRoster, ?_, fun j r' hj => ?_⟩
    · have hFreed : KeptAt env.aes none (w.after (inlineReturn i)) :=
        ⟨rfl, m, hSaved.of_eq rfl rfl rfl rfl rfl⟩
      exact (hFreed.goOn afterGreeting_leaving (hGreeted hCtl (afterGreeting_inline r))).self
    · -- the run that held the mutex was the only one
      have hOld := inline_of_update (by simp) hj
      obtain rfl : i = j := by simpa [h.holder i r hCtl] using h.holder j r' hOld
      simp [World.after] at hj
  | @inline i r o hCtl hPc hMark hFits =>
    have hSame := (sameTable_task env (.ctl i)).rtspRunStep r hFits fun _ _ _ => trivial
    have hKept := (KeptAt.taskRules env (.ctl i)).rtspRunStep r hFits
      (fun n hn hFree => ⟨hFree, hApart n (by rw [hn]; rfl)⟩) h.kept
    have hStill : Greeted ((rtspRunStep env (.ctl i) r o).run w).2 i := by
      rw [Greeted, hSame.ctl, hCtl]
      exact afterGreeting_inline r
    refine h.next rfl hRoster (hKept.goOn (afterGreeting_inline _) hStill) fun j r' hj => ?_
    simp only [World.after, run_bind, run_setCtl, hSame.ctl] at hj
    by_cases hji : j = i
    · exact ⟨r, hji ▸ hCtl⟩
    · exact ⟨r', by simpa [hji] using hj⟩
  | rtspDone hTask hPc => exact h.of_task rfl (.of_sess rfl rfl rfl rfl) (h.kept.of_eq rfl rfl rfl rfl rfl rfl)
  | @rtsp k r o _ hPc hMark hFits =>
    have hSame := (sameTable_task env (.rtsp k)).rtspRunStep r hFits fun _ _ _ => trivial
    have hKept := (KeptAt.taskRules env (.rtsp k)).rtspRunStep r hFits
      (fun n hn hFree => ⟨hFree, hApart n (by rw [hn]; rfl)⟩) h.kept
    exact (h.of_task rfl hSame hKept).of_task rfl (.of_sess rfl rfl rfl rfl)
      (hKept.self.of_eq rfl rfl rfl rfl rfl rfl)
  | @media k m o _ hMark =>
    have hSame := (sameTable_task env (.media k)).mediaStep m o w
    have hKept := (KeptAt.taskRules env (.media k)).mediaStep m o w h.kept
    exact (h.of_task rfl hSame hKept).of_task rfl (.of_sess rfl rfl rfl rfl)
      (hKept.self.of_eq rfl rfl rfl rfl rfl rfl)
  | @image k t o _ =>
    have hSame := (sameTable_task env (.image k)).imageStep t o w
    have hKept := (KeptAt.taskRules env (.image k)).imageStep t o w h.kept
    exact (h.of_task rfl hSame hKept).of_task rfl (.of_sess rfl rfl rfl rfl)
      (hKept.self.of_eq rfl rfl rfl rfl rfl rfl)
  | control hMux =>
    exact h.of_task hMux (sendReceiverControl_sameTable env _ _ w)
      ((h.free hMux).control hHeap hSend _ _)
  | query hMux =>
    exact h.of_task hMux (sendMediaInfoQuery_sameTable env _ w) ((h.free hMux).query hHeap hSend _)
  | @setVolume percent =>
    have hKept : KeptAt env.aes w.sessionMux
        { w with log := w.log ++ [.nvsSave (min percent 100)] } := h.kept.note fun _ => rfl
    exact h.of_task rfl (.of_sess rfl rfl rfl rfl) (hKept.of_eq rfl rfl rfl rfl rfl rfl)

end Ideal

end Isolated

/-! ## Received containers -/

/-- Every received container is run through the receiver's chain. -/
def DecryptsReceived (w : World) (a : Action) (w' : World) : Prop :=
  ∀ i h frame n, a = .frame i → w.ctl i = some (.serving h) → frameMove h.buf = .take frame n →
    SafetyMarked (framePayload frame) →
      ∃ key iv iv' ops, w'.log = w.log ++ .decrypted i key iv iv' (framePayload frame) :: ops

/-- Nothing is taken out of the log. -/
def LogGrows (w w' : World) : Prop := w.log <+: w'.log

instance : IsPreorder World LogGrows where
  refl _ := List.prefix_rfl
  trans _ _ _ h h' := h.trans h'

theorem logGrows_frame (env : Env) (who : Owner) (i : Slot) (sock : Int) :
    FrameRules env who i sock LogGrows where
  toSendRules := .of_log (fun _ _ => List.prefix_rfl) (fun _ _ _ => List.prefix_append ..)
    (fun _ _ _ _ _ => List.prefix_rfl) fun _ => List.prefix_rfl
  media _ _ _ _ _ _ := List.prefix_rfl
  callback _ _ _ := List.prefix_append ..
  route _ := List.prefix_rfl
  save _ := List.prefix_rfl
  connected _ := List.prefix_rfl
  told _ := List.prefix_append ..

theorem startRtspSession_logGrows {env : Env} {i : Slot} {sock : Int} {host : Bytes} {port : Int}
    {has : Bool} {key : Block} {force : Bool} :
    Does LogGrows (miplayStartRtspSession env i sock host port has key force) :=
  startRtspSession_does (fun _ _ => List.prefix_rfl) (fun _ _ _ => List.prefix_rfl)
    (fun _ => List.prefix_rfl) (fun _ _ _ => List.prefix_rfl) (fun _ _ => List.prefix_append ..)
    host port has key force

theorem logGrows_command (env : Env) (i : Slot) (f : Frame) (h : Handler) :
    CommandRules env i f h LogGrows where
  restart _ := tryRestartRtsp_does fun _ _ _ _ => startRtspSession_logGrows
  streamKey _ _ _ _ := List.prefix_append ..
  authKey _ _ _ := List.prefix_rfl
  opened _ _ := List.prefix_rfl
  stream _ w host port :=
    openStream_does (logGrows_frame ..).toSwitchRules w.keys host port (fun _ => List.prefix_append ..)
      startRtspSession_logGrows (fun _ _ => List.prefix_append ..) w
  close _ _ := List.prefix_append ..

/-- Decryption is the first thing a frame does. -/
theorem frameBody_decrypts {env : Env} (hHeap : ∀ n, env.heap n = true) {w : World} {i : Slot}
    {sock : Int} {h : Handler} {frame : Bytes} (hKey : w.regs.hasSessionKey)
    (hMarked : SafetyMarked (framePayload frame)) :
    ∃ key iv iv' ops, (w.after (frameBody env i sock h frame)).log =
      w.log ++ .decrypted i key iv iv' (framePayload frame) :: ops := by
  have hRest (decrypted : Option Bytes) : Does LogGrows (do
      let behind ← oracle env.tail
      dispatchFrame env i
        { sock := sock, outer := outerType frame, cmd := frameCmd frame, seq := frameSeq frame
          payload := decrypted.getD (framePayload frame), decrypted := decrypted, behind := behind }
        h) :=
    Does.bind (fun _ => List.prefix_rfl) fun _ =>
      dispatchFrame_does (logGrows_frame ..) (logGrows_command ..)
  have hBody : LogGrows ((unifiedDecrypt env i (framePayload frame)).run w).2
      (w.after (frameBody env i sock h frame)) := by
    rw [World.after, frameBody, run_bind]
    exact hRest _ _
  rw [unifiedDecrypt_run hHeap, if_pos ⟨hKey, hMarked⟩] at hBody
  obtain ⟨ops, hOps⟩ := hBody
  refine ⟨w.regs.aesKey, w.regs.decryptIv,
    (decryptPayload env.aes true (framePayload frame) w.regs.aesKey w.regs.decryptIv).2, ops, ?_⟩
  rw [← hOps, List.append_assoc, List.singleton_append]

/-- So does the whole critical section of a greeted session. -/
theorem serveFrame_decrypts {env : Env} (hHeap : ∀ n, env.heap n = true) {w : World} {i : Slot}
    {h : Handler} {frame : Bytes} {n : Nat} (hKey : (w.sess i).regs.hasSessionKey)
    (hMarked : SafetyMarked (framePayload frame)) :
    ∃ key iv iv' ops, (w.after (serveFrame env i h frame n)).log =
      w.log ++ .decrypted i key iv iv' (framePayload frame) :: ops := by
  have hBody : ∃ key iv iv' ops,
      (World.after { w with regs := (w.sess i).regs }
        (frameBody env i (w.sess i).sock h frame)).log =
          w.log ++ .decrypted i key iv iv' (framePayload frame) :: ops :=
    frameBody_decrypts hHeap hKey hMarked
  simp only [World.after, Miplay.serveFrame, handleFrame, run_bind, run_get,
    run_miplaySessionLoad] at hBody ⊢
  rcases hRun : (frameBody env i (w.sess i).sock h frame).run
    { w with regs := (w.sess i).regs } with ⟨_ | r, w₁⟩
  all_goals
    rw [hRun] at hBody
    exact hBody

/-! ## Runs -/

/-- **Isolation.** Along every run in which no number is handed out that a running
task carries as its socket, the log is one of independent sessions, and every
received container is decrypted. -/
theorem sessions_isolated (env : Env) (hHeap : ∀ n, env.heap n = true)
    (hSend : ∀ n, env.send n = true) (volume : Nat) (as : List Action)
    (hFresh : Along (step env) (fun w a _ => LeavesRunningSockets w a) (World.initial volume) as) :
    Along (step env)
      (fun w a w' => (Channels.replay env.aes w'.log).isSome ∧ DecryptsReceived w a w')
      (World.initial volume) as := by
  refine Along.of_invariant (I := Isolated env.aes) (fun w a w' hInv hStep hFresh => ?_)
    (Isolated.initial env.aes volume) hFresh
  have hNext := hInv.step hHeap hSend (step_cases hStep) hFresh
  obtain ⟨m, hm⟩ := hNext.kept.kept
  refine ⟨hNext, by rw [hm.replay]; rfl, fun i h frame n hAct hCtl hMove hMarked => ?_⟩
  subst hAct
  cases step_cases hStep with
  | @frame _ h' frame' n' hCtl' hMove' hMux =>
    obtain rfl : h = h' := by simpa [hCtl] using hCtl'
    obtain ⟨rfl, rfl⟩ : frame = frame' ∧ n = n' := by simpa [hMove] using hMove'
    obtain ⟨m₀, hm₀⟩ := (hInv.free hMux).kept
    have hGreeted : Greeted w i := by
      rw [Greeted, hCtl]
      exact afterGreeting_serving h
    have hUse := hInv.roster.serving i (by simp [hCtl])
    exact serveFrame_decrypts hHeap ((hm₀.keyed i hUse).mpr hGreeted) hMarked

/-- Two phones, whose frames alternate with a query. -/
def twoPhonesRun : List Action :=
  [.accept 54 1 1, .alloc, .spawn, .accept 55 2 2, .alloc, .spawn, .enter 1, .enter 0, .greet 1 0 0,
    .greet 0 0 0, .recv 0 (frameOf 0 0x0C [0, 0, 0, 20]), .recv 1 (frameOf 0 0x0C [0, 0, 0, 30]),
    .frame 1, .query 55, .frame 0]

theorem sessions_isolated_two_phones :
    Along (step (Env.smooth plainCrypto))
      (fun w a w' =>
        (Channels.replay plainCrypto.aes w'.log).isSome ∧ DecryptsReceived w a w')
      (World.initial 50) twoPhonesRun :=
  sessions_isolated (Env.smooth plainCrypto) (fun _ => rfl) (fun _ => rfl) 50 twoPhonesRun
    (by decide +kernel)

/-- The container of a SafetyAuthAck without an HMAC, as a phone with an all-zero
`authKey` digest sends it first. -/
def emptyAuthAck : Bytes :=
  let key := Block.ofBytes (hexToLower Block.zero.toList)
  (safetyEncrypt plainCrypto.aes true (3 :: ascii "ack" ++ [30, 0, 0, 0, 0]) key key
    encryptBufSize).1.getD []

/-- A phone sends a wrong SafetyAuthAck and a SetVolume in one piece; behind the
first, the listener accepts the next phone under the number just closed. -/
def wrongHmacRun : List Action :=
  [.accept 54 1 1, .alloc, .spawn, .enter 0, .greet 0 0 0,
    .recv 0 (frameOf 0x14 0x03 emptyAuthAck ++ frameOf 0 0x0C [0, 0, 0, 20]), .frame 0,
    .accept 54 2 2, .frame 0]

/-- The answer to the SetVolume goes to the second phone. -/
theorem sessions_not_isolated :
    ¬∀ env : Env, (∀ n, env.heap n = true) → (∀ n, env.send n = true) → ∀ volume as,
      Along (step env)
        (fun w a w' => (Channels.replay env.aes w'.log).isSome ∧ DecryptsReceived w a w')
        (World.initial volume) as := by
  intro hAll
  have hAlong := hAll (Env.smooth plainCrypto) (fun _ => rfl) (fun _ => rfl) 50 wrongHmacRun
  have hEnd : (run (step (Env.smooth plainCrypto)) (World.initial 50) wrongHmacRun).map
      (fun w => (Channels.replay plainCrypto.aes w.log).isSome) = some false := by
    decide +kernel
  obtain ⟨w, hRun, hReplay⟩ := Option.map_eq_some_iff.mp hEnd
  have hSome := hAlong.final (fun w => (Channels.replay plainCrypto.aes w.log).isSome)
    (fun _ _ _ h => h.1) rfl hRun
  simp [hReplay] at hSome

end EspMiplay.Miplay
