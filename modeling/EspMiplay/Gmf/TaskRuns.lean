import EspMiplay.Gmf.Task

/-!
# The runs of a task

What the jobs of a pipeline are in a run, whatever they return and register, and whatever is asked
of the task in between.

## Results

* `Loop.Inv.step`    — a turn keeps the jobs as they have to be.
* `processLoop_safe` — no job is used that has been freed; a job that is there for once is not run
  again once it has been run; and no other job is run in front of one that is there for once and has
  been registered before.
* `terminate_closes` — how a run ends: every job that closes an element is run once, in order.
-/

namespace EspMiplay.Gmf

-- ---------------------------------------------------------------------------
-- Turns
-- ---------------------------------------------------------------------------

/-- The job that is next, if the loop goes on -/
def GoesOn (registered : List (Nat × JobTimes)) (ran : List (Nat × JobErr)) (r : Flow × Task) :
    Prop :=
  ∀ worker, r.1 = .go worker → Good registered ran r.2 ∧ ∀ w ∈ worker, At r.2 w

/-- What holds of the loop until it is left -/
def Loop.Inv (l : Loop) : Prop :=
  l.quitState = none → Good l.registered l.ran l.task ∧ ∀ w ∈ l.worker, At l.task w

section Turns

variable {registered : List (Nat × JobTimes)} {ran : List (Nat × JobErr)} {t : Task} {l : Loop}
  {turn : Turn} {job : Job} {front next : List Job}

theorem completes_ok : JobErr.ok.Completes := by simp [JobErr.Completes]

theorem completes_done : JobErr.done.Completes := by simp [JobErr.Completes]

theorem completes_fail : JobErr.fail.Completes := by simp [JobErr.Completes]

theorem completes_other (code : Int) : (JobErr.other code).Completes := by simp [JobErr.Completes]

theorem goesOn_quit (state : EventState) (t : Task) : GoesOn registered ran (.quit state, t) :=
  fun _ hGo => Flow.noConfusion hGo

theorem goesOn_restart (h : Good registered ran t) : GoesOn registered ran t.restart :=
  fun worker hGo => ⟨h, restart_next t worker hGo⟩

theorem Good.proceed (h : Good registered ran t) (hWorking : t.working = front ++ job :: next)
    (hFront : ∀ j ∈ front, j.times ≠ .once) (hRet : job.times = .once → turn.ret.Completes) :
    GoesOn registered ((job.addr, turn.ret) :: ran) (t.proceed turn job next) := by
  rw [Task.proceed]
  split_ifs
  · exact goesOn_quit _ _
  · rintro worker hGo
    obtain rfl := Flow.go.inj hGo
    exact h.getNextJob hWorking hFront hRet

/-- A job is done: it is freed, or marked if it is there more than once. -/
theorem Good.delJobAt (h : Good registered ran t) (hWorking : t.working = front ++ job :: next)
    (hFront : ∀ j ∈ front, j.times ≠ .once) {ret : JobErr} (hRet : ret.Completes) :
    Good registered ((job.addr, ret) :: ran) (t.delJobAt job) ∧
      ∀ j behind, next = j :: behind → At (t.delJobAt job) j.addr := by
  have hThere : job ∈ t.working := hWorking ▸ List.mem_append_right _ List.mem_cons_self
  rw [Task.delJobAt]
  by_cases hOnce : job.times = .once
  · rw [if_pos hOnce, hWorking, delAt_eq (h.front_ne hWorking)]
    refine ⟨h.free hWorking hOnce hRet, ?_⟩
    rintro j behind rfl
    exact ⟨front, j, behind, rfl, rfl, hFront⟩
  · rw [if_neg hOnce]
    have hAddr (j : Job) : (if j.addr = job.addr then { j with isDeleted := true } else j).addr =
        j.addr := by split_ifs <;> rfl
    have hTimes (j : Job) : (if j.addr = job.addr then { j with isDeleted := true } else j).times =
        j.times := by split_ifs <;> rfl
    have hMarked := h.mark _ hAddr hTimes fun j hMem hMark => by
      by_cases hSame : j.addr = job.addr
      · rw [h.eq_of_addr hMem hThere hSame]
        exact hOnce
      · rw [if_neg hSame] at hMark
        exact h.deleted j hMem hMark
    refine ⟨hMarked.log (h.addr_lt job hThere) ?_, ?_⟩
    · refine List.forall_mem_map.2 fun j hMem hSame hTwice => ?_
      rw [hAddr] at hSame
      rw [hTimes, h.eq_of_addr hMem hThere hSame] at hTwice
      exact absurd hTwice hOnce
    · rintro j behind rfl
      rw [hWorking, ← List.singleton_append, ← List.append_assoc, List.map_append, List.map_cons]
      refine ⟨_, _, _, rfl, hAddr j, List.forall_mem_map.2 fun i hMem => ?_⟩
      rw [hTimes]
      obtain hI | hI := List.mem_append.1 hMem
      · exact hFront i hI
      · rw [List.mem_singleton.1 hI]
        exact hOnce

/-- Whatever the job returns, the next one is there. -/
theorem Good.afterJob (turn : Turn) (h : Good registered ran t)
    (hWorking : t.working = front ++ job :: next) (hFront : ∀ j ∈ front, j.times ≠ .once) :
    GoesOn registered ((job.addr, turn.ret) :: ran) (t.afterJob turn job next) := by
  have hThere : job ∈ t.working := hWorking ▸ List.mem_append_right _ List.mem_cons_self
  have hAgain (hRet : ¬turn.ret.Completes) : Good registered ((job.addr, turn.ret) :: ran) t :=
    h.log (h.addr_lt job hThere) fun _ _ _ _ => hRet
  rw [Task.afterJob]
  cases hRet : turn.ret with
  | «continue» =>
    dsimp only
    split_ifs
    · exact goesOn_quit _ _
    · rw [← hRet]
      exact goesOn_restart (hAgain fun hCompletes => hCompletes.1 hRet)
  | truncate =>
    dsimp only
    split_ifs with hOnce
    · exact goesOn_quit _ _
    · have hPushed := h.withStack (List.forall_mem_cons.2 ⟨⟨job, hThere, rfl, hOnce⟩, h.stack⟩)
      rw [← hRet]
      exact hPushed.proceed hWorking hFront fun hTimes => absurd hTimes hOnce
  | done =>
    obtain ⟨hGood, hNext⟩ := h.delJobAt hWorking hFront completes_done
    have hStack : ∀ a ∈ (t.delJobAt job).startStack.erase job.addr, _ :=
      fun a hMem => hGood.stack a (List.mem_of_mem_erase hMem)
    have hErased := hGood.withStack hStack
    cases next with
    | nil =>
      dsimp only
      split_ifs
      · exact goesOn_restart (hErased.reset _)
      · exact goesOn_quit _ _
    | cons j behind =>
      dsimp only
      split_ifs
      · exact goesOn_quit _ _
      · rintro worker hGo
        obtain rfl := Flow.go.inj hGo
        refine ⟨hErased, fun w hMem => ?_⟩
        obtain rfl := Option.some.inj hMem
        exact hNext j behind rfl
  | fail =>
    dsimp only
    split_ifs
    · exact goesOn_quit _ _
    · rw [← hRet]
      exact h.proceed hWorking hFront fun _ => hRet ▸ completes_fail
  | abort =>
    dsimp only
    split_ifs
    · have hCleared := (hAgain fun hCompletes => hCompletes.2.2 hRet).withStack
        (List.forall_mem_nil _)
      rw [hRet] at hCleared
      exact goesOn_restart (hCleared.reset _)
    · exact goesOn_quit _ _
  | ok =>
    dsimp only
    rw [← hRet]
    exact h.proceed hWorking hFront fun _ => hRet ▸ completes_ok
  | other code =>
    dsimp only
    rw [← hRet]
    exact h.proceed hWorking hFront fun _ => hRet ▸ completes_other code

/-- **A turn**: the job that is up is there, and the loop stays as it has to be. -/
theorem Loop.Inv.step (h : l.Inv) (turn : Turn) : ∃ l', l.turn turn = some l' ∧ l'.Inv := by
  rw [Loop.turn]
  cases hQuit : l.quitState with
  | some state => exact ⟨l, rfl, h⟩
  | none =>
    cases hWorker : l.worker with
    | none => exact ⟨l, rfl, h⟩
    | some worker =>
      obtain ⟨hGood, hAt⟩ := h hQuit
      have hRegistered := hGood.registers turn.registers
      obtain ⟨front, job, next, hWorking, rfl, hFront, hJob⟩ :=
        ((hAt worker hWorker).registers turn.registers).jobAt hRegistered
      dsimp only
      rw [hJob]
      have hGoes := hRegistered.afterJob turn hWorking hFront
      cases hFlow : Task.afterJob (turn.registers.foldl Task.registerReadyJob l.task) turn job
        next with
      | mk flow task =>
        rw [hFlow] at hGoes
        simp only [Option.bind_eq_bind, Option.bind_some, hFlow]
        cases flow with
        | go worker => exact ⟨_, rfl, fun _ => hGoes worker rfl⟩
        | quit state => exact ⟨_, rfl, fun hNone => by cases hNone⟩

theorem processLoop_inv (h : l.Inv) (turns : List Turn) :
    ∃ l', processLoop turns l = some l' ∧ l'.Inv := by
  induction turns generalizing l with
  | nil => exact ⟨l, rfl, h⟩
  | cons turn turns ih =>
    obtain ⟨l', hTurn, hInv⟩ := h.step turn
    obtain ⟨l'', hRest, hLast⟩ := ih hInv
    exact ⟨l'', by rw [processLoop, hTurn, Option.bind_some, hRest], hLast⟩

theorem good_empty (fresh : Nat) : Good [] [] ⟨[], [], fresh⟩ where
  addr_lt := List.forall_mem_nil _
  registered_lt := List.forall_mem_nil _
  ran_lt := List.forall_mem_nil _
  nodup := List.nodup_nil
  deleted := List.forall_mem_nil _
  stack := List.forall_mem_nil _
  ordered := List.Pairwise.nil
  kept := List.forall_mem_nil _
  gone := List.forall_mem_nil _

theorem loaded_inv (jobs : List JobTimes) (fresh : Nat) : (loaded jobs fresh).Inv := by
  intro _
  have hGood := (good_empty fresh).registers jobs
  exact ⟨hGood, restart_next _ _ rfl⟩

/-- What is there for once and has been registered before has been run. -/
theorem Good.opened (h : Good registered ran t) (hWorking : t.working = front ++ job :: next)
    (hFront : ∀ j ∈ front, j.times ≠ .once) (hMore : job.times ≠ .once) :
    ∀ b ∈ registered, b.2 = .once → b.1 < job.addr → Completed ran b.1 := by
  intro b hMem hOnce hBefore
  obtain ⟨j, hThere, hAddr, hTimes⟩ | hRan := h.kept b hMem hOnce
  · have hOrdered := h.ordered
    rw [hWorking] at hOrdered hThere
    obtain ⟨hBehind, -⟩ := List.pairwise_cons.1 (List.pairwise_append.1 hOrdered).2.1
    obtain hFirst | hRest := List.mem_append.1 hThere
    · exact absurd hTimes (hFront j hFirst)
    · obtain rfl | hNext := List.mem_cons.1 hRest
      · exact absurd hTimes hMore
      · obtain hLater | ⟨hHead, -⟩ := hBehind j hNext
        · omega
        · exact absurd hHead hMore
  · exact hRan

/-- **Runs**: no turn uses a job that has been freed. The job that is up is there; if it is there
for once it has not been run yet, and else all that are there for once and have been registered
before it have been. -/
theorem processLoop_safe (jobs : List JobTimes) (fresh : Nat) (turns : List Turn) :
    ∃ l, processLoop turns (loaded jobs fresh) = some l ∧
      (l.quitState = none → ∀ w ∈ l.worker, ∃ job next,
        jobAt w l.task.working = some (job, next) ∧
          if job.times = .once then ¬Completed l.ran w
          else ∀ b ∈ l.registered, b.2 = .once → b.1 < w → Completed l.ran b.1) := by
  obtain ⟨l, hRun, hInv⟩ := processLoop_inv (loaded_inv jobs fresh) turns
  refine ⟨l, hRun, fun hQuit w hMem => ?_⟩
  obtain ⟨hGood, hAt⟩ := hInv hQuit
  obtain ⟨front, job, next, hWorking, rfl, hFront, hJob⟩ := (hAt w hMem).jobAt hGood
  refine ⟨job, next, hJob, ?_⟩
  split_ifs with hOnce
  · exact hGood.gone job (hWorking ▸ List.mem_append_right _ List.mem_cons_self) hOnce
  · exact hGood.opened hWorking hFront hOnce

end Turns

-- ---------------------------------------------------------------------------
-- The end
-- ---------------------------------------------------------------------------

section End

/-- Close jobs, from an address on -/
def closers (addr : Nat) : Nat → List Job
  | 0 => []
  | elements + 1 => ⟨addr, .once, false⟩ :: closers (addr + 1) elements

theorem registers_closers (working : List Job) (addr elements : Nat) :
    (List.replicate elements .once).foldl Task.registerReadyJob ⟨working, [], addr⟩ =
      ⟨working ++ closers addr elements, [], addr + elements⟩ := by
  induction elements generalizing working addr with
  | zero => rw [closers, List.append_nil]; rfl
  | succ elements ih =>
    rw [List.replicate_succ, List.foldl_cons]
    have hFirst : Task.registerReadyJob ⟨working, [], addr⟩ .once =
        ⟨working ++ [⟨addr, .once, false⟩], [], addr + 1⟩ := rfl
    rw [hFirst, ih, closers, List.append_assoc, List.singleton_append, Nat.add_right_comm,
      Nat.add_assoc]

/-- The state behind close jobs -/
def closedState (ret : Nat → JobErr) (addr elements : Nat) (state : EventState) : EventState :=
  if ∃ i < elements, ret (addr + i) ≠ .ok then .error else state

theorem closedState_succ (ret : Nat → JobErr) (addr elements : Nat) (state : EventState) :
    closedState ret (addr + 1) elements (if ret addr ≠ .ok then .error else state) =
      closedState ret addr (elements + 1) state := by
  have hIff : (∃ i < elements + 1, ret (addr + i) ≠ .ok) ↔
      ret addr ≠ .ok ∨ ∃ i < elements, ret (addr + 1 + i) ≠ .ok := by
    rw [Nat.exists_lt_succ_left]
    simp only [Nat.add_zero, Nat.add_assoc, Nat.add_comm 1]
  simp only [closedState, hIff]
  by_cases hFirst : ret addr = .ok
  · simp [hFirst]
  · simp [hFirst]

/-- Every job frees itself and leads to the next one. -/
theorem closeLoop_closers (ret : Nat → JobErr) (addr elements fresh : Nat) (state : EventState)
    (fuel : Nat) (hFuel : elements ≤ fuel) :
    closeLoop ret fuel ((closers addr elements).head?.map Job.addr) state
        ⟨closers addr elements, [], fresh⟩ =
      some (List.range' addr elements, closedState ret addr elements state, ⟨[], [], fresh⟩) := by
  induction elements generalizing addr state fuel with
  | zero =>
    cases fuel with
    | zero => simp [closers, closeLoop, closedState]
    | succ fuel => simp [closers, closeLoop, closedState]
  | succ elements ih =>
    obtain ⟨fuel, rfl⟩ : ∃ more, fuel = more + 1 := ⟨fuel - 1, by omega⟩
    have hNext : Task.getNextJob ⟨closers addr (elements + 1), [], fresh⟩ ⟨addr, .once, false⟩
        (closers (addr + 1) elements) = ((closers (addr + 1) elements).head?.map Job.addr,
          ⟨closers (addr + 1) elements, [], fresh⟩) := by
      have hFree : delAt addr (closers addr (elements + 1)) = closers (addr + 1) elements :=
        delAt_eq (List.forall_mem_nil _)
      rw [Task.getNextJob, if_pos rfl, hFree]
      cases elements with
      | zero => rfl
      | succ elements => rfl
    have hJob : jobAt addr (closers addr (elements + 1)) =
        some (⟨addr, .once, false⟩, closers (addr + 1) elements) :=
      jobAt_eq (List.forall_mem_nil _)
    have hHead : (closers addr (elements + 1)).head?.map Job.addr = some addr := rfl
    rw [hHead, closeLoop]
    simp only [hJob, hNext, ih _ _ _ (Nat.le_of_succ_le_succ hFuel), closedState_succ,
      Option.bind_eq_bind, Option.bind_some, Option.pure_def, List.range'_succ]

/-- **The end of a run**: however the loop is left, each element is closed once, in the order of the
elements, and nothing is left. The state is the one with which the loop was left, if every element
could be closed. -/
theorem terminate_closes (l : Loop) (elements : Nat) (ret : Nat → JobErr) (fuel : Nat)
    (hFuel : elements ≤ fuel) :
    l.terminate elements ret fuel = some (List.range' l.task.fresh elements,
      closedState ret l.task.fresh elements (l.quitState.getD .stopped),
        ⟨[], [], l.task.fresh + elements⟩) := by
  rw [Loop.terminate, registers_closers, List.nil_append]
  exact closeLoop_closers ret _ elements _ _ fuel hFuel

/-- Three elements, of which the second one cannot be closed -/
theorem second_fails : (loaded [.once, .infinite] 7).terminate 3
    (fun addr => if addr = 10 then .fail else .ok) 3 =
      some ([9, 10, 11], .error, ⟨[], [], 12⟩) :=
  terminate_closes (loaded [.once, .infinite] 7) 3 (fun addr => if addr = 10 then .fail else .ok) 3
    (Nat.le_refl 3)

end End

end EspMiplay.Gmf
