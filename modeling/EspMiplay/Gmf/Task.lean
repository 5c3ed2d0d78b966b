import Mathlib.Data.List.Nodup

/-!
# The jobs of a task

`__process_func` of `esp_gmf_task.c` runs the jobs of a pipeline: those that are there for once,
such as the opening of an element, and those that are run again and again. What a job returns
decides which one is next, a job may register others while it runs, and behind the loop the elements
are closed. A job is known by its address, and one that has been freed is not found there.

## Results

* `Good`             — what holds of the jobs in a run, and what keeps it.
* `Good.getNextJob`  — the job that is next is there, and none in front of it is there for once.
-/

namespace EspMiplay.Gmf

-- ---------------------------------------------------------------------------
-- The functions
-- ---------------------------------------------------------------------------

/-- `esp_gmf_job_times_t` -/
inductive JobTimes where
  | none
  | once
  | infinite
  deriving DecidableEq

/-- `esp_gmf_job_err_t`, and the other values that a job can return -/
inductive JobErr where
  | ok
  | continue
  | done
  | truncate
  | fail
  | abort
  | other (code : Int)
  deriving DecidableEq

/-- `esp_gmf_event_state_t` -/
inductive EventState where
  | none
  | initialized
  | opening
  | running
  | paused
  | stopped
  | finished
  | error
  deriving DecidableEq

/-- `esp_gmf_job_t`. Every job has a function. -/
structure Job where
  addr : Nat
  times : JobTimes
  isDeleted : Bool

/-- `working`, `start_stack` from the top on, and the next address of a job -/
structure Task where
  working : List Job
  startStack : List Nat
  fresh : Nat

/-- `esp_gmf_task_register_ready_job` -/
def Task.registerReadyJob (t : Task) (times : JobTimes) : Task where
  working := t.working ++ [⟨t.fresh, times, false⟩]
  startStack := if times = .infinite ∧ t.startStack = [] then [t.fresh] else t.startStack
  fresh := t.fresh + 1

/-- `esp_gmf_task_insert_head_job` -/
def Task.insertHeadJob (t : Task) (times : JobTimes) : Task where
  working := ⟨t.fresh, times, false⟩ :: t.working
  startStack := if times = .infinite then [t.fresh] else t.startStack
  fresh := t.fresh + 1

/-- `__esp_gmf_task_delete_jobs` -/
def Task.deleteJobs (t : Task) : Task := { t with working := [] }

/-- `esp_gmf_job_stack_pop`. The last entry stays. -/
def stackPop : List Nat → Option (Nat × List Nat)
  | [] => none
  | [a] => some (a, [a])
  | a :: b :: stack => some (a, b :: stack)

/-- The job at an address, and those its `next` leads to. There is none where it has been freed. -/
def jobAt (addr : Nat) : List Job → Option (Job × List Job)
  | [] => none
  | j :: js => if j.addr = addr then some (j, js) else jobAt addr js

/-- `esp_gmf_node_del_at` -/
def delAt (addr : Nat) (js : List Job) : List Job := js.eraseP fun j => j.addr = addr

/-- `__esp_gmf_task_del_job_at` -/
def Task.delJobAt (t : Task) (job : Job) : Task :=
  if job.times = .once then { t with working := delAt job.addr t.working }
  else { t with working := t.working.map fun j =>
    if j.addr = job.addr then { j with isDeleted := true } else j }

/-- `__esp_gmf_task_clear_deleted_flag` -/
def Task.clearDeletedFlag (t : Task) : Task :=
  { t with working := t.working.map fun j => { j with isDeleted := false } }

/-- `__esp_gmf_task_handle_reset_action`. The reset jobs of the elements are loaded one by one in
front of all others. -/
def Task.handleResetAction (t : Task) (elements : Nat) : Task :=
  let t := (List.replicate elements .once).foldl Task.insertHeadJob t.clearDeletedFlag
  match t.working.find? fun j => j.times = .infinite with
  | some j => { t with startStack := j.addr :: t.startStack }
  | none => t

/-- `__esp_gmf_get_next_job` -/
def Task.getNextJob (t : Task) (job : Job) (next : List Job) : Option Nat × Task :=
  let t := if job.times = .once then { t with working := delAt job.addr t.working } else t
  match next.find? fun j => !j.isDeleted with
  | some j => (some j.addr, t)
  | none =>
    match stackPop t.startStack with
    | some (a, stack) => (some a, { t with startStack := stack })
    | none => (none, t)

/-- What happens around a job: what it returns and what it registers, the state of the task and the
`STOP` bit when `__gmf_task_handle_user_action` looks at them, behind the pause if there is one,
whether the strategy function answers `RESET`, and how many elements then load a job -/
structure Turn where
  ret : JobErr
  registers : List JobTimes
  state : EventState
  stop : Bool
  reset : Bool
  elements : Nat

/-- `__gmf_task_handle_user_action(..) == GMF_TASK_STRATEGY_ACTION_STOP` -/
def Turn.stops (turn : Turn) : Bool := turn.stop && turn.state ≠ .error

/-- The next `worker`, or the `quit_state` -/
inductive Flow where
  | go (worker : Option Nat)
  | quit (state : EventState)

/-- From the user action on to the next job -/
def Task.proceed (t : Task) (turn : Turn) (job : Job) (next : List Job) : Flow × Task :=
  if turn.stops then (.quit .stopped, t.deleteJobs)
  else ((t.getNextJob job next).map .go id)

def Task.restart (t : Task) : Flow × Task := (.go (t.working.head?.map Job.addr), t)

/-- The loop of `__process_func`, behind the call of the function -/
def Task.afterJob (t : Task) (turn : Turn) (job : Job) (next : List Job) : Flow × Task :=
  match turn.ret with
  | .continue => if turn.stops then (.quit .stopped, t.deleteJobs) else t.restart
  | .truncate =>
    if job.times = .once then (.quit .error, t.deleteJobs)
    else Task.proceed { t with startStack := job.addr :: t.startStack } turn job next
  | .done =>
    let t := t.delJobAt job
    let t := { t with startStack := t.startStack.erase job.addr }
    match next with
    | [] => if turn.reset then (t.handleResetAction turn.elements).restart else (.quit .finished, t)
    | j :: _ => if turn.stops then (.quit .stopped, t.deleteJobs) else (.go (some j.addr), t)
  | .fail =>
    if turn.state ≠ .stopped then (.quit .error, t.deleteJobs) else t.proceed turn job next
  | .abort =>
    if turn.reset then (Task.handleResetAction { t with startStack := [] } turn.elements).restart
    else (.quit .stopped, t)
  | .ok => t.proceed turn job next
  | .other _ => t.proceed turn job next

/-- `worker`, `quit_state`, and behind them what has been run and what has been registered -/
structure Loop where
  task : Task
  worker : Option Nat
  quitState : Option EventState
  ran : List (Nat × JobErr)
  registered : List (Nat × JobTimes)

/-- The jobs that are registered from an address on -/
def numbered (addr : Nat) : List JobTimes → List (Nat × JobTimes)
  | [] => []
  | times :: more => (addr, times) :: numbered (addr + 1) more

/-- A turn of the loop. There is none where the job has been freed. -/
def Loop.turn (l : Loop) (turn : Turn) : Option Loop :=
  match l.quitState, l.worker with
  | none, some worker => do
    let t := turn.registers.foldl Task.registerReadyJob l.task
    let (job, next) ← jobAt worker t.working
    let (flow, task) := t.afterJob turn job next
    let ran := (worker, turn.ret) :: l.ran
    let registered := l.registered ++ numbered l.task.fresh turn.registers
    match flow with
    | .go worker => return ⟨task, worker, none, ran, registered⟩
    | .quit state => return ⟨task, none, some state, ran, registered⟩
  | _, _ => some l

/-- So many turns of the loop -/
def processLoop : List Turn → Loop → Option Loop
  | [], l => some l
  | turn :: turns, l => (l.turn turn).bind (processLoop turns)

/-- The loop over the close jobs, with what they return. There is no end without fuel. -/
def closeLoop (ret : Nat → JobErr) :
    Nat → Option Nat → EventState → Task → Option (List Nat × EventState × Task)
  | _, none, state, t => some ([], state, t)
  | 0, some _, _, _ => none
  | fuel + 1, some worker, state, t => do
    let (job, next) ← jobAt worker t.working
    let state := if ret worker ≠ .ok then .error else state
    let (worker', t) := t.getNextJob job next
    let (ran, state, t) ← closeLoop ret fuel worker' state t
    return (worker :: ran, state, t)

/-- Behind the loop of `__process_func`: what is left goes, and each element loads its close job. -/
def Loop.terminate (l : Loop) (elements : Nat) (ret : Nat → JobErr) (fuel : Nat) :
    Option (List Nat × EventState × Task) :=
  let t := (List.replicate elements .once).foldl Task.registerReadyJob
    ⟨[], [], l.task.fresh⟩
  closeLoop ret fuel (t.working.head?.map Job.addr) (l.quitState.getD .stopped) t

/-- The jobs of a pipeline before it runs, registered one by one -/
def loaded (jobs : List JobTimes) (fresh : Nat) : Loop :=
  let t := jobs.foldl Task.registerReadyJob ⟨[], [], fresh⟩
  ⟨t, t.working.head?.map Job.addr, none, [], numbered fresh jobs⟩

-- ---------------------------------------------------------------------------
-- What holds in a run
-- ---------------------------------------------------------------------------

/-- What a job returns when it does not stay as it is -/
def JobErr.Completes (ret : JobErr) : Prop := ret ≠ .continue ∧ ret ≠ .truncate ∧ ret ≠ .abort

def Completed (ran : List (Nat × JobErr)) (addr : Nat) : Prop :=
  ∃ ret, (addr, ret) ∈ ran ∧ ret.Completes

/-- The jobs of a task in a run. Those that have been inserted at the head are there for once, and
the others are in the order in which they have been registered. -/
structure Good (registered : List (Nat × JobTimes)) (ran : List (Nat × JobErr)) (t : Task) :
    Prop where
  addr_lt : ∀ j ∈ t.working, j.addr < t.fresh
  registered_lt : ∀ b ∈ registered, b.1 < t.fresh
  ran_lt : ∀ e ∈ ran, e.1 < t.fresh
  nodup : (t.working.map Job.addr).Nodup
  deleted : ∀ j ∈ t.working, j.isDeleted = true → j.times ≠ .once
  stack : ∀ a ∈ t.startStack, ∃ j ∈ t.working, j.addr = a ∧ j.times ≠ .once
  ordered : t.working.Pairwise fun i j =>
    i.addr < j.addr ∨ i.times = .once ∧ ∀ b ∈ registered, b.1 ≠ i.addr
  kept : ∀ b ∈ registered, b.2 = .once →
    (∃ j ∈ t.working, j.addr = b.1 ∧ j.times = .once) ∨ Completed ran b.1
  gone : ∀ j ∈ t.working, j.times = .once → ¬Completed ran j.addr

/-- A job that is there, with no job in front of it that is there for once -/
def At (t : Task) (addr : Nat) : Prop :=
  ∃ front job next, t.working = front ++ job :: next ∧ job.addr = addr ∧
    ∀ j ∈ front, j.times ≠ .once

section Tasks

variable {registered : List (Nat × JobTimes)} {ran : List (Nat × JobErr)} {t : Task}
  {job : Job} {front next : List Job} {addr : Nat}

theorem Completed.mono {entry : Nat × JobErr} (h : Completed ran addr) :
    Completed (entry :: ran) addr := by
  obtain ⟨ret, hRan, hCompletes⟩ := h
  exact ⟨ret, List.mem_cons_of_mem _ hRan, hCompletes⟩

/-- A job has been run that is not there for once, or has to be run again. -/
theorem Good.log (h : Good registered ran t) {ret : JobErr} (hAddr : addr < t.fresh)
    (hStays : ∀ j ∈ t.working, j.addr = addr → j.times = .once → ¬ret.Completes) :
    Good registered ((addr, ret) :: ran) t :=
  { h with
    ran_lt := List.forall_mem_cons.2 ⟨hAddr, h.ran_lt⟩
    kept := fun b hMem hOnce => (h.kept b hMem hOnce).imp_right Completed.mono
    gone := by
      rintro j hMem hOnce ⟨ret', hRan, hCompletes⟩
      obtain hNow | hBefore := List.mem_cons.1 hRan
      · obtain ⟨hAddr, rfl⟩ := Prod.mk.inj hNow
        exact hStays j hMem hAddr hOnce hCompletes
      · exact h.gone j hMem hOnce ⟨ret', hBefore, hCompletes⟩ }

theorem Good.not_completed_fresh (h : Good registered ran t) : ¬Completed ran t.fresh := by
  rintro ⟨ret, hRan, -⟩
  exact Nat.lt_irrefl _ (h.ran_lt _ hRan)

/-- A job with an address is the only one. -/
theorem Good.eq_of_addr (h : Good registered ran t) {i j : Job} (hI : i ∈ t.working)
    (hJ : j ∈ t.working) (hSame : i.addr = j.addr) : i = j :=
  List.inj_on_of_nodup_map h.nodup hI hJ hSame

theorem jobAt_eq (hFront : ∀ j ∈ front, j.addr ≠ job.addr) :
    jobAt job.addr (front ++ job :: next) = some (job, next) := by
  induction front with
  | nil => rw [List.nil_append, jobAt, if_pos rfl]
  | cons j front ih =>
    obtain ⟨hFirst, hRest⟩ := List.forall_mem_cons.1 hFront
    rw [List.cons_append, jobAt, if_neg hFirst, ih hRest]

theorem delAt_eq (hFront : ∀ j ∈ front, j.addr ≠ job.addr) :
    delAt job.addr (front ++ job :: next) = front ++ next := by
  rw [delAt, List.eraseP_append_right _ fun j hMem => by simpa using hFront j hMem,
    List.eraseP_cons, decide_eq_true rfl, cond_true]

theorem Good.front_ne (h : Good registered ran t) (hWorking : t.working = front ++ job :: next) :
    ∀ j ∈ front, j.addr ≠ job.addr := by
  intro j hMem hSame
  have hNodup := h.nodup
  rw [hWorking, List.map_append, List.map_cons] at hNodup
  refine List.disjoint_of_nodup_append hNodup (List.mem_map_of_mem hMem) ?_
  rw [hSame]
  exact List.mem_cons_self

theorem At.jobAt (h : At t addr) (hGood : Good registered ran t) :
    ∃ front job next, t.working = front ++ job :: next ∧ job.addr = addr ∧
      (∀ j ∈ front, j.times ≠ .once) ∧ jobAt addr t.working = some (job, next) := by
  obtain ⟨front, job, next, hWorking, rfl, hFront⟩ := h
  refine ⟨front, job, next, hWorking, rfl, hFront, ?_⟩
  rw [hWorking]
  exact jobAt_eq (hGood.front_ne hWorking)

/-- A job is registered behind all others. -/
theorem Good.register (h : Good registered ran t) (times : JobTimes) :
    Good (registered ++ [(t.fresh, times)]) ran (t.registerReadyJob times) where
  addr_lt := List.forall_mem_append.2 ⟨fun j hMem => Nat.lt_succ_of_lt (h.addr_lt j hMem),
    List.forall_mem_singleton.2 (Nat.lt_succ_self _)⟩
  registered_lt := List.forall_mem_append.2
    ⟨fun b hMem => Nat.lt_succ_of_lt (h.registered_lt b hMem),
      List.forall_mem_singleton.2 (Nat.lt_succ_self _)⟩
  ran_lt e hMem := Nat.lt_succ_of_lt (h.ran_lt e hMem)
  nodup := by
    rw [Task.registerReadyJob, List.map_append]
    refine List.Nodup.append h.nodup (List.nodup_singleton _) fun a hMem hLast => ?_
    obtain ⟨j, hWorking, rfl⟩ := List.mem_map.1 hMem
    exact absurd (h.addr_lt j hWorking) (List.mem_singleton.1 hLast ▸ Nat.lt_irrefl _)
  deleted := List.forall_mem_append.2 ⟨h.deleted, List.forall_mem_singleton.2 Bool.noConfusion⟩
  stack := by
    rw [Task.registerReadyJob]
    dsimp only
    split_ifs with hFirst
    · refine List.forall_mem_singleton.2
        ⟨_, List.mem_append_right _ (List.mem_singleton_self _), rfl, ?_⟩
      rw [hFirst.1]
      exact JobTimes.noConfusion
    · intro a hMem
      obtain ⟨j, hWorking, hJob⟩ := h.stack a hMem
      exact ⟨j, List.mem_append_left _ hWorking, hJob⟩
  ordered := by
    refine List.pairwise_append.2 ⟨h.ordered.imp_of_mem fun {i j} hI _ hBefore => ?_,
      List.pairwise_singleton .., fun i hI j hJ => .inl ?_⟩
    · refine hBefore.imp_right fun hHead => ⟨hHead.1, List.forall_mem_append.2 ⟨hHead.2,
        List.forall_mem_singleton.2 ?_⟩⟩
      exact Nat.ne_of_gt (h.addr_lt i hI)
    · rw [List.mem_singleton.1 hJ]
      exact h.addr_lt i hI
  kept := by
    refine List.forall_mem_append.2 ⟨fun b hMem hOnce => ?_,
      List.forall_mem_singleton.2 fun hOnce =>
        .inl ⟨_, List.mem_append_right _ (List.mem_singleton_self _), rfl, hOnce⟩⟩
    exact (h.kept b hMem hOnce).imp_left fun ⟨j, hWorking, hJob⟩ =>
      ⟨j, List.mem_append_left _ hWorking, hJob⟩
  gone := List.forall_mem_append.2 ⟨h.gone, List.forall_mem_singleton.2 fun _ hDone =>
    h.not_completed_fresh hDone⟩

theorem Good.registers (h : Good registered ran t) (more : List JobTimes) :
    Good (registered ++ numbered t.fresh more) ran (more.foldl Task.registerReadyJob t) := by
  induction more generalizing t registered with
  | nil =>
    rw [numbered, List.append_nil]
    exact h
  | cons times more ih =>
    have hMore := ih (h.register times)
    rw [List.append_assoc] at hMore
    exact hMore

theorem At.registers (h : At t addr) (more : List JobTimes) :
    At (more.foldl Task.registerReadyJob t) addr := by
  induction more generalizing t with
  | nil => exact h
  | cons times more ih =>
    obtain ⟨front, job, next, hWorking, hAddr, hFront⟩ := h
    refine ih ⟨front, job, next ++ [⟨t.fresh, times, false⟩], ?_, hAddr, hFront⟩
    rw [Task.registerReadyJob, hWorking, List.append_assoc, List.cons_append]

/-- A job that is there for once has been run, and is freed. -/
theorem Good.free (h : Good registered ran t) (hWorking : t.working = front ++ job :: next)
    (hOnce : job.times = .once) {ret : JobErr} (hRet : ret.Completes) :
    Good registered ((job.addr, ret) :: ran) { t with working := front ++ next } := by
  have hSub : (front ++ next).Sublist t.working := by
    rw [hWorking]
    exact List.Sublist.append_left (List.sublist_cons_self job next) front
  have hMem : ∀ j ∈ t.working, j.addr ≠ job.addr → j ∈ front ++ next := by
    intro j hMem hOther
    rw [hWorking, List.mem_append, List.mem_cons] at hMem
    obtain hFront | rfl | hNext := hMem
    · exact List.mem_append_left _ hFront
    · exact absurd rfl hOther
    · exact List.mem_append_right _ hNext
  have hThere : job ∈ t.working := hWorking ▸ List.mem_append_right _ List.mem_cons_self
  have hOther : ∀ j ∈ front ++ next, j.addr ≠ job.addr := by
    have hNodup := h.nodup
    rw [hWorking, List.map_append, List.map_cons, List.nodup_middle, List.nodup_cons,
      ← List.map_append] at hNodup
    exact fun j hJ hSame => hNodup.1 (hSame ▸ List.mem_map_of_mem hJ)
  refine ⟨fun j hJ => h.addr_lt j (hSub.subset hJ), h.registered_lt,
    List.forall_mem_cons.2 ⟨h.addr_lt job hThere, h.ran_lt⟩, h.nodup.sublist (hSub.map _),
    fun j hJ => h.deleted j (hSub.subset hJ), fun a hA => ?_, h.ordered.sublist hSub,
    fun b hB hTimes => ?_, fun j hJ hTimes hDone => ?_⟩
  · obtain ⟨j, hJ, rfl, hNot⟩ := h.stack a hA
    refine ⟨j, hMem j hJ fun hSame => hNot ?_, rfl, hNot⟩
    rw [h.eq_of_addr hJ hThere hSame, hOnce]
  · obtain ⟨j, hJ, hAddr, hJob⟩ | hRan := h.kept b hB hTimes
    · by_cases hSame : j.addr = job.addr
      · rw [← hAddr, hSame]
        exact .inr ⟨ret, List.mem_cons_self, hRet⟩
      · exact .inl ⟨j, hMem j hJ hSame, hAddr, hJob⟩
    · exact .inr hRan.mono
  · obtain ⟨ret', hRan, hCompletes⟩ := hDone
    obtain hNow | hBefore := List.mem_cons.1 hRan
    · exact hOther j hJ (Prod.mk.inj hNow).1
    · exact h.gone j (hSub.subset hJ) hTimes ⟨ret', hBefore, hCompletes⟩

/-- The jobs change in `is_deleted`, and none that is there for once is marked. -/
theorem Good.mark (h : Good registered ran t) (f : Job → Job) (hAddr : ∀ j, (f j).addr = j.addr)
    (hTimes : ∀ j, (f j).times = j.times)
    (hDeleted : ∀ j ∈ t.working, (f j).isDeleted = true → j.times ≠ .once) :
    Good registered ran { t with working := t.working.map f } where
  addr_lt := List.forall_mem_map.2 fun j hMem => (hAddr j).symm ▸ h.addr_lt j hMem
  registered_lt := h.registered_lt
  ran_lt := h.ran_lt
  nodup := by
    rw [List.map_map, show Job.addr ∘ f = Job.addr from funext hAddr]
    exact h.nodup
  deleted := List.forall_mem_map.2 fun j hMem hMark => (hTimes j).symm ▸ hDeleted j hMem hMark
  stack a hMem := by
    obtain ⟨j, hWorking, hJob, hNot⟩ := h.stack a hMem
    exact ⟨f j, List.mem_map_of_mem hWorking, (hAddr j).trans hJob, (hTimes j).symm ▸ hNot⟩
  ordered := List.pairwise_map.2 (h.ordered.imp fun {i j} hBefore => by
    rw [hAddr, hAddr, hTimes]
    exact hBefore)
  kept b hMem hOnce := (h.kept b hMem hOnce).imp_left fun ⟨j, hWorking, hJob, hTimesJ⟩ =>
    ⟨f j, List.mem_map_of_mem hWorking, (hAddr j).trans hJob, (hTimes j).trans hTimesJ⟩
  gone := List.forall_mem_map.2 fun j hMem hOnce => by
    rw [hAddr]
    exact h.gone j hMem ((hTimes j).symm.trans hOnce)

/-- The stack may be any list of jobs that are there more than once. -/
theorem Good.withStack (h : Good registered ran t) {stack : List Nat}
    (hStack : ∀ a ∈ stack, ∃ j ∈ t.working, j.addr = a ∧ j.times ≠ .once) :
    Good registered ran { t with startStack := stack } :=
  { h with stack := hStack }

theorem Good.insertHead (h : Good registered ran t) :
    Good registered ran (t.insertHeadJob .once) where
  addr_lt := List.forall_mem_cons.2 ⟨Nat.lt_succ_self _, fun j hMem =>
    Nat.lt_succ_of_lt (h.addr_lt j hMem)⟩
  registered_lt b hMem := Nat.lt_succ_of_lt (h.registered_lt b hMem)
  ran_lt e hMem := Nat.lt_succ_of_lt (h.ran_lt e hMem)
  nodup := by
    refine List.nodup_cons.2 ⟨fun hMem => ?_, h.nodup⟩
    obtain ⟨j, hWorking, hSame⟩ := List.mem_map.1 hMem
    exact absurd (h.addr_lt j hWorking) (hSame.symm ▸ Nat.lt_irrefl _)
  deleted := List.forall_mem_cons.2 ⟨Bool.noConfusion, h.deleted⟩
  stack a hMem := by
    obtain ⟨j, hWorking, hJob⟩ := h.stack a hMem
    exact ⟨j, List.mem_cons_of_mem _ hWorking, hJob⟩
  ordered := List.pairwise_cons.2
    ⟨fun j _ => .inr ⟨rfl, fun b hMem => Nat.ne_of_lt (h.registered_lt b hMem)⟩, h.ordered⟩
  kept b hMem hOnce := (h.kept b hMem hOnce).imp_left fun ⟨j, hWorking, hJob⟩ =>
    ⟨j, List.mem_cons_of_mem _ hWorking, hJob⟩
  gone := List.forall_mem_cons.2 ⟨fun _ => h.not_completed_fresh, h.gone⟩

theorem Good.insertHeads (h : Good registered ran t) (elements : Nat) :
    Good registered ran ((List.replicate elements .once).foldl Task.insertHeadJob t) := by
  induction elements generalizing t with
  | zero => exact h
  | succ elements ih => exact ih h.insertHead

theorem Good.reset (h : Good registered ran t) (elements : Nat) :
    Good registered ran (t.handleResetAction elements) := by
  have hClear : Good registered ran t.clearDeletedFlag :=
    h.mark _ (fun _ => rfl) (fun _ => rfl) fun _ _ hMark => Bool.noConfusion hMark
  have hLoaded := hClear.insertHeads elements
  rw [Task.handleResetAction]
  split
  · rename_i j hFind
    refine hLoaded.withStack (List.forall_mem_cons.2 ⟨⟨j, List.mem_of_find?_eq_some hFind, rfl, ?_⟩,
      hLoaded.stack⟩)
    have hInfinite := List.find?_some hFind
    rw [of_decide_eq_true hInfinite]
    exact JobTimes.noConfusion
  · exact hLoaded

/-- The job that is next, if there is one -/
def Flow.Next (flow : Flow) (t : Task) : Prop := ∀ worker, flow = .go worker → ∀ w ∈ worker, At t w

theorem restart_next (t : Task) : t.restart.1.Next t.restart.2 := by
  rintro worker hFlow w hMem
  obtain rfl := Flow.go.inj hFlow
  obtain ⟨job, hHead, rfl⟩ := Option.map_eq_some_iff.1 hMem
  obtain ⟨next, hWorking⟩ := List.head?_eq_some_iff.1 hHead
  exact ⟨[], job, next, hWorking, rfl, List.forall_mem_nil _⟩

/-- The next job: what is between has been marked, and those on the stack are there more than
once. -/
theorem Good.getNextJob (h : Good registered ran t) (hWorking : t.working = front ++ job :: next)
    (hFront : ∀ j ∈ front, j.times ≠ .once) {ret : JobErr}
    (hRet : job.times = .once → ret.Completes) :
    Good registered ((job.addr, ret) :: ran) (t.getNextJob job next).2 ∧
      ∀ w ∈ (t.getNextJob job next).1, At (t.getNextJob job next).2 w := by
  have hThere : job ∈ t.working := hWorking ▸ List.mem_append_right _ List.mem_cons_self
  obtain ⟨front', hBefore, hGood, hFront'⟩ : ∃ front',
      (if job.times = .once then { t with working := delAt job.addr t.working } else t) =
        { t with working := front' ++ next } ∧
      Good registered ((job.addr, ret) :: ran) { t with working := front' ++ next } ∧
        ∀ j ∈ front', j.times ≠ .once := by
    by_cases hOnce : job.times = .once
    · rw [if_pos hOnce]
      refine ⟨front, ?_, h.free hWorking hOnce (hRet hOnce), hFront⟩
      rw [hWorking, delAt_eq (h.front_ne hWorking)]
    · rw [if_neg hOnce]
      have hAll : t.working = (front ++ [job]) ++ next := by
        rw [hWorking, List.append_assoc, List.singleton_append]
      refine ⟨front ++ [job], ?_, ?_, List.forall_mem_append.2
        ⟨hFront, List.forall_mem_singleton.2 hOnce⟩⟩
      · rw [← hAll]
      · rw [← hAll]
        refine h.log (h.addr_lt job hThere) fun j hMem hSame hTimes => absurd hTimes ?_
        rw [h.eq_of_addr hMem hThere hSame]
        exact hOnce
  rw [Task.getNextJob, hBefore]
  dsimp only
  cases hFind : next.find? fun j => !j.isDeleted with
  | some j =>
    refine ⟨hGood, fun w hMem => ?_⟩
    obtain rfl := Option.some.inj hMem
    obtain ⟨hPlain, skipped, behind, rfl, hSkipped⟩ := List.find?_eq_some_iff_append.1 hFind
    refine ⟨front' ++ skipped, j, behind, by rw [List.append_assoc], rfl,
      List.forall_mem_append.2 ⟨hFront', fun i hMem => ?_⟩⟩
    have hDeleted := hSkipped i hMem
    rw [Bool.not_not] at hDeleted
    exact hGood.deleted i (List.mem_append_right _ (List.mem_append_left _ hMem)) hDeleted
  | none =>
    have hNever : ∀ j ∈ front' ++ next, j.times ≠ .once := by
      refine List.forall_mem_append.2 ⟨hFront', fun j hMem => ?_⟩
      have hDeleted := List.find?_eq_none.1 hFind j hMem
      rw [Bool.not_eq_true, Bool.not_eq_false'] at hDeleted
      exact hGood.deleted j (List.mem_append_right _ hMem) hDeleted
    have hAt (a : Nat) (hMem : a ∈ t.startStack) (stack : List Nat) :
        At { t with working := front' ++ next, startStack := stack } a := by
      obtain ⟨j, hThere, rfl, -⟩ := hGood.stack a hMem
      obtain ⟨before, behind, hSplit⟩ := List.append_of_mem hThere
      refine ⟨before, j, behind, hSplit, rfl, fun i hI => hNever i ?_⟩
      have hAll : front' ++ next = before ++ j :: behind := hSplit
      rw [hAll]
      exact List.mem_append_left _ hI
    dsimp only
    cases hStack : t.startStack with
    | nil =>
      refine ⟨?_, fun w hMem => by cases hMem⟩
      show Good registered ((job.addr, ret) :: ran) ⟨front' ++ next, [], t.fresh⟩
      rw [← hStack]
      exact hGood
    | cons a stack =>
      have hTop := hAt a (hStack ▸ List.mem_cons_self)
      cases stack with
      | nil =>
        refine ⟨hGood.withStack fun b hMem => hGood.stack b (hStack ▸ hMem), fun w hMem => ?_⟩
        obtain rfl := Option.some.inj hMem
        exact hTop _
      | cons b stack =>
        refine ⟨hGood.withStack fun c hMem => hGood.stack c (hStack ▸ List.mem_cons_of_mem _ hMem),
          fun w hMem => ?_⟩
        obtain rfl := Option.some.inj hMem
        exact hTop _

end Tasks

end EspMiplay.Gmf
