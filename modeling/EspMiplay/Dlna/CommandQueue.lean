import Mathlib
import EspMiplay.Dlna.WlanPage

/-!
# The queue of MiPlay commands

A press of a button in MiPlay mode is a command to the phone. The button task only posts it
(`miplay_cmd_post`), and a worker of its own sends it, since sending may wait for long. The queue
and the worker are made by the first call, and nothing keeps two tasks from being first: the
handle is tested, and stored behind `xQueueCreate`.

Calls and workers take their steps in any order: a call tests the handle, creates a queue, stores
its handle, creates the worker, loads the handle again, sends. A worker loads the handle on each
turn. What is due is a ghost: the commands in the order they are posted, those apart that
are posted while eight are pending.

## Results

* `work_decreases`   — steps other than new calls come to an end.
* `Sound.step`       — one queue and one worker, as long as one call at most finds no queue.
* `delivered_along`  — what is sent is what is due, in its order and to its end, along the runs
  in which one call at most finds no queue, and the queue and the worker are made.
* `first_two_calls`  — two first calls at the same time lose a command.
-/

namespace EspMiplay.Dlna

open Transition
open EspMiplay.Miplay (Bytes ascii)

/-- The commands of `miplay_cmd_worker`, as `miplay_send_receiver_control` takes them -/
def MiplayCmd.control : MiplayCmd → Bytes
  | .pause => ascii "pause"
  | .play => ascii "play"
  | .prev => ascii "prev"
  | .next => ascii "next"

/-- A call of `miplay_cmd_post` -/
inductive PostCall where
  /-- has found no queue -/
  | checked (cmd : MiplayCmd)
  /-- `xQueueCreate` has returned -/
  | created (cmd : MiplayCmd) (queue : Option Nat)
  /-- has stored the handle -/
  | stored (cmd : MiplayCmd)
  /-- is behind the block that makes the queue -/
  | ready (cmd : MiplayCmd)
  /-- has loaded the handle for `xQueueSend` -/
  | loaded (cmd : MiplayCmd) (queue : Nat)
  | done
  deriving DecidableEq

/-- A task in `miplay_cmd_worker` -/
inductive CmdWorker where
  | start
  /-- is in `xQueueReceive` -/
  | waiting (queue : Nat)
  | holding (cmd : MiplayCmd)
  deriving DecidableEq

structure Commands where
  /-- `s_miplay_cmd_queue` -/
  handle : Option Nat
  queues : List (List MiplayCmd)
  calls : List PostCall
  workers : List CmdWorker
  /-- What `miplay_send_receiver_control` was called with -/
  sent : List Bytes
  due : List MiplayCmd
  deriving DecidableEq

inductive CommandAction where
  /-- `miplay_cmd_post` is called. -/
  | call (cmd : MiplayCmd)
  | create (i : Nat) (ok : Bool)
  | store (i : Nat)
  | spawn (i : Nat) (ok : Bool)
  | load (i : Nat)
  | send (i : Nat)
  | wait (w : Nat)
  | receive (w : Nat)
  | dispatch (w : Nat)
  deriving DecidableEq

namespace Commands

variable (s : Commands)

/-- The commands in all queues -/
def pending : Nat := (s.queues.map List.length).sum

/-- A command is posted. -/
def post (cmd : MiplayCmd) : List MiplayCmd := if s.pending < 8 then s.due ++ [cmd] else s.due

/-- The steps of `miplay_cmd_post` and `miplay_cmd_worker` -/
def step : CommandAction → Option Commands
  | .call cmd =>
    some { s with calls := s.calls ++ [if s.handle = none then .checked cmd else .ready cmd] }
  | .create i ok =>
    match s.calls[i]? with
    | some (.checked cmd) =>
      if ok then
        some { s with
          queues := s.queues ++ [[]]
          calls := s.calls.set i (.created cmd (some s.queues.length)) }
      else some { s with calls := s.calls.set i (.created cmd none) }
    | _ => none
  | .store i =>
    match s.calls[i]? with
    | some (.created cmd queue) =>
      some { s with handle := queue, calls := s.calls.set i (.stored cmd) }
    | _ => none
  | .spawn i ok =>
    match s.calls[i]? with
    | some (.stored cmd) =>
      some { s with
        workers := if s.handle.isSome ∧ ok then s.workers ++ [.start] else s.workers
        calls := s.calls.set i (.ready cmd) }
    | _ => none
  | .load i =>
    match s.calls[i]?, s.handle with
    | some (.ready cmd), some queue => some { s with calls := s.calls.set i (.loaded cmd queue) }
    | some (.ready cmd), none => some { s with calls := s.calls.set i .done, due := s.post cmd }
    | _, _ => none
  | .send i =>
    match s.calls[i]? with
    | some (.loaded cmd queue) =>
      some { s with
        queues := s.queues.modify queue fun q => if q.length < 8 then q ++ [cmd] else q
        calls := s.calls.set i .done
        due := s.post cmd }
    | _ => none
  | .wait w =>
    match s.workers[w]?, s.handle with
    | some .start, some queue => some { s with workers := s.workers.set w (.waiting queue) }
    | _, _ => none
  | .receive w =>
    match s.workers[w]? with
    | some (.waiting queue) =>
      match s.queues[queue]? with
      | some (cmd :: rest) =>
        some { s with
          queues := s.queues.set queue rest
          workers := s.workers.set w (.holding cmd) }
      | _ => none
    | _ => none
  | .dispatch w =>
    match s.workers[w]? with
    | some (.holding cmd) =>
      some { s with
        workers := s.workers.set w .start
        sent := s.sent ++ [cmd.control] }
    | _ => none

def boot : Commands := ⟨none, [], [], [], [], []⟩

end Commands

namespace CommandAction

def isCall : CommandAction → Bool
  | .call _ => true
  | _ => false

end CommandAction

namespace PostCall

/-- The steps a call can still lead to, those of the worker with its command included -/
def work : PostCall → Nat
  | .checked _ => 9
  | .created _ _ => 8
  | .stored _ => 7
  | .ready _ => 5
  | .loaded _ _ => 4
  | .done => 0

/-- The call has found no queue, and has not stored one. -/
def opening : PostCall → Bool
  | .checked _ | .created _ _ => true
  | _ => false

end PostCall

namespace CmdWorker

def work : CmdWorker → Nat
  | .start => 1
  | .waiting _ => 0
  | .holding _ => 2

def hand : CmdWorker → List MiplayCmd
  | .holding cmd => [cmd]
  | _ => []

end CmdWorker

namespace Commands

variable (s : Commands)

/-! ## What is wanted -/

/-- The steps that are left without a new call -/
def work : Nat :=
  (s.calls.map PostCall.work).sum + (s.workers.map CmdWorker.work).sum + 3 * s.pending

/-- Nothing happens without a new call. -/
def Quiet : Prop := ∀ a : CommandAction, a.isCall = false → s.step a = none

/-- What is sent is what is due, in its order, and all of it once nothing is left to do. -/
structure Delivered : Prop where
  ordered : s.sent <+: s.due.map MiplayCmd.control
  complete : s.Quiet → s.sent = s.due.map MiplayCmd.control

/-- No call finds no queue while another one that found none has not stored its own; and the queue
and the worker are made. -/
def OneFirst (s : Commands) : CommandAction → Prop
  | .call _ => s.handle = none → ∀ c ∈ s.calls, c.opening = false
  | .create _ ok | .spawn _ ok => ok = true
  | _ => True

instance (a : CommandAction) : Decidable (s.OneFirst a) :=
  match a with
  | .call _ => inferInstanceAs (Decidable (s.handle = none → ∀ c ∈ s.calls, c.opening = false))
  | .create _ ok | .spawn _ ok => inferInstanceAs (Decidable (ok = true))
  | .store _ | .load _ | .send _ | .wait _ | .receive _ | .dispatch _ => .isTrue trivial

variable {s} {s' : Commands} {i : Nat}

/-! ## Single steps -/

section Steps

theorem create_eq {ok : Bool} (hStep : s.step (.create i ok) = some s') :
    ∃ cmd, s.calls[i]? = some (.checked cmd) ∧ s' = if ok then { s with
      queues := s.queues ++ [[]]
      calls := s.calls.set i (.created cmd (some s.queues.length)) }
    else { s with calls := s.calls.set i (.created cmd none) } := by
  simp only [step] at hStep
  split at hStep
  · rename_i cmd hAt
    refine ⟨cmd, hAt, ?_⟩
    split_ifs at hStep ⊢ <;> exact (Option.some.inj hStep).symm
  · cases hStep

theorem store_eq (hStep : s.step (.store i) = some s') :
    ∃ cmd queue, s.calls[i]? = some (.created cmd queue) ∧
      s' = { s with handle := queue, calls := s.calls.set i (.stored cmd) } := by
  simp only [step] at hStep
  split at hStep
  · rename_i cmd queue hAt
    exact ⟨cmd, queue, hAt, (Option.some.inj hStep).symm⟩
  · cases hStep

theorem spawn_eq {ok : Bool} (hStep : s.step (.spawn i ok) = some s') :
    ∃ cmd, s.calls[i]? = some (.stored cmd) ∧ s' = { s with
      workers := if s.handle.isSome ∧ ok then s.workers ++ [.start] else s.workers
      calls := s.calls.set i (.ready cmd) } := by
  simp only [step] at hStep
  split at hStep
  · rename_i cmd hAt
    exact ⟨cmd, hAt, (Option.some.inj hStep).symm⟩
  · cases hStep

theorem load_eq (hStep : s.step (.load i) = some s') :
    ∃ cmd, s.calls[i]? = some (.ready cmd) ∧
      ((∃ queue, s.handle = some queue ∧
          s' = { s with calls := s.calls.set i (.loaded cmd queue) }) ∨
        s.handle = none ∧ s' = { s with calls := s.calls.set i .done, due := s.post cmd }) := by
  simp only [step] at hStep
  split at hStep
  · rename_i cmd queue hAt hHandle
    exact ⟨cmd, hAt, .inl ⟨queue, hHandle, (Option.some.inj hStep).symm⟩⟩
  · rename_i cmd hAt hHandle
    exact ⟨cmd, hAt, .inr ⟨hHandle, (Option.some.inj hStep).symm⟩⟩
  · cases hStep

theorem send_eq (hStep : s.step (.send i) = some s') :
    ∃ cmd queue, s.calls[i]? = some (.loaded cmd queue) ∧ s' = { s with
      queues := s.queues.modify queue fun q => if q.length < 8 then q ++ [cmd] else q
      calls := s.calls.set i .done
      due := s.post cmd } := by
  simp only [step] at hStep
  split at hStep
  · rename_i cmd queue hAt
    exact ⟨cmd, queue, hAt, (Option.some.inj hStep).symm⟩
  · cases hStep

theorem wait_eq (hStep : s.step (.wait i) = some s') :
    ∃ queue, s.workers[i]? = some .start ∧ s.handle = some queue ∧
      s' = { s with workers := s.workers.set i (.waiting queue) } := by
  simp only [step] at hStep
  split at hStep
  · rename_i queue hAt hHandle
    exact ⟨queue, hAt, hHandle, (Option.some.inj hStep).symm⟩
  · cases hStep

theorem receive_eq (hStep : s.step (.receive i) = some s') :
    ∃ queue cmd rest, s.workers[i]? = some (.waiting queue) ∧
      s.queues[queue]? = some (cmd :: rest) ∧ s' = { s with
        queues := s.queues.set queue rest
        workers := s.workers.set i (.holding cmd) } := by
  simp only [step] at hStep
  split at hStep
  · rename_i queue hAt
    split at hStep
    · rename_i cmd rest hQueue
      exact ⟨queue, cmd, rest, hAt, hQueue, (Option.some.inj hStep).symm⟩
    · cases hStep
  · cases hStep

theorem dispatch_eq (hStep : s.step (.dispatch i) = some s') :
    ∃ cmd, s.workers[i]? = some (.holding cmd) ∧ s' = { s with
      workers := s.workers.set i .start
      sent := s.sent ++ [cmd.control] } := by
  simp only [step] at hStep
  split at hStep
  · rename_i cmd hAt
    exact ⟨cmd, hAt, (Option.some.inj hStep).symm⟩
  · cases hStep

end Steps

/-! ## Steps come to an end -/

section Work

theorem sum_set {α : Type} (f : α → Nat) {l : List α} {a b : α} (h : l[i]? = some a) :
    ((l.set i b).map f).sum + f a = (l.map f).sum + f b := by
  induction l generalizing i with
  | nil => cases h
  | cons x l ih =>
    cases i with
    | zero =>
      obtain rfl := Option.some.inj h
      rw [List.set_cons_zero, List.map_cons, List.map_cons, List.sum_cons, List.sum_cons]
      omega
    | succ i =>
      have hRest := ih (i := i) h
      rw [List.set_cons_succ, List.map_cons, List.map_cons, List.sum_cons, List.sum_cons]
      omega

/-- A command more in one of the queues, where there is room for it -/
theorem pending_post (queues : List (List MiplayCmd)) (queue : Nat) (cmd : MiplayCmd) :
    ((queues.modify queue fun q => if q.length < 8 then q ++ [cmd] else q).map List.length).sum ≤
      (queues.map List.length).sum + 1 := by
  induction queues generalizing queue with
  | nil => simp
  | cons q queues ih =>
    cases queue with
    | zero =>
      rw [List.modify_zero_cons, List.map_cons, List.map_cons, List.sum_cons, List.sum_cons]
      split_ifs
      · rw [List.length_append, List.length_singleton]
        omega
      · omega
    | succ queue =>
      have hRest := ih queue
      rw [List.modify_succ_cons, List.map_cons, List.map_cons, List.sum_cons, List.sum_cons]
      omega

/-- **Every step but a new call** leaves less to do. -/
theorem work_decreases {a : CommandAction} (hStep : s.step a = some s') (hCall : a.isCall = false) :
    s'.work < s.work := by
  cases a with
  | call => cases hCall
  | create i ok =>
    obtain ⟨cmd, hAt, rfl⟩ := create_eq hStep
    cases ok with
    | true =>
      have hCalls := sum_set PostCall.work (b := .created cmd (some s.queues.length)) hAt
      simp only [if_true, work, pending, List.map_append, List.sum_append, List.map_cons,
        List.map_nil, List.sum_cons, List.sum_nil, List.length_nil, PostCall.work] at hCalls ⊢
      omega
    | false =>
      have hCalls := sum_set PostCall.work (b := .created cmd none) hAt
      simp only [Bool.false_eq_true, if_false, work, pending, PostCall.work] at hCalls ⊢
      omega
  | store i =>
    obtain ⟨cmd, queue, hAt, rfl⟩ := store_eq hStep
    have hCalls := sum_set PostCall.work (b := .stored cmd) hAt
    simp only [work, pending, PostCall.work] at hCalls ⊢
    omega
  | spawn i ok =>
    obtain ⟨cmd, hAt, rfl⟩ := spawn_eq hStep
    have hCalls := sum_set PostCall.work (b := .ready cmd) hAt
    have hWorkers : ((if s.handle.isSome ∧ ok then s.workers ++ [.start] else s.workers).map
        CmdWorker.work).sum ≤ (s.workers.map CmdWorker.work).sum + 1 := by
      split_ifs <;> simp [CmdWorker.work]
    simp only [work, pending, PostCall.work] at hCalls ⊢
    omega
  | load i =>
    obtain ⟨cmd, hAt, ⟨queue, -, rfl⟩ | ⟨-, rfl⟩⟩ := load_eq hStep
    · have hCalls := sum_set PostCall.work (b := .loaded cmd queue) hAt
      simp only [work, pending, PostCall.work] at hCalls ⊢
      omega
    · have hCalls := sum_set PostCall.work (b := .done) hAt
      simp only [work, pending, PostCall.work] at hCalls ⊢
      omega
  | send i =>
    obtain ⟨cmd, queue, hAt, rfl⟩ := send_eq hStep
    have hCalls := sum_set PostCall.work (b := .done) hAt
    have hQueues := pending_post s.queues queue cmd
    simp only [work, pending, PostCall.work] at hCalls ⊢
    omega
  | wait w =>
    obtain ⟨queue, hAt, -, rfl⟩ := wait_eq hStep
    have hWorkers := sum_set CmdWorker.work (b := .waiting queue) hAt
    simp only [work, pending, CmdWorker.work] at hWorkers ⊢
    omega
  | receive w =>
    obtain ⟨queue, cmd, rest, hAt, hQueue, rfl⟩ := receive_eq hStep
    have hWorkers := sum_set CmdWorker.work (b := .holding cmd) hAt
    have hQueues := sum_set List.length (b := rest) hQueue
    rw [List.length_cons] at hQueues
    simp only [work, pending, CmdWorker.work] at hWorkers ⊢
    omega
  | dispatch w =>
    obtain ⟨cmd, hAt, rfl⟩ := dispatch_eq hStep
    have hWorkers := sum_set CmdWorker.work (b := .start) hAt
    simp only [work, pending, CmdWorker.work] at hWorkers ⊢
    omega

end Work

/-! ## One queue, one worker -/

/-- A call behind the making of the queue, and not with another one -/
def joins : PostCall → Prop
  | .checked _ | .created _ _ => False
  | .loaded _ queue => queue = 0
  | _ => True

/-- Before the handle is stored: one call at most, the one that makes the queue -/
structure Opening (s : Commands) : Prop where
  handle : s.handle = none
  workers : s.workers = []
  sent : s.sent = []
  due : s.due = []
  calls : s.calls = [] ∧ s.queues = [] ∨
    ∃ cmd, s.calls = [.checked cmd] ∧ s.queues = [] ∨
      s.calls = [.created cmd (some 0)] ∧ s.queues = [[]]

/-- Behind it: what is due is sent, held by the worker, or in the queue `q`. -/
structure Running (s : Commands) (q : List MiplayCmd) : Prop where
  handle : s.handle = some 0
  queues : s.queues = [q]
  joins : ∀ c ∈ s.calls, joins c
  /-- the first call alone is to make the worker -/
  stored : ∀ i cmd, s.calls[i]? = some (.stored cmd) → i = 0 ∧ s.workers = []
  workers : (∃ cmd, s.calls[0]? = some (.stored cmd)) ∧ s.workers = [] ∨
    ∃ w, s.workers = [w] ∧ ∀ queue, w = .waiting queue → queue = 0
  books : s.due.map MiplayCmd.control =
    s.sent ++ (s.workers.flatMap CmdWorker.hand ++ q).map MiplayCmd.control

def Sound (s : Commands) : Prop := s.Opening ∨ ∃ q, s.Running q

section Sound

variable {q : List MiplayCmd} {c : PostCall}

/-- A call takes a step, and the worker is not its matter. -/
theorem Running.callSet {u : Commands} (h : s.Running q) (c' : PostCall)
    (hAt : s.calls[i]? = some c) (hNot : ∀ cmd, c ≠ .stored cmd) (hJoins : Commands.joins c')
    (hNot' : ∀ cmd, c' ≠ .stored cmd) {q' : List MiplayCmd}
    (hEq : u = { s with queues := [q'], calls := s.calls.set i c', due := u.due })
    (hBooks : u.due.map MiplayCmd.control =
      s.sent ++ (s.workers.flatMap CmdWorker.hand ++ q').map MiplayCmd.control) :
    u.Running q' := by
  have hOther (j : Nat) (cmd : MiplayCmd) :
      (s.calls.set i c')[j]? = some (.stored cmd) ↔ s.calls[j]? = some (.stored cmd) := by
    by_cases hj : i = j
    · subst hj
      refine iff_of_false (fun hIs => ?_) fun hIs => ?_
      · rw [List.getElem?_set_self (List.getElem?_eq_some_iff.1 hAt).1] at hIs
        exact hNot' cmd (Option.some.inj hIs)
      · rw [hAt] at hIs
        exact hNot cmd (Option.some.inj hIs)
    · rw [List.getElem?_set_ne hj]
  rw [hEq]
  refine ⟨h.handle, rfl, fun d hMem => ?_, fun j cmd hIs => ?_, ?_, hBooks⟩
  · obtain hOld | rfl := List.mem_or_eq_of_mem_set hMem
    · exact h.joins d hOld
    · exact hJoins
  · exact h.stored j cmd ((hOther j cmd).1 hIs)
  · obtain ⟨⟨cmd, hStored⟩, hNone⟩ | hOne := h.workers
    · exact .inl ⟨⟨cmd, (hOther 0 cmd).2 hStored⟩, hNone⟩
    · exact .inr hOne

/-- The worker takes a step. -/
theorem Running.workerSet {w : CmdWorker} (h : s.Running q) (w' : CmdWorker)
    (q' : List MiplayCmd) (sent : List Bytes) (hAt : s.workers[i]? = some w)
    (hQueue : ∀ queue, w' = .waiting queue → queue = 0)
    (hBooks : s.sent ++ (w.hand ++ q).map MiplayCmd.control =
      sent ++ (w'.hand ++ q').map MiplayCmd.control) :
    Running { s with queues := [q'], workers := s.workers.set i w', sent := sent } q' := by
  obtain ⟨-, hNone⟩ | ⟨v, hOne, -⟩ := h.workers
  · rw [hNone] at hAt
    cases hAt
  · rw [hOne] at hAt
    obtain ⟨rfl, rfl⟩ : i = 0 ∧ v = w := by simpa [List.getElem?_singleton] using hAt
    refine ⟨h.handle, rfl, h.joins, fun j cmd hIs => ?_, .inr ⟨w', ?_, hQueue⟩, ?_⟩
    · have hNone := (h.stored j cmd hIs).2
      rw [hOne] at hNone
      cases hNone
    · rw [hOne]
      rfl
    · have hBefore := h.books
      rw [hOne] at hBefore ⊢
      simp only [List.set_cons_zero, List.flatMap_cons, List.flatMap_nil, List.append_nil]
        at hBefore ⊢
      exact hBefore.trans hBooks

/-- The call that stores the handle -/
theorem Opening.store (h : s.Opening) (hStep : s.step (.store i) = some s') : s'.Running [] := by
  obtain ⟨cmd, queue, hAt, rfl⟩ := store_eq hStep
  obtain ⟨hCalls, -⟩ | ⟨first, ⟨hCalls, -⟩ | ⟨hCalls, hQueues⟩⟩ := h.calls
  · rw [hCalls] at hAt
    cases hAt
  · rw [hCalls] at hAt
    simp [List.getElem?_singleton] at hAt
  · rw [hCalls] at hAt
    obtain ⟨rfl, rfl, rfl⟩ : i = 0 ∧ first = cmd ∧ some 0 = queue := by
      simpa [List.getElem?_singleton] using hAt
    have hNow : s.calls.set 0 (.stored first) = [.stored first] := by rw [hCalls]; rfl
    refine ⟨rfl, hQueues, ?_, ?_, .inl ⟨⟨first, ?_⟩, h.workers⟩, ?_⟩
    · rw [hNow]
      exact List.forall_mem_singleton.2 trivial
    · intro j cmd hIs
      rw [hNow] at hIs
      have hFirst := (List.getElem?_eq_some_iff.1 hIs).1
      exact ⟨by simpa using hFirst, h.workers⟩
    · rw [hNow]
      rfl
    · rw [h.due, h.sent, h.workers]
      rfl

theorem Opening.opening (h : s.Opening) (hAt : s.calls[i]? = some c) : c.opening = true := by
  have hMem := List.mem_of_getElem? hAt
  obtain ⟨hCalls, -⟩ | ⟨first, ⟨hCalls, -⟩ | ⟨hCalls, -⟩⟩ := h.calls
  · rw [hCalls] at hMem
    cases hMem
  · rw [hCalls] at hMem
    rw [List.mem_singleton.1 hMem]
    rfl
  · rw [hCalls] at hMem
    rw [List.mem_singleton.1 hMem]
    rfl

theorem Opening.create (h : s.Opening) (hStep : s.step (.create i true) = some s') :
    s'.Opening := by
  obtain ⟨cmd, hAt, rfl⟩ := create_eq hStep
  obtain ⟨hCalls, -⟩ | ⟨first, ⟨hCalls, hQueues⟩ | ⟨hCalls, -⟩⟩ := h.calls
  · rw [hCalls] at hAt
    cases hAt
  · rw [hCalls] at hAt
    obtain ⟨rfl, rfl⟩ : i = 0 ∧ first = cmd := by simpa [List.getElem?_singleton] using hAt
    rw [if_pos rfl]
    refine ⟨h.handle, h.workers, h.sent, h.due, .inr ⟨first, .inr ⟨?_, ?_⟩⟩⟩
    · rw [hCalls, hQueues]
      rfl
    · rw [hQueues]
      rfl
  · rw [hCalls] at hAt
    simp [List.getElem?_singleton] at hAt

/-- Before the handle is stored, only the call that makes the queue can take a step. -/
theorem Opening.step {a : CommandAction} (h : s.Opening) (hStep : s.step a = some s')
    (hOk : s.OneFirst a) : s'.Sound := by
  cases a with
  | call cmd =>
    obtain rfl := Option.some.inj hStep
    have hNone := hOk h.handle
    -- each call of the state is on its way to the queue, and there is no such call
    have hEmpty : s.calls = [] := by
      refine List.eq_nil_iff_forall_not_mem.2 fun c hMem => ?_
      obtain ⟨i, hAt⟩ := List.mem_iff_getElem?.1 hMem
      have hOpening := h.opening hAt
      rw [hNone c hMem] at hOpening
      cases hOpening
    obtain ⟨-, hQueues⟩ | ⟨first, ⟨hCalls, -⟩ | ⟨hCalls, -⟩⟩ := h.calls
    · refine .inl ⟨h.handle, h.workers, h.sent, h.due, .inr ⟨cmd, .inl ⟨?_, hQueues⟩⟩⟩
      rw [if_pos h.handle, hEmpty]
      rfl
    · rw [hEmpty] at hCalls
      cases hCalls
    · rw [hEmpty] at hCalls
      cases hCalls
  | create i ok =>
    obtain rfl : ok = true := hOk
    exact .inl (h.create hStep)
  | store i => exact .inr ⟨[], h.store hStep⟩
  | spawn i ok =>
    obtain ⟨cmd, hAt, -⟩ := spawn_eq hStep
    cases h.opening hAt
  | load i =>
    obtain ⟨cmd, hAt, -⟩ := load_eq hStep
    cases h.opening hAt
  | send i =>
    obtain ⟨cmd, queue, hAt, -⟩ := send_eq hStep
    cases h.opening hAt
  | wait w =>
    obtain ⟨queue, hAt, -⟩ := wait_eq hStep
    rw [h.workers] at hAt
    cases hAt
  | receive w =>
    obtain ⟨queue, cmd, rest, hAt, -⟩ := receive_eq hStep
    rw [h.workers] at hAt
    cases hAt
  | dispatch w =>
    obtain ⟨cmd, hAt, -⟩ := dispatch_eq hStep
    rw [h.workers] at hAt
    cases hAt

/-- The first call makes the worker. -/
theorem Running.spawn (h : s.Running q) (hStep : s.step (.spawn i true) = some s') :
    s'.Running q := by
  obtain ⟨cmd, hAt, rfl⟩ := spawn_eq hStep
  obtain ⟨rfl, hNone⟩ := h.stored i cmd hAt
  have hWorkers : (if s.handle.isSome ∧ true = true then s.workers ++ [.start] else s.workers) =
      [.start] := by
    rw [h.handle, hNone]
    rfl
  rw [hWorkers]
  refine ⟨h.handle, h.queues, fun d hMem => ?_, fun j other hIs => ?_, .inr ⟨.start, rfl, ?_⟩, ?_⟩
  · obtain hOld | rfl := List.mem_or_eq_of_mem_set hMem
    · exact h.joins d hOld
    · trivial
  -- no other call stores a handle, so that there is no second worker
  · by_cases hj : 0 = j
    · subst hj
      rw [List.getElem?_set_self (List.getElem?_eq_some_iff.1 hAt).1] at hIs
      cases hIs
    · rw [List.getElem?_set_ne hj] at hIs
      exact absurd (h.stored j other hIs).1.symm hj
  · intro queue hIs
    cases hIs
  · have hBooks := h.books
    rw [hNone] at hBooks
    exact hBooks

/-- A call sends: the command is in the queue, unless it is full. -/
theorem Running.send (h : s.Running q) (hStep : s.step (.send i) = some s') :
    ∃ q', s'.Running q' := by
  obtain ⟨cmd, queue, hAt, rfl⟩ := send_eq hStep
  obtain rfl : queue = 0 := h.joins _ (List.mem_of_getElem? hAt)
  have hPending : s.pending = q.length := by
    rw [pending, h.queues]
    simp
  have hPost : s.post cmd = if q.length < 8 then s.due ++ [cmd] else s.due := by
    rw [post, hPending]
  have hQueues : (s.queues.modify 0 fun q => if q.length < 8 then q ++ [cmd] else q) =
      [if q.length < 8 then q ++ [cmd] else q] := by
    rw [h.queues]
    rfl
  refine ⟨if q.length < 8 then q ++ [cmd] else q, ?_⟩
  refine h.callSet .done hAt (fun _ hIs => by cases hIs) trivial (fun _ hIs => by cases hIs) ?_ ?_
  · rw [hQueues]
  -- a command that finds the queue full is in neither book
  · rw [hPost]
    split_ifs
    · rw [List.map_append, h.books]
      simp
    · exact h.books

theorem Running.step {a : CommandAction} (h : s.Running q) (hStep : s.step a = some s')
    (hOk : s.OneFirst a) : ∃ q', s'.Running q' := by
  cases a with
  | call cmd =>
    obtain rfl := Option.some.inj hStep
    rw [if_neg (by rw [h.handle]; simp)]
    have hOld (j : Nat) (other : MiplayCmd) (hIs : (s.calls ++ [PostCall.ready cmd])[j]? =
        some (.stored other)) : s.calls[j]? = some (.stored other) := by
      rw [List.getElem?_append] at hIs
      split_ifs at hIs with hj
      · exact hIs
      · have hMem := List.mem_of_getElem? hIs
        simp at hMem
    refine ⟨q, h.handle, h.queues, fun d hMem => ?_, fun j other hIs =>
      h.stored j other (hOld j other hIs), ?_, h.books⟩
    · obtain hThere | hNew := List.mem_append.1 hMem
      · exact h.joins d hThere
      · obtain rfl := List.mem_singleton.1 hNew
        trivial
    · obtain ⟨⟨other, hStored⟩, hNone⟩ | hOne := h.workers
      · refine .inl ⟨⟨other, ?_⟩, hNone⟩
        rw [List.getElem?_append_left (List.getElem?_eq_some_iff.1 hStored).1]
        exact hStored
      · exact .inr hOne
  | create i ok =>
    obtain ⟨cmd, hAt, -⟩ := create_eq hStep
    exact (h.joins _ (List.mem_of_getElem? hAt)).elim
  | store i =>
    obtain ⟨cmd, queue, hAt, -⟩ := store_eq hStep
    exact (h.joins _ (List.mem_of_getElem? hAt)).elim
  | spawn i ok =>
    obtain rfl : ok = true := hOk
    exact ⟨q, h.spawn hStep⟩
  | load i =>
    obtain ⟨cmd, hAt, ⟨queue, hHandle, rfl⟩ | ⟨hHandle, -⟩⟩ := load_eq hStep
    · rw [h.handle] at hHandle
      obtain rfl := Option.some.inj hHandle
      refine ⟨q, h.callSet (.loaded cmd 0) hAt (fun _ hIs => by cases hIs) rfl
        (fun _ hIs => by cases hIs) ?_ h.books⟩
      rw [← h.queues]
    · rw [h.handle] at hHandle
      cases hHandle
  | send i => exact h.send hStep
  | wait w =>
    obtain ⟨queue, hAt, hHandle, rfl⟩ := wait_eq hStep
    rw [h.handle] at hHandle
    obtain rfl := Option.some.inj hHandle
    have hNext := h.workerSet (.waiting 0) q s.sent hAt
      (fun queue hIs => (CmdWorker.waiting.inj hIs).symm) rfl
    rw [← h.queues] at hNext
    exact ⟨q, hNext⟩
  | receive w =>
    obtain ⟨queue, cmd, rest, hAt, hQueue, rfl⟩ := receive_eq hStep
    obtain ⟨-, hNone⟩ | ⟨v, hOne, hZero⟩ := h.workers
    · rw [hNone] at hAt
      cases hAt
    · rw [hOne] at hAt
      obtain ⟨-, rfl⟩ : w = 0 ∧ v = .waiting queue := by
        simpa [List.getElem?_singleton] using hAt
      obtain rfl := hZero queue rfl
      rw [h.queues] at hQueue
      obtain rfl := Option.some.inj hQueue
      have hNext := h.workerSet (.holding cmd) rest s.sent (i := w) (by rw [hOne]; exact hAt)
        (fun queue hIs => by cases hIs) rfl
      refine ⟨rest, ?_⟩
      rw [h.queues]
      exact hNext
  | dispatch w =>
    obtain ⟨cmd, hAt, rfl⟩ := dispatch_eq hStep
    have hNext := h.workerSet .start q (s.sent ++ [cmd.control]) hAt
      (fun queue hIs => by cases hIs) (by simp [CmdWorker.hand])
    rw [← h.queues] at hNext
    exact ⟨q, hNext⟩

end Sound

theorem Sound.step {a : CommandAction} (h : s.Sound) (hStep : s.step a = some s')
    (hOk : s.OneFirst a) : s'.Sound := by
  obtain hOpening | ⟨q, hRunning⟩ := h
  · exact hOpening.step hStep hOk
  · exact .inr (hRunning.step hStep hOk)

theorem sound_boot : Sound boot := .inl ⟨rfl, rfl, rfl, rfl, .inl ⟨rfl, rfl⟩⟩

/-! ## What is sent -/

section Sent

variable {q : List MiplayCmd}

/-- A call that can take no step is done. -/
theorem Running.calls_done (h : s.Running q) (hQuiet : s.Quiet) :
    ∀ c ∈ s.calls, c = .done := by
  intro c hMem
  obtain ⟨i, hAt⟩ := List.mem_iff_getElem?.1 hMem
  cases c with
  | checked cmd | created cmd queue => exact (h.joins _ hMem).elim
  | stored cmd =>
    have hStep := hQuiet (.spawn i true) rfl
    simp [Commands.step, hAt] at hStep
  | ready cmd =>
    have hStep := hQuiet (.load i) rfl
    simp [Commands.step, hAt, h.handle] at hStep
  | loaded cmd queue =>
    have hStep := hQuiet (.send i) rfl
    simp [Commands.step, hAt] at hStep
  | done => rfl

/-- **When nothing is left to do** the worker waits at an empty queue. -/
theorem Running.quiet (h : s.Running q) (hQuiet : s.Quiet) :
    s.workers.flatMap CmdWorker.hand ++ q = [] := by
  obtain ⟨⟨cmd, hStored⟩, -⟩ | ⟨w, hOne, hZero⟩ := h.workers
  · have hDone := h.calls_done hQuiet _ (List.mem_of_getElem? hStored)
    cases hDone
  · have hAt : s.workers[0]? = some w := by rw [hOne]; rfl
    cases w with
    | start =>
      have hStep := hQuiet (.wait 0) rfl
      simp [Commands.step, hAt, h.handle] at hStep
    | holding cmd =>
      have hStep := hQuiet (.dispatch 0) rfl
      simp [Commands.step, hAt] at hStep
    | waiting queue =>
      obtain rfl := hZero queue rfl
      rw [hOne]
      -- it could receive what is in the queue
      cases q with
      | nil => rfl
      | cons cmd rest =>
        have hStep := hQuiet (.receive 0) rfl
        simp [Commands.step, hAt, h.queues] at hStep

theorem Sound.delivered (h : s.Sound) : s.Delivered := by
  obtain hOpening | ⟨q, hRunning⟩ := h
  · refine ⟨?_, fun _ => ?_⟩
    · rw [hOpening.sent]
      exact List.nil_prefix
    · rw [hOpening.sent, hOpening.due]
      rfl
  · refine ⟨?_, fun hQuiet => ?_⟩
    · rw [hRunning.books]
      exact List.prefix_append _ _
    · rw [hRunning.books, hRunning.quiet hQuiet, List.map_nil, List.append_nil]

end Sent

/-- **The commands are delivered** in every run in which one call at most finds no queue, and the
queue and the worker are made. -/
theorem delivered_along {as : List CommandAction}
    (hRun : Along step (fun s a _ => s.OneFirst a) boot as) :
    Along step (fun s a s' => s'.Delivered ∧ (a.isCall = false → s'.work < s.work)) boot as :=
  Along.of_invariant (I := Sound)
    (fun _ _ _ h hStep hOk =>
      have hNext := h.step hStep hOk
      ⟨hNext, hNext.delivered, work_decreases hStep⟩)
    sound_boot hRun

/-- One command, from the first call to the phone -/
def firstPause : List CommandAction :=
  [.call .pause, .create 0 true, .store 0, .spawn 0 true, .load 0, .send 0, .wait 0, .receive 0,
    .dispatch 0]

theorem pause_delivered : Along step
    (fun s a s' => s'.Delivered ∧ (a.isCall = false → s'.work < s.work)) boot firstPause :=
  delivered_along (by decide +kernel)

/-- The two button tasks call for the first time; the worker takes the second queue. -/
def twoFirst : List CommandAction :=
  [.call .pause, .call .next, .create 0 true, .store 0, .spawn 0 true, .load 0, .send 0,
    .create 1 true, .store 1, .spawn 1 true, .load 1, .send 1, .wait 0, .receive 0]

/-- The command in the first queue is never received. -/
theorem first_two_calls : ¬∀ as : List CommandAction,
    Along step (fun _ _ s' => s'.Delivered) boot as := by
  intro hAll
  have hTest : (run step boot twoFirst).any (fun s =>
      (s.step (.dispatch 0)).any fun s' =>
        !decide (s'.sent <+: s'.due.map MiplayCmd.control)) = true := by
    decide +kernel
  obtain ⟨s, s', hRun, hStep, hFound⟩ := exists_last_of_any hTest
  have hLast := (hAll (twoFirst ++ [.dispatch 0])).last hRun hStep
  simp [hLast.ordered] at hFound

end Commands

end EspMiplay.Dlna
