import EspMiplay.Miplay.SessionTable

/-!
# Who runs on which socket

The control tasks that are still between `handle_client` and the end of
`disconnect_cleanup` tell their sockets apart, as long as no descriptor number
is handed out that one of them carries (`LeavesRunningSockets`). Such a number
can only come up when something has closed the socket of a running task: the
close on a wrong HMAC, the inline fallback, or a stray close of a media task.
-/

namespace EspMiplay.Miplay

open Effect

/-- The number the kernel hands out in this action. -/
def Action.handsOut : Action → Option Int
  | .accept fd _ _ => some fd
  | .inline _ (.fd n) => some n
  | .rtsp _ (.fd n) => some n
  | _ => none

/-- No number is handed out that a running task carries as its socket. -/
def LeavesRunningSockets (w : World) (a : Action) : Prop :=
  ∀ fd, a.handsOut = some fd → ∀ i, Running w i → (w.sess i).sock ≠ fd

instance (w : World) (a : Action) : Decidable (LeavesRunningSockets w a) :=
  decidable_of_iff (∀ fd ∈ a.handsOut.toList, ∀ i, Running w i → (w.sess i).sock ≠ fd)
    (by simp [LeavesRunningSockets])

structure Roster (w : World) : Prop extends TaskTable w where
  apart : ∀ i j, Running w i → Running w j → (w.sess i).sock = (w.sess j).sock → i = j
  accepted : ∀ sock peerIp peerPort, w.tcp = .accepted sock peerIp peerPort →
    ∀ i, Running w i → (w.sess i).sock ≠ sock
  creating : ∀ i, w.tcp = .creating i → ∀ j, Running w j → (w.sess j).sock ≠ (w.sess i).sock

namespace Roster

variable {env : Env} {w w' : World}

/-- No row changes, and no task starts. -/
theorem of_rows (h : Roster w) (hTasks : TaskTable w')
    (hSock : ∀ i, (w'.sess i).sock = (w.sess i).sock)
    (hRunning : ∀ i, Running w' i → Running w i)
    (hAccepted : ∀ sock peerIp peerPort, w'.tcp = .accepted sock peerIp peerPort →
      ∀ i, Running w i → (w.sess i).sock ≠ sock)
    (hCreating : ∀ i, w'.tcp = .creating i → w.tcp = .creating i) : Roster w' where
  toTaskTable := hTasks
  apart i j hi hj := by
    rw [hSock, hSock]
    exact h.apart i j (hRunning i hi) (hRunning j hj)
  accepted sock peerIp peerPort hTcp i hi := by
    rw [hSock]
    exact hAccepted sock peerIp peerPort hTcp i (hRunning i hi)
  creating i hi j hj := by
    rw [hSock, hSock]
    exact h.creating i (hCreating i hi) j (hRunning j hj)

/-- The listener does not move. -/
theorem of_tcp (h : Roster w) (hTasks : TaskTable w')
    (hSock : ∀ i, (w'.sess i).sock = (w.sess i).sock)
    (hRunning : ∀ i, Running w' i → Running w i) (hTcp : w'.tcp = w.tcp) : Roster w' :=
  h.of_rows hTasks hSock hRunning (hTcp ▸ h.accepted) fun _ hi => hTcp ▸ hi

/-- The listener has nothing at hand afterwards. -/
theorem of_idle (h : Roster w) (hTasks : TaskTable w')
    (hSock : ∀ i, (w'.sess i).sock = (w.sess i).sock)
    (hRunning : ∀ i, Running w' i → Running w i) (hIdle : w'.tcp.Idle) : Roster w' :=
  h.of_rows hTasks hSock hRunning (fun _ _ _ hTcp => absurd hTcp (hIdle.2 _ _ _))
    fun i hi => absurd hi (hIdle.1 i).1

theorem running_of_ctl (hCtl : w'.ctl = w.ctl) (i : Slot) (h : Running w' i) : Running w i := by
  rwa [Running, ← hCtl]

theorem of_sameTable (h : Roster w) (hSame : SameTable w w') : Roster w' :=
  h.of_tcp (h.toTaskTable.of_sameTable hSame) hSame.sock (running_of_ctl hSame.ctl) hSame.tcp

/-- A connection is entered under a number that no running task carries. -/
theorem enter {i : Slot} {sock : Int} {peerIp : UInt32} {peerPort : UInt16} (h : Roster w)
    (hTcp : w.tcp = .accepted sock peerIp peerPort) (hFree : (w.sess i).inUse = false)
    (hTasks : TaskTable w')
    (hTo : w' =
      { w with
        sess := Function.update w.sess i (newSession sock peerIp peerPort)
        sessionCount := w.sessionCount + 1
        tcp := .creating i }) : Roster w' := by
  subst hTo
  have hOld := h.accepted sock peerIp peerPort hTcp
  have hne {j : Slot} (hj : Running w j) : j ≠ i := by
    rintro rfl
    simp [h.serving j hj.1] at hFree
  refine ⟨hTasks, fun j k hj hk => ?_, by simp, fun j hj k hk => ?_⟩
  · simpa [hne hj, hne hk] using h.apart j k hj hk
  · obtain rfl : i = j := by simpa using hj
    simpa [hne hk, newSession] using hOld k hk

/-- The task of an entered connection starts. -/
theorem start {i : Slot} (h : Roster w) (hTcp : w.tcp = .creating i) (hTasks : TaskTable w')
    (hRows : SameRows w w') (hCtl : w'.ctl = Function.update w.ctl i (some .created))
    (hIdle : w'.tcp.Idle) : Roster w' := by
  have hRun {j : Slot} (hij : j ≠ i) (hj : Running w' j) : Running w j := by
    simpa [Running, hCtl, hij] using hj
  refine ⟨hTasks, fun j k hj hk hSock => ?_, fun _ _ _ hj => absurd hj (hIdle.2 _ _ _),
    fun j hj => absurd hj (hIdle.1 j).1⟩
  rw [hRows.sock, hRows.sock] at hSock
  -- the new task's socket is none of the running ones'
  by_cases hji : j = i <;> by_cases hki : k = i
  · exact hji.trans hki.symm
  · exact absurd (hji ▸ hSock.symm) (h.creating i hTcp k (hRun hki hk))
  · exact absurd (hki ▸ hSock) (h.creating i hTcp j (hRun hji hj))
  · exact h.apart j k (hRun hji hj) (hRun hki hk) hSock

/-- **Step lemma.** -/
theorem step {a : Action} (h : Roster w) (hStep : Step env w a w')
    (hFresh : LeavesRunningSockets w a) : Roster w' := by
  have hTasks := h.toTaskTable.step hStep
  cases hStep.table h.toTaskTable with
  | same hSame => exact h.of_sameTable hSame
  | @task i pc hRun hRows hCtl hTcp =>
    refine h.of_tcp hTasks hRows.sock (fun j hj => ?_) hTcp
    by_cases hij : j = i
    · exact hij ▸ hRun
    · simpa [Running, hCtl, hij] using hj
  | @told i hCleaned hRows hCtl hTcp =>
    refine h.of_tcp hTasks hRows.sock (fun j hj => ?_) hTcp
    have hij : j ≠ i := by
      rintro rfl
      exact hj.2 false (by rw [hCtl, Function.update_self])
    simpa [Running, hCtl, hij] using hj
  | @accept fd peerIp peerPort hAct hRows hCtl hTcp =>
    refine h.of_rows hTasks hRows.sock (running_of_ctl hCtl) (fun sock p q hAcc => ?_) (by simp [hTcp])
    obtain ⟨rfl, -, -⟩ : fd = sock ∧ _ ∧ _ := by simpa [hTcp] using hAcc
    exact hFresh fd (by rw [hAct, Action.handsOut])
  | enter hAct hTcp hFree hTo => exact h.enter hTcp hFree hTasks hTo
  | reject hRows hCtl hTcp => exact h.of_idle hTasks hRows.sock (running_of_ctl hCtl) hTcp
  | start hTcp hRows hCtl hIdle => exact h.start hTcp hTasks hRows hCtl hIdle
  | drop hTcp hRows hCtl hTcp' =>
    exact h.of_rows hTasks hRows.sock (running_of_ctl hCtl) (by simp [hTcp']) (by simp [hTcp'])
  | @leave i hUse hSess hCount hBy =>
    have hSock (j : Slot) : (w'.sess j).sock = (w.sess j).sock := by
      rw [hSess]
      by_cases hij : j = i
      · subst hij
        simp
      · simp [hij]
    obtain ⟨-, hCtl, hIdle⟩ | ⟨-, hCtl, hTcp⟩ := hBy
    · exact h.of_idle hTasks hSock (running_of_ctl hCtl) hIdle
    · refine h.of_tcp hTasks hSock (fun j hj => ?_) hTcp
      have hij : j ≠ i := by
        rintro rfl
        exact hj.1 (by rw [hCtl, Function.update_self])
      simpa [Running, hCtl, hij] using hj

theorem initial (volume : Nat) : Roster (World.initial volume) := by
  refine ⟨.initial volume, ?_, ?_, ?_⟩
  all_goals simp [World.initial, Running]

end Roster

end EspMiplay.Miplay
