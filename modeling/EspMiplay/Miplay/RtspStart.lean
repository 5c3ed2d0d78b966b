import EspMiplay.Miplay.Mutexes
import EspMiplay.Miplay.Service

/-!
# A start that fails

`miplay_start_rtsp_session` answers "false" in four places. Two of them are at
the door, before anything is written. The other two lie behind the commit: the
new target, the new generation and the cleared flags are in place when `malloc`
or the creation of the task fails, and nothing takes them back. The stream that
was running belongs to an older generation from then on.

## Results

* `startRtspSession_failed` — what a failed start leaves behind, exactly.
* `startRtspSession_keeps`  — a failed start changes nothing exactly when it is
  refused at the door, or there is memory for it to succeed.
* `mediaStep_superseded`, `tryRestart_blocked` — what becomes of the stream
  that was running, and of a later restart.
-/

namespace EspMiplay.Miplay

open Effect

-- ---------------------------------------------------------------------------
-- The condition
-- ---------------------------------------------------------------------------

/-- What a start commits: the variables of the running stream and its target. -/
structure Stream where
  generation : Nat
  paused : Bool
  opened : Bool
  restartPending : Bool
  hostSaved : Bytes
  portSaved : Int
  task : Option Nat
  deriving DecidableEq

def World.stream (w : World) : Stream where
  generation := w.rtsp.generation
  paused := w.mediaPaused
  opened := w.regs.mediaSessionOpened
  restartPending := w.rtsp.restartPending
  hostSaved := w.rtsp.hostSaved
  portSaved := w.rtsp.portSaved
  task := w.rtsp.task

/-- The stream as the six assignments leave it. -/
def Stream.committed (s : Stream) (host : Bytes) (port : Int) : Stream where
  generation := s.generation + 1
  paused := false
  opened := true
  restartPending := false
  hostSaved := strncpy 64 host
  portSaved := port
  task := s.task

/-- Turned down at the door: bad arguments, or a stream that is already running
and no order to replace it. -/
def World.RefusesStart (w : World) (sock : Int) (host : Bytes) (port : Int) (force : Bool) : Prop :=
  cstr host = [] ∨ port ≤ 0 ∨ sock < 0 ∨
    force = false ∧ w.regs.mediaSessionOpened = true ∧ w.rtsp.task.isSome = true

instance (w : World) (sock : Int) (host : Bytes) (port : Int) (force : Bool) :
    Decidable (w.RefusesStart sock host port force) := by
  unfold World.RefusesStart
  infer_instance

/-- There is memory for the argument of the task, and for the task. -/
def World.HasMemoryToStart (env : Env) (w : World) : Prop :=
  env.heap w.tick = true ∧ env.heap (w.tick + 1) = true

instance (env : Env) (w : World) : Decidable (w.HasMemoryToStart env) := by
  unfold World.HasMemoryToStart
  infer_instance

-- ---------------------------------------------------------------------------
-- What a start leaves behind
-- ---------------------------------------------------------------------------

section Start

variable {env : Env} {i : Slot} {w : World} {sock : Int} {host : Bytes} {port : Int} {has : Bool}
  {key : Block} {force : Bool}

theorem startRtspSession_refused (h : w.RefusesStart sock host port force) :
    (miplayStartRtspSession env i sock host port has key force).run w = (false, w) := by
  simp only [miplayStartRtspSession, run_bind, run_get, run_ite, run_pure]
  split
  · rfl
  · rename_i hArgs
    -- with good arguments only the stream that is already running is left
    have hRunning : force = false ∧ w.regs.mediaSessionOpened = true ∧
        w.rtsp.task.isSome = true := by
      rcases h with hHost | hPort | hSock | hRunning
      · exact absurd (.inl hHost) hArgs
      · exact absurd (.inr (.inl hPort)) hArgs
      · exact absurd (.inr (.inr hSock)) hArgs
      · exact hRunning
    rw [if_pos (by simp [hRunning])]

/-- The task is created if there is memory for it; if not, only the handle is gone. -/
theorem createRtspTask_outcome (env : Env) (i : Slot) (arg : RtspArg) :
    ((createRtspTask env i arg).run w).1 = env.heap w.tick ∧
      (env.heap w.tick = false →
        (w.after (createRtspTask env i arg)).stream = { w.stream with task := none }) := by
  simp only [World.after, createRtspTask, run_bind, run_modifyRtsp, run_oracle, run_ite, run_pure]
  by_cases hHeap : env.heap w.tick = true
  · simp [hHeap]
  · simp [hHeap, World.stream]

/-- The two tests at the door, as the code has them -/
theorem door_of_not_refuses (h : ¬w.RefusesStart sock host port force) :
    ¬(cstr host = [] ∨ port ≤ 0 ∨ sock < 0) ∧
      ¬(!force && w.regs.mediaSessionOpened && w.rtsp.task.isSome) = true := by
  simp only [World.RefusesStart, not_or, not_and] at h
  obtain ⟨hHost, hPort, hSock, hRunning⟩ := h
  rw [not_or, not_or]
  exact ⟨⟨hHost, hPort, hSock⟩, by simpa using hRunning⟩

/-- Behind the door the outcome depends on the memory alone: the answer, and what
is left of the handle. -/
theorem startRtspSession_committed (env : Env) (i : Slot) (has : Bool) (key : Block)
    (h : ¬w.RefusesStart sock host port force) :
    ((miplayStartRtspSession env i sock host port has key force).run w).1 =
        decide (w.HasMemoryToStart env) ∧
      (¬w.HasMemoryToStart env →
        (w.after (miplayStartRtspSession env i sock host port has key force)).stream =
          { w.stream.committed host port with
            task := if env.heap w.tick then none else w.rtsp.task }) := by
  obtain ⟨hArgs, hOpen⟩ := door_of_not_refuses h
  simp only [World.after, miplayStartRtspSession, run_bind, run_get, run_ite, run_pure, if_neg hArgs,
    if_neg hOpen, run_modifyRtsp, run_modify, run_modifyRegs, run_oracle, World.HasMemoryToStart]
  by_cases hBuf : env.heap w.tick = true
  · rw [if_neg (by simp [hBuf])]
    obtain ⟨hAnswer, hLeft⟩ := createRtspTask_outcome env i _
    refine ⟨?_, fun hNone => ?_⟩
    · rw [hAnswer]
      simp [hBuf]
    · simp only [hBuf, true_and, Bool.not_eq_true] at hNone
      rw [if_pos hBuf]
      exact hLeft hNone
  · rw [if_pos (by simp [hBuf])]
    simp [hBuf, World.stream, Stream.committed]

/-- **A failed start** is a refused one, or has everything committed; the handle is
cleared too when it is the task that could not be created. -/
theorem startRtspSession_failed
    (hFailed : ((miplayStartRtspSession env i sock host port has key force).run w).1 = false) :
    (w.after (miplayStartRtspSession env i sock host port has key force)).stream =
      if w.RefusesStart sock host port force then w.stream
      else
        { w.stream.committed host port with
          task := if env.heap w.tick then none else w.rtsp.task } := by
  by_cases hRefuse : w.RefusesStart sock host port force
  · rw [if_pos hRefuse, World.after, startRtspSession_refused hRefuse]
  · obtain ⟨hAnswer, hLeft⟩ := startRtspSession_committed env i has key hRefuse
    rw [hAnswer, decide_eq_false_iff_not] at hFailed
    rw [if_neg hRefuse, hLeft hFailed]

end Start

/-- **Failed starts change nothing** exactly where they are refused at the door, or
where there is the memory to succeed. -/
theorem startRtspSession_keeps (env : Env) (i : Slot) (w : World) (sock : Int) (host : Bytes)
    (port : Int) (has : Bool) (key : Block) (force : Bool) :
    (((miplayStartRtspSession env i sock host port has key force).run w).1 = false →
        (w.after (miplayStartRtspSession env i sock host port has key force)).stream = w.stream) ↔
      w.RefusesStart sock host port force ∨ w.HasMemoryToStart env := by
  by_cases hRefuse : w.RefusesStart sock host port force
  · refine iff_of_true (fun _ => ?_) (.inl hRefuse)
    rw [World.after, startRtspSession_refused hRefuse]
  obtain ⟨hAnswer, hLeft⟩ := startRtspSession_committed env i has key hRefuse
  by_cases hMemory : w.HasMemoryToStart env
  · refine iff_of_true (fun hFailed => ?_) (.inr hMemory)
    rw [hAnswer, decide_eq_false_iff_not] at hFailed
    exact absurd hMemory hFailed
  · refine iff_of_false (fun hKeeps => ?_) (by simp [hRefuse, hMemory])
    -- the generation alone tells the two streams apart
    have hSame := hKeeps (by rw [hAnswer, decide_eq_false_iff_not]; exact hMemory)
    rw [hLeft hMemory] at hSame
    have hGeneration : w.rtsp.generation + 1 = w.rtsp.generation :=
      congrArg Stream.generation hSame
    omega

/-- The stream to 10.0.0.2 has been closed by the phone, whose control connection is
still up: the cleanup has left a restart pending. -/
def awaitingRestart : World :=
  { World.initial 50 with
    rtsp :=
      { (World.initial 50).rtsp with
        generation := 1, hostSaved := ascii "10.0.0.2", portSaved := 7236, restartPending := true } }

/-- The restart fails for want of memory: it is pending no more, and the stream
counts as opened. -/
theorem startRtspSession_not_kept :
    ¬∀ (env : Env) (i : Slot) (w : World) (sock : Int) (host : Bytes) (port : Int) (has : Bool)
        (key : Block) (force : Bool),
      ((miplayStartRtspSession env i sock host port has key force).run w).1 = false →
        (w.after (miplayStartRtspSession env i sock host port has key force)).stream = w.stream := by
  intro hAll
  have hKept := hAll (Env.starved 0) 0 awaitingRestart 54 (ascii "10.0.0.2") 7236 false Block.zero false
    (by decide +kernel)
  revert hKept
  decide +kernel

-- ---------------------------------------------------------------------------
-- The stream that was running
-- ---------------------------------------------------------------------------

/-- A media task of another generation leaves its loop the next time it looks. -/
theorem mediaStep_superseded (env : Env) (n : Nat) {m : MediaRun} (o : Outcome) {w : World}
    (hPc : m.pc = .loop ∨ m.pc = .recv) (hOld : w.rtsp.generation ≠ m.generation) :
    (mediaStep env n m o).run w = (some { m with pc := .stop }, w) := by
  rcases hPc with hPc | hPc
  all_goals simp [mediaStep, hPc, hOld]

/-- An opened stream with a handle is not restarted. -/
theorem tryRestart_blocked (env : Env) (i : Slot) (sock : Int) {w : World}
    (hOpened : w.regs.mediaSessionOpened = true) (hTask : w.rtsp.task.isSome = true) :
    w.after (miplayTryRestartRtsp env i sock) = w := by
  simp only [World.after, miplayTryRestartRtsp, run_bind, run_get, run_ite, run_pure]
  split
  · rfl
  · rw [if_pos (by simp [hOpened, hTask])]

/-- When `malloc` fails with a stream running, the media tasks of that stream are
about to stop, and no Resume or SetMediaInfo starts another. -/
theorem startRtspSession_strands (env : Env) (i : Slot) {w : World} {sock : Int} {host : Bytes}
    {port : Int} (has : Bool) (key : Block) {force : Bool}
    (hDoor : ¬w.RefusesStart sock host port force) (hNone : env.heap w.tick = false)
    (hTask : w.rtsp.task.isSome = true) :
    let w' := w.after (miplayStartRtspSession env i sock host port has key force)
    (∀ n (m : MediaRun) o, m.generation = w.rtsp.generation → m.pc = .loop ∨ m.pc = .recv →
        (mediaStep env n m o).run w' = (some { m with pc := .stop }, w')) ∧
      ∀ j sock', w'.after (miplayTryRestartRtsp env j sock') = w' := by
  intro w'
  have hMemory : ¬w.HasMemoryToStart env := by
    intro h
    rw [World.HasMemoryToStart, hNone] at h
    cases h.1
  have hLeft := (startRtspSession_committed env i has key hDoor).2 hMemory
  rw [hNone] at hLeft
  have hGeneration : w'.rtsp.generation = w.rtsp.generation + 1 := congrArg Stream.generation hLeft
  have hOpened : w'.regs.mediaSessionOpened = true := congrArg Stream.opened hLeft
  have hHandle : w'.rtsp.task = w.rtsp.task := congrArg Stream.task hLeft
  refine ⟨fun n m o hOld hPc => mediaStep_superseded env n o hPc ?_, fun j sock' => ?_⟩
  · rw [hGeneration, hOld]
    omega
  · exact tryRestart_blocked env j sock' hOpened (by rw [hHandle]; exact hTask)

end EspMiplay.Miplay
