import EspMiplay.Miplay.Corrupt
import EspMiplay.Miplay.PauseGate
import EspMiplay.Miplay.RtspStart
import EspMiplay.Miplay.StreamSource

/-!
# One stream at a time

`miplay_try_restart_rtsp` is for a stream that was lost. Whether it was, it sees from
`media_session_opened`, which is the flag of the session the frame came over, and from
`s_rtsp_task`, which each RTSP task clears when it ends, whichever task it names by then.
A media task that is still receiving is in neither.

## Results

* `serveFrame_restarts` — a Resume or SetMediaInfo starts a stream exactly where it is not
  held back.
* `oneStream_along`     — every run, with the exact condition.
* `companion_replaces`  — a SetMediaInfo of another phone replaces the stream.
-/

namespace EspMiplay.Miplay

open Effect Transition

-- ---------------------------------------------------------------------------
-- The condition
-- ---------------------------------------------------------------------------

/-- A task of the current generation is there. -/
def World.Live (w : World) : Prop :=
  (∃ t r, w.rtspTasks t = some r ∧ r.arg.generation = w.rtsp.generation) ∨
    ∃ t m, w.mediaTasks t = some m ∧ m.generation = w.rtsp.generation

/-- The frames that `miplay_try_restart_rtsp` is called for -/
def AsksToRestart (frame : Bytes) : Prop :=
  frameCmd frame = cmdResume ∨ frameCmd frame = cmdSetMediaInfo

/-- A live stream is left to itself: no new generation, no other RTSP task. -/
def StreamLeft (w : World) (a : Action) (w' : World) : Prop :=
  ∀ i frame, a.received w = some (i, frame) → AsksToRestart frame → w.Live →
    w'.rtsp.generation = w.rtsp.generation ∧ w'.rtspTasks = w.rtspTasks

/-- There is nothing to restart, or the guard sees the stream: it was opened over the same
session, and there is a handle. -/
def HeldBack (w : World) (i : Slot) (frame : Bytes) : Prop :=
  frameCmd frame = cmdResume ∧ w.rtsp.restartPending = false ∨ w.rtsp.portSaved ≤ 0 ∨
    cstr w.rtsp.hostSaved = [] ∨ (w.sess i).sock < 0 ∨
      (w.sess i).regs.mediaSessionOpened = true ∧ w.rtsp.task.isSome = true

def LiveHeldBack (w : World) (a : Action) (_ : World) : Prop :=
  ∀ i frame, a.received w = some (i, frame) → AsksToRestart frame → w.Live → HeldBack w i frame

-- ---------------------------------------------------------------------------
-- What a restart looks at
-- ---------------------------------------------------------------------------

/-- All that a restart looks at, and the tasks. -/
structure StreamKept (w w' : World) : Prop where
  rtsp : w'.rtsp = w.rtsp
  opened : w'.regs.mediaSessionOpened = w.regs.mediaSessionOpened
  tasks : w'.rtspTasks = w.rtspTasks

instance : IsPreorder World StreamKept where
  refl _ := ⟨rfl, rfl, rfl⟩
  trans _ _ _ h h' :=
    ⟨h'.rtsp.trans h.rtsp, h'.opened.trans h.opened, h'.tasks.trans h.tasks⟩

theorem streamKept_switch (env : Env) (who : Owner) (i : Slot) (sock : Int) :
    SwitchRules env who i sock StreamKept where
  toSendRules := .of_log (fun _ _ => ⟨rfl, rfl, rfl⟩) (fun _ _ _ => ⟨rfl, rfl, rfl⟩)
    (fun _ _ _ _ _ => ⟨rfl, rfl, rfl⟩) (fun _ => ⟨rfl, rfl, rfl⟩)
  callback _ _ _ := ⟨rfl, rfl, rfl⟩
  route _ := ⟨rfl, rfl, rfl⟩
  save _ := ⟨rfl, rfl, rfl⟩
  media _ _ _ _ _ _ := ⟨rfl, rfl, rfl⟩

/-- A Resume restarts a stream only when the end of one is pending. -/
def restartsFor (cmd : UInt16) (sock : Int) (w : World) : Bool :=
  (cmd ≠ cmdResume || w.rtsp.restartPending) && restarts w sock

theorem StreamKept.restartsFor {w w' : World} (h : StreamKept w w') (cmd : UInt16) (sock : Int) :
    restartsFor cmd sock w' = restartsFor cmd sock w := by
  rw [EspMiplay.Miplay.restartsFor, EspMiplay.Miplay.restartsFor, h.rtsp,
    restarts_congr h.rtsp h.opened]

/-- Under the registers of the slot, a frame that restarts nothing is held back. -/
theorem not_restartsFor {w w' : World} {i : Slot} {frame : Bytes} (hRtsp : w'.rtsp = w.rtsp)
    (hOpened : w'.regs.mediaSessionOpened = (w.sess i).regs.mediaSessionOpened) :
    restartsFor (frameCmd frame) (w.sess i).sock w' = false ↔ HeldBack w i frame := by
  simp only [restartsFor, restarts, HeldBack, hRtsp, hOpened, Bool.and_eq_false_iff,
    Bool.or_eq_false_iff, decide_eq_false_iff_not, ne_eq, not_not, not_and_or, gt_iff_lt, not_lt,
    not_le]
  tauto

-- ---------------------------------------------------------------------------
-- Where a stream is started
-- ---------------------------------------------------------------------------

/-- A new generation begins exactly where `go` says so; elsewhere the tasks stay as well. -/
structure StartsWhere (go : World → Bool) (w w' : World) : Prop where
  started : go w = true → w'.rtsp.generation = w.rtsp.generation + 1
  left : go w = false → w'.rtsp.generation = w.rtsp.generation ∧ w'.rtspTasks = w.rtspTasks

namespace StartsWhere

variable {go : World → Bool} {α β : Type} {m : M α} {f : α → M β}

theorem behind (hGo : ∀ w w', StreamKept w w' → go w' = go w) (hm : Does StreamKept m)
    (hf : ∀ a, Does (StartsWhere go) (f a)) : Does (StartsWhere go) (m >>= f) := by
  intro w
  have hKept := hm w
  have hRest := hf (m.run w).1 (m.run w).2
  have hSame := hGo _ _ hKept
  constructor
  · intro hYes
    rw [← hKept.rtsp]
    exact hRest.started (hSame.trans hYes)
  · intro hNo
    obtain ⟨hGeneration, hTasks⟩ := hRest.left (hSame.trans hNo)
    exact ⟨hGeneration.trans (by rw [hKept.rtsp]), hTasks.trans hKept.tasks⟩

theorem before (hm : Does (StartsWhere go) m) (hf : ∀ a, Does StreamKept (f a)) :
    Does (StartsWhere go) (m >>= f) := by
  intro w
  have hFirst := hm w
  have hKept := hf (m.run w).1 (m.run w).2
  constructor
  · intro hYes
    rw [← hFirst.started hYes]
    exact congrArg Rtsp.generation hKept.rtsp
  · intro hNo
    obtain ⟨hGeneration, hTasks⟩ := hFirst.left hNo
    exact ⟨(congrArg Rtsp.generation hKept.rtsp).trans hGeneration, hKept.tasks.trans hTasks⟩

end StartsWhere

section Handlers

variable (env : Env) (i : Slot) {f : Frame}

/-- Behind the door the generation is a new one, whether or not there is memory. -/
theorem startRtspSession_generation {w : World} {sock : Int} {host : Bytes} {port : Int}
    (has : Bool) (key : Block) (force : Bool) (hGo : ¬w.RefusesStart sock host port force) :
    (w.after (miplayStartRtspSession env i sock host port has key force)).rtsp.generation =
      w.rtsp.generation + 1 := by
  obtain ⟨hArgs, hOpen⟩ := door_of_not_refuses hGo
  simp only [World.after, miplayStartRtspSession, run_bind, run_get, run_ite, if_neg hArgs,
    if_neg hOpen, run_modifyRtsp, run_modify, run_modifyRegs, run_oracle, run_pure, createRtspTask,
    run_newTask, run_setRtspTask, run_emit]
  -- no memory for the argument, or for the task, or enough for both
  split
  · rfl
  · split <;> rfl

theorem refusesStart_iff {w : World} {sock : Int} :
    w.RefusesStart sock w.rtsp.hostSaved w.rtsp.portSaved false ↔ restarts w sock = false := by
  simp only [restarts, World.RefusesStart, decide_eq_false_iff_not, not_and_or, gt_iff_lt, not_lt,
    not_le, ne_eq, not_not, true_and]
  tauto

theorem tryRestart_starts (sock : Int) :
    Does (StartsWhere fun w => restarts w sock) (miplayTryRestartRtsp env i sock) := by
  intro w
  have hStays (hNo : restarts w sock = false) : w.after (miplayTryRestartRtsp env i sock) = w := by
    simp only [World.after, miplayTryRestartRtsp, run_bind, run_get, run_ite, run_pure,
      startRtspSession_refused (refusesStart_iff.2 hNo), ite_self]
  refine ⟨fun hYes => ?_, fun hNo => ?_⟩
  · have hGo : ¬w.RefusesStart sock w.rtsp.hostSaved w.rtsp.portSaved false := by
      rw [refusesStart_iff, hYes]
      decide
    have hNew := startRtspSession_generation env i w.keys.has w.keys.key false hGo
    simp only [restarts, decide_eq_true_eq] at hYes
    obtain ⟨hPort, hHost, -, hOpen⟩ := hYes
    have hTarget : ¬(w.rtsp.portSaved ≤ 0 ∨ w.rtsp.hostSaved = []) := by
      rintro (hNone | hNone)
      · omega
      · exact hHost (by rw [hNone]; rfl)
    rw [miplayTryRestartRtsp, run_bind, run_get, run_ite, if_neg hTarget, run_ite,
      if_neg (by simpa using hOpen)]
    exact hNew
  · have hSame : ((miplayTryRestartRtsp env i sock).run w).2 = w := hStays hNo
    rw [hSame]
    exact ⟨rfl, rfl⟩

theorem handleSetMediaInfo_starts (hCmd : f.cmd = cmdSetMediaInfo) :
    Does (StartsWhere (restartsFor f.cmd f.sock)) (handleSetMediaInfo env i f) := by
  have hR := streamKept_switch env (.ctl i) i f.sock
  have hGo (w w' : World) (h : StreamKept w w') := h.restartsFor f.cmd f.sock
  have hTail : Does (StartsWhere (restartsFor f.cmd f.sock)) (do
      ack env i f cmdSetMediaInfoAck []
      miplayTryRestartRtsp env i f.sock) := by
    have hAlways : restartsFor f.cmd f.sock = fun w => restarts w f.sock := by
      funext w
      simp [restartsFor, hCmd, cmdSetMediaInfo, cmdResume]
    rw [hAlways] at hGo ⊢
    exact .behind hGo (ack_does hR.toSendRules _ _) fun _ => tryRestart_starts env i f.sock
  refine .behind hGo (hR.heapWindow _) fun heap => ?_
  dsimp only
  split
  · exact Does.ite (fun _ => .behind hGo (hR.emitMediaEvent _) fun _ => hTail) fun _ => hTail
  · exact hTail

theorem handleResume_starts (hCmd : f.cmd = cmdResume) :
    Does (StartsWhere (restartsFor f.cmd f.sock)) (handleResume env i f) := by
  have hR := streamKept_switch env (.ctl i) i f.sock
  have hGo (w w' : World) (h : StreamKept w w') := h.restartsFor f.cmd f.sock
  have hTail : Does StreamKept (do
      applyControl (playerEvent .playing)
      ack env i f (f.cmd + 1) []) :=
    (hR.applyControl _).bind fun _ => ack_does hR.toSendRules _ _
  refine .behind hGo (hR.setAudioPaused false) fun _ w => ?_
  rw [run_bind, run_get, run_ite]
  split
  · have hPending : w.rtsp.restartPending = true := ‹_›
    have hStart := StartsWhere.before (tryRestart_starts env i f.sock) (fun _ => hTail) w
    have hSame : restartsFor f.cmd f.sock w = restarts w f.sock := by
      simp [restartsFor, hPending]
    exact ⟨fun hYes => hStart.started (hSame ▸ hYes), fun hNo => hStart.left (hSame ▸ hNo)⟩
  · have hPending : ¬w.rtsp.restartPending = true := ‹_›
    have hKept := hTail w
    have hNo : restartsFor f.cmd f.sock w = false := by
      simp [restartsFor, hCmd, hPending]
    refine ⟨fun hYes => absurd hYes (by rw [hNo]; decide), fun _ => ?_⟩
    exact ⟨congrArg Rtsp.generation hKept.rtsp, hKept.tasks⟩

/-- The switch on a Resume or SetMediaInfo -/
theorem dispatchFrame_starts {h : Handler} (hOuter : f.outer ≠ 0x04)
    (hCmd : f.cmd = cmdResume ∨ f.cmd = cmdSetMediaInfo) :
    Does (StartsWhere (restartsFor f.cmd f.sock)) (dispatchFrame env i f h) := by
  have hReturn (m : M Unit) (hm : Does (StartsWhere (restartsFor f.cmd f.sock)) m) :
      Does (StartsWhere (restartsFor f.cmd f.sock)) (do m; return FrameEnd.next h) :=
    .before hm fun _ => Does.pure _
  rcases hCmd with hCmd | hCmd
  · have hResume := hReturn _ (handleResume_starts env i hCmd)
    rw [hCmd] at hResume
    rw [dispatchFrame, if_neg hOuter, dispatchCommand, hCmd]
    exact hResume
  · have hInfo := hReturn _ (handleSetMediaInfo_starts env i hCmd)
    rw [hCmd] at hInfo
    rw [dispatchFrame, if_neg hOuter, dispatchCommand, hCmd]
    exact hInfo

end Handlers

-- ---------------------------------------------------------------------------
-- A frame
-- ---------------------------------------------------------------------------

/-- The high byte of the command is the type of the frame, and not that of a stand-alone one. -/
theorem AsksToRestart.outer {frame : Bytes} (h : AsksToRestart frame) : outerType frame ≠ 0x04 := by
  intro hOuter
  have hHigh : 0x400 ≤ (frameCmd frame).toNat := by
    rw [frameCmd, show frame.getD 1 0 = 0x04 from hOuter, UInt16.toNat_or]
    exact Nat.left_le_or
  rcases h with hCmd | hCmd
  all_goals
    rw [hCmd] at hHigh
    exact absurd hHigh (by decide)

/-- Behind the switch the stream is left alone. -/
theorem serveFrame_rtsp (env : Env) (w : World) (i : Slot) (h : Handler) (frame : Bytes) (n : Nat) :
    let w' := (openFrame env w i frame).1.after (dispatchFrame env i (openFrame env w i frame).2 h)
    (w.after (serveFrame env i h frame n)).rtsp = w'.rtsp ∧
      (w.after (serveFrame env i h frame n)).rtspTasks = w'.rtspTasks := by
  intro w'
  rw [World.after, serveFrame, run_bind, handleFrame_run, show w' = World.after _ _ from rfl,
    World.after]
  rcases (dispatchFrame env i (openFrame env w i frame).2 h).run (openFrame env w i frame).1 with
    ⟨h' | r, w'⟩ <;> exact ⟨rfl, rfl⟩

/-- **Frames.** A Resume or SetMediaInfo that is not held back begins a new generation. -/
theorem serveFrame_restarts (env : Env) {w : World} {i : Slot} {h : Handler} {frame : Bytes}
    {n : Nat} (hAsks : AsksToRestart frame) :
    let w' := w.after (serveFrame env i h frame n)
    w'.rtsp.generation = w.rtsp.generation ∧ w'.rtspTasks = w.rtspTasks ↔ HeldBack w i frame := by
  intro w'
  obtain ⟨iv, tick, log, hOpened⟩ := openFrame_world env w i frame
  obtain ⟨hRtsp, hTasks⟩ := serveFrame_rtsp env w i h frame n
  have hStarts := dispatchFrame_starts env i (h := h) (f := (openFrame env w i frame).2)
    hAsks.outer hAsks (openFrame env w i frame).1
  have hHeld : restartsFor (frameCmd frame) (w.sess i).sock (openFrame env w i frame).1 = false ↔
      HeldBack w i frame := by
    apply not_restartsFor <;> rw [hOpened]
  have hBefore : (openFrame env w i frame).1.rtsp = w.rtsp ∧
      (openFrame env w i frame).1.rtspTasks = w.rtspTasks := by
    rw [hOpened]
    exact ⟨rfl, rfl⟩
  rw [← hHeld, hRtsp, hTasks]
  constructor
  · rintro ⟨hGeneration, -⟩
    by_contra hYes
    have hNew := hStarts.started (Bool.eq_true_of_not_eq_false hYes)
    rw [hBefore.1] at hNew
    exact absurd (hNew.symm.trans hGeneration) (by omega)
  · intro hNo
    have hLeft := hStarts.left hNo
    rw [hBefore.1, hBefore.2] at hLeft
    exact hLeft

/-- **Step lemma.** -/
theorem step_streamLeft {env : Env} {w w' : World} {a : Action} (hStep : Step env w a w') :
    StreamLeft w a w' ↔ LiveHeldBack w a w' := by
  have hElsewhere (hNone : a.received w = none) : StreamLeft w a w' ↔ LiveHeldBack w a w' := by
    refine iff_of_true (fun i frame hReceived => ?_) fun i frame hReceived => ?_
    all_goals
      rw [hNone] at hReceived
      cases hReceived
  cases hStep with
  | frame hCtl hMove hMux =>
    refine forall₂_congr fun j frame => forall_congr' fun hReceived => ?_
    refine forall₂_congr fun hAsks _ => ?_
    rw [received_frame hCtl hMove, Option.some_inj] at hReceived
    obtain ⟨rfl, rfl⟩ := Prod.mk.inj hReceived
    exact serveFrame_restarts env hAsks
  | _ => exact hElsewhere rfl

-- ---------------------------------------------------------------------------
-- Every run
-- ---------------------------------------------------------------------------

/-- **One stream at a time.** A live stream is left to itself in every run exactly where each
Resume and SetMediaInfo that finds one is held back. -/
theorem oneStream_along (env : Env) (volume : Nat) (as : List Action) :
    Along (step env) StreamLeft (World.initial volume) as ↔
      Along (step env) LiveHeldBack (World.initial volume) as := by
  refine along_iff_of_invariant (I := fun _ => True) (fun w a w' _ hStep => ?_)
    (fun _ _ _ _ _ _ => trivial) trivial
  exact step_streamLeft (step_cases hStep)

/-- A phone has opened a stream, and media information of another one has come in. -/
def companionInfoRun : List Action := companionStreamRun.dropLast

/-- The RTSP task of the stream is there, and the frame begins a new generation. -/
def cutOff (w w' : World) : Bool :=
  ((Action.frame 1).received w).any (fun p => p.1 = 1 ∧ frameCmd p.2 = cmdSetMediaInfo) &&
    (w.rtspTasks 0).any (fun r => r.arg.generation = w.rtsp.generation) &&
    w'.rtsp.generation ≠ w.rtsp.generation

set_option maxRecDepth 100000 in
theorem companionInfoRun_cuts :
    (run (step (Env.smooth plainCrypto)) (World.initial 50) companionInfoRun).any
      (fun w => (step (Env.smooth plainCrypto) w (.frame 1)).any (cutOff w)) = true := by
  decide +kernel

/-- The other phone has not lost the stream, it has none; the one that plays is cut off. -/
theorem companion_replaces :
    ¬∀ env volume as, Along (step env) StreamLeft (World.initial volume) as := by
  intro hAll
  obtain ⟨w, w', hRun, hStep, hCuts⟩ := exists_last_of_any companionInfoRun_cuts
  have hLeft := (hAll (Env.smooth plainCrypto) 50 (companionInfoRun ++ [.frame 1])).last hRun hStep
  simp only [cutOff, Bool.and_eq_true, decide_eq_true_eq, Option.any_eq_true] at hCuts
  obtain ⟨⟨⟨⟨j, frame⟩, hReceived, rfl, hCmd⟩, r, hTask, hCurrent⟩, hNew⟩ := hCuts
  exact hNew (hLeft 1 frame hReceived (.inr hCmd) (.inl ⟨0, r, hTask, hCurrent⟩)).1

end EspMiplay.Miplay
