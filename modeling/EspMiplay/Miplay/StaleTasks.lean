import EspMiplay.Lib.Transition
import EspMiplay.Miplay.Effects

/-!
# A stream that has been replaced

The tasks of a stream carry its `s_media_generation`, and those of an older one are to
leave the stream alone that has taken its place. The receive loops look at the generation
and so do the callbacks of a media task and `miplay_mark_media_session_closed`. The rest
does not: the receive buffer of `rtsp_read_msg`, the data sockets with their ports, the
pending restart and the handle of the RTSP task are process-wide, and a task that is late
resets, closes and clears what the new stream has put there.

## Results

* `rtspRunStep_spares`, `mediaStep_spares`, `imageStep_spares` — the steps of the three
  tasks that change nothing the running stream uses.
* `stale_along`          — every run.
* `stale_clears_handle`  — the second OPEN of a phone loses its handle to the first one.
-/

namespace EspMiplay.Miplay

open Effect Transition

-- ---------------------------------------------------------------------------
-- What a stream uses
-- ---------------------------------------------------------------------------

/-- What the running stream uses. -/
@[ext]
structure InUse where
  task : Option Nat
  buf : RtspBuf
  imageSock : Int
  multiSock : Int
  imagePort : Nat
  multiPort : Nat
  restartPending : Bool
  /-- the working copy of `media_session_opened` -/
  opened : Bool
  openedOf : Slot → Bool

def World.inUse (w : World) : InUse where
  task := w.rtsp.task
  buf := w.rtsp.buf
  imageSock := w.rtsp.imageSock
  multiSock := w.rtsp.multiSock
  imagePort := w.rtsp.imagePort
  multiPort := w.rtsp.multiPort
  restartPending := w.rtsp.restartPending
  opened := w.regs.mediaSessionOpened
  openedOf i := (w.sess i).regs.mediaSessionOpened

/-- The generation of the task whose step this is. An inline run is part of a control
task: it keeps `s_session_mux`, and no frame begins another generation meanwhile. -/
def Action.generation (w : World) : Action → Option Nat
  | .rtsp n _ => (w.rtspTasks n).map fun r => r.arg.generation
  | .media n _ => (w.mediaTasks n).map fun m => m.generation
  | .image n _ => (w.imageTasks n).map fun t => t.generation
  | _ => none

/-- A step of a task whose generation is over. -/
def Action.Stale (w : World) (a : Action) : Prop :=
  ∃ g, a.generation w = some g ∧ g ≠ w.rtsp.generation

-- ---------------------------------------------------------------------------
-- The condition
-- ---------------------------------------------------------------------------

/-- The bytes a scan leaves in the buffer. -/
def RtspScan.left : RtspScan → Bytes
  | .more buf _ => buf
  | .message _ _ rest => rest
  | .fail buf _ => buf

def Outcome.Connects : Outcome → Prop
  | .connected _ _ => True
  | _ => False

/-- There is no receive buffer for `rtsp_read_msg_reset` to free. -/
def World.NoBuffer (w : World) : Prop := w.rtsp.buf = { allocated := false, used := [] }

/-- `rtsp_read_msg` finds no byte to take out of the buffer, and allocates none. -/
def World.KeepsBuffer (env : Env) (w : World) (inBody : Bool) : Prop :=
  if w.rtsp.buf.allocated then (rtspResume inBody w.rtsp.buf.used).left = w.rtsp.buf.used
  else env.heap w.tick = false

/-- There are no data sockets to give up or to hand over. -/
def World.NoDataSockets (w : World) : Prop := w.rtsp.imageSock = -1 ∧ w.rtsp.multiSock = -1

def World.NoPorts (w : World) : Prop := w.rtsp.imagePort = 0 ∧ w.rtsp.multiPort = 0

/-- The step of a run that finds nothing of the running stream to write over. -/
def RtspRun.Spares (env : Env) (w : World) (r : RtspRun) (o : Outcome) : Prop :=
  match r.pc with
  | .start => w.NoBuffer
  | .connect _ => o.Connects → w.NoBuffer
  | .buffers => env.heap w.tick = true → env.heap (w.tick + 1) = true → w.NoBuffer
  | .read => w.KeepsBuffer env r.inBody
  | .keepRead => w.running = true → w.KeepsBuffer env r.inBody
  | .recv | .keepRecv => ∀ bytes packet, o ≠ .data bytes packet
  | .imageSocket => o = .fd w.rtsp.imageSock
  | .multiSocket => o = .fd w.rtsp.multiSock
  | .imageConnect => o.Connects ∨ w.NoDataSockets
  | .multiConnect =>
    match o with
    | .connected imagePort multiPort =>
      w.rtsp.imagePort = imagePort ∧ w.rtsp.multiPort = multiPort
    | _ => w.NoDataSockets
  | .imageTask => w.rtsp.imageSock = -1
  | .launch =>
    2 ≤ r.state → env.heap w.tick = true → env.heap (w.tick + 1) = true → w.NoDataSockets
  | .closeImage => w.rtsp.imageSock < 0
  | .closeMulti => w.rtsp.multiSock < 0
  | .clearPorts => w.NoPorts
  | .setPending => w.rtsp.restartPending = true
  -- the wrapper clears the handle
  | .done => w.rtsp.task = none
  | .socket _ | .loop | .closeRtsp | .markClosed | .checkPending => True

/-- The same for a media task: of its way out only the end is in question. -/
def MediaRun.Spares (w : World) (m : MediaRun) : Prop :=
  match m.pc with
  | .closeImage => w.rtsp.imageSock < 0
  | .clearPorts => w.NoPorts
  | _ => True

/-- A task that spares the running stream; an image task always does. -/
def Action.Spares (env : Env) (w : World) : Action → Prop
  | .rtsp n o => ∀ r, w.rtspTasks n = some r → r.Spares env w o
  | .media n _ => ∀ m, w.mediaTasks n = some m → m.Spares w
  | _ => True

-- ---------------------------------------------------------------------------
-- What is left alone
-- ---------------------------------------------------------------------------

/-- Nothing changes that a stream uses. -/
def SameInUse (w w' : World) : Prop := w'.inUse = w.inUse

instance : IsPreorder World SameInUse where
  refl _ := rfl
  trans _ _ _ h h' := h'.trans h

section Same

variable (who : Owner)

theorem sameInUse_useFd (fd : Int) : Does SameInUse (useFd who fd) := fun _ => rfl

theorem sameInUse_closeFd (fd : Int) : Does SameInUse (closeFd who fd) := fun _ => rfl

theorem sameInUse_oracle {α : Type} (f : Nat → α) : Does SameInUse (oracle f) := fun _ => rfl

/-- A closed session is marked for the sake of its own generation alone. -/
theorem markClosed_stale {w : World} {sock : Int} {generation : Nat}
    (hStale : generation ≠ w.rtsp.generation) :
    w.after (miplayMarkMediaSessionClosed sock generation) = w := by
  rw [World.after, miplayMarkMediaSessionClosed, run_bind, run_get, run_ite, if_neg hStale.symm,
    run_pure]

end Same

-- ---------------------------------------------------------------------------
-- The receive buffer
-- ---------------------------------------------------------------------------

theorem sameInUse_buf {w : World} {buf : RtspBuf} :
    SameInUse w { w with rtsp := { w.rtsp with buf := buf } } ↔ buf = w.rtsp.buf := by
  simp [SameInUse, World.inUse]

theorem sameInUse_used {w : World} {used : Bytes} :
    SameInUse w { w with rtsp := { w.rtsp with buf := { w.rtsp.buf with used := used } } } ↔
      used = w.rtsp.buf.used := by
  rw [sameInUse_buf]
  exact ⟨congrArg RtspBuf.used, fun h => by rw [h]⟩

theorem sameInUse_ports {w : World} {p q : Nat} :
    SameInUse w { w with rtsp := { w.rtsp with imagePort := p, multiPort := q } } ↔
      w.rtsp.imagePort = p ∧ w.rtsp.multiPort = q := by
  simp only [SameInUse, World.inUse, InUse.mk.injEq, true_and, and_true]
  exact and_congr eq_comm eq_comm

theorem sameInUse_sockets {w : World} :
    SameInUse w { w with rtsp := { w.rtsp with imageSock := -1, multiSock := -1 } } ↔
      w.NoDataSockets := by
  simp only [SameInUse, World.inUse, InUse.mk.injEq, true_and, and_true]
  exact and_congr eq_comm eq_comm

/-- Only the buffer is touched by `rtsp_read_msg`. -/
theorem readMsg_spares (env : Env) (w : World) (inBody : Bool) :
    SameInUse w (w.after (rtspReadMsg env inBody)) ↔ w.KeepsBuffer env inBody := by
  unfold World.KeepsBuffer
  by_cases hAlloc : w.rtsp.buf.allocated = true
  · have hScan : w.after (rtspReadMsg env inBody) =
        { w with rtsp := { w.rtsp with buf :=
          { w.rtsp.buf with used := (rtspResume inBody w.rtsp.buf.used).left } } } := by
      simp only [World.after, rtspReadMsg, run_bind, run_get, run_ite]
      rw [if_neg (by simp [hAlloc])]
      cases rtspResume inBody w.rtsp.buf.used <;> rfl
    rw [hScan, sameInUse_used, if_pos hAlloc]
  rw [if_neg hAlloc]
  cases hHeap : env.heap w.tick with
  | false =>
    simp [SameInUse, World.inUse, World.after, rtspReadMsg, hAlloc, hHeap]
  | true =>
    have hNew : (w.after (rtspReadMsg env inBody)).rtsp.buf.allocated = true := by
      simp only [World.after, rtspReadMsg, run_bind, run_get, run_ite]
      rw [if_pos (by simp [hAlloc]), run_oracle, if_neg (by simp [hHeap])]
      cases hScan : rtspResume inBody [] <;> simp [hScan]
    refine iff_of_false (fun hSame => hAlloc ?_) (by decide)
    rw [← hNew]
    exact (congrArg (fun u : InUse => u.buf.allocated) hSame).symm

-- ---------------------------------------------------------------------------
-- The steps of a stale task
-- ---------------------------------------------------------------------------

section Steps

variable {env : Env} {who : Owner} {w : World}

/-- What comes behind and leaves the stream alone may be left out. -/
theorem sameInUse_bind {α β : Type} {m : M α} {f : α → M β} (hf : ∀ a, Does SameInUse (f a)) :
    SameInUse w (w.after (m >>= f)) ↔ SameInUse w (w.after m) := by
  have hEnd : (w.after (m >>= f)).inUse = (w.after m).inUse := hf _ _
  rw [SameInUse, SameInUse, hEnd]

theorem sameInUse_get {α : Type} {f : World → M α} :
    SameInUse w (w.after (get >>= f)) ↔ SameInUse w (w.after (f w)) := Iff.rfl

theorem reset_spares : SameInUse w (w.after rtspReadMsgReset) ↔ w.NoBuffer :=
  sameInUse_buf.trans eq_comm

theorem received_spares {r : RtspRun} {again gone : RtspPc} {keepalive : Bool} {o : Outcome}
    (hBytes : ∀ bytes packet, o = .data bytes packet → bytes ≠ []) :
    SameInUse w (w.after (rtspReceived who r again gone keepalive o)) ↔
      ∀ bytes packet, o ≠ .data bytes packet := by
  cases o with
  | data bytes packet =>
    refine iff_of_false (fun hSame => hBytes bytes packet rfl ?_) fun h => h bytes packet rfl
    simpa [SameInUse, World.inUse, World.after, rtspReceived, rtspAppend, useFd] using
      congrArg (fun u : InUse => u.buf.used) hSame
  | _ =>
    refine iff_of_true (by rfl) fun bytes packet hData => ?_
    cases hData

theorem closeImageSock_spares :
    SameInUse w (w.after (closeImageSock who)) ↔ w.rtsp.imageSock < 0 := by
  simp only [closeImageSock, World.after, run_bind, run_get, run_ite]
  split
  · simp [SameInUse, World.inUse, closeFd]
    omega
  · exact iff_of_true rfl (by omega)

theorem closeMultiSock_spares :
    SameInUse w (w.after (closeMultiSock who)) ↔ w.rtsp.multiSock < 0 := by
  simp only [closeMultiSock, World.after, run_bind, run_get, run_ite]
  split
  · simp [SameInUse, World.inUse, closeFd]
    omega
  · exact iff_of_true rfl (by omega)

/-- Both data sockets are given up. -/
theorem closeData_spares (r : RtspRun) :
    SameInUse w (w.after do
      let w ← get
      closeFd who w.rtsp.imageSock
      closeFd who w.rtsp.multiSock
      modifyRtsp fun s => { s with imageSock := -1, multiSock := -1 }
      rtspAnswer who r) ↔ w.NoDataSockets := by
  refine Iff.trans ?_ sameInUse_sockets
  rfl

theorem startImageDrain_spares (generation : Nat) :
    SameInUse w (w.after (startImageDrain env who generation)) ↔ w.rtsp.imageSock = -1 := by
  simp only [startImageDrain, World.after, run_bind, run_get, run_oracle, run_ite]
  split <;> simp [SameInUse, World.inUse, closeFd, eq_comm]

/-- A media task takes both data sockets with it. -/
theorem launchMedia_spares (r : RtspRun) :
    SameInUse w (w.after (launchMedia env r)) ↔
      (env.heap w.tick = true → env.heap (w.tick + 1) = true → w.NoDataSockets) := by
  simp only [launchMedia, World.after, run_bind, run_get, run_oracle, run_ite, Bool.and_eq_true]
  split
  · rename_i hHeap
    simp only [hHeap, forall_const]
    exact Iff.trans Iff.rfl sameInUse_sockets
  · rename_i hHeap
    exact iff_of_true rfl fun h h' => absurd ⟨h, h'⟩ hHeap

/-- A data socket whose number goes into a process-wide variable. -/
theorem dataSocket_spares {n : Int} {α : Type} {f : Rtsp → Rtsp} {m : M α}
    (hm : Does SameInUse m) :
    SameInUse w (w.after do
      if n ≥ 0 then openFd who n
      modifyRtsp f
      m) ↔ SameInUse w { w with rtsp := f w.rtsp } := by
  have hEnd : (w.after do
      if n ≥ 0 then openFd who n
      modifyRtsp f
      m).inUse = ({ w with rtsp := f w.rtsp } : World).inUse := by
    dsimp only
    split
    all_goals exact hm _
  rw [SameInUse, SameInUse, hEnd]

theorem buffers_spares (r : RtspRun) :
    SameInUse w (w.after do
      if (← oracle env.heap) && (← oracle env.heap) then
        rtspReadMsgReset
        return r.goto .loop
      else
        closeFd who r.sock
        return { r with sock := -1, pc := .closeRtsp }) ↔
      (env.heap w.tick = true → env.heap (w.tick + 1) = true → w.NoBuffer) := by
  simp only [World.after, run_bind, run_oracle, run_ite, Bool.and_eq_true]
  split
  · rename_i hHeap
    simp only [hHeap, forall_const]
    exact Iff.trans Iff.rfl reset_spares
  · rename_i hHeap
    exact iff_of_true rfl fun h h' => absurd ⟨h, h'⟩ hHeap

theorem sameInUse_handleKeepalive (r : RtspRun) (headers : Bytes) :
    Does SameInUse (rtspHandleKeepalive who r headers) := by
  refine Does.ite (fun _ => Does.pure _) fun _ => (sameInUse_useFd who _).bind fun _ => ?_
  exact Does.ite (fun _ => Does.bind (fun _ => rfl) fun _ => Does.pure _) fun _ => Does.pure _

/-- **A stale RTSP task** leaves the stream alone exactly in the steps that find nothing
of it to write over. -/
theorem rtspRunStep_spares (r : RtspRun) {o : Outcome} (hFits : o.fits w r.pc)
    (hStale : r.arg.generation ≠ w.rtsp.generation) (hDone : r.pc ≠ .done) :
    SameInUse w (w.after (rtspRunStep env who r o)) ↔ r.Spares env w o := by
  unfold RtspRun.Spares rtspRunStep
  cases hPc : r.pc with
  | start => exact (sameInUse_bind fun _ => Does.pure _).trans reset_spares
  | socket attempt =>
    refine iff_of_true (Does.get_bind_at ?_) trivial
    split
    · rfl
    cases o with
    | fd n =>
      dsimp only
      split <;> rfl
    | _ => rfl
  | connect attempt =>
    cases o with
    | connected p q =>
      refine (sameInUse_bind fun _ => Does.pure _).trans (reset_spares.trans ?_)
      simp [Outcome.Connects]
    | _ => exact iff_of_true rfl (by simp [Outcome.Connects])
  | buffers => exact buffers_spares r
  | loop | checkPending =>
    refine iff_of_true (Does.get_bind_at ?_) trivial
    split <;> rfl
  | read =>
    refine (sameInUse_bind fun result => ?_).trans (readMsg_spares env w r.inBody)
    cases result with
    | block => exact Does.pure _
    | message headers body => exact handleHandshake_does (sameInUse_useFd who) _ _ _
    | failed setsErrno => exact Does.ite (fun _ => Does.pure _) fun _ => Does.pure _
  | recv | keepRecv =>
    rw [hPc] at hFits
    refine received_spares fun bytes packet hData => ?_
    rw [hData] at hFits
    exact hFits.1
  | imageSocket =>
    rw [hPc] at hFits
    cases o with
    | fd n =>
      refine (dataSocket_spares (Does.pure _)).trans ?_
      simp [SameInUse, World.inUse]
    | _ => exact hFits.elim
  | multiSocket =>
    rw [hPc] at hFits
    cases o with
    | fd n =>
      refine (dataSocket_spares (Does.get.bind fun _ => Does.ite (fun _ => Does.pure _)
        fun _ => answer_does (sameInUse_useFd who) r)).trans ?_
      simp [SameInUse, World.inUse]
    | _ => exact hFits.elim
  | imageConnect =>
    cases o with
    | connected p q => exact iff_of_true rfl (.inl trivial)
    | _ => exact (closeData_spares r).trans (by simp [Outcome.Connects])
  | multiConnect =>
    cases o with
    | connected p q => exact sameInUse_ports
    | _ => exact closeData_spares r
  | imageTask =>
    exact (sameInUse_bind fun _ => answer_does (sameInUse_useFd who) r).trans
      (startImageDrain_spares _)
  | launch =>
    dsimp only
    split
    · rename_i hState
      refine (sameInUse_bind fun _ => Does.pure _).trans ((launchMedia_spares r).trans ?_)
      simp [hState]
    · exact iff_of_true rfl (by omega)
  | keepRead =>
    rw [sameInUse_get]
    split
    · rename_i hRun
      exact iff_of_true rfl (by simp_all)
    · rename_i hRun
      refine (sameInUse_bind fun result => ?_).trans ((readMsg_spares env w r.inBody).trans ?_)
      · cases result with
        | block => exact Does.pure _
        | message headers body => exact sameInUse_handleKeepalive _ _
        | failed setsErrno => exact Does.ite (fun _ => Does.pure _) fun _ => Does.pure _
      · simp_all
  | closeRtsp =>
    refine iff_of_true ?_ trivial
    dsimp only
    split <;> rfl
  | closeImage => exact (sameInUse_bind fun _ => Does.pure _).trans closeImageSock_spares
  | closeMulti => exact (sameInUse_bind fun _ => Does.pure _).trans closeMultiSock_spares
  | clearPorts => exact sameInUse_ports
  | markClosed =>
    refine iff_of_true ?_ trivial
    change SameInUse w (w.after (miplayMarkMediaSessionClosed _ _))
    rw [markClosed_stale hStale]
    rfl
  | setPending =>
    simp only [SameInUse, World.inUse, World.after, run_bind, run_modifyRtsp, run_pure,
      InUse.mk.injEq, true_and, and_true]
    exact eq_comm
  | done => exact absurd hPc hDone

/-- **A stale media task** does so up to the end of its cleanup. -/
theorem mediaStep_spares {n : Nat} (m : MediaRun) (o : Outcome)
    (hStale : m.generation ≠ w.rtsp.generation) :
    SameInUse w (w.after (mediaStep env n m o)) ↔ m.Spares w := by
  unfold MediaRun.Spares mediaStep
  cases hPc : m.pc with
  | start => exact iff_of_true rfl trivial
  | alloc =>
    refine iff_of_true ((sameInUse_oracle _).bind (fun heap => Does.ite (fun _ => Does.pure _)
      fun _ => Does.ite (fun _ => ?_) fun _ => Does.pure _) w) trivial
    exact (sameInUse_closeFd _ _).bind fun _ => Does.pure _
  | loop | recv =>
    -- the generation is looked at
    refine iff_of_true (Does.get_bind_at ?_) trivial
    rw [if_pos (by simp [hStale.symm])]
    rfl
  | stop =>
    refine iff_of_true (Does.get_bind_at ?_) trivial
    rw [if_neg hStale.symm]
    rfl
  | markClosed =>
    refine iff_of_true ?_ trivial
    change SameInUse w (w.after (miplayMarkMediaSessionClosed _ _))
    rw [markClosed_stale hStale]
    rfl
  | emitStopped =>
    refine iff_of_true (Does.get_bind_at ?_) trivial
    rw [if_neg fun h => hStale h.2.symm]
    rfl
  | closeMedia => exact iff_of_true rfl trivial
  | closeRtsp =>
    refine iff_of_true ?_ trivial
    dsimp only
    split <;> rfl
  | closeImage => exact (sameInUse_bind fun _ => Does.pure _).trans closeImageSock_spares
  | clearPorts => exact sameInUse_ports

/-- **An image task** has nothing but its own socket. -/
theorem imageStep_spares (n : Nat) (t : ImageRun) (o : Outcome) :
    Does SameInUse (imageStep n t o) := by
  refine Does.ite (fun _ => (sameInUse_closeFd _ _).bind fun _ => Does.pure _) fun _ =>
    Does.get.bind fun w => Does.ite (fun _ => Does.pure _) fun _ =>
      (sameInUse_useFd _ _).bind fun _ => ?_
  cases o <;> exact Does.pure _

/-- A step of a stale task. -/
theorem Step.spares {a : Action} {w' : World} (hStep : Step env w a w') (hStale : a.Stale w) :
    SameInUse w w' ↔ a.Spares env w := by
  obtain ⟨g, hGeneration, hOld⟩ := hStale
  cases hStep with
  | rtspDone hTask hPc =>
    rename_i n r o
    have hSpares : Action.Spares env w (.rtsp n o) ↔ w.rtsp.task = none := by
      simp only [Action.Spares, hTask, Option.some.injEq, forall_eq', RtspRun.Spares, hPc]
    rw [hSpares]
    simp only [SameInUse, World.inUse, World.after, run_bind, run_modifyRtsp, run_setRtspTask,
      InUse.mk.injEq, and_true]
    exact eq_comm
  | rtsp hTask hPc hMark hFits =>
    rename_i n r o
    have hSpares : Action.Spares env w (.rtsp n o) ↔ r.Spares env w o := by
      simp only [Action.Spares, hTask, Option.some.injEq, forall_eq']
    rw [Action.generation, hTask] at hGeneration
    obtain rfl := Option.some.inj hGeneration
    rw [hSpares, ← rtspRunStep_spares r hFits hOld hPc]
    exact sameInUse_bind fun _ _ => rfl
  | media hTask hMark =>
    rename_i n m o
    have hSpares : Action.Spares env w (.media n o) ↔ m.Spares w := by
      simp only [Action.Spares, hTask, Option.some.injEq, forall_eq']
    rw [Action.generation, hTask] at hGeneration
    obtain rfl := Option.some.inj hGeneration
    rw [hSpares, ← mediaStep_spares m o hOld]
    exact sameInUse_bind fun _ _ => rfl
  | image hTask =>
    refine iff_of_true ?_ trivial
    rename_i n t o
    refine (sameInUse_bind fun _ => ?_).2 (imageStep_spares n t o w)
    exact fun _ => rfl
  | _ => cases hGeneration

end Steps

-- ---------------------------------------------------------------------------
-- Runs
-- ---------------------------------------------------------------------------

/-- **Every run.** Stale tasks leave the running stream alone, exactly when each of their
steps finds nothing of it to write over. -/
theorem stale_along (env : Env) (volume : Nat) (as : List Action) :
    Along (step env) (fun w a w' => a.Stale w → w'.inUse = w.inUse) (World.initial volume) as ↔
      Along (step env) (fun w a _ => a.Stale w → a.Spares env w) (World.initial volume) as :=
  along_iff_of_invariant (I := fun _ => True)
    (fun _ _ _ _ hStep => forall_congr' fun hStale => (step_cases hStep).spares hStale)
    (fun _ _ _ _ _ _ => trivial) trivial

/-- The phone opens the same stream twice; the IV of the second container is the one that
the first has left. -/
def openTwice : List Action :=
  let key := Block.ofBytes (hexToLower Block.zero.toList)
  let target := ascii "wfd://10.0.0.2:8554"
  let iv := (safetyEncrypt plainCrypto.aes true target key key encryptBufSize).2
  let again := (safetyEncrypt plainCrypto.aes true target key iv encryptBufSize).1.getD []
  connectRun 54 ++ frameRun (frameOf 0 0 (containerOf target)) ++ frameRun (frameOf 0 0 again)

/-- The first RTSP task gets no socket, and cleans up. -/
def lateTaskRun : List Action :=
  openTwice ++ [.rtsp 0 .go, .rtsp 0 (.fd (-1)), .rtsp 0 .go, .rtsp 0 .go, .rtsp 0 .go,
    .rtsp 0 .go, .rtsp 0 .go, .rtsp 0 .go]

/-- The wrapper of the first stream clears the handle of the second one. -/
theorem stale_clears_handle : ¬∀ (env : Env) (volume : Nat) (as : List Action),
    Along (step env) (fun w a w' => a.Stale w → w'.inUse = w.inUse) (World.initial volume) as := by
  intro hAll
  obtain ⟨w, w', hRun, hStep, hLost⟩ := exists_last_of_any
    (show (run (step (Env.smooth plainCrypto)) (World.initial 50) lateTaskRun).any
      (fun w => (step (Env.smooth plainCrypto) w (.rtsp 0 .go)).any fun w' =>
        decide (Action.generation w (.rtsp 0 .go) = some 1 ∧ w.rtsp.generation = 2 ∧
          w.rtsp.task = some 1 ∧ w'.rtsp.task = none)) = true by decide +kernel)
  obtain ⟨hOld, hNew, hTask, hCleared⟩ := of_decide_eq_true hLost
  have hSame := (hAll _ 50 _).last hRun hStep ⟨1, hOld, by rw [hNew]; decide⟩
  have hHandle : w'.rtsp.task = w.rtsp.task := congrArg InUse.task hSame
  rw [hTask, hCleared] at hHandle
  cases hHandle

end EspMiplay.Miplay
