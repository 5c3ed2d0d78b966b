import EspMiplay.Dlna.PlayerSteps

/-!
# One handler of the HTTP server at a time

The control point is served by one task. A handler that sleeps keeps the next request
waiting, and what it wakes up to do may let it sleep again: at no time do two of them sleep.

## Results

* `soaps_request`, `soaps_wake`, `soaps_pipeEvent` — of a request, of a sleeper that wakes, of an event.
* `not_soap_of_woken`                             — the others are not handlers of the HTTP server.
-/

namespace EspMiplay.Dlna

open EspMiplay.Miplay (Bytes peek)

namespace Player

variable (p : Player) (luck : Luck) (task : Task)

/-- How many handlers of the HTTP server sleep -/
def soaps : Nat := p.sleepers.countP fun x => x.1 = .soap

/-- No more sleep than before, but for the task itself. -/
def Leaves (p p' : Player) : Prop := p'.soaps ≤ p.soaps + if task = .soap then 1 else 0

variable {p task} in
theorem Leaves.of_eq {p' : Player} (h : p'.soaps = p.soaps) : Leaves task p p' :=
  h.le.trans (Nat.le_add_right _ _)

variable {p} in
theorem soaps_append {js : List (Task × Sleep)} {p' : Player} (h : p'.sleepers = p.sleepers ++ js)
    (hOther : ∀ x ∈ js, x.1 ≠ .soap) : p'.soaps = p.soaps := by
  have hNone : js.countP (fun x => x.1 = .soap) = 0 := by
    rw [List.countP_eq_zero]
    intro x hMem hIs
    exact hOther x hMem (of_decide_eq_true hIs)
  rw [soaps, h, List.countP_append, hNone]
  rfl

variable {p task} in
theorem Leaves.sleep {p' : Player} (h : p'.soaps = p.soaps) (s : Sleep) : Leaves task p (p'.sleep task s) := by
  rw [Leaves, ← h, soaps, soaps, Player.sleep, List.countP_append, List.countP_singleton]
  simp only [decide_eq_true_eq, le_refl]

/-! ## Calls to the pipeline -/

theorem soaps_pipeStop : (p.pipeStop luck).soaps = p.soaps := by
  obtain ⟨s, js, hEq, -, hJs⟩ := p.pipeStop_eq luck
  rw [hEq]
  refine soaps_append rfl fun x hMem => ?_
  rcases hJs with rfl | ⟨rfl, -⟩
  · contradiction
  · obtain rfl := List.mem_singleton.1 hMem
    show Task.finish ≠ .soap
    decide

theorem soaps_pipePause : p.pipePause.soaps = p.soaps := by
  obtain ⟨s, hEq, -⟩ := p.pipePause_eq
  rw [hEq]
  rfl

theorem soaps_onRunning : p.onRunning.soaps = p.soaps := by
  rw [onRunning_eq]
  refine soaps_append rfl fun x hMem => ?_
  split_ifs at hMem
  · obtain rfl := List.mem_singleton.1 hMem
    show Task.seek ≠ .soap
    decide
  · contradiction

theorem soaps_pipeResume : p.pipeResume.soaps = p.soaps := by
  rcases p.pipeResume_eq with ⟨hEq, -⟩ | ⟨hEq, -⟩
  · rw [hEq]
  · rw [hEq, soaps_onRunning]
    rfl

theorem soaps_freeze : p.freeze.soaps = p.soaps := by
  obtain ⟨_, hEq⟩ := p.freeze_eq
  rw [hEq]
  rfl

theorem soaps_afterPlay (after : After) : (p.afterPlay after).soaps = p.soaps := by
  cases after with
  | switched paused => cases paused <;> rfl
  | fresh => rfl
  | next metadata => rfl
  | previous => rfl

/-! ## Handlers -/

theorem leaves_doPlay (uri : Option Bytes) (seekSec : Int) (after : After) :
    Leaves task p (p.doPlay task luck uri seekSec after) := by
  cases uri with
  | none => exact .of_eq (soaps_afterPlay { p with generation := p.generation + 1, nearEndCount := 0 } after)
  | some uri =>
    simp only [doPlay]
    split_ifs
    · exact .of_eq (soaps_afterPlay (Player.played (grace { p with
        generation := p.generation + 1
        nearEndCount := 0 } 8000000) uri seekSec) after)
    · exact .sleep rfl _

theorem soaps_retryPlay (uri : Bytes) (seekSec : Int) (after : After) :
    (p.retryPlay luck uri seekSec after).soaps = p.soaps := by
  rw [retryPlay, soaps_afterPlay]
  split_ifs <;> rfl

theorem leaves_cbPlay : Leaves task p (p.cbPlay task luck) := by
  rcases p.cbPlay_cases luck task with
    ⟨-, hEq⟩ | ⟨paused, -, hEq⟩ | ⟨-, hEq⟩ | ⟨-, -, -, hEq⟩ | ⟨-, -, -, hEq⟩
  · rw [hEq]
    exact .of_eq rfl
  · rw [hEq]
    exact .sleep (soaps_pipeStop (grace { p with userStopped := false } 1500000) luck) _
  · rw [hEq]
    exact .of_eq p.soaps_pipeResume
  · rw [hEq]
    exact p.leaves_doPlay luck task _ _ _
  · rw [hEq]
    exact .of_eq rfl

theorem soaps_cbPause : p.cbPause.soaps = p.soaps := by
  by_cases hState : p.state = .playing
  · rw [cbPause_of_playing hState]
    exact p.saved.soaps_pipePause.trans (soaps_freeze { p with pendingSeekSec := 0 })
  · rw [cbPause_of_not_playing hState]
    rfl

theorem soaps_cbStop : (p.cbStop luck).soaps = p.soaps :=
  (p.stopping.soaps_pipeStop luck).trans
    (soaps_freeze { p with generation := p.generation + 1, nearEndCount := 0 })

theorem leaves_cbSeek (seconds : Int) : Leaves task p (p.cbSeek task seconds) := by
  by_cases hState : p.state = .playing
  · rw [cbSeek_of_playing hState]
    exact .sleep (soaps_pipePause { p with generation := p.generation + 1, nearEndCount := 0 }) _
  · rw [cbSeek_of_not_playing hState]
    exact .of_eq rfl

theorem leaves_cbNext : Leaves task p (p.cbNext task luck) := by
  cases hNext : p.hasNext with
  | true =>
    rw [cbNext_of_next hNext]
    exact .sleep ((p.leaveTrack.grace 1500000).soaps_pipeStop luck) _
  | false =>
    rw [cbNext_of_none hNext]
    exact .sleep ((p.leaveTrack.grace 1000000).soaps_pipeStop luck) _

theorem leaves_cbPrevious : Leaves task p (p.cbPrevious task luck) := by
  by_cases hTrack : p.trackUri = none
  · rw [cbPrevious_of_none hTrack]
    exact .of_eq (p.leaveTrack.soaps_pipeStop luck)
  · rw [cbPrevious_of_some (Option.isSome_iff_ne_none.2 hTrack)]
    exact .sleep ((p.leaveTrack.grace 1000000).soaps_pipeStop luck) _

theorem soaps_cbSetMetadata (metadata : Bytes) : (p.cbSetMetadata metadata).soaps = p.soaps := by
  obtain ⟨_, _, _, _, _, _, hEq⟩ := p.cbSetMetadata_eq metadata
  rw [hEq]
  rfl

theorem soaps_setAvTransportUri (uri : Bytes) (metadata : Option Bytes) :
    (p.setAvTransportUri uri metadata).soaps = p.soaps := by
  cases hVideo : isVideoUri uri with
  | true =>
    rw [p.setAvTransportUri_of_video metadata hVideo, soaps_cbSetMetadata]
    rfl
  | false =>
    rw [p.setAvTransportUri_of_track metadata hVideo, soaps_cbSetMetadata]
    rfl

theorem leaves_promoteNext : Leaves task p (p.promoteNext task luck) := by
  rw [promoteNext_eq]
  exact p.withNext.leaves_doPlay luck task _ _ _

theorem leaves_waitNext (generation trackSeq waited : Nat) :
    Leaves task p (p.waitNext task luck generation trackSeq waited) := by
  rcases p.waitNext_cases luck task generation trackSeq waited with
    ⟨-, hEq⟩ | hEq | ⟨-, hEq⟩ | ⟨-, hEq⟩
  · rw [hEq]
    exact p.leaves_promoteNext luck task
  · rw [hEq]
    exact .of_eq rfl
  · rw [hEq]
    exact .sleep rfl _
  · rw [hEq]
    exact .of_eq rfl

/-! ## Tasks of the player -/

theorem soaps_sleep_of_ne (s : Sleep) (h : task ≠ .soap) : (p.sleep task s).soaps = p.soaps := by
  refine soaps_append rfl fun x hMem => ?_
  obtain rfl := List.mem_singleton.1 hMem
  exact h

theorem soaps_delayedStopNotify (generation track : Nat) :
    (p.delayedStopNotify luck generation track).soaps ≤ p.soaps := by
  by_cases hLive : generation = p.generation
  · rw [delayedStopNotify_of_live hLive]
    exact (leaves_cbNext { p.freeze with ended := track :: p.ended } luck .finish).trans_eq p.soaps_freeze
  · rw [delayedStopNotify_of_stale hLive]

theorem soaps_deferredSeek (sec : Int) : (p.deferredSeek sec).soaps = p.soaps := by
  by_cases hState : p.state = .playing
  · rw [deferredSeek_of_playing hState]
    exact (soaps_sleep_of_ne _ .seek _ (by decide)).trans
      (soaps_pipePause { p with generation := p.generation + 1 })
  · rw [deferredSeek_of_not_playing hState]

/-! ## Steps -/

theorem leaves_request (request : AvtRequest) : Leaves .soap p (p.request luck request) := by
  cases request with
  | setUri uri metadata =>
    by_cases hEmpty : peek uri = 0
    · rw [request_setUri_empty (not_not.2 hEmpty)]
      exact .of_eq rfl
    · rw [request_setUri hEmpty]
      exact .of_eq (p.soaps_setAvTransportUri uri metadata)
  | setNextUri uri metadata => exact .of_eq rfl
  | play => exact p.leaves_cbPlay luck .soap
  | pause => exact .of_eq p.soaps_cbPause
  | stop => exact .of_eq (p.soaps_cbStop luck)
  | seek seconds => exact p.leaves_cbSeek .soap seconds
  | next => exact p.leaves_cbNext luck .soap
  | previous => exact p.leaves_cbPrevious luck .soap

theorem leaves_wake (s : Sleep) : Leaves task p (p.wake luck task s) := by
  cases s with
  | switch paused => exact p.leaves_doPlay luck task _ _ _
  | retry uri seekSec after => exact .of_eq (p.soaps_retryPlay luck _ _ _)
  | seek seconds => exact .sleep rfl _
  | seekDone => exact .of_eq p.soaps_pipeResume
  | notify generation track => exact (p.soaps_delayedStopNotify luck _ _).trans (Nat.le_add_right _ _)
  | deferred sec => exact .of_eq (p.soaps_deferredSeek sec)
  | deferredPaused sec => exact .sleep rfl _
  | deferredDone sec => exact .of_eq p.soaps_pipeResume
  | promote => exact p.leaves_promoteNext luck task
  | noNext => exact .sleep rfl _
  | waitNext generation trackSeq waited => exact p.leaves_waitNext luck task _ _ _
  | previous => exact p.leaves_doPlay luck task _ _ _

theorem soaps_pipeEvent {p' : Player} {event : PipeEvent} (h : p.pipeEvent event = some p') :
    p'.soaps = p.soaps := by
  cases event with
  | running =>
    obtain ⟨-, hEq⟩ := Option.ite_none_right_eq_some.1 h
    rw [← Option.some.inj hEq, soaps_onRunning]
    rfl
  | finished =>
    obtain ⟨-, hEq⟩ := Option.ite_none_right_eq_some.1 h
    rw [← Option.some.inj hEq]
    rcases onFinished_eq { p with pipe := .idle } with ⟨hSame, -⟩ | ⟨hSame, -⟩
    · rw [hSame]
      rfl
    · rw [hSame]
      exact soaps_sleep_of_ne { p with pipe := .idle } .finish _ (by decide)
  | stopped =>
    obtain ⟨-, hEq⟩ := Option.ite_none_right_eq_some.1 h
    obtain ⟨_, hSame, -⟩ := onStopped_eq { p with pipe := .idle }
    rw [← Option.some.inj hEq, hSame]
    rfl
  | error =>
    obtain ⟨-, hEq⟩ := Option.ite_none_right_eq_some.1 h
    obtain ⟨_, hSame, -⟩ := onError_eq { p with pipe := .idle }
    rw [← Option.some.inj hEq, hSame]
    rfl

section Woken

variable {p luck task}

/-- The sleepers before and behind one that wakes -/
theorem sleepers_split {n : Nat} {x : Task × Sleep} (h : p.sleepers[n]? = some x) :
    ∃ before behind, p.sleepers = before ++ x :: behind ∧ (p.without n).sleepers = before ++ behind := by
  obtain ⟨hLt, hGet⟩ := List.getElem?_eq_some_iff.1 h
  refine ⟨p.sleepers.take n, p.sleepers.drop (n + 1), ?_, List.eraseIdx_eq_take_drop_succ ..⟩
  rw [← hGet, ← List.drop_eq_getElem_cons hLt, List.take_append_drop]

/-- A task that wakes is counted no more. -/
theorem soaps_without {n : Nat} {s : Sleep} (h : p.sleepers[n]? = some (task, s)) :
    (p.without n).soaps + (if task = .soap then 1 else 0) = p.soaps := by
  obtain ⟨before, behind, hAll, hRest⟩ := sleepers_split h
  rw [soaps, soaps, hAll, hRest, List.countP_append, List.countP_append, List.countP_cons]
  simp only [decide_eq_true_eq]
  omega

/-- While a handler of the HTTP server wakes, no other sleeps. -/
theorem not_soap_of_woken {n : Nat} {s : Sleep} (hOne : p.soaps ≤ 1) (h : p.sleepers[n]? = some (.soap, s)) :
    ∀ x ∈ (p.without n).sleepers, x.1 ≠ .soap := by
  have hSum := soaps_without h
  rw [if_pos rfl] at hSum
  have hNone : (p.without n).soaps = 0 := by omega
  intro x hMem hTask
  exact List.countP_eq_zero.1 hNone x hMem (decide_eq_true hTask)

theorem soaps_eq_zero (h : p.free .soap = true) : p.soaps = 0 := by
  rw [soaps, List.countP_eq_zero]
  intro x hMem hTask
  exact of_decide_eq_true (List.all_eq_true.1 h x hMem) (of_decide_eq_true hTask)

theorem soaps_woken {n : Nat} {s : Sleep} (h : p.sleepers[n]? = some (task, s)) :
    ((p.without n).wake luck task s).soaps ≤ p.soaps :=
  ((p.without n).leaves_wake luck task s).trans_eq (soaps_without h)

end Woken

end Player

end EspMiplay.Dlna
