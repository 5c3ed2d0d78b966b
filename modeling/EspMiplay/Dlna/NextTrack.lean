import EspMiplay.Dlna.PlayerSteps

/-!
# The next track

A next URI is moved to the current one by `cb_next`, which a control point, a button
and the end of a track may all call. The end of a track has a task of its own that
calls it, unless the generation has moved on.

`ended` holds the tracks whose end has led to `cb_next`, and `promoted` the next URIs
that have been moved, by the number each of them was given when it came.

## Results

* `PromoteInv.step`, `UriInv.step`, `EndInv.step` — the invariants.
* `next_along` — the queue is kept along every run of `Orderly` steps.
* `two_nexts`  — the next button in the pause of a Next of the control point.
-/

namespace EspMiplay.Dlna

open Transition
open EspMiplay.Miplay (Bytes peek)

/-- `_do_play` will be tried again. -/
def Sleep.isRetry : Sleep → Bool
  | .retry _ _ _ => true
  | _ => false

def Sleep.isNotify : Sleep → Bool
  | .notify _ _ => true
  | _ => false

namespace Player

variable {p p' : Player} {luck : Luck} {task : Task}

/-- Nothing plays, and nothing is about to. -/
structure Silent (p : Player) : Prop where
  notPlaying : p.state ≠ .playing
  notPaused : p.state ≠ .paused
  idle : p.pipe = .idle
  noRetry : ∀ x ∈ p.sleepers, x.2.isRetry = false

instance (p : Player) : Decidable p.Silent :=
  decidable_of_iff
    (p.state ≠ .playing ∧ p.state ≠ .paused ∧ p.pipe = .idle ∧ ∀ x ∈ p.sleepers, x.2.isRetry = false)
    ⟨fun ⟨h₁, h₂, h₃, h₄⟩ => ⟨h₁, h₂, h₃, h₄⟩, fun h => ⟨h.1, h.2, h.3, h.4⟩⟩

/-- Every track ends once, every next URI is promoted once, and what plays has a URI. -/
structure QueueLaw (p : Player) : Prop where
  endedOnce : p.ended.Nodup
  promotedOnce : p.promoted.Nodup
  named : p.state = .playing ∨ p.pipe = .running → p.trackUri.isSome

/-- The next URI is still there when `cb_next` has slept, unless all is silent; and a
track whose end is being handled does not end by itself too. -/
def OrderlyWake (p : Player) (luck : Luck) : Option (Task × Sleep) → Prop
  | some (_, .promote) => p.nextUri.isSome ∨ p.Silent
  | some (_, .notify generation _) =>
    generation = p.generation → p.pipe = .running → luck.finishes = false
  | _ => True

/-- The near-end check does not fire while the pipeline is idle, and who wakes up finds
things in order. -/
def Orderly (p : Player) : PlayerAction → Prop
  | .wake n luck => p.OrderlyWake luck p.sleepers[n]?
  | .ui _ => p.pipe = .idle → ¬p.EndsSoon
  | _ => True

/-! ## Promotion -/

/-- A next URI that is there has not been promoted. -/
structure PromoteInv (p : Player) : Prop where
  nodup : p.promoted.Nodup
  le : ∀ n ∈ p.promoted, n ≤ p.nexts
  fresh : p.nextUri.isSome → p.nexts ∉ p.promoted

theorem queue_eq (h : p'.queue = p.queue) :
    p'.trackUri = p.trackUri ∧ p'.nextUri = p.nextUri ∧ p'.nexts = p.nexts ∧
      p'.promoted = p.promoted := by
  simpa [queue] using h

theorem PromoteInv.of_queue (h : PromoteInv p) (hQueue : p'.queue = p.queue) : PromoteInv p' := by
  obtain ⟨-, hNext, hNexts, hPromoted⟩ := queue_eq hQueue
  exact
    ⟨hPromoted ▸ h.nodup, hNexts ▸ hPromoted ▸ h.le, hNext ▸ hNexts ▸ hPromoted ▸ h.fresh⟩

theorem PromoteInv.of_content (h : PromoteInv p) (hContent : p'.content = p.content) :
    PromoteInv p' := h.of_queue (queue_of_content hContent)

theorem PromoteInv.withNext (h : PromoteInv p) : PromoteInv p.withNext := by
  constructor
  · show (if p.nextUri.isSome then p.nexts :: p.promoted else p.promoted).Nodup
    split_ifs with hNext
    · exact List.nodup_cons.2 ⟨h.fresh hNext, h.nodup⟩
    · exact h.nodup
  · show ∀ n ∈ (if p.nextUri.isSome then p.nexts :: p.promoted else p.promoted), n ≤ p.nexts
    split_ifs
    · exact List.forall_mem_cons.2 ⟨le_rfl, h.le⟩
    · exact h.le
  · rintro ⟨⟩

theorem PromoteInv.promoteNext (h : PromoteInv p) : PromoteInv (p.promoteNext task luck) :=
  h.withNext.of_queue (queue_doPlay _ _ _ _ _ _)

theorem PromoteInv.setNextUri (h : PromoteInv p) (uri metadata : Bytes) :
    PromoteInv (p.cbSetNextUri uri metadata) where
  nodup := h.nodup
  le n hn := (h.le n hn).trans (Nat.le_succ _)
  fresh _ hMem := absurd (h.le _ hMem) (Nat.not_succ_le_self _)

/-- SetAVTransportURI has nothing to do with the next URI. -/
theorem PromoteInv.setAvTransportUri (h : PromoteInv p) (uri : Bytes) (metadata : Option Bytes) :
    PromoteInv (p.setAvTransportUri uri metadata) := by
  cases hVideo : isVideoUri uri with
  | true =>
    obtain ⟨_, _, _, _, _, _, hEq⟩ := p.setAvTransportUri_video_eq metadata hVideo
    rw [hEq]
    exact ⟨h.nodup, h.le, h.fresh⟩
  | false =>
    obtain ⟨_, _, _, _, _, _, hEq⟩ := p.setAvTransportUri_track_eq metadata hVideo
    rw [hEq]
    exact ⟨h.nodup, h.le, h.fresh⟩

theorem PromoteInv.stop (h : PromoteInv p) : PromoteInv (p.cbStop luck) := by
  obtain ⟨hNodup, hLe, -⟩ :=
    h.of_content ((content_pipeStop p.stopping luck).trans (content_stopping p))
  exact ⟨hNodup, hLe, by rintro ⟨⟩⟩

theorem PromoteInv.request (h : PromoteInv p) (request : AvtRequest) :
    PromoteInv (p.request luck request) := by
  cases request with
  | setUri uri metadata =>
    by_cases hUri : peek uri ≠ 0
    · rw [request_setUri hUri]
      exact h.setAvTransportUri uri metadata
    · rw [request_setUri_empty hUri]
      exact h
  | setNextUri uri metadata => exact h.setNextUri uri metadata
  | play => exact h.of_content (content_cbPlay p luck .soap)
  | pause => exact h.of_content (content_cbPause p)
  | stop => exact h.stop
  | seek seconds => exact h.of_content (content_cbSeek p .soap seconds)
  | next => exact h.of_content (content_cbNext p luck .soap)
  | previous => exact h.of_content (content_cbPrevious p luck .soap)

theorem PromoteInv.waitNext (h : PromoteInv p) (generation trackSeq waited : Nat) :
    PromoteInv (p.waitNext task luck generation trackSeq waited) := by
  rcases p.waitNext_cases luck task generation trackSeq waited with
    ⟨-, hEq⟩ | hEq | ⟨-, hEq⟩ | ⟨-, hEq⟩
  all_goals rw [hEq]
  exacts [h.promoteNext, h, h.of_queue rfl, h.of_queue rfl]

theorem PromoteInv.wake (h : PromoteInv p) (s : Sleep) : PromoteInv (p.wake luck task s) := by
  cases s with
  | switch paused => exact h.of_queue (queue_doPlay _ _ _ _ _ _)
  | retry uri seekSec after => exact h.of_queue (queue_retryPlay _ _ _ _ _)
  | seek seconds => exact h.of_queue rfl
  | seekDone => exact h.of_content (content_pipeResume p)
  | notify generation track => exact h.of_content (content_delayedStopNotify _ _ _ _)
  | deferred sec => exact h.of_content (content_deferredSeek p sec)
  | deferredPaused sec => exact h.of_queue rfl
  | deferredDone sec => exact h.of_content (content_pipeResume p)
  | promote => exact h.promoteNext
  | noNext => exact h.of_queue rfl
  | waitNext generation trackSeq waited => exact h.waitNext generation trackSeq waited
  | previous => exact h.of_queue (queue_doPlay _ _ _ _ _ _)

/-- No next URI is promoted twice, whatever happens. -/
theorem PromoteInv.step (h : PromoteInv p) {a : PlayerAction} (hStep : p.step a = some p') :
    PromoteInv p' := by
  cases a with
  | soap request luck => exact step_soap hStep ▸ h.request request
  | toggle luck => exact step_toggle hStep ▸ h.of_content (content_cbPlayToggle p luck .btnCtrl)
  | press next => exact Option.some.inj hStep ▸ h.of_queue rfl
  | track luck =>
    obtain ⟨rest, rfl | rfl⟩ := step_track hStep
    · exact h.of_content (content_cbNext _ luck .btnTrack)
    · exact h.of_content (content_cbPrevious _ luck .btnTrack)
  | wake n luck =>
    obtain ⟨task, s, -, rfl⟩ := step_wake hStep
    exact (h.of_queue rfl : PromoteInv (p.without n)).wake s
  | pipe event => exact h.of_content (content_pipeEvent hStep)
  | wifi up =>
    cases up with
    | true => exact Option.some.inj hStep ▸ h.of_content (content_wifiRestored p)
    | false => exact Option.some.inj hStep ▸ h.of_content (content_wifiLost p)
  | ui luck => exact Option.some.inj hStep ▸ h.of_content (content_uiTick p luck)
  | tick us => exact Option.some.inj hStep ▸ h.of_queue rfl

/-! ## What plays has a URI -/

/-- Without a URI nothing plays, and nothing is about to. -/
def UriInv (p : Player) : Prop := p.trackUri = none → p.Silent

theorem UriInv.of_some (h : p.trackUri.isSome) : UriInv p := fun hNone => by simp [hNone] at h

theorem trackUri_promoteNext : (p.promoteNext task luck).trackUri = p.nextUri :=
  (queue_eq (queue_doPlay _ _ _ _ _ _)).1

namespace Silent

variable (h : p.Silent)

include h

/-- The rest of the player does not matter. -/
theorem of_eq (hState : p'.state = p.state) (hPipe : p'.pipe = p.pipe)
    (hSleepers : ∀ x ∈ p'.sleepers, x ∈ p.sleepers) : p'.Silent :=
  ⟨hState ▸ h.notPlaying, hState ▸ h.notPaused, hPipe ▸ h.idle,
    fun x hx => h.noRetry x (hSleepers x hx)⟩

theorem noRetry_append {js : List (Task × Sleep)} (hJs : ∀ x ∈ js, x.2.isRetry = false) :
    ∀ x ∈ p.sleepers ++ js, x.2.isRetry = false := fun x hx =>
  (List.mem_append.1 hx).elim (h.noRetry x) (hJs x)

theorem sleep {s : Sleep} (hs : s.isRetry = false) : (p.sleep task s).Silent :=
  ⟨h.notPlaying, h.notPaused, h.idle, h.noRetry_append (by simpa using hs)⟩

theorem grace (us : Int) : (p.grace us).Silent := ⟨h.notPlaying, h.notPaused, h.idle, h.noRetry⟩

theorem leaveTrack : p.leaveTrack.Silent := ⟨h.notPlaying, h.notPaused, h.idle, h.noRetry⟩

theorem setState {s : PlayState} (hPlaying : s ≠ .playing) (hPaused : s ≠ .paused) :
    (p.setState s).Silent := ⟨hPlaying, hPaused, h.idle, h.noRetry⟩

theorem freeze : p.freeze.Silent := by
  obtain ⟨ms, hEq⟩ := p.freeze_eq
  rw [hEq]
  exact ⟨h.notPlaying, h.notPaused, h.idle, h.noRetry⟩

theorem pipeStop : (p.pipeStop luck).Silent := by
  rw [pipeStop_of_idle luck h.idle]
  exact h

theorem pipeResume : p.pipeResume.Silent := by
  rw [pipeResume_of_idle h.idle]
  exact h

theorem cbNext : (p.cbNext task luck).Silent := by
  cases hNext : p.hasNext with
  | true =>
    rw [cbNext_of_next hNext]
    exact ((h.leaveTrack.grace _).pipeStop).sleep rfl
  | false =>
    rw [cbNext_of_none hNext]
    exact ((h.leaveTrack.grace _).pipeStop).sleep rfl

theorem cbPrevious (hTrack : p.trackUri = none) : (p.cbPrevious task luck).Silent := by
  rw [cbPrevious_of_none hTrack]
  exact h.leaveTrack.pipeStop.setState (by decide) (by decide)

theorem cbPlay (hTrack : p.trackUri = none) : (p.cbPlay task luck).Silent := by
  rw [cbPlay_of_nothing h.notPlaying h.notPaused hTrack]
  exact ⟨h.notPlaying, h.notPaused, h.idle, h.noRetry⟩

/-- Without a URI `_do_play` does nothing. -/
theorem doPlay (seekSec : Int) (after : After) : (p.doPlay task luck none seekSec after).Silent := by
  cases after with
  | switched paused =>
    cases paused <;> exact ⟨h.notPlaying, h.notPaused, h.idle, h.noRetry⟩
  | _ => exact ⟨h.notPlaying, h.notPaused, h.idle, h.noRetry⟩

theorem request (hTrack : p.trackUri = none) {request : AvtRequest}
    (hTrack' : (p.request luck request).trackUri = none) : (p.request luck request).Silent := by
  cases request with
  | setUri uri metadata =>
    by_cases hUri : peek uri ≠ 0
    · rw [request_setUri hUri] at hTrack' ⊢
      cases hVideo : isVideoUri uri with
      | true =>
        obtain ⟨_, _, _, _, _, _, hEq⟩ := p.setAvTransportUri_video_eq metadata hVideo
        rw [hEq]
        exact ⟨h.notPlaying, h.notPaused, h.idle, h.noRetry⟩
      | false =>
        obtain ⟨_, _, _, _, _, _, hEq⟩ := p.setAvTransportUri_track_eq metadata hVideo
        rw [hEq] at hTrack'
        contradiction
    · rw [request_setUri_empty hUri]
      exact h
  | setNextUri uri metadata => exact ⟨h.notPlaying, h.notPaused, h.idle, h.noRetry⟩
  | play => exact h.cbPlay hTrack
  | pause =>
    show p.cbPause.Silent
    rw [cbPause_of_not_playing h.notPlaying]
    exact ⟨h.notPlaying, h.notPaused, h.idle, h.noRetry⟩
  | stop =>
    have hStopping : p.stopping.Silent := by
      have hFrozen : { p with generation := p.generation + 1, nearEndCount := 0 }.freeze.Silent :=
        freeze ⟨h.notPlaying, h.notPaused, h.idle, h.noRetry⟩
      exact ⟨hFrozen.notPlaying, hFrozen.notPaused, hFrozen.idle, hFrozen.noRetry⟩
    have hStopped : (p.stopping.pipeStop luck).Silent := hStopping.pipeStop
    obtain ⟨hPlaying, hPaused, hIdle, hNoRetry⟩ :=
      hStopped.setState (s := .stopped) (by decide) (by decide)
    exact ⟨hPlaying, hPaused, hIdle, hNoRetry⟩
  | seek seconds =>
    show (p.cbSeek .soap seconds).Silent
    rw [cbSeek_of_not_playing h.notPlaying]
    exact ⟨h.notPlaying, h.notPaused, h.idle, h.noRetry⟩
  | next => exact h.cbNext
  | previous => exact h.cbPrevious hTrack

theorem promoteNext (hTrack' : (p.promoteNext task luck).trackUri = none) :
    (p.promoteNext task luck).Silent := by
  rw [trackUri_promoteNext] at hTrack'
  have hNext : p.withNext.Silent := ⟨h.notPlaying, h.notPaused, h.idle, h.noRetry⟩
  rw [promoteNext_eq, hTrack']
  exact hNext.doPlay _ _

theorem timedOut : p.timedOut.Silent := ⟨by rintro ⟨⟩, by rintro ⟨⟩, h.idle, h.noRetry⟩

theorem uiTick : (p.uiTick luck).Silent := by
  obtain ⟨n, js, hEq, hJs⟩ := p.nearEnd_eq
  have hNear : p.nearEnd.Silent := by
    obtain rfl : js = [] := hJs.resolve_right fun hAnd => h.notPlaying hAnd.2.1.1
    rw [hEq, List.append_nil]
    exact ⟨h.notPlaying, h.notPaused, h.idle, h.noRetry⟩
  rcases p.nearEnd.stuckPaused_cases luck with ⟨since, hStuck⟩ | ⟨hPaused, -⟩
  · rw [Player.uiTick, hStuck]
    exact ⟨hNear.notPlaying, hNear.notPaused, hNear.idle, hNear.noRetry⟩
  · exact absurd hPaused hNear.notPaused

theorem pipeEvent {event : PipeEvent} : p.pipeEvent event = none := by
  cases event <;> simp [Player.pipeEvent, h.idle]

/-- Whoever wakes up finds nothing to do, unless there is a next URI. -/
theorem wake (hTrack : p.trackUri = none) {s : Sleep} (hs : s.isRetry = false)
    (hTrack' : (p.wake luck task s).trackUri = none) : (p.wake luck task s).Silent := by
  cases s with
  | switch paused =>
    show (p.doPlay task luck p.trackUri p.savedPosSec (.switched paused)).Silent
    rw [hTrack]
    exact h.doPlay _ _
  | retry uri seekSec after => contradiction
  | seek seconds => exact (⟨h.notPlaying, h.notPaused, h.idle, h.noRetry⟩ : (p.sought seconds).Silent).sleep rfl
  | seekDone => exact h.pipeResume
  | notify generation track =>
    by_cases hLive : generation = p.generation
    · have hFrozen : { p.freeze with ended := track :: p.ended }.Silent :=
        ⟨h.freeze.notPlaying, h.freeze.notPaused, h.freeze.idle, h.freeze.noRetry⟩
      show (p.delayedStopNotify luck generation track).Silent
      rw [delayedStopNotify_of_live hLive]
      exact hFrozen.cbNext
    · show (p.delayedStopNotify luck generation track).Silent
      rw [delayedStopNotify_of_stale hLive]
      exact h
  | deferred sec =>
    show (p.deferredSeek sec).Silent
    rw [deferredSeek_of_not_playing h.notPlaying]
    exact h
  | deferredPaused sec => exact h.sleep rfl
  | deferredDone sec =>
    obtain ⟨hPlaying, hPaused, hIdle, hNoRetry⟩ := h.pipeResume
    exact ⟨hPlaying, hPaused, hIdle, hNoRetry⟩
  | promote => exact promoteNext h hTrack'
  | noNext => exact (h.setState (by decide) (by decide)).sleep rfl
  | waitNext generation trackSeq waited =>
    rcases p.waitNext_cases luck task generation trackSeq waited with
      ⟨-, hEq⟩ | hEq | ⟨-, hEq⟩ | ⟨-, hEq⟩
    · have hWake : p.wake luck task (.waitNext generation trackSeq waited) = _ := hEq
      rw [hWake] at hTrack' ⊢
      exact promoteNext h hTrack'
    all_goals
      show (p.waitNext task luck generation trackSeq waited).Silent
      rw [hEq]
    exacts [h, h.sleep rfl, h.timedOut]
  | previous =>
    show (p.doPlay task luck p.trackUri 0 .previous).Silent
    rw [hTrack]
    exact h.doPlay _ _

end Silent

theorem trackUri_setAvTransportUri (uri : Bytes) (metadata : Option Bytes) :
    (p.setAvTransportUri uri metadata).trackUri =
      if isVideoUri uri then p.trackUri else some uri := by
  cases hVideo : isVideoUri uri with
  | true =>
    obtain ⟨_, _, _, _, _, _, hEq⟩ := p.setAvTransportUri_video_eq metadata hVideo
    rw [hEq]
    rfl
  | false =>
    obtain ⟨_, _, _, _, _, _, hEq⟩ := p.setAvTransportUri_track_eq metadata hVideo
    rw [hEq]
    rfl

/-- A control point does not take the URI away. -/
theorem trackUri_request {request : AvtRequest} (h : (p.request luck request).trackUri = none) :
    p.trackUri = none := by
  have hQueue {p' : Player} (hEq : p'.queue = p.queue) (hNone : p'.trackUri = none) :
      p.trackUri = none := (queue_eq hEq).1 ▸ hNone
  cases request with
  | setUri uri metadata =>
    by_cases hUri : peek uri ≠ 0
    · rw [request_setUri hUri, trackUri_setAvTransportUri] at h
      split_ifs at h
      exact h
    · rwa [request_setUri_empty hUri] at h
  | setNextUri uri metadata => exact h
  | play => exact hQueue (queue_of_content (content_cbPlay p luck .soap)) h
  | pause => exact hQueue (queue_of_content (content_cbPause p)) h
  | stop =>
    have hStop : (p.stopping.pipeStop luck).trackUri = none := h
    exact hQueue (queue_of_content ((content_pipeStop _ _).trans (content_stopping p))) hStop
  | seek seconds => exact hQueue (queue_of_content (content_cbSeek p .soap seconds)) h
  | next => exact hQueue (queue_of_content (content_cbNext p luck .soap)) h
  | previous => exact hQueue (queue_of_content (content_cbPrevious p luck .soap)) h

/-- Whoever wakes up takes no URI away, unless it promotes. -/
theorem trackUri_wake {s : Sleep} (hs : s ≠ .promote) (h : (p.wake luck task s).trackUri = none) :
    p.trackUri = none := by
  have hQueue {p' : Player} (hEq : p'.queue = p.queue) (hNone : p'.trackUri = none) :
      p.trackUri = none := (queue_eq hEq).1 ▸ hNone
  cases s with
  | switch paused => exact hQueue (queue_doPlay p luck task _ _ _) h
  | retry uri seekSec after => exact hQueue (queue_retryPlay p luck _ _ _) h
  | seek seconds => exact h
  | seekDone => exact hQueue (queue_of_content (content_pipeResume p)) h
  | notify generation track => exact hQueue (queue_of_content (content_delayedStopNotify p luck _ _)) h
  | deferred sec => exact hQueue (queue_of_content (content_deferredSeek p sec)) h
  | deferredPaused sec => exact h
  | deferredDone sec =>
    have hResume : p.pipeResume.trackUri = none := h
    exact hQueue (queue_of_content (content_pipeResume p)) hResume
  | promote => contradiction
  | noNext => exact h
  | waitNext generation trackSeq waited =>
    have hWait : (p.waitNext task luck generation trackSeq waited).trackUri = none := h
    rcases p.waitNext_cases luck task generation trackSeq waited with
      ⟨hNext, hEq⟩ | hEq | ⟨-, hEq⟩ | ⟨-, hEq⟩
    · rw [hEq, trackUri_promoteNext] at hWait
      simp [hasNext, hWait] at hNext
    all_goals
      rw [hEq] at hWait
      exact hWait
  | previous => exact hQueue (queue_doPlay p luck task _ _ _) h

theorem UriInv.step (h : UriInv p) {a : PlayerAction} (hStep : p.step a = some p')
    (hOrderly : p.Orderly a) : UriInv p' := by
  intro hTrack'
  have hQueue (hEq : p'.queue = p.queue) : p.Silent := h ((queue_eq hEq).1 ▸ hTrack')
  cases a with
  | soap request luck =>
    obtain rfl := step_soap hStep
    have hTrack := trackUri_request hTrack'
    exact (h hTrack).request hTrack hTrack'
  | toggle luck =>
    obtain rfl := step_toggle hStep
    have hSilent := hQueue (queue_of_content (content_cbPlayToggle p luck .btnCtrl))
    have hTrack := (queue_eq (queue_of_content (content_cbPlayToggle p luck .btnCtrl))).1 ▸ hTrack'
    rw [cbPlayToggle, if_neg hSilent.notPlaying]
    exact hSilent.cbPlay hTrack
  | press next =>
    obtain rfl := Option.some.inj hStep
    exact (h hTrack').of_eq rfl rfl fun _ => id
  | track luck =>
    obtain ⟨rest, rfl | rfl⟩ := step_track hStep
    · have hSilent := hQueue (queue_of_content (content_cbNext { p with presses := rest } luck .btnTrack))
      have hSame : { p with presses := rest }.Silent := hSilent.of_eq rfl rfl fun _ => id
      exact hSame.cbNext
    · have hEq := queue_of_content (content_cbPrevious { p with presses := rest } luck .btnTrack)
      have hSame : { p with presses := rest }.Silent := (hQueue hEq).of_eq rfl rfl fun _ => id
      exact hSame.cbPrevious ((queue_eq hEq).1 ▸ hTrack')
  | wake n luck =>
    obtain ⟨task, s, hGet, rfl⟩ := step_wake hStep
    have hMem : (task, s) ∈ p.sleepers := List.mem_of_getElem? hGet
    have hRest (hSilent : p.Silent) : (p.without n).Silent :=
      hSilent.of_eq rfl rfl fun _ => List.mem_of_mem_eraseIdx
    by_cases hPromote : s = .promote
    · subst hPromote
      rw [Orderly, hGet] at hOrderly
      have hNext : (p.without n).nextUri = none := trackUri_promoteNext.symm.trans hTrack'
      have hNone : p.nextUri = none := hNext
      have hSilent := hOrderly.resolve_left (by simp [hNone])
      exact (hRest hSilent).promoteNext hTrack'
    · have hTrack := trackUri_wake hPromote hTrack'
      have hSilent := h hTrack
      exact (hRest hSilent).wake hTrack (hSilent.noRetry _ hMem) hTrack'
  | pipe event =>
    have hSilent := hQueue (queue_of_content (content_pipeEvent hStep))
    rw [Player.step, hSilent.pipeEvent] at hStep
    contradiction
  | wifi up =>
    obtain rfl := Option.some.inj hStep
    cases up with
    | true =>
      have hSilent := hQueue (queue_of_content (content_wifiRestored p))
      rw [if_pos rfl, wifiRestored_of_not fun hAnd => hSilent.notPaused hAnd.1]
      exact hSilent
    | false =>
      have hSilent := hQueue (queue_of_content (content_wifiLost p))
      rw [if_neg (by decide), wifiLost_of_not_playing hSilent.notPlaying]
      exact hSilent
  | ui luck =>
    obtain rfl := Option.some.inj hStep
    exact (hQueue (queue_of_content (content_uiTick p luck))).uiTick
  | tick us =>
    obtain rfl := Option.some.inj hStep
    exact (h hTrack').of_eq rfl rfl fun _ => id

/-! ## Every track ends once -/

/-- A track whose end has led to `cb_next` is not played any more, and no task that is
still good for something is about it. -/
structure EndInv (p : Player) : Prop where
  nodup : p.ended.Nodup
  le : ∀ t ∈ p.ended, t ≤ p.tracks
  idle : p.tracks ∈ p.ended → p.pipe = .idle
  past : ∀ task g t, (task, Sleep.notify g t) ∈ p.sleepers → t ≤ p.tracks ∧ g ≤ p.generation
  live : ∀ task g t, (task, Sleep.notify g t) ∈ p.sleepers → g = p.generation → t ∉ p.ended

namespace EndInv

variable (h : EndInv p)

include h

/-- The generation may go on, the pipeline may become idle, and other sleepers may come. -/
theorem mono (hEnded : p'.ended = p.ended) (hTracks : p'.tracks = p.tracks)
    (hGeneration : p.generation ≤ p'.generation) (hPipe : p'.pipe = .idle ∨ p.pipe ≠ .idle)
    (hSleepers : ∀ x ∈ p'.sleepers, x ∈ p.sleepers ∨ x.2.isNotify = false) : EndInv p' := by
  have hMem {task g t} (hx : (task, Sleep.notify g t) ∈ p'.sleepers) :
      (task, Sleep.notify g t) ∈ p.sleepers := (hSleepers _ hx).resolve_right (by simp [Sleep.isNotify])
  refine ⟨hEnded ▸ h.nodup, ?_, ?_, ?_, ?_⟩
  · rw [hEnded, hTracks]
    exact h.le
  · rw [hEnded, hTracks]
    exact fun hIn => hPipe.resolve_right fun hNe => hNe (h.idle hIn)
  · intro task g t hx
    obtain ⟨hTrack, hGen⟩ := h.past task g t (hMem hx)
    exact ⟨hTracks ▸ hTrack, hGen.trans hGeneration⟩
  · intro task g t hx hg
    have hGen := (h.past task g t (hMem hx)).2
    rw [hEnded]
    exact h.live task g t (hMem hx) (by omega)

/-- Fields that have nothing to do with it. -/
theorem of_eq (hEnded : p'.ended = p.ended) (hTracks : p'.tracks = p.tracks)
    (hGeneration : p'.generation = p.generation) (hPipe : p'.pipe = p.pipe)
    (hSleepers : p'.sleepers = p.sleepers) : EndInv p' := by
  refine h.mono hEnded hTracks hGeneration.ge ?_ fun x hx => .inl (hSleepers ▸ hx)
  rw [hPipe]
  exact em _

theorem sleep {s : Sleep} (hs : s.isNotify = false) : EndInv (p.sleep task s) :=
  h.mono rfl rfl le_rfl (em _) fun x hx =>
    (List.mem_append.1 hx).imp_right fun hIn => by
      obtain rfl := List.mem_singleton.1 hIn
      exact hs

/-- A track that is played may come to its end. -/
theorem schedule (hTrack : p.tracks ∉ p.ended) : EndInv p.scheduleStopNotify where
  nodup := h.nodup
  le := h.le
  idle := h.idle
  past task g t hx := by
    rcases List.mem_append.1 hx with hOld | hNew
    · exact h.past task g t hOld
    · obtain ⟨rfl, rfl, rfl⟩ : task = .finish ∧ g = p.generation ∧ t = p.tracks := by
        simpa using hNew
      exact ⟨le_rfl, le_rfl⟩
  live task g t hx hg := by
    rcases List.mem_append.1 hx with hOld | hNew
    · exact h.live task g t hOld hg
    · obtain ⟨rfl, rfl, rfl⟩ : task = .finish ∧ g = p.generation ∧ t = p.tracks := by
        simpa using hNew
      exact hTrack

theorem freeze : EndInv p.freeze := by
  obtain ⟨ms, hEq⟩ := p.freeze_eq
  rw [hEq]
  exact h.of_eq rfl rfl rfl rfl rfl

theorem onRunning : EndInv p.onRunning := by
  rw [onRunning_eq]
  refine h.mono rfl rfl le_rfl (em _) fun x hx => (List.mem_append.1 hx).imp_right fun hNew => ?_
  split_ifs at hNew
  · obtain rfl := List.mem_singleton.1 hNew
    rfl
  · contradiction

theorem pipePause : EndInv p.pipePause := by
  obtain ⟨s, hEq, -⟩ := p.pipePause_eq
  rw [hEq]
  refine h.mono rfl rfl le_rfl ?_ fun x hx => .inl hx
  show (if p.pipe = .running then .paused else p.pipe) = .idle ∨ p.pipe ≠ .idle
  split_ifs with hRuns
  · exact .inr (by simp [hRuns])
  · exact em _

theorem pipeResume : EndInv p.pipeResume := by
  rcases p.pipeResume_eq with ⟨hEq, -⟩ | ⟨hEq, hPaused⟩
  · rw [hEq]
    exact h
  · rw [hEq]
    have hRunning : EndInv { p with pipe := .running } :=
      h.mono rfl rfl le_rfl (.inr (by simp [hPaused])) fun x hx => .inl hx
    exact hRunning.onRunning

/-- A stop may find the track at its end. -/
theorem pipeStop (hEnds : p.pipe = .running → luck.finishes → p.tracks ∉ p.ended) :
    EndInv (p.pipeStop luck) := by
  obtain ⟨s, js, hEq, -, hJs⟩ := p.pipeStop_eq luck
  have hIdle : EndInv { p with state := s, pipe := .idle } :=
    h.mono rfl rfl le_rfl (.inl rfl) fun x hx => .inl hx
  rcases hJs with rfl | ⟨rfl, hRuns, hLuck, -⟩
  · rw [hEq, List.append_nil]
    exact hIdle
  · rw [hEq]
    exact hIdle.schedule (hEnds hRuns hLuck)

theorem not_ended (hPipe : p.pipe ≠ .idle) : p.tracks ∉ p.ended := fun hIn => hPipe (h.idle hIn)

theorem stop : EndInv (p.pipeStop luck) := h.pipeStop fun hRuns _ => h.not_ended (by simp [hRuns])

theorem played (uri : Bytes) (seekSec : Int) : EndInv (p.played uri seekSec) where
  nodup := h.nodup
  le t ht := (h.le t ht).trans (Nat.le_succ _)
  idle hIn := absurd (h.le _ hIn) (Nat.not_succ_le_self _)
  past task g t hx := ⟨(h.past task g t hx).1.trans (Nat.le_succ _), (h.past task g t hx).2⟩
  live := h.live

theorem afterPlay (after : After) : EndInv (p.afterPlay after) := by
  cases after with
  | switched paused => cases paused <;> exact h.of_eq rfl rfl rfl rfl rfl
  | _ => exact h.of_eq rfl rfl rfl rfl rfl

theorem doPlay (uri : Option Bytes) (seekSec : Int) (after : After) :
    EndInv (p.doPlay task luck uri seekSec after) := by
  have hNext : EndInv { p with generation := p.generation + 1, nearEndCount := 0 } :=
    h.mono rfl rfl (Nat.le_succ _) (em _) fun _ => .inl
  cases uri with
  | none => exact hNext.afterPlay after
  | some uri =>
    have hGrace :
        EndInv ({ p with generation := p.generation + 1, nearEndCount := 0 }.grace 8000000) :=
      hNext.of_eq rfl rfl rfl rfl rfl
    simp only [Player.doPlay]
    split_ifs
    exacts [(hGrace.played uri seekSec).afterPlay after, hGrace.sleep rfl]

theorem retryPlay (uri : Bytes) (seekSec : Int) (after : After) :
    EndInv (p.retryPlay luck uri seekSec after) := by
  unfold Player.retryPlay
  split_ifs
  · exact (h.played uri seekSec).afterPlay after
  · exact (h.of_eq rfl rfl rfl rfl rfl : EndInv (p.setState .stopped)).afterPlay after

theorem resumed : EndInv p.resumed := h.pipeResume.of_eq rfl rfl rfl rfl rfl

theorem cbPlay : EndInv (p.cbPlay task luck) := by
  rcases p.cbPlay_cases luck task with
    ⟨-, hEq⟩ | ⟨paused, -, hEq⟩ | ⟨-, hEq⟩ | ⟨-, -, -, hEq⟩ | ⟨-, -, -, hEq⟩
  all_goals rw [hEq]
  · exact h
  · have hGrace : EndInv ({ p with userStopped := false }.grace 1500000) :=
      h.of_eq rfl rfl rfl rfl rfl
    exact hGrace.stop.sleep rfl
  · exact h.resumed.of_eq rfl rfl rfl rfl rfl
  · exact h.doPlay _ _ _
  · exact h.of_eq rfl rfl rfl rfl rfl

theorem cbPause : EndInv p.cbPause := by
  have hPending : EndInv { p with pendingSeekSec := 0 } := h.of_eq rfl rfl rfl rfl rfl
  by_cases hState : p.state = .playing
  · have hSaved : EndInv p.saved := hPending.freeze.of_eq rfl rfl rfl rfl rfl
    rw [cbPause_of_playing hState]
    exact hSaved.pipePause.of_eq rfl rfl rfl rfl rfl
  · rw [cbPause_of_not_playing hState]
    exact hPending

theorem cbPlayToggle : EndInv (p.cbPlayToggle task luck) := by
  unfold Player.cbPlayToggle
  split_ifs
  exacts [h.cbPause, h.cbPlay]

theorem nextGeneration : EndInv { p with generation := p.generation + 1, nearEndCount := 0 } :=
  h.mono rfl rfl (Nat.le_succ _) (em _) fun _ => .inl

theorem cbStop : EndInv (p.cbStop luck) := by
  have hStopping : EndInv p.stopping := h.nextGeneration.freeze.of_eq rfl rfl rfl rfl rfl
  rw [cbStop_eq]
  exact hStopping.stop.of_eq rfl rfl rfl rfl rfl

theorem cbSeek (seconds : Int) : EndInv (p.cbSeek task seconds) := by
  by_cases hState : p.state = .playing
  · rw [cbSeek_of_playing hState]
    exact h.nextGeneration.pipePause.sleep rfl
  · rw [cbSeek_of_not_playing hState]
    exact h.nextGeneration.of_eq rfl rfl rfl rfl rfl

theorem leaveTrack : EndInv p.leaveTrack := h.nextGeneration.of_eq rfl rfl rfl rfl rfl

theorem cbNext (hEnds : p.pipe = .running → luck.finishes → p.tracks ∉ p.ended) :
    EndInv (p.cbNext task luck) := by
  have hGrace (us : Int) : EndInv (p.leaveTrack.grace us) := h.leaveTrack.of_eq rfl rfl rfl rfl rfl
  cases hNext : p.hasNext with
  | true =>
    rw [cbNext_of_next hNext]
    exact ((hGrace _).pipeStop hEnds).sleep rfl
  | false =>
    rw [cbNext_of_none hNext]
    exact ((hGrace _).pipeStop hEnds).sleep rfl

theorem next : EndInv (p.cbNext task luck) := h.cbNext fun hRuns _ => h.not_ended (by simp [hRuns])

theorem cbPrevious : EndInv (p.cbPrevious task luck) := by
  by_cases hTrack : p.trackUri = none
  · rw [cbPrevious_of_none hTrack]
    exact h.leaveTrack.stop.of_eq rfl rfl rfl rfl rfl
  · have hGrace : EndInv (p.leaveTrack.grace 1000000) := h.leaveTrack.of_eq rfl rfl rfl rfl rfl
    rw [cbPrevious_of_some (Option.isSome_iff_ne_none.2 hTrack)]
    exact hGrace.stop.sleep rfl

theorem setAvTransportUri (uri : Bytes) (metadata : Option Bytes) :
    EndInv (p.setAvTransportUri uri metadata) := by
  cases hVideo : isVideoUri uri with
  | true =>
    obtain ⟨_, _, _, _, _, _, hEq⟩ := p.setAvTransportUri_video_eq metadata hVideo
    rw [hEq]
    exact h.nextGeneration.of_eq rfl rfl rfl rfl rfl
  | false =>
    obtain ⟨_, _, _, _, _, _, hEq⟩ := p.setAvTransportUri_track_eq metadata hVideo
    rw [hEq]
    exact h.nextGeneration.of_eq rfl rfl rfl rfl rfl

theorem request (request : AvtRequest) : EndInv (p.request luck request) := by
  cases request with
  | setUri uri metadata =>
    by_cases hUri : peek uri ≠ 0
    · rw [request_setUri hUri]
      exact h.setAvTransportUri uri metadata
    · rw [request_setUri_empty hUri]
      exact h
  | setNextUri uri metadata => exact h.of_eq rfl rfl rfl rfl rfl
  | play => exact h.cbPlay
  | pause => exact h.cbPause
  | stop => exact h.cbStop
  | seek seconds => exact h.cbSeek seconds
  | next => exact h.next
  | previous => exact h.cbPrevious

theorem promoteNext : EndInv (p.promoteNext task luck) := by
  have hNext : EndInv p.withNext := h.of_eq rfl rfl rfl rfl rfl
  exact hNext.doPlay _ _ _

/-- The end of a track, once the generation has gone on and the pipeline is idle. -/
theorem endTrack {track : Nat} (hTrack : track ≤ p.tracks) (hFresh : track ∉ p.ended)
    (hEnded : p'.ended = track :: p.ended) (hTracks : p'.tracks = p.tracks)
    (hGeneration : p.generation < p'.generation) (hIdle : p'.pipe = .idle)
    (hSleepers : ∀ x ∈ p'.sleepers, x ∈ p.sleepers ∨ x.2.isNotify = false) : EndInv p' := by
  have hMem {task g t} (hx : (task, Sleep.notify g t) ∈ p'.sleepers) :=
    h.past task g t ((hSleepers _ hx).resolve_right (by simp [Sleep.isNotify]))
  refine ⟨hEnded ▸ List.nodup_cons.2 ⟨hFresh, h.nodup⟩, ?_, fun _ => hIdle, ?_, ?_⟩
  · rw [hEnded, hTracks]
    exact List.forall_mem_cons.2 ⟨hTrack, h.le⟩
  · intro task g t hx
    exact ⟨hTracks ▸ (hMem hx).1, (hMem hx).2.trans hGeneration.le⟩
  · -- whoever slept before is of an older generation
    intro task g t hx hg
    have hGen := (hMem hx).2
    omega

/-- The end of a track that is handled does not lead to `cb_next` a second time. -/
theorem delayedStopNotify {generation track : Nat} (hTrack : track ≤ p.tracks)
    (hLive : generation = p.generation → track ∉ p.ended)
    (hEnds : generation = p.generation → p.pipe = .running → luck.finishes = false) :
    EndInv (p.delayedStopNotify luck generation track) := by
  by_cases hGen : generation = p.generation
  · obtain ⟨ms, hFreeze⟩ := p.freeze_eq
    have hLeft (us : Int) (s : Sleep) (hs : s.isNotify = false) :
        EndInv (((({ p.freeze with ended := track :: p.ended }.leaveTrack.grace us).pipeStop
          luck).sleep .finish s)) := by
      obtain ⟨state, js, hEq, -, hJs⟩ :=
        ({ p.freeze with ended := track :: p.ended }.leaveTrack.grace us).pipeStop_eq luck
      rcases hJs with rfl | ⟨-, hRuns, hLuck, -⟩
      · rw [hEq, hFreeze]
        refine h.endTrack hTrack (hLive hGen) rfl rfl (Nat.lt_succ_self _) rfl fun x hx => ?_
        rcases List.mem_append.1 hx with hOld | hNew
        · exact .inl (by simpa [Player.leaveTrack, Player.grace] using hOld)
        · obtain rfl := List.mem_singleton.1 hNew
          exact .inr hs
      · rw [hFreeze] at hRuns
        simp [hEnds hGen hRuns] at hLuck
    rw [delayedStopNotify_of_live hGen]
    cases hNext : { p.freeze with ended := track :: p.ended }.hasNext with
    | true =>
      rw [cbNext_of_next hNext]
      exact hLeft _ _ rfl
    | false =>
      rw [cbNext_of_none hNext]
      exact hLeft _ _ rfl
  · rw [delayedStopNotify_of_stale hGen]
    exact h

theorem deferredSeek (sec : Int) : EndInv (p.deferredSeek sec) := by
  by_cases hState : p.state = .playing
  · have hNext : EndInv { p with generation := p.generation + 1 } :=
      h.nextGeneration.of_eq rfl rfl rfl rfl rfl
    rw [deferredSeek_of_playing hState]
    exact hNext.pipePause.sleep rfl
  · rw [deferredSeek_of_not_playing hState]
    exact h

theorem waitNext (generation trackSeq waited : Nat) :
    EndInv (p.waitNext task luck generation trackSeq waited) := by
  rcases p.waitNext_cases luck task generation trackSeq waited with
    ⟨-, hEq⟩ | hEq | ⟨-, hEq⟩ | ⟨-, hEq⟩
  all_goals rw [hEq]
  exacts [h.promoteNext, h, h.sleep rfl, h.of_eq rfl rfl rfl rfl rfl]

theorem wifiLost : EndInv p.wifiLost := by
  by_cases hState : p.state = .playing
  · rw [wifiLost_of_playing hState]
    exact h.pipePause.of_eq rfl rfl rfl rfl rfl
  · rw [wifiLost_of_not_playing hState]
    exact h

theorem wifiRestored : EndInv p.wifiRestored := by
  by_cases hPaused : p.state = .paused ∧ p.userStopped = false
  · rw [wifiRestored_of_paused hPaused.1 hPaused.2]
    exact h.resumed
  · rw [wifiRestored_of_not hPaused]
    exact h

theorem uiTick (hSoon : p.pipe = .idle → ¬p.EndsSoon) : EndInv (p.uiTick luck) := by
  obtain ⟨n, js, hEq, hJs⟩ := p.nearEnd_eq
  have hNear : EndInv p.nearEnd := by
    have hCount : EndInv { p with nearEndCount := n } := h.of_eq rfl rfl rfl rfl rfl
    rw [hEq]
    rcases hJs with rfl | ⟨rfl, hEnds⟩
    · exact hCount.of_eq rfl rfl rfl rfl (List.append_nil _)
    · exact hCount.schedule (h.not_ended fun hIdle => hSoon hIdle hEnds)
  rcases p.nearEnd.stuckPaused_cases luck with ⟨since, hStuck⟩ | ⟨-, -, hStuck⟩
  · rw [Player.uiTick, hStuck]
    exact hNear.of_eq rfl rfl rfl rfl rfl
  · rw [Player.uiTick, hStuck]
    exact hNear.stop.of_eq rfl rfl rfl rfl rfl

theorem pipeEvent {event : PipeEvent} (hEvent : p.pipeEvent event = some p') : EndInv p' := by
  have hIdle : EndInv { p with pipe := .idle } := h.mono rfl rfl le_rfl (.inl rfl) fun _ => .inl
  cases event with
  | running =>
    obtain ⟨hOpening, hEq⟩ := Option.ite_none_right_eq_some.1 hEvent
    obtain rfl := Option.some.inj hEq
    have hRunning : EndInv { p with pipe := .running } :=
      h.mono rfl rfl le_rfl (.inr (by simp [hOpening])) fun x hx => .inl hx
    exact hRunning.onRunning
  | finished =>
    obtain ⟨hRuns, hEq⟩ := Option.ite_none_right_eq_some.1 hEvent
    obtain rfl := Option.some.inj hEq
    rcases onFinished_eq { p with pipe := .idle } with ⟨hEq, -⟩ | ⟨hEq, -⟩
    · rw [hEq]
      exact hIdle
    · rw [hEq]
      exact hIdle.schedule (h.not_ended (by simp [hRuns]))
  | stopped =>
    obtain ⟨-, hEq⟩ := Option.ite_none_right_eq_some.1 hEvent
    obtain ⟨s, hStopped, -⟩ := onStopped_eq { p with pipe := .idle }
    obtain rfl := Option.some.inj hEq
    rw [hStopped]
    exact hIdle.of_eq rfl rfl rfl rfl rfl
  | error =>
    obtain ⟨-, hEq⟩ := Option.ite_none_right_eq_some.1 hEvent
    obtain ⟨s, hError, -⟩ := onError_eq { p with pipe := .idle }
    obtain rfl := Option.some.inj hEq
    rw [hError]
    exact hIdle.of_eq rfl rfl rfl rfl rfl

theorem wake {s : Sleep} (hNotify : ∀ g t, s = .notify g t → t ≤ p.tracks ∧
      (g = p.generation → t ∉ p.ended) ∧
      (g = p.generation → p.pipe = .running → luck.finishes = false)) :
    EndInv (p.wake luck task s) := by
  cases s with
  | switch paused => exact h.doPlay _ _ _
  | retry uri seekSec after => exact h.retryPlay uri seekSec after
  | seek seconds => exact (h.of_eq rfl rfl rfl rfl rfl : EndInv (p.sought seconds)).sleep rfl
  | seekDone => exact h.pipeResume
  | notify generation track =>
    obtain ⟨hTrack, hLive, hEnds⟩ := hNotify generation track rfl
    exact h.delayedStopNotify hTrack hLive hEnds
  | deferred sec => exact h.deferredSeek sec
  | deferredPaused sec => exact h.sleep rfl
  | deferredDone sec => exact h.pipeResume.of_eq rfl rfl rfl rfl rfl
  | promote => exact h.promoteNext
  | noNext =>
    exact (h.of_eq rfl rfl rfl rfl rfl : EndInv (p.setState .transitioning)).sleep rfl
  | waitNext generation trackSeq waited => exact h.waitNext generation trackSeq waited
  | previous => exact h.doPlay _ _ _

theorem step {a : PlayerAction} (hStep : p.step a = some p') (hOrderly : p.Orderly a) :
    EndInv p' := by
  cases a with
  | soap request luck => exact step_soap hStep ▸ h.request request
  | toggle luck => exact step_toggle hStep ▸ h.cbPlayToggle
  | press next => exact Option.some.inj hStep ▸ h.of_eq rfl rfl rfl rfl rfl
  | track luck =>
    obtain ⟨rest, hEq⟩ := step_track hStep
    have hRest : EndInv { p with presses := rest } := h.of_eq rfl rfl rfl rfl rfl
    rcases hEq with rfl | rfl
    exacts [hRest.next, hRest.cbPrevious]
  | wake n luck =>
    obtain ⟨task, s, hGet, rfl⟩ := step_wake hStep
    have hRest : EndInv (p.without n) :=
      h.mono rfl rfl le_rfl (em _) fun x hx => .inl (List.mem_of_mem_eraseIdx hx)
    refine hRest.wake fun g t hs => ?_
    subst hs
    rw [Orderly, hGet] at hOrderly
    have hMem := List.mem_of_getElem? hGet
    exact ⟨(h.past task g t hMem).1, h.live task g t hMem, hOrderly⟩
  | pipe event => exact h.pipeEvent hStep
  | wifi up =>
    obtain rfl := Option.some.inj hStep
    cases up with
    | true => exact h.wifiRestored
    | false => exact h.wifiLost
  | ui luck => exact Option.some.inj hStep ▸ h.uiTick hOrderly
  | tick us => exact Option.some.inj hStep ▸ h.of_eq rfl rfl rfl rfl rfl

end EndInv

/-! ## Every run -/

structure QueueInv (p : Player) : Prop where
  promote : PromoteInv p
  uri : UriInv p
  ends : EndInv p

theorem QueueInv.law (h : QueueInv p) : p.QueueLaw where
  endedOnce := h.ends.nodup
  promotedOnce := h.promote.nodup
  named hPlays := by
    by_contra hNone
    have hSilent := h.uri (by simpa using hNone)
    rcases hPlays with hState | hPipe
    · exact hSilent.notPlaying hState
    · exact absurd (hPipe.symm.trans hSilent.idle) (by decide)

theorem QueueInv.step (h : QueueInv p) {a : PlayerAction} (hStep : p.step a = some p')
    (hOrderly : p.Orderly a) : QueueInv p' :=
  ⟨h.promote.step hStep, h.uri.step hStep hOrderly, h.ends.step hStep hOrderly⟩

theorem queueInv_boot (nowUs : Int) : QueueInv (boot nowUs) where
  promote := ⟨List.nodup_nil, by rintro _ ⟨⟩, by rintro ⟨⟩⟩
  uri _ := ⟨by rintro ⟨⟩, by rintro ⟨⟩, rfl, by rintro _ ⟨⟩⟩
  ends := ⟨List.nodup_nil, by rintro _ ⟨⟩, by rintro ⟨⟩, by rintro _ _ _ ⟨⟩, by rintro _ _ _ ⟨⟩⟩

instance (p : Player) (luck : Luck) : ∀ s, Decidable (p.OrderlyWake luck s)
  | some (_, .promote) => inferInstanceAs (Decidable (_ ∨ _))
  | some (_, .notify _ _) => inferInstanceAs (Decidable (_ → _ → _))
  | none | some (_, .switch _) | some (_, .retry _ _ _) | some (_, .seek _) | some (_, .seekDone)
  | some (_, .deferred _) | some (_, .deferredPaused _) | some (_, .deferredDone _)
  | some (_, .noNext) | some (_, .waitNext _ _ _) | some (_, .previous) => .isTrue trivial

instance (p : Player) : ∀ a, Decidable (p.Orderly a)
  | .wake n luck => inferInstanceAs (Decidable (p.OrderlyWake luck p.sleepers[n]?))
  | .ui _ => inferInstanceAs (Decidable (_ → ¬_))
  | .soap _ _ | .toggle _ | .press _ | .track _ | .pipe _ | .wifi _ | .tick _ => .isTrue trivial

/-- The pipeline does what it is told. -/
def goodLuck : Luck := ⟨true, false⟩

/-- A track is played, and the next one is known. -/
def playingWithNext : List PlayerAction :=
  [.soap (.setUri (Miplay.ascii "http://a/1") none) goodLuck, .soap .play goodLuck, .pipe .running,
    .soap (.setNextUri (Miplay.ascii "http://a/2") []) goodLuck]

end Player

end EspMiplay.Dlna
