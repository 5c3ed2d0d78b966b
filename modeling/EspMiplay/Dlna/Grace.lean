import EspMiplay.Dlna.Handover

/-!
# The grace period

While a track is started or stopped, `dlna.c` keeps the events of the pipeline and the
control points from seeing what happens in between: until `s_grace_until` the state is not
what it seems. A handler may put the end off, but none brings it forward; only time ends the
grace period.

## Results

* `lasts_*`              — the grace period over each handler.
* `Speaker.step_lasts`   — the same over each step but a tick.
-/

namespace EspMiplay.Dlna

open EspMiplay.Miplay (Bytes)

/-- Between two readings of the clock and of the end of the grace period no time passes, and
the grace period does not end. -/
def Lasts (c c' : Int × Int) : Prop := c'.1 = c.1 ∧ (c.1 < c.2 → c'.1 < c'.2)

namespace Lasts

variable {c d e : Int × Int}

theorem refl (c : Int × Int) : Lasts c c := ⟨rfl, id⟩

theorem of_eq (h : d = c) : Lasts c d := h ▸ refl c

theorem trans (h : Lasts c d) (h' : Lasts d e) : Lasts c e :=
  ⟨h'.1.trans h.1, fun hGrace => h'.2 (h.2 hGrace)⟩

end Lasts

namespace Player

variable (p : Player) (luck : Luck) (task : Task)

/-- The clock and the end of the grace period -/
def clock : Int × Int := (p.nowUs, p.graceUntil)

theorem lasts_grace {us : Int} (h : 0 < us) : Lasts p.clock (p.grace us).clock :=
  ⟨rfl, fun _ => Int.lt_add_of_pos_right p.nowUs h⟩

/-! ## Calls to the pipeline -/

@[simp] theorem clock_setState (s : PlayState) : (p.setState s).clock = p.clock := rfl

@[simp] theorem clock_sleep (s : Sleep) : (p.sleep task s).clock = p.clock := rfl

@[simp] theorem clock_onRunning : p.onRunning.clock = p.clock := by
  rw [onRunning_eq]
  rfl

@[simp] theorem clock_onFinished : p.onFinished.clock = p.clock := by
  rcases p.onFinished_eq with ⟨hEq, -⟩ | ⟨hEq, -⟩ <;> rw [hEq]
  rfl

@[simp] theorem clock_onStopped : p.onStopped.clock = p.clock := by
  obtain ⟨_, hEq, -⟩ := p.onStopped_eq
  rw [hEq]
  rfl

@[simp] theorem clock_onError : p.onError.clock = p.clock := by
  obtain ⟨_, hEq, -⟩ := p.onError_eq
  rw [hEq]
  rfl

@[simp] theorem clock_pipePause : p.pipePause.clock = p.clock := by
  obtain ⟨_, hEq, -⟩ := p.pipePause_eq
  rw [hEq]
  rfl

@[simp] theorem clock_pipeResume : p.pipeResume.clock = p.clock := by
  rcases p.pipeResume_eq with ⟨hEq, -⟩ | ⟨hEq, -⟩
  · rw [hEq]
  · rw [hEq, clock_onRunning]
    rfl

@[simp] theorem clock_pipeStop : (p.pipeStop luck).clock = p.clock := by
  obtain ⟨_, _, hEq, -, -⟩ := p.pipeStop_eq luck
  rw [hEq]
  rfl

@[simp] theorem clock_freeze : p.freeze.clock = p.clock := by
  obtain ⟨_, hEq⟩ := p.freeze_eq
  rw [hEq]
  rfl

@[simp] theorem clock_cbSetMetadata (metadata : Bytes) : (p.cbSetMetadata metadata).clock = p.clock := by
  obtain ⟨_, _, _, _, _, _, hEq⟩ := p.cbSetMetadata_eq metadata
  rw [hEq]
  rfl

@[simp] theorem clock_cbSetUri (uri : Bytes) : (p.cbSetUri uri).clock = p.clock := by
  simp only [cbSetUri]
  split_ifs <;> rfl

/-! ## Playing -/

theorem lasts_afterPlay (after : After) : Lasts p.clock (p.afterPlay after).clock := by
  cases after with
  | switched paused =>
    cases paused with
    | true => exact lasts_grace { p with savedPosSec := 0 } (by decide)
    | false => exact .refl _
  | fresh => exact .refl _
  | next metadata => exact .refl _
  | previous => exact .refl _

theorem lasts_played (uri : Bytes) (seekSec : Int) : Lasts p.clock (p.played uri seekSec).clock :=
  lasts_grace p (show (0 : Int) < 8000000 by decide)

theorem lasts_doPlay (uri : Option Bytes) (seekSec : Int) (after : After) :
    Lasts p.clock (p.doPlay task luck uri seekSec after).clock := by
  cases uri with
  | none => exact lasts_afterPlay { p with generation := p.generation + 1, nearEndCount := 0 } after
  | some uri =>
    have hGrace := lasts_grace { p with generation := p.generation + 1, nearEndCount := 0 }
      (show (0 : Int) < 8000000 by decide)
    simp only [doPlay]
    split_ifs
    · exact (hGrace.trans (lasts_played _ uri seekSec)).trans (lasts_afterPlay _ after)
    · exact hGrace

theorem lasts_retryPlay (uri : Bytes) (seekSec : Int) (after : After) :
    Lasts p.clock (p.retryPlay luck uri seekSec after).clock := by
  rw [retryPlay]
  split_ifs
  · exact (p.lasts_played uri seekSec).trans (lasts_afterPlay _ after)
  · exact lasts_afterPlay (p.setState .stopped) after

/-- The pipeline is stopped within a grace period. -/
theorem lasts_grace_pipeStop {us : Int} (h : 0 < us) :
    Lasts p.clock ((p.grace us).pipeStop luck).clock := by
  rw [clock_pipeStop]
  exact p.lasts_grace h

theorem lasts_cbPlay : Lasts p.clock (p.cbPlay task luck).clock := by
  by_cases hPlaying : p.state = .playing
  · by_cases hSame : p.playingUri.isSome ∧ p.playingUri = p.trackUri
    · rw [cbPlay_of_same hPlaying hSame]
      exact .refl _
    · rw [cbPlay_of_switch hPlaying hSame, clock_sleep]
      exact lasts_grace_pipeStop { p with userStopped := false } luck (by decide)
  · by_cases hPaused : p.state = .paused
    · cases hOther : p.otherUri with
      | true =>
        rw [cbPlay_of_paused_switch hPaused hOther, clock_sleep]
        exact lasts_grace_pipeStop { p with userStopped := false } luck (by decide)
      | false =>
        rw [cbPlay_of_resume hPaused hOther]
        have hResume : Lasts p.clock p.resumed.clock := .of_eq p.clock_pipeResume
        exact hResume.trans (p.resumed.lasts_grace (show (0 : Int) < 8000000 by decide))
    · by_cases hTrack : p.trackUri = none
      · rw [cbPlay_of_nothing hPlaying hPaused hTrack]
        exact .refl _
      · rw [cbPlay_of_fresh hPlaying hPaused (Option.isSome_iff_ne_none.2 hTrack)]
        exact p.lasts_doPlay luck task _ _ _

@[simp] theorem clock_cbPause : p.cbPause.clock = p.clock := by
  by_cases hState : p.state = .playing
  · have hPause : p.saved.pipePause.clock = p.saved.clock := p.saved.clock_pipePause
    have hSaved : p.saved.clock = p.clock := clock_freeze { p with pendingSeekSec := 0 }
    rw [cbPause_of_playing hState]
    exact hPause.trans hSaved
  · rw [cbPause_of_not_playing hState]
    rfl

theorem lasts_cbPlayToggle : Lasts p.clock (p.cbPlayToggle task luck).clock := by
  unfold cbPlayToggle
  split_ifs
  · exact .of_eq p.clock_cbPause
  · exact p.lasts_cbPlay luck task

theorem lasts_cbStop : Lasts p.clock (p.cbStop luck).clock := by
  have hFreeze : Lasts p.clock
      ({ p with generation := p.generation + 1, nearEndCount := 0 } : Player).freeze.clock :=
    .of_eq (clock_freeze { p with generation := p.generation + 1, nearEndCount := 0 })
  have hGrace : Lasts p.clock p.stopping.clock := hFreeze.trans (lasts_grace _ (show (0 : Int) < 2000000 by decide))
  rw [cbStop_eq]
  exact hGrace.trans (.of_eq (p.stopping.clock_pipeStop luck))

@[simp] theorem clock_cbSeek (seconds : Int) : (p.cbSeek task seconds).clock = p.clock := by
  by_cases hState : p.state = .playing
  · rw [cbSeek_of_playing hState, clock_sleep, clock_pipePause]
    rfl
  · rw [cbSeek_of_not_playing hState]
    rfl

theorem lasts_cbNext : Lasts p.clock (p.cbNext task luck).clock := by
  cases hNext : p.hasNext with
  | true =>
    rw [cbNext_of_next hNext, clock_sleep]
    exact lasts_grace_pipeStop p.leaveTrack luck (by decide)
  | false =>
    rw [cbNext_of_none hNext, clock_sleep]
    exact lasts_grace_pipeStop p.leaveTrack luck (by decide)

theorem lasts_cbPrevious : Lasts p.clock (p.cbPrevious task luck).clock := by
  by_cases hTrack : p.trackUri = none
  · rw [cbPrevious_of_none hTrack, clock_setState, clock_pipeStop]
    exact .refl _
  · rw [cbPrevious_of_some (Option.isSome_iff_ne_none.2 hTrack), clock_sleep]
    exact lasts_grace_pipeStop p.leaveTrack luck (by decide)

/-! ## The other tasks -/

theorem lasts_delayedStopNotify (generation track : Nat) :
    Lasts p.clock (p.delayedStopNotify luck generation track).clock := by
  by_cases hLive : generation = p.generation
  · rw [delayedStopNotify_of_live hLive]
    exact (Lasts.of_eq p.clock_freeze).trans
      (lasts_cbNext { p.freeze with ended := track :: p.ended } luck .finish)
  · rw [delayedStopNotify_of_stale hLive]
    exact .refl _

@[simp] theorem clock_deferredSeek (sec : Int) : (p.deferredSeek sec).clock = p.clock := by
  by_cases hState : p.state = .playing
  · rw [deferredSeek_of_playing hState, clock_sleep, clock_pipePause]
    rfl
  · rw [deferredSeek_of_not_playing hState]

theorem lasts_promoteNext : Lasts p.clock (p.promoteNext task luck).clock := by
  rw [promoteNext_eq]
  exact p.withNext.lasts_doPlay luck task _ _ _

theorem lasts_waitNext (generation trackSeq waited : Nat) :
    Lasts p.clock (p.waitNext task luck generation trackSeq waited).clock := by
  rcases p.waitNext_cases luck task generation trackSeq waited with
    ⟨-, hEq⟩ | hEq | ⟨-, hEq⟩ | ⟨-, hEq⟩
  · rw [hEq]
    exact p.lasts_promoteNext luck task
  all_goals
    rw [hEq]
    exact .refl _

theorem lasts_wake (s : Sleep) : Lasts p.clock (p.wake luck task s).clock := by
  cases s with
  | switch paused => exact p.lasts_doPlay luck task _ _ _
  | retry uri seekSec after => exact p.lasts_retryPlay luck _ _ _
  | seek seconds => exact .refl _
  | seekDone => exact .of_eq p.clock_pipeResume
  | notify generation track => exact p.lasts_delayedStopNotify luck _ _
  | deferred sec => exact .of_eq (p.clock_deferredSeek sec)
  | deferredPaused sec => exact .refl _
  | deferredDone sec => exact .of_eq p.clock_pipeResume
  | promote => exact p.lasts_promoteNext luck task
  | noNext => exact .refl _
  | waitNext generation trackSeq waited => exact p.lasts_waitNext luck task _ _ _
  | previous => exact p.lasts_doPlay luck task _ _ _

@[simp] theorem clock_wifiLost : p.wifiLost.clock = p.clock := by
  by_cases hState : p.state = .playing
  · rw [wifiLost_of_playing hState]
    exact p.clock_pipePause
  · rw [wifiLost_of_not_playing hState]

@[simp] theorem clock_wifiRestored : p.wifiRestored.clock = p.clock := by
  by_cases hState : p.state = .paused ∧ p.userStopped = false
  · rw [wifiRestored_of_paused hState.1 hState.2]
    exact p.clock_pipeResume
  · rw [wifiRestored_of_not hState]

@[simp] theorem clock_uiTick : (p.uiTick luck).clock = p.clock := by
  obtain ⟨n, js, hNear, -⟩ := p.nearEnd_eq
  rw [uiTick, hNear]
  rcases stuckPaused_cases { p with nearEndCount := n, sleepers := p.sleepers ++ js } luck with
    ⟨_, hEq⟩ | ⟨-, -, hEq⟩
  · rw [hEq]
    rfl
  · rw [hEq]
    exact clock_pipeStop { p with nearEndCount := n, sleepers := p.sleepers ++ js } luck

theorem clock_pipeEvent {p' : Player} {event : PipeEvent} (h : p.pipeEvent event = some p') :
    p'.clock = p.clock := by
  cases event with
  | running =>
    obtain ⟨-, hEq⟩ := Option.ite_none_right_eq_some.1 h
    rw [← Option.some.inj hEq, clock_onRunning]
    rfl
  | finished =>
    obtain ⟨-, hEq⟩ := Option.ite_none_right_eq_some.1 h
    rw [← Option.some.inj hEq, clock_onFinished]
    rfl
  | stopped =>
    obtain ⟨-, hEq⟩ := Option.ite_none_right_eq_some.1 h
    rw [← Option.some.inj hEq, clock_onStopped]
    rfl
  | error =>
    obtain ⟨-, hEq⟩ := Option.ite_none_right_eq_some.1 h
    rw [← Option.some.inj hEq, clock_onError]
    rfl

end Player

/-! ## The speaker -/

namespace Speaker

variable {s s' : Speaker} {luck : Luck} {ends : Bool} {task : Task}

theorem clock_miplayEvent (s : Speaker) (event : PipeEvent) :
    (s.miplayEvent event).player.clock = s.player.clock := by
  cases event with
  | running => rfl
  | finished => rfl
  | stopped =>
    rw [miplayEvent]
    split_ifs <;> rfl
  | error => rfl

theorem clock_miplayPipelineStop (s : Speaker) (ends : Bool) :
    (s.miplayPipelineStop ends).player.clock = s.player.clock := by
  unfold miplayPipelineStop
  split_ifs
  · rfl
  · exact clock_miplayEvent _ _
  · exact clock_miplayEvent _ _

theorem clock_detach (s : Speaker) (ends : Bool) : (s.detach ends).player.clock = s.player.clock := by
  unfold detach
  split_ifs
  · exact clock_miplayPipelineStop _ ends
  · rfl

theorem clock_onConnected (s : Speaker) (up : Bool) (luck : Luck) (ends : Bool) :
    (s.onConnected up luck ends).player.clock = s.player.clock := by
  unfold onConnected
  split_ifs
  · exact Player.clock_pipeStop
      { s.player with curTitle := [], curArtist := [], durCacheSec := 0, generation := s.player.generation + 1 }
      luck
  · exact clock_miplayPipelineStop _ ends

theorem clock_onMediaStart (s : Speaker) (start runs ends : Bool) :
    (s.onMediaStart start runs ends).player.clock = s.player.clock := by
  unfold onMediaStart miplayPipelineStart
  split_ifs
  · exact clock_miplayPipelineStop _ ends
  · exact clock_miplayPipelineStop _ ends
  · exact (clock_miplayPipelineStop _ ends).trans s.player.clock_freeze

theorem clock_setAvTransportUri (s : Speaker) (uri : Bytes) (metadata : Option Bytes) (ends : Bool) :
    (s.setAvTransportUri uri metadata ends).player.clock = s.player.clock := by
  have hSet (t : Speaker) : (t.cbSetUri uri ends).player.clock = t.player.clock := by
    unfold cbSetUri
    split_ifs
    · exact t.player.clock_cbSetUri uri
    · exact (clock_detach _ ends).trans (t.player.clock_cbSetUri uri)
  unfold setAvTransportUri cbSetMetadata
  split_ifs
  · exact hSet _
  · rw [Player.clock_cbSetMetadata]
    exact hSet _

theorem lasts_unlessConnected {p : Player} (h : Lasts s.player.clock p.clock) :
    Lasts s.player.clock (s.unlessConnected p).player.clock := by
  unfold unlessConnected
  split_ifs
  · exact .refl _
  · exact h

theorem request_lasts (request : AvtRequest) :
    Lasts s.player.clock (s.request luck ends request).player.clock := by
  have hDetach : Lasts s.player.clock (s.detach ends).player.clock := .of_eq (s.clock_detach ends)
  cases request with
  | setUri uri metadata =>
    simp only [Speaker.request]
    split_ifs
    · exact .of_eq (s.clock_setAvTransportUri uri metadata ends)
    · exact .refl _
  | setNextUri uri metadata => exact .refl _
  | play => exact hDetach.trans ((s.detach ends).player.lasts_cbPlay luck .soap)
  | pause => exact lasts_unlessConnected (.of_eq s.player.clock_cbPause)
  | stop => exact s.player.lasts_cbStop luck
  | seek seconds => exact hDetach.trans (.of_eq ((s.detach ends).player.clock_cbSeek .soap seconds))
  | next => exact lasts_unlessConnected (s.player.lasts_cbNext luck .soap)
  | previous => exact lasts_unlessConnected (s.player.lasts_cbPrevious luck .soap)

theorem wake_lasts (sleep : Sleep) : Lasts s.player.clock (s.wake luck task sleep).player.clock := by
  by_cases hNotify : ∃ generation track, sleep = .notify generation track
  · obtain ⟨generation, track, rfl⟩ := hNotify
    simp only [Speaker.wake, forwardedNotify]
    split_ifs
    · exact .refl _
    · exact .of_eq s.player.clock_freeze
    · exact s.player.lasts_delayedStopNotify luck _ _
  · rw [wake_eq fun generation track hIs => hNotify ⟨generation, track, hIs⟩]
    exact s.player.lasts_wake luck task sleep

theorem playerStep_lasts {a : PlayerAction} (h : s.playerStep ends a = some s') (hTick : ∀ us, a ≠ .tick us) :
    Lasts s.player.clock s'.player.clock := by
  cases a with
  | soap request luck =>
    obtain ⟨-, hEq⟩ := Option.ite_none_right_eq_some.1 h
    rw [← Option.some.inj hEq]
    exact request_lasts request
  | toggle luck =>
    obtain ⟨-, hEq⟩ := Option.ite_none_right_eq_some.1 h
    rw [← Option.some.inj hEq]
    exact lasts_unlessConnected (s.player.lasts_cbPlayToggle luck .btnCtrl)
  | press next => exact Option.some.inj h ▸ .refl _
  | track luck =>
    obtain ⟨-, hEq⟩ := Option.ite_none_right_eq_some.1 h
    split at hEq
    · contradiction
    · rename_i next rest _
      rw [← Option.some.inj hEq]
      cases next with
      | true => exact lasts_unlessConnected (Player.lasts_cbNext { s.player with presses := rest } luck .btnTrack)
      | false =>
        exact lasts_unlessConnected (Player.lasts_cbPrevious { s.player with presses := rest } luck .btnTrack)
  | wake n luck =>
    rw [playerStep] at h
    split at h
    · contradiction
    · rw [← Option.some.inj h]
      exact wake_lasts (s := { s with player := s.player.without n }) _
  | pipe event =>
    obtain ⟨p, hEvent, rfl⟩ := Option.map_eq_some_iff.1 h
    exact .of_eq (s.player.clock_pipeEvent hEvent)
  | wifi up =>
    rw [← Option.some.inj h]
    cases up with
    | true => exact .of_eq s.player.clock_wifiRestored
    | false => exact .of_eq s.player.clock_wifiLost
  | ui luck =>
    rw [← Option.some.inj h]
    unfold Speaker.uiTick
    split_ifs
    · exact .refl _
    · exact .of_eq (s.player.clock_uiTick luck)
  | tick us => exact absurd rfl (hTick us)

/-- **One step.** Only time ends the grace period. -/
theorem step_lasts {a : SpeakerAction} (h : s.step a = some s')
    (hTick : ∀ us ends, a ≠ .player (.tick us) ends) : Lasts s.player.clock s'.player.clock := by
  cases a with
  | player a ends => exact playerStep_lasts h fun us hIs => hTick us ends (hIs ▸ rfl)
  | connected up luck ends => exact Option.some.inj h ▸ .of_eq (s.clock_onConnected up luck ends)
  | media start runs ends => exact Option.some.inj h ▸ .of_eq (s.clock_onMediaStart start runs ends)
  | miplay event =>
    cases event <;> obtain ⟨-, hEq⟩ := Option.ite_none_right_eq_some.1 h <;>
      exact Option.some.inj hEq ▸ .of_eq (clock_miplayEvent { s with miplay := _ } _)

end Speaker

end EspMiplay.Dlna
