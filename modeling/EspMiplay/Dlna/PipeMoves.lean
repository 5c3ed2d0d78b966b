import EspMiplay.Dlna.PlayerSteps

/-!
# What the handlers do to the pipeline

A handler makes at most one move: it stops the pipeline, runs it anew, pauses it or resumes
it. Of what the pipeline plays only the URI it was last run with is known
(`s_playing_uri`).

## Results

* `Moves.loaded`  — a pipeline that is not idle was run with some URI.
* `Moves.begins`  — only a resume and the pipeline itself make it run.
* `moves_*`       — the move of each handler.
-/

namespace EspMiplay.Dlna

open EspMiplay.Miplay (Bytes)

/-- One move; `begins` says whether it may make the pipeline run. -/
inductive Moves (begins : Prop) : Pipe × Option Bytes → Pipe × Option Bytes → Prop where
  | keep (pipe : Pipe) (uri : Option Bytes) : Moves begins (pipe, uri) (pipe, uri)
  | stop (pipe : Pipe) (uri : Option Bytes) : Moves begins (pipe, uri) (.idle, uri)
  | run (pipe : Pipe) (last : Option Bytes) (uri : Bytes) : Moves begins (pipe, last) (.opening, some uri)
  | pause (uri : Option Bytes) : Moves begins (.running, uri) (.paused, uri)
  | resume (h : begins) (uri : Option Bytes) : Moves begins (.paused, uri) (.running, uri)
  | opened (h : begins) (uri : Option Bytes) : Moves begins (.opening, uri) (.running, uri)

namespace Moves

variable {b c : Prop} {e e' : Pipe × Option Bytes}

theorem mono (h : Moves b e e') (hBegins : b → c) : Moves c e e' := by
  cases h with
  | keep pipe uri => exact .keep pipe uri
  | stop pipe uri => exact .stop pipe uri
  | run pipe last uri => exact .run pipe last uri
  | pause uri => exact .pause uri
  | resume hb uri => exact .resume (hBegins hb) uri
  | opened hb uri => exact .opened (hBegins hb) uri

theorem of_not (h : Moves False e e') : Moves b e e' := h.mono False.elim

theorem loaded (h : Moves b e e') (hLoaded : e.1 ≠ .idle → e.2.isSome) (hBusy : e'.1 ≠ .idle) :
    e'.2.isSome := by
  cases h with
  | keep pipe uri => exact hLoaded hBusy
  | stop pipe uri => exact absurd rfl hBusy
  | run pipe last uri => rfl
  | pause uri => exact hLoaded (by simp)
  | resume hb uri => exact hLoaded (by simp)
  | opened hb uri => exact hLoaded (by simp)

theorem begins (h : Moves b e e') (hRuns : e'.1 = .running) : e.1 = .running ∨ b := by
  cases h with
  | keep pipe uri => exact .inl hRuns
  | stop pipe uri => contradiction
  | run pipe last uri => contradiction
  | pause uri => contradiction
  | resume hb uri => exact .inr hb
  | opened hb uri => exact .inr hb

end Moves

namespace Player

variable (p : Player) (luck : Luck) (task : Task)

/-- The pipeline, and what it was last run with -/
def deck : Pipe × Option Bytes := (p.pipe, p.playingUri)

theorem moves_of_deck {p' : Player} (h : p'.deck = p.deck) : Moves False p.deck p'.deck := by
  rw [h]
  exact .keep p.pipe p.playingUri

/-! ## Calls to the pipeline -/

theorem moves_pipePause : Moves False p.deck p.pipePause.deck := by
  obtain ⟨s, hEq, -⟩ := p.pipePause_eq
  rw [hEq]
  by_cases hRuns : p.pipe = .running
  · simp only [deck, hRuns]
    exact .pause p.playingUri
  · simp only [deck, if_neg hRuns]
    exact .keep p.pipe p.playingUri

theorem moves_pipeResume : Moves (p.pipe = .paused) p.deck p.pipeResume.deck := by
  rcases p.pipeResume_eq with ⟨hEq, -⟩ | ⟨hEq, hPaused⟩
  · rw [hEq]
    exact .keep p.pipe p.playingUri
  · rw [hEq, onRunning_eq]
    simp only [deck, hPaused]
    exact .resume trivial p.playingUri

theorem moves_pipeStop : Moves False p.deck (p.pipeStop luck).deck := by
  obtain ⟨s, js, hEq, -, -⟩ := p.pipeStop_eq luck
  rw [hEq]
  exact .stop p.pipe p.playingUri

@[simp] theorem deck_freeze : p.freeze.deck = p.deck := by
  obtain ⟨ms, hEq⟩ := p.freeze_eq
  rw [hEq]
  rfl

@[simp] theorem deck_cbSetMetadata (metadata : Bytes) : (p.cbSetMetadata metadata).deck = p.deck := by
  obtain ⟨_, _, _, _, _, _, hEq⟩ := p.cbSetMetadata_eq metadata
  rw [hEq]
  rfl

@[simp] theorem deck_cbSetUri (uri : Bytes) : (p.cbSetUri uri).deck = p.deck := by
  simp only [cbSetUri]
  split_ifs <;> rfl

@[simp] theorem deck_leaveTrack : p.leaveTrack.deck = p.deck := rfl

@[simp] theorem deck_afterPlay (after : After) : (p.afterPlay after).deck = p.deck := by
  cases after with
  | switched paused => cases paused <;> rfl
  | fresh => rfl
  | next metadata => rfl
  | previous => rfl

/-! ## Playing -/

theorem moves_doPlay (uri : Option Bytes) (seekSec : Int) (after : After) :
    Moves False p.deck (p.doPlay task luck uri seekSec after).deck := by
  cases uri with
  | none =>
    rw [doPlay, deck_afterPlay]
    exact .keep p.pipe p.playingUri
  | some uri =>
    simp only [doPlay]
    split_ifs
    · rw [deck_afterPlay]
      exact .run p.pipe p.playingUri uri
    · exact .keep p.pipe p.playingUri

theorem moves_retryPlay (uri : Bytes) (seekSec : Int) (after : After) :
    Moves False p.deck (p.retryPlay luck uri seekSec after).deck := by
  rw [retryPlay, deck_afterPlay]
  split_ifs
  · exact .run p.pipe p.playingUri uri
  · exact .keep p.pipe p.playingUri

/-- Play resumes a paused track. -/
def PlayResumes : Prop := p.pipe = .paused ∧ p.state = .paused ∧ p.otherUri = false

theorem moves_cbPlay : Moves p.PlayResumes p.deck (p.cbPlay task luck).deck := by
  by_cases hPlaying : p.state = .playing
  · by_cases hSame : p.playingUri.isSome ∧ p.playingUri = p.trackUri
    · rw [cbPlay_of_same hPlaying hSame]
      exact .keep p.pipe p.playingUri
    · rw [cbPlay_of_switch hPlaying hSame]
      exact (moves_pipeStop ({ p with userStopped := false }.grace 1500000) luck).of_not
  · by_cases hPaused : p.state = .paused
    · cases hOther : p.otherUri with
      | true =>
        rw [cbPlay_of_paused_switch hPaused hOther]
        exact (moves_pipeStop ({ p with userStopped := false }.grace 1500000) luck).of_not
      | false =>
        rw [cbPlay_of_resume hPaused hOther]
        exact p.moves_pipeResume.mono fun hPipe => ⟨hPipe, hPaused, hOther⟩
    · by_cases hTrack : p.trackUri = none
      · rw [cbPlay_of_nothing hPlaying hPaused hTrack]
        exact .keep p.pipe p.playingUri
      · rw [cbPlay_of_fresh hPlaying hPaused (Option.isSome_iff_ne_none.2 hTrack)]
        exact (p.moves_doPlay luck task _ _ _).of_not

theorem moves_cbPause : Moves False p.deck p.cbPause.deck := by
  by_cases hState : p.state = .playing
  · have hPause := p.saved.moves_pipePause
    rw [cbPause_of_playing hState]
    have hSaved : p.saved.deck = p.deck := deck_freeze { p with pendingSeekSec := 0 }
    rw [hSaved] at hPause
    exact hPause
  · rw [cbPause_of_not_playing hState]
    exact .keep p.pipe p.playingUri

theorem moves_cbPlayToggle :
    Moves (p.state ≠ .playing ∧ p.PlayResumes) p.deck (p.cbPlayToggle task luck).deck := by
  unfold cbPlayToggle
  split_ifs with hState
  · exact p.moves_cbPause.of_not
  · exact (p.moves_cbPlay luck task).mono fun hBegins => ⟨hState, hBegins⟩

theorem moves_cbStop : Moves False p.deck (p.cbStop luck).deck := by
  have hStop := p.stopping.moves_pipeStop luck
  have hSame : p.stopping.deck = p.deck :=
    deck_freeze { p with generation := p.generation + 1, nearEndCount := 0 }
  rw [hSame] at hStop
  rw [cbStop_eq]
  exact hStop

theorem moves_cbSeek (seconds : Int) : Moves False p.deck (p.cbSeek task seconds).deck := by
  by_cases hState : p.state = .playing
  · rw [cbSeek_of_playing hState]
    exact moves_pipePause { p with generation := p.generation + 1, nearEndCount := 0 }
  · rw [cbSeek_of_not_playing hState]
    exact .keep p.pipe p.playingUri

theorem moves_cbNext : Moves False p.deck (p.cbNext task luck).deck := by
  cases hNext : p.hasNext with
  | true =>
    rw [cbNext_of_next hNext]
    exact moves_pipeStop (p.leaveTrack.grace 1500000) luck
  | false =>
    rw [cbNext_of_none hNext]
    exact moves_pipeStop (p.leaveTrack.grace 1000000) luck

theorem moves_cbPrevious : Moves False p.deck (p.cbPrevious task luck).deck := by
  by_cases hTrack : p.trackUri = none
  · rw [cbPrevious_of_none hTrack]
    exact moves_pipeStop p.leaveTrack luck
  · rw [cbPrevious_of_some (Option.isSome_iff_ne_none.2 hTrack)]
    exact moves_pipeStop (p.leaveTrack.grace 1000000) luck

/-! ## The other tasks -/

theorem moves_delayedStopNotify (generation track : Nat) :
    Moves False p.deck (p.delayedStopNotify luck generation track).deck := by
  by_cases hLive : generation = p.generation
  · rw [delayedStopNotify_of_live hLive]
    have hNext := moves_cbNext { p.freeze with ended := track :: p.ended } luck .finish
    rwa [show deck { p.freeze with ended := track :: p.ended } = p.deck from p.deck_freeze] at hNext
  · rw [delayedStopNotify_of_stale hLive]
    exact .keep p.pipe p.playingUri

theorem moves_deferredSeek (sec : Int) : Moves False p.deck (p.deferredSeek sec).deck := by
  by_cases hState : p.state = .playing
  · rw [deferredSeek_of_playing hState]
    exact moves_pipePause { p with generation := p.generation + 1 }
  · rw [deferredSeek_of_not_playing hState]
    exact .keep p.pipe p.playingUri

theorem moves_promoteNext : Moves False p.deck (p.promoteNext task luck).deck := by
  rw [promoteNext_eq]
  exact p.withNext.moves_doPlay luck task _ _ _

theorem moves_waitNext (generation trackSeq waited : Nat) :
    Moves False p.deck (p.waitNext task luck generation trackSeq waited).deck := by
  rcases p.waitNext_cases luck task generation trackSeq waited with
    ⟨-, hEq⟩ | hEq | ⟨-, hEq⟩ | ⟨-, hEq⟩
  · rw [hEq]
    exact p.moves_promoteNext luck task
  all_goals
    rw [hEq]
    exact .keep p.pipe p.playingUri

/-- The pipeline goes on after a seek. -/
def WakeResumes (s : Sleep) : Prop := p.pipe = .paused ∧ (s = .seekDone ∨ ∃ sec, s = .deferredDone sec)

theorem moves_wake (s : Sleep) : Moves (p.WakeResumes s) p.deck (p.wake luck task s).deck := by
  cases s with
  | switch paused => exact (p.moves_doPlay luck task _ _ _).of_not
  | retry uri seekSec after => exact (p.moves_retryPlay luck _ _ _).of_not
  | seek seconds => exact .keep p.pipe p.playingUri
  | seekDone => exact p.moves_pipeResume.mono fun hPaused => ⟨hPaused, .inl rfl⟩
  | notify generation track => exact (p.moves_delayedStopNotify luck _ _).of_not
  | deferred sec => exact (p.moves_deferredSeek sec).of_not
  | deferredPaused sec => exact .keep p.pipe p.playingUri
  | deferredDone sec => exact p.moves_pipeResume.mono fun hPaused => ⟨hPaused, .inr ⟨sec, rfl⟩⟩
  | promote => exact (p.moves_promoteNext luck task).of_not
  | noNext => exact .keep p.pipe p.playingUri
  | waitNext generation trackSeq waited => exact (p.moves_waitNext luck task _ _ _).of_not
  | previous => exact (p.moves_doPlay luck task _ _ _).of_not

theorem moves_wifiLost : Moves False p.deck p.wifiLost.deck := by
  by_cases hState : p.state = .playing
  · rw [wifiLost_of_playing hState]
    exact p.moves_pipePause
  · rw [wifiLost_of_not_playing hState]
    exact .keep p.pipe p.playingUri

/-- A pause that is not the user's ends when the network is back. -/
def WifiResumes : Prop := p.pipe = .paused ∧ p.state = .paused ∧ p.userStopped = false

theorem moves_wifiRestored : Moves p.WifiResumes p.deck p.wifiRestored.deck := by
  by_cases hState : p.state = .paused ∧ p.userStopped = false
  · rw [wifiRestored_of_paused hState.1 hState.2]
    exact p.moves_pipeResume.mono fun hPipe => ⟨hPipe, hState⟩
  · rw [wifiRestored_of_not hState]
    exact .keep p.pipe p.playingUri

theorem moves_uiTick : Moves False p.deck (p.uiTick luck).deck := by
  obtain ⟨n, js, hNear, -⟩ := p.nearEnd_eq
  rw [uiTick, hNear]
  rcases stuckPaused_cases { p with nearEndCount := n, sleepers := p.sleepers ++ js } luck with
    ⟨_, hEq⟩ | ⟨-, -, hEq⟩
  · rw [hEq]
    exact .keep p.pipe p.playingUri
  · rw [hEq]
    exact moves_pipeStop { p with nearEndCount := n, sleepers := p.sleepers ++ js } luck

/-- The events of the pipeline: it runs, or it is idle. -/
theorem moves_pipeEvent {p' : Player} {event : PipeEvent} (h : p.pipeEvent event = some p') :
    Moves (p.pipe = .opening ∧ event = .running) p.deck p'.deck := by
  cases event with
  | running =>
    obtain ⟨hOpening, hEq⟩ := Option.ite_none_right_eq_some.1 h
    rw [← Option.some.inj hEq, onRunning_eq]
    simp only [deck, hOpening]
    exact .opened ⟨trivial, trivial⟩ p.playingUri
  | finished =>
    obtain ⟨-, hEq⟩ := Option.ite_none_right_eq_some.1 h
    rw [← Option.some.inj hEq]
    rcases onFinished_eq { p with pipe := .idle } with ⟨hSame, -⟩ | ⟨hSame, -⟩ <;> rw [hSame] <;>
      exact .stop p.pipe p.playingUri
  | stopped =>
    obtain ⟨-, hEq⟩ := Option.ite_none_right_eq_some.1 h
    obtain ⟨_, hSame, -⟩ := onStopped_eq { p with pipe := .idle }
    rw [← Option.some.inj hEq, hSame]
    exact .stop p.pipe p.playingUri
  | error =>
    obtain ⟨-, hEq⟩ := Option.ite_none_right_eq_some.1 h
    obtain ⟨_, hSame, -⟩ := onError_eq { p with pipe := .idle }
    rw [← Option.some.inj hEq, hSame]
    exact .stop p.pipe p.playingUri

end Player

end EspMiplay.Dlna
