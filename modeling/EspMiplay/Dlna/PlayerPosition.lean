import EspMiplay.Dlna.PlayerSteps
import EspMiplay.Lib.Stopwatch

/-!
# The position of the player

The position is kept as the time that has been added up (`accumulatedMs`) and the time
it was last started (`playStartUs`, zero when it stands). The display adds the time
since the start whenever there is one, a control point only while the state is PLAYING.

Beside the player runs a list of laps, one for each stretch of time spent in PLAYING,
counted from what the last seek or the last start of a track set.

## Results

* `Clocked.step`    — the player and the laps agree after every `Steady` step.
* `accounted_along` — both positions are the laps' along every run of such steps.
* `seek_in_pause`   — a seek during a pause starts the clock of the display.
-/

namespace EspMiplay.Dlna

open Transition
open EspMiplay.Miplay (Bytes peek)

namespace Player

variable (p : Player) (luck : Luck) (task : Task)

/-! ## What keeps the time -/

/-- The clock and the position, and how many tracks have been started. -/
def times : Int × Int × Int × Nat := (p.nowUs, p.accumulatedMs, p.playStartUs, p.tracks)

@[simp] theorem times_setState (s : PlayState) : (p.setState s).times = p.times := rfl

@[simp] theorem times_grace (us : Int) : (p.grace us).times = p.times := rfl

@[simp] theorem times_sleep (s : Sleep) : (p.sleep task s).times = p.times := rfl

@[simp] theorem times_pipePause : p.pipePause.times = p.times := by
  obtain ⟨s, hEq, -⟩ := p.pipePause_eq
  rw [hEq]
  rfl

@[simp] theorem times_pipeStop : (p.pipeStop luck).times = p.times := by
  obtain ⟨s, js, hEq, -, -⟩ := p.pipeStop_eq luck
  rw [hEq]
  rfl

@[simp] theorem times_cbSetMetadata (metadata : Bytes) : (p.cbSetMetadata metadata).times = p.times := by
  obtain ⟨_, _, _, _, _, _, hEq⟩ := p.cbSetMetadata_eq metadata
  rw [hEq]
  rfl

@[simp] theorem times_afterPlay (after : After) : (p.afterPlay after).times = p.times := by
  cases after with
  | switched paused => cases paused <;> rfl
  | _ => rfl

/-- The display shows what a freeze adds up. -/
theorem times_freeze :
    p.freeze.times =
      (p.nowUs, p.getPositionMs, if p.playStartUs > 0 then 0 else p.playStartUs, p.tracks) := by
  unfold freeze getPositionMs times
  split_ifs <;> rfl

theorem state_freeze : p.freeze.state = p.state := by
  obtain ⟨ms, hEq⟩ := p.freeze_eq
  rw [hEq]

theorem state_afterPlay (after : After) : (p.afterPlay after).state = p.state := by
  cases after with
  | switched paused => cases paused <;> rfl
  | _ => rfl

variable {p luck task}

/-- Within the grace period a stop changes no state. -/
theorem state_pipeStop (h : p.nowUs < p.graceUntil) : (p.pipeStop luck).state = p.state := by
  obtain ⟨s, js, hEq, rfl | ⟨-, hGrace, -⟩, -⟩ := p.pipeStop_eq luck
  · rw [hEq]
  · exact absurd h (not_lt.2 hGrace)

/-- The pipeline tells of a pause that the player takes for the user's. -/
def Mistaken (p : Player) : Prop := p.userStopped ∧ p.pipe = .running

theorem state_pipePause (h : ¬p.Mistaken) : p.pipePause.state = p.state := by
  by_cases hRuns : p.pipe = .running
  · obtain ⟨s, hEq, rfl | ⟨-, hUser⟩⟩ := p.pipePause_eq
    · rw [hEq]
    · exact absurd ⟨hUser, hRuns⟩ h
  · rw [pipePause, if_neg hRuns]

variable (p task luck) in
/-- `_do_play` starts the track, or leaves the time alone. -/
theorem doPlay_cases (uri : Option Bytes) (seekSec : Int) (after : After) :
    (p.doPlay task luck uri seekSec after).times = p.times ∧
        (p.doPlay task luck uri seekSec after).state = p.state ∨
      (p.doPlay task luck uri seekSec after).times =
          (p.nowUs, seekSec * 1000, p.nowUs, p.tracks + 1) ∧
        (p.doPlay task luck uri seekSec after).state = .playing := by
  cases uri with
  | none =>
    refine .inl ⟨?_, ?_⟩
    · rw [doPlay, times_afterPlay]
      rfl
    · rw [doPlay, state_afterPlay]
  | some uri =>
    simp only [doPlay]
    split_ifs
    · refine .inr ⟨?_, ?_⟩
      · rw [times_afterPlay]
        rfl
      · rw [state_afterPlay]
        rfl
    · exact .inl ⟨rfl, rfl⟩

end Player

/-! ## The laps -/

/-- The laps after a handler that took the player from `p` to `p'` and set `base`. -/
def lapsAfter (log : Laps) (p p' : Player) (base : Option Int) : Laps :=
  let log := base.elim log (log.rebase p.nowUs)
  if p.state = .playing then
    if p'.state = .playing then log else log.stop p.nowUs
  else if p'.state = .playing then log.start p.nowUs
  else log

/-- What a handler sets: where it starts a track, or what it sets besides. -/
def based (p p' : Player) (sec : Int) (other : Option Int) : Option Int :=
  if p'.tracks ≠ p.tracks then some (sec * 1000) else other

theorem based_same {p p' : Player} {sec : Int} {other : Option Int} (h : p'.tracks = p.tracks) :
    based p p' sec other = other := if_neg (not_not.2 h)

/-- The player and the laps agree. -/
structure Clocked (p : Player) (log : Laps) : Prop where
  now : 0 < p.nowUs
  start : 0 ≤ p.playStartUs ∧ p.playStartUs ≤ p.nowUs
  stands : p.state ≠ .playing → p.playStartUs = 0
  /-- a lap begins when the player starts; the start may still have to be noted -/
  since : log.since =
    if p.state = .playing then some (if p.playStartUs = 0 then p.nowUs else p.playStartUs)
    else none
  shown : (log.watch 1000).shown = p.accumulatedMs

namespace Clocked

open Player

variable {p p' : Player} {log : Laps} {luck : Luck} {task : Task} {ms sec : Int}

theorem times_eq (h : p'.times = (p.nowUs, p.accumulatedMs, p.playStartUs, p.tracks)) :
    p'.nowUs = p.nowUs ∧ p'.accumulatedMs = p.accumulatedMs ∧ p'.playStartUs = p.playStartUs ∧
      p'.tracks = p.tracks := by
  simpa [times] using h

variable (h : Clocked p log)

include h

/-- What the laps read is the position. -/
theorem read : (log.watch 1000).read 1000 p.nowUs = p.getPositionMs := by
  rw [Stopwatch.read, h.shown, Laps.elapsed_watch, h.since, getPositionMs]
  by_cases hState : p.state = .playing
  · have hStart := h.start
    by_cases hZero : p.playStartUs = 0
    · simp [hState, hZero]
    · have hPos : p.playStartUs > 0 := by omega
      have hDiff : 0 ≤ p.nowUs - p.playStartUs := by omega
      simp only [if_pos hState, if_neg hZero, if_pos hPos]
      rw [Int.tdiv_eq_ediv_of_nonneg hDiff]
  · simp [if_neg hState, h.stands hState]

/-! ### The ways a handler changes the time -/

/-- The time goes on as it did. -/
theorem keep (hTimes : p'.times = p.times) (hState : p'.state = .playing ↔ p.state = .playing) :
    Clocked p' (lapsAfter log p p' (based p p' sec none)) := by
  obtain ⟨hNow, hMs, hStart, hTracks⟩ := times_eq hTimes
  rw [based_same hTracks]
  have hLog : lapsAfter log p p' none = log := by
    unfold lapsAfter
    split_ifs <;> simp_all
  rw [hLog]
  refine ⟨hNow ▸ h.now, hStart ▸ hNow ▸ h.start, ?_, ?_, hMs ▸ h.shown⟩
  · rw [hStart, ne_eq, hState]
    exact h.stands
  · simp only [hState, hStart, hNow]
    exact h.since

theorem keep' (hTimes : p'.times = p.times) (hState : p'.state = p.state) :
    Clocked p' (lapsAfter log p p' (based p p' sec none)) := h.keep hTimes (by rw [hState])

/-- The player plays, and the start is noted if it was not. -/
theorem goOn (hTimes : p'.times = (p.nowUs, p.accumulatedMs,
      if p.playStartUs = 0 then p.nowUs else p.playStartUs, p.tracks))
    (hState : p'.state = .playing) :
    Clocked p' (lapsAfter log p p' (based p p' sec none)) := by
  obtain ⟨hNow, hMs, hStart, hTracks⟩ : p'.nowUs = p.nowUs ∧
      p'.accumulatedMs = p.accumulatedMs ∧
      p'.playStartUs = (if p.playStartUs = 0 then p.nowUs else p.playStartUs) ∧
      p'.tracks = p.tracks := by
    simpa [times] using hTimes
  rw [based_same hTracks]
  have hOld := h.start
  have hPos := h.now
  have hStart' : 0 < p'.playStartUs ∧ p'.playStartUs ≤ p.nowUs := by
    rw [hStart]
    split_ifs <;> omega
  refine ⟨hNow ▸ h.now, ⟨hStart'.1.le, hNow ▸ hStart'.2⟩, absurd hState, ?_, ?_⟩
  · rw [if_pos hState, if_neg hStart'.1.ne', hStart]
    by_cases hBefore : p.state = .playing
    · simpa [lapsAfter, hBefore, hState] using h.since
    · simp [lapsAfter, hBefore, hState, Laps.start, h.stands hBefore]
  · rw [hMs]
    by_cases hBefore : p.state = .playing
    · simpa [lapsAfter, hBefore, hState] using h.shown
    · simpa [lapsAfter, hBefore, hState, Laps.start, Laps.watch] using h.shown

/-- The player plays no more, and its time has been added up. -/
theorem rest (hTimes : p'.times = (p.nowUs, p.getPositionMs, 0, p.tracks))
    (hState : p'.state ≠ .playing) : Clocked p' (lapsAfter log p p' (based p p' sec none)) := by
  obtain ⟨hNow, hMs, hStart, hTracks⟩ : p'.nowUs = p.nowUs ∧
      p'.accumulatedMs = p.getPositionMs ∧ p'.playStartUs = 0 ∧ p'.tracks = p.tracks := by
    simpa [times] using hTimes
  rw [based_same hTracks]
  refine ⟨hNow ▸ h.now, ?_, fun _ => hStart, ?_, ?_⟩
  · rw [hStart, hNow]
    exact ⟨le_rfl, h.now.le⟩
  · rw [if_neg hState]
    by_cases hBefore : p.state = .playing
    · simp [lapsAfter, hBefore, hState, Laps.stop]
    · simpa [lapsAfter, hBefore, hState] using h.since
  · rw [hMs, ← h.read]
    by_cases hBefore : p.state = .playing
    · simp only [lapsAfter, if_pos hBefore, if_neg hState, Option.elim_none, Laps.watch_stop]
      rfl
    · have hSince : log.since = none := by simpa [hBefore] using h.since
      simp [lapsAfter, hBefore, hState, Stopwatch.read, Stopwatch.elapsed, Laps.watch, hSince]

/-- Another position is set. -/
theorem rebase (hNow : p'.nowUs = p.nowUs) (hMs : p'.accumulatedMs = ms)
    (hStart : p'.playStartUs = 0 ∨ p'.state = .playing ∧ p'.playStartUs = p.nowUs) :
    Clocked p' (lapsAfter log p p' (some ms)) := by
  have hPos := h.now
  refine ⟨hNow ▸ h.now, ?_, ?_, ?_, ?_⟩
  · rcases hStart with hStart | ⟨-, hStart⟩ <;> omega
  · intro hState
    exact hStart.resolve_right fun hPlays => hState hPlays.1
  · have hSince := h.since
    by_cases hState : p'.state = .playing
    · have hLap : (if p'.playStartUs = 0 then p'.nowUs else p'.playStartUs) = p.nowUs := by
        rcases hStart with hStart | ⟨-, hStart⟩ <;> split_ifs <;> omega
      rw [if_pos hState, hLap]
      by_cases hBefore : p.state = .playing <;>
        simp_all [lapsAfter, Laps.rebase, Laps.start]
    · by_cases hBefore : p.state = .playing <;>
        simp_all [lapsAfter, Laps.rebase, Laps.stop]
  · rw [hMs]
    by_cases hBefore : p.state = .playing <;> by_cases hState : p'.state = .playing <;>
      cases hLog : log.since <;>
      simp [lapsAfter, hBefore, hState, hLog, Laps.rebase, Laps.stop, Laps.start, Laps.watch]

/-- A position that is no start of a track is set. -/
theorem rebaseOnly (hTracks : p'.tracks = p.tracks) (hNow : p'.nowUs = p.nowUs)
    (hMs : p'.accumulatedMs = ms)
    (hStart : p'.playStartUs = 0 ∨ p'.state = .playing ∧ p'.playStartUs = p.nowUs) :
    Clocked p' (lapsAfter log p p' (based p p' sec (some ms))) := by
  rw [based_same hTracks]
  exact h.rebase hNow hMs hStart

/-! ### The handlers -/

/-- A handler that starts a track did not change the time before. -/
theorem doPlay {p₀ : Player} {other : Option Int} (uri : Option Bytes) (seekSec : Int)
    (after : After) (hTimes : p₀.times = p.times) (hState : p₀.state = p.state)
    (hOther : other = none) :
    Clocked (p₀.doPlay task luck uri seekSec after)
      (lapsAfter log p (p₀.doPlay task luck uri seekSec after)
        (based p (p₀.doPlay task luck uri seekSec after) seekSec other)) := by
  obtain ⟨hNow, -, -, hTracks⟩ := times_eq hTimes
  subst hOther
  rcases p₀.doPlay_cases luck task uri seekSec after with
    ⟨hKept, hSame⟩ | ⟨hSet, hPlays⟩
  · exact h.keep' (hKept.trans hTimes) (hSame.trans hState)
  · obtain ⟨hNow', hMs, hStart, hTracks'⟩ : _ ∧ _ ∧ _ ∧ _ := by simpa [times] using hSet
    rw [based, if_pos (by omega)]
    exact h.rebase (hNow'.trans hNow) hMs (.inr ⟨hPlays, hStart.trans hNow⟩)

theorem retryPlay {p₀ : Player} (uri : Bytes) (seekSec : Int) (after : After)
    (hTimes : p₀.times = p.times)
    (hFails : ¬p₀.canRun luck → p.state ≠ .playing) :
    Clocked (p₀.retryPlay luck uri seekSec after)
      (lapsAfter log p (p₀.retryPlay luck uri seekSec after)
        (based p (p₀.retryPlay luck uri seekSec after) seekSec none)) := by
  obtain ⟨hNow, -, -, hTracks⟩ := times_eq hTimes
  by_cases hRuns : p₀.canRun luck
  · have hSet : (p₀.retryPlay luck uri seekSec after).times =
        (p₀.nowUs, seekSec * 1000, p₀.nowUs, p₀.tracks + 1) := by
      rw [Player.retryPlay, if_pos hRuns, times_afterPlay]
      rfl
    have hPlays : (p₀.retryPlay luck uri seekSec after).state = .playing := by
      rw [Player.retryPlay, if_pos hRuns, state_afterPlay]
      rfl
    obtain ⟨hNow', hMs, hStart, hTracks'⟩ : _ ∧ _ ∧ _ ∧ _ := by simpa [times] using hSet
    rw [based, if_pos (by omega)]
    exact h.rebase (hNow'.trans hNow) hMs (.inr ⟨hPlays, hStart.trans hNow⟩)
  · have hEq : p₀.retryPlay luck uri seekSec after = (p₀.setState .stopped).afterPlay after := by
      rw [Player.retryPlay, if_neg hRuns]
    have hStopped : ((p₀.setState .stopped).afterPlay after).state = .stopped :=
      state_afterPlay _ _
    rw [hEq]
    exact h.keep ((times_afterPlay _ _).trans hTimes) (by simp [hStopped, hFails hRuns])

/-- A player that plays is told that it runs, or a paused one that it runs again. -/
theorem resumed {p₀ : Player} (hTimes : p₀.times = p.times) (hPaused : p.state ≠ .playing)
    (hEq : p'.times = p₀.resumed.times) (hState : p'.state = .playing) :
    Clocked p' (lapsAfter log p p' (based p p' sec none)) := by
  obtain ⟨hNow, hMs, -, hTracks⟩ := times_eq hTimes
  refine h.goOn ?_ hState
  have hResumed : p₀.resumed.times = (p₀.nowUs, p₀.accumulatedMs, p₀.nowUs, p₀.tracks) := by
    unfold Player.resumed times
    rcases p₀.pipeResume_eq with ⟨hEq, -⟩ | ⟨hEq, -⟩
    · rw [hEq]
      rfl
    · rw [hEq, onRunning_eq]
      rfl
  rw [hEq, hResumed, if_pos (h.stands hPaused), hNow, hMs, hTracks]

theorem onRunning {p₀ : Player} (hTimes : p₀.times = p.times) :
    Clocked p₀.onRunning (lapsAfter log p p₀.onRunning (based p p₀.onRunning sec none)) := by
  obtain ⟨hNow, hMs, hStart, hTracks⟩ := times_eq hTimes
  refine h.goOn ?_ (by rw [onRunning_eq])
  rw [onRunning_eq, ← hNow, ← hMs, ← hStart, ← hTracks]
  rfl

theorem pipeResume {p₀ : Player} (hTimes : p₀.times = p.times) (hState : p₀.state = p.state) :
    Clocked p₀.pipeResume (lapsAfter log p p₀.pipeResume (based p p₀.pipeResume sec none)) := by
  rcases p₀.pipeResume_eq with ⟨hEq, -⟩ | ⟨hEq, -⟩
  · rw [hEq]
    exact h.keep' hTimes hState
  · rw [hEq]
    exact h.onRunning hTimes

theorem cbPlay :
    Clocked (p.cbPlay task luck)
      (lapsAfter log p (p.cbPlay task luck) (based p (p.cbPlay task luck) p.startSec none)) := by
  rcases cbPlay_cases p luck task with
    ⟨-, hEq⟩ | ⟨paused, -, hEq⟩ | ⟨hPaused, hEq⟩ | ⟨-, -, -, hEq⟩ | ⟨-, -, -, hEq⟩
  · rw [hEq]
    exact h.keep' rfl rfl
  · -- the grace period hides the stop of the old track
    have hGrace : p.nowUs < p.nowUs + 1500000 := by omega
    rw [hEq]
    exact h.keep' (by rw [times_sleep, times_pipeStop]; rfl) (state_pipeStop hGrace)
  · rw [hEq]
    exact h.resumed rfl (by simp [hPaused]) rfl rfl
  · rw [hEq]
    exact h.doPlay p.trackUri p.startSec .fresh rfl rfl rfl
  · rw [hEq]
    exact h.keep' rfl rfl

theorem cbPause : Clocked p.cbPause (lapsAfter log p p.cbPause (based p p.cbPause sec none)) := by
  by_cases hState : p.state = .playing
  · have hStart := h.start
    have hZero : (if p.playStartUs > 0 then 0 else p.playStartUs) = 0 := by split_ifs <;> omega
    rw [cbPause_of_playing hState]
    refine h.rest ?_ (by rintro ⟨⟩)
    show p.saved.pipePause.times = _
    rw [times_pipePause]
    show { p with pendingSeekSec := 0 }.freeze.times = _
    rw [times_freeze]
    exact Prod.ext rfl (Prod.ext rfl (Prod.ext hZero rfl))
  · rw [cbPause_of_not_playing hState]
    exact h.keep' rfl rfl

theorem cbPlayToggle :
    Clocked (p.cbPlayToggle task luck) (lapsAfter log p (p.cbPlayToggle task luck)
      (based p (p.cbPlayToggle task luck) p.startSec none)) := by
  unfold Player.cbPlayToggle
  split_ifs
  exacts [h.cbPause, h.cbPlay]

theorem cbStop : Clocked (p.cbStop luck)
    (lapsAfter log p (p.cbStop luck) (based p (p.cbStop luck) sec none)) := by
  have hStart := h.start
  have hZero : (if p.playStartUs > 0 then 0 else p.playStartUs) = 0 := by split_ifs <;> omega
  rw [cbStop_eq]
  refine h.rest ?_ (by rintro ⟨⟩)
  show (p.stopping.pipeStop luck).times = _
  rw [times_pipeStop]
  show { p with generation := p.generation + 1, nearEndCount := 0 }.freeze.times = _
  rw [times_freeze]
  exact Prod.ext rfl (Prod.ext rfl (Prod.ext hZero rfl))

/-- A track is left for another one. -/
theorem left (hTimes : p'.times = (p.nowUs, 0, 0, p.tracks)) :
    Clocked p' (lapsAfter log p p' (based p p' sec (some 0))) := by
  obtain ⟨hNow, hMs, hStart, hTracks⟩ : _ ∧ _ ∧ _ ∧ _ := by simpa [times] using hTimes
  exact h.rebaseOnly hTracks hNow hMs (.inl hStart)

theorem cbNext {p₀ : Player} (hNow : p₀.nowUs = p.nowUs) (hTracks : p₀.tracks = p.tracks) :
    Clocked (p₀.cbNext task luck)
      (lapsAfter log p (p₀.cbNext task luck) (based p (p₀.cbNext task luck) sec (some 0))) := by
  have hLeft (us : Int) (s : Sleep) :
      (((p₀.leaveTrack.grace us).pipeStop luck).sleep task s).times =
        (p.nowUs, 0, 0, p.tracks) := by
    rw [times_sleep, times_pipeStop, ← hNow, ← hTracks]
    rfl
  cases hNext : p₀.hasNext with
  | true =>
    rw [cbNext_of_next hNext]
    exact h.left (hLeft _ _)
  | false =>
    rw [cbNext_of_none hNext]
    exact h.left (hLeft _ _)

/-- The end of a track: the time is added up, and then forgotten with the track. -/
theorem delayedStopNotify {p₀ : Player} {generation track : Nat} (hTimes : p₀.times = p.times)
    (hState : p₀.state = p.state) (hGeneration : p₀.generation = p.generation) :
    Clocked (p₀.delayedStopNotify luck generation track)
      (lapsAfter log p (p₀.delayedStopNotify luck generation track)
        (based p (p₀.delayedStopNotify luck generation track) sec
          (if generation = p.generation then some 0 else none))) := by
  obtain ⟨hNow, -, -, hTracks⟩ := times_eq hTimes
  by_cases hLive : generation = p.generation
  · have hNow' : p₀.freeze.nowUs = p.nowUs := (congrArg Prod.fst (times_freeze p₀)).trans hNow
    have hTracks' : p₀.freeze.tracks = p.tracks :=
      (congrArg (·.2.2.2) (times_freeze p₀)).trans hTracks
    rw [if_pos hLive, delayedStopNotify_of_live (hLive.trans hGeneration.symm)]
    exact h.cbNext hNow' hTracks'
  · rw [if_neg hLive, delayedStopNotify_of_stale (hGeneration ▸ hLive)]
    exact h.keep' hTimes hState

theorem cbPrevious {p₀ : Player} (hTimes : p₀.times = p.times) :
    Clocked (p₀.cbPrevious task luck)
      (lapsAfter log p (p₀.cbPrevious task luck)
        (based p (p₀.cbPrevious task luck) sec (some 0))) := by
  obtain ⟨hNow, -, -, hTracks⟩ := times_eq hTimes
  refine h.left ?_
  rw [← hNow, ← hTracks]
  by_cases hTrack : p₀.trackUri = none
  · rw [cbPrevious_of_none hTrack, times_setState, times_pipeStop]
    rfl
  · rw [cbPrevious_of_some (Option.isSome_iff_ne_none.2 hTrack), times_sleep, times_pipeStop]
    rfl

theorem setAvTransportUri (uri : Bytes) (metadata : Option Bytes) :
    Clocked (p.setAvTransportUri uri metadata)
      (lapsAfter log p (p.setAvTransportUri uri metadata)
        (based p (p.setAvTransportUri uri metadata) sec none)) := by
  have hState (q : Player) (texts : Bytes) : (q.cbSetMetadata texts).state = q.state := by
    obtain ⟨_, _, _, _, _, _, hEq⟩ := q.cbSetMetadata_eq texts
    rw [hEq]
  cases hVideo : isVideoUri uri with
  | true =>
    rw [setAvTransportUri_of_video p metadata hVideo]
    exact h.keep' (times_cbSetMetadata _ _) (hState _ _)
  | false =>
    rw [setAvTransportUri_of_track p metadata hVideo]
    refine h.keep (times_cbSetMetadata _ _) ?_
    rw [hState]
    show (if p.state = .noMedia then PlayState.stopped else p.state) = .playing ↔ _
    split_ifs with hNone
    · simp [hNone]
    · rfl

theorem cbSeek {seconds : Int} (hState : p.state = .playing) (hTold : ¬p.Mistaken) :
    Clocked (p.cbSeek task seconds)
      (lapsAfter log p (p.cbSeek task seconds) (based p (p.cbSeek task seconds) sec none)) := by
  rw [cbSeek_of_playing hState]
  exact h.keep' (by rw [times_sleep, times_pipePause]; rfl) (state_pipePause hTold)

theorem deferredSeek {p₀ : Player} {s : Int} (hTimes : p₀.times = p.times)
    (hState : p₀.state = p.state) (hTold : p₀.state = .playing → ¬p₀.Mistaken) :
    Clocked (p₀.deferredSeek s)
      (lapsAfter log p (p₀.deferredSeek s) (based p (p₀.deferredSeek s) sec none)) := by
  by_cases hPlays : p₀.state = .playing
  · have hPause : ({ p₀ with generation := p₀.generation + 1 }.pipePause).state = p₀.state :=
      state_pipePause (hTold hPlays)
    rw [deferredSeek_of_playing hPlays]
    exact h.keep' (by rw [times_sleep, times_pipePause]; exact hTimes) (hPause.trans hState)
  · rw [deferredSeek_of_not_playing hPlays]
    exact h.keep' hTimes hState

/-- The worker resumes, and what it has sought is the position already. -/
theorem deferredDone {p₀ : Player} {s : Int} (hTimes : p₀.times = p.times)
    (hState : p₀.state = p.state) (hMs : p.accumulatedMs = s * 1000)
    (hPlays : p.state = .playing ∨ p₀.pipe = .paused) :
    Clocked { p₀.pipeResume with playStartUs := p₀.pipeResume.nowUs }
      (lapsAfter log p { p₀.pipeResume with playStartUs := p₀.pipeResume.nowUs }
        (based p { p₀.pipeResume with playStartUs := p₀.pipeResume.nowUs } sec
          (some (s * 1000)))) := by
  obtain ⟨hNow, hMs₀, -, hTracks⟩ := times_eq hTimes
  rcases p₀.pipeResume_eq with ⟨hEq, hPipe⟩ | ⟨hEq, -⟩
  · have hPlaying : p₀.state = .playing := hState.trans (hPlays.resolve_right hPipe)
    rw [hEq]
    exact h.rebaseOnly hTracks hNow (hMs₀.trans hMs) (.inr ⟨hPlaying, hNow⟩)
  · rw [hEq, onRunning_eq]
    exact h.rebaseOnly hTracks hNow (hMs₀.trans hMs) (.inr ⟨rfl, hNow⟩)

theorem wifiRestored : Clocked p.wifiRestored
    (lapsAfter log p p.wifiRestored (based p p.wifiRestored sec none)) := by
  by_cases hPaused : p.state = .paused ∧ p.userStopped = false
  · rw [wifiRestored_of_paused hPaused.1 hPaused.2]
    exact h.resumed rfl (by simp [hPaused.1]) rfl rfl
  · rw [wifiRestored_of_not hPaused]
    exact h.keep' rfl rfl

theorem uiTick : Clocked (p.uiTick luck)
    (lapsAfter log p (p.uiTick luck) (based p (p.uiTick luck) sec none)) := by
  obtain ⟨n, js, hEq, -⟩ := p.nearEnd_eq
  have hTimes : p.nearEnd.times = p.times := by
    rw [hEq]
    rfl
  have hState : p.nearEnd.state = p.state := by rw [hEq]
  rcases p.nearEnd.stuckPaused_cases luck with ⟨since, hStuck⟩ | ⟨hPaused, -, hStuck⟩
  · rw [Player.uiTick, hStuck]
    exact h.keep' hTimes hState
  · have hNotPlaying : p.state ≠ .playing := by simp [← hState, hPaused]
    rw [Player.uiTick, hStuck]
    exact h.keep ((times_pipeStop _ _).trans hTimes) (by simp [setState, hNotPlaying])

/-- Time passes. A player that plays has noted its start. -/
theorem tick {us : Nat} (hNow : p'.nowUs = p.nowUs + us) (hState : p'.state = p.state)
    (hMs : p'.accumulatedMs = p.accumulatedMs) (hStart : p'.playStartUs = p.playStartUs)
    (hTracks : p'.tracks = p.tracks) (hNoted : p.state = .playing → 0 < p.playStartUs) :
    Clocked p' (lapsAfter log p p' (based p p' sec none)) := by
  have hOld := h.start
  have hPos := h.now
  have hLog : lapsAfter log p p' none = log := by
    unfold lapsAfter
    split_ifs <;> simp_all
  rw [based_same hTracks, hLog]
  refine ⟨by omega, by omega, ?_, ?_, hMs ▸ h.shown⟩
  · rw [hState, hStart]
    exact h.stands
  · rw [h.since, hState, hStart]
    by_cases hPlays : p.state = .playing
    · simp [hPlays, (hNoted hPlays).ne']
    · simp [hPlays]

theorem pipeEvent {event : PipeEvent} (hEvent : p.pipeEvent event = some p')
    (hGrace : event = .stopped ∨ event = .error → p.state = .playing → p.nowUs < p.graceUntil) :
    Clocked p' (lapsAfter log p p' (based p p' sec none)) := by
  cases event with
  | running =>
    obtain ⟨-, hEq⟩ := Option.ite_none_right_eq_some.1 hEvent
    obtain rfl := Option.some.inj hEq
    exact h.onRunning rfl
  | finished =>
    obtain ⟨-, hEq⟩ := Option.ite_none_right_eq_some.1 hEvent
    obtain rfl := Option.some.inj hEq
    rcases onFinished_eq { p with pipe := .idle } with ⟨hEq, -⟩ | ⟨hEq, -⟩
    · rw [hEq]
      exact h.keep' rfl rfl
    · rw [hEq]
      exact h.keep' rfl rfl
  | stopped =>
    obtain ⟨-, hEq⟩ := Option.ite_none_right_eq_some.1 hEvent
    obtain ⟨s, hStopped, hState⟩ := onStopped_eq { p with pipe := .idle }
    obtain rfl := Option.some.inj hEq
    rw [hStopped]
    rcases hState with rfl | ⟨rfl, hLate, -⟩
    · exact h.keep' rfl rfl
    · have hNotPlaying : p.state ≠ .playing := fun hPlays =>
        absurd (hGrace (.inl rfl) hPlays) (not_lt.2 hLate)
      exact h.keep rfl (by simp [hNotPlaying])
  | error =>
    obtain ⟨-, hEq⟩ := Option.ite_none_right_eq_some.1 hEvent
    obtain ⟨s, hError, hState⟩ := onError_eq { p with pipe := .idle }
    obtain rfl := Option.some.inj hEq
    rw [hError]
    rcases hState with rfl | ⟨rfl, hLate⟩
    · exact h.keep' rfl rfl
    · have hNotPlaying : p.state ≠ .playing := fun hPlays =>
        absurd (hGrace (.inr rfl) hPlays) (not_lt.2 hLate)
      exact h.keep rfl (by simp [hNotPlaying])

end Clocked

/-! ## Steps -/

namespace Player

variable (p : Player)

/-- A task that wakes up finds the player as it left it: it still plays when the seek
goes on, stands at what the worker has sought, and does not play when another attempt
fails, when a track has ended for good and when nothing has followed it. -/
def SteadyWake (luck : Luck) : Option (Task × Sleep) → Prop
  | some (_, .retry _ _ _) => ¬p.canRun luck → p.state ≠ .playing
  | some (_, .seek _) => p.state = .playing
  | some (_, .deferred _) => p.state = .playing → ¬p.Mistaken
  | some (_, .deferredDone sec) =>
    p.accumulatedMs = sec * 1000 ∧ (p.state = .playing ∨ p.pipe = .paused)
  | some (_, .noNext) => p.playStartUs = 0
  | some (_, .waitNext generation trackSeq waited) =>
    p.WaitsOut generation trackSeq waited → p.durCacheSec > 0 →
      p.accumulatedMs = p.durCacheSec * 1000
  | _ => True

/-- Seeks come while the player plays and has not been told of the user's pause, Wi-Fi
is not lost while it plays, what stops the pipeline comes in the grace period, and time
passes with the start noted. -/
def Steady : PlayerAction → Prop
  | .soap (.seek _) _ => p.state = .playing ∧ ¬p.Mistaken
  | .wake n luck => p.SteadyWake luck p.sleepers[n]?
  | .pipe .stopped | .pipe .error => p.state = .playing → p.nowUs < p.graceUntil
  | .wifi false => p.state ≠ .playing
  | .tick _ => p.state = .playing → 0 < p.playStartUs
  | _ => True

/-- Where a track starts that is started by who wakes up. -/
def wakeStartsFrom : Option (Task × Sleep) → Int
  | some (_, .switch _) => p.savedPosSec
  | some (_, .retry _ seekSec _) => seekSec
  | _ => 0

/-- Where a track starts that the action starts. -/
def startsFrom : PlayerAction → Int
  | .soap .play _ | .toggle _ => p.startSec
  | .wake n _ => p.wakeStartsFrom p.sleepers[n]?
  | _ => 0

def wakeSets : Option (Task × Sleep) → Option Int
  | some (_, .seek seconds) | some (_, .deferredDone seconds) => some (seconds * 1000)
  | some (_, .notify generation _) => if generation = p.generation then some 0 else none
  | _ => none

/-- The position that the action sets, if it starts no track: that of a seek, and zero
when the track is left for another one. -/
def positionSet : PlayerAction → Option Int
  | .soap (.seek seconds) _ => if p.state = .playing then none else some (seconds * 1000)
  | .soap .next _ | .soap .previous _ | .track _ => some 0
  | .wake n _ => p.wakeSets p.sleepers[n]?
  | _ => none

/-- The base of the laps after a step. -/
def baseAfter (a : PlayerAction) (p' : Player) : Option Int :=
  based p p' (p.startsFrom a) (p.positionSet a)

end Player

namespace Clocked

open Player

variable {p p' : Player} {log : Laps} {luck : Luck} {task : Task} {sec : Int}

theorem waitNext (h : Clocked p log) {p₀ : Player} {generation trackSeq waited : Nat}
    (hTimes : p₀.times = p.times) (hState : p₀.state = p.state)
    (hEnd : p₀.WaitsOut generation trackSeq waited → p₀.durCacheSec > 0 →
      p₀.accumulatedMs = p₀.durCacheSec * 1000) :
    Clocked (p₀.waitNext task luck generation trackSeq waited)
      (lapsAfter log p (p₀.waitNext task luck generation trackSeq waited)
        (based p (p₀.waitNext task luck generation trackSeq waited) 0 none)) := by
  rcases p₀.waitNext_cases luck task generation trackSeq waited with
    ⟨-, hEq⟩ | hEq | ⟨-, hEq⟩ | ⟨hWaitsOut, hEq⟩
  · rw [hEq]
    exact h.doPlay p₀.nextUri 0 (.next p₀.nextMetadata) hTimes hState rfl
  · rw [hEq]
    exact h.keep' hTimes hState
  · rw [hEq]
    exact h.keep' hTimes hState
  · have hNotPlaying : p.state ≠ .playing := hState ▸ hWaitsOut.notPlaying
    have hShown : p₀.timedOut.accumulatedMs = p₀.accumulatedMs := by
      show (if p₀.durCacheSec > 0 then p₀.durCacheSec * 1000 else p₀.accumulatedMs) = _
      split_ifs with hDur
      exacts [(hEnd hWaitsOut hDur).symm, rfl]
    have hStands : p₀.playStartUs = 0 := (times_eq hTimes).2.2.1.trans (h.stands hNotPlaying)
    have hOut : p₀.timedOut.times = p₀.times :=
      Prod.ext rfl (Prod.ext hShown (Prod.ext hStands.symm rfl))
    have hStopped : p₀.timedOut.state = .stopped := rfl
    rw [hEq]
    exact h.keep (hOut.trans hTimes) (by simp [hStopped, hNotPlaying])

theorem soap (h : Clocked p log) {request : AvtRequest}
    (hOk : p.Steady (.soap request luck)) :
    Clocked (p.request luck request) (lapsAfter log p (p.request luck request)
      (p.baseAfter (.soap request luck) (p.request luck request))) := by
  cases request with
  | setUri uri metadata =>
    by_cases hUri : peek uri ≠ 0
    · rw [request_setUri hUri]
      exact h.setAvTransportUri uri metadata
    · rw [request_setUri_empty hUri]
      exact h.keep' rfl rfl
  | setNextUri uri metadata => exact h.keep' rfl rfl
  | play => exact h.cbPlay
  | pause => exact h.cbPause
  | stop => exact h.cbStop
  | seek seconds =>
    have hSet : p.positionSet (.soap (.seek seconds) luck) = none := if_pos hOk.1
    rw [baseAfter, hSet]
    exact h.cbSeek hOk.1 hOk.2
  | next => exact h.cbNext rfl rfl
  | previous => exact h.cbPrevious rfl

theorem wake (h : Clocked p log) {n : Nat} {s : Sleep} (hGet : p.sleepers[n]? = some (task, s))
    (hOk : p.SteadyWake luck (some (task, s))) :
    Clocked ((p.without n).wake luck task s)
      (lapsAfter log p ((p.without n).wake luck task s)
        (p.baseAfter (.wake n luck) ((p.without n).wake luck task s))) := by
  rw [baseAfter, startsFrom, positionSet, hGet]
  cases s with
  | switch paused => exact h.doPlay _ _ _ rfl rfl rfl
  | retry uri seekSec after => exact h.retryPlay uri seekSec after rfl hOk
  | seek seconds => exact h.rebaseOnly rfl rfl rfl (.inr ⟨hOk, rfl⟩)
  | seekDone => exact h.pipeResume rfl rfl
  | notify generation track => exact h.delayedStopNotify rfl rfl rfl
  | deferred seconds => exact h.deferredSeek rfl rfl hOk
  | deferredPaused seconds => exact h.keep' rfl rfl
  | deferredDone seconds => exact h.deferredDone rfl rfl hOk.1 hOk.2
  | promote => exact h.doPlay _ _ _ rfl rfl rfl
  | noNext =>
    refine h.rest ?_ (by rintro ⟨⟩)
    have hZero : p.playStartUs = 0 := hOk
    have hShown : p.getPositionMs = p.accumulatedMs := if_neg (by simp [hZero])
    rw [hShown, ← hZero]
    rfl
  | waitNext generation trackSeq waited => exact h.waitNext rfl rfl hOk
  | previous => exact h.doPlay _ _ _ rfl rfl rfl

/-- **The laps are kept.** -/
theorem step (h : Clocked p log) {a : PlayerAction} (hStep : p.step a = some p')
    (hOk : p.Steady a) : Clocked p' (lapsAfter log p p' (p.baseAfter a p')) := by
  cases a with
  | soap request luck =>
    obtain rfl := step_soap hStep
    exact h.soap hOk
  | toggle luck =>
    obtain rfl := step_toggle hStep
    exact h.cbPlayToggle
  | press next =>
    obtain rfl := Option.some.inj hStep
    exact h.keep' rfl rfl
  | track luck =>
    obtain ⟨rest, rfl | rfl⟩ := step_track hStep
    · exact h.cbNext rfl rfl
    · exact h.cbPrevious rfl
  | wake n luck =>
    obtain ⟨task, s, hGet, rfl⟩ := step_wake hStep
    exact h.wake hGet (hGet ▸ hOk)
  | pipe event =>
    refine h.pipeEvent hStep ?_
    rintro (rfl | rfl)
    exacts [hOk, hOk]
  | wifi up =>
    obtain rfl := Option.some.inj hStep
    cases up with
    | true => exact h.wifiRestored
    | false =>
      show Clocked p.wifiLost (lapsAfter log p p.wifiLost (based p p.wifiLost 0 none))
      rw [wifiLost_of_not_playing hOk]
      exact h.keep' rfl rfl
  | ui luck =>
    obtain rfl := Option.some.inj hStep
    exact h.uiTick
  | tick us =>
    obtain rfl := Option.some.inj hStep
    exact h.tick rfl rfl rfl rfl rfl hOk

end Clocked

/-! ## Every run -/

/-- The player and the laps of its time in PLAYING. -/
structure Timed where
  player : Player
  laps : Laps
  deriving DecidableEq

namespace Timed

variable (t : Timed)

def step (a : PlayerAction) : Option Timed :=
  (t.player.step a).map fun p' =>
    ⟨p', lapsAfter t.laps t.player p' (t.player.baseAfter a p')⟩

/-- Both positions are the laps', and the laps lose less than a millisecond each. -/
structure Accounted : Prop where
  same : t.player.getPositionMs = t.player.cbGetPositionMs
  time : t.player.getPositionMs = (t.laps.watch 1000).read 1000 t.player.nowUs
  exact : 0 ≤ t.laps.spent t.player.nowUs - 1000 * (t.player.getPositionMs - t.laps.base) ∧
    t.laps.spent t.player.nowUs - 1000 * (t.player.getPositionMs - t.laps.base) <
      1000 * (t.laps.laps.length + 1)

def boot (nowUs : Int) : Timed := ⟨.boot nowUs, ⟨0, [], none⟩⟩

variable {t}

theorem accounted (h : Clocked t.player t.laps) : t.Accounted := by
  have hTime := h.read.symm
  refine ⟨?_, hTime, ?_⟩
  · unfold Player.getPositionMs Player.cbGetPositionMs
    by_cases hState : t.player.state = .playing
    · simp [hState]
    · simp [hState, h.stands hState]
  · rw [hTime]
    exact Laps.spent_sub_read (by decide)

end Timed

/-! ## A seek during a pause -/

namespace Player

instance (p : Player) : Decidable p.Mistaken := inferInstanceAs (Decidable (_ ∧ _))

instance (p : Player) (luck : Luck) : ∀ s, Decidable (p.SteadyWake luck s)
  | some (_, .retry _ _ _) => inferInstanceAs (Decidable (_ → _))
  | some (_, .seek _) => inferInstanceAs (Decidable (p.state = .playing))
  | some (_, .deferred _) => inferInstanceAs (Decidable (p.state = .playing → ¬p.Mistaken))
  | some (_, .deferredDone _) => inferInstanceAs (Decidable (_ ∧ _))
  | some (_, .noNext) => inferInstanceAs (Decidable (p.playStartUs = 0))
  | some (_, .waitNext _ _ _) => inferInstanceAs (Decidable (_ → _ → _))
  | none | some (_, .switch _) | some (_, .seekDone) | some (_, .notify _ _)
  | some (_, .deferredPaused _) | some (_, .promote) | some (_, .previous) => .isTrue trivial

instance (p : Player) : ∀ a, Decidable (p.Steady a)
  | .soap (.seek _) _ => inferInstanceAs (Decidable (_ ∧ _))
  | .wake n luck => inferInstanceAs (Decidable (p.SteadyWake luck p.sleepers[n]?))
  | .pipe .stopped | .pipe .error => inferInstanceAs (Decidable (_ → _))
  | .wifi false => inferInstanceAs (Decidable (p.state ≠ .playing))
  | .tick _ => inferInstanceAs (Decidable (_ → _))
  | .soap (.setUri _ _) _ | .soap (.setNextUri _ _) _ | .soap .play _ | .soap .pause _
  | .soap .stop _ | .soap .next _ | .soap .previous _ | .toggle _ | .press _ | .track _
  | .pipe .running | .pipe .finished | .wifi true | .ui _ => .isTrue trivial

end Player

namespace Timed

/-- A track has played for five seconds. -/
def played : List PlayerAction :=
  [.soap (.setUri (Miplay.ascii "http://a/1") none) ⟨true, false⟩, .soap .play ⟨true, false⟩,
    .pipe .running, .tick 5000000]

end Timed

end EspMiplay.Dlna
