import EspMiplay.Dlna.Player
import Mathlib.Order.Basic

/-!
# What the handlers of the player do

Once for all results about the player: what a call to the pipeline changes, which
handlers leave the URIs alone, and the cases of a step.

## Results

* `pipePause_eq`, `pipeResume_eq`, `pipeStop_eq` — the calls to the pipeline.
* `content` and its simp set — what is known of the tracks.
-/

namespace EspMiplay.Dlna

open EspMiplay.Miplay (Bytes peek)

namespace Player

variable (p : Player) (luck : Luck) (task : Task)

/-! ## Calls to the pipeline -/

theorem onRunning_eq :
    p.onRunning =
      { p with
        state := .playing
        playStartUs := if p.playStartUs = 0 then p.nowUs else p.playStartUs
        pendingSeekSec := if p.pendingSeekSec > 0 then 0 else p.pendingSeekSec
        sleepers := p.sleepers ++
          if p.pendingSeekSec > 0 then [(Task.seek, Sleep.deferred p.pendingSeekSec)] else [] } := by
  unfold onRunning setState sleep
  by_cases hStart : p.playStartUs = 0 <;> by_cases hSeek : p.pendingSeekSec > 0 <;>
    simp [hStart, hSeek]

theorem onPaused_eq :
    ∃ s, p.onPaused = { p with state := s } ∧ (s = p.state ∨ s = .paused ∧ p.userStopped) := by
  unfold onPaused
  split_ifs with hUser
  · exact ⟨_, rfl, .inr ⟨rfl, hUser⟩⟩
  · exact ⟨_, rfl, .inl rfl⟩

theorem onStopped_eq :
    ∃ s, p.onStopped = { p with state := s } ∧
      (s = p.state ∨ s = .stopped ∧ p.graceUntil ≤ p.nowUs ∧ p.state ≠ .paused) := by
  unfold onStopped
  split_ifs with hGrace hPaused
  · exact ⟨_, rfl, .inl rfl⟩
  · exact ⟨_, rfl, .inr ⟨rfl, not_lt.1 hGrace, hPaused⟩⟩
  · exact ⟨_, rfl, .inl rfl⟩

theorem onError_eq :
    ∃ s, p.onError = { p with state := s } ∧
      (s = p.state ∨ s = .stopped ∧ p.graceUntil ≤ p.nowUs) := by
  unfold onError
  split_ifs with hGrace
  · exact ⟨_, rfl, .inl rfl⟩
  · exact ⟨_, rfl, .inr ⟨rfl, not_lt.1 hGrace⟩⟩

theorem onFinished_eq :
    p.onFinished = p ∧ p.state = .paused ∨
      p.onFinished = p.scheduleStopNotify ∧ p.state ≠ .paused := by
  unfold onFinished
  split_ifs with hPaused
  exacts [.inl ⟨rfl, hPaused⟩, .inr ⟨rfl, hPaused⟩]

/-- A pause stops a pipeline that runs, and nothing else. -/
theorem pipePause_eq :
    ∃ s, p.pipePause = { p with state := s, pipe := if p.pipe = .running then .paused else p.pipe } ∧
      (s = p.state ∨ s = .paused ∧ p.userStopped) := by
  by_cases hRuns : p.pipe = .running
  · obtain ⟨s, hEq, hState⟩ := onPaused_eq { p with pipe := .paused }
    exact ⟨s, by rw [pipePause, if_pos hRuns, hEq, if_pos hRuns], hState⟩
  · exact ⟨p.state, by rw [pipePause, if_neg hRuns, if_neg hRuns], .inl rfl⟩

/-- A resume makes a paused pipeline run, and nothing else. -/
theorem pipeResume_eq :
    p.pipeResume = p ∧ p.pipe ≠ .paused ∨
      p.pipeResume = { p with pipe := .running }.onRunning ∧ p.pipe = .paused := by
  unfold pipeResume
  split_ifs with hPaused
  exacts [.inr ⟨rfl, hPaused⟩, .inl ⟨rfl, hPaused⟩]

/-- After a stop the pipeline is idle; the end of the track may be on its way. -/
theorem pipeStop_eq :
    ∃ s js, p.pipeStop luck =
        { p with state := s, pipe := .idle, sleepers := p.sleepers ++ js } ∧
      (s = p.state ∨ s = .stopped ∧ p.graceUntil ≤ p.nowUs ∧ p.state ≠ .paused) ∧
      (js = [] ∨
        js = [(Task.finish, Sleep.notify p.generation p.tracks)] ∧ p.pipe = .running ∧
          luck.finishes ∧ p.state ≠ .paused) := by
  by_cases hIdle : p.pipe = .idle
  · refine ⟨p.state, [], ?_, .inl rfl, .inl rfl⟩
    rw [pipeStop, if_pos hIdle, List.append_nil, ← hIdle]
  · by_cases hEnds : p.pipe = .running ∧ luck.finishes
    · rw [pipeStop, if_neg hIdle, if_pos hEnds]
      rcases onFinished_eq { p with pipe := .idle } with ⟨hEq, -⟩ | ⟨hEq, hPaused⟩
      · exact ⟨p.state, [], by rw [hEq, List.append_nil], .inl rfl, .inl rfl⟩
      · exact ⟨p.state, _, hEq, .inl rfl, .inr ⟨rfl, hEnds.1, hEnds.2, hPaused⟩⟩
    · obtain ⟨s, hEq, hState⟩ := onStopped_eq { p with pipe := .idle }
      exact ⟨s, [], by rw [pipeStop, if_neg hIdle, if_neg hEnds, hEq, List.append_nil], hState,
        .inl rfl⟩

variable {p} in
theorem pipeStop_of_idle (h : p.pipe = .idle) : p.pipeStop luck = p := if_pos h

variable {p} in
theorem pipeResume_of_idle (h : p.pipe = .idle) : p.pipeResume = p := if_neg (by simp [h])

theorem freeze_eq :
    ∃ ms, p.freeze = { p with accumulatedMs := ms, playStartUs := if p.playStartUs > 0 then 0 else p.playStartUs } := by
  unfold freeze
  split_ifs
  exacts [⟨_, rfl⟩, ⟨p.accumulatedMs, rfl⟩]

/-! ## SetAVTransportURI -/

theorem cbSetMetadata_eq (metadata : Bytes) :
    ∃ dur pos saved id title artist, p.cbSetMetadata metadata =
      { p with
        durCacheSec := dur
        savedPosSec := pos
        savedUri := saved
        musicId := id
        curTitle := title
        curArtist := artist } := by
  simp only [cbSetMetadata]
  split_ifs <;> exact ⟨_, _, _, _, _, _, rfl⟩

theorem setAvTransportUri_of_video {uri : Bytes} (metadata : Option Bytes) (h : isVideoUri uri) :
    p.setAvTransportUri uri metadata =
      { p with
        uri := uri
        metadata := metadata.getD p.metadata
        generation := p.generation + 1
        nearEndCount := 0 }.cbSetMetadata (metadata.getD p.metadata) := by
  rw [setAvTransportUri, cbSetUri, if_pos h]

/-- What `cb_set_uri` makes of a URI that is not a video. -/
def withTrack (uri metadata : Bytes) : Player :=
  { p with
    uri := uri
    metadata := metadata
    generation := p.generation + 1
    nearEndCount := 0
    savedPosSec := 0
    trackUri := some uri
    durCacheSec := 0
    curTitle := []
    curArtist := []
    state := if p.state = .noMedia then .stopped else p.state
    userStopped := false }

theorem setAvTransportUri_of_track {uri : Bytes} (metadata : Option Bytes)
    (h : isVideoUri uri = false) :
    p.setAvTransportUri uri metadata =
      (p.withTrack uri (metadata.getD p.metadata)).cbSetMetadata (metadata.getD p.metadata) := by
  rw [setAvTransportUri, cbSetUri, if_neg (by simp [h])]
  rfl

/-- A video changes nothing that the player goes by. -/
theorem setAvTransportUri_video_eq {uri : Bytes} (metadata : Option Bytes) (h : isVideoUri uri) :
    ∃ dur pos saved id title artist, p.setAvTransportUri uri metadata =
      { p with
        uri := uri
        metadata := metadata.getD p.metadata
        generation := p.generation + 1
        nearEndCount := 0
        durCacheSec := dur
        savedPosSec := pos
        savedUri := saved
        musicId := id
        curTitle := title
        curArtist := artist } := by
  rw [setAvTransportUri_of_video p metadata h]
  exact cbSetMetadata_eq _ _

theorem setAvTransportUri_track_eq {uri : Bytes} (metadata : Option Bytes)
    (h : isVideoUri uri = false) :
    ∃ dur pos saved id title artist, p.setAvTransportUri uri metadata =
      { p.withTrack uri (metadata.getD p.metadata) with
        durCacheSec := dur
        savedPosSec := pos
        savedUri := saved
        musicId := id
        curTitle := title
        curArtist := artist } := by
  rw [setAvTransportUri_of_track p metadata h]
  exact cbSetMetadata_eq _ _

/-! ## The branches of the handlers -/

section Branches

variable {p} {luck} {task}

theorem cbPlay_of_same (hState : p.state = .playing)
    (hSame : p.playingUri.isSome ∧ p.playingUri = p.trackUri) : p.cbPlay task luck = p := by
  rw [cbPlay, hState]
  exact if_pos hSame

theorem cbPlay_of_switch (hState : p.state = .playing)
    (hOther : ¬(p.playingUri.isSome ∧ p.playingUri = p.trackUri)) :
    p.cbPlay task luck =
      (({ p with userStopped := false }.grace 1500000).pipeStop luck).sleep task (.switch false) := by
  rw [cbPlay, hState]
  exact if_neg hOther

theorem cbPlay_of_paused_switch (hState : p.state = .paused) (hOther : p.otherUri) :
    p.cbPlay task luck =
      (({ p with userStopped := false }.grace 1500000).pipeStop luck).sleep task (.switch true) := by
  rw [cbPlay, hState]
  exact if_pos hOther

/-- The pipeline goes on, and so does the time. -/
def resumed (p : Player) : Player :=
  { p.pipeResume.setState .playing with playStartUs := p.nowUs }

theorem nowUs_pipeResume (p : Player) : p.pipeResume.nowUs = p.nowUs := by
  rcases p.pipeResume_eq with ⟨hEq, -⟩ | ⟨hEq, -⟩
  · rw [hEq]
  · rw [hEq, onRunning_eq]

theorem cbPlay_of_resume (hState : p.state = .paused) (hSame : p.otherUri = false) :
    p.cbPlay task luck = { p.resumed.grace 8000000 with userStopped := false } := by
  rw [cbPlay, hState, resumed, ← nowUs_pipeResume p]
  exact if_neg (by simp [hSame])

/-- Where `_do_play` is told to start. -/
def startSec (p : Player) : Int :=
  if p.savedUri = p.trackUri ∧ p.savedPosSec > 0 then p.savedPosSec else 0

theorem cbPlay_of_fresh (hPlaying : p.state ≠ .playing) (hPaused : p.state ≠ .paused)
    (hTrack : p.trackUri.isSome) :
    p.cbPlay task luck = p.doPlay task luck p.trackUri p.startSec .fresh := by
  unfold cbPlay
  split
  · contradiction
  · contradiction
  · exact if_pos hTrack

theorem cbPlay_of_nothing (hPlaying : p.state ≠ .playing) (hPaused : p.state ≠ .paused)
    (hTrack : p.trackUri = none) : p.cbPlay task luck = { p with savedPosSec := 0 } := by
  unfold cbPlay
  split
  · contradiction
  · contradiction
  · exact if_neg (by simp [hTrack])

/-- The pause of a track that plays, with what is saved for later. -/
def saved (p : Player) : Player :=
  let p := { p with pendingSeekSec := 0 }.freeze
  { p with savedPosSec := p.accumulatedMs.tdiv 1000, savedUri := p.trackUri }

theorem cbPause_of_playing (hState : p.state = .playing) :
    p.cbPause = { p.saved.pipePause.setState .paused with userStopped := true } := if_pos hState

theorem cbPause_of_not_playing (hState : p.state ≠ .playing) :
    p.cbPause = { p with pendingSeekSec := 0 } := if_neg hState

/-- What a stop does before it stops the pipeline. -/
def stopping (p : Player) : Player :=
  let p := { p with generation := p.generation + 1, nearEndCount := 0 }.freeze
  { p with
    savedPosSec := p.accumulatedMs.tdiv 1000
    savedUri := p.trackUri
    userStopped := true }.grace 2000000

theorem cbStop_eq :
    p.cbStop luck =
      { (p.stopping.pipeStop luck).setState .stopped with nextUri := none, nextMetadata := none } :=
  rfl

theorem cbSeek_of_playing {seconds : Int} (hState : p.state = .playing) :
    p.cbSeek task seconds =
      { p with generation := p.generation + 1, nearEndCount := 0 }.pipePause.sleep task
        (.seek seconds) := if_pos hState

theorem cbSeek_of_not_playing {seconds : Int} (hState : p.state ≠ .playing) :
    p.cbSeek task seconds =
      { p with generation := p.generation + 1, nearEndCount := 0 }.sought seconds := if_neg hState

theorem cbNext_of_next (hNext : p.hasNext) :
    p.cbNext task luck = ((p.leaveTrack.grace 1500000).pipeStop luck).sleep task .promote :=
  if_pos hNext

theorem cbNext_of_none (hNext : p.hasNext = false) :
    p.cbNext task luck = ((p.leaveTrack.grace 1000000).pipeStop luck).sleep task .noNext :=
  if_neg (by simpa [hasNext, leaveTrack] using hNext)

theorem cbPrevious_of_some (hTrack : p.trackUri.isSome) :
    p.cbPrevious task luck = ((p.leaveTrack.grace 1000000).pipeStop luck).sleep task .previous :=
  if_pos hTrack

theorem cbPrevious_of_none (hTrack : p.trackUri = none) :
    p.cbPrevious task luck = (p.leaveTrack.pipeStop luck).setState .stopped :=
  if_neg (by simp [leaveTrack, hTrack])

theorem deferredSeek_of_playing {sec : Int} (hState : p.state = .playing) :
    p.deferredSeek sec =
      { p with generation := p.generation + 1 }.pipePause.sleep .seek (.deferredPaused sec) :=
  if_pos hState

theorem deferredSeek_of_not_playing {sec : Int} (hState : p.state ≠ .playing) :
    p.deferredSeek sec = p := if_neg hState

theorem wifiLost_of_playing (hState : p.state = .playing) :
    p.wifiLost =
      { p.pipePause.setState .paused with userStopped := false, stuckPausedSince := p.nowUs } :=
  if_pos hState

theorem wifiLost_of_not_playing (hState : p.state ≠ .playing) : p.wifiLost = p := if_neg hState

theorem wifiRestored_of_paused (hState : p.state = .paused) (hUser : p.userStopped = false) :
    p.wifiRestored = p.resumed := by
  rw [resumed, ← nowUs_pipeResume p]
  exact if_pos ⟨hState, by simp [hUser]⟩

theorem wifiRestored_of_not (h : ¬(p.state = .paused ∧ p.userStopped = false)) :
    p.wifiRestored = p := if_neg (by simpa using h)

theorem delayedStopNotify_of_live {generation track : Nat} (hLive : generation = p.generation) :
    p.delayedStopNotify luck generation track =
      { p.freeze with ended := track :: p.ended }.cbNext .finish luck :=
  if_neg (not_not.2 hLive)

theorem delayedStopNotify_of_stale {generation track : Nat} (hStale : generation ≠ p.generation) :
    p.delayedStopNotify luck generation track = p := if_pos hStale

theorem cbPlay_cases (p : Player) (luck : Luck) (task : Task) :
    p.state = .playing ∧ p.cbPlay task luck = p ∨
    (∃ paused, p.state = (if paused then .paused else .playing) ∧ p.cbPlay task luck =
      (({ p with userStopped := false }.grace 1500000).pipeStop luck).sleep task (.switch paused)) ∨
    p.state = .paused ∧ p.cbPlay task luck =
      { p.resumed.grace 8000000 with userStopped := false } ∨
    (p.state ≠ .playing ∧ p.state ≠ .paused ∧ p.trackUri.isSome ∧
      p.cbPlay task luck = p.doPlay task luck p.trackUri p.startSec .fresh) ∨
    (p.state ≠ .playing ∧ p.state ≠ .paused ∧ p.trackUri = none ∧
      p.cbPlay task luck = { p with savedPosSec := 0 }) := by
  by_cases hPlaying : p.state = .playing
  · by_cases hSame : p.playingUri.isSome ∧ p.playingUri = p.trackUri
    · exact .inl ⟨hPlaying, cbPlay_of_same hPlaying hSame⟩
    · exact .inr (.inl ⟨false, hPlaying, cbPlay_of_switch hPlaying hSame⟩)
  · by_cases hPaused : p.state = .paused
    · cases hOther : p.otherUri with
      | true => exact .inr (.inl ⟨true, hPaused, cbPlay_of_paused_switch hPaused hOther⟩)
      | false => exact .inr (.inr (.inl ⟨hPaused, cbPlay_of_resume hPaused hOther⟩))
    · by_cases hTrack : p.trackUri = none
      · exact .inr (.inr (.inr (.inr ⟨hPlaying, hPaused, hTrack,
          cbPlay_of_nothing hPlaying hPaused hTrack⟩)))
      · have hSome := Option.isSome_iff_ne_none.2 hTrack
        exact .inr (.inr (.inr (.inl ⟨hPlaying, hPaused, hSome,
          cbPlay_of_fresh hPlaying hPaused hSome⟩)))

/-- The near-end check has counted to its end. -/
def EndsSoon (p : Player) : Prop :=
  (p.state = .playing ∧ p.durCacheSec > 0) ∧
    (0 < p.durCacheSec * 1000 - p.getPositionMs ∧ p.durCacheSec * 1000 - p.getPositionMs < 1000) ∧
    p.nearEndCount + 1 ≥ 50

instance (p : Player) : Decidable p.EndsSoon := inferInstanceAs (Decidable (_ ∧ _ ∧ _))

/-- The near-end check may schedule the end of the track. -/
theorem nearEnd_eq (p : Player) :
    ∃ n js, p.nearEnd = { p with nearEndCount := n, sleepers := p.sleepers ++ js } ∧
      (js = [] ∨ js = [(Task.finish, Sleep.notify p.generation p.tracks)] ∧ p.EndsSoon) := by
  have hNothing (n : Nat) : ({ p with nearEndCount := n } : Player) =
      { p with nearEndCount := n, sleepers := p.sleepers ++ [] } := by rw [List.append_nil]
  by_cases hPlays : p.state = .playing ∧ p.durCacheSec > 0
  · by_cases hNear : 0 < p.durCacheSec * 1000 - p.getPositionMs ∧
        p.durCacheSec * 1000 - p.getPositionMs < 1000
    · by_cases hCount : p.nearEndCount + 1 ≥ 50
      · refine ⟨0, _, ?_, .inr ⟨rfl, hPlays, hNear, hCount⟩⟩
        rw [nearEnd, if_pos hPlays]
        simp only [if_pos hNear, if_pos hCount]
        rfl
      · refine ⟨p.nearEndCount + 1, [], ?_, .inl rfl⟩
        rw [nearEnd, if_pos hPlays, ← hNothing]
        simp only [if_pos hNear, if_neg hCount]
    · refine ⟨0, [], ?_, .inl rfl⟩
      rw [nearEnd, if_pos hPlays, ← hNothing]
      simp only [if_neg hNear]
  · exact ⟨0, [], by rw [nearEnd, if_neg hPlays, ← hNothing], .inl rfl⟩

theorem stuckPaused_cases (p : Player) (luck : Luck) :
    (∃ since, p.stuckPaused luck = { p with stuckPausedSince := since }) ∨
      p.state = .paused ∧ p.userStopped = false ∧
        p.stuckPaused luck = { (p.pipeStop luck).setState .stopped with stuckPausedSince := 0 } := by
  unfold stuckPaused
  split_ifs with hPaused hZero hLong
  · exact .inl ⟨_, rfl⟩
  · exact .inr ⟨hPaused.1, by simpa using hPaused.2, rfl⟩
  · exact .inl ⟨p.stuckPausedSince, rfl⟩
  · exact .inl ⟨0, rfl⟩

/-- The next track is the current one, but does not play yet. -/
def withNext (p : Player) : Player :=
  { p with
    trackUri := p.nextUri
    nextUri := none
    nextMetadata := none
    promoted := if p.nextUri.isSome then p.nexts :: p.promoted else p.promoted }

theorem promoteNext_eq :
    p.promoteNext task luck = p.withNext.doPlay task luck p.nextUri 0 (.next p.nextMetadata) := rfl

/-- No next URI has come: the track is at its end. -/
def timedOut (p : Player) : Player :=
  ({ p with
      accumulatedMs := if p.durCacheSec > 0 then p.durCacheSec * 1000 else p.accumulatedMs
      playStartUs := 0 }.setState .stopped).updateUri none none

/-- No next URI has come for five seconds, and nobody has asked for another track. -/
def WaitsOut (p : Player) (generation trackSeq waited : Nat) : Prop :=
  p.hasNext = false ∧ ¬(generation ≠ p.generation ∨ p.state = .playing ∨ p.trackSeq ≠ trackSeq) ∧
    5000 ≤ waited + 100

instance (p : Player) (generation trackSeq waited : Nat) :
    Decidable (p.WaitsOut generation trackSeq waited) := inferInstanceAs (Decidable (_ ∧ _))

theorem WaitsOut.notPlaying {generation trackSeq waited : Nat}
    (h : p.WaitsOut generation trackSeq waited) : p.state ≠ .playing :=
  fun hPlays => h.2.1 (.inr (.inl hPlays))

theorem waitNext_cases (p : Player) (luck : Luck) (task : Task) (generation trackSeq waited : Nat) :
    p.hasNext ∧ p.waitNext task luck generation trackSeq waited = p.promoteNext task luck ∨
    p.waitNext task luck generation trackSeq waited = p ∨
    (p.state ≠ .playing ∧ p.waitNext task luck generation trackSeq waited =
      p.sleep task (.waitNext generation trackSeq (waited + 100))) ∨
    (p.WaitsOut generation trackSeq waited ∧
      p.waitNext task luck generation trackSeq waited = p.timedOut) := by
  by_cases hNext : p.hasNext
  · exact .inl ⟨hNext, if_pos hNext⟩
  · by_cases hGone : generation ≠ p.generation ∨ p.state = .playing ∨ p.trackSeq ≠ trackSeq
    · exact .inr (.inl ((if_neg hNext).trans (if_pos hGone)))
    · have hState : p.state ≠ .playing := fun h => hGone (.inr (.inl h))
      by_cases hTime : waited + 100 < 5000
      · exact .inr (.inr (.inl ⟨hState,
          (if_neg hNext).trans ((if_neg hGone).trans (if_pos hTime))⟩))
      · exact .inr (.inr (.inr ⟨⟨by simpa using hNext, hGone, not_lt.1 hTime⟩,
          (if_neg hNext).trans ((if_neg hGone).trans (if_neg hTime))⟩))

theorem request_setUri {uri : Bytes} {metadata : Option Bytes} (h : peek uri ≠ 0) :
    p.request luck (.setUri uri metadata) = p.setAvTransportUri uri metadata := if_pos h

theorem request_setUri_empty {uri : Bytes} {metadata : Option Bytes} (h : ¬peek uri ≠ 0) :
    p.request luck (.setUri uri metadata) = p := if_neg h

/-! ## The cases of a step -/

theorem step_soap {p' : Player} {request : AvtRequest} (h : p.step (.soap request luck) = some p') :
    p' = p.request luck request :=
  (Option.some.inj (Option.ite_none_right_eq_some.1 h).2).symm

theorem step_toggle {p' : Player} (h : p.step (.toggle luck) = some p') :
    p' = p.cbPlayToggle .btnCtrl luck :=
  (Option.some.inj (Option.ite_none_right_eq_some.1 h).2).symm

theorem step_track {p' : Player} (h : p.step (.track luck) = some p') :
    ∃ rest, p' = { p with presses := rest }.cbNext .btnTrack luck ∨
      p' = { p with presses := rest }.cbPrevious .btnTrack luck := by
  obtain ⟨-, hEq⟩ := Option.ite_none_right_eq_some.1 h
  split at hEq
  · contradiction
  · exact ⟨_, .inl (Option.some.inj hEq).symm⟩
  · exact ⟨_, .inr (Option.some.inj hEq).symm⟩

/-- One task sleeps no more. -/
def without (p : Player) (n : Nat) : Player := { p with sleepers := p.sleepers.eraseIdx n }

theorem step_wake {p' : Player} {n : Nat} (h : p.step (.wake n luck) = some p') :
    ∃ task s, p.sleepers[n]? = some (task, s) ∧ p' = (p.without n).wake luck task s := by
  rw [step] at h
  split at h
  · contradiction
  · next hGet => exact ⟨_, _, hGet, (Option.some.inj h).symm⟩

end Branches

/-! ## The tracks -/

/-- What is known of the tracks, and what has become of the next ones. -/
structure Content where
  trackUri : Option Bytes
  nextUri : Option Bytes
  nextMetadata : Option Bytes
  uri : Bytes
  metadata : Bytes
  curTitle : Bytes
  curArtist : Bytes
  durCacheSec : Int
  nexts : Nat
  promoted : List Nat

def content : Content where
  trackUri := p.trackUri
  nextUri := p.nextUri
  nextMetadata := p.nextMetadata
  uri := p.uri
  metadata := p.metadata
  curTitle := p.curTitle
  curArtist := p.curArtist
  durCacheSec := p.durCacheSec
  nexts := p.nexts
  promoted := p.promoted

@[simp] theorem content_setState (s : PlayState) : (p.setState s).content = p.content := rfl

@[simp] theorem content_grace (us : Int) : (p.grace us).content = p.content := rfl

@[simp] theorem content_sleep (s : Sleep) : (p.sleep task s).content = p.content := rfl

@[simp] theorem content_sought (seconds : Int) : (p.sought seconds).content = p.content := rfl

@[simp] theorem content_freeze : p.freeze.content = p.content := by
  obtain ⟨ms, hEq⟩ := p.freeze_eq
  rw [hEq]
  rfl

@[simp] theorem content_onRunning : p.onRunning.content = p.content := by
  rw [onRunning_eq]
  rfl

@[simp] theorem content_pipePause : p.pipePause.content = p.content := by
  obtain ⟨s, hEq, -⟩ := p.pipePause_eq
  rw [hEq]
  rfl

@[simp] theorem content_pipeResume : p.pipeResume.content = p.content := by
  rcases p.pipeResume_eq with ⟨hEq, -⟩ | ⟨hEq, -⟩
  · rw [hEq]
  · rw [hEq, content_onRunning]
    rfl

@[simp] theorem content_pipeStop : (p.pipeStop luck).content = p.content := by
  obtain ⟨s, js, hEq, -, -⟩ := p.pipeStop_eq luck
  rw [hEq]
  rfl

@[simp] theorem content_played (uri : Bytes) (seekSec : Int) :
    (p.played uri seekSec).content = p.content := rfl

/-- Only the promotion of a track goes on to tell of it. -/
theorem content_afterPlay {after : After} (h : ∀ metadata, after ≠ .next metadata) :
    (p.afterPlay after).content = p.content := by
  cases after with
  | switched paused => cases paused <;> rfl
  | fresh => rfl
  | next metadata => exact absurd rfl (h metadata)
  | previous => rfl

theorem content_doPlay (uri : Option Bytes) (seekSec : Int) {after : After}
    (h : ∀ metadata, after ≠ .next metadata) :
    (p.doPlay task luck uri seekSec after).content = p.content := by
  cases uri with
  | none =>
    rw [doPlay, content_afterPlay _ h]
    rfl
  | some uri =>
    simp only [doPlay]
    split_ifs
    · rw [content_afterPlay _ h]
      rfl
    · rfl

theorem content_retryPlay (uri : Bytes) (seekSec : Int) {after : After}
    (h : ∀ metadata, after ≠ .next metadata) :
    (p.retryPlay luck uri seekSec after).content = p.content := by
  unfold retryPlay
  split_ifs
  · rw [content_afterPlay _ h]
    rfl
  · rw [content_afterPlay _ h]
    rfl

@[simp] theorem content_resumed : p.resumed.content = p.content := content_pipeResume p

@[simp] theorem content_saved : p.saved.content = p.content :=
  content_freeze { p with pendingSeekSec := 0 }

@[simp] theorem content_stopping : p.stopping.content = p.content :=
  content_freeze { p with generation := p.generation + 1, nearEndCount := 0 }

@[simp] theorem content_cbPlay : (p.cbPlay task luck).content = p.content := by
  rcases cbPlay_cases p luck task with
    ⟨-, hEq⟩ | ⟨paused, -, hEq⟩ | ⟨-, hEq⟩ | ⟨-, -, -, hEq⟩ | ⟨-, -, -, hEq⟩
  · rw [hEq]
  · rw [hEq, content_sleep, content_pipeStop]
    rfl
  · rw [hEq]
    exact content_resumed p
  · rw [hEq, content_doPlay _ _ _ _ _ (by rintro _ ⟨⟩)]
  · rw [hEq]
    rfl

@[simp] theorem content_cbPause : p.cbPause.content = p.content := by
  by_cases hState : p.state = .playing
  · rw [cbPause_of_playing hState]
    exact (content_pipePause p.saved).trans (content_saved p)
  · rw [cbPause_of_not_playing hState]
    rfl

@[simp] theorem content_cbPlayToggle : (p.cbPlayToggle task luck).content = p.content := by
  unfold cbPlayToggle
  split_ifs <;> simp

@[simp] theorem content_cbSeek (seconds : Int) : (p.cbSeek task seconds).content = p.content := by
  by_cases hState : p.state = .playing
  · rw [cbSeek_of_playing hState, content_sleep, content_pipePause]
    rfl
  · rw [cbSeek_of_not_playing hState]
    rfl

@[simp] theorem content_leaveTrack : p.leaveTrack.content = p.content := rfl

@[simp] theorem content_cbNext : (p.cbNext task luck).content = p.content := by
  cases hNext : p.hasNext with
  | true => rw [cbNext_of_next hNext, content_sleep, content_pipeStop, content_grace, content_leaveTrack]
  | false => rw [cbNext_of_none hNext, content_sleep, content_pipeStop, content_grace, content_leaveTrack]

@[simp] theorem content_cbPrevious : (p.cbPrevious task luck).content = p.content := by
  cases hTrack : p.trackUri with
  | some uri => rw [cbPrevious_of_some (by simp [hTrack])]; simp
  | none => rw [cbPrevious_of_none hTrack]; simp

@[simp] theorem content_deferredSeek (sec : Int) : (p.deferredSeek sec).content = p.content := by
  by_cases hState : p.state = .playing
  · rw [deferredSeek_of_playing hState, content_sleep, content_pipePause]
    rfl
  · rw [deferredSeek_of_not_playing hState]

@[simp] theorem content_delayedStopNotify (generation track : Nat) :
    (p.delayedStopNotify luck generation track).content = p.content := by
  by_cases hLive : generation = p.generation
  · rw [delayedStopNotify_of_live hLive, content_cbNext]
    exact content_freeze p
  · rw [delayedStopNotify_of_stale hLive]

@[simp] theorem content_wifiLost : p.wifiLost.content = p.content := by
  by_cases hState : p.state = .playing
  · rw [wifiLost_of_playing hState]
    exact content_pipePause p
  · rw [wifiLost_of_not_playing hState]

@[simp] theorem content_wifiRestored : p.wifiRestored.content = p.content := by
  by_cases h : p.state = .paused ∧ p.userStopped = false
  · rw [wifiRestored_of_paused h.1 h.2, content_resumed]
  · rw [wifiRestored_of_not h]

@[simp] theorem content_nearEnd : p.nearEnd.content = p.content := by
  obtain ⟨n, js, hEq, -⟩ := p.nearEnd_eq
  rw [hEq]
  rfl

@[simp] theorem content_stuckPaused : (p.stuckPaused luck).content = p.content := by
  rcases p.stuckPaused_cases luck with ⟨since, hEq⟩ | ⟨-, -, hEq⟩
  · rw [hEq]
    rfl
  · rw [hEq]
    exact content_pipeStop p luck

@[simp] theorem content_uiTick : (p.uiTick luck).content = p.content := by
  rw [uiTick, content_stuckPaused, content_nearEnd]

theorem content_pipeEvent {p p' : Player} {event : PipeEvent} (h : p.pipeEvent event = some p') :
    p'.content = p.content := by
  cases event with
  | running =>
    obtain ⟨-, h⟩ := Option.ite_none_right_eq_some.1 h
    rw [← Option.some.inj h, content_onRunning]
    rfl
  | finished =>
    obtain ⟨-, h⟩ := Option.ite_none_right_eq_some.1 h
    rw [← Option.some.inj h]
    rcases onFinished_eq { p with pipe := .idle } with ⟨hEq, -⟩ | ⟨hEq, -⟩ <;>
      · rw [hEq]
        rfl
  | stopped =>
    obtain ⟨-, h⟩ := Option.ite_none_right_eq_some.1 h
    obtain ⟨s, hEq, -⟩ := onStopped_eq { p with pipe := .idle }
    rw [← Option.some.inj h, hEq]
    rfl
  | error =>
    obtain ⟨-, h⟩ := Option.ite_none_right_eq_some.1 h
    obtain ⟨s, hEq, -⟩ := onError_eq { p with pipe := .idle }
    rw [← Option.some.inj h, hEq]
    rfl

/-! ## The queue -/

/-- The URIs, and what has become of the next ones. -/
def queue : Option Bytes × Option Bytes × Nat × List Nat :=
  (p.trackUri, p.nextUri, p.nexts, p.promoted)

theorem queue_of_content {p p' : Player} (h : p'.content = p.content) : p'.queue = p.queue :=
  congrArg (fun c : Content => (c.trackUri, c.nextUri, c.nexts, c.promoted)) h

theorem queue_afterPlay (after : After) : (p.afterPlay after).queue = p.queue := by
  cases after with
  | switched paused => cases paused <;> rfl
  | _ => rfl

theorem queue_doPlay (uri : Option Bytes) (seekSec : Int) (after : After) :
    (p.doPlay task luck uri seekSec after).queue = p.queue := by
  cases uri with
  | none =>
    rw [doPlay, queue_afterPlay]
    rfl
  | some uri =>
    simp only [doPlay]
    split_ifs
    · rw [queue_afterPlay]
      rfl
    · rfl

theorem queue_retryPlay (uri : Bytes) (seekSec : Int) (after : After) :
    (p.retryPlay luck uri seekSec after).queue = p.queue := by
  unfold retryPlay
  split_ifs
  · rw [queue_afterPlay]
    rfl
  · rw [queue_afterPlay]
    rfl

end Player

end EspMiplay.Dlna
