import EspMiplay.Dlna.ResumeKept

/-!
# Positions and seeks along a run

## Results

* `RunOk.only`     — a worker that is to seek is the only one.
* `Kept.wake`      — what is kept when a task wakes up.
* `Kept.pipeEvent` — and when the pipeline tells of itself.
* `Kept.step`      — what the steps keep.
* `sought_along`   — each run is sought to where its track was left, along orderly runs.
* `error_unsaved`  — an error loses the position.
-/

namespace EspMiplay.Dlna

open Transition
open EspMiplay.Miplay (Bytes ascii peek)

namespace Playback

variable {w w' : Playback} {p : Player} {luck : Luck} {task : Task} {n : Nat}

/-! ## Handlers that begin no run -/

theorem tracks_freeze (p : Player) : p.freeze.tracks = p.tracks := by
  obtain ⟨ms, hEq⟩ := p.freeze_eq
  rw [hEq]

theorem tracks_cbNext (p : Player) (luck : Luck) (task : Task) : (p.cbNext task luck).tracks = p.tracks := by
  cases hNext : p.hasNext with
  | true =>
    rw [Player.cbNext_of_next hNext]
    exact tracks_pipeStop (p.leaveTrack.grace 1500000) luck
  | false =>
    rw [Player.cbNext_of_none hNext]
    exact tracks_pipeStop (p.leaveTrack.grace 1000000) luck

theorem tracks_cbPrevious (p : Player) (luck : Luck) (task : Task) : (p.cbPrevious task luck).tracks = p.tracks := by
  by_cases hTrack : p.trackUri = none
  · rw [Player.cbPrevious_of_none hTrack]
    exact tracks_pipeStop p.leaveTrack luck
  · rw [Player.cbPrevious_of_some (Option.isSome_iff_ne_none.2 hTrack)]
    exact tracks_pipeStop (p.leaveTrack.grace 1000000) luck

theorem tracks_cbStop (p : Player) (luck : Luck) : (p.cbStop luck).tracks = p.tracks :=
  (tracks_pipeStop p.stopping luck).trans
    (tracks_freeze { p with generation := p.generation + 1, nearEndCount := 0 })

theorem tracks_cbPause (p : Player) : p.cbPause.tracks = p.tracks := by
  by_cases hState : p.state = .playing
  · obtain ⟨ms, us, hEq⟩ := cbPause_eq hState
    rw [hEq]
  · rw [Player.cbPause_of_not_playing hState]

theorem tracks_cbSetMetadata (p : Player) (metadata : Bytes) : (p.cbSetMetadata metadata).tracks = p.tracks := by
  obtain ⟨_, _, _, _, _, _, hEq⟩ := p.cbSetMetadata_eq metadata
  rw [hEq]

theorem tracks_deferredSeek (p : Player) (sec : Int) : (p.deferredSeek sec).tracks = p.tracks := by
  by_cases hState : p.state = .playing
  · obtain ⟨s, hEq, -⟩ := Player.pipePause_eq { p with generation := p.generation + 1 }
    rw [Player.deferredSeek_of_playing hState, hEq]
    rfl
  · rw [Player.deferredSeek_of_not_playing hState]

theorem tracks_setUri (p : Player) (luck : Luck) (uri : Bytes) (metadata : Option Bytes) :
    (p.request luck (.setUri uri metadata)).tracks = p.tracks := by
  by_cases hEmpty : peek uri = 0
  · rw [Player.request_setUri_empty (not_not.2 hEmpty)]
  · rw [Player.request_setUri hEmpty]
    cases hVideo : isVideoUri uri with
    | true =>
      rw [p.setAvTransportUri_of_video metadata hVideo, tracks_cbSetMetadata]
    | false =>
      rw [p.setAvTransportUri_of_track metadata hVideo, tracks_cbSetMetadata]
      rfl

/-! ## Tasks that wake up -/

/-- The worker that wakes is the only one, and has its seek from `_do_play`. -/
theorem RunOk.only {s : Sleep} {sec : Int} (h : w.RunOk) (hGet : w.player.sleepers[n]? = some (task, s))
    (hSeek : seekOf s = [sec]) :
    w.sought = [] ∧ owed w.due = [sec] ∧ (w.player.without n).seekers = [] ∧ w.player.pipe ≠ .opening ∧
      w.player.seekers = [s] ∧ w.player.underWay = [sec] := by
  obtain ⟨before, behind, hAll, hRest⟩ := Player.sleepers_split hGet
  have hSeeks : seeks s = true := by
    cases s with
    | deferred sec => rfl
    | deferredPaused sec => rfl
    | _ => contradiction
  have hSeekers : w.player.seekers =
      (before.map Prod.snd).filter seeks ++ s :: (behind.map Prod.snd).filter seeks := by
    rw [Player.seekers, hAll, List.map_append, List.filter_append, List.map_cons, List.filter_cons, if_pos hSeeks]
  have hMem : sec ∈ w.player.underWay := by
    rw [Player.underWay, hSeekers, List.flatMap_append, List.flatMap_cons, hSeek]
    simp
  have hSome : w.player.underWay ≠ [] := List.ne_nil_of_mem hMem
  -- With a seek under way there is one worker at most, and this is one.
  have hSingle := h.seeking.single hSome
  rw [hSeekers, List.length_append, List.length_cons] at hSingle
  have hBefore : (before.map Prod.snd).filter seeks = [] := List.length_eq_zero_iff.1 (by omega)
  have hBehind : (behind.map Prod.snd).filter seeks = [] := List.length_eq_zero_iff.1 (by omega)
  have hWithout : (w.player.without n).seekers = [] := by
    rw [Player.seekers, hRest, List.map_append, List.filter_append, hBefore, hBehind]
    rfl
  have hReached : w.player.pipe ≠ .opening := fun hOpening => hSome (h.seeking.reached hOpening)
  have hOnly : w.player.seekers = [s] := by
    rw [hSeekers, hBefore, hBehind]
    rfl
  have hUnderWay : w.player.underWay = [sec] := by
    rw [Player.underWay, hOnly, List.flatMap_singleton, hSeek]
  have hShort := h.short
  rw [coming_of_handed (h.handed hReached), hUnderWay, List.length_singleton] at hShort
  have hSought : w.sought = [] := List.length_eq_zero_iff.1 (by omega)
  refine ⟨hSought, ?_, hWithout, hReached, hOnly, hUnderWay⟩
  rw [← h.once, hSought, coming_of_handed (h.handed hReached), hUnderWay]
  rfl

/-- The worker's pause does not count as one. -/
theorem pipePause_of_unstopped (h : p.pipe = .running → p.userStopped = false) :
    p.pipePause = { p with pipe := if p.pipe = .running then .paused else p.pipe } := by
  unfold Player.pipePause Player.onPaused
  by_cases hRuns : p.pipe = .running
  · simp [hRuns, h hRuns]
  · simp [hRuns]

/-- `deferred_seek_worker`, created -/
theorem Kept.deferredSeek {sec : Int} (h : Kept w) (hGet : w.player.sleepers[n]? = some (task, .deferred sec)) :
    Kept { w with player := (w.player.without n).deferredSeek sec } := by
  have hRest (x : Task × Sleep) (hMem : x ∈ (w.player.without n).sleepers) : x ∈ w.player.sleepers :=
    List.mem_of_mem_eraseIdx hMem
  by_cases hState : w.player.state = .playing
  · have hUser (hBusy : w.player.pipe ≠ .idle) : w.player.userStopped = false := by
      obtain ⟨-, -, -, -, -, hUnderWay⟩ := (h.run hBusy).only hGet rfl
      exact (h.run hBusy).user (.inr (by rw [hUnderWay]; simp))
    have hPause := pipePause_of_unstopped
      (p := { w.player.without n with generation := (w.player.without n).generation + 1 })
      fun hRuns => hUser (by rw [show w.player.pipe = .running from hRuns]; simp)
    have hPipe : (if w.player.pipe = .running then Pipe.paused else w.player.pipe) = .opening ↔
        w.player.pipe = .opening := by
      split_ifs with hRuns
      · simp [hRuns]
      · exact .rfl
    have hIdle : (if w.player.pipe = .running then Pipe.paused else w.player.pipe) = .idle ↔
        w.player.pipe = .idle := by
      split_ifs with hRuns
      · simp [hRuns]
      · exact .rfl
    rw [Player.deferredSeek_of_playing (p := w.player.without n) hState, hPause]
    refine h.repiped rfl hIdle.2 rfl rfl rfl rfl (fun x hMem => ?_) fun hBusy => ?_
    · refine (List.mem_append.1 hMem).imp (hRest x) fun hNew => ?_
      obtain rfl := List.mem_singleton.1 hNew
      exact .inl trivial
    · have hWas : w.player.pipe ≠ .idle := fun hIs => hBusy (hIdle.2 hIs)
      have hRun := h.run hWas
      obtain ⟨hSought, hDue, hNone, hReached, -, -⟩ := hRun.only hGet rfl
      have hHanded := hRun.handed hReached
      have hPaused : (if w.player.pipe = .running then Pipe.paused else w.player.pipe) = .paused := by
        cases hIs : w.player.pipe with
        | idle => exact absurd hIs hWas
        | opening => exact absurd hIs hReached
        | running => rfl
        | paused => rfl
      refine ⟨fun _ => hHanded, fun _ => hUser hWas, fun hNot => ?_, ?_, ?_⟩
      · exact absurd (hState.symm.trans hNot) (by simp)
      · rw [coming_of_handed ?_, underWay_sleep, hSought, hDue]
        · exact congrArg (List.flatMap seekOf · ++ [sec]) hNone
        · exact hHanded
      · refine ⟨fun hOpening => ?_, fun hOpening => ?_, fun _ => ?_, fun _ _ => hPaused⟩
        · exact absurd (hPipe.1 hOpening) hReached
        · exact absurd (hPipe.1 hOpening) hReached
        · rw [seekers_sleep]
          exact (congrArg (List.length <| · ++ [Sleep.deferredPaused sec]) hNone).le
  · rw [Player.deferredSeek_of_not_playing (p := w.player.without n) hState]
    -- The worker drops its seek; it may, since nothing is coming while the track is paused.
    have hIdle : w.player.pipe = .idle := by
      by_contra hBusy
      have hPaused := (h.state_of_busy hBusy).resolve_left hState
      have hComing := (h.run hBusy).quiet hPaused
      obtain ⟨-, -, -, -, -, hUnderWay⟩ := (h.run hBusy).only hGet rfl
      have hNil : w.player.underWay = [] := (List.append_eq_nil_iff.1 hComing).2
      rw [hNil] at hUnderWay
      contradiction
    exact h.repiped rfl id rfl rfl rfl rfl (fun x hMem => .inl (hRest x hMem)) fun hBusy => absurd hIdle hBusy

/-- `deferred_seek_worker` has sought. -/
theorem Kept.deferredPaused {sec : Int} (h : Kept w)
    (hGet : w.player.sleepers[n]? = some (task, .deferredPaused sec)) :
    Kept ⟨(w.player.without n).sleep task (.deferredDone sec), w.points, w.due,
      w.sought ++ if w.player.pipe = .paused then [sec] else []⟩ := by
  refine h.repiped rfl id rfl rfl rfl rfl (fun x hMem => ?_) fun hBusy => ?_
  · refine (List.mem_append.1 hMem).imp List.mem_of_mem_eraseIdx fun hNew => ?_
    obtain rfl := List.mem_singleton.1 hNew
    exact .inl trivial
  · have hRun := h.run hBusy
    obtain ⟨hSought, hDue, hNone, hReached, hOnly, hUnderWay⟩ := hRun.only hGet rfl
    have hPaused : w.player.pipe = .paused := hRun.seeking.held sec (by rw [hOnly]; exact List.mem_singleton_self _)
    have hGone : ((w.player.without n).sleep task (.deferredDone sec)).underWay = [] := by
      rw [underWay_sleep, Player.underWay, hNone]
      rfl
    have hComing : ((w.player.without n).sleep task (.deferredDone sec)).coming = [] :=
      (coming_of_handed (p := (w.player.without n).sleep task (.deferredDone sec)) (hRun.handed hReached)).trans hGone
    refine ⟨hRun.handed, fun _ => hRun.user (.inr (by rw [hUnderWay]; simp)), fun _ => hComing, ?_,
      .of_none hGone fun hOpening => absurd hOpening hReached⟩
    show (w.sought ++ if w.player.pipe = .paused then [sec] else []) ++ _ = _
    rw [hComing, hSought, hDue, if_pos hPaused]
    rfl

/-- `deferred_seek_worker` goes on. -/
theorem Kept.deferredDone {sec : Int} (h : Kept w) (hGet : w.player.sleepers[n]? = some (task, .deferredDone sec))
    (us : Int) : Kept { w with player := { (w.player.without n).pipeResume with playStartUs := us } } := by
  have hRest : Kept { w with player := w.player.without n } := h.without hGet rfl
  refine (hRest.pipeResume fun hPaused sec' hMem => ?_).frame ⟨rfl, rfl, rfl, rfl, rfl, rfl, rfl, rfl⟩
    (.of_sleepers rfl) fun _ => .inl
  -- Another worker that still holds the pipeline would have to be the only one.
  have hBusy : w.player.pipe ≠ .idle := by simp [show w.player.pipe = .paused from hPaused]
  have hOther : Sleep.deferredPaused sec' ∈ w.player.seekers := (seekers_without w.player n).subset hMem
  have hThis : Sleep.deferredDone sec ∈ w.player.seekers :=
    List.mem_filter.2 ⟨List.mem_map.2 ⟨_, List.mem_of_getElem? hGet, rfl⟩, rfl⟩
  have hSome : w.player.underWay ≠ [] :=
    List.ne_nil_of_mem (List.mem_flatMap.2 ⟨_, hOther, List.mem_singleton_self sec'⟩)
  have hSingle := (h.run hBusy).seeking.single hSome
  obtain ⟨s, hOnly⟩ := List.length_eq_one_iff.1 (le_antisymm hSingle (List.length_pos_of_mem hThis))
  rw [hOnly, List.mem_singleton] at hOther hThis
  rw [← hOther] at hThis
  contradiction

/-! ## Events of the pipeline -/

/-- FINISHED, and a stop that is hidden -/
theorem Kept.halt (h : Kept w) : Kept { w with player := { w.player with pipe := .idle } } :=
  h.repiped rfl (fun _ => rfl) rfl rfl rfl rfl (fun _ => .inl) fun hBusy => absurd rfl hBusy

theorem Kept.finished (h : Kept w) : Kept { w with player := { w.player with pipe := .idle }.onFinished } := by
  rcases Player.onFinished_eq { w.player with pipe := .idle } with ⟨hEq, -⟩ | ⟨hEq, -⟩
  · rw [hEq]
    exact h.halt
  · rw [hEq]
    exact h.halt.sleep rfl (.inl trivial)

/-- STOPPED or ERROR, seen by the player -/
theorem Kept.broken (h : Kept w) (hBusy : w.player.pipe ≠ .idle)
    (hOk : w.player.state = .playing → w.Current → max w.player.cbGetPositionSec 0 = w.player.startSec) :
    Kept { w with
      player := { w.player with pipe := .idle, state := .stopped }
      points := if w.player.state = .playing then w.reported else w.points } := by
  refine Kept.of_stopped rfl (fun hIs => ?_) (fun hIs => ?_) ?_ fun x hMem => .inl (h.plain_of_busy hBusy x hMem)
  · contradiction
  · contradiction
  · show w.player.startSec = max (w.player.trackUri.elim 0 _) 0
    -- Nothing is saved here, so what was reported must be what is saved already.
    by_cases hState : w.player.state = .playing
    · rw [if_pos hState]
      by_cases hCurrent : w.Current
      · rw [point_reported w hCurrent (h.loaded (.inl hState)), hOk hState hCurrent]
      · obtain ⟨hSaved, hPoint⟩ := h.other hCurrent (.inl hState)
        rw [point_reported_of_other w hCurrent, startSec_of_nothing hSaved, max_eq_right hPoint]
    · rw [if_neg hState]
      exact h.saved hState

/-! ## Changes of the track -/

/-- What the handlers of a track change leave to be done -/
theorem sameTrack_afterPlay {after : After} (hAfter : ∀ uri, plain (.retry uri 0 after)) :
    SameTrack p (p.afterPlay after) ∧ (p.afterPlay after).sleepers = p.sleepers := by
  cases after with
  | switched paused => exact (hAfter []).elim
  | fresh => exact (hAfter []).elim
  | next metadata => exact ⟨⟨rfl, rfl, rfl, rfl, rfl, rfl, rfl, rfl⟩, rfl⟩
  | previous => exact ⟨⟨rfl, rfl, rfl, rfl, rfl, rfl, rfl, rfl⟩, rfl⟩

theorem Kept.afterPlay {after : After} (hAfter : ∀ uri, plain (.retry uri 0 after)) (h : Kept { w with player := p }) :
    Kept { w with player := p.afterPlay after } := by
  obtain ⟨hSame, hSleepers⟩ := sameTrack_afterPlay (p := p) hAfter
  exact h.frame hSame (.of_sleepers hSleepers) fun x hMem => .inl (hSleepers ▸ hMem)

theorem clear_of_zero {sec : Int} {early : Bool} (h : p.Clear 0 early) (hSec : sec ≤ 0) : p.Clear sec early :=
  ⟨h.1, fun hPos => absurd hPos (not_lt.2 hSec), .inr (h.2.2.1.resolve_left (lt_irrefl _)), fun _ => hSec⟩

theorem clear_without {x : Task × Sleep} {sec : Int} {early : Bool} (hGet : p.sleepers[n]? = some x)
    (hNone : seekOf x.2 = []) (h : p.Clear sec early) : (p.without n).Clear sec early := by
  refine ⟨(underWay_without hGet hNone).trans h.1, fun hPos => ?_, h.2.2⟩
  exact List.sublist_nil.1 (h.2.1 hPos ▸ seekers_without p n)

/-- A track that starts from the beginning -/
theorem Advances.skip {a : PlaybackAction} {uri : Option Bytes} {after : After}
    (h : Kept { w with player := p, points := fun _ => 0 }) (hTracks : p.tracks = w.player.tracks)
    (hSaved : p.savedPosSec ≤ 0) (hPlain : ∀ x ∈ p.sleepers, plain x.2)
    (hPoints : w.pointsAfter a = fun _ => 0) (hPlay : w.ofPlay a = false) (hSought : w.soughtBy a = [])
    (hClear : luck.runs → p.Clear 0 a.early) (hAfter : ∀ uri, plain (.retry uri 0 after)) :
    Advances w a (p.doPlay task luck uri 0 after) := by
  rcases doPlay_split p luck task uri 0 after with ⟨-, hEq⟩ | ⟨u, -, hRuns, -, hEq⟩ | ⟨u, -, hEq⟩
  · rw [hEq]
    refine .of_same ((tracks_afterPlay _ after).trans hTracks) hSought ?_
    rw [hPoints]
    exact Kept.afterPlay (w := { w with points := fun _ => 0 }) hAfter
      (h.frame ⟨rfl, rfl, rfl, rfl, rfl, rfl, rfl, rfl⟩ (.of_sleepers rfl) fun _ => .inl)
  · rw [hEq]
    have hBegun := Kept.begun (w := w) (a := a)
      (p := Player.grace { p with generation := p.generation + 1, nearEndCount := 0 } 8000000) u 0 after a.early hTracks
      (.inr ⟨hSaved, by rw [hPoints]; exact (elim_zero _).le⟩) (hClear hRuns) (by rw [hPlay]; rfl) hPlain
    exact ⟨hBegun.1, fun _ => hBegun.2.1, fun _ => hBegun.2.2⟩
  · rw [hEq]
    refine .of_same hTracks hSought ?_
    rw [hPoints]
    have hTrying : Kept { w with
        player := Player.grace { p with generation := p.generation + 1, nearEndCount := 0 } 8000000
        points := fun _ => 0 } := h.frame ⟨rfl, rfl, rfl, rfl, rfl, rfl, rfl, rfl⟩ (.of_sleepers rfl) fun _ => .inl
    exact hTrying.sleep rfl (.inl (hAfter u))

/-- No `cb_play` is under way. -/
theorem Kept.plain_of_alone (h : Kept w) (hAlone : w.Alone) : ∀ x ∈ w.player.sleepers, plain x.2 := by
  intro x hMem
  refine (h.tasks x hMem).resolve_right fun hOk => ?_
  obtain ⟨hReplays, hSwitch⟩ := hAlone x hMem
  obtain ⟨t, s⟩ := x
  cases s with
  | switch paused => exact hSwitch paused rfl
  | retry uri sec after =>
    cases after with
    | switched paused => contradiction
    | fresh => contradiction
    | next metadata => exact hOk.2
    | previous => exact hOk.2
  | _ => exact hOk.2

/-- While a handler of the HTTP server wakes, no other is in `cb_play`. -/
theorem Kept.plain_of_woken {s : Sleep} (h : Kept w) (hOne : w.player.soaps ≤ 1)
    (hGet : w.player.sleepers[n]? = some (.soap, s)) : ∀ x ∈ (w.player.without n).sleepers, plain x.2 := by
  intro x hMem
  refine (h.tasks x (List.mem_of_mem_eraseIdx hMem)).resolve_right fun hOk => ?_
  exact Player.not_soap_of_woken hOne hGet x hMem hOk.1

/-- The step is the next of `cb_next` or `cb_previous`. -/
theorem wake_leaves {s : Sleep} (luck : Luck) (early : Bool) (hGet : w.player.sleepers[n]? = some (task, s))
    (hChanges : w.changesTrack s = true) :
    w.pointsAfter (.wake n luck early) = (fun _ => 0) ∧ w.ofPlay (.wake n luck early) = false := by
  simp [pointsAfter, ofPlay, hGet, hChanges]

theorem wake_stays {s : Sleep} (luck : Luck) (early : Bool) (hGet : w.player.sleepers[n]? = some (task, s))
    (hChanges : w.changesTrack s = false) : w.pointsAfter (.wake n luck early) = w.points := by
  simp [pointsAfter, hGet, hChanges]

theorem soughtBy_wake {s : Sleep} (luck : Luck) (early : Bool) (hGet : w.player.sleepers[n]? = some (task, s))
    (hNot : ∀ sec, s ≠ .deferredPaused sec) : w.soughtBy (.wake n luck early) = [] := by
  cases s with
  | deferredPaused sec => exact absurd rfl (hNot sec)
  | _ => simp only [soughtBy, hGet]

/-- Nothing is saved, nothing is to be, and the pipeline is idle. -/
theorem Kept.unsaved {points : Bytes → Int} (h : Kept w) (hState : p.state = w.player.state) (hPipe : p.pipe = .idle)
    (hPlays : p.playingUri = w.player.playingUri) (hSaved : p.savedPosSec ≤ 0)
    (hPoint : p.trackUri.elim 0 points ≤ 0) (hPlain : ∀ x ∈ p.sleepers, plain x.2) :
    Kept { w with player := p, points := points } where
  loaded hBusy := by
    rw [hState, ← or_assoc] at hBusy
    exact hPlays ▸ h.loaded ((hBusy.resolve_right fun hNot => hNot hPipe).imp_right .inl)
  saved _ := (startSec_of_nothing hSaved).trans (max_eq_right hPoint).symm
  other _ _ := ⟨hSaved, hPoint⟩
  idle _ _ := hPipe
  tasks x hMem := .inl (hPlain x hMem)
  run hBusy := absurd hPipe hBusy

theorem plain_without (h : ∀ x ∈ w.player.sleepers, plain x.2) (n : Nat) :
    ∀ x ∈ (w.player.without n).sleepers, plain x.2 := fun x hMem => h x (List.mem_of_mem_eraseIdx hMem)

/-- `cb_next`, with a next URI -/
theorem Advances.promoteNext {s : Sleep} {early : Bool} (h : Kept w)
    (hGet : w.player.sleepers[n]? = some (task, s)) (hNone : seekOf s = [])
    (hChanges : w.changesTrack s = true) (hOk : w.Undisturbed ∧ w.Alone ∧ (luck.runs → w.player.Clear 0 early)) :
    Advances w (.wake n luck early) ((w.player.without n).promoteNext task luck) := by
  obtain ⟨hUndisturbed, hAlone, hClear⟩ := hOk
  have hPlain := plain_without (h.plain_of_alone hAlone) n
  obtain ⟨hPoints, hPlay⟩ := wake_leaves luck early hGet hChanges
  have hSought : w.soughtBy (.wake n luck early) = [] :=
    soughtBy_wake luck early hGet fun sec hIs => by simp [hIs, seekOf] at hNone
  rw [Player.promoteNext_eq]
  refine .skip ?_ rfl hUndisturbed.1 hPlain hPoints hPlay hSought (fun hRuns => ?_) fun _ => le_rfl
  · exact h.unsaved rfl hUndisturbed.2 rfl hUndisturbed.1 (elim_zero _).le hPlain
  · exact clear_without (p := w.player) hGet hNone (hClear hRuns)

/-- `cb_previous` -/
theorem Advances.previous {early : Bool} (h : Kept w) (hGet : w.player.sleepers[n]? = some (task, .previous))
    (hOk : w.Undisturbed ∧ w.Alone ∧ (luck.runs → w.player.Clear 0 early)) :
    Advances w (.wake n luck early) ((w.player.without n).doPlay task luck w.player.trackUri 0 .previous) := by
  obtain ⟨hUndisturbed, hAlone, hClear⟩ := hOk
  have hPlain := plain_without (h.plain_of_alone hAlone) n
  obtain ⟨hPoints, hPlay⟩ := wake_leaves luck early hGet rfl
  refine .skip ?_ rfl hUndisturbed.1 hPlain hPoints hPlay (soughtBy_wake luck early hGet fun _ => by simp) (fun hRuns => ?_)
    fun _ => le_rfl
  · exact h.unsaved rfl hUndisturbed.2 rfl hUndisturbed.1 (elim_zero _).le hPlain
  · exact clear_without (p := w.player) hGet rfl (hClear hRuns)

/-- The second attempt to start a track from the beginning -/
theorem Advances.skipRetried {uri : Bytes} {sec : Int} {after : After} {early : Bool} (h : Kept w)
    (hGet : w.player.sleepers[n]? = some (task, .retry uri sec after)) (hAfter : ∀ uri, plain (.retry uri 0 after))
    (hOk : w.Undisturbed ∧ w.Alone ∧ (luck.runs → w.player.Clear 0 early)) :
    Advances w (.wake n luck early) ((w.player.without n).retryPlay luck uri sec after) := by
  obtain ⟨hUndisturbed, hAlone, hClear⟩ := hOk
  have hPlain := plain_without (h.plain_of_alone hAlone) n
  have hSec : sec ≤ 0 := by
    have hWaits := h.plain_of_alone hAlone _ (List.mem_of_getElem? hGet)
    cases after with
    | switched paused => exact (hAfter []).elim
    | fresh => exact (hAfter []).elim
    | next metadata => exact hWaits
    | previous => exact hWaits
  have hChanges : w.changesTrack (.retry uri sec after) = true := by
    cases after with
    | switched paused => exact (hAfter []).elim
    | fresh => exact (hAfter []).elim
    | next metadata => rfl
    | previous => rfl
  obtain ⟨hPoints, hPlay⟩ := wake_leaves luck early hGet hChanges
  rw [Player.retryPlay]
  by_cases hRuns : (w.player.without n).canRun luck
  · rw [if_pos hRuns]
    have hRuns' : luck.runs = true := (Bool.and_eq_true_iff.1 hRuns).1
    obtain ⟨hKept, hOpening, hHanded⟩ := Kept.begun (w := w) (a := .wake n luck early) (p := w.player.without n)
      uri sec after early rfl
      (.inr ⟨hUndisturbed.1, by rw [hPoints]; exact (elim_zero _).le⟩)
      (clear_of_zero (clear_without hGet rfl (hClear hRuns')) hSec)
      (by rw [hPlay, owed, if_neg (not_lt.2 hSec)]; rfl) hPlain
    exact ⟨hKept, fun _ => hOpening, fun _ => hHanded⟩
  · rw [if_neg hRuns]
    refine .of_same (tracks_afterPlay _ after) (soughtBy_wake luck early hGet fun _ => by simp) ?_
    rw [hPoints]
    refine Kept.afterPlay hAfter (w := { w with points := fun _ => 0 }) (Kept.of_stopped hUndisturbed.2
      (fun hIs => ?_) (fun hIs => ?_) ?_ fun x hMem => .inl (hPlain x hMem))
    · contradiction
    · contradiction
    · exact (startSec_of_nothing hUndisturbed.1).trans (by rw [point, elim_zero, max_self])

/-- The second attempt of `cb_play` -/
theorem Advances.playRetried {uri : Bytes} {sec : Int} {after : After} {early : Bool} (h : Kept w)
    (hOne : w.player.soaps ≤ 1) (hGet : w.player.sleepers[n]? = some (task, .retry uri sec after))
    (hAfter : replays (.retry uri sec after) = some sec)
    (hOk : if luck.runs then w.player.Clear sec early else w.point ≤ 0) :
    Advances w (.wake n luck early) ((w.player.without n).retryPlay luck uri sec after) := by
  obtain ⟨hTask, hIdle, hTrack, hSec⟩ : task = .soap ∧ w.player.pipe = .idle ∧ w.player.trackUri = some uri ∧
      max sec 0 = max w.point 0 := by
    have hWaits := h.tasks _ (List.mem_of_getElem? hGet)
    cases after with
    | switched paused => exact hWaits.resolve_left id
    | fresh => exact hWaits.resolve_left id
    | next metadata => contradiction
    | previous => contradiction
  have hStays : w.changesTrack (.retry uri sec after) = false ∧ leaves (.retry uri sec after) = false := by
    cases after with
    | switched paused => exact ⟨rfl, rfl⟩
    | fresh => exact ⟨rfl, rfl⟩
    | next metadata => contradiction
    | previous => contradiction
  subst hTask
  -- It is the handler of the HTTP server that sleeps, so that no other `cb_play` does.
  have hPlain := h.plain_of_woken hOne hGet
  have hPoints := wake_stays luck early hGet hStays.1
  have hPlay : w.ofPlay (.wake n luck early) = true := by simp [ofPlay, hGet, hStays]
  have hPoint : w.point = w.points uri := by rw [point, hTrack]; rfl
  rw [Player.retryPlay]
  by_cases hRuns : luck.runs
  · rw [if_pos (show (w.player.without n).canRun luck by rw [Player.canRun, hRuns]; exact decide_eq_true hIdle)]
    rw [if_pos hRuns] at hOk
    obtain ⟨hKept, hOpening, hHanded⟩ := Kept.begun (w := w) (a := .wake n luck early) (p := w.player.without n)
      uri sec after early rfl (.inl hTrack) (clear_without hGet rfl hOk)
      (by rw [hPlay, if_pos rfl, ← owed_max, hSec, owed_max, hPoint]) hPlain
    exact ⟨hKept, fun _ => hOpening, fun _ => hHanded⟩
  · rw [if_neg (show ¬(w.player.without n).canRun luck by simp [Player.canRun, hRuns])]
    -- The second attempt fails as well, and `cb_play` forgets what was saved.
    rw [if_neg hRuns] at hOk
    refine .of_same (tracks_afterPlay _ after) (soughtBy_wake luck early hGet fun _ => by simp) ?_
    rw [hPoints]
    have hSaved : (((w.player.without n).setState .stopped).afterPlay after).savedPosSec = 0 := by
      cases after with
      | switched paused => cases paused <;> rfl
      | fresh => rfl
      | next metadata => contradiction
      | previous => contradiction
    obtain ⟨pos, grace, user, uri', metadata, hEq, -⟩ := afterPlay_eq ((w.player.without n).setState .stopped) after
    rw [hEq] at hSaved ⊢
    refine Kept.of_stopped hIdle (fun hIs => ?_) (fun hIs => ?_) ?_ fun x hMem => .inl (hPlain x hMem)
    · contradiction
    · contradiction
    · exact (startSec_of_nothing (le_of_eq hSaved)).trans (max_eq_right hOk).symm

/-- `cb_play`, when it switches to the current track -/
theorem Advances.switched {paused early : Bool} (h : Kept w) (hOne : w.player.soaps ≤ 1)
    (hGet : w.player.sleepers[n]? = some (task, .switch paused))
    (hOk : luck.runs → w.player.trackUri.isSome → w.player.Clear w.player.savedPosSec early) :
    Advances w (.wake n luck early)
      ((w.player.without n).doPlay task luck w.player.trackUri w.player.savedPosSec (.switched paused)) := by
  obtain ⟨hTask, hIdle, hSaved, hPoint⟩ := (h.tasks _ (List.mem_of_getElem? hGet)).resolve_left id
  subst hTask
  have hPlain := h.plain_of_woken hOne hGet
  have hPoints := wake_stays luck early hGet rfl
  have hPlay : w.ofPlay (.wake n luck early) = true := by simp [ofPlay, hGet, changesTrack, leaves]
  have hSought := soughtBy_wake luck early hGet fun _ => by simp
  rcases doPlay_split (w.player.without n) luck .soap w.player.trackUri w.player.savedPosSec (.switched paused) with
    ⟨-, hEq⟩ | ⟨uri, hUri, hRuns, -, hEq⟩ | ⟨uri, hUri, hEq⟩
  · rw [hEq]
    refine .of_same (tracks_afterPlay _ _) hSought ?_
    rw [hPoints]
    obtain ⟨pos, grace, user, uri, metadata, hRest, hPos, -⟩ := afterPlay_eq
      { w.player.without n with generation := (w.player.without n).generation + 1, nearEndCount := 0 }
      (.switched paused)
    have hLess : pos ≤ 0 := hPos.elim (fun hSame => hSame.trans_le hSaved) le_of_eq
    rw [hRest]
    exact h.unsaved rfl hIdle rfl hLess hPoint hPlain
  · rw [hEq]
    have hClear := hOk hRuns (by rw [hUri]; rfl)
    have hTrack : w.point = w.points uri := by rw [point, hUri]; rfl
    have hDue : owed w.player.savedPosSec = owed (w.points uri) := by
      rw [← hTrack, owed, owed, if_neg (not_lt.2 hSaved), if_neg (not_lt.2 hPoint)]
    obtain ⟨hKept, hOpening, hHanded⟩ := Kept.begun (w := w) (a := .wake n luck early)
      (p := Player.grace { w.player.without n with
        generation := (w.player.without n).generation + 1
        nearEndCount := 0 } 8000000) uri w.player.savedPosSec (.switched paused) early rfl (.inl hUri)
      (clear_without (p := w.player) hGet rfl hClear) (by rw [hPlay, if_pos rfl, hDue]) hPlain
    exact ⟨hKept, fun _ => hOpening, fun _ => hHanded⟩
  · rw [hEq]
    refine .of_same rfl hSought ?_
    rw [hPoints]
    have hTrying : Kept { w with
        player := Player.grace { w.player.without n with
          generation := (w.player.without n).generation + 1
          nearEndCount := 0 } 8000000 } :=
      (h.without hGet rfl).frame ⟨rfl, rfl, rfl, rfl, rfl, rfl, rfl, rfl⟩ (.of_sleepers rfl) fun _ => .inl
    refine hTrying.sleep rfl (.inr ⟨rfl, hIdle, hUri, ?_⟩)
    exact (max_eq_right hSaved).trans (max_eq_right hPoint).symm

/-- `cb_next`, without a next URI -/
theorem Advances.noNext {early : Bool} (h : Kept w) (hGet : w.player.sleepers[n]? = some (task, .noNext))
    (hOk : w.Undisturbed ∧ w.player.Unhurried) :
    Advances w (.wake n luck early) ((w.player.without n).wake luck task .noNext) := by
  obtain ⟨hUndisturbed, hUnhurried⟩ := hOk
  obtain ⟨hPoints, -⟩ := wake_leaves luck early hGet rfl
  refine .of_same rfl (soughtBy_wake luck early hGet fun _ => by simp) ?_
  rw [hPoints]
  have hWaiting : Kept { w with player := (w.player.without n).setState .transitioning, points := fun _ => 0 } := by
    refine Kept.of_stopped hUndisturbed.2 (fun hIs => ?_) (fun hIs => ?_) ?_ fun x hMem => ?_
    · contradiction
    · contradiction
    · exact (startSec_of_nothing hUndisturbed.1).trans (by rw [point, elim_zero, max_self])
    · exact h.replaying_of_unhurried (p := (w.player.without n).setState .transitioning) hUnhurried rfl rfl
        hUndisturbed.1 x (List.mem_of_mem_eraseIdx hMem)
  exact hWaiting.sleep rfl (.inl trivial)

/-- `cb_next`, while it waits for a next URI -/
theorem Advances.waitNext {generation trackSeq waited : Nat} {early : Bool} (h : Kept w)
    (hGet : w.player.sleepers[n]? = some (task, .waitNext generation trackSeq waited))
    (hOk : w.OrderlyWake luck early (.waitNext generation trackSeq waited)) :
    Advances w (.wake n luck early) ((w.player.without n).waitNext task luck generation trackSeq waited) := by
  obtain ⟨hPromotes, hTimesOut⟩ := hOk
  have hSought := soughtBy_wake luck early hGet fun _ => by simp
  have hRest : Kept { w with player := w.player.without n } := h.without hGet rfl
  by_cases hNext : w.player.hasNext = true
  · -- A next URI has come.
    rw [Player.waitNext, if_pos (show (w.player.without n).hasNext = true from hNext)]
    exact .promoteNext h hGet rfl hNext (hPromotes hNext)
  · have hPoints := wake_stays luck early hGet (by simpa [changesTrack] using hNext)
    rcases (w.player.without n).waitNext_cases luck task generation trackSeq waited with
      ⟨hIs, -⟩ | hEq | ⟨-, hEq⟩ | ⟨hOut, hEq⟩
    · exact absurd hIs hNext
    · rw [hEq]
      refine .of_same rfl hSought ?_
      rw [hPoints]
      exact hRest
    · rw [hEq]
      refine .of_same rfl hSought ?_
      rw [hPoints]
      exact hRest.sleep rfl (.inl trivial)
    · rw [hEq]
      refine .of_same rfl hSought ?_
      rw [hPoints]
      refine Kept.of_stopped (hTimesOut hOut) (fun hIs => ?_) (fun hIs => ?_) (h.saved hOut.notPlaying) fun x hMem => ?_
      · contradiction
      · contradiction
      · exact (h.tasks x (List.mem_of_mem_eraseIdx hMem)).imp_right fun hTask =>
          ⟨hTask.1, replaying_congr (p := (w.player.without n).timedOut) id rfl rfl hTask.2⟩

/-- `delayed_stop_notify` -/
theorem Advances.notify {generation track : Nat} {early : Bool} (h : Kept w)
    (hGet : w.player.sleepers[n]? = some (task, .notify generation track))
    (hOk : generation = w.player.generation → w.player.Unhurried) :
    Advances w (.wake n luck early) ((w.player.without n).delayedStopNotify luck generation track) := by
  have hSought := soughtBy_wake luck early hGet fun _ => by simp
  have hRest : Kept { w with player := w.player.without n } := h.without hGet rfl
  by_cases hLive : generation = w.player.generation
  · obtain ⟨hPoints, -⟩ := wake_leaves luck early hGet (decide_eq_true hLive)
    have hFrozen : Kept { w with player := { (w.player.without n).freeze with ended := track :: w.player.ended } } := by
      obtain ⟨ms, hEq⟩ := (w.player.without n).freeze_eq
      rw [hEq]
      exact hRest.frame ⟨rfl, rfl, rfl, rfl, rfl, rfl, rfl, rfl⟩ (.of_sleepers rfl) fun _ => .inl
    have hUnhurried : ({ (w.player.without n).freeze with ended := track :: w.player.ended } : Player).Unhurried := by
      obtain ⟨ms, hEq⟩ := (w.player.without n).freeze_eq
      rw [hEq]
      exact fun x hMem => hOk hLive x (List.mem_of_mem_eraseIdx hMem)
    rw [Player.delayedStopNotify_of_live (p := w.player.without n) hLive]
    refine .of_same ((tracks_cbNext _ luck .finish).trans (tracks_freeze _)) hSought ?_
    rw [hPoints]
    exact hFrozen.cbNext hUnhurried
  · have hPoints := wake_stays luck early hGet (decide_eq_false hLive)
    rw [Player.delayedStopNotify_of_stale (p := w.player.without n) hLive]
    refine .of_same rfl hSought ?_
    rw [hPoints]
    exact hRest

/-- A sleep is over. -/
theorem Kept.wake {s : Sleep} {early : Bool} (h : Kept w) (hOne : w.player.soaps ≤ 1)
    (hGet : w.player.sleepers[n]? = some (task, s)) (hOk : w.OrderlyWake luck early s) :
    Advances w (.wake n luck early) ((w.player.without n).wake luck task s) := by
  cases s with
  | switch paused => exact .switched h hOne hGet hOk
  | retry uri sec after =>
    cases after with
    | switched paused => exact .playRetried h hOne hGet rfl hOk
    | fresh => exact .playRetried h hOne hGet rfl hOk
    | next metadata => exact .skipRetried h hGet (fun _ => le_rfl) hOk
    | previous => exact .skipRetried h hGet (fun _ => le_rfl) hOk
  | seek seconds => exact ((h.tasks _ (List.mem_of_getElem? hGet)).elim id And.right).elim
  | seekDone => exact ((h.tasks _ (List.mem_of_getElem? hGet)).elim id And.right).elim
  | notify generation track => exact .notify h hGet hOk
  | deferred sec =>
    refine .of_same (tracks_deferredSeek (w.player.without n) sec) (soughtBy_wake luck early hGet fun _ => by simp) ?_
    rw [wake_stays luck early hGet rfl]
    exact h.deferredSeek hGet
  | deferredPaused sec =>
    refine ⟨?_, fun hNew => absurd rfl hNew, fun hNew => absurd rfl hNew⟩
    have hSame : ((w.player.without n).wake luck task (.deferredPaused sec)).tracks = w.player.tracks := rfl
    have hSought : w.soughtBy (.wake n luck early) = if w.player.pipe = .paused then [sec] else [] := by
      simp only [soughtBy, hGet]
    rw [advance, hSought, wake_stays luck early hGet rfl, if_neg (not_not.2 hSame), if_neg (not_not.2 hSame)]
    exact h.deferredPaused hGet
  | deferredDone sec =>
    refine .of_same (tracks_pipeResume (w.player.without n)) (soughtBy_wake luck early hGet fun _ => by simp) ?_
    rw [wake_stays luck early hGet rfl]
    exact h.deferredDone hGet _
  | promote => exact .promoteNext h hGet rfl rfl hOk
  | noNext => exact .noNext h hGet hOk
  | waitNext generation trackSeq waited => exact .waitNext h hGet hOk
  | previous => exact .previous h hGet hOk

/-! ## Requests and events -/

/-- A request of the control point -/
theorem Kept.request {r : AvtRequest} {early : Bool} (h : Kept w) (hFree : w.player.free .soap = true)
    (hSeek : PlaybackAction.isSeek (.request r luck early) = false) (hOk : w.OrderlyAction (.request r luck early)) :
    Advances w (.request r luck early) (w.player.request luck r) := by
  cases r with
  | setUri uri metadata => exact .of_same (tracks_setUri w.player luck uri metadata) rfl (h.setUri hFree hOk)
  | setNextUri uri metadata =>
    exact .of_same rfl rfl (h.frame ⟨rfl, rfl, rfl, rfl, rfl, rfl, rfl, rfl⟩ (.of_sleepers rfl) fun _ => .inl)
  | play => exact h.cbPlay hFree hOk
  | pause => exact .of_same (tracks_cbPause w.player) rfl (h.cbPause hFree hOk)
  | stop => exact .of_same (tracks_cbStop w.player luck) rfl (h.cbStop hFree hOk)
  | seek seconds => contradiction
  | next =>
    exact .of_same (tracks_cbNext w.player luck .soap) rfl (h.cbNext (unhurried_of_plain (h.plain_of_free hFree)))
  | previous => exact .of_same (tracks_cbPrevious w.player luck .soap) rfl (h.cbPrevious hFree)

/-- The end of the pipeline, which the player does not see -/
theorem Advances.unseen {a : PlaybackAction} (h : Kept w) (hSought : w.soughtBy a = [])
    (hPoints : w.pointsAfter a = w.points) : Advances w a { w.player with pipe := .idle } := by
  refine .of_same rfl hSought ?_
  rw [hPoints]
  exact h.halt

/-- The end of the pipeline, which stops the player -/
theorem Advances.broken {a : PlaybackAction} (h : Kept w) (hBusy : w.player.pipe ≠ .idle)
    (hOver : w.player.graceUntil ≤ w.player.nowUs)
    (hOk : w.player.state = .playing → w.player.graceUntil ≤ w.player.nowUs → w.Current →
      max w.player.cbGetPositionSec 0 = w.player.startSec)
    (hSought : w.soughtBy a = [])
    (hPoints : w.pointsAfter a =
      if w.player.state = .playing ∧ w.player.graceUntil ≤ w.player.nowUs then w.reported else w.points) :
    Advances w a ({ w.player with pipe := .idle }.setState .stopped) := by
  refine .of_same rfl hSought ?_
  rw [hPoints]
  simp only [hOver, and_true]
  exact h.broken hBusy fun hState => hOk hState hOver

/-- An event of the pipeline -/
theorem Kept.pipeEvent {event : PipeEvent} (h : Kept w) (hEvent : w.player.pipeEvent event = some p)
    (hOk : w.OrderlyAction (.pipe event)) : Advances w (.pipe event) p := by
  cases event with
  | running =>
    obtain ⟨hOpening, hEq⟩ := Option.ite_none_right_eq_some.1 hEvent
    rw [← Option.some.inj hEq]
    have hBusy : w.player.pipe ≠ .idle := by simp [hOpening]
    refine .of_same ?_ rfl (h.onRunning hBusy fun sec hMem => ?_)
    · rw [Player.onRunning_eq]
    · have hPaused := (h.run hBusy).seeking.held sec hMem
      rw [hOpening] at hPaused
      contradiction
  | finished =>
    obtain ⟨-, hEq⟩ := Option.ite_none_right_eq_some.1 hEvent
    rw [← Option.some.inj hEq]
    refine .of_same ?_ rfl h.finished
    rcases Player.onFinished_eq { w.player with pipe := .idle } with ⟨hEq, -⟩ | ⟨hEq, -⟩
    · rw [hEq]
    · rw [hEq]
      rfl
  | stopped =>
    obtain ⟨hRuns, hEq⟩ := Option.ite_none_right_eq_some.1 hEvent
    rw [← Option.some.inj hEq, Player.onStopped]
    by_cases hGrace : w.player.nowUs < w.player.graceUntil
    · rw [if_pos hGrace]
      exact .unseen h rfl (if_neg fun hBoth => not_le.2 hGrace hBoth.2)
    · rw [if_neg hGrace]
      by_cases hPaused : w.player.state = .paused
      · rw [if_neg (not_not.2 hPaused)]
        exact .unseen h rfl (if_neg fun hBoth => by simp [hPaused] at hBoth)
      · rw [if_pos hPaused]
        exact .broken h (by simp [hRuns]) (not_lt.1 hGrace) hOk rfl rfl
  | error =>
    obtain ⟨hBusy, hEq⟩ := Option.ite_none_right_eq_some.1 hEvent
    rw [← Option.some.inj hEq, Player.onError]
    by_cases hGrace : w.player.nowUs < w.player.graceUntil
    · rw [if_pos hGrace]
      exact .unseen h rfl (if_neg fun hBoth => not_le.2 hGrace hBoth.2)
    · rw [if_neg hGrace]
      exact .broken h (fun hIs => by simp [hIs] at hBusy) (not_lt.1 hGrace) hOk rfl rfl

/-- RUNNING comes before the end of `_do_play`, which leaves no seek. -/
theorem Kept.hurried (h : Kept w) (hOpening : w.player.pipe = .opening) (hHanded : w.player.pendingSeekSec ≤ 0) :
    Kept { w with player := { w.player with pipe := .running } } := by
  have hBusy : w.player.pipe ≠ .idle := by simp [hOpening]
  have hRun := h.run hBusy
  have hComing : ({ w.player with pipe := .running } : Player).coming = w.player.coming := by
    rw [coming_of_handed (p := w.player) hHanded]
    exact coming_of_handed (p := { w.player with pipe := .running }) hHanded
  refine h.repiped rfl (fun hIs => absurd hIs hBusy) rfl rfl rfl rfl (fun _ => .inl) fun _ => ?_
  refine ⟨fun _ => hHanded, hRun.user, fun hPaused => ?_, ?_, .of_none (hRun.seeking.reached hOpening) fun hNot => ?_⟩
  · rw [hComing]
    exact hRun.quiet hPaused
  · rw [hComing]
    exact hRun.once
  · contradiction

/-! ## Runs -/

theorem Advances.handled {a : PlaybackAction} (h : Kept w) (hOne : w.player.soaps ≤ 1) (hSeek : a.isSeek = false)
    (hStep : w.player.step a.action = some p) (hOk : w.OrderlyAction a) : Advances w a p ∧ p.soaps ≤ 1 := by
  cases a with
  | request r luck early =>
    obtain ⟨hFree, hEq⟩ := Option.ite_none_right_eq_some.1 hStep
    rw [← Option.some.inj hEq]
    refine ⟨h.request hFree hSeek hOk, (w.player.leaves_request luck r).trans ?_⟩
    rw [Player.soaps_eq_zero hFree, zero_add, if_pos rfl]
  | wake n luck early =>
    obtain ⟨task, s, hGet, rfl⟩ := Player.step_wake hStep
    exact ⟨h.wake hOne hGet (hOk _ hGet), (Player.soaps_woken hGet).trans hOne⟩
  | pipe event => exact ⟨h.pipeEvent hStep hOk, (w.player.soaps_pipeEvent hStep).trans_le hOne⟩
  | tick us =>
    obtain rfl := Option.some.inj hStep
    exact ⟨.of_same rfl rfl (h.frame ⟨rfl, rfl, rfl, rfl, rfl, rfl, rfl, rfl⟩ (.of_sleepers rfl) fun _ => .inl), hOne⟩

theorem Kept.step {a : PlaybackAction} (h : Kept w) (hOne : w.player.soaps ≤ 1) (hStep : w.step a = some w')
    (hOk : w.Orderly a) : Kept w' ∧ w'.player.soaps ≤ 1 := by
  obtain ⟨hEarly, hAction⟩ := hOk
  obtain ⟨hSeek, hMoves⟩ := Option.ite_none_left_eq_some.1 hStep
  obtain ⟨p, hPlayer, rfl⟩ := Option.map_eq_some_iff.1 hMoves
  have hSeek' : a.isSeek = false := by simpa using hSeek
  rw [playerStep] at hPlayer
  by_cases hIs : a.early = true
  · -- RUNNING finds no seek, neither of this run nor of another.
    rw [if_pos hIs, Player.overtaken, if_neg (not_lt.2 (hEarly hIs))] at hPlayer
    obtain ⟨q, hHandled, hRuns⟩ := Option.bind_eq_some_iff.1 hPlayer
    obtain ⟨hNew, hEq⟩ := Option.ite_none_right_eq_some.1 hRuns
    rw [← Option.some.inj hEq]
    obtain ⟨hAdvances, hSoaps⟩ := Advances.handled h hOne hSeek' hHandled hAction
    exact ⟨hAdvances.kept.hurried (hAdvances.opening hNew) (hAdvances.handed hNew hIs), hSoaps⟩
  · rw [if_neg hIs] at hPlayer
    obtain ⟨hAdvances, hSoaps⟩ := Advances.handled h hOne hSeek' hPlayer hAction
    exact ⟨hAdvances.kept, hSoaps⟩

theorem kept_boot (nowUs : Int) : Kept (boot nowUs) where
  loaded hBusy := by simp [boot, Player.boot] at hBusy
  saved _ := rfl
  other _ hBusy := by simp [boot, Player.boot] at hBusy
  idle _ _ := rfl
  tasks _ hMem := by contradiction
  run hNot := absurd rfl hNot

theorem Kept.soughtOnce (h : Kept w) : w.SoughtOnce := fun hBusy => (h.run hBusy).once

/-- A track that is stopped after 20 seconds, and played again -/
def stoppedActions : List PlaybackAction :=
  [.request (.setUri (ascii "http://a/1.mp3") none) ⟨true, false⟩ false, .request .play ⟨true, false⟩ false,
    .pipe .running, .tick 20000000, .request .stop ⟨true, false⟩ false, .request .play ⟨true, false⟩ false,
    .pipe .running, .wake 0 ⟨true, false⟩ false, .wake 0 ⟨true, false⟩ false, .wake 0 ⟨true, false⟩ false]

end Playback

end EspMiplay.Dlna
