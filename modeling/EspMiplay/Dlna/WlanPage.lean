import EspMiplay.Dlna.Handover

/-!
# The WLAN page and the play button

Entering the WLAN page is to pause what plays. There is no pause for the page to call: it
posts what a press of the play button posts, a toggle, into the queue of the button task
(`_pause_playback_if_playing`), and it does so when the display says that something plays.
The display is a copy, brought up to date by the UI task, and the button task takes the
toggle when it gets to it.

The panel is the touch screen with its pages on top of `Speaker`: the mirror of the phone's
state, the copy of the display, and the queue of the play button. Who posted a toggle is a
ghost.

## Results

* `sound_step`       — which steps leave no toggle of the page to be taken while nothing plays.
* `wlan_page_along`  — the toggles of the page only pause, whenever they are taken, exactly
  along runs of such steps.
* `wlan_page_twice`  — entered twice before the display is brought up to date.
-/

namespace EspMiplay.Dlna

open Transition
open EspMiplay.Miplay (Bytes ascii peek)

inductive Screen where
  | main
  | wlan
  | softap
  | password
  | lyrics
  | standby
  deriving DecidableEq

/-- Who posted a toggle -/
inductive Asker where
  | button
  | page
  deriving DecidableEq

/-- `miplay_cmd_t` -/
inductive MiplayCmd where
  | pause
  | play
  | prev
  | next
  deriving DecidableEq

structure Panel where
  speaker : Speaker
  /-- `s_miplay_state` -/
  miplayState : PlayState
  /-- `s_miplay_session_reset_pending` -/
  resetPending : Bool
  /-- `s_miplay_cmd_queue` -/
  cmdQueue : List MiplayCmd
  /-- `s_last_ui_state`; -1 is `noMedia` -/
  lastUiState : PlayState
  screen : Screen
  /-- `s_parent_screen` -/
  parent : Option Screen
  lyricsVisible : Bool
  /-- `s_provision_return_done` -/
  returnDone : Bool
  /-- `s_btn_queue_ctrl` -/
  btnQueueCtrl : List Asker
  deriving DecidableEq

namespace Panel

variable (s : Panel)

/-! ## The pages -/

/-- `xQueueSend` of BTN_ACT_PLAY; a full queue drops it. -/
def postToggle (asker : Asker) : Panel :=
  { s with
    btnQueueCtrl := if s.btnQueueCtrl.length < 4 then s.btnQueueCtrl ++ [asker] else s.btnQueueCtrl }

/-- `_pause_playback_if_playing` -/
def pausePlaybackIfPlaying : Panel :=
  if s.lastUiState ≠ .playing then s else s.postToggle .page

/-- `_show_wlan` -/
def showWlan : Panel :=
  { s.pausePlaybackIfPlaying with parent := some .main, lyricsVisible := false, screen := .wlan }

/-- `_show_softap` -/
def showSoftap : Panel :=
  { s with parent := some .wlan, lyricsVisible := false, screen := .softap }

/-- `_show_wlan_password` -/
def showWlanPassword : Panel :=
  { s with parent := some .wlan, lyricsVisible := false, screen := .password }

/-- `_show_main_screen` -/
def showMainScreen : Panel :=
  { s with parent := none, lyricsVisible := false, screen := .main }

/-- `_show_standby_screen` -/
def showStandbyScreen : Panel :=
  if s.screen = .standby then s else { s with parent := some s.screen, screen := .standby }

/-- `_show_parent_screen` -/
def showParentScreen : Panel :=
  match s.screen with
  | .standby => { s with parent := none, screen := s.parent.getD .main }
  | .softap | .password => s.showWlan
  | .wlan | .lyrics => s.showMainScreen
  | .main => { s with screen := s.parent.getD .main }

/-- `lvgl_port_ui_toggle_lyrics` -/
def toggleLyrics : Panel :=
  if s.lyricsVisible then s.showMainScreen
  else { s with lyricsVisible := true, parent := some .main, screen := .lyrics }

/-- `_maybe_return_after_provision` -/
def maybeReturnAfterProvision (success : Bool) : Panel :=
  if !success then { s with returnDone := false }
  else if s.returnDone then s
  else if s.screen = .wlan then { s with returnDone := true }
  else if s.screen = .softap ∨ s.screen = .password then { s with returnDone := true }.showWlan
  else s

/-! ## The display -/

/-- What `ui_update_task` shows -/
def displayState : PlayState :=
  if s.speaker.connected ∧ s.miplayState ≠ .noMedia then s.miplayState else s.speaker.player.state

/-- `lvgl_port_ui_set_state` -/
def uiSetState (state : PlayState) : Panel :=
  if state = s.lastUiState then s
  else if state = .playing ∧ s.screen = .standby then
    { s with lastUiState := state }.showParentScreen
  else { s with lastUiState := state }

/-- `consume_miplay_media_events_locked`, with the states the phone has reported -/
def consumeMediaEvents (reports : List PlayState) : Panel :=
  let state := if s.resetPending then .stopped else s.miplayState
  { s with
    resetPending := false
    miplayState :=
      if s.speaker.connected then
        reports.foldl (fun state report => if report ≠ .noMedia then report else state) state
      else state }

/-! ## The phone -/

/-- `miplay_cmd_post` -/
def cmdPost (cmd : MiplayCmd) : Panel :=
  { s with cmdQueue := if s.cmdQueue.length < 8 then s.cmdQueue ++ [cmd] else s.cmdQueue }

/-- The step calls `dlna_detach_miplay_if_active`. -/
def detaches : SpeakerAction → Bool
  | .player (.soap .play _) _ | .player (.soap (.seek _) _) _ => true
  | .player (.soap (.setUri uri _) _) _ => peek uri ≠ 0 && !isVideoUri uri
  | _ => false

/-- `cb_next` or `cb_previous` is called in the step. -/
def changesTrack : SpeakerAction → Option MiplayCmd
  | .player (.soap .next _) _ => some .next
  | .player (.soap .previous _) _ => some .prev
  | .player (.track _) _ => s.speaker.player.presses.head?.map fun next => if next then .next else .prev
  | .player (.wake n _) _ =>
    match s.speaker.player.sleepers[n]? with
    | some (_, .notify generation _) =>
      if generation = s.speaker.player.generation then some .next else none
    | _ => none
  | _ => none

/-- What a step of the speaker does to the mirror. -/
def mirror (a : SpeakerAction) : Panel :=
  match a with
  | .connected _ _ _ => { s with miplayState := .stopped, resetPending := true }
  | a =>
    if !s.speaker.connected then s
    else if detaches a then { s with miplayState := .stopped }
    else
      match s.changesTrack a with
      | some cmd => { s with miplayState := .transitioning }.cmdPost cmd
      | none => s

/-! ## The play button -/

/-- `cb_play_toggle` -/
def cbPlayToggle (luck : Luck) : Panel :=
  if s.speaker.connected then
    if s.miplayState = .playing then { s with miplayState := .paused }.cmdPost .pause
    else { s with miplayState := .playing }.cmdPost .play
  else
    { s with
      speaker := { s.speaker with player := s.speaker.player.cbPlayToggle .btnCtrl luck } }

/-- The button task waits for a toggle. -/
def free : Bool := s.speaker.player.free .btnCtrl

/-- `_btn_worker_task` -/
def serve (luck : Luck) : Option Panel :=
  match s.btnQueueCtrl with
  | [] => none
  | _ :: rest =>
    if s.free then some ({ s with btnQueueCtrl := rest }.cbPlayToggle luck) else none

end Panel

inductive PanelAction where
  /-- of the speaker, the play button apart -/
  | speaker (a : SpeakerAction)
  | consume (reports : List PlayState)
  | refresh
  /-- a new cover is shown -/
  | cover
  /-- `miplay_cmd_worker` takes a command. -/
  | send
  /-- the play button is pressed -/
  | press
  | serve (luck : Luck)
  | wifiButton
  | softapCell
  | network
  /-- a back button, or the gesture -/
  | back
  /-- of the password keyboard -/
  | cancel
  | connect
  | provision (success : Bool)
  | lyrics
  | standby
  deriving DecidableEq

namespace Panel

def step (s : Panel) : PanelAction → Option Panel
  | .speaker (.player (.toggle _) _) => none
  | .speaker a => (s.speaker.step a).map fun speaker => { s.mirror a with speaker := speaker }
  | .consume reports => some (s.consumeMediaEvents reports)
  | .refresh => some (s.uiSetState s.displayState)
  | .cover => some { s with lastUiState := .noMedia }
  | .send => some { s with cmdQueue := s.cmdQueue.tail }
  | .press => some (s.postToggle .button)
  | .serve luck => s.serve luck
  | .wifiButton => some s.showWlan
  | .softapCell => if s.screen = .wlan then some s.showSoftap else none
  | .network => if s.screen = .wlan then some s.showWlanPassword else none
  | .back => some s.showParentScreen
  | .cancel | .connect => if s.screen = .password then some s.showWlan else none
  | .provision success => some (s.maybeReturnAfterProvision success)
  | .lyrics => some s.toggleLyrics
  | .standby => some s.showStandbyScreen

def boot (nowUs : Int) : Panel where
  speaker := .boot nowUs
  miplayState := .stopped
  resetPending := false
  cmdQueue := []
  lastUiState := .noMedia
  screen := .main
  parent := none
  lyricsVisible := false
  returnDone := false
  btnQueueCtrl := []

variable (s : Panel)

/-! ## What is wanted -/

/-- The state a toggle looks at -/
def current : PlayState := if s.speaker.connected then s.miplayState else s.speaker.player.state

/-- A toggle of the page is taken while the player plays, and pauses it. -/
def OnlyPauses (s : Panel) (a : PanelAction) (s' : Panel) : Prop :=
  ∀ luck, a = .serve luck → s.btnQueueCtrl.head? = some .page →
    s.current = .playing ∧ s'.current ≠ .playing

/-- The step enters the WLAN page. -/
def entersWlan : PanelAction → Bool
  | .wifiButton | .cancel | .connect => true
  | .back => s.screen = .softap || s.screen = .password
  | .provision success =>
    success && !s.returnDone && (s.screen = .softap || s.screen = .password)
  | _ => false

/-- The button task takes a toggle of the page next. -/
def Due : Prop := s.free = true ∧ s.btnQueueCtrl.head? = some .page

/-- A toggle makes the player play, at once or behind a wait. -/
def CanStart : Prop :=
  s.current ≠ .playing ∧ (s.speaker.connected = true ∨ s.speaker.player.state = .paused ∨
    s.speaker.player.trackUri.isSome = true)

/-- The display is true of the player where the page posts the next toggle; a toggle in front
of one of the page starts the player; and nobody else ends the playing while one is due. -/
def Careful (s : Panel) (a : PanelAction) (s' : Panel) : Prop :=
  match a with
  | .serve _ => s.btnQueueCtrl[1]? = some .page → s.CanStart
  | .speaker _ | .consume _ => s'.Due → s'.current = .playing
  | a => s.entersWlan a = true → s.lastUiState = .playing → s.btnQueueCtrl = [] → s.free = true →
      s.current = .playing

variable {s s' : Panel} {luck : Luck}

/-! ## The pages -/

theorem showWlan_toggles :
    s.showWlan.btnQueueCtrl =
      if s.lastUiState = .playing then (s.postToggle .page).btnQueueCtrl else s.btnQueueCtrl := by
  by_cases h : s.lastUiState = .playing
  · simp [showWlan, pausePlaybackIfPlaying, h]
  · simp [showWlan, pausePlaybackIfPlaying, h]

theorem showWlan_current : s.showWlan.speaker = s.speaker ∧
    s.showWlan.miplayState = s.miplayState := by
  by_cases h : s.lastUiState = .playing <;> simp [showWlan, pausePlaybackIfPlaying, postToggle, h]

/-- The queue of the play button behind a step on the screen -/
def queueAfter (s : Panel) (a : PanelAction) : List Asker :=
  if a = .press then (s.postToggle .button).btnQueueCtrl
  else if s.entersWlan a = true ∧ s.lastUiState = .playing then (s.postToggle .page).btnQueueCtrl
  else s.btnQueueCtrl

/-- The panel apart from what is on the screen. -/
theorem step_screen {a : PanelAction} (hStep : s.step a = some s') (hSpeaker : ∀ b, a ≠ .speaker b)
    (hConsume : ∀ reports, a ≠ .consume reports) (hServe : ∀ luck, a ≠ .serve luck) :
    s'.speaker = s.speaker ∧ s'.miplayState = s.miplayState ∧ s'.btnQueueCtrl = s.queueAfter a := by
  have hWlan := showWlan_toggles (s := s)
  have hSame := showWlan_current (s := s)
  cases a with
  | speaker b => exact absurd rfl (hSpeaker b)
  | consume reports => exact absurd rfl (hConsume reports)
  | serve luck => exact absurd rfl (hServe luck)
  | refresh =>
    obtain rfl := Option.some.inj hStep
    unfold uiSetState
    split_ifs with hOld hStandby
    · exact ⟨rfl, rfl, rfl⟩
    · simp [showParentScreen, hStandby.2, queueAfter, entersWlan]
    · exact ⟨rfl, rfl, rfl⟩
  | cover | send | press =>
    obtain rfl := Option.some.inj hStep
    exact ⟨rfl, rfl, rfl⟩
  | wifiButton =>
    obtain rfl := Option.some.inj hStep
    exact ⟨hSame.1, hSame.2, by simpa [queueAfter, entersWlan] using hWlan⟩
  | softapCell | network =>
    simp only [step] at hStep
    split at hStep
    · obtain rfl := Option.some.inj hStep
      exact ⟨rfl, rfl, rfl⟩
    · cases hStep
  | back =>
    obtain rfl := Option.some.inj hStep
    cases hScreen : s.screen with
    | softap | password =>
      simp only [showParentScreen, hScreen]
      exact ⟨hSame.1, hSame.2, by simpa [queueAfter, entersWlan, hScreen] using hWlan⟩
    | _ =>
      simp [showParentScreen, showMainScreen, hScreen, queueAfter, entersWlan]
  | cancel | connect =>
    simp only [step] at hStep
    split at hStep
    · obtain rfl := Option.some.inj hStep
      exact ⟨hSame.1, hSame.2, by simpa [queueAfter, entersWlan] using hWlan⟩
    · cases hStep
  | provision success =>
    obtain rfl := Option.some.inj hStep
    unfold maybeReturnAfterProvision
    by_cases hDone : success = true ∧ s.returnDone = false
    · obtain ⟨rfl, hDone⟩ := hDone
      by_cases hAway : s.screen = .softap ∨ s.screen = .password
      · have hNot : s.screen ≠ .wlan := by
          rcases hAway with h | h <;> simp [h]
        have hThere := showWlan_toggles (s := { s with returnDone := true })
        have hKept := showWlan_current (s := { s with returnDone := true })
        simp only [hDone, hNot, hAway, Bool.not_true, Bool.false_eq_true, if_false, if_true]
        refine ⟨hKept.1, hKept.2, hThere.trans ?_⟩
        simp [queueAfter, entersWlan, hDone, hAway, postToggle]
      · have hStays : s.entersWlan (.provision true) = false := by
          simpa [entersWlan, hDone] using hAway
        simp only [hDone, hAway, Bool.not_true, Bool.false_eq_true, if_false]
        split <;> simp [queueAfter, hStays]
    · have hStays : s.entersWlan (.provision success) = false := by
        simp only [entersWlan, Bool.and_eq_false_iff, Bool.not_eq_false']
        simp only [not_and, Bool.not_eq_false] at hDone
        cases success with
        | false => exact .inl (.inl rfl)
        | true => exact .inl (.inr (hDone rfl))
      cases success with
      | false => simp [queueAfter, hStays]
      | true =>
        have hBefore : s.returnDone = true := by simpa using hDone
        simp [queueAfter, hStays, hBefore]
  | lyrics =>
    obtain rfl := Option.some.inj hStep
    unfold toggleLyrics
    split_ifs
    · exact ⟨rfl, rfl, rfl⟩
    · exact ⟨rfl, rfl, rfl⟩
  | standby =>
    obtain rfl := Option.some.inj hStep
    unfold showStandbyScreen
    split_ifs
    · exact ⟨rfl, rfl, rfl⟩
    · exact ⟨rfl, rfl, rfl⟩

/-! ## A toggle -/

variable {p : Player}

/-- A toggle pauses what plays, and the button task is done with it. -/
theorem toggle_pauses (luck : Luck) (hState : p.state = .playing) :
    (p.cbPlayToggle .btnCtrl luck).state = .paused ∧
      (p.cbPlayToggle .btnCtrl luck).free .btnCtrl = p.free .btnCtrl := by
  rw [Player.cbPlayToggle, if_pos hState, Player.cbPause_of_playing hState]
  refine ⟨rfl, ?_⟩
  obtain ⟨state, hPause, -⟩ := p.saved.pipePause_eq
  have hSaved : p.saved.sleepers = p.sleepers := by
    unfold Player.saved Player.freeze
    dsimp only
    split_ifs <;> rfl
  rw [Player.free, Player.free, hPause]
  exact congrArg (List.all · fun x => decide (x.1 ≠ .btnCtrl)) hSaved

/-- A toggle starts the track, unless the button task has to wait first. -/
theorem toggle_starts (hState : p.state ≠ .playing)
    (hTrack : p.state = .paused ∨ p.trackUri.isSome = true)
    (hFree : (p.cbPlayToggle .btnCtrl luck).free .btnCtrl = true) :
    (p.cbPlayToggle .btnCtrl luck).state = .playing := by
  rw [Player.cbPlayToggle, if_neg hState] at hFree ⊢
  rcases p.cbPlay_cases luck .btnCtrl with ⟨hPlaying, -⟩ | ⟨paused, -, hEq⟩ | ⟨-, hEq⟩ |
    ⟨-, -, hSome, hEq⟩ | ⟨-, hPaused, hNone, -⟩
  · exact absurd hPlaying hState
  · rw [hEq, Speaker.free_sleep] at hFree
    cases hFree
  · rw [hEq]
    rfl
  · obtain ⟨uri, hUri⟩ := Option.isSome_iff_exists.1 hSome
    rw [hEq, hUri] at hFree ⊢
    simp only [Player.doPlay] at hFree ⊢
    split_ifs at hFree ⊢
    · rfl
    · rw [Speaker.free_sleep] at hFree
      cases hFree
  · rcases hTrack with h | h
    · exact absurd h hPaused
    · rw [hNone] at h
      cases h

/-- Without a track a toggle does nothing. -/
theorem toggle_nothing (luck : Luck) (hState : p.state ≠ .playing) (hPaused : p.state ≠ .paused)
    (hTrack : p.trackUri.isSome = false) :
    (p.cbPlayToggle .btnCtrl luck).state = p.state ∧
      (p.cbPlayToggle .btnCtrl luck).free .btnCtrl = p.free .btnCtrl := by
  have hNone : p.trackUri = none := by simpa using hTrack
  rw [Player.cbPlayToggle, if_neg hState, Player.cbPlay_of_nothing hState hPaused hNone]
  exact ⟨rfl, rfl⟩

theorem cbPlayToggle_of_connected (luck : Luck) (hConn : s.speaker.connected = true) :
    (s.cbPlayToggle luck).btnQueueCtrl = s.btnQueueCtrl ∧
      (s.cbPlayToggle luck).speaker = s.speaker ∧
      ((s.cbPlayToggle luck).current = .playing ↔ s.current ≠ .playing) := by
  by_cases h : s.miplayState = .playing <;> simp [cbPlayToggle, cmdPost, current, hConn, h]

theorem cbPlayToggle_of_not_connected (hConn : s.speaker.connected = false) :
    s.cbPlayToggle luck = { s with
      speaker := { s.speaker with player := s.speaker.player.cbPlayToggle .btnCtrl luck } } := by
  simp [cbPlayToggle, hConn]

theorem cbPlayToggle_queue : (s.cbPlayToggle luck).btnQueueCtrl = s.btnQueueCtrl := by
  cases hConn : s.speaker.connected with
  | true => exact (cbPlayToggle_of_connected luck hConn).1
  | false => rw [cbPlayToggle_of_not_connected hConn]

/-- A toggle of what plays pauses it. -/
theorem cbPlayToggle_pauses (luck : Luck) (hPlays : s.current = .playing) :
    (s.cbPlayToggle luck).current ≠ .playing ∧ (s.cbPlayToggle luck).free = s.free := by
  cases hConn : s.speaker.connected with
  | true =>
    obtain ⟨-, hSpeaker, hCurrent⟩ := cbPlayToggle_of_connected luck hConn
    exact ⟨fun h => hCurrent.1 h hPlays, by rw [free, free, hSpeaker]⟩
  | false =>
    have hState : s.speaker.player.state = .playing := by simpa [current, hConn] using hPlays
    obtain ⟨hPaused, hFree⟩ := toggle_pauses luck hState
    rw [cbPlayToggle_of_not_connected hConn]
    exact ⟨by simp [current, hConn, hPaused], hFree⟩

/-- A toggle starts what can be started, unless the button task has to wait first. -/
theorem cbPlayToggle_starts (hStart : s.CanStart) (hFree : (s.cbPlayToggle luck).free = true) :
    (s.cbPlayToggle luck).current = .playing := by
  obtain ⟨hNot, hCan⟩ := hStart
  cases hConn : s.speaker.connected with
  | true => exact (cbPlayToggle_of_connected luck hConn).2.2.2 hNot
  | false =>
    have hState : s.speaker.player.state ≠ .playing := by simpa [current, hConn] using hNot
    rw [cbPlayToggle_of_not_connected hConn] at hFree ⊢
    have hPlays := toggle_starts hState (by simpa [hConn] using hCan) hFree
    simpa [current, hConn] using hPlays

/-- A toggle of what cannot be started does nothing. -/
theorem cbPlayToggle_nothing (luck : Luck) (hNot : s.current ≠ .playing) (hStart : ¬s.CanStart) :
    (s.cbPlayToggle luck).current ≠ .playing ∧ (s.cbPlayToggle luck).free = s.free := by
  have hCannot := fun h => hStart ⟨hNot, h⟩
  cases hConn : s.speaker.connected with
  | true => exact absurd (.inl hConn) hCannot
  | false =>
    have hState : s.speaker.player.state ≠ .playing := by simpa [current, hConn] using hNot
    have hTrack : s.speaker.player.trackUri.isSome = false := by
      by_contra h
      exact hCannot (.inr (.inr (Bool.not_eq_false _ ▸ h)))
    obtain ⟨hSame, hFree⟩ :=
      toggle_nothing luck hState (fun h => hCannot (.inr (.inl h))) hTrack
    rw [cbPlayToggle_of_not_connected hConn]
    exact ⟨by simpa [current, hConn, hSame] using hState, hFree⟩

/-! ## Every moment -/

/-- No toggle of the page is due unless the player plays. -/
def Sound (s : Panel) : Prop := s.Due → s.current = .playing

/-- The toggle in front is off the queue. -/
theorem step_serve (hStep : s.step (.serve luck) = some s') :
    ∃ asker rest, s.btnQueueCtrl = asker :: rest ∧ s.free = true ∧
      s' = { s with btnQueueCtrl := rest }.cbPlayToggle luck := by
  have hServe : s.serve luck = some s' := hStep
  unfold serve at hServe
  cases hQueue : s.btnQueueCtrl with
  | nil =>
    rw [hQueue] at hServe
    cases hServe
  | cons asker rest =>
    rw [hQueue] at hServe
    obtain ⟨hFree, hEq⟩ := Option.ite_none_right_eq_some.1 hServe
    exact ⟨asker, rest, rfl, hFree, (Option.some.inj hEq).symm⟩

theorem onlyPauses_serve (hSound : s.Sound) (hStep : s.step (.serve luck) = some s') :
    s.OnlyPauses (.serve luck) s' := by
  obtain ⟨asker, rest, hQueue, hFree, rfl⟩ := step_serve hStep
  rintro - - hPage
  have hPlays := hSound ⟨hFree, hPage⟩
  exact ⟨hPlays, (cbPlayToggle_pauses (s := { s with btnQueueCtrl := rest }) luck hPlays).1⟩

theorem sound_serve (hStep : s.step (.serve luck) = some s') :
    s'.Sound ↔ s.Careful (.serve luck) s' := by
  obtain ⟨asker, rest, hQueue, hFree, rfl⟩ := step_serve hStep
  have hNext : s.btnQueueCtrl[1]? = rest.head? := by
    rw [hQueue, List.head?_eq_getElem?]
    rfl
  have hRest : (cbPlayToggle { s with btnQueueCtrl := rest } luck).btnQueueCtrl = rest :=
    cbPlayToggle_queue
  simp only [Careful, hNext]
  constructor
  · intro hSound hPage
    by_contra hStart
    by_cases hPlays : s.current = .playing
    · obtain ⟨hPaused, hStill⟩ := cbPlayToggle_pauses luck (s := { s with btnQueueCtrl := rest })
        hPlays
      exact hPaused (hSound ⟨hStill.trans hFree, by rw [hRest, hPage]⟩)
    · obtain ⟨hIdle, hStill⟩ := cbPlayToggle_nothing luck (s := { s with btnQueueCtrl := rest })
        hPlays hStart
      exact hIdle (hSound ⟨hStill.trans hFree, by rw [hRest, hPage]⟩)
  · rintro hStart ⟨hStill, hPage⟩
    rw [hRest] at hPage
    exact cbPlayToggle_starts (s := { s with btnQueueCtrl := rest }) (hStart hPage) hStill

/-- What is posted gets to the front of an empty queue only. -/
theorem postToggle_head (asker : Asker) :
    (s.postToggle asker).btnQueueCtrl.head? =
      if s.btnQueueCtrl = [] then some asker else s.btnQueueCtrl.head? := by
  cases h : s.btnQueueCtrl with
  | nil => simp [postToggle, h]
  | cons x rest => by_cases hRoom : rest.length + 1 < 4 <;> simp [postToggle, h, hRoom]

theorem sound_screen {a : PanelAction} (hSound : s.Sound) (hStep : s.step a = some s')
    (hSpeaker : ∀ b, a ≠ .speaker b) (hConsume : ∀ reports, a ≠ .consume reports)
    (hServe : ∀ luck, a ≠ .serve luck) :
    s'.Sound ↔ (s.entersWlan a = true → s.lastUiState = .playing → s.btnQueueCtrl = [] →
      s.free = true → s.current = .playing) := by
  obtain ⟨hSame, hMirror, hQueue⟩ := step_screen hStep hSpeaker hConsume hServe
  have hFree : s'.free = s.free := by rw [free, free, hSame]
  have hCurrent : s'.current = s.current := by rw [current, current, hSame, hMirror]
  have hStays (h : s'.btnQueueCtrl.head? = s.btnQueueCtrl.head?) : s'.Sound := by
    rintro ⟨hFree', hPage⟩
    exact hCurrent.trans (hSound ⟨hFree ▸ hFree', h ▸ hPage⟩)
  rw [queueAfter] at hQueue
  by_cases hPress : a = .press
  · rw [if_pos hPress] at hQueue
    refine iff_of_true ?_ (fun hEnters => absurd hEnters (by simp [hPress, entersWlan]))
    by_cases hEmpty : s.btnQueueCtrl = []
    · rintro ⟨-, hPage⟩
      rw [hQueue, postToggle_head, if_pos hEmpty] at hPage
      cases hPage
    · exact hStays (by rw [hQueue, postToggle_head, if_neg hEmpty])
  · rw [if_neg hPress] at hQueue
    by_cases hEnters : s.entersWlan a = true ∧ s.lastUiState = .playing
    · rw [if_pos hEnters] at hQueue
      by_cases hEmpty : s.btnQueueCtrl = []
      · have hPage : s'.btnQueueCtrl.head? = some .page := by
          rw [hQueue, postToggle_head, if_pos hEmpty]
        simp [Sound, Due, hFree, hCurrent, hPage, hEnters, hEmpty]
      · refine iff_of_true (hStays (by rw [hQueue, postToggle_head, if_neg hEmpty])) ?_
        exact fun _ _ h => absurd h hEmpty
    · rw [if_neg hEnters] at hQueue
      exact iff_of_true (hStays (by rw [hQueue])) fun h h' => absurd ⟨h, h'⟩ hEnters

theorem sound_step {a : PanelAction} (hSound : s.Sound) (hStep : s.step a = some s') :
    s'.Sound ↔ s.Careful a s' := by
  cases a with
  | serve luck => exact sound_serve hStep
  | speaker b | consume reports => exact Iff.rfl
  | _ =>
    exact sound_screen hSound hStep (fun _ h => by cases h) (fun _ h => by cases h) fun _ h => by
      cases h

/-! ## Runs -/

/-- **The WLAN page.** However late the button task is, the toggles of the page only pause,
exactly along runs of `Careful` steps. -/
theorem wlan_page_along (nowUs : Int) (as : List PanelAction) :
    (∀ bs luck, bs <+: as → Along step OnlyPauses (boot nowUs) (bs ++ [.serve luck])) ↔
      Along step Careful (boot nowUs) as := by
  have hQ : ∀ s a s', Sound s → step s a = some s' → OnlyPauses s a s' := by
    intro s a s' hSound hStep luck hServe
    subst hServe
    exact onlyPauses_serve hSound hStep luck rfl
  have hProbe : ∀ s, (∀ luck s', step s (.serve luck) = some s' → OnlyPauses s (.serve luck) s') →
      Sound s := by
    rintro s hAll ⟨hFree, hPage⟩
    obtain ⟨rest, hQueue⟩ : ∃ rest, s.btnQueueCtrl = .page :: rest :=
      List.head?_eq_some_iff.1 hPage
    have hStep : s.step (.serve ⟨true, true⟩) =
        some ({ s with btnQueueCtrl := rest }.cbPlayToggle ⟨true, true⟩) := by
      simp [step, serve, hQueue, hFree]
    exact (hAll _ _ hStep _ rfl hPage).1
  exact along_iff_probed hQ hProbe (fun s a s' => sound_step) fun hDue => absurd hDue.2 (by simp [boot])

/-- A track plays and is on the display; the page is left and entered again before the next
refresh. -/
def wlanTwice : List PanelAction :=
  [.speaker (.player (.soap (.setUri (ascii "http://a/1.mp3") none) ⟨true, false⟩) false),
    .speaker (.player (.soap .play ⟨true, false⟩) false), .refresh, .wifiButton, .back, .wifiButton,
    .serve ⟨true, false⟩]

/-- The second toggle resumes. -/
theorem wlan_page_twice :
    ¬∀ (nowUs : Int) (as : List PanelAction), Along step OnlyPauses (boot nowUs) as := by
  intro hAll
  have hTest : (run step (boot 1) wlanTwice).any (fun t =>
      (step t (.serve ⟨true, false⟩)).any fun _ =>
        decide (t.btnQueueCtrl.head? = some .page) && decide (t.current ≠ .playing)) = true := by
    decide +kernel
  obtain ⟨t, u, hRun, hStep, hFound⟩ := exists_last_of_any hTest
  obtain ⟨hPage, hIdle⟩ : t.btnQueueCtrl.head? = some .page ∧ t.current ≠ .playing := by
    simpa using hFound
  exact hIdle ((hAll 1 (wlanTwice ++ [.serve ⟨true, false⟩])).last hRun hStep _ rfl hPage).1

end Panel

end EspMiplay.Dlna
