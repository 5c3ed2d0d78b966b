import EspMiplay.Dlna.WlanPage

/-!
# The standby screen

Standby is a clock in front of the page that was open. `s_parent_screen` keeps that page, and
whatever wakes the display (a touch, a click, the remote control, the player) calls
`_show_parent_screen` to get back to it. The same function and the same pointer are the back
navigation of the pages.

A touch reaches the code by two ways: `_gesture_timer_cb` looks at the snapshot of the touch
controller, and LVGL delivers CLICKED to the object it has seen pressed, wherever the display
is by then. The display here is `Panel` with the two ways on top of it. The page standby was
entered from, and what belongs to a touch that woke the display, are ghosts.

## Results

* `echo_iff`         — what a later event of a waking touch leaves alone.
* `transparent_iff`  — standby is transparent exactly along the runs in which no later event of
  a waking touch navigates.
* `lyrics_closed`    — a touch that wakes the display from the lyrics closes them.
-/

namespace EspMiplay.Dlna

open Transition

/-- The objects whose callbacks change the screen, and the others -/
inductive Target where
  | standbyScr
  | lyricsScr
  /-- `s_cover_container` -/
  | cover
  | wifiBtn
  | softapCell
  /-- one of the four back buttons -/
  | backBtn
  /-- of a network that wants a password -/
  | networkCell
  | keyboardCancel
  | keyboardReady
  | other
  deriving DecidableEq

/-- `GESTURE_MODE_*` -/
inductive GestureMode where
  | none
  | statusOpen
  | statusClose
  | back
  deriving DecidableEq

/-- `s_gesture` -/
structure Gesture where
  active : Bool
  mode : GestureMode
  startX : Int
  startY : Int
  lastX : Int
  lastY : Int
  deriving DecidableEq

/-- What `lvgl_port_touch_get_snapshot` returns -/
structure Snapshot where
  pressed : Bool
  x : Int
  y : Int
  deriving DecidableEq

structure Display where
  panel : Panel
  /-- `s_status_visible` -/
  statusVisible : Bool
  /-- `s_last_touch_tick` -/
  lastTouchTick : UInt32
  /-- `s_playing_state` -/
  playing : Bool
  gesture : Gesture
  /-- The object LVGL has seen pressed, and whether the touch is one that wakes the display -/
  held : Option (Target × Bool)
  /-- The screen standby was entered from -/
  entered : Screen
  /-- The touch in the snapshots has woken the display. -/
  woken : Bool
  deriving DecidableEq

namespace Gesture

variable (g : Gesture)

def dx : Int := g.lastX - g.startX

def dy : Int := g.lastY - g.startY

/-- The quotient is a `float`, held against 1.732f; on the coordinates of the controller (12
bits) it is the fraction that decides. -/
def vertical : Bool :=
  35 ≤ g.dy.natAbs && (g.dx = 0 || 433 * g.dx.natAbs ≤ 250 * g.dy.natAbs)

end Gesture

namespace Display

variable (s : Display)

/-! ## The pages -/

/-- `_show_wlan` -/
def showWlan : Display := { s with panel := s.panel.showWlan, statusVisible := false }

/-- `_show_softap` -/
def showSoftap : Display := { s with panel := s.panel.showSoftap, statusVisible := false }

/-- `_show_wlan_password` -/
def showWlanPassword : Display :=
  { s with panel := s.panel.showWlanPassword, statusVisible := false }

/-- `_show_main_screen` -/
def showMainScreen : Display := { s with panel := s.panel.showMainScreen, statusVisible := false }

/-- `_show_standby_screen` -/
def showStandbyScreen : Display :=
  if s.panel.screen = .standby then s
  else
    { s with
      panel := s.panel.showStandbyScreen
      statusVisible := false
      entered := s.panel.screen }

/-- `_show_parent_screen` -/
def showParentScreen : Display :=
  match s.panel.screen with
  | .standby | .main => { s with panel := s.panel.showParentScreen }
  | .softap | .password => s.showWlan
  | .wlan | .lyrics => s.showMainScreen

/-- `lvgl_port_ui_toggle_lyrics` -/
def toggleLyrics : Display := { s with panel := s.panel.toggleLyrics, statusVisible := false }

/-- `_maybe_return_after_provision`; the status panel is closed with the page. -/
def maybeReturnAfterProvision (success : Bool) : Display :=
  let panel := s.panel.maybeReturnAfterProvision success
  if panel.screen = s.panel.screen then { s with panel := panel }
  else { s with panel := panel, statusVisible := false }

/-- `lvgl_port_ui_set_state` -/
def uiSetState (state : PlayState) (now : UInt32) : Display :=
  if state = s.panel.lastUiState then s
  else
    { s with
      panel := s.panel.uiSetState state
      playing := state = .playing
      lastTouchTick := now }

/-! ## The timers -/

/-- STANDBY_IDLE_MS have passed without a touch, and nothing plays. -/
def idle (now : UInt32) : Bool :=
  s.panel.screen ≠ .standby && !s.playing && s.lastTouchTick ≠ 0 && 120000 < now - s.lastTouchTick

/-- The first part of `_gesture_timer_cb` -/
def touchOrIdle (t : Snapshot) (now : UInt32) : Display :=
  if t.pressed then { s with lastTouchTick := now }
  else if s.idle now then s.showStandbyScreen
  else s

/-- The second part: any touch wakes the display. -/
def wakeOnTouch (t : Snapshot) : Display :=
  if t.pressed ∧ s.panel.screen = .standby then
    { s.showParentScreen with woken := true, held := s.held.map fun h => (h.1, true) }
  else s

/-- The gesture a touch begins -/
def beginGesture (t : Snapshot) : Gesture :=
  let g : Gesture := ⟨false, .none, t.x, t.y, t.x, t.y⟩
  if !s.statusVisible ∧ t.y < 25 ∧ s.panel.screen ≠ .wlan ∧ s.panel.screen ≠ .softap ∧
      s.panel.screen ≠ .password ∧ s.panel.screen ≠ .standby then
    { g with active := true, mode := .statusOpen }
  else if s.statusVisible ∧ 335 ≤ t.y then { g with active := true, mode := .statusClose }
  else if !s.statusVisible ∧ s.panel.screen ≠ .main ∧ s.panel.screen ≠ .standby ∧ 335 ≤ t.y then
    { g with active := true, mode := .back }
  else g

/-- The release of the touch ends its gesture. -/
def endGesture : Display :=
  let g := s.gesture
  let ended : Display := { s with gesture := { g with active := false, mode := .none } }
  match g.mode with
  | .statusOpen => { ended with statusVisible := g.vertical && 35 ≤ g.dy && 72 ≤ g.lastY }
  | .statusClose => { ended with statusVisible := !(g.vertical && g.dy ≤ -35 && g.lastY ≤ 288) }
  | .back => if g.vertical ∧ g.dy ≤ -35 then ended.showParentScreen else ended
  | .none => ended

/-- The third part of `_gesture_timer_cb` -/
def followGesture (t : Snapshot) : Display :=
  if t.pressed then
    if s.gesture.active then { s with gesture := { s.gesture with lastX := t.x, lastY := t.y } }
    else { s with gesture := s.beginGesture t }
  else if s.gesture.active then s.endGesture
  else s

/-- `_gesture_timer_cb` -/
def gestureTimer (t : Snapshot) (now : UInt32) : Display :=
  let s := ((s.touchOrIdle t now).wakeOnTouch t).followGesture t
  { s with woken := s.woken && t.pressed }

/-- `_wifi_status_timer_cb` -/
def wifiStatusTimer (success : Bool) (now : UInt32) : Display :=
  let s := s.maybeReturnAfterProvision success
  if s.idle now then s.showStandbyScreen else s

/-! ## The objects -/

/-- The object can be pressed. -/
def shows : Target → Bool
  | .standbyScr => s.panel.screen = .standby
  | .lyricsScr => s.panel.screen = .lyrics
  | .cover => s.panel.screen = .main
  | .softapCell | .networkCell => s.panel.screen = .wlan
  | .backBtn => s.panel.screen = .wlan || s.panel.screen = .softap || s.panel.screen = .password
  | .keyboardCancel | .keyboardReady => s.panel.screen = .password
  | .wifiBtn | .other => true

/-- The callbacks: `_standby_scr_click_cb`, `_cover_click_cb`, `_system_button_event_cb`,
`_wlan_network_cell_event_cb` and `_wlan_password_event_cb` -/
def clicked : Target → Display
  | .standbyScr | .backBtn => s.showParentScreen
  | .lyricsScr | .cover => s.toggleLyrics
  | .wifiBtn | .keyboardCancel | .keyboardReady => s.showWlan
  | .softapCell => s.showSoftap
  | .networkCell => s.showWlanPassword
  | .other => s

end Display

inductive DisplayAction where
  /-- `_gesture_timer_cb` -/
  | gestures (t : Snapshot) (now : UInt32)
  /-- `_wifi_status_timer_cb` -/
  | status (success : Bool) (now : UInt32)
  /-- LVGL sees an object pressed. -/
  | press (target : Target)
  /-- LVGL sees the touch released; CLICKED is delivered, or not (after a slide). -/
  | release (click : Bool)
  /-- a key of the remote control -/
  | resetIdle (now : UInt32)
  /-- its power key, on a page -/
  | enterStandby
  /-- its power key, in standby -/
  | exitStandby
  | lyrics
  | setState (state : PlayState) (now : UInt32)
  /-- a new cover is shown -/
  | cover
  deriving DecidableEq

namespace Display

def step (s : Display) : DisplayAction → Option Display
  | .gestures t now => some (s.gestureTimer t now)
  | .status success now => some (s.wifiStatusTimer success now)
  | .press target =>
    if s.held = none ∧ s.shows target then
      some { s with held := some (target, s.woken || target = .standbyScr) }
    else none
  | .release click =>
    s.held.map fun h =>
      if click then { s with held := none }.clicked h.1 else { s with held := none }
  | .resetIdle now => some { s with lastTouchTick := now }
  | .enterStandby => some s.showStandbyScreen
  | .exitStandby => some (if s.panel.screen = .standby then s.showParentScreen else s)
  | .lyrics => some s.toggleLyrics
  | .setState state now => some (s.uiSetState state now)
  | .cover => some { s with panel := { s.panel with lastUiState := .noMedia } }

def boot (nowUs : Int) (now : UInt32) : Display where
  panel := .boot nowUs
  statusVisible := false
  lastTouchTick := now
  playing := false
  gesture := ⟨false, .none, 0, 0, 0, 0⟩
  held := none
  entered := .main
  woken := false

variable (s : Display)

/-! ## What is wanted -/

/-- The event wakes the display, in standby. -/
def wakesUp : DisplayAction → Bool
  | .gestures t _ => t.pressed
  | .release click => click && s.held.any fun h => h.1 = .standbyScr || h.1 = .backBtn
  | .exitStandby => true
  | .setState state _ => state = .playing && state ≠ s.panel.lastUiState
  | _ => false

/-- The event belongs to a touch that wakes the display. -/
def echoes : DisplayAction → Bool
  | .gestures t now => s.woken && (t.pressed || !s.idle now)
  | .release click => click && s.held.any fun h => h.2
  | _ => false

/-- The lyrics are on the screen, or standby will restore them. -/
def LyricsShown : Prop :=
  s.panel.screen = .lyrics ∨ s.panel.screen = .standby ∧ s.panel.parent.getD .main = .lyrics

/-- What wakes the display restores the screen standby was entered from, the other events of the
same touch leave it there, and `s_lyrics_visible` says where the lyrics are. -/
structure Transparent (s : Display) (a : DisplayAction) (s' : Display) : Prop where
  wake : s.panel.screen = .standby → s.wakesUp a = true → s'.panel.screen = s.entered
  echo : s.panel.screen ≠ .standby → s.echoes a = true → s'.panel.screen = s.panel.screen
  lyrics : s'.panel.lyricsVisible = true ↔ s'.LyricsShown

/-- The callback of the object leads to the screen that is there. -/
def leadsTo : Target → Screen → Bool
  | .standbyScr, screen | .backBtn, screen => screen = .main
  | .lyricsScr, _ | .cover, _ => false
  | .wifiBtn, screen | .keyboardCancel, screen | .keyboardReady, screen => screen = .wlan
  | .softapCell, screen => screen = .softap
  | .networkCell, screen => screen = .password
  | .other, _ => true

/-- The release is that of a swipe back. -/
def swipesBack (t : Snapshot) : Bool :=
  !t.pressed && s.gesture.active && s.gesture.mode = .back && s.gesture.vertical &&
    s.gesture.dy ≤ -35

/-- On a page, neither the click nor the gesture of a touch that woke the display navigates. -/
def OneWake (s : Display) (a : DisplayAction) : Prop :=
  s.panel.screen ≠ .standby → s.echoes a = true →
    match a with
    | .gestures t _ => s.swipesBack t = true → s.panel.screen = .main
    | .release _ => ∀ h ∈ s.held, leadsTo h.1 s.panel.screen = true
    | _ => True

variable {s} {s' : Display} {t : Snapshot} {now : UInt32}

/-! ## The invariant -/

/-- Standby keeps the screen it was entered from, and the main screen has no parent. -/
structure Inv (s : Display) : Prop where
  lyrics : s.panel.lyricsVisible = true ↔ s.LyricsShown
  main : s.panel.screen = .main → s.panel.parent = none
  standby : s.panel.screen = .standby → s.panel.parent = some s.entered
  entered : s.entered ≠ .standby

/-- A page other than the lyrics -/
theorem Inv.page (hPage : s.panel.screen ≠ .lyrics ∧ s.panel.screen ≠ .standby)
    (hLyrics : s.panel.lyricsVisible = false)
    (hMain : s.panel.screen = .main → s.panel.parent = none) (hEntered : s.entered ≠ .standby) :
    s.Inv where
  lyrics := by simp [LyricsShown, hPage, hLyrics]
  main := hMain
  standby h := absurd h hPage.2
  entered := hEntered

/-- What neither the page nor the ghost knows of is no matter. -/
theorem Inv.keep {s' : Display} (h : s.Inv) (hPanel : s'.panel = s.panel)
    (hEntered : s'.entered = s.entered) : s'.Inv := by
  refine ⟨?_, ?_, ?_, ?_⟩
  · rw [LyricsShown, hPanel]
    exact h.lyrics
  · rw [hPanel]
    exact h.main
  · rw [hPanel, hEntered]
    exact h.standby
  · rw [hEntered]
    exact h.entered

section Pages

@[simp]
theorem showWlan_screen (p : Panel) : p.showWlan.screen = .wlan := rfl

@[simp]
theorem showWlan_parent (p : Panel) : p.showWlan.parent = some .main := rfl

@[simp]
theorem showWlan_lyrics (p : Panel) : p.showWlan.lyricsVisible = false := rfl

theorem Inv.showWlan (h : s.Inv) : s.showWlan.Inv := by
  refine .page ?_ rfl ?_ h.entered <;> simp [Display.showWlan]

theorem Inv.showSoftap (h : s.Inv) : s.showSoftap.Inv := by
  refine .page ?_ rfl ?_ h.entered <;> simp [Display.showSoftap, Panel.showSoftap]

theorem Inv.showWlanPassword (h : s.Inv) : s.showWlanPassword.Inv := by
  refine .page ?_ rfl ?_ h.entered <;> simp [Display.showWlanPassword, Panel.showWlanPassword]

theorem Inv.showMainScreen (h : s.Inv) : s.showMainScreen.Inv := by
  refine .page ?_ rfl ?_ h.entered <;> simp [Display.showMainScreen, Panel.showMainScreen]

/-- Standby is entered: the flag of the lyrics stays, and so does what it stands for. -/
theorem Inv.showStandbyScreen (h : s.Inv) : s.showStandbyScreen.Inv := by
  rw [Display.showStandbyScreen]
  split_ifs with hThere
  · exact h
  · have hPanel : s.panel.showStandbyScreen =
        { s.panel with parent := some s.panel.screen, screen := .standby } := if_neg hThere
    refine ⟨?_, ?_, ?_, hThere⟩
    · rw [hPanel]
      refine h.lyrics.trans ?_
      simp [LyricsShown, hThere]
    · intro hMain
      rw [hPanel] at hMain
      cases hMain
    · intro _
      rw [hPanel]

theorem panel_showParentScreen : s.showParentScreen.panel = s.panel.showParentScreen := by
  rw [showParentScreen, Panel.showParentScreen]
  cases s.panel.screen <;> rfl

theorem entered_showParentScreen : s.showParentScreen.entered = s.entered := by
  rw [showParentScreen]
  cases s.panel.screen <;> rfl

/-- In standby `_show_parent_screen` restores the page. -/
theorem Inv.wakes (h : s.Inv) (hStandby : s.panel.screen = .standby) :
    s.panel.showParentScreen = { s.panel with parent := none, screen := s.entered } := by
  rw [Panel.showParentScreen, hStandby, h.standby hStandby]
  rfl

theorem Inv.restores (h : s.Inv) (hStandby : s.panel.screen = .standby) :
    s.showParentScreen.panel.screen = s.entered := by
  rw [panel_showParentScreen, h.wakes hStandby]

/-- On a page it navigates, the main screen apart. -/
theorem Inv.goesBack (h : s.Inv) (hPage : s.panel.screen ≠ .standby) :
    s.showParentScreen.panel.screen = s.panel.screen ↔ s.panel.screen = .main := by
  rw [panel_showParentScreen, Panel.showParentScreen]
  cases hScreen : s.panel.screen with
  | standby => exact absurd hScreen hPage
  | main => simp [h.main hScreen]
  | wlan | lyrics => simp [Panel.showMainScreen]
  | softap | password => simp

theorem Inv.showParentScreen (h : s.Inv) : s.showParentScreen.Inv := by
  cases hScreen : s.panel.screen with
  | standby =>
    have hPanel := h.wakes hScreen
    rw [← panel_showParentScreen] at hPanel
    refine ⟨?_, ?_, ?_, ?_⟩
    -- the lyrics are shown where they were kept
    · rw [LyricsShown, hPanel]
      refine h.lyrics.trans ?_
      simp [LyricsShown, hScreen, h.standby hScreen, h.entered]
    · intro _
      rw [hPanel]
    · intro hStandby
      rw [hPanel] at hStandby
      exact absurd hStandby h.entered
    · rw [entered_showParentScreen]
      exact h.entered
  | main =>
    have hPanel : s.panel.showParentScreen = { s.panel with parent := none, screen := .main } := by
      rw [Panel.showParentScreen, hScreen, h.main hScreen]
      rfl
    have hLyrics : ¬s.panel.lyricsVisible = true := by
      rw [h.lyrics]
      simp [LyricsShown, hScreen]
    rw [Display.showParentScreen, hScreen, hPanel]
    exact .page (by simp) (Bool.eq_false_iff.2 hLyrics) (fun _ => rfl) h.entered
  | wlan | lyrics =>
    rw [Display.showParentScreen, hScreen]
    exact h.showMainScreen
  | softap | password =>
    rw [Display.showParentScreen, hScreen]
    exact h.showWlan

/-- The toggle closes the lyrics where they are shown or kept, and opens them elsewhere. -/
theorem Inv.toggleLyrics (h : s.Inv) : s.toggleLyrics.Inv := by
  by_cases hVisible : s.panel.lyricsVisible = true
  · have hPanel : s.panel.toggleLyrics = s.panel.showMainScreen := if_pos hVisible
    refine .page ?_ ?_ ?_ h.entered <;>
      simp [Display.toggleLyrics, hPanel, Panel.showMainScreen]
  · have hPanel : s.panel.toggleLyrics =
        { s.panel with lyricsVisible := true, parent := some .main, screen := .lyrics } :=
      if_neg hVisible
    refine ⟨?_, ?_, ?_, h.entered⟩ <;> simp [Display.toggleLyrics, LyricsShown, hPanel]

/-- On a page the toggle changes the screen. -/
theorem Inv.toggles (h : s.Inv) (hPage : s.panel.screen ≠ .standby) :
    s.toggleLyrics.panel.screen ≠ s.panel.screen := by
  have hShown : s.panel.lyricsVisible = true ↔ s.panel.screen = .lyrics := by
    rw [h.lyrics]
    simp [LyricsShown, hPage]
  rw [Display.toggleLyrics, Panel.toggleLyrics]
  split_ifs with hVisible
  · rw [hShown.1 hVisible]
    simp [Panel.showMainScreen]
  · exact fun hSame => hVisible (hShown.2 hSame.symm)

theorem Inv.maybeReturn (h : s.Inv) (success : Bool) :
    (s.maybeReturnAfterProvision success).Inv := by
  have hOther (hPanel : (s.panel.maybeReturnAfterProvision success).screen = s.panel.screen)
      (hParent : (s.panel.maybeReturnAfterProvision success).parent = s.panel.parent)
      (hLyrics : (s.panel.maybeReturnAfterProvision success).lyricsVisible =
        s.panel.lyricsVisible) : (s.maybeReturnAfterProvision success).Inv := by
    simp only [maybeReturnAfterProvision, hPanel, if_true]
    refine ⟨?_, ?_, ?_, h.entered⟩
    · simpa only [LyricsShown, hPanel, hParent, hLyrics] using h.lyrics
    · simpa only [hPanel, hParent] using h.main
    · simpa only [hPanel, hParent] using h.standby
  by_cases hWlan : success = true ∧ s.panel.returnDone = false ∧
      (s.panel.screen = .softap ∨ s.panel.screen = .password)
  · obtain ⟨rfl, hDone, hAway⟩ := hWlan
    have hNot : s.panel.screen ≠ .wlan := by
      rcases hAway with hScreen | hScreen <;> simp [hScreen]
    have hPanel : s.panel.maybeReturnAfterProvision true =
        { s.panel with returnDone := true }.showWlan := by
      simp [Panel.maybeReturnAfterProvision, hDone, hNot, hAway]
    have hMoves : ({ s.panel with returnDone := true } : Panel).showWlan.screen ≠ s.panel.screen :=
      fun hSame => hNot hSame.symm
    simp only [maybeReturnAfterProvision, hPanel]
    rw [if_neg hMoves]
    exact .page (by simp) rfl (by simp) h.entered
  · have hSame : (s.panel.maybeReturnAfterProvision success).screen = s.panel.screen ∧
        (s.panel.maybeReturnAfterProvision success).parent = s.panel.parent ∧
        (s.panel.maybeReturnAfterProvision success).lyricsVisible = s.panel.lyricsVisible := by
      unfold Panel.maybeReturnAfterProvision
      split_ifs with hFails hDone hThere hAway
      · exact ⟨rfl, rfl, rfl⟩
      · exact ⟨rfl, rfl, rfl⟩
      · exact ⟨rfl, rfl, rfl⟩
      · refine absurd ⟨?_, ?_, hAway⟩ hWlan
        · simpa using hFails
        · simpa using hDone
      · exact ⟨rfl, rfl, rfl⟩
    exact hOther hSame.1 hSame.2.1 hSame.2.2

end Pages

/-! ## The timers -/

section Timers

theorem Inv.touchOrIdle (h : s.Inv) (t : Snapshot) (now : UInt32) : (s.touchOrIdle t now).Inv := by
  rw [Display.touchOrIdle]
  split_ifs
  · exact h.keep rfl rfl
  · exact h.showStandbyScreen
  · exact h

theorem Inv.wakeOnTouch (h : s.Inv) (t : Snapshot) : (s.wakeOnTouch t).Inv := by
  rw [Display.wakeOnTouch]
  split_ifs
  · exact h.showParentScreen.keep rfl rfl
  · exact h

theorem Inv.endGesture (h : s.Inv) : s.endGesture.Inv := by
  have hEnded : Inv { s with gesture := { s.gesture with active := false, mode := .none } } :=
    h.keep rfl rfl
  rw [Display.endGesture]
  cases s.gesture.mode with
  | statusOpen | statusClose => exact h.keep rfl rfl
  | none => exact hEnded
  | back =>
    split_ifs
    · exact hEnded.showParentScreen
    · exact hEnded

theorem Inv.followGesture (h : s.Inv) (t : Snapshot) : (s.followGesture t).Inv := by
  rw [Display.followGesture]
  split_ifs
  · exact h.keep rfl rfl
  · exact h.keep rfl rfl
  · exact h.endGesture
  · exact h

theorem Inv.gestureTimer (h : s.Inv) (t : Snapshot) (now : UInt32) :
    (s.gestureTimer t now).Inv := by
  have hAwake := (h.touchOrIdle t now).wakeOnTouch t
  exact (hAwake.followGesture t).keep rfl rfl

theorem Inv.wifiStatusTimer (h : s.Inv) (success : Bool) (now : UInt32) :
    (s.wifiStatusTimer success now).Inv := by
  have hReturn := h.maybeReturn success
  simp only [Display.wifiStatusTimer]
  split_ifs
  · exact hReturn.showStandbyScreen
  · exact hReturn

theorem Inv.uiSetState (h : s.Inv) (state : PlayState) (now : UInt32) :
    (s.uiSetState state now).Inv := by
  rw [Display.uiSetState]
  split_ifs with hOld
  · exact h
  by_cases hWakes : state = .playing ∧ s.panel.screen = .standby
  · let shown : Display := { s with panel := { s.panel with lastUiState := state } }
    have hShown : shown.Inv := ⟨h.lyrics, h.main, h.standby, h.entered⟩
    have hPanel : s.panel.uiSetState state = shown.showParentScreen.panel := by
      rw [panel_showParentScreen, Panel.uiSetState, if_neg hOld, if_pos hWakes]
    -- playing wakes the panel as `_show_parent_screen` does
    exact hShown.showParentScreen.keep hPanel (entered_showParentScreen (s := shown)).symm
  · have hPanel : s.panel.uiSetState state = { s.panel with lastUiState := state } := by
      rw [Panel.uiSetState, if_neg hOld, if_neg hWakes]
    rw [hPanel]
    exact ⟨h.lyrics, h.main, h.standby, h.entered⟩

theorem Inv.clicked (h : s.Inv) (target : Target) : (s.clicked target).Inv := by
  cases target with
  | standbyScr | backBtn => exact h.showParentScreen
  | lyricsScr | cover => exact h.toggleLyrics
  | wifiBtn | keyboardCancel | keyboardReady => exact h.showWlan
  | softapCell => exact h.showSoftap
  | networkCell => exact h.showWlanPassword
  | other => exact h

end Timers

theorem Inv.step {a : DisplayAction} (h : s.Inv) (hStep : s.step a = some s') : s'.Inv := by
  cases a with
  | gestures t now =>
    obtain rfl := Option.some.inj hStep
    exact h.gestureTimer t now
  | status success now =>
    obtain rfl := Option.some.inj hStep
    exact h.wifiStatusTimer success now
  | press target =>
    simp only [Display.step] at hStep
    split_ifs at hStep
    obtain rfl := Option.some.inj hStep
    exact h.keep rfl rfl
  | release click =>
    obtain ⟨⟨target, own⟩, -, rfl⟩ := Option.map_eq_some_iff.1 hStep
    have hReleased : Inv { s with held := none } := h.keep rfl rfl
    split_ifs
    · exact hReleased.clicked target
    · exact hReleased
  | resetIdle now =>
    obtain rfl := Option.some.inj hStep
    exact h.keep rfl rfl
  | cover =>
    obtain rfl := Option.some.inj hStep
    exact ⟨h.lyrics, h.main, h.standby, h.entered⟩
  | enterStandby =>
    obtain rfl := Option.some.inj hStep
    exact h.showStandbyScreen
  | exitStandby =>
    obtain rfl := Option.some.inj hStep
    split_ifs
    · exact h.showParentScreen
    · exact h
  | lyrics =>
    obtain rfl := Option.some.inj hStep
    exact h.toggleLyrics
  | setState state now =>
    obtain rfl := Option.some.inj hStep
    exact h.uiSetState state now

theorem inv_boot (nowUs : Int) (now : UInt32) : (boot nowUs now).Inv :=
  .page (by simp [boot, Panel.boot]) rfl (fun _ => rfl) (by simp [boot])

/-- **The flag of the lyrics** is right in every state, whatever wakes the display. -/
theorem lyrics_of_run (nowUs : Int) (now : UInt32) {as : List DisplayAction}
    (hRun : run step (boot nowUs now) as = some s) :
    s.panel.lyricsVisible = true ↔ s.LyricsShown :=
  (invariant_of_run (fun _ _ _ h hStep => Inv.step h hStep) (inv_boot nowUs now) hRun).lyrics

/-! ## Waking up -/

section Waking

/-- A gesture changes the screen only where it ends. -/
theorem panel_followGesture (hPressed : t.pressed = true) :
    (s.followGesture t).panel = s.panel := by
  rw [followGesture, if_pos hPressed]
  split_ifs <;> rfl

theorem screen_pressed (hPressed : t.pressed = true) (now : UInt32) :
    (s.gestureTimer t now).panel.screen =
      if s.panel.screen = .standby then s.showParentScreen.panel.screen else s.panel.screen := by
  simp only [gestureTimer]
  rw [panel_followGesture hPressed, touchOrIdle, if_pos hPressed]
  by_cases hStandby : s.panel.screen = .standby
  · rw [wakeOnTouch, if_pos ⟨hPressed, hStandby⟩, if_pos hStandby, panel_showParentScreen,
      panel_showParentScreen]
  · rw [wakeOnTouch, if_neg fun hIs => hStandby hIs.2, if_neg hStandby]

theorem Inv.wake {a : DisplayAction} (h : s.Inv) (hStep : s.step a = some s')
    (hStandby : s.panel.screen = .standby) (hWakes : s.wakesUp a = true) :
    s'.panel.screen = s.entered := by
  cases a with
  | gestures t now =>
    obtain rfl := Option.some.inj hStep
    rw [screen_pressed hWakes, if_pos hStandby]
    exact h.restores hStandby
  | release click =>
    obtain ⟨⟨target, own⟩, hHeld, rfl⟩ := Option.map_eq_some_iff.1 hStep
    have hReleased : Inv { s with held := none } := h.keep rfl rfl
    simp only [wakesUp, hHeld, Option.any_some, Bool.and_eq_true, Bool.or_eq_true,
      decide_eq_true_eq] at hWakes
    obtain ⟨rfl, rfl | rfl⟩ := hWakes
    · exact hReleased.restores hStandby
    · exact hReleased.restores hStandby
  | exitStandby =>
    obtain rfl := Option.some.inj hStep
    rw [if_pos hStandby]
    exact h.restores hStandby
  | setState state now =>
    obtain rfl := Option.some.inj hStep
    simp only [wakesUp, Bool.and_eq_true, decide_eq_true_eq] at hWakes
    obtain ⟨rfl, hNew⟩ := hWakes
    have hShown : Inv { s with panel := { s.panel with lastUiState := .playing } } :=
      ⟨h.lyrics, h.main, h.standby, h.entered⟩
    have hRestores := hShown.restores hStandby
    rw [panel_showParentScreen] at hRestores
    rw [Display.uiSetState, if_neg hNew, Panel.uiSetState, if_neg hNew, if_pos ⟨rfl, hStandby⟩]
    exact hRestores
  | status | press | resetIdle | enterStandby | lyrics | cover => cases hWakes

/-- The callback of an object, on a page -/
theorem Inv.clicked_screen (h : s.Inv) (hPage : s.panel.screen ≠ .standby) (target : Target) :
    (s.clicked target).panel.screen = s.panel.screen ↔ leadsTo target s.panel.screen = true := by
  cases target with
  | standbyScr | backBtn => simpa [Display.clicked, leadsTo] using h.goesBack hPage
  | lyricsScr | cover => simpa [Display.clicked, leadsTo] using h.toggles hPage
  | wifiBtn | keyboardCancel | keyboardReady =>
    simp [Display.clicked, leadsTo, Display.showWlan, eq_comm]
  | softapCell => simp [Display.clicked, leadsTo, Display.showSoftap, Panel.showSoftap, eq_comm]
  | networkCell =>
    simp [Display.clicked, leadsTo, Display.showWlanPassword, Panel.showWlanPassword, eq_comm]
  | other => simp [Display.clicked, leadsTo]

/-- The release of a touch, on a page -/
theorem Inv.released (h : s.Inv) (hPage : s.panel.screen ≠ .standby)
    (hUp : t.pressed = false) (hBusy : s.idle now = false) :
    (s.gestureTimer t now).panel.screen = s.panel.screen ↔
      (s.swipesBack t = true → s.panel.screen = .main) := by
  have hTimer : (s.gestureTimer t now).panel.screen =
      (if s.gesture.active then s.endGesture else s).panel.screen := by
    simp [Display.gestureTimer, Display.followGesture, Display.touchOrIdle, Display.wakeOnTouch,
      hUp, hBusy]
  rw [hTimer]
  by_cases hSwipe : s.swipesBack t = true
  · simp only [swipesBack, hUp, Bool.not_false, Bool.true_and, Bool.and_eq_true,
      decide_eq_true_eq] at hSwipe
    obtain ⟨⟨⟨hActive, hMode⟩, hVertical⟩, hDy⟩ := hSwipe
    have hEnded : Inv { s with gesture := { s.gesture with active := false, mode := .none } } :=
      h.keep rfl rfl
    have hBack := hEnded.goesBack hPage
    rw [if_pos hActive, Display.endGesture, hMode]
    simp only [hVertical, hDy, and_self, if_true]
    rw [hBack]
    simp [swipesBack, hUp, hActive, hMode, hVertical, hDy]
  -- a gesture that is no swipe back ends without a change of the page
  · refine iff_of_true ?_ fun hIs => absurd hIs hSwipe
    split_ifs with hActive
    · rw [Display.endGesture]
      cases hMode : s.gesture.mode with
      | statusOpen | statusClose | none => rfl
      | back =>
        have hShort : ¬(s.gesture.vertical = true ∧ s.gesture.dy ≤ -35) := by
          intro hIs
          refine hSwipe ?_
          simp [swipesBack, hUp, hActive, hMode, hIs]
        simp only [hShort, if_false]
    · rfl

/-- **A later event of the touch** leaves the screen alone exactly where it does not navigate. -/
theorem Inv.echo_iff {a : DisplayAction} (h : s.Inv) (hStep : s.step a = some s') :
    (s.panel.screen ≠ .standby → s.echoes a = true → s'.panel.screen = s.panel.screen) ↔
      s.OneWake a := by
  refine forall_congr' fun hPage => forall_congr' fun hEcho => ?_
  cases a with
  | gestures t now =>
    obtain rfl := Option.some.inj hStep
    cases hPressed : t.pressed with
    | true =>
      rw [screen_pressed hPressed, if_neg hPage]
      simp [swipesBack, hPressed]
    | false =>
      simp only [echoes, hPressed, Bool.false_or, Bool.and_eq_true, Bool.not_eq_true'] at hEcho
      exact h.released hPage hPressed hEcho.2
  | release click =>
    obtain ⟨⟨target, own⟩, hHeld, rfl⟩ := Option.map_eq_some_iff.1 hStep
    have hReleased : Inv { s with held := none } := h.keep rfl rfl
    simp only [echoes, hHeld, Option.any_some, Bool.and_eq_true] at hEcho
    simp only [hEcho.1, hHeld, if_true, Option.mem_some_iff, forall_eq']
    exact hReleased.clicked_screen hPage target
  | status | press | resetIdle | enterStandby | exitStandby | lyrics | setState | cover =>
    cases hEcho

end Waking

/-- **Standby is transparent** along a run exactly when, once the display is awake, the touch that
woke it does not navigate: its click leads nowhere else, and it is not a swipe back. -/
theorem transparent_iff (nowUs : Int) (now : UInt32) (as : List DisplayAction) :
    Along step Transparent (boot nowUs now) as ↔
      Along step (fun s a _ => s.OneWake a) (boot nowUs now) as := by
  refine along_iff_of_invariant (I := Inv) (fun s a s' h hStep => ?_)
    (fun _ _ _ h hStep _ => h.step hStep) (inv_boot nowUs now)
  rw [← h.echo_iff hStep]
  exact ⟨fun hAll => hAll.echo, fun hEcho => ⟨h.wake hStep, hEcho, (h.step hStep).lyrics⟩⟩

/-- Standby is entered from the lyrics and touched. -/
def touchedLyrics : List DisplayAction :=
  [.lyrics, .enterStandby, .press .standbyScr, .gestures ⟨true, 180, 180⟩ 5000]

/-- The gesture timer brings the lyrics back, and the click on the standby screen closes them. -/
theorem lyrics_closed : ¬∀ (nowUs : Int) (now : UInt32) (as : List DisplayAction),
    Along step Transparent (boot nowUs now) as := by
  intro hAll
  have hTest : (run step (boot 1 1) touchedLyrics).any (fun s =>
      (step s (.release true)).any fun s' =>
        s.panel.screen = s.entered && s.panel.screen = .lyrics && s.echoes (.release true) &&
          s'.panel.screen = .main) = true := by
    decide +kernel
  obtain ⟨s, s', hRun, hStep, hFound⟩ := exists_last_of_any hTest
  simp only [Bool.and_eq_true, decide_eq_true_eq] at hFound
  obtain ⟨⟨⟨-, hLyrics⟩, hEcho⟩, hMain⟩ := hFound
  have hLast := (hAll 1 1 (touchedLyrics ++ [.release true])).last hRun hStep
  have hSame := hLast.echo (by simp [hLyrics]) hEcho
  rw [hMain, hLyrics] at hSame
  cases hSame

end Display

end EspMiplay.Dlna
