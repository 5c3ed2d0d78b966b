import EspMiplay.Dlna.Metadata
import EspMiplay.Lib.Transition

/-!
# The DLNA player

The player of `dlna.c` outside MiPlay and speaker mode: the callbacks of the control
point and of the buttons, the tasks they create, the events of the pipeline and of
Wi-Fi, and the parts of the UI task that act on the player.

A handler runs to its next `vTaskDelay`, where its task sleeps and others run: what it
will do then is written down in `sleepers`. The control point is served by one task,
the play button and the track buttons by one each.

Of the pipeline only what `esp_gmf_task.c` makes of the calls is modelled: a run opens
it, it starts to run by itself later, a pause and a resume change it at once and
deliver their event, and a stop delivers STOPPED, or FINISHED when the track ends
while it waits. Whether a run succeeds and whether the track ends in a stop is chosen
from outside (`Luck`).
-/

namespace EspMiplay.Dlna

open EspMiplay.Miplay (Bytes peek)

/-- What the thread of the pipeline does. -/
inductive Pipe where
  | idle
  | opening
  | running
  | paused
  deriving DecidableEq, Repr

/-- Who runs a handler. -/
inductive Task where
  /-- the HTTP server -/
  | soap
  | btnCtrl
  | btnTrack
  /-- `delayed_stop_notify` -/
  | finish
  /-- `deferred_seek_worker` -/
  | seek
  deriving DecidableEq, Repr

/-- What follows `_do_play`. -/
inductive After where
  /-- in `cb_play`, with a track playing or paused -/
  | switched (paused : Bool)
  /-- in `cb_play`, with no track playing -/
  | fresh
  | next (metadata : Option Bytes)
  | previous
  deriving DecidableEq, Repr

/-- Where a task sleeps. -/
inductive Sleep where
  /-- `cb_play`, to play another URI -/
  | switch (paused : Bool)
  /-- `_do_play`, to try again -/
  | retry (uri : Bytes) (seekSec : Int) (after : After)
  /-- `cb_seek`, with the pipeline paused -/
  | seek (seconds : Int)
  | seekDone
  /-- `delayed_stop_notify` has been created; the ghost is the track it is about -/
  | notify (generation : Nat) (track : Nat)
  /-- `deferred_seek_worker` has been created -/
  | deferred (sec : Int)
  | deferredPaused (sec : Int)
  | deferredDone (sec : Int)
  /-- `cb_next` with a next URI -/
  | promote
  /-- `cb_next` without one -/
  | noNext
  | waitNext (generation trackSeq waited : Nat)
  | previous
  deriving DecidableEq, Repr

structure Luck where
  runs : Bool
  finishes : Bool
  deriving DecidableEq, Repr

structure Player where
  /-- `esp_timer_get_time()` -/
  nowUs : Int
  /-- `s_state` -/
  state : PlayState
  trackUri : Option Bytes
  nextUri : Option Bytes
  nextMetadata : Option Bytes
  playingUri : Option Bytes
  savedUri : Option Bytes
  savedPosSec : Int
  pendingSeekSec : Int
  durCacheSec : Int
  accumulatedMs : Int
  playStartUs : Int
  graceUntil : Int
  stuckPausedSince : Int
  userStopped : Bool
  nearEndCount : Nat
  /-- `s_media_generation` -/
  generation : Nat
  curTitle : Bytes
  curArtist : Bytes
  musicId : Nat
  /-- `s_uri` of `custom_dlna.c` -/
  uri : Bytes
  /-- `s_metadata` of `custom_dlna.c` -/
  metadata : Bytes
  /-- `s_btn_track_seq` -/
  trackSeq : Nat
  /-- `s_btn_queue_track`, true for next -/
  presses : List Bool
  pipe : Pipe
  sleepers : List (Task × Sleep)
  /-- the ghost: how many tracks have been started -/
  tracks : Nat
  /-- the ghost: the tracks whose end has led to `cb_next` -/
  ended : List Nat
  /-- the ghost: how many next URIs have been set -/
  nexts : Nat
  /-- the ghost: the next URIs that have been promoted -/
  promoted : List Nat
  deriving DecidableEq

namespace Player

variable (p : Player)

/-! ## State and position -/

def setState (s : PlayState) : Player := { p with state := s }

/-- `get_position_ms`, for the display -/
def getPositionMs : Int :=
  if p.playStartUs > 0 then p.accumulatedMs + (p.nowUs - p.playStartUs).tdiv 1000
  else p.accumulatedMs

/-- `cb_get_position_ms`, for control points -/
def cbGetPositionMs : Int :=
  if p.state = .playing ∧ p.playStartUs > 0 then
    p.accumulatedMs + (p.nowUs - p.playStartUs).tdiv 1000
  else p.accumulatedMs

/-- The time since the start is added up, and the start forgotten. -/
def freeze : Player :=
  if p.playStartUs > 0 then
    { p with
      accumulatedMs := p.accumulatedMs + (p.nowUs - p.playStartUs).tdiv 1000
      playStartUs := 0 }
  else p

def grace (us : Int) : Player := { p with graceUntil := p.nowUs + us }

def sleep (task : Task) (s : Sleep) : Player := { p with sleepers := p.sleepers ++ [(task, s)] }

/-- `schedule_delayed_stop_notify` -/
def scheduleStopNotify : Player := p.sleep .finish (.notify p.generation p.tracks)

/-! ## Events of the pipeline -/

/-- `pipeline_event_cb`, RUNNING -/
def onRunning : Player :=
  let p := p.setState .playing
  let p := if p.playStartUs = 0 then { p with playStartUs := p.nowUs } else p
  if p.pendingSeekSec > 0 then
    { p with pendingSeekSec := 0 }.sleep .seek (.deferred p.pendingSeekSec)
  else p

def onPaused : Player := if p.userStopped then p.setState .paused else p

def onStopped : Player :=
  if p.nowUs < p.graceUntil then p else if p.state ≠ .paused then p.setState .stopped else p

def onFinished : Player := if p.state = .paused then p else p.scheduleStopNotify

def onError : Player := if p.nowUs < p.graceUntil then p else p.setState .stopped

/-! ## Control of the pipeline -/

def pipePause : Player := if p.pipe = .running then { p with pipe := .paused }.onPaused else p

def pipeResume : Player := if p.pipe = .paused then { p with pipe := .running }.onRunning else p

def pipeStop (luck : Luck) : Player :=
  if p.pipe = .idle then p
  else if p.pipe = .running ∧ luck.finishes then { p with pipe := .idle }.onFinished
  else { p with pipe := .idle }.onStopped

/-! ## Playing -/

/-- `custom_dlna_update_uri` -/
def updateUri (uri metadata : Option Bytes) : Player :=
  { p with uri := uri.getD [], metadata := metadata.getD [] }

/-- The rest of the handler that called `_do_play`. -/
def afterPlay : After → Player
  | .switched false => { p with savedPosSec := 0 }
  | .switched true => { { p with savedPosSec := 0 }.grace 8000000 with userStopped := false }
  | .fresh => { p with savedPosSec := 0 }
  | .next metadata => p.updateUri p.trackUri metadata
  | .previous => p

/-- The pipeline runs. -/
def played (uri : Bytes) (seekSec : Int) : Player :=
  { { p.setState .playing with
      pipe := .opening
      accumulatedMs := seekSec * 1000
      playStartUs := p.nowUs
      userStopped := false
      playingUri := some uri
      pendingSeekSec := if seekSec > 0 then seekSec else p.pendingSeekSec
      tracks := p.tracks + 1 }.grace 8000000 with }

/-- A run is possible while the thread of the pipeline waits for one. -/
def canRun (luck : Luck) : Bool := luck.runs && p.pipe = .idle

/-- `_do_play` -/
def doPlay (task : Task) (luck : Luck) (uri : Option Bytes) (seekSec : Int) (after : After) :
    Player :=
  let p := { p with generation := p.generation + 1, nearEndCount := 0 }
  match uri with
  | none => p.afterPlay after
  | some uri =>
    let p := p.grace 8000000
    if p.canRun luck then (p.played uri seekSec).afterPlay after
    else p.sleep task (.retry uri seekSec after)

/-- The second attempt. -/
def retryPlay (luck : Luck) (uri : Bytes) (seekSec : Int) (after : After) : Player :=
  (if p.canRun luck then p.played uri seekSec else p.setState .stopped).afterPlay after

/-- Both are set and differ. -/
def otherUri : Bool :=
  match p.playingUri, p.trackUri with
  | some playing, some track => playing ≠ track
  | _, _ => false

def cbPlay (task : Task) (luck : Luck) : Player :=
  match p.state with
  | .playing =>
    if p.playingUri.isSome ∧ p.playingUri = p.trackUri then p
    else
      ({ p with userStopped := false }.grace 1500000).pipeStop luck |>.sleep task (.switch false)
  | .paused =>
    if p.otherUri then
      ({ p with userStopped := false }.grace 1500000).pipeStop luck |>.sleep task (.switch true)
    else
      let p := p.pipeResume.setState .playing
      { { p with playStartUs := p.nowUs }.grace 8000000 with userStopped := false }
  | _ =>
    if p.trackUri.isSome then
      let sameTrack := p.savedUri = p.trackUri ∧ p.savedPosSec > 0
      p.doPlay task luck p.trackUri (if sameTrack then p.savedPosSec else 0) .fresh
    else { p with savedPosSec := 0 }

def cbPause : Player :=
  let p := { p with pendingSeekSec := 0 }
  if p.state = .playing then
    let p := p.freeze
    let p := { p with savedPosSec := p.accumulatedMs.tdiv 1000, savedUri := p.trackUri }
    { p.pipePause.setState .paused with userStopped := true }
  else p

def cbPlayToggle (task : Task) (luck : Luck) : Player :=
  if p.state = .playing then p.cbPause else p.cbPlay task luck

def cbStop (luck : Luck) : Player :=
  let p := { p with generation := p.generation + 1, nearEndCount := 0 }.freeze
  let p :=
    { p with
      savedPosSec := p.accumulatedMs.tdiv 1000
      savedUri := p.trackUri
      userStopped := true }.grace 2000000
  { (p.pipeStop luck).setState .stopped with nextUri := none, nextMetadata := none }

/-- The position after a seek. -/
def sought (seconds : Int) : Player :=
  { p with accumulatedMs := seconds * 1000, playStartUs := p.nowUs }

def cbSeek (task : Task) (seconds : Int) : Player :=
  let p := { p with generation := p.generation + 1, nearEndCount := 0 }
  if p.state = .playing then p.pipePause.sleep task (.seek seconds) else p.sought seconds

/-! ## Next and previous -/

/-- The next URI is there and is not empty. -/
def hasNext : Bool := p.nextUri.any fun uri => peek uri ≠ 0

/-- A change of the track begins. -/
def leaveTrack : Player :=
  { p with
    generation := p.generation + 1
    nearEndCount := 0
    userStopped := false
    accumulatedMs := 0
    playStartUs := 0
    savedPosSec := 0
    savedUri := none }

def cbNext (task : Task) (luck : Luck) : Player :=
  let p := p.leaveTrack
  if p.hasNext then ((p.grace 1500000).pipeStop luck).sleep task .promote
  else ((p.grace 1000000).pipeStop luck).sleep task .noNext

/-- The next track becomes the current one. -/
def promoteNext (task : Task) (luck : Luck) : Player :=
  let metadata := p.nextMetadata
  let p :=
    { p with
      trackUri := p.nextUri
      nextUri := none
      nextMetadata := none
      promoted := if p.nextUri.isSome then p.nexts :: p.promoted else p.promoted }
  p.doPlay task luck p.trackUri 0 (.next metadata)

/-- One turn of the loop that waits for a next URI. -/
def waitNext (task : Task) (luck : Luck) (generation trackSeq waited : Nat) : Player :=
  if p.hasNext then p.promoteNext task luck
  else if generation ≠ p.generation ∨ p.state = .playing ∨ p.trackSeq ≠ trackSeq then p
  else if waited + 100 < 5000 then p.sleep task (.waitNext generation trackSeq (waited + 100))
  else
    let p :=
      { p with
        accumulatedMs := if p.durCacheSec > 0 then p.durCacheSec * 1000 else p.accumulatedMs
        playStartUs := 0 }
    (p.setState .stopped).updateUri none none

def cbPrevious (task : Task) (luck : Luck) : Player :=
  let p := p.leaveTrack
  if p.trackUri.isSome then ((p.grace 1000000).pipeStop luck).sleep task .previous
  else (p.pipeStop luck).setState .stopped

def cbSetNextUri (uri metadata : Bytes) : Player :=
  { p with nextUri := some uri, nextMetadata := some metadata, nexts := p.nexts + 1 }

/-! ## SetAVTransportURI -/

def cbSetUri (uri : Bytes) : Player :=
  let p := { p with generation := p.generation + 1, nearEndCount := 0 }
  if isVideoUri uri then p
  else
    { p with
      savedPosSec := 0
      trackUri := some uri
      durCacheSec := 0
      curTitle := []
      curArtist := []
      state := if p.state = .noMedia then .stopped else p.state
      userStopped := false }

def cbSetMetadata (metadata : Bytes) : Player :=
  let texts := extractTexts metadata
  let p := { p with durCacheSec := texts.duration.getD p.durCacheSec }
  let p :=
    if p.musicId ≠ 0 ∧ texts.musicId ≠ 0 ∧ texts.musicId ≠ p.musicId then
      { p with savedPosSec := 0, savedUri := none }
    else p
  let p := if texts.musicId ≠ 0 then { p with musicId := texts.musicId } else p
  if texts.title ≠ [] ∧ (texts.title ≠ p.curTitle ∨ texts.artist ≠ p.curArtist) then
    { p with curTitle := decoded 128 texts.title, curArtist := decoded 128 texts.artist }
  else p

/-- `handle_avt_control`, SetAVTransportURI; a metadata element that is missing or
closes itself leaves the buffer as it was. -/
def setAvTransportUri (uri : Bytes) (metadata : Option Bytes) : Player :=
  let p := { p with uri := uri, metadata := metadata.getD p.metadata }
  (p.cbSetUri uri).cbSetMetadata p.metadata

/-! ## Tasks that wake up -/

/-- `delayed_stop_notify` -/
def delayedStopNotify (luck : Luck) (generation track : Nat) : Player :=
  if generation ≠ p.generation then p
  else { p.freeze with ended := track :: p.ended }.cbNext .finish luck

/-- `deferred_seek_worker` -/
def deferredSeek (sec : Int) : Player :=
  if p.state = .playing then
    { p with generation := p.generation + 1 }.pipePause.sleep .seek (.deferredPaused sec)
  else p

/-- The sleep of a task is over. -/
def wake (luck : Luck) (task : Task) : Sleep → Player
  | .switch paused =>
    p.doPlay task luck p.trackUri p.savedPosSec (.switched paused)
  | .retry uri seekSec after => p.retryPlay luck uri seekSec after
  | .seek seconds => (p.sought seconds).sleep task .seekDone
  | .seekDone => p.pipeResume
  | .notify generation track => p.delayedStopNotify luck generation track
  | .deferred sec => p.deferredSeek sec
  | .deferredPaused sec => p.sleep task (.deferredDone sec)
  | .deferredDone _ =>
    let p := p.pipeResume
    { p with playStartUs := p.nowUs }
  | .promote => p.promoteNext task luck
  | .noNext => (p.setState .transitioning).sleep task (.waitNext p.generation p.trackSeq 0)
  | .waitNext generation trackSeq waited => p.waitNext task luck generation trackSeq waited
  | .previous => p.doPlay task luck p.trackUri 0 .previous

/-! ## Wi-Fi and the UI task -/

/-- `wifi_event_handler`, STA_DISCONNECTED -/
def wifiLost : Player :=
  if p.state = .playing then
    { p.pipePause.setState .paused with userStopped := false, stuckPausedSince := p.nowUs }
  else p

/-- `wifi_event_handler`, STA_GOT_IP -/
def wifiRestored : Player :=
  if p.state = .paused ∧ !p.userStopped then
    let p := p.pipeResume.setState .playing
    { p with playStartUs := p.nowUs }
  else p

/-- The end of a track that the pipeline does not tell of. -/
def nearEnd : Player :=
  if p.state = .playing ∧ p.durCacheSec > 0 then
    let remainMs := p.durCacheSec * 1000 - p.getPositionMs
    if 0 < remainMs ∧ remainMs < 1000 then
      if p.nearEndCount + 1 ≥ 50 then { p with nearEndCount := 0 }.scheduleStopNotify
      else { p with nearEndCount := p.nearEndCount + 1 }
    else { p with nearEndCount := 0 }
  else { p with nearEndCount := 0 }

/-- A pause that is not the user's lasts no longer than 30 seconds. -/
def stuckPaused (luck : Luck) : Player :=
  if p.state = .paused ∧ !p.userStopped then
    if p.stuckPausedSince = 0 then { p with stuckPausedSince := p.nowUs }
    else if p.nowUs - p.stuckPausedSince > 30000000 then
      { (p.pipeStop luck).setState .stopped with stuckPausedSince := 0 }
    else p
  else { p with stuckPausedSince := 0 }

/-- What `ui_update_task` does to the player. -/
def uiTick (luck : Luck) : Player := p.nearEnd.stuckPaused luck

/-! ## Steps -/

/-- The task is not in a handler. -/
def free (task : Task) : Bool := p.sleepers.all fun s => s.1 ≠ task

end Player

/-- What a control point asks of `AVTransport`, with the texts found in the request. -/
inductive AvtRequest where
  | setUri (uri : Bytes) (metadata : Option Bytes)
  | setNextUri (uri metadata : Bytes)
  | play
  | pause
  | stop
  | seek (seconds : Nat)
  | next
  | previous
  deriving DecidableEq, Repr

/-- What the thread of the pipeline reports by itself. -/
inductive PipeEvent where
  | running
  | finished
  | stopped
  | error
  deriving DecidableEq, Repr

inductive PlayerAction where
  | soap (request : AvtRequest) (luck : Luck)
  /-- the play button is served -/
  | toggle (luck : Luck)
  /-- a track button is pressed, true for next -/
  | press (next : Bool)
  /-- a press of a track button is served -/
  | track (luck : Luck)
  /-- the sleep of a task is over -/
  | wake (n : Nat) (luck : Luck)
  | pipe (event : PipeEvent)
  | wifi (up : Bool)
  | ui (luck : Luck)
  | tick (us : Nat)
  deriving DecidableEq, Repr

namespace Player

variable (p : Player)

/-- `handle_avt_control` -/
def request (luck : Luck) : AvtRequest → Player
  | .setUri uri metadata => if peek uri ≠ 0 then p.setAvTransportUri uri metadata else p
  | .setNextUri uri metadata => p.cbSetNextUri uri metadata
  | .play => p.cbPlay .soap luck
  | .pause => p.cbPause
  | .stop => p.cbStop luck
  | .seek seconds => p.cbSeek .soap seconds
  | .next => p.cbNext .soap luck
  | .previous => p.cbPrevious .soap luck

def pipeEvent : PipeEvent → Option Player
  | .running => if p.pipe = .opening then some { p with pipe := .running }.onRunning else none
  | .finished => if p.pipe = .running then some { p with pipe := .idle }.onFinished else none
  | .stopped => if p.pipe = .running then some { p with pipe := .idle }.onStopped else none
  | .error =>
    if p.pipe = .opening ∨ p.pipe = .running then some { p with pipe := .idle }.onError else none

def step : PlayerAction → Option Player
  | .soap request luck => if p.free .soap then some (p.request luck request) else none
  | .toggle luck => if p.free .btnCtrl then some (p.cbPlayToggle .btnCtrl luck) else none
  | .press next =>
    some
      { p with
        trackSeq := p.trackSeq + 1
        presses := if p.presses.length < 4 then p.presses ++ [next] else p.presses }
  | .track luck =>
    if p.free .btnTrack then
      match p.presses with
      | [] => none
      | true :: rest => some ({ p with presses := rest }.cbNext .btnTrack luck)
      | false :: rest => some ({ p with presses := rest }.cbPrevious .btnTrack luck)
    else none
  | .wake n luck =>
    match p.sleepers[n]? with
    | none => none
    | some (task, s) => some ({ p with sleepers := p.sleepers.eraseIdx n }.wake luck task s)
  | .pipe event => p.pipeEvent event
  | .wifi up => some (if up then p.wifiRestored else p.wifiLost)
  | .ui luck => some (p.uiTick luck)
  | .tick us => some { p with nowUs := p.nowUs + us }

/-- The player after boot, some time `nowUs` later. -/
def boot (nowUs : Int) : Player where
  nowUs := nowUs
  state := .stopped
  trackUri := none
  nextUri := none
  nextMetadata := none
  playingUri := none
  savedUri := none
  savedPosSec := 0
  pendingSeekSec := 0
  durCacheSec := 0
  accumulatedMs := 0
  playStartUs := 0
  graceUntil := 0
  stuckPausedSince := 0
  userStopped := false
  nearEndCount := 0
  generation := 0
  curTitle := []
  curArtist := []
  musicId := 0
  uri := []
  metadata := []
  trackSeq := 0
  presses := []
  pipe := .idle
  sleepers := []
  tracks := 0
  ended := []
  nexts := 0
  promoted := []

end Player

end EspMiplay.Dlna
