import EspMiplay.Miplay.Json

/-!
# The media snapshot

How an event reaches the snapshot `s_media_*` and the application
(`miplay_emit_media_event`), how a player state gates the audio output
(`miplay_apply_playback_control`), and how the cadence of SetPosition
heartbeats is turned into a player state
(`miplay_project_state_from_position`).
-/

namespace EspMiplay.Miplay

def uint32Max : Nat := 4294967295

/-! ## Emitting an event -/

/-- A non-empty cover always counts as changed. -/
def MediaEvent.marked (e : MediaEvent) : MediaEvent :=
  { e with changed := { e.changed with coverUrl := e.changed.coverUrl || peek e.coverUrl ≠ 0 } }

/-- A text of the snapshot after an event with that text. -/
def Media.text (size : Nat) (changed : Bool) (new old : Bytes) : Bytes :=
  if changed && peek new ≠ 0 then strncpy size new else old

/-- The state an event with a player state stands for on the wire. -/
def MediaEvent.wireState (e : MediaEvent) : Int :=
  if e.deviceState < 0 then
    match e.playerState with
    | .playing => 2
    | .paused => 3
    | _ => 0
  else e.deviceState

/-- The snapshot after an event. -/
def Media.apply (m : Media) (e : MediaEvent) : Media where
  id := Media.text 64 e.changed.id e.id m.id
  audioId := Media.text 64 e.changed.audioId e.audioId m.audioId
  title := Media.text 128 e.changed.title e.title m.title
  artist := Media.text 128 e.changed.artist e.artist m.artist
  album := Media.text 128 e.changed.album e.album m.album
  coverUrl := Media.text miplayCoverSourceMax e.changed.coverUrl e.coverUrl m.coverUrl
  duration := if e.changed.duration ∧ e.durationMs > 0 then min e.durationMs.toNat uint32Max
    else m.duration
  position := if e.changed.position then e.positionMs.toNat else m.position
  status := if e.changed.status then e.status
    else if e.changed.playerState then e.wireState else m.status
  deviceState := if e.changed.deviceState then e.deviceState
    else if e.changed.playerState then e.wireState else m.deviceState

def miplayEmitMediaEvent (e : MediaEvent) : M Unit := do
  let e := e.marked
  if e.changed.any then
    modify fun w => { w with media := w.media.apply e }
    emit (.mediaCb e)

/-- `miplay_emit_state_event`; the event may find no memory. -/
def miplayEmitStateEvent (env : Env) (wireState : Int) (player : PlayerState) : M Unit := do
  if ← oracle env.heap then
    miplayEmitMediaEvent
      { miplayMediaEventInit with
        status := wireState
        deviceState := wireState
        playerState := player
        changed := { status := true, deviceState := true, playerState := true } }

/-! ## The pause gate -/

def miplaySetAudioPaused (paused : Bool) : M Unit :=
  modify fun w => { w with mediaPaused := paused }

def miplayResetPositionStateHint : M Unit :=
  modify fun w => { w with
    hint := { lastMs := -1, lastRxUs := 0, generation := w.rtsp.generation, stalledTicks := 0 } }

def miplayApplyPlaybackControl (e : MediaEvent) : M Unit := do
  if e.changed.playerState then
    match e.playerState with
    | .paused =>
      miplaySetAudioPaused true
      miplayResetPositionStateHint
    | .playing =>
      miplaySetAudioPaused false
      miplayResetPositionStateHint
    | _ => return

/-! ## Position heartbeats -/

def positionPlayDeltaMs : Int := 250
def positionPlaySlopMs : Int := 1500
def positionStallToleranceMs : Int := 150
def positionStallIntervalUs : Int := 500000

/-- The state a heartbeat implies, and the stall count afterwards. -/
def inferState (hint : PositionHint) (nowUs positionMs : Int) : PlayerState × Nat :=
  if hint.lastMs ≥ 0 ∧ hint.lastRxUs > 0 then
    let deltaMs := positionMs - hint.lastMs
    let absDeltaMs := if deltaMs < 0 then -deltaMs else deltaMs
    let elapsedUs := nowUs - hint.lastRxUs
    let elapsedMs := elapsedUs.tdiv 1000
    if elapsedMs ≥ positionPlayDeltaMs ∧ deltaMs ≥ positionPlayDeltaMs ∧
        deltaMs ≤ elapsedMs + positionPlaySlopMs then
      (.playing, 0)
    else if absDeltaMs ≤ positionStallToleranceMs ∧ elapsedUs ≥ positionStallIntervalUs then
      (.paused, min (hint.stalledTicks + 1) 255)
    else (.unknown, 0)
  else (.unknown, hint.stalledTicks)

/-- The event a heartbeat becomes: unchanged when the implied state is unknown or
the one the snapshot already has. -/
def projectEvent (inferred : PlayerState) (deviceState : Int) (e : MediaEvent) : MediaEvent :=
  if inferred = .unknown ∨ inferred = miplayWireStateToPlayer deviceState then e
  else
    let wireState : Int := if inferred = .playing then 2 else 3
    { e with
      status := wireState
      deviceState := wireState
      playerState := inferred
      changed := { e.changed with status := true, deviceState := true, playerState := true } }

/-- Called for events that carry a position. -/
def miplayProjectStateFromPosition (env : Env) (e : MediaEvent) : M MediaEvent := do
  if !e.changed.position then return e
  if (← get).hint.generation ≠ (← get).rtsp.generation then miplayResetPositionStateHint
  let nowUs ← oracle env.clock
  let positionMs := max e.positionMs 0
  let w ← get
  let (inferred, stalledTicks) := inferState w.hint nowUs positionMs
  set { w with
    hint := { w.hint with lastMs := positionMs, lastRxUs := nowUs, stalledTicks := stalledTicks } }
  return projectEvent inferred w.media.deviceState e

end EspMiplay.Miplay
