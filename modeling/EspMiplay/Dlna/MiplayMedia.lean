import EspMiplay.Miplay.Opack

/-!
# What the phone plays

The now-playing record `s_miplay_*` of `dlna.c`: how
`consume_miplay_media_events_locked` merges an event into it, how long a track has
been playing (`get_miplay_position_ms`), and what the play button does to it.

The time `esp_timer_get_time()` is an argument. What goes to the screen, the cover
worker and the lyrics is returned as a list (`UiOp`).
-/

namespace EspMiplay.Dlna

open EspMiplay.Miplay (Bytes MediaEvent PlayerState peek strncpy scanNumber miplayCoverSourceMax)

/-- `play_state_t` -/
inductive PlayState where
  | noMedia
  | stopped
  | playing
  | paused
  | transitioning
  deriving DecidableEq, Repr

structure MiplayMedia where
  id : Bytes
  audioId : Bytes
  title : Bytes
  artist : Bytes
  album : Bytes
  coverUrl : Bytes
  state : PlayState
  positionMs : Int
  durationMs : Int
  /-- when the position was true; 0 for never -/
  anchorUs : Int
  /-- `s_lyrics_refetch_pending` -/
  lyricsRefetch : Bool
  /-- `s_lyrics_ui_clear_pending` -/
  lyricsUiClear : Bool
  deriving DecidableEq

inductive UiOp where
  | lyricsClear
  | uiLyricsClear
  | clearCover
  | setTitle (title : Bytes)
  | setArtist (artist : Bytes)
  /-- `s_album_art_gen++` -/
  | nextAlbumArt
  | fetchAlbumArt (url : Bytes)
  | lyricsFetch (title artist : Bytes) (songId : Nat)
  deriving DecidableEq

/-! ## Position -/

def intMax : Int := 2147483647

def clampMiplayMs (value : Int) : Int :=
  if value ≤ 0 then 0 else if value > intMax then intMax else value

/-- `get_miplay_position_ms` -/
def getMiplayPositionMs (nowUs : Int) (m : MiplayMedia) : Int :=
  let position :=
    if m.state = .playing ∧ m.anchorUs > 0 then m.positionMs + (nowUs - m.anchorUs).tdiv 1000
    else m.positionMs
  clampMiplayMs (if m.durationMs > 0 ∧ position > m.durationMs then m.durationMs else position)

/-! ## One event -/

/-- A text arrives: it is marked and not empty. -/
def arrives (marked : Bool) (text : Bytes) : Bool := marked && peek text ≠ 0

namespace MiplayMedia

variable (m : MiplayMedia) (e : MediaEvent)

def idChanged : Bool := arrives e.changed.id e.id && m.id ≠ e.id

def audioIdChanged : Bool := arrives e.changed.audioId e.audioId && m.audioId ≠ e.audioId

def titleChanged : Bool := arrives e.changed.title e.title && m.title ≠ e.title

def coverChanged : Bool :=
  arrives e.changed.coverUrl e.coverUrl && peek m.coverUrl ≠ 0 && m.coverUrl ≠ e.coverUrl

def durationChanged : Bool :=
  e.changed.duration && e.durationMs > 0 && m.durationMs > 0 &&
    clampMiplayMs e.durationMs ≠ m.durationMs

def newTrack : Bool :=
  m.idChanged e || m.audioIdChanged e || m.coverChanged e || m.durationChanged e ||
    m.titleChanged e

def lyricAsTitle : Bool := m.titleChanged e && peek m.title ≠ 0 && !m.newTrack e

/-- The old track is wiped out. -/
def wiped : MiplayMedia :=
  { m with
    id := [], audioId := [], title := [], artist := [], album := [], coverUrl := []
    durationMs := 0, positionMs := 0, anchorUs := 0
    lyricsUiClear := false, lyricsRefetch := true }

/-- The texts and the duration of an event. -/
def withFields (lyricAsTitle : Bool) : MiplayMedia :=
  { m with
    id := if arrives e.changed.id e.id then strncpy 64 e.id else m.id
    audioId := if arrives e.changed.audioId e.audioId then strncpy 64 e.audioId else m.audioId
    title := if arrives e.changed.title e.title then strncpy 128 e.title else m.title
    artist := if arrives e.changed.artist e.artist && (!lyricAsTitle || peek m.artist = 0) then
        strncpy 128 e.artist
      else m.artist
    album := if arrives e.changed.album e.album && (!lyricAsTitle || peek m.album = 0) then
        strncpy 128 e.album
      else m.album
    coverUrl := if arrives e.changed.coverUrl e.coverUrl && m.coverUrl ≠ e.coverUrl then
        strncpy miplayCoverSourceMax e.coverUrl
      else m.coverUrl
    durationMs := if e.changed.duration && e.durationMs > 0 then clampMiplayMs e.durationMs
      else m.durationMs }

def withPosition (nowUs : Int) : MiplayMedia :=
  if e.changed.position then
    { m with
      positionMs := clampMiplayMs e.positionMs
      anchorUs := if m.state = .playing then nowUs else m.anchorUs }
  else m

/-- `MIPLAY_PLAYER_STATE_*` as a `play_state_t`; `none` where it is out of range. -/
def playState : PlayerState → Option PlayState
  | .unknown => none
  | .stopped => some .stopped
  | .playing => some .playing
  | .paused => some .paused

def withState (nowUs : Int) : MiplayMedia :=
  if e.changed.playerState then
    match playState e.playerState with
    | none => m
    | some .playing => { m with state := .playing, anchorUs := nowUs }
    | some state =>
      { m with
        state := state
        positionMs := if e.changed.position then m.positionMs else getMiplayPositionMs nowUs m
        anchorUs := 0 }
  else m

/-- A new track of which neither the position nor the state is known. -/
def fromStart (nowUs : Int) : MiplayMedia :=
  { m with positionMs := 0, anchorUs := if m.state = .playing then nowUs else 0 }

/-- `strtoul(p, NULL, 10)` -/
def strtoul (p : Bytes) : Nat :=
  match scanNumber p with
  | none => 0
  | some (neg, n, _) =>
    if n > 4294967295 then 4294967295 else if neg then (4294967296 - n) % 4294967296 else n

/-- The lyrics are fetched once there is a title. -/
def fetchesLyrics (newTrack : Bool) : Bool := peek m.title ≠ 0 && (newTrack || m.lyricsRefetch)

/-- One turn of the loop of `consume_miplay_media_events_locked`. -/
def consumeEvent (nowUs : Int) : MiplayMedia × List UiOp :=
  let newTrack := m.newTrack e
  let lyricAsTitle := m.lyricAsTitle e
  let m₁ := if newTrack then m.wiped else m
  let coverArrives := arrives e.changed.coverUrl e.coverUrl && m₁.coverUrl ≠ e.coverUrl
  let m₂ := ((m₁.withFields e lyricAsTitle).withPosition e nowUs).withState e nowUs
  let m₃ :=
    if newTrack && !e.changed.position && !e.changed.playerState then m₂.fromStart nowUs else m₂
  let fetches := m₃.fetchesLyrics newTrack
  ({ m₃ with lyricsRefetch := m₃.lyricsRefetch && !fetches },
    (if newTrack then
      [.lyricsClear, .uiLyricsClear, .nextAlbumArt, .clearCover,
        .setTitle (Miplay.ascii "Xiaomi Speaker"), .setArtist (Miplay.ascii "Waiting...")]
      else []) ++
    (if e.changed.title && peek m₃.title ≠ 0 then [.setTitle m₃.title] else []) ++
    (if e.changed.artist && peek m₃.artist ≠ 0 && !lyricAsTitle then [.setArtist m₃.artist] else []) ++
    (if coverArrives then [.nextAlbumArt, .fetchAlbumArt m₃.coverUrl] else []) ++
    if fetches then
      [.lyricsFetch m₃.title m₃.artist (strtoul (if peek m₃.id ≠ 0 then m₃.id else m₃.audioId))]
    else [])

/-- `reset_miplay_media_locked` -/
def reset : MiplayMedia × List UiOp :=
  ({ m with
      id := [], audioId := [], title := [], artist := [], album := [], coverUrl := []
      state := .stopped, positionMs := 0, durationMs := 0, anchorUs := 0, lyricsRefetch := true },
    [.lyricsClear, .uiLyricsClear, .clearCover, .setTitle (Miplay.ascii "Xiaomi Speaker"),
      .setArtist (Miplay.ascii "Waiting...")])

/-- `cb_play_toggle` with a phone connected. -/
def playToggle (nowUs : Int) : MiplayMedia :=
  if m.state = .playing then { m with state := .paused }
  else { m with state := .playing, anchorUs := nowUs - m.positionMs * 1000 }

end MiplayMedia

end EspMiplay.Dlna
