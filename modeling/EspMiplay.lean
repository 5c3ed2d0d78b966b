import EspMiplay.Lib.Cbc
import EspMiplay.Lib.Framing
import EspMiplay.Lib.Locks
import EspMiplay.Lib.Transition
import EspMiplay.Lib.Effect
import EspMiplay.Miplay.Bytes
import EspMiplay.Miplay.SafetyData
import EspMiplay.Miplay.SafetyConversation
import EspMiplay.Miplay.Receive
import EspMiplay.Miplay.State
import EspMiplay.Miplay.Text
import EspMiplay.Miplay.Opack
import EspMiplay.Miplay.Json
import EspMiplay.Miplay.Media
import EspMiplay.Miplay.Session
import EspMiplay.Miplay.RtspMessage
import EspMiplay.Miplay.Rtsp
import EspMiplay.Miplay.Auth
import EspMiplay.Miplay.Control
import EspMiplay.Miplay.System
import EspMiplay.Miplay.Effects
import EspMiplay.Miplay.SessionTable
import EspMiplay.Miplay.Channels
import EspMiplay.Miplay.Roster
import EspMiplay.Miplay.Registers
import EspMiplay.Miplay.Isolation
import EspMiplay.Miplay.ControlSteps
import EspMiplay.Miplay.Service
import EspMiplay.Miplay.Route
import EspMiplay.Miplay.Handshake
import EspMiplay.Miplay.Corrupt
import EspMiplay.Miplay.Connected
import EspMiplay.Miplay.Mutexes
import EspMiplay.Miplay.PauseGate
import EspMiplay.Miplay.TsMedia
import EspMiplay.Miplay.PesHeader
import EspMiplay.Miplay.RtpData
import EspMiplay.Miplay.Packetisation
import EspMiplay.Miplay.RtspFraming
import EspMiplay.Lyrics.Fetch
import EspMiplay.Lyrics.Interleaving
import EspMiplay.Dlna.MediaQueue
import EspMiplay.Dlna.MiplayMedia
import EspMiplay.Dlna.TrackSplit
import EspMiplay.Dlna.MiplayPosition
import EspMiplay.Dlna.Volume
import EspMiplay.Dlna.Metadata
import EspMiplay.Dlna.Player
import EspMiplay.Dlna.PlayerSteps
import EspMiplay.Dlna.NextTrack
import EspMiplay.Dlna.UserPause
import EspMiplay.Dlna.PlayerPosition
import EspMiplay.Dlna.NowPlaying
import EspMiplay.Dlna.CoverArt
import EspMiplay.Miplay.JsonForm
import EspMiplay.Miplay.OpackForm
import EspMiplay.Miplay.MediaForms
import EspMiplay.Miplay.MediaDecoders
import EspMiplay.Miplay.VolumeSave
import EspMiplay.Dlna.Subscriptions
import EspMiplay.Wifi.Provision
import EspMiplay.Wifi.ProvisionSteps
import EspMiplay.Wifi.Session
import EspMiplay.Wifi.Proven
import EspMiplay.Wifi.Join
import EspMiplay.Wifi.Online
import EspMiplay.Dlna.PipeMoves
import EspMiplay.Dlna.Handover
import EspMiplay.Dlna.Chime
import EspMiplay.Dlna.Grace
import EspMiplay.Dlna.Eventing
import EspMiplay.Dlna.OneHandler
import EspMiplay.Dlna.ResumePoint
import EspMiplay.Dlna.ResumeKept
import EspMiplay.Dlna.ResumeStep
import EspMiplay.Miplay.RtspStart
import EspMiplay.Miplay.Envelope
import EspMiplay.Miplay.TsLocal
import EspMiplay.Miplay.MediaReader
import EspMiplay.Miplay.Keepalive
import EspMiplay.Miplay.Undelivered
import EspMiplay.Dlna.WlanPage
import EspMiplay.Miplay.KeyParse
import EspMiplay.Dlna.OneCodec
import EspMiplay.Miplay.StaleTasks
import EspMiplay.Lyrics.Lrc
import EspMiplay.Lyrics.Karaoke
import EspMiplay.Lib.FormUrl
import EspMiplay.Lyrics.Keyword
import EspMiplay.Lyrics.Unescape
import EspMiplay.Miplay.OpackFields
import EspMiplay.Miplay.OpackReader
import EspMiplay.Miplay.OpackWriting
import EspMiplay.Miplay.PlayerStates
import EspMiplay.Lib.Json
import EspMiplay.Miplay.JsonLookup
import EspMiplay.Miplay.JsonStrings
import EspMiplay.Lib.Base64
import EspMiplay.Miplay.CoverSize
import EspMiplay.Dlna.CoverSource
import EspMiplay.Miplay.Airkan
import EspMiplay.Lib.Dns
import EspMiplay.Miplay.Announce
import EspMiplay.Miplay.AnnounceDecoded
import EspMiplay.Lib.JsonTokens
import EspMiplay.Lyrics.Tokens
import EspMiplay.Lyrics.FieldLookup
import EspMiplay.Lyrics.PseudoKlyric
import EspMiplay.Lyrics.LineMap
import EspMiplay.Lyrics.Candidates
import EspMiplay.Lyrics.KlyricParse
import EspMiplay.Lyrics.KuwoList
import EspMiplay.Lyrics.KuwoPairs
import EspMiplay.Miplay.StreamSource
import EspMiplay.Miplay.OneStream
import EspMiplay.Lyrics.Response
import EspMiplay.Lyrics.Repeat
import EspMiplay.Lyrics.Jsmn
import EspMiplay.Lyrics.JsmnDocument
import EspMiplay.Miplay.LanPacket
import EspMiplay.Miplay.LanDiscovery
import EspMiplay.Gmf.Task
import EspMiplay.Gmf.TaskRuns
import EspMiplay.Dlna.Highlight
import EspMiplay.Dlna.CoverScale
import EspMiplay.Dlna.NearEnd
import EspMiplay.Dlna.Search
import EspMiplay.Dlna.SeekTarget
import EspMiplay.Lib.Xml
import EspMiplay.Dlna.LastChange
import EspMiplay.Dlna.SoapArgs
import EspMiplay.Dlna.TitleText
import EspMiplay.Lib.Average
import EspMiplay.Lib.Mealy
import EspMiplay.Battery.Filter
import EspMiplay.Battery.Charging
import EspMiplay.Wifi.CaptiveDns
import EspMiplay.Lib.JsonWalk
import EspMiplay.Wifi.ScanReply
import EspMiplay.Wifi.ScanList
import EspMiplay.Dlna.SoapControl
import EspMiplay.Dlna.Segments
import EspMiplay.Dlna.StreamUrl
import EspMiplay.Dlna.Standby
import EspMiplay.Dlna.CommandQueue
import EspMiplay.Wifi.Posted
import EspMiplay.Lib.XmlTree
import EspMiplay.Dlna.SoapEcho
import EspMiplay.Dlna.LyricScreen
import EspMiplay.Gmf.Block
import EspMiplay.Gmf.BlockSeek
