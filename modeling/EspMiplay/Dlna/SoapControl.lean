import EspMiplay.Dlna.SeekTarget
import EspMiplay.Dlna.SoapArgs

/-!
# The control URLs

AVTransport, RenderingControl and ConnectionManager each have a handler. The first one receives
until it has as many bytes as the request announces; the other two act on what one call of
`httpd_req_recv` returns, and send nothing when that is nothing.

What a handler does is the callbacks it makes and the responses it sends. Positions and states
that a response shows are read elsewhere, so they are what the `Server` says.
-/

namespace EspMiplay.Dlna

open EspMiplay.Miplay (Bytes ascii atoi cstr decimal)

-- ---------------------------------------------------------------------------
-- Requests
-- ---------------------------------------------------------------------------

/-- `httpd_req_recv`: at most `n` bytes of what the network delivers next -/
def httpdReqRecv : List Bytes → Nat → Bytes × List Bytes
  | [], _ => ([], [])
  | piece :: pieces, n =>
    (piece.take n, if piece.length ≤ n then pieces else piece.drop n :: pieces)

/-- The loop of `handle_avt_control`: `none` where the connection ends before `need` bytes. -/
def recvBody (need : Nat) (pieces : List Bytes) : Option Bytes :=
  if _ : need = 0 then some []
  else
    let got := httpdReqRecv pieces need
    if _ : got.1 = [] then none else (recvBody (need - got.1.length) got.2).map (got.1 ++ ·)
termination_by need
decreasing_by
  exact Nat.sub_lt (Nat.pos_of_ne_zero ‹¬need = 0›) (List.length_pos_of_ne_nil ‹_›)

/-- What the responses show, and `s_metadata[16384]` -/
structure Server where
  transportState : Bytes
  volume : Int
  mute : Int
  metadata : Bytes

/-- The callbacks of `custom_dlna_config_t` that a request can make -/
inductive Call where
  | setUri (uri : Bytes)
  | setMetadata (metadata : Bytes)
  | setNextUri (uri metadata : Bytes)
  | play
  | pause
  | stop
  | seek (sec : Int)
  | next
  | previous
  | setVolume (v : Int)
  | setMute (v : Int)
  deriving DecidableEq

inductive Response where
  | soap (service action params : Bytes)
  | positionInfo
  | transportInfo
  | mediaInfo
  | error500
  deriving DecidableEq

/-- The text of `soap_response` -/
def soapText (service action params : Bytes) : Bytes :=
  ascii "<?xml version=\"1.0\" encoding=\"utf-8\"?>" ++
    (ascii "<s:Envelope xmlns:s=\"http://schemas.xmlsoap.org/soap/envelope/\"" ++
    (ascii " s:encodingStyle=\"http://schemas.xmlsoap.org/soap/encoding/\">" ++
    (ascii "<s:Body><u:" ++ (action ++ (ascii "Response xmlns:u=\"urn:schemas-upnp-org:service:" ++
    (service ++ (ascii ":1\">" ++ (params ++ (ascii "</u:" ++ (action ++
      ascii "Response></s:Body></s:Envelope>"))))))))))

/-- `soap_response`, which has 2048 bytes -/
def soapResponse (service action params : Bytes) : Response :=
  if (soapText service action params).length < 2048 then .soap service action params
  else .error500

/-- A decimal number, as `%d` has it -/
def printed (n : Int) : Bytes := if n < 0 then 0x2D :: decimal n.natAbs else decimal n.natAbs

-- ---------------------------------------------------------------------------
-- AVTransport
-- ---------------------------------------------------------------------------

/-- `parse_seek_target` -/
def seekTarget (body : Bytes) : Int :=
  let target := xmlGet body (ascii "Target") (List.replicate 32 0)
  if target.1 < 0 then -1 else parseSeekTarget (cstr target.2)

def transportActions (state : Bytes) : Bytes :=
  if state = ascii "PLAYING" then ascii "Pause,Stop,Seek,Next,Previous"
  else if state = ascii "PAUSED_PLAYBACK" then ascii "Play,Stop,Seek,Next,Previous"
  else ascii "Play,Pause,Stop,Seek,Next,Previous"

/-- The branches of `handle_avt_control`, on the whole body -/
def avtAction (s : Server) (action body : Bytes) :
    List Call × Response :=
  let respond := soapResponse (ascii "AVTransport") action
  if action = ascii "SetAVTransportURI" then
    let uri := xmlGet body (ascii "CurrentURI") (List.replicate 2048 0)
    if 0 ≤ uri.1 ∧ cstr uri.2 ≠ [] then
      let metadata := xmlGet body (ascii "CurrentURIMetaData") s.metadata
      ([.setUri (cstr uri.2), .setMetadata (cstr metadata.2)], respond [])
    else ([], respond [])
  else if action = ascii "Play" then ([.play], respond (ascii "<Speed>1</Speed>"))
  else if action = ascii "Pause" then ([.pause], respond [])
  else if action = ascii "Stop" then ([.stop], respond [])
  else if action = ascii "Seek" then
    let sec := seekTarget body
    (if 0 ≤ sec then [.seek sec] else [], respond [])
  else if action = ascii "Next" then ([.next], respond [])
  else if action = ascii "Previous" then ([.previous], respond [])
  else if action = ascii "GetPositionInfo" then ([], .positionInfo)
  else if action = ascii "GetTransportInfo" then ([], .transportInfo)
  else if action = ascii "GetMediaInfo" then ([], .mediaInfo)
  else if action = ascii "SetNextAVTransportURI" then
    let uri := xmlGet body (ascii "NextURI") (List.replicate 2048 0)
    let metadata := xmlGet body (ascii "NextURIMetaData") (List.replicate 2048 0)
    ([.setNextUri (cstr uri.2) (cstr metadata.2)], respond [])
  else if action = ascii "GetDeviceCapabilities" then
    ([], respond (ascii "<PlayMedia>NETWORK</PlayMedia><RecMedia>NOT_IMPLEMENTED</RecMedia>" ++
      ascii "<RecQualityModes>NOT_IMPLEMENTED</RecQualityModes>"))
  else if action = ascii "GetTransportSettings" then
    ([], respond (ascii "<PlayMode>NORMAL</PlayMode>" ++
      ascii "<RecQualityMode>NOT_IMPLEMENTED</RecQualityMode>"))
  else if action = ascii "GetCurrentTransportActions" then
    ([], respond (ascii "<Actions>" ++ (transportActions s.transportState ++
      ascii "</Actions>")))
  else ([], respond [])

/-- `handle_avt_control` -/
def avtControl (s : Server) (action : Bytes) (contentLen : Nat)
    (pieces : List Bytes) : List Call × List Response :=
  if contentLen = 0 ∨ 32768 < contentLen then ([], [.error500])
  else
    match recvBody contentLen pieces with
    | none => ([], [.error500])
    | some body =>
      let done := avtAction s action body
      (done.1, [done.2])

-- ---------------------------------------------------------------------------
-- RenderingControl and ConnectionManager
-- ---------------------------------------------------------------------------

/-- `char buf[16]`, `xml_get` and `atoi` -/
def numberArgument (body tag : Bytes) : Option Int :=
  let value := xmlGet body tag (List.replicate 16 0)
  if 0 ≤ value.1 then some (atoi (cstr value.2)) else none

/-- The branches of `rc_control_handler` -/
def rcAction (s : Server) (action body : Bytes) : List Call × Response :=
  let respond := soapResponse (ascii "RenderingControl") action
  if action = ascii "GetVolume" then
    ([], respond (ascii "<CurrentVolume>" ++ (printed s.volume ++ ascii "</CurrentVolume>")))
  else if action = ascii "SetVolume" then
    (((numberArgument body (ascii "DesiredVolume")).map Call.setVolume).toList, respond [])
  else if action = ascii "GetMute" then
    ([], respond (ascii "<CurrentMute>" ++ (printed s.mute ++ ascii "</CurrentMute>")))
  else if action = ascii "SetMute" then
    (((numberArgument body (ascii "DesiredMute")).map Call.setMute).toList, respond [])
  else if action = ascii "ListPresets" then
    ([], respond (ascii "<CurrentPresetNameList>FactoryDefaults</CurrentPresetNameList>"))
  else ([], respond [])

def supportedProtocols : Bytes :=
  ascii "http-get:*:audio/mpeg:*,http-get:*:audio/mp3:*,http-get:*:audio/x-mpeg:*," ++
    (ascii "http-get:*:audio/mp4:*,http-get:*:audio/ogg:*,http-get:*:audio/flac:*," ++
    (ascii "http-get:*:audio/x-flac:*,http-get:*:audio/wav:*,http-get:*:audio/x-wav:*," ++
    (ascii "http-get:*:audio/aac:*,http-get:*:audio/x-aac:*,http-get:*:audio/x-m4a:*," ++
    (ascii "http-get:*:audio/x-ms-wma:*,http-get:*:audio/L16:*," ++
    (ascii "http-get:*:audio/vnd.dlna.adts:*,http-get:*:audio/ape:*,http-get:*:audio/pcm:*," ++
      ascii "http-get:*:audio/opus:*,http-get:*:audio/*:*")))))

/-- The branches of `cm_control_handler` -/
def cmAction (action : Bytes) : Response :=
  let respond := soapResponse (ascii "ConnectionManager") action
  if action = ascii "GetProtocolInfo" then
    respond (ascii "<Source></Source><Sink>" ++ (supportedProtocols ++ ascii "</Sink>"))
  else if action = ascii "GetCurrentConnectionIDs" then
    respond (ascii "<ConnectionIDs>0</ConnectionIDs>")
  else if action = ascii "GetCurrentConnectionInfo" then
    respond (ascii "<RcsID>0</RcsID><AVTransportID>0</AVTransportID>" ++
      (ascii "<ProtocolInfo></ProtocolInfo><PeerConnectionManager></PeerConnectionManager>" ++
      (ascii "<PeerConnectionID>-1</PeerConnectionID><Direction>Input</Direction>" ++
      ascii "<Status>OK</Status>")))
  else respond []

/-- `char body[2048]`, and one call -/
def received (pieces : List Bytes) : Bytes := (httpdReqRecv pieces 2047).1

/-- `rc_control_handler` -/
def rcControl (s : Server) (action : Bytes) (pieces : List Bytes) : List Call × List Response :=
  if received pieces = [] then ([], [])
  else
    let done := rcAction s action (received pieces)
    (done.1, [done.2])

/-- `cm_control_handler` -/
def cmControl (action : Bytes) (pieces : List Bytes) : List Call × List Response :=
  if received pieces = [] then ([], []) else ([], [cmAction action])

end EspMiplay.Dlna
