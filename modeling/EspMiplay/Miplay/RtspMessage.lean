import EspMiplay.Miplay.State
import EspMiplay.Miplay.Text

/-!
# RTSP messages

What `rtsp_read_msg` makes of the accumulated bytes between two `recv` calls:
interleaved RTP frames and leftovers are dropped from the front, and a message
is handed out once its headers and its body are there.

`rtspScan` restarts from the front after every `recv`; the source does so too,
except while it waits for a body: then it goes on with that message, whatever
else has come in behind it (`rtspResume`).
-/

namespace EspMiplay.Miplay

/-- `RTSP_BUF_SIZE` -/
def rtspBufSize : Nat := 2048

def crlf : Bytes := [0x0D, 0x0A]

/-- The line up to the next CRLF, and what follows it. -/
def rtspLine (p : Bytes) : Option (Bytes × Bytes) :=
  (strstr crlf p).map fun e => (p.take (p.length - e.length), e.drop 2)

def isBlank (c : UInt8) : Bool := c = 0x20 ∨ c = 0x09

/-- `rtsp_find_header_value`: the value and everything behind it. A line is at
least two bytes long, so the length is fuel enough. -/
def rtspFindHeaderValue (name : Bytes) : Nat → Bytes → Option Bytes
  | 0, _ => none
  | fuel + 1, headers =>
    match rtspLine headers with
    | none => none
    | some (line, rest) =>
      if line = [] then none
      else if line.length > name.length ∧ eqIgnoreCase (line.take name.length) name then
        let colon := skipWhile isBlank (line.drop name.length)
        if peek colon = 0x3A then some (skipWhile isBlank (colon.drop 1) ++ crlf ++ rest)
        else rtspFindHeaderValue name fuel rest
      else rtspFindHeaderValue name fuel rest

def rtspHeader (name : String) (headers : Bytes) : Option Bytes :=
  rtspFindHeaderValue (ascii name) headers.length headers

def rtspMethods : List Bytes :=
  [ascii "OPTIONS ", ascii "GET_PARAMETER ", ascii "SET_PARAMETER ", ascii "SETUP ",
    ascii "PLAY ", ascii "TEARDOWN ", ascii "PAUSE ", ascii "TIME_OFFSET ", ascii "VIDEO_LATENCY "]

def rtspIsMessageStart (p : Bytes) : Bool :=
  (ascii "RTSP/1.").isPrefixOf p || rtspMethods.any fun m => m.isPrefixOf p

/-- The distance to a message start behind a CRLF. -/
def rtspFindBehindCrlf (p : Bytes) (i : Nat) : Option Nat :=
  match p with
  | [] => none
  | c :: cs =>
    if crlf.isPrefixOf (c :: cs) && rtspIsMessageStart (cs.drop 1) then some (i + 2)
    else rtspFindBehindCrlf cs (i + 1)

/-- `none` for -1. -/
def rtspFindMessageStart (p : Bytes) : Option Nat :=
  if rtspIsMessageStart p then some 0 else rtspFindBehindCrlf p 0

/-- Complete interleaved frames in front are skipped. -/
def rtspSkipInterleaved : Nat → Bytes → Bytes
  | 0, p => p
  | fuel + 1, p =>
    if p.length ≥ 4 ∧ peek p = 0x24 then
      let len := (p.getD 2 0).toNat * 256 + (p.getD 3 0).toNat
      if p.length < 4 + len then p else rtspSkipInterleaved fuel (p.drop (4 + len))
    else p

inductive RtspScan where
  /-- wait for more, for a body or not; the buffer as it is now -/
  | more (buf : Bytes) (inBody : Bool)
  | message (headers body rest : Bytes)
  /-- return -1; `EMSGSIZE` is set unless the buffer is just full -/
  | fail (buf : Bytes) (setsErrno : Bool)

/-- The length of the body behind headers of `hdrLen` bytes. -/
def rtspContentLen (p : Bytes) (hdrLen : Nat) : Int :=
  match rtspHeader "Content-Length" (p.take hdrLen) with
  | some v => atoi v
  | none =>
    let rest := p.drop hdrLen
    if rest = [] ∨ rtspIsMessageStart rest then 0
    else
      match rtspFindMessageStart rest with
      | some n => if n > 0 then n else rest.length
      | none => rest.length

/-- A message whose headers end after `hdrLen` bytes. -/
def rtspTakeMessage (p : Bytes) (hdrLen : Nat) : RtspScan :=
  if hdrLen ≥ rtspBufSize then .fail p true
  else
    let contentLen := rtspContentLen p hdrLen
    if contentLen < 0 ∨ hdrLen + contentLen.toNat ≥ rtspBufSize then .fail p true
    else if p.length - hdrLen < contentLen.toNat then .more p true
    else
      .message (p.take hdrLen) (((p.drop hdrLen).take contentLen.toNat).take (rtspBufSize - 1))
        (p.drop (hdrLen + contentLen.toNat))

/-- The end of the headers is looked for in front of the buffer. -/
def rtspScanHeaders (p : Bytes) : RtspScan :=
  match strstr (crlf ++ crlf) p with
  | none => .more p false
  | some e => rtspTakeMessage p (p.length - e.length + 4)

/-- The loop of `rtsp_read_msg` up to the next `recv`; every turn but the last
drops bytes. -/
def rtspScan : Nat → Bytes → RtspScan
  | 0, p => .more p false
  | fuel + 1, p =>
    if p.length ≥ rtspBufSize - 1 then .fail p false
    else
      let p := rtspSkipInterleaved p.length p
      if peek p = 0x24 then .more p false
      else
        let junk := p ≠ [] ∧ rtspIsMessageStart p = false
        match (if junk then rtspFindMessageStart p else none) with
        | some n =>
          if n > 0 then rtspScan fuel (p.drop n) else rtspScanHeaders p
        | none =>
          if junk ∧ (strstr crlf p).isSome then rtspScan fuel []
          else rtspScanHeaders p

/-- What a `recv` is followed by. One for a body leads back to its message, also
when the buffer is full by now; a call of its own starts like any other `recv`. -/
def rtspResume (inBody : Bool) (p : Bytes) : RtspScan :=
  if inBody then rtspScanHeaders p else rtspScan (p.length + 1) p

/-- `rtsp_get_cseq`. -/
def rtspGetCseq (headers : Bytes) : Int := (rtspHeader "CSeq" headers).elim 0 atoi

/-- `sscanf(headers, "%31s", method)`. -/
def rtspMethod (headers : Bytes) : Bytes :=
  ((skipWhile isSpace headers).takeWhile fun c => !isSpace c && c ≠ 0).take 31

def rtspIsResponse (headers : Bytes) : Bool := (ascii "RTSP/1.0 ").isPrefixOf headers

def rtspHas (needle : String) (p : Bytes) : Bool := (strstr (ascii needle) p).isSome

/-- A GET_PARAMETER that asks for the capabilities. -/
def rtspAsksCapabilities (body : Bytes) : Bool :=
  rtspHas "wfd_audio_codecs" body || rtspHas "wfd_client_rtp_ports" body ||
    rtspHas "session_enable" body || rtspHas "wfd_support_secure_win" body

example : rtspScan 100 (ascii "PLAY rtsp://a RTSP/1.0\r\nCSeq: 3\r\n\r\nX") =
    .message (ascii "PLAY rtsp://a RTSP/1.0\r\nCSeq: 3\r\n\r\n") (ascii "X") [] := rfl

end EspMiplay.Miplay
