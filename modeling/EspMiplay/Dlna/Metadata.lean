import EspMiplay.Dlna.MiplayMedia

/-!
# What a control point says about a track

The texts of SetAVTransportURI and what `dlna.c` reads from them: whether the URI is a
video (`is_video_uri`), and title, artist, duration and music id of the DIDL-Lite
metadata (`extract_tag`, `parse_duration_from_metadata`, `decode_html_entities`).

The loops of the source run over an index; here they run over the string, and
`skip` counts the bytes an entity has used up already.
-/

namespace EspMiplay.Dlna

open EspMiplay.Miplay (Bytes ascii peek cstr strstr strchr scanNumber isDigit toLower)

/-! ## Entities -/

def htmlEntities : List (Bytes × UInt8) :=
  [(ascii "&amp;", 0x26), (ascii "&lt;", 0x3C), (ascii "&gt;", 0x3E), (ascii "&quot;", 0x22),
    (ascii "&apos;", 0x27)]

/-- `html_unescape` of `len` bytes into a buffer with room for `room` more. -/
def htmlUnescape (room len skip : Nat) : Bytes → Bytes
  | [] => []
  | c :: cs =>
    if skip > 0 then htmlUnescape room (len - 1) (skip - 1) cs
    else if len = 0 ∨ room = 0 then []
    else
      match htmlEntities.find? fun e => e.1.isPrefixOf (c :: cs) with
      | some (entity, ch) => ch :: htmlUnescape (room - 1) (len - 1) (entity.length - 1) cs
      | none => c :: htmlUnescape (room - 1) (len - 1) 0 cs

/-- The bytes `decode_html_entities` writes for a code point. -/
def utf8Encode (codepoint : Nat) : Bytes :=
  if codepoint < 0x80 then [codepoint.toUInt8]
  else if codepoint < 0x800 then
    [(0xC0 ||| codepoint >>> 6).toUInt8, (0x80 ||| codepoint &&& 0x3F).toUInt8]
  else if codepoint < 0x10000 then
    [(0xE0 ||| codepoint >>> 12).toUInt8, (0x80 ||| codepoint >>> 6 &&& 0x3F).toUInt8,
      (0x80 ||| codepoint &&& 0x3F).toUInt8]
  else
    [(0xF0 ||| codepoint >>> 18).toUInt8, (0x80 ||| codepoint >>> 12 &&& 0x3F).toUInt8,
      (0x80 ||| codepoint >>> 6 &&& 0x3F).toUInt8, (0x80 ||| codepoint &&& 0x3F).toUInt8]

/-- `codepoint = codepoint * 10 + digit`, in 32 bits -/
def codepointOf (digits : Bytes) : Nat :=
  digits.foldl (fun n d => (10 * n + (d.toNat - 0x30)) % 4294967296) 0

/-- `decode_html_entities`, from position `pos` on -/
def decodeHtmlEntities (size pos skip : Nat) : Bytes → Bytes
  | [] => []
  | c :: cs =>
    if skip > 0 then decodeHtmlEntities size pos (skip - 1) cs
    else if c = 0 ∨ ¬(pos + 6 < size) then []
    else if c = 0x26 ∧ peek cs = 0x23 then
      let digits := (cs.drop 1).takeWhile isDigit
      let semicolon := if peek ((cs.drop 1).dropWhile isDigit) = 0x3B then 1 else 0
      let utf8 := utf8Encode (codepointOf digits)
      utf8 ++ decodeHtmlEntities size (pos + utf8.length) (1 + digits.length + semicolon) cs
    else c :: decodeHtmlEntities size (pos + 1) 0 cs

/-- What is left of it as a C string. -/
def decoded (size : Nat) (src : Bytes) : Bytes := cstr (decodeHtmlEntities size 0 0 src)

/-! ## Tags -/

/-- Behind the opening tag, where it is written with `&lt;`. -/
def skipEscapedTag : Bytes → Bytes
  | [] => []
  | c :: cs =>
    if c = 0 then c :: cs
    else if (ascii "&gt;").isPrefixOf (c :: cs) then cs.drop 3
    else if c = 0x3E then cs
    else if c = 0x2F ∧ peek cs = 0x3E then cs.drop 1
    else skipEscapedTag cs

/-- Behind the opening tag, where it is written with `<`. -/
def skipTag : Bytes → Bytes
  | [] => []
  | c :: cs =>
    if c = 0 then c :: cs
    else if c = 0x3E then cs
    else if c = 0x2F ∧ peek cs = 0x3E then cs.drop 1
    else skipTag cs

/-- The text up to `close`, unescaped. -/
def tagText (size : Nat) (p close : Bytes) : Option Bytes :=
  if peek p = 0 then none
  else (strstr close p).map fun rest => htmlUnescape (size - 1) (p.length - rest.length) 0 p

/-- `extract_tag`; `none` is the return value -1. -/
def extractTag (size : Nat) (xml tag : Bytes) : Option Bytes :=
  let open₁ := ascii "&lt;" ++ tag
  match strstr open₁ xml with
  | some p =>
    tagText size (skipEscapedTag (p.drop open₁.length)) (ascii "&lt;/" ++ tag ++ ascii "&gt;")
  | none =>
    let open₂ := ascii "<" ++ tag
    (strstr open₂ xml).bind fun p =>
      tagText size (skipTag (p.drop open₂.length)) (ascii "</" ++ tag ++ ascii ">")

/-! ## Duration -/

/-- One `%d`. -/
def scanInt (p : Bytes) : Option (Int × Bytes) :=
  (scanNumber p).map fun (neg, n, rest) =>
    (if neg then max (-(n : Int)) (-2147483648) else min (n : Int) 2147483647, rest)

/-- `sscanf(p, "%d:%d:%d", &h, &m, &s) >= 2`, in seconds -/
def scanTime (p : Bytes) : Option Int := do
  let (h, rest) ← scanInt p
  if peek rest ≠ 0x3A then none
  let (m, rest) ← scanInt (rest.drop 1)
  let s := if peek rest = 0x3A then (scanInt (rest.drop 1)).map Prod.fst else none
  return h * 3600 + m * 60 + s.getD 0

/-- `parse_duration_from_metadata`; `none` where it leaves the duration as it was. -/
def parseDuration (metadata : Bytes) : Option Int :=
  let p :=
    match strstr (ascii "duration=&quot;") metadata with
    | some p => some (p.drop 15)
    | none => (strstr (ascii "duration=\"") metadata).map (List.drop 10)
  (p.bind scanTime).bind fun total => if total > 0 then some total else none

/-! ## Videos -/

def videoExtensions : List Bytes :=
  [ascii ".mp4", ascii ".mov", ascii ".avi", ascii ".mkv", ascii ".wmv", ascii ".m4v",
    ascii ".3gp", ascii ".ts", ascii ".mts", ascii ".m2ts"]

/-- `is_video_uri` -/
def isVideoUri (uri : Bytes) : Bool :=
  let path := match strstr (ascii "://") uri with
    | some p => p.drop 3
    | none => uri
  match strchr 0x2F path with
  | none => false
  | some path =>
    let path := cstr path
    videoExtensions.any fun ext =>
      ext.length ≤ path.length && (path.drop (path.length - ext.length)).map toLower = ext

/-! ## What is displayed -/

structure TrackTexts where
  title : Bytes
  artist : Bytes
  musicId : Nat
  duration : Option Int
  deriving DecidableEq

/-- What `cb_set_metadata` extracts. -/
def extractTexts (metadata : Bytes) : TrackTexts where
  title := cstr ((extractTag 256 metadata (ascii "dc:title")).getD [])
  artist := cstr ((extractTag 256 metadata (ascii "upnp:artist")).getD [])
  musicId := MiplayMedia.strtoul (cstr ((extractTag 32 metadata (ascii "netease:musicId")).getD []))
  duration := parseDuration metadata

end EspMiplay.Dlna
