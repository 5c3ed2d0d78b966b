import EspMiplay.Miplay.State
import EspMiplay.Miplay.Text

/-!
# OPack metadata

The OPack-like encoding of `mediaInfoEx` and of notify payloads: a label
(length byte and characters), a type byte and a value. A position in the input
is the rest of the input from there on; `len` is the end of that list.

Allocations are taken from a window of outcomes (`heap`), one index for each
allocation of the function.
-/

namespace EspMiplay.Miplay

def miplayCoverSourceMax : Nat := 64 * 1024

/-! ## Reading -/

def opackU32Be (p : Bytes) : Nat :=
  (getBe32 (p.getD 0 0) (p.getD 1 0) (p.getD 2 0) (p.getD 3 0)).toNat

def opackU64Be (p : Bytes) : Nat := (p.take 8).foldl (fun v b => v * 256 + b.toNat) 0

/-- The label, cut to its buffer, and the rest. -/
def opackReadLabel (labelSize : Nat) : Bytes → Option (Bytes × Bytes)
  | [] => none
  | n :: rest =>
    if n.toNat = 0 ∨ n.toNat > rest.length then none
    else some (cstr (rest.take (min n.toNat (labelSize - 1))), rest.drop n.toNat)

/-- A value as `opack_read_value` reports it. -/
inductive OpackValue where
  | integer (n : Nat)
  | string (s : Bytes)
  /-- a nested object, skipped -/
  | object
  deriving DecidableEq

def opackReadValue (stringSize : Nat) : Bytes → Option (OpackValue × Bytes)
  | [] => none
  | t :: rest =>
    if t = 0x03 then
      match rest with
      | [] => none
      | b :: rest => some (.integer b.toNat, rest)
    else if t = 0x06 ∨ t = 0x07 then
      if rest.length < 4 then none else some (.integer (opackU32Be rest), rest.drop 4)
    else if t = 0x09 then
      if rest.length < 8 then none else some (.integer (opackU64Be rest), rest.drop 8)
    else if t = 0x14 then
      if rest.length < 4 then none
      else
        let n := opackU32Be rest
        let rest := rest.drop 4
        if n > rest.length then none
        else some (.string (cstr (rest.take (min n (stringSize - 1)))), rest.drop n)
    else if t = 0x16 then
      if rest.length < 4 then none
      else
        let n := opackU32Be rest
        let rest := rest.drop 4
        if n > rest.length then none else some (.object, rest.drop n)
    else none

def opackIntegerToInt (value : Nat) : Int := if value > 0x7fffffff then 0x7fffffff else value

def opackStringToInt (value : Bytes) : Int :=
  match strtoull value with
  | none => 0
  | some (n, _) => opackIntegerToInt n

/-- 2 = playing, 3 = paused, 0 = idle. -/
def miplayWireStateToPlayer (state : Int) : PlayerState :=
  if state = 2 then .playing
  else if state = 3 then .paused
  else if state = 0 then .stopped
  else .unknown

/-! ## Events -/

def miplayMediaEventInit : MediaEvent where
  changed := {}
  id := []
  audioId := []
  title := []
  artist := []
  album := []
  coverUrl := []
  durationMs := 0
  positionMs := 0
  status := -1
  deviceState := -1
  playerState := .unknown

/-- `miplay_media_event_reset_control` clears every field a control command reads. -/
def miplayMediaEventResetControl : MediaEvent := miplayMediaEventInit

/-- An integer field: the number itself, or the digits of a string. -/
def fieldInt64 : OpackValue → Option Int
  | .integer n => some (toInt64 n)
  | .string s => some (toInt64 ((strtoull s).elim 0 Prod.fst))
  | .object => none

def fieldInt : OpackValue → Option Int
  | .integer n => some (opackIntegerToInt n)
  | .string s => some (opackStringToInt s)
  | .object => none

def idNames : List Bytes := [ascii "id", ascii "mediaId", ascii "mId", ascii "media_id"]
def audioIdNames : List Bytes := [ascii "mAudioId", ascii "audioId", ascii "audio_id"]
def titleNames : List Bytes := [ascii "mTitle", ascii "title", ascii "songName"]
def artistNames : List Bytes := [ascii "mArtist", ascii "artist", ascii "singer"]
def albumNames : List Bytes := [ascii "mAlbum", ascii "album"]
def coverNames : List Bytes :=
  [ascii "mCoverUrl", ascii "coverUrl", ascii "cover", ascii "mArt", ascii "artwork",
    ascii "artworkUrl", ascii "albumArt", ascii "albumArtURI", ascii "albumArtUrl",
    ascii "cover_url", ascii "art"]
def durationNames : List Bytes :=
  [ascii "mDuration", ascii "duration", ascii "durationMs", ascii "duration_ms"]
def positionNames : List Bytes :=
  [ascii "mPosition", ascii "position", ascii "positionMs", ascii "position_ms"]
def statusNames : List Bytes := [ascii "status", ascii "playStatus"]
def deviceStateNames : List Bytes :=
  [ascii "mDeviceState", ascii "deviceState", ascii "state", ascii "setState",
    ascii "mediaState", ascii "playState"]

/-- The event with one named field applied; `none` if the name (with a value of
that type) is not recognised. -/
def miplayApplyMediaField (name : Bytes) (v : OpackValue) (e : MediaEvent) : Option MediaEvent :=
  match v with
  | .string s =>
    if name ∈ idNames then
      some { e with id := strncpy 64 s, changed := { e.changed with id := true } }
    else if name ∈ audioIdNames then
      some { e with audioId := strncpy 64 s, changed := { e.changed with audioId := true } }
    else if name ∈ titleNames then
      some { e with title := strncpy 128 s, changed := { e.changed with title := true } }
    else if name ∈ artistNames then
      some { e with artist := strncpy 128 s, changed := { e.changed with artist := true } }
    else if name ∈ albumNames then
      some { e with album := strncpy 128 s, changed := { e.changed with album := true } }
    else if name ∈ coverNames then
      some { e with coverUrl := strncpy miplayCoverSourceMax s,
                    changed := { e.changed with coverUrl := true } }
    else applyNumber
  | _ => applyNumber
where
  applyNumber : Option MediaEvent :=
    if name ∈ durationNames then
      (fieldInt64 v).map fun n =>
        { e with durationMs := n, changed := { e.changed with duration := true } }
    else if name ∈ positionNames then
      (fieldInt64 v).map fun n =>
        { e with positionMs := n, changed := { e.changed with position := true } }
    else if name ∈ statusNames then
      (fieldInt v).map fun n =>
        { e with status := n, changed := { e.changed with status := true } }
    else if name ∈ deviceStateNames then
      (fieldInt v).map fun n =>
        let player := miplayWireStateToPlayer n
        { e with
          deviceState := n
          playerState := player
          changed := { e.changed with
            deviceState := true
            playerState := e.changed.playerState || player ≠ .unknown } }
    else none

/-- The `while (offset < object_end)` loop; `none` when a field is malformed.
Also says whether some field was recognised. -/
def opackFields : Nat → Bytes → MediaEvent → Bool → Option (MediaEvent × Bool)
  | _, [], e, seen => some (e, seen)
  | 0, _ :: _, _, _ => none
  | fuel + 1, rest, e, seen => do
    let (name, rest) ← opackReadLabel 64 rest
    let (v, rest) ← opackReadValue miplayCoverSourceMax rest
    match miplayApplyMediaField name v e with
    | some e => opackFields fuel rest e true
    | none => opackFields fuel rest e seen

/-- Allocations 0 and 1 of the window. -/
def miplayParseMediaInfoEx (heap : Nat → Bool) (payload : Bytes) : Option MediaEvent := do
  let (root, rest) ← opackReadLabel 32 payload
  if root ≠ ascii "mediaInfoEx" then none
  match rest with
  | [] => none
  | t :: rest =>
    if t ≠ 0x16 ∨ rest.length < 4 then none
    else
      let n := opackU32Be rest
      let rest := rest.drop 4
      if n > rest.length ∨ !heap 0 ∨ !heap 1 then none
      else do
        -- every field takes at least three bytes, so the length is fuel enough
        let (e, _) ← opackFields n (rest.take n) miplayMediaEventInit false
        if e.changed.any then some e else none

/-- `none` for `false`: every caller initialises its event again before it reads
what a refused payload left in it. Allocations 0 to 2. -/
def miplayParseNotifyPayload (heap : Nat → Bool) (payload : Bytes) (e : MediaEvent) :
    Option MediaEvent :=
  if payload = [] then none
  else
    match miplayParseMediaInfoEx heap payload with
    | some e' => some e'
    | none => do
      let (root, rest) ← opackReadLabel 32 payload
      if !heap 2 then none
      let (v, rest) ← opackReadValue miplayCoverSourceMax rest
      let first := miplayApplyMediaField root v e
      let (e', recognized) ← opackFields rest.length rest (first.getD e) first.isSome
      if recognized && e'.changed.any then some e' else none

/-- No label, no payload: a first byte of zero is refused at once. -/
theorem opackReadLabel_zero (size : Nat) (rest : Bytes) :
    opackReadLabel size (0 :: rest) = none := by
  simp [opackReadLabel]

theorem miplayParseNotifyPayload_zero (heap : Nat → Bool) (rest : Bytes) (e : MediaEvent) :
    miplayParseNotifyPayload heap (0 :: rest) e = none := by
  simp [miplayParseNotifyPayload, miplayParseMediaInfoEx, opackReadLabel_zero]

/-! ## Writing -/

def opackLabel (label : Bytes) : Bytes := UInt8.ofNat label.length :: label

/-- `capacity - offset - 1` is a `size_t`: it wraps when the buffer is full. -/
def opackWriteLabel (capacity : Nat) (data : Bytes) (label : Bytes) : Option Bytes :=
  if label.length = 0 ∨ label.length > 255 ∨ data.length > capacity ∨
      label.length > sizeSub (capacity - data.length) 1 then none
  else some (data ++ opackLabel label)

def opackWriteStringField (capacity : Nat) (data name value : Bytes) : Option Bytes := do
  let data ← opackWriteLabel capacity data name
  if data.length > capacity ∨ capacity - data.length < 5 ∨
      value.length > capacity - data.length - 5 then none
  else some (data ++ 0x14 :: putBe32 (UInt32.ofNat value.length) ++ value)

/-- `mediaInfoEx { mTitle: "" }` -/
def miplayBuildMediaInfoEx (capacity : Nat) : Option Bytes := do
  if capacity < 32 then none
  let data ← opackWriteLabel capacity [] (ascii "mediaInfoEx")
  if data.length > capacity - 1 - 4 then none
  let object ← opackWriteStringField (capacity - data.length - 5) [] (ascii "mTitle") []
  some (data ++ 0x16 :: putBe32 (UInt32.ofNat object.length) ++ object)

end EspMiplay.Miplay
