import EspMiplay.Miplay.Opack

/-!
# JSON metadata

The hand-written JSON reader of SetMediaInfo and SetMediaState: members are
found by searching the text for their quoted key, strings are decoded into
fixed buffers, and one level of JSON quoted inside a string is looked into.

A failed copy leaves what it had written in the buffer, and a later copy
overwrites the buffer only as far as it gets; `overlay` keeps that.
-/

namespace EspMiplay.Miplay

/-! ## Members -/

def jsonSpace (c : UInt8) : Bool := c = 0x20 ∨ c = 0x09 ∨ c = 0x0D ∨ c = 0x0A

/-- `p == json || strchr("{, \t\r\n", p[-1]) != NULL` -/
def atObjectKey : Option UInt8 → Bool
  | none => true
  | some c => c = 0x7B ∨ c = 0x2C ∨ jsonSpace c

/-- `miplay_json_find_value` from a position on, given the character before it. -/
def jsonFindFrom (key : Bytes) : Option UInt8 → Bytes → Option Bytes
  | _, [] => none
  | prev, c :: cs =>
    if key.isPrefixOf (c :: cs) then
      let after := skipWhile jsonSpace ((c :: cs).drop key.length)
      if atObjectKey prev ∧ peek after = 0x3A then some (skipWhile jsonSpace (after.drop 1))
      else jsonFindFrom key (some c) cs
    else if c = 0 then none
    else jsonFindFrom key (some c) cs

def miplayJsonFindValue (json key : Bytes) : Option Bytes := jsonFindFrom key none json

/-! ## Strings -/

def miplayJsonHexDigit (c : UInt8) : Option Nat :=
  if 0x30 ≤ c ∧ c ≤ 0x39 then some (c.toNat - 0x30)
  else if 0x61 ≤ c ∧ c ≤ 0x66 then some (c.toNat - 0x61 + 10)
  else if 0x41 ≤ c ∧ c ≤ 0x46 then some (c.toNat - 0x41 + 10)
  else none

/-- Four hexadecimal digits. -/
def jsonHex4 (p : Bytes) : Option Nat := do
  let a ← miplayJsonHexDigit (p.getD 0 0)
  let b ← miplayJsonHexDigit (p.getD 1 0)
  let c ← miplayJsonHexDigit (p.getD 2 0)
  let d ← miplayJsonHexDigit (p.getD 3 0)
  return ((a * 16 + b) * 16 + c) * 16 + d

/-- UTF-8. -/
def codepointBytes (cp : Nat) : Option Bytes :=
  if cp < 0x80 then some [UInt8.ofNat cp]
  else if cp < 0x800 then some [UInt8.ofNat (0xC0 + cp / 64), UInt8.ofNat (0x80 + cp % 64)]
  else if cp < 0x10000 then
    some [UInt8.ofNat (0xE0 + cp / 4096), UInt8.ofNat (0x80 + cp / 64 % 64),
      UInt8.ofNat (0x80 + cp % 64)]
  else if cp ≤ 0x10FFFF then
    some [UInt8.ofNat (0xF0 + cp / 262144), UInt8.ofNat (0x80 + cp / 4096 % 64),
      UInt8.ofNat (0x80 + cp / 64 % 64), UInt8.ofNat (0x80 + cp % 64)]
  else none

/-- `miplay_json_append_codepoint`: room for the bytes and one more is needed. -/
def miplayJsonAppendCodepoint (outSize : Nat) (out : Bytes) (cp : Nat) : Option Bytes := do
  let bs ← codepointBytes cp
  if out.length + bs.length + 1 > outSize then none else some (out ++ bs)

/-- The character an escape of one letter stands for. -/
def shortEscape (c : UInt8) : Option UInt8 :=
  if c = 0x22 ∨ c = 0x5C ∨ c = 0x2F then some c
  else if c = 0x62 then some 0x08
  else if c = 0x66 then some 0x0C
  else if c = 0x6E then some 0x0A
  else if c = 0x72 then some 0x0D
  else if c = 0x74 then some 0x09
  else none

/-- `\u` and what follows it: the code point and the rest. -/
def unicodeEscape (p : Bytes) : Option (Nat × Bytes) := do
  let cp ← jsonHex4 p
  let p := p.drop 4
  if 0xD800 ≤ cp ∧ cp ≤ 0xDBFF ∧ p.getD 0 0 = 0x5C ∧ p.getD 1 0 = 0x75 then
    let low ← jsonHex4 (p.drop 2)
    if low < 0xDC00 ∨ low > 0xDFFF then none
    else some (0x10000 + (cp - 0xD800) * 1024 + (low - 0xDC00), p.drop 6)
  else if 0xD800 ≤ cp ∧ cp ≤ 0xDFFF then none
  else some (cp, p)

/-- The loop of `miplay_json_copy_string` behind the opening quote: what it has
written, and whether it met the closing quote. Each turn consumes a character. -/
def jsonCopyChars (outSize : Nat) : Nat → Bytes → Bytes → Bytes × Bool
  | 0, _, out => (out, false)
  | fuel + 1, p, out =>
    match p with
    | [] => (out, false)
    | c :: p =>
      if c = 0 then (out, false)
      else if c = 0x22 then (out ++ [0], true)
      else if c ≠ 0x5C then
        if out.length + 1 ≥ outSize then (out, false)
        else jsonCopyChars outSize fuel p (out ++ [c])
      else
        match p with
        | [] => (out, false)
        | e :: p =>
          if e = 0x75 then
            match unicodeEscape p with
            | none => (out, false)
            | some (cp, p) =>
              match miplayJsonAppendCodepoint outSize out cp with
              | none => (out, false)
              | some out => jsonCopyChars outSize fuel p out
          else
            match shortEscape e with
            | none => (out, false)
            | some b =>
              if out.length + 1 ≥ outSize then (out, false)
              else jsonCopyChars outSize fuel p (out ++ [b])

/-- The bytes written over a buffer. -/
def overlay (written old : Bytes) : Bytes := written ++ old.drop written.length

/-- The buffer afterwards, and the return value. -/
def miplayJsonCopyString (json key : Bytes) (outSize : Nat) (out : Bytes) : Bytes × Bool :=
  match miplayJsonFindValue json key with
  | none => (out, false)
  | some p =>
    if peek p ≠ 0x22 then (out, false)
    else
      let (written, ok) := jsonCopyChars outSize p.length (p.drop 1) []
      (overlay written out, ok)

/-- Blanks removed at both ends. -/
def trimmed (s : Bytes) : Bytes :=
  ((skipWhile isSpace s).reverse.dropWhile isSpace).reverse

/-- The first alias whose string is not blank, trimmed. -/
def miplayJsonCopyStringAliases (json : Bytes) (outSize : Nat) :
    List Bytes → Bytes → Bytes × Bool
  | [], out => (out, false)
  | key :: keys, out =>
    match miplayJsonCopyString json key outSize out with
    | (out, false) => miplayJsonCopyStringAliases json outSize keys out
    | (out, true) =>
      let s := (trimmed (cstr out)).take (outSize - 1)
      if s = [] then miplayJsonCopyStringAliases json outSize keys out
      else (overlay (s ++ [0]) out, true)

/-! ## Numbers and states -/

def miplayJsonReadNumber (json key : Bytes) : Option Int := do
  let p ← miplayJsonFindValue json key
  let quoted := peek p = 0x22
  let (value, rest) ← strtoll (if quoted then p.drop 1 else p)
  if quoted ∧ peek rest ≠ 0x22 then none else some value

def miplayJsonReadNumberAliases (json : Bytes) (keys : List Bytes) : Option Int :=
  keys.findSome? (miplayJsonReadNumber json)

def miplayJsonReadStateAliases (json : Bytes) (keys : List Bytes) : Option Int :=
  match miplayJsonReadNumberAliases json keys with
  | some n => some n
  | none =>
    match miplayJsonCopyStringAliases json 32 keys [] with
    | (_, false) => none
    | (out, true) =>
      let state := cstr out
      if eqIgnoreCase state (ascii "playing") ∨ eqIgnoreCase state (ascii "play") then some 2
      else if eqIgnoreCase state (ascii "paused") ∨ eqIgnoreCase state (ascii "pause") then some 3
      else if eqIgnoreCase state (ascii "stopped") ∨ eqIgnoreCase state (ascii "stop") then some 0
      else none

/-! ## SetMediaInfo -/

def quoted (s : String) : Bytes := [0x22] ++ ascii s ++ [0x22]

def idKeys : List Bytes := [quoted "id", quoted "mId", quoted "mediaId", quoted "media_id"]
def audioIdKeys : List Bytes := [quoted "mAudioId", quoted "audioId", quoted "audio_id"]
def titleKeys : List Bytes :=
  [quoted "mTitle", quoted "title", quoted "songName", quoted "mSongName"]
def artistKeys : List Bytes :=
  [quoted "mArtist", quoted "artist", quoted "singer", quoted "artistName"]
def albumKeys : List Bytes := [quoted "mAlbum", quoted "album"]
def coverKeys : List Bytes :=
  [quoted "mCoverUrl", quoted "coverUrl", quoted "mArt", quoted "artwork", quoted "artworkUrl",
    quoted "albumArt", quoted "albumArtURI", quoted "albumArtUrl", quoted "cover_url",
    quoted "cover", quoted "art"]
def durationKeys : List Bytes :=
  [quoted "mDuration", quoted "duration", quoted "durationMs", quoted "duration_ms"]
def positionKeys : List Bytes :=
  [quoted "mPosition", quoted "position", quoted "positionMs", quoted "position_ms"]
def statusKeys : List Bytes :=
  [quoted "status", quoted "playStatus", quoted "setState", quoted "mediaState",
    quoted "playState"]
def deviceStateKeys : List Bytes :=
  [quoted "mDeviceState", quoted "deviceState", quoted "setState", quoted "mediaState",
    quoted "playState", quoted "state"]
def nestedKeys : List Bytes := [quoted "mediaInfo", quoted "mediaInfoEx", quoted "metadata"]

/-- The status members: they also set the player and device state they name. -/
def applyJsonStatus (value : Int) (e : MediaEvent) : MediaEvent :=
  let status := toInt32 value
  let player := miplayWireStateToPlayer status
  let e := { e with status := status, playerState := player,
                    changed := { e.changed with status := true } }
  if player ≠ .unknown then
    { e with deviceState := status,
             changed := { e.changed with deviceState := true, playerState := true } }
  else e

def applyJsonDeviceState (value : Int) (e : MediaEvent) : MediaEvent :=
  let state := toInt32 value
  let player := miplayWireStateToPlayer state
  { e with
    deviceState := state
    playerState := player
    changed := { e.changed with
      deviceState := true
      playerState := e.changed.playerState || player ≠ .unknown } }

/-- The members of one object: the event, and whether any was there. -/
def jsonMembers (json : Bytes) (e : MediaEvent) : MediaEvent × Bool :=
  let (id, okId) := miplayJsonCopyStringAliases json 64 idKeys e.id
  let (audioId, okAudioId) := miplayJsonCopyStringAliases json 64 audioIdKeys e.audioId
  let (title, okTitle) := miplayJsonCopyStringAliases json 128 titleKeys e.title
  let (artist, okArtist) := miplayJsonCopyStringAliases json 128 artistKeys e.artist
  let (album, okAlbum) := miplayJsonCopyStringAliases json 128 albumKeys e.album
  let (coverUrl, okCover) :=
    miplayJsonCopyStringAliases json miplayCoverSourceMax coverKeys e.coverUrl
  let duration := miplayJsonReadNumberAliases json durationKeys
  let position := miplayJsonReadNumberAliases json positionKeys
  let status := miplayJsonReadStateAliases json statusKeys
  let deviceState := miplayJsonReadStateAliases json deviceStateKeys
  let e : MediaEvent :=
    { e with
      id := id, audioId := audioId, title := title, artist := artist, album := album
      coverUrl := coverUrl
      durationMs := duration.getD e.durationMs
      positionMs := position.getD e.positionMs
      changed := { e.changed with
        id := e.changed.id || okId
        audioId := e.changed.audioId || okAudioId
        title := e.changed.title || okTitle
        artist := e.changed.artist || okArtist
        album := e.changed.album || okAlbum
        coverUrl := e.changed.coverUrl || okCover
        duration := e.changed.duration || duration.isSome
        position := e.changed.position || position.isSome } }
  let e := match status with
    | some n => applyJsonStatus n e
    | none => e
  let e := match deviceState with
    | some n => applyJsonDeviceState n e
    | none => e
  (e, okId || okAudioId || okTitle || okArtist || okAlbum || okCover || duration.isSome ||
    position.isSome || status.isSome || deviceState.isSome)

/-- One text field of the nested event, where the outer object has none. -/
def mergeText (size : Nat) (outerHas nestedHas : Bool) (outer nested : Bytes) : Bytes :=
  if nestedHas && !outerHas then strncpy size nested else outer

/-- The fields of the nested object that the outer one does not have. -/
def mergeNested (e n : MediaEvent) : MediaEvent :=
  { id := mergeText 64 e.changed.id n.changed.id e.id n.id
    audioId := mergeText 64 e.changed.audioId n.changed.audioId e.audioId n.audioId
    title := mergeText 128 e.changed.title n.changed.title e.title n.title
    artist := mergeText 128 e.changed.artist n.changed.artist e.artist n.artist
    album := mergeText 128 e.changed.album n.changed.album e.album n.album
    coverUrl := mergeText miplayCoverSourceMax e.changed.coverUrl n.changed.coverUrl e.coverUrl
      n.coverUrl
    durationMs := if n.changed.duration && !e.changed.duration then n.durationMs else e.durationMs
    positionMs := if n.changed.position && !e.changed.position then n.positionMs else e.positionMs
    status := if n.changed.status && !e.changed.status then n.status else e.status
    deviceState := if n.changed.deviceState && !e.changed.deviceState then n.deviceState
      else e.deviceState
    playerState := if n.changed.playerState && !e.changed.playerState then n.playerState
      else e.playerState
    changed :=
      { id := e.changed.id || n.changed.id
        audioId := e.changed.audioId || n.changed.audioId
        title := e.changed.title || n.changed.title
        artist := e.changed.artist || n.changed.artist
        album := e.changed.album || n.changed.album
        coverUrl := e.changed.coverUrl || n.changed.coverUrl
        duration := e.changed.duration || n.changed.duration
        position := e.changed.position || n.changed.position
        status := e.changed.status || n.changed.status
        deviceState := e.changed.deviceState || n.changed.deviceState
        playerState := e.changed.playerState || n.changed.playerState } }

/-- `miplay_parse_set_media_info_json_depth` at depth 1. Allocation 0. -/
def parseJsonNested (heap : Nat → Bool) (payload : Bytes) : Option MediaEvent :=
  if payload = [] ∨ payload.length > miplayMaxFramePayload ∨ !heap 0 then none
  else
    match jsonMembers (payload ++ [0]) miplayMediaEventInit with
    | (e, true) => some e
    | (_, false) => none

/-- The search for a nested object. The source hands the key table from the
`i`-th entry on to the alias reader. Allocations from `k` on. -/
def nestedObject (heap : Nat → Bool) (json : Bytes) (capacity : Nat) :
    List Bytes → Nat → Bytes → Option MediaEvent
  | [], _, _ => none
  | key :: keys, k, out =>
    match miplayJsonCopyStringAliases json capacity (key :: keys) out with
    | (out, false) => nestedObject heap json capacity keys k out
    | (out, true) =>
      if peek out ≠ 0x7B ∧ peek out ≠ 0x5B then nestedObject heap json capacity keys k out
      else if !heap k then nestedObject heap json capacity keys (k + 2) out
      else
        match parseJsonNested (fun n => heap (k + 1 + n)) (cstr out) with
        | none => nestedObject heap json capacity keys (k + 2) out
        | some n => some n

/-- The event it leaves, and the return value: a refused payload may leave parts
of texts behind. Allocation 0 is the copy of the payload, 1 the buffer for
nested objects. -/
def miplayParseSetMediaInfoJson (heap : Nat → Bool) (payload : Bytes) (e : MediaEvent) :
    MediaEvent × Bool :=
  if payload = [] ∨ payload.length > miplayMaxFramePayload ∨ !heap 0 then (e, false)
  else
    let json := payload ++ [0]
    let (e, ok) := jsonMembers json e
    if !heap 1 then (e, ok)
    else
      match nestedObject heap json (payload.length + 1) nestedKeys 2 [] with
      | some n => (mergeNested e n, true)
      | none => (e, ok)

/-! ## SetMediaState -/

/-- A bare state in a four-byte word. -/
def scalarState (p : Bytes) (e : MediaEvent) : Option MediaEvent :=
  let state := opackIntegerToInt (opackU32Be p)
  let player := miplayWireStateToPlayer state
  if player = .unknown then none
  else
    some { e with deviceState := state, playerState := player,
                  changed := { deviceState := true, playerState := true } }

/-- Allocation 0 is the event, 1 to 3 the notify reader's, from 4 on the JSON
reader's. -/
def miplayParseMediaStatePayload (heap : Nat → Bool) (payload : Bytes) (e : MediaEvent) :
    Option MediaEvent :=
  if payload = [] ∨ !heap 0 then none
  else
    match miplayParseNotifyPayload (fun n => heap (1 + n)) payload miplayMediaEventInit with
    | some e' => some e'
    | none =>
      match miplayParseSetMediaInfoJson (fun n => heap (4 + n)) payload miplayMediaEventInit with
      | (e', true) => some e'
      | (_, false) =>
        if payload.length = 4 then scalarState payload e
        else if payload.length = 5 ∧ payload.getD 0 0 = 0 then scalarState (payload.drop 1) e
        else none

/-! ## A text that starts with NUL holds no member -/

theorem jsonFindFrom_nul {key : Bytes} (hKey : key.headD 0 ≠ 0) (prev : Option UInt8)
    (rest : Bytes) : jsonFindFrom key prev (0 :: rest) = none := by
  cases key with
  | nil => exact absurd rfl hKey
  | cons k ks =>
    have hk : k ≠ 0 := hKey
    have hPrefix : (k :: ks).isPrefixOf (0 :: rest) = false := by
      simp [List.isPrefixOf, hk]
    rw [jsonFindFrom, hPrefix, if_neg (by decide), if_pos rfl]

theorem jsonCopyAliases_nul (rest : Bytes) (size : Nat) (keys : List Bytes) (out : Bytes)
    (hKeys : ∀ key ∈ keys, key.headD 0 ≠ 0) :
    miplayJsonCopyStringAliases (0 :: rest) size keys out = (out, false) := by
  induction keys generalizing out with
  | nil => rfl
  | cons key keys ih =>
    have hFind : miplayJsonFindValue (0 :: rest) key = none :=
      jsonFindFrom_nul (hKeys key (List.mem_cons_self ..)) none rest
    simp only [miplayJsonCopyStringAliases, miplayJsonCopyString, hFind]
    exact ih out fun k hk => hKeys k (List.mem_cons_of_mem _ hk)

theorem jsonReadNumber_nul (rest : Bytes) (keys : List Bytes)
    (hKeys : ∀ key ∈ keys, key.headD 0 ≠ 0) :
    miplayJsonReadNumberAliases (0 :: rest) keys = none := by
  refine List.findSome?_eq_none_iff.mpr fun key hKey => ?_
  have hFind : miplayJsonFindValue (0 :: rest) key = none :=
    jsonFindFrom_nul (hKeys key hKey) none rest
  simp [miplayJsonReadNumber, hFind]

theorem jsonReadState_nul (rest : Bytes) (keys : List Bytes)
    (hKeys : ∀ key ∈ keys, key.headD 0 ≠ 0) :
    miplayJsonReadStateAliases (0 :: rest) keys = none := by
  simp only [miplayJsonReadStateAliases, jsonReadNumber_nul rest keys hKeys,
    jsonCopyAliases_nul rest 32 keys [] hKeys]

theorem jsonMembers_nul (rest : Bytes) :
    jsonMembers (0 :: rest) miplayMediaEventInit = (miplayMediaEventInit, false) := by
  simp only [jsonMembers, jsonCopyAliases_nul rest _ idKeys _ (by decide),
    jsonCopyAliases_nul rest _ audioIdKeys _ (by decide),
    jsonCopyAliases_nul rest _ titleKeys _ (by decide),
    jsonCopyAliases_nul rest _ artistKeys _ (by decide),
    jsonCopyAliases_nul rest _ albumKeys _ (by decide),
    jsonCopyAliases_nul rest _ coverKeys _ (by decide),
    jsonReadNumber_nul rest durationKeys (by decide),
    jsonReadNumber_nul rest positionKeys (by decide),
    jsonReadState_nul rest statusKeys (by decide),
    jsonReadState_nul rest deviceStateKeys (by decide)]
  rfl

theorem nestedObject_nul (heap : Nat → Bool) (rest : Bytes) (capacity : Nat) (keys : List Bytes)
    (k : Nat) (out : Bytes) (hKeys : ∀ key ∈ keys, key.headD 0 ≠ 0) :
    nestedObject heap (0 :: rest) capacity keys k out = none := by
  induction keys generalizing out with
  | nil => rfl
  | cons key keys ih =>
    rw [nestedObject, jsonCopyAliases_nul rest capacity (key :: keys) out hKeys]
    exact ih out fun k hk => hKeys k (List.mem_cons_of_mem _ hk)

/-- A payload whose first byte is zero leaves a fresh event as it is. -/
theorem miplayParseSetMediaInfoJson_nul (heap : Nat → Bool) (rest : Bytes) :
    miplayParseSetMediaInfoJson heap (0 :: rest) miplayMediaEventInit
      = (miplayMediaEventInit, false) := by
  simp only [miplayParseSetMediaInfoJson, List.cons_append, jsonMembers_nul,
    nestedObject_nul heap _ _ nestedKeys 2 [] (by decide)]
  split <;> try rfl
  split <;> rfl

/-- So is its state, if it is longer than a scalar. -/
theorem miplayParseMediaStatePayload_nul (heap : Nat → Bool) {rest : Bytes}
    (hLen : 5 ≤ rest.length) :
    miplayParseMediaStatePayload heap (0 :: rest) miplayMediaEventInit = none := by
  have h4 : ¬ (0 :: rest).length = 4 := by
    simp only [List.length_cons]
    omega
  have h5 : ¬ (0 :: rest).length = 5 := by
    simp only [List.length_cons]
    omega
  simp only [miplayParseMediaStatePayload, miplayParseNotifyPayload_zero,
    miplayParseSetMediaInfoJson_nul, h4, h5, false_and, if_false]
  split <;> rfl

end EspMiplay.Miplay
