import EspMiplay.Miplay.OpackForm

/-!
# One media record in two encodings

Phones tell what they play either as a JSON object or as an OPack `mediaInfoEx` object.
A record is what such a message says, without its encoding; both forms are written from
it, and each is read by its own decoder.

In the JSON form a field is found under whichever of its names the record uses, and
nothing else is found; `Only` says so for one field, except that the two states share
names. In the OPack form the fields are applied one by one.

## Results

* `decodeJson_form`   — what the JSON reader makes of a record.
* `decodeOpack_form`  — what the OPack reader makes of it.
-/

namespace EspMiplay.Miplay

/-! ## Records -/

inductive MediaField where
  | id
  | audioId
  | title
  | artist
  | album
  | coverUrl
  | duration
  | position
  | status
  | deviceState
  deriving DecidableEq

namespace MediaField

def all : List MediaField :=
  [id, audioId, title, artist, album, coverUrl, duration, position, status, deviceState]

theorem mem_all (f : MediaField) : f ∈ all := by
  cases f <;> decide

/-- The key table of the JSON reader. -/
def keys : MediaField → List Bytes
  | id => idKeys
  | audioId => audioIdKeys
  | title => titleKeys
  | artist => artistKeys
  | album => albumKeys
  | coverUrl => coverKeys
  | duration => durationKeys
  | position => positionKeys
  | status => statusKeys
  | deviceState => deviceStateKeys

/-- The keys without their quotes. -/
def names (f : MediaField) : List Bytes := f.keys.map fun key => key.tail.dropLast

theorem map_quote_names (f : MediaField) : f.names.map quote = f.keys := by
  cases f <;> decide +kernel

theorem nodup_names (f : MediaField) : f.names.Nodup := by
  cases f <;> decide +kernel

theorem plain_of_mem {f : MediaField} : ∀ name ∈ f.names, PlainName name := by
  cases f <;> decide +kernel

/-- The names OPack knows. -/
def heard : MediaField → List Bytes
  | id => idNames
  | audioId => audioIdNames
  | title => titleNames
  | artist => artistNames
  | album => albumNames
  | coverUrl => coverNames
  | duration => durationNames
  | position => positionNames
  | status => statusNames
  | deviceState => deviceStateNames

theorem mem_names_of_heard {f : MediaField} : ∀ name ∈ f.heard, name ∈ f.names := by
  cases f <;> decide +kernel

def IsState (f : MediaField) : Prop := f = status ∨ f = deviceState

instance (f : MediaField) : Decidable f.IsState := inferInstanceAs (Decidable (_ ∨ _))

/-- Only the states share names. -/
theorem not_mem_names {f g : MediaField} (hNe : f ≠ g) (hState : ¬(f.IsState ∧ g.IsState)) :
    ∀ name ∈ f.names, name ∉ g.names := by
  have hAll : ∀ f ∈ all, ∀ g ∈ all, f ≠ g → ¬(f.IsState ∧ g.IsState) →
      ∀ name ∈ f.names, name ∉ g.names := by
    decide +kernel
  exact hAll f f.mem_all g g.mem_all hNe hState

theorem not_mem_heard {f g : MediaField} {name : Bytes} (hMem : name ∈ f.names) (hNe : f ≠ g)
    (hState : ¬(f.IsState ∧ g.IsState)) : name ∉ g.heard :=
  fun hHeard => not_mem_names hNe hState _ hMem (mem_names_of_heard _ hHeard)

end MediaField

/-- A value under one of the names of its field. -/
structure Named (f : MediaField) (α : Type) where
  name : Bytes
  value : α
  known : name ∈ f.names

/-- A 64-bit integer. -/
structure WireInt where
  val : Int
  range : Int64Range val

def Named.text {f : MediaField} (m : Named f Bytes) : Member :=
  ⟨m.name, .text m.value, MediaField.plain_of_mem _ m.known⟩

def Named.number {f : MediaField} (m : Named f WireInt) : Member :=
  ⟨m.name, .number m.value.val, MediaField.plain_of_mem _ m.known⟩

structure MediaFields where
  id : Option (Named .id Bytes)
  audioId : Option (Named .audioId Bytes)
  title : Option (Named .title Bytes)
  artist : Option (Named .artist Bytes)
  album : Option (Named .album Bytes)
  coverUrl : Option (Named .coverUrl Bytes)
  duration : Option (Named .duration WireInt)
  position : Option (Named .position WireInt)
  status : Option (Named .status WireInt)
  deviceState : Option (Named .deviceState WireInt)

namespace MediaFields

def member (r : MediaFields) : MediaField → Option Member
  | .id => r.id.map Named.text
  | .audioId => r.audioId.map Named.text
  | .title => r.title.map Named.text
  | .artist => r.artist.map Named.text
  | .album => r.album.map Named.text
  | .coverUrl => r.coverUrl.map Named.text
  | .duration => r.duration.map Named.number
  | .position => r.position.map Named.number
  | .status => r.status.map Named.number
  | .deviceState => r.deviceState.map Named.number

def members (r : MediaFields) : List Member := MediaField.all.filterMap r.member

def jsonForm (r : MediaFields) : Bytes := jsonObject r.members

def opackForm (r : MediaFields) : Bytes := opackMediaInfoEx r.members

end MediaFields

/-- The length of its OPack object can be written in 32 bits. -/
structure MediaRecord extends MediaFields where
  fits : (opackObject toMediaFields.members).length < 4294967296

/-- The event of a JSON payload, with memory for the copies. -/
def decodeJson (payload : Bytes) : Option MediaEvent :=
  match miplayParseSetMediaInfoJson (fun _ => true) payload miplayMediaEventInit with
  | (e, true) => some e
  | (_, false) => none

def decodeOpack (payload : Bytes) : Option MediaEvent :=
  miplayParseMediaInfoEx (fun _ => true) payload

/-! ## What the JSON reader finds -/

namespace MediaFields

variable {r : MediaFields} {f : MediaField} {m : Member} {names : List Bytes}

theorem mem_members : m ∈ r.members ↔ ∃ f, r.member f = some m := by
  rw [members, List.mem_filterMap]
  exact ⟨fun ⟨f, _, h⟩ => ⟨f, h⟩, fun ⟨f, h⟩ => ⟨f, f.mem_all, h⟩⟩

theorem name_mem (h : r.member f = some m) : m.name ∈ f.names := by
  cases f
  all_goals
    obtain ⟨x, -, rfl⟩ := Option.map_eq_some_iff.1 h
    exact x.known

/-- A field is alone with names that no other member has. -/
theorem only (hIn : ∀ m ∈ r.member f, m.name ∈ names)
    (hOther : ∀ g, g ≠ f → ∀ m ∈ r.member g, m.name ∉ names) :
    Only names (r.member f) r.members where
  mem m hMem := ⟨mem_members.2 ⟨f, hMem⟩, hIn m hMem⟩
  unique m hMem hName := by
    obtain ⟨g, hField⟩ := mem_members.1 hMem
    by_cases hSame : g = f
    · exact hSame ▸ hField
    · exact absurd hName (hOther g hSame m hField)

theorem only_of_not_state (h : ¬f.IsState) : Only f.names (r.member f) r.members :=
  only (fun _ => name_mem) fun _ hNe _ hMem =>
    MediaField.not_mem_names hNe (fun hBoth => h hBoth.2) _ (name_mem hMem)

/-- What the JSON reader makes of a text. -/
def readText {f : MediaField} (size : Nat) : Option (Named f Bytes) → Bytes × Bool
  | none => ([], false)
  | some m => copyText size m.value

theorem json_text (size : Nat) {x : Option (Named f Bytes)} (hSize : 0 < size)
    (hState : ¬f.IsState) (hField : r.member f = x.map Named.text) :
    miplayJsonCopyStringAliases (r.jsonForm ++ [0]) size f.keys [] = readText size x := by
  have hOnly := only_of_not_state (r := r) hState
  rw [hField] at hOnly
  rw [← f.map_quote_names]
  cases x with
  | none => exact hOnly.copyNone f.plain_of_mem
  | some m => exact hOnly.copyText f.plain_of_mem f.nodup_names hSize rfl

theorem json_number_of_only {x : Option (Named f WireInt)} (hPlain : ∀ name ∈ names, PlainName name)
    (hNodup : names.Nodup) (hOnly : Only names (x.map Named.number) r.members) :
    miplayJsonReadNumberAliases (r.jsonForm ++ [0]) (names.map quote) =
      x.map (·.value.val) := by
  cases x with
  | none => exact hOnly.readNone hPlain
  | some m => exact hOnly.readNumber hPlain hNodup rfl m.value.range

theorem json_number {x : Option (Named f WireInt)} (hState : ¬f.IsState)
    (hField : r.member f = x.map Named.number) :
    miplayJsonReadNumberAliases (r.jsonForm ++ [0]) f.keys = x.map (·.value.val) := by
  rw [← f.map_quote_names]
  exact json_number_of_only f.plain_of_mem f.nodup_names (hField ▸ only_of_not_state hState)

/-! ### States -/

theorem json_state_of_number {json : Bytes} {keys : List Bytes} {n : Int}
    (h : miplayJsonReadNumberAliases json keys = some n) :
    miplayJsonReadStateAliases json keys = some n := by
  rw [miplayJsonReadStateAliases, h]

theorem json_state_of_only {x : Option (Named f WireInt)} (hPlain : ∀ name ∈ names, PlainName name)
    (hNodup : names.Nodup) (hOnly : Only names (x.map Named.number) r.members) :
    miplayJsonReadStateAliases (r.jsonForm ++ [0]) (names.map quote) = x.map (·.value.val) := by
  have hNumber := json_number_of_only hPlain hNodup hOnly
  cases x with
  | none =>
    have hText : miplayJsonCopyStringAliases (r.jsonForm ++ [0]) 32 (names.map quote) [] =
        ([], false) := hOnly.copyNone hPlain
    rw [miplayJsonReadStateAliases, hNumber]
    simp [hText]
  | some m => exact json_state_of_number hNumber

/-- The names of the status that OPack knows are its own. -/
theorem not_mem_statusNames {g : MediaField} (hNe : g ≠ .status) :
    ∀ name ∈ g.names, name ∉ statusNames := by
  revert hNe
  cases g <;> decide +kernel

theorem json_status {s : Named .status WireInt} (hStatus : r.status = some s)
    (hOwn : s.name ∈ statusNames) :
    miplayJsonReadStateAliases (r.jsonForm ++ [0]) statusKeys = some s.value.val := by
  have hMember : r.member .status = some s.number := by rw [member, hStatus]; rfl
  have hOnly : Only statusNames (r.member .status) r.members :=
    only (fun m hMem => by
      obtain rfl := Option.some.inj (hMember.symm.trans hMem)
      exact hOwn) fun g hNe _ hMem => not_mem_statusNames hNe _ (name_mem hMem)
  have hFirst := json_number_of_only (x := some s) (by decide +kernel) (by decide +kernel) (hMember ▸ hOnly)
  refine json_state_of_number ?_
  have hKeys : statusKeys = statusNames.map quote ++ statusKeys.drop 2 := by decide
  rw [miplayJsonReadNumberAliases] at hFirst ⊢
  rw [hKeys, List.findSome?_append, hFirst]
  rfl

theorem json_status_none (hStatus : r.status = none)
    (hDevice : ∀ d ∈ r.deviceState, d.name ∉ MediaField.status.names) :
    miplayJsonReadStateAliases (r.jsonForm ++ [0]) statusKeys = none := by
  have hMember : r.member .status = none := by rw [member, hStatus]; rfl
  have hOnly : Only MediaField.status.names none r.members := by
    rw [← hMember]
    refine only (fun _ => name_mem) fun g hNe m hMem => ?_
    by_cases hSame : g = .deviceState
    · subst hSame
      obtain ⟨d, hField, rfl⟩ := Option.map_eq_some_iff.1 hMem
      exact hDevice d hField
    · refine MediaField.not_mem_names hNe (fun hBoth => ?_) _ (name_mem hMem)
      exact hBoth.1.elim hNe hSame
  exact json_state_of_only (x := (none : Option (Named .status WireInt)))
    MediaField.plain_of_mem (MediaField.nodup_names _) hOnly

theorem json_deviceState (hStatus : ∀ s ∈ r.status, s.name ∈ statusNames) :
    miplayJsonReadStateAliases (r.jsonForm ++ [0]) deviceStateKeys =
      r.deviceState.map (·.value.val) := by
  have hApart : ∀ name ∈ statusNames, name ∉ MediaField.deviceState.names := by decide
  have hOnly : Only MediaField.deviceState.names (r.member .deviceState) r.members := by
    refine only (fun _ => name_mem) fun g hNe m hMem => ?_
    by_cases hSame : g = .status
    · subst hSame
      obtain ⟨s, hField, rfl⟩ := Option.map_eq_some_iff.1 hMem
      exact hApart _ (hStatus s hField)
    · refine MediaField.not_mem_names hNe (fun hBoth => ?_) _ (name_mem hMem)
      exact hBoth.1.elim hSame hNe
  exact json_state_of_only MediaField.plain_of_mem (MediaField.nodup_names _) hOnly

theorem member_state (h : r.member f = some m) (hState : f.IsState) :
    ∃ n : WireInt, m.value = .number n.val := by
  rcases hState with rfl | rfl
  all_goals
    obtain ⟨x, -, rfl⟩ := Option.map_eq_some_iff.1 h
    exact ⟨x.value, rfl⟩

/-- A member under a name of the status is read as the status. -/
theorem json_status_isSome (hMem : m ∈ r.members) (hName : m.name ∈ MediaField.status.names) :
    (miplayJsonReadStateAliases (r.jsonForm ++ [0]) statusKeys).isSome := by
  have hRead : ∃ n, miplayJsonReadNumber (r.jsonForm ++ [0]) (quote m.name) = some n := by
    rcases jsonFindValue_object (MediaField.plain_of_mem _ hName) r.members with
      ⟨hNone, -⟩ | ⟨v, s, rest, hSome, hEnds, hFind⟩
    · rw [lookup, Option.map_eq_none_iff, List.find?_eq_none] at hNone
      exact absurd (decide_eq_true rfl) (hNone m hMem)
    · obtain ⟨m', hFound, rfl⟩ := Option.map_eq_some_iff.1 hSome
      have hSame : m'.name = m.name := by simpa using List.find?_some hFound
      obtain ⟨g, hField⟩ := mem_members.1 (List.mem_of_find?_eq_some hFound)
      have hState : g.IsState := by
        by_contra hNot
        refine MediaField.not_mem_names (f := .status) ?_ (fun hBoth => hNot hBoth.2) _ hName
          (hSame ▸ name_mem hField)
        rintro rfl
        exact hNot (.inl rfl)
      obtain ⟨n, hValue⟩ := member_state hField hState
      rw [hValue] at hFind
      exact ⟨n.val, jsonReadNumber_of_found n.range hEnds hFind⟩
  obtain ⟨n, hRead⟩ := hRead
  have hSome : (miplayJsonReadNumberAliases (r.jsonForm ++ [0]) statusKeys).isSome := by
    rw [miplayJsonReadNumberAliases, List.findSome?_isSome_iff]
    refine ⟨quote m.name, ?_, by rw [hRead]; rfl⟩
    show quote m.name ∈ MediaField.status.keys
    rw [← MediaField.map_quote_names]
    exact List.mem_map_of_mem hName
  obtain ⟨n, hNumber⟩ := Option.isSome_iff_exists.1 hSome
  rw [json_state_of_number hNumber]
  rfl

/-! ## The event of the JSON form -/

/-- The texts and times of the event. -/
def jsonTexts (r : MediaFields) : MediaEvent where
  changed :=
    { id := (readText 64 r.id).2
      audioId := (readText 64 r.audioId).2
      title := (readText 128 r.title).2
      artist := (readText 128 r.artist).2
      album := (readText 128 r.album).2
      coverUrl := (readText miplayCoverSourceMax r.coverUrl).2
      duration := r.duration.isSome
      position := r.position.isSome }
  id := (readText 64 r.id).1
  audioId := (readText 64 r.audioId).1
  title := (readText 128 r.title).1
  artist := (readText 128 r.artist).1
  album := (readText 128 r.album).1
  coverUrl := (readText miplayCoverSourceMax r.coverUrl).1
  durationMs := (r.duration.map (·.value.val)).getD 0
  positionMs := (r.position.map (·.value.val)).getD 0
  status := -1
  deviceState := -1
  playerState := .unknown

/-- The status and the device state on top. -/
def jsonStates (status deviceState : Option Int) (e : MediaEvent) : MediaEvent :=
  let e := status.elim e fun n => applyJsonStatus n e
  deviceState.elim e fun n => applyJsonDeviceState n e

def jsonEvent (r : MediaFields) : MediaEvent :=
  jsonStates (miplayJsonReadStateAliases (r.jsonForm ++ [0]) statusKeys)
    (miplayJsonReadStateAliases (r.jsonForm ++ [0]) deviceStateKeys) r.jsonTexts

theorem changed_any_applyJsonStatus (n : Int) (e : MediaEvent) :
    (applyJsonStatus n e).changed.any := by
  simp only [applyJsonStatus]
  split_ifs <;> simp [Changed.any]

theorem changed_any_applyJsonDeviceState (n : Int) (e : MediaEvent) :
    (applyJsonDeviceState n e).changed.any := by
  simp [applyJsonDeviceState, Changed.any]

theorem changed_any_jsonStates (status deviceState : Option Int) (e : MediaEvent) :
    (jsonStates status deviceState e).changed.any =
      (e.changed.any || status.isSome || deviceState.isSome) := by
  cases status <;> cases deviceState <;>
    simp [jsonStates, changed_any_applyJsonStatus, changed_any_applyJsonDeviceState]

theorem jsonMembers_form :
    jsonMembers (r.jsonForm ++ [0]) miplayMediaEventInit =
      (r.jsonEvent, r.jsonEvent.changed.any) := by
  have hId := json_text (r := r) (f := .id) 64 (by decide) (by decide) rfl
  have hAudioId := json_text (r := r) (f := .audioId) 64 (by decide) (by decide) rfl
  have hTitle := json_text (r := r) (f := .title) 128 (by decide) (by decide) rfl
  have hArtist := json_text (r := r) (f := .artist) 128 (by decide) (by decide) rfl
  have hAlbum := json_text (r := r) (f := .album) 128 (by decide) (by decide) rfl
  have hCover := json_text (r := r) (f := .coverUrl) miplayCoverSourceMax (by decide)
    (by decide) rfl
  have hDuration := json_number (r := r) (f := .duration) (by decide) rfl
  have hPosition := json_number (r := r) (f := .position) (by decide) rfl
  simp only [MediaField.keys] at hId hAudioId hTitle hArtist hAlbum hCover hDuration hPosition
  have hAny : r.jsonTexts.changed.any = ((readText 64 r.id).2 || (readText 64 r.audioId).2 ||
      (readText 128 r.title).2 || (readText 128 r.artist).2 || (readText 128 r.album).2 ||
      (readText miplayCoverSourceMax r.coverUrl).2 || r.duration.isSome || r.position.isSome) := by
    simp [jsonTexts, Changed.any]
  rw [jsonEvent, changed_any_jsonStates, hAny]
  simp only [jsonMembers, miplayMediaEventInit, hId, hAudioId, hTitle, hArtist, hAlbum, hCover,
    hDuration, hPosition, Option.isSome_map, Bool.false_or, jsonStates, jsonTexts]
  cases miplayJsonReadStateAliases (r.jsonForm ++ [0]) statusKeys <;>
    cases miplayJsonReadStateAliases (r.jsonForm ++ [0]) deviceStateKeys <;> rfl

def nestedNames : List Bytes := [ascii "mediaInfo", ascii "mediaInfoEx", ascii "metadata"]

/-- No member is a nested object. -/
theorem nestedObject_form (capacity : Nat) :
    nestedObject (fun _ => true) (r.jsonForm ++ [0]) capacity nestedKeys 2 [] = none := by
  have hApart : ∀ f ∈ MediaField.all, ∀ name ∈ f.names, name ∉ nestedNames := by
    decide +kernel
  have hOnly : Only nestedNames none r.members :=
    ⟨by simp, fun m hMem hName => by
      obtain ⟨f, hField⟩ := mem_members.1 hMem
      exact absurd hName (hApart f f.mem_all _ (name_mem hField))⟩
  have hKeys : nestedKeys = nestedNames.map quote := by decide
  have hAbsent : ∀ key ∈ nestedKeys, miplayJsonFindValue (r.jsonForm ++ [0]) key = none :=
    fun key hKey => hOnly.find_absent (by decide +kernel) (hKeys ▸ hKey)
  have hNone : ∀ keys, (∀ key ∈ keys, key ∈ nestedKeys) → ∀ k,
      nestedObject (fun _ => true) (r.jsonForm ++ [0]) capacity keys k [] = none := by
    intro keys
    induction keys with
    | nil => intros; rfl
    | cons key keys ih =>
      intro hKeys k
      rw [nestedObject, jsonCopyAliases_of_absent (fun key hKey => hAbsent key (hKeys key hKey))]
      exact ih (fun key hKey => hKeys key (List.mem_cons_of_mem _ hKey)) k
  exact hNone nestedKeys (fun _ hKey => hKey) 2

theorem decodeJson_form :
    decodeJson r.jsonForm =
      if r.jsonForm.length ≤ miplayMaxFramePayload ∧ r.jsonEvent.changed.any then some r.jsonEvent
      else none := by
  have hNe : r.jsonForm ≠ [] := List.cons_ne_nil _ _
  rw [decodeJson, miplayParseSetMediaInfoJson]
  by_cases hLong : r.jsonForm.length > miplayMaxFramePayload
  · simp [hLong, Nat.not_le.2 hLong]
  · simp only [hNe, hLong, Bool.not_true, Bool.false_eq_true, or_self, if_false, jsonMembers_form,
      nestedObject_form, Nat.not_lt.1 hLong, true_and]
    cases r.jsonEvent.changed.any <;> rfl

/-! ## The event of the OPack form -/

/-- What OPack makes of a text. -/
def heardText {f : MediaField} (size : Nat) : Option (Named f Bytes) → Bytes × Bool
  | none => ([], false)
  | some m =>
    if m.name ∈ f.heard then
      (strncpy size (cstr (m.value.take (miplayCoverSourceMax - 1))), true)
    else ([], false)

/-- A member as a field, if there is one. -/
def hear (e : MediaEvent) : Option Member → MediaEvent
  | none => e
  | some m => applyMember e m

theorem foldl_members (e : MediaEvent) :
    r.members.foldl applyMember e = MediaField.all.foldl (fun e f => hear e (r.member f)) e := by
  rw [members, List.foldl_filterMap]
  congr 1
  funext e f
  cases r.member f <;> rfl

/-- The text of a field and its bit. -/
def eventText (e : MediaEvent) : MediaField → Bytes × Bool
  | .id => (e.id, e.changed.id)
  | .audioId => (e.audioId, e.changed.audioId)
  | .title => (e.title, e.changed.title)
  | .artist => (e.artist, e.changed.artist)
  | .album => (e.album, e.changed.album)
  | .coverUrl => (e.coverUrl, e.changed.coverUrl)
  | _ => ([], false)

def setText (e : MediaEvent) (text : Bytes × Bool) : MediaField → MediaEvent
  | .id => { e with id := text.1, changed := { e.changed with id := text.2 } }
  | .audioId => { e with audioId := text.1, changed := { e.changed with audioId := text.2 } }
  | .title => { e with title := text.1, changed := { e.changed with title := text.2 } }
  | .artist => { e with artist := text.1, changed := { e.changed with artist := text.2 } }
  | .album => { e with album := text.1, changed := { e.changed with album := text.2 } }
  | .coverUrl => { e with coverUrl := text.1, changed := { e.changed with coverUrl := text.2 } }
  | _ => e

/-- The buffers of the event. -/
def textSize : MediaField → Nat
  | .id | .audioId => 64
  | .coverUrl => miplayCoverSourceMax
  | _ => 128

def IsText (f : MediaField) : Prop :=
  f ∈ [MediaField.id, .audioId, .title, .artist, .album, .coverUrl]

section Hear

variable {e : MediaEvent}

theorem setText_fresh (h : eventText e f = ([], false)) : setText e ([], false) f = e := by
  cases f
  all_goals first
    | rfl
    | obtain ⟨hText, hChanged⟩ := Prod.mk.inj h
      simp only [setText, ← hText, ← hChanged]

theorem applyMember_text (hText : IsText f) (m : Named f Bytes) :
    applyMember e m.text =
      if m.name ∈ f.heard then
        setText e (strncpy (textSize f) (cstr (m.value.take (miplayCoverSourceMax - 1))), true) f
      else e := by
  have hNot : ∀ g, f ≠ g → m.name ∉ g.heard := fun g hNe =>
    MediaField.not_mem_heard m.known hNe (fun hBoth => by
      rcases hBoth.1 with rfl | rfl <;> simp [IsText] at hText)
  have hNumber : f ≠ .duration ∧ f ≠ .position ∧ f ≠ .status ∧ f ≠ .deviceState := by
    refine ⟨?_, ?_, ?_, ?_⟩ <;> rintro rfl <;> simp [IsText] at hText
  have hDuration : m.name ∉ durationNames := hNot .duration hNumber.1
  have hPosition : m.name ∉ positionNames := hNot .position hNumber.2.1
  have hStatus : m.name ∉ statusNames := hNot .status hNumber.2.2.1
  have hDevice : m.name ∉ deviceStateNames := hNot .deviceState hNumber.2.2.2
  have hId : f ≠ .id → m.name ∉ idNames := hNot .id
  have hAudioId : f ≠ .audioId → m.name ∉ audioIdNames := hNot .audioId
  have hTitle : f ≠ .title → m.name ∉ titleNames := hNot .title
  have hArtist : f ≠ .artist → m.name ∉ artistNames := hNot .artist
  have hAlbum : f ≠ .album → m.name ∉ albumNames := hNot .album
  have hCover : f ≠ .coverUrl → m.name ∉ coverNames := hNot .coverUrl
  have hRest : ∀ v, miplayApplyMediaField.applyNumber m.name v e = none := fun v => by
    rw [miplayApplyMediaField.applyNumber, if_neg hDuration, if_neg hPosition, if_neg hStatus,
      if_neg hDevice]
  show (miplayApplyMediaField m.name (.string _) e).getD e = _
  by_cases hHeard : m.name ∈ f.heard
  · rw [if_pos hHeard]
    cases f
    all_goals first
      | exact absurd rfl hNumber.1
      | exact absurd rfl hNumber.2.1
      | exact absurd rfl hNumber.2.2.1
      | exact absurd rfl hNumber.2.2.2
      | simp [MediaField.heard] at hHeard
        simp_all [miplayApplyMediaField, setText, textSize]
  · rw [if_neg hHeard]
    have hNone : m.name ∉ idNames ∧ m.name ∉ audioIdNames ∧ m.name ∉ titleNames ∧
        m.name ∉ artistNames ∧ m.name ∉ albumNames ∧ m.name ∉ coverNames := by
      cases f <;> simp_all [MediaField.heard]
    simp [miplayApplyMediaField, hNone, hRest]

theorem hear_text (hText : IsText f) (hFresh : eventText e f = ([], false))
    (x : Option (Named f Bytes)) :
    hear e (x.map Named.text) = setText e (heardText (textSize f) x) f := by
  cases x with
  | none => exact (setText_fresh hFresh).symm
  | some m =>
    show applyMember e m.text = setText e (heardText (textSize f) (some m)) f
    rw [applyMember_text hText, heardText]
    split_ifs
    · rfl
    · exact (setText_fresh hFresh).symm

theorem toInt64_int64Word (n : WireInt) : toInt64 (int64Word n.val) = n.val := by
  obtain ⟨hLow, hHigh⟩ := n.range
  unfold toInt64 int64Word
  omega

theorem hear_duration (hFresh : e.durationMs = 0) (hChanged : e.changed.duration = false) :
    hear e (r.member .duration) =
      { e with
        durationMs := (r.duration.map (·.value.val)).getD 0
        changed := { e.changed with duration := r.duration.isSome } } := by
  rw [member]
  cases hField : r.duration with
  | none => simp [hear, ← hFresh, ← hChanged]
  | some m =>
    have hName : m.name ∈ durationNames := by
      have hSame : ∀ name ∈ MediaField.duration.names, name ∈ durationNames := by decide
      exact hSame _ m.known
    simp [hear, applyMember, Named.number, MemberValue.readBack, miplayApplyMediaField,
      miplayApplyMediaField.applyNumber, hName, fieldInt64, toInt64_int64Word]

theorem hear_position (hFresh : e.positionMs = 0) (hChanged : e.changed.position = false) :
    hear e (r.member .position) =
      { e with
        positionMs := (r.position.map (·.value.val)).getD 0
        changed := { e.changed with position := r.position.isSome } } := by
  rw [member]
  cases hField : r.position with
  | none => simp [hear, ← hFresh, ← hChanged]
  | some m =>
    have hName : m.name ∈ positionNames ∧ m.name ∉ durationNames := by
      have hSame : ∀ name ∈ MediaField.position.names,
          name ∈ positionNames ∧ name ∉ durationNames := by decide
      exact hSame _ m.known
    simp [hear, applyMember, Named.number, MemberValue.readBack, miplayApplyMediaField,
      miplayApplyMediaField.applyNumber, hName, fieldInt64, toInt64_int64Word]

/-- A state as OPack reads it. -/
def opackState (n : Int) : Int := opackIntegerToInt (int64Word n)

def setDevice (n : Int) (e : MediaEvent) : MediaEvent :=
  { e with
    deviceState := n
    playerState := miplayWireStateToPlayer n
    changed := { e.changed with
      deviceState := true
      playerState := e.changed.playerState || miplayWireStateToPlayer n ≠ .unknown } }

theorem applyMember_number {f : MediaField} (m : Named f WireInt) (hState : f.IsState) :
    applyMember e m.number =
      if m.name ∈ statusNames then
        { e with
          status := opackState m.value.val
          changed := { e.changed with status := true } }
      else setDevice (opackState m.value.val) e := by
  have hName : m.name ∉ durationNames ∧ m.name ∉ positionNames ∧
      (m.name ∉ statusNames → m.name ∈ deviceStateNames) := by
    have hAll : ∀ name ∈ MediaField.status.names ++ MediaField.deviceState.names,
        name ∉ durationNames ∧ name ∉ positionNames ∧
          (name ∉ statusNames → name ∈ deviceStateNames) := by decide +kernel
    have hKnown := m.known
    exact hAll _ (by rcases hState with rfl | rfl <;> simp [hKnown])
  obtain ⟨hDuration, hPosition, hDevice⟩ := hName
  split_ifs with hOwn
  · simp [applyMember, Named.number, MemberValue.readBack, miplayApplyMediaField,
      miplayApplyMediaField.applyNumber, hDuration, hPosition, hOwn, fieldInt, opackState]
  · have hApply : miplayApplyMediaField m.name (.integer (int64Word m.value.val)) e =
        some (setDevice (opackState m.value.val) e) := by
      show miplayApplyMediaField.applyNumber m.name _ e = _
      rw [miplayApplyMediaField.applyNumber, if_neg hDuration, if_neg hPosition, if_neg hOwn,
        if_pos (hDevice hOwn)]
      rfl
    exact congrArg (Option.getD · e) hApply

end Hear

/-- The texts and times of the event. -/
def opackTexts (r : MediaFields) : MediaEvent where
  changed :=
    { id := (heardText 64 r.id).2
      audioId := (heardText 64 r.audioId).2
      title := (heardText 128 r.title).2
      artist := (heardText 128 r.artist).2
      album := (heardText 128 r.album).2
      coverUrl := (heardText miplayCoverSourceMax r.coverUrl).2
      duration := r.duration.isSome
      position := r.position.isSome }
  id := (heardText 64 r.id).1
  audioId := (heardText 64 r.audioId).1
  title := (heardText 128 r.title).1
  artist := (heardText 128 r.artist).1
  album := (heardText 128 r.album).1
  coverUrl := (heardText miplayCoverSourceMax r.coverUrl).1
  durationMs := (r.duration.map (·.value.val)).getD 0
  positionMs := (r.position.map (·.value.val)).getD 0
  status := -1
  deviceState := -1
  playerState := .unknown

def opackEvent (r : MediaFields) : MediaEvent :=
  hear (hear r.opackTexts (r.member .status)) (r.member .deviceState)

theorem foldl_members_init : r.members.foldl applyMember miplayMediaEventInit = r.opackEvent := by
  have hText : ∀ {f : MediaField}, f ∈ [MediaField.id, .audioId, .title, .artist, .album, .coverUrl] →
      IsText f := fun h => h
  rw [foldl_members]
  simp only [MediaField.all, List.foldl_cons, List.foldl_nil, opackEvent]
  rw [show r.member .id = r.id.map Named.text from rfl,
    show r.member .audioId = r.audioId.map Named.text from rfl,
    show r.member .title = r.title.map Named.text from rfl,
    show r.member .artist = r.artist.map Named.text from rfl,
    show r.member .album = r.album.map Named.text from rfl,
    show r.member .coverUrl = r.coverUrl.map Named.text from rfl,
    hear_text (hText (by decide)) rfl r.id, hear_text (hText (by decide)) rfl r.audioId,
    hear_text (hText (by decide)) rfl r.title, hear_text (hText (by decide)) rfl r.artist,
    hear_text (hText (by decide)) rfl r.album, hear_text (hText (by decide)) rfl r.coverUrl,
    hear_duration rfl rfl, hear_position rfl rfl]
  rfl

end MediaFields

theorem decodeOpack_form (r : MediaRecord) :
    decodeOpack r.opackForm = if r.opackEvent.changed.any then some r.opackEvent else none := by
  rw [decodeOpack, MediaFields.opackForm, miplayParseMediaInfoEx_form _ r.fits,
    MediaFields.foldl_members_init]

end EspMiplay.Miplay
