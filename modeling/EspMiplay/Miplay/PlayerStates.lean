import EspMiplay.Miplay.OpackReader

/-!
# The player state of an event

An event carries a device state and the player state that is read off it, each with its bit.
The readers write them field by field: a device state that names no player state makes the
player state unknown again, but a bit that an earlier field has set stays.

In JSON a status does the same as a device state, if it names a player state. What the outer
object leaves out is taken from the nested one, each member by itself, so that the device
state may come from the one and the player state from the other.

## Results

* `consistent_eventOf` — when a row of OPack fields leaves a consistent event.
* `consistent_json`    — when an object and the one in it do.
* `consistent_iff`     — all four readers.
-/

namespace EspMiplay.Miplay

/-- The bit says that the player state is known, and it is the one of the device state. -/
structure Consistent (e : MediaEvent) : Prop where
  bit : e.changed.playerState = true ↔ e.playerState ≠ .unknown
  device : e.changed.deviceState = true → e.playerState = miplayWireStateToPlayer e.deviceState

/-- The state of the player that a number names. -/
def Names (n : Int) : Prop := miplayWireStateToPlayer n ≠ .unknown

instance (n : Int) : Decidable (Names n) := inferInstanceAs (Decidable (_ ≠ _))

-- ---------------------------------------------------------------------------
-- OPack
-- ---------------------------------------------------------------------------

/-- If some device state of the row names a player state, the last one does. -/
def RowAgrees (xs : List (Bytes × OpackValue)) : Prop :=
  (∃ x ∈ xs, fieldOf x = some .deviceState ∧ Names x.2.int) →
    ∀ v ∈ lastOf xs .deviceState, Names v.int

theorem consistent_eventOf (xs : List (Bytes × OpackValue)) :
    Consistent (eventOf xs) ↔ RowAgrees xs := by
  have hBit : (eventOf xs).changed.playerState = true ↔
      ∃ x ∈ xs, fieldOf x = some .deviceState ∧ Names x.2.int := by
    simp [eventOf, Names]
  have hDevice : (eventOf xs).changed.deviceState = (lastOf xs .deviceState).isSome := rfl
  have hPlayer : (eventOf xs).playerState =
      (lastOf xs .deviceState).elim .unknown fun v => miplayWireStateToPlayer v.int := rfl
  have hState : (eventOf xs).deviceState = (lastOf xs .deviceState).elim (-1) OpackValue.int := rfl
  cases hLast : lastOf xs .deviceState with
  | none =>
    have hNone : ¬∃ x ∈ xs, fieldOf x = some .deviceState ∧ Names x.2.int := by
      rintro ⟨x, hMem, hField, -⟩
      have hSome := (lastOf_isSome xs .deviceState).2 ⟨x, hMem, hField⟩
      rw [hLast] at hSome
      cases hSome
    rw [hLast] at hDevice hPlayer
    refine iff_of_true ⟨?_, ?_⟩ fun hSome => absurd hSome hNone
    · rw [hBit, hPlayer]
      exact iff_of_false hNone (by simp)
    · rw [hDevice]
      exact fun h => by cases h
  | some v =>
    rw [hLast] at hDevice hPlayer hState
    -- the last one is among those that set the bit
    have hOwn : Names v.int → ∃ x ∈ xs, fieldOf x = some .deviceState ∧ Names x.2.int := by
      intro hNames
      obtain ⟨x, hMem, rfl⟩ := Option.map_eq_some_iff.1 hLast
      have hFilter := List.mem_of_getLast? hMem
      rw [List.mem_filter, decide_eq_true_eq] at hFilter
      exact ⟨x, hFilter.1, hFilter.2, hNames⟩
    have hAgrees : RowAgrees xs ↔
        ((∃ x ∈ xs, fieldOf x = some .deviceState ∧ Names x.2.int) → Names v.int) := by
      rw [RowAgrees, hLast]
      simp
    rw [hAgrees]
    constructor
    · rintro ⟨hRight, -⟩
      rw [hBit, hPlayer] at hRight
      exact hRight.1
    · intro hLeft
      refine ⟨?_, fun _ => by rw [hPlayer, hState]; rfl⟩
      rw [hBit, hPlayer]
      exact ⟨hLeft, hOwn⟩

-- ---------------------------------------------------------------------------
-- JSON
-- ---------------------------------------------------------------------------

/-- What the members of an object say of the state. -/
structure Said where
  status : Option Int
  deviceState : Option Int

def saidBy (json : Bytes) : Said where
  status := (miplayJsonReadStateAliases json statusKeys).map toInt32
  deviceState := (miplayJsonReadStateAliases json deviceStateKeys).map toInt32

namespace Said

/-- The status or the device state names a player state. -/
def NamesPlayer (s : Said) : Prop :=
  (∃ n ∈ s.status, Names n) ∨ ∃ n ∈ s.deviceState, Names n

/-- Where the status names a player state, the device state does not take it back. -/
def Agrees (s : Said) : Prop := (∃ n ∈ s.status, Names n) → ∀ n ∈ s.deviceState, Names n

/-- The object agrees with itself. If it names no player state the one in it does too, and
that one names none when there is a device state already. -/
def AgreesWith (s : Said) (nested : Option Said) : Prop :=
  s.Agrees ∧ (¬s.NamesPlayer → ∀ n ∈ nested, n.Agrees ∧ (s.deviceState.isSome → ¬n.NamesPlayer))

end Said

/-- What the members of one object leave of the state. -/
structure OneObject (e : MediaEvent) (s : Said) : Prop where
  bit : e.changed.playerState = true ↔ s.NamesPlayer
  device_of_bit : e.changed.playerState = true → e.changed.deviceState = true
  device_of_not_bit : ¬s.NamesPlayer → (e.changed.deviceState = true ↔ s.deviceState.isSome)
  unknown : ¬s.NamesPlayer → e.playerState = .unknown
  device : e.changed.deviceState = true → e.playerState = miplayWireStateToPlayer e.deviceState
  agrees : s.NamesPlayer → (e.playerState ≠ .unknown ↔ s.Agrees)

theorem jsonMembers_states (json : Bytes) :
    OneObject (jsonMembers json miplayMediaEventInit).1 (saidBy json) := by
  rw [saidBy]
  cases hStatus : miplayJsonReadStateAliases json statusKeys with
  | none =>
    cases hDevice : miplayJsonReadStateAliases json deviceStateKeys with
    | none =>
      constructor <;> simp [jsonMembers, hStatus, hDevice, miplayMediaEventInit, Said.NamesPlayer]
    | some d =>
      constructor <;> simp [jsonMembers, hStatus, hDevice, miplayMediaEventInit, Said.NamesPlayer,
        applyJsonDeviceState, Names, Said.Agrees]
  | some s =>
    have hNames : Names (toInt32 s) ↔ miplayWireStateToPlayer (toInt32 s) ≠ .unknown := Iff.rfl
    cases hDevice : miplayJsonReadStateAliases json deviceStateKeys with
    | none =>
      by_cases hPlayer : miplayWireStateToPlayer (toInt32 s) = .unknown
      all_goals
        constructor <;> simp [jsonMembers, hStatus, hDevice, miplayMediaEventInit,
          Said.NamesPlayer, applyJsonStatus, Said.Agrees, hPlayer, hNames]
    | some d =>
      by_cases hPlayer : miplayWireStateToPlayer (toInt32 s) = .unknown
      all_goals
        constructor <;> simp [jsonMembers, hStatus, hDevice, miplayMediaEventInit,
          Said.NamesPlayer, applyJsonStatus, applyJsonDeviceState, Said.Agrees, hPlayer, Names]

section Merge

variable {e n : MediaEvent} {s t : Said}

theorem OneObject.agrees_iff (h : OneObject e s) : Consistent e ↔ s.Agrees := by
  by_cases hNames : s.NamesPlayer
  · have hBit := h.bit.2 hNames
    rw [← h.agrees hNames]
    exact ⟨fun hRight => hRight.bit.1 hBit, fun hKnown =>
      ⟨iff_of_true hBit hKnown, h.device⟩⟩
  · have hBit : ¬e.changed.playerState = true := fun hBit => hNames (h.bit.1 hBit)
    refine iff_of_true ⟨iff_of_false hBit ?_, h.device⟩ fun hStatus => ?_
    · rw [h.unknown hNames]
      exact fun hNe => hNe rfl
    · exact absurd (Or.inl hStatus) hNames

theorem Said.agrees_of_not (h : ¬s.NamesPlayer) : s.Agrees :=
  fun hStatus => absurd (Or.inl hStatus) h

/-- Only four members matter. -/
theorem consistent_congr {e e' : MediaEvent}
    (hBit : e.changed.playerState = e'.changed.playerState)
    (hDevice : e.changed.deviceState = e'.changed.deviceState)
    (hPlayer : e.playerState = e'.playerState) (hState : e.deviceState = e'.deviceState) :
    Consistent e ↔ Consistent e' := by
  constructor
  · rintro ⟨hRight, hMapped⟩
    rw [hBit, hPlayer] at hRight
    rw [hDevice, hPlayer, hState] at hMapped
    exact ⟨hRight, hMapped⟩
  · rintro ⟨hRight, hMapped⟩
    rw [← hBit, ← hPlayer] at hRight
    rw [← hDevice, ← hPlayer, ← hState] at hMapped
    exact ⟨hRight, hMapped⟩

/-- **Two objects.** -/
theorem consistent_mergeNested (hOuter : OneObject e s) (hInner : OneObject n t) :
    Consistent (mergeNested e n) ↔ s.AgreesWith (some t) := by
  have hWith : s.AgreesWith (some t) ↔
      s.Agrees ∧ (¬s.NamesPlayer → t.Agrees ∧ (s.deviceState.isSome → ¬t.NamesPlayer)) := by
    simp [Said.AgreesWith]
  have hBit : (mergeNested e n).changed.playerState =
      (e.changed.playerState || n.changed.playerState) := rfl
  have hDevice : (mergeNested e n).changed.deviceState =
      (e.changed.deviceState || n.changed.deviceState) := rfl
  have hPlayer : (mergeNested e n).playerState =
      if n.changed.playerState && !e.changed.playerState then n.playerState
      else e.playerState := rfl
  have hState : (mergeNested e n).deviceState =
      if n.changed.deviceState && !e.changed.deviceState then n.deviceState
      else e.deviceState := rfl
  rw [hWith]
  by_cases hNames : s.NamesPlayer
  · -- the outer object has both
    have hSet := hOuter.bit.2 hNames
    have hToo := hOuter.device_of_bit hSet
    have hSame : Consistent (mergeNested e n) ↔ Consistent e :=
      consistent_congr (hBit.trans (by simp [hSet])) (hDevice.trans (by simp [hToo]))
        (hPlayer.trans (by simp [hSet])) (hState.trans (by simp [hToo]))
    rw [hSame, hOuter.agrees_iff]
    exact ⟨fun hAgrees => ⟨hAgrees, fun hNot => absurd hNames hNot⟩, And.left⟩
  have hUnset : e.changed.playerState = false :=
    Bool.eq_false_iff.2 fun hSet => hNames (hOuter.bit.1 hSet)
  have hOuterDevice := hOuter.device_of_not_bit hNames
  by_cases hInnerNames : t.NamesPlayer
  · have hInnerSet := hInner.bit.2 hInnerNames
    by_cases hSome : s.deviceState.isSome
    · -- the device state is the outer one, the player state the inner one
      refine iff_of_false ?_ fun hBoth => (hBoth.2 hNames).2 hSome hInnerNames
      rintro ⟨hRight, hMapped⟩
      have hToo := hOuterDevice.2 hSome
      rw [hBit, hPlayer, hUnset, hInnerSet] at hRight
      rw [hDevice, hPlayer, hState, hUnset, hInnerSet, hToo] at hMapped
      have hKnown : n.playerState ≠ .unknown := hRight.1 rfl
      have hOuterState : n.playerState = miplayWireStateToPlayer e.deviceState := by
        simpa using hMapped
      exact hKnown (hOuterState.trans ((hOuter.device hToo).symm.trans (hOuter.unknown hNames)))
    · have hNone : e.changed.deviceState = false :=
        Bool.eq_false_iff.2 fun hToo => hSome (hOuterDevice.1 hToo)
      have hInnerToo := hInner.device_of_bit hInnerSet
      have hSame : Consistent (mergeNested e n) ↔ Consistent n :=
        consistent_congr (hBit.trans (by simp [hUnset])) (hDevice.trans (by simp [hNone]))
          (hPlayer.trans (by simp [hUnset, hInnerSet]))
          (hState.trans (by simp [hNone, hInnerToo]))
      rw [hSame, hInner.agrees_iff]
      exact ⟨fun hAgrees => ⟨Said.agrees_of_not hNames, fun _ =>
        ⟨hAgrees, fun h => absurd h hSome⟩⟩, fun hBoth => (hBoth.2 hNames).1⟩
  · -- no player state is named at all
    have hInnerUnset : n.changed.playerState = false :=
      Bool.eq_false_iff.2 fun hSet => hInnerNames (hInner.bit.1 hSet)
    refine iff_of_true ⟨?_, ?_⟩ ⟨Said.agrees_of_not hNames, fun _ =>
      ⟨Said.agrees_of_not hInnerNames, fun _ => hInnerNames⟩⟩
    · rw [hBit, hPlayer, hUnset, hInnerUnset, Bool.false_and, if_neg Bool.false_ne_true,
        hOuter.unknown hNames]
      exact iff_of_false Bool.false_ne_true fun hNe => hNe rfl
    · rw [hDevice, hPlayer, hState, hInnerUnset, Bool.false_and, if_neg Bool.false_ne_true]
      intro hAny
      cases hToo : e.changed.deviceState with
      | true =>
        rw [Bool.not_true, Bool.and_false, if_neg Bool.false_ne_true]
        exact hOuter.device hToo
      | false =>
        rw [hToo, Bool.false_or] at hAny
        rw [hAny, Bool.not_false, Bool.and_true, if_pos rfl, hOuter.unknown hNames,
          ← hInner.unknown hInnerNames]
        exact hInner.device hAny

end Merge

/-- The search for the nested object, for its text alone. -/
def nestedText (heap : Nat → Bool) (json : Bytes) (capacity : Nat) :
    List Bytes → Nat → Bytes → Option Bytes
  | [], _, _ => none
  | key :: keys, k, out =>
    match miplayJsonCopyStringAliases json capacity (key :: keys) out with
    | (out, false) => nestedText heap json capacity keys k out
    | (out, true) =>
      let text := cstr out
      if peek out ≠ 0x7B ∧ peek out ≠ 0x5B then nestedText heap json capacity keys k out
      else if heap k ∧ text.length ≤ miplayMaxFramePayload ∧ heap (k + 1) ∧
          (jsonMembers (text ++ [0]) miplayMediaEventInit).2 then some text
      else nestedText heap json capacity keys (k + 2) out

theorem parseJsonNested_eq (heap : Nat → Bool) {text : Bytes} (hText : text ≠ []) :
    parseJsonNested heap text =
      if text.length ≤ miplayMaxFramePayload ∧ heap 0 ∧
          (jsonMembers (text ++ [0]) miplayMediaEventInit).2 then
        some (jsonMembers (text ++ [0]) miplayMediaEventInit).1
      else none := by
  rw [parseJsonNested]
  by_cases hLong : text.length > miplayMaxFramePayload
  · rw [if_pos (.inr (.inl hLong)), if_neg fun hFits => absurd hFits.1 (by omega)]
  cases hHeap : heap 0 with
  | false => simp
  | true =>
    rw [if_neg (by simp [hText, hLong])]
    rcases jsonMembers (text ++ [0]) miplayMediaEventInit with ⟨e, ok⟩
    cases ok <;> simp [Nat.le_of_not_gt hLong]

theorem nestedObject_eq (heap : Nat → Bool) (json : Bytes) (capacity : Nat) (keys : List Bytes)
    (k : Nat) (out : Bytes) :
    nestedObject heap json capacity keys k out =
      (nestedText heap json capacity keys k out).map fun text =>
        (jsonMembers (text ++ [0]) miplayMediaEventInit).1 := by
  induction keys generalizing k out with
  | nil => rfl
  | cons key keys ih =>
    rw [nestedObject, nestedText]
    rcases miplayJsonCopyStringAliases json capacity (key :: keys) out with ⟨out', ok⟩
    cases ok with
    | false => exact ih k out'
    | true =>
      simp only
      by_cases hPlain : peek out' ≠ 0x7B ∧ peek out' ≠ 0x5B
      · rw [if_pos hPlain, if_pos hPlain, ih]
      have hText : cstr out' ≠ [] := by
        intro hNil
        have hEnd := (cstr_eq_nil_iff out').1 hNil
        exact hPlain ⟨by rw [hEnd]; decide, by rw [hEnd]; decide⟩
      rw [if_neg hPlain, if_neg hPlain, parseJsonNested_eq _ hText]
      cases hHeap : heap k with
      | false => simp [ih]
      | true =>
        simp only [Nat.add_zero]
        by_cases hRead : (cstr out').length ≤ miplayMaxFramePayload ∧ heap (k + 1) ∧
            (jsonMembers (cstr out' ++ [0]) miplayMediaEventInit).2
        · simp [hRead]
        · simp [hRead, ih]

-- ---------------------------------------------------------------------------
-- The four readers
-- ---------------------------------------------------------------------------

inductive EventReader where
  /-- `miplay_parse_set_media_info_json` -/
  | json
  /-- `miplay_parse_media_info_ex` -/
  | mediaInfoEx
  /-- `miplay_parse_notify_payload` -/
  | notify
  /-- `miplay_parse_media_state_payload` -/
  | mediaState

/-- The event a reader gives for a payload that it accepts. -/
def EventReader.read (heap : Nat → Bool) (payload : Bytes) : EventReader → Option MediaEvent
  | .json =>
    let r := miplayParseSetMediaInfoJson heap payload miplayMediaEventInit
    if r.2 then some r.1 else none
  | .mediaInfoEx => miplayParseMediaInfoEx heap payload
  | .notify => miplayParseNotifyPayload heap payload miplayMediaEventInit
  | .mediaState => miplayParseMediaStatePayload heap payload miplayMediaEventInit

def JsonAgrees (heap : Nat → Bool) (payload : Bytes) : Prop :=
  payload ≠ [] → payload.length ≤ miplayMaxFramePayload → heap 0 →
    (saidBy (payload ++ [0])).AgreesWith
      (if heap 1 then
        (nestedText heap (payload ++ [0]) (payload.length + 1) nestedKeys 2 []).map fun text =>
          saidBy (text ++ [0])
      else none)

/-- The payload is one `mediaInfoEx` object with a known field. -/
def AcceptedInfoEx (heap : Nat → Bool) (payload : Bytes) : Prop :=
  heap 0 ∧ heap 1 ∧ ∃ fs, IsInfoEx payload fs ∧ ∃ f ∈ fs, Known f

def InfoExAgrees (heap : Nat → Bool) (payload : Bytes) : Prop :=
  heap 0 → heap 1 → ∀ fs, IsInfoEx payload fs → RowAgrees (fs.map RawField.read)

/-- The payload is an object or a row of fields, one of them known. -/
def AcceptedNotify (heap : Nat → Bool) (payload : Bytes) : Prop :=
  AcceptedInfoEx heap payload ∨ heap 2 ∧ ∃ fs, payload = rowBytes fs ∧ ∃ f ∈ fs, Known f

def NotifyAgrees (heap : Nat → Bool) (payload : Bytes) : Prop :=
  InfoExAgrees heap payload ∧ (¬AcceptedInfoEx heap payload → heap 2 →
    ∀ fs, payload = rowBytes fs → RowAgrees (fs.map RawField.read))

/-- A state alone always agrees with itself. -/
def StateAgrees (heap : Nat → Bool) (payload : Bytes) : Prop :=
  heap 0 → NotifyAgrees (fun n => heap (1 + n)) payload ∧
    (¬AcceptedNotify (fun n => heap (1 + n)) payload → JsonAgrees (fun n => heap (4 + n)) payload)

def EventReader.Agrees (heap : Nat → Bool) (payload : Bytes) : EventReader → Prop
  | .json => JsonAgrees heap payload
  | .mediaInfoEx => InfoExAgrees heap payload
  | .notify => NotifyAgrees heap payload
  | .mediaState => StateAgrees heap payload

section Readers

variable {heap : Nat → Bool} {payload : Bytes}

/-- Nothing is said by an object in which no member was found. -/
theorem consistent_of_refused {json : Bytes}
    (hRefused : (jsonMembers json miplayMediaEventInit).2 = false) : (saidBy json).Agrees := by
  have hDevice : miplayJsonReadStateAliases json deviceStateKeys = none := by
    simp only [jsonMembers, Bool.or_eq_false_iff, Option.isSome_eq_false_iff,
      Option.isNone_iff_eq_none] at hRefused
    exact hRefused.2
  simp [Said.Agrees, saidBy, hDevice]

theorem agreesWith_none (s : Said) : s.AgreesWith none ↔ s.Agrees := by
  simp [Said.AgreesWith]

theorem consistent_json :
    (∀ e ∈ EventReader.read heap payload .json, Consistent e) ↔ JsonAgrees heap payload := by
  rw [EventReader.read, JsonAgrees, miplayParseSetMediaInfoJson]
  by_cases hBad : payload = [] ∨ payload.length > miplayMaxFramePayload ∨ !heap 0
  · rw [if_pos hBad]
    refine iff_of_true (by simp) fun hMore hFits hHeap => ?_
    rcases hBad with hNil | hLong | hNone
    · exact absurd hNil hMore
    · omega
    · simp [hHeap] at hNone
  rw [if_neg hBad]
  obtain ⟨hMore, hBad⟩ := not_or.1 hBad
  obtain ⟨hLong, hNone⟩ := not_or.1 hBad
  have hHeap : heap 0 = true := by simpa using hNone
  have hOuter := jsonMembers_states (payload ++ [0])
  have hAlone :
      (∀ e ∈ (if (jsonMembers (payload ++ [0]) miplayMediaEventInit).2 then
        some (jsonMembers (payload ++ [0]) miplayMediaEventInit).1 else none), Consistent e) ↔
        (saidBy (payload ++ [0])).Agrees := by
    split_ifs with hOk
    · rw [← hOuter.agrees_iff]
      simp
    · exact iff_of_true (by simp) (consistent_of_refused (Bool.eq_false_iff.2 hOk))
  simp only [hMore, ne_eq, not_false_eq_true, Nat.le_of_not_gt hLong, hHeap, forall_const]
  cases hNested : heap 1 with
  | false =>
    simp only [Bool.not_false, if_true, Bool.false_eq_true, if_false]
    rw [agreesWith_none]
    exact hAlone
  | true =>
    simp only [Bool.not_true, Bool.false_eq_true, if_false, if_true]
    rw [nestedObject_eq]
    cases nestedText heap (payload ++ [0]) (payload.length + 1) nestedKeys 2 [] with
    | none =>
      rw [Option.map_none, Option.map_none, agreesWith_none]
      exact hAlone
    | some text =>
      rw [Option.map_some, Option.map_some,
        ← consistent_mergeNested hOuter (jsonMembers_states (text ++ [0]))]
      simp

theorem infoEx_isSome :
    (miplayParseMediaInfoEx heap payload).isSome ↔ AcceptedInfoEx heap payload := by
  rw [Option.isSome_iff_exists]
  constructor
  · rintro ⟨e, hRead⟩
    obtain ⟨hEvent, hText, fs, hForm, hKnown, -⟩ := infoEx_eq_some_iff.1 hRead
    exact ⟨hEvent, hText, fs, hForm, hKnown⟩
  · rintro ⟨hEvent, hText, fs, hForm, hKnown⟩
    exact ⟨_, infoEx_eq_some_iff.2 ⟨hEvent, hText, fs, hForm, hKnown, rfl⟩⟩

/-- A row with a device state has a known field. -/
theorem rowAgrees_of_unknown {fs : List RawField} (hUnknown : ¬∃ f ∈ fs, Known f) :
    RowAgrees (fs.map RawField.read) := by
  rintro ⟨x, hMem, hField, -⟩
  obtain ⟨f, hField', rfl⟩ := List.mem_map.1 hMem
  refine absurd ⟨f, hField', ?_⟩ hUnknown
  rw [Known, hField]
  rfl

theorem consistent_infoEx :
    (∀ e ∈ miplayParseMediaInfoEx heap payload, Consistent e) ↔ InfoExAgrees heap payload := by
  constructor
  · intro hAll hEvent hText fs hForm
    by_cases hKnown : ∃ f ∈ fs, Known f
    · exact (consistent_eventOf _).1
        (hAll _ (infoEx_eq_some_iff.2 ⟨hEvent, hText, fs, hForm, hKnown, rfl⟩))
    · exact rowAgrees_of_unknown hKnown
  · intro hAgrees e hRead
    obtain ⟨hEvent, hText, fs, hForm, -, rfl⟩ := infoEx_eq_some_iff.1 hRead
    exact (consistent_eventOf _).2 (hAgrees hEvent hText fs hForm)

/-- **A row of fields** that is no object is accepted if it has a known field. -/
theorem notify_eq_some_iff {e : MediaEvent} :
    miplayParseNotifyPayload heap payload miplayMediaEventInit = some e ↔
      miplayParseMediaInfoEx heap payload = some e ∨
        ¬AcceptedInfoEx heap payload ∧ heap 2 ∧ ∃ fs, payload = rowBytes fs ∧
          (∃ f ∈ fs, Known f) ∧ e = eventOf (fs.map RawField.read) := by
  cases hInfo : miplayParseMediaInfoEx heap payload with
  | some e' =>
    have hAccepted : AcceptedInfoEx heap payload := infoEx_isSome.1 (by rw [hInfo]; rfl)
    have hNil : payload ≠ [] := by
      rintro rfl
      cases hInfo
    rw [miplayParseNotifyPayload, if_neg hNil, hInfo]
    simp [hAccepted]
  | none =>
    have hRefused : ¬AcceptedInfoEx heap payload := fun hAccepted => by
      have hSome := infoEx_isSome.2 hAccepted
      rw [hInfo] at hSome
      cases hSome
    constructor
    · intro hRead
      obtain ⟨fs, rest, hRow, hEnd⟩ := split_row payload
      rw [notify_row hRow hEnd hInfo, foldl_applyField] at hRead
      split_ifs at hRead with hGood
      simp only [Bool.and_eq_true, decide_eq_true_eq, List.any_eq_true] at hGood
      obtain ⟨hHeap, ⟨rfl, hKnown⟩, -⟩ := hGood
      rw [List.append_nil] at hRow
      exact .inr ⟨hRefused, hHeap, fs, hRow, hKnown, (Option.some.inj hRead).symm⟩
    · rintro (hNone | ⟨-, hHeap, fs, hRow, hKnown, rfl⟩)
      · cases hNone
      have hAny : fs.any (fun f => (fieldOf f.read).isSome) = true := List.any_eq_true.2 hKnown
      rw [notify_row (hRow.trans (List.append_nil _).symm) (.inl rfl) hInfo, foldl_applyField,
        hHeap, hAny, (rowEvent_changed fs).2 hKnown]
      rfl

theorem notify_isSome :
    (miplayParseNotifyPayload heap payload miplayMediaEventInit).isSome ↔
      AcceptedNotify heap payload := by
  rw [Option.isSome_iff_exists]
  constructor
  · rintro ⟨e, hRead⟩
    rcases notify_eq_some_iff.1 hRead with hInfo | ⟨-, hHeap, fs, hRow, hKnown, -⟩
    · exact .inl (infoEx_isSome.1 (Option.isSome_iff_exists.2 ⟨e, hInfo⟩))
    · exact .inr ⟨hHeap, fs, hRow, hKnown⟩
  · intro hAccepted
    by_cases hInfo : AcceptedInfoEx heap payload
    · obtain ⟨e, hRead⟩ := Option.isSome_iff_exists.1 (infoEx_isSome.2 hInfo)
      exact ⟨e, notify_eq_some_iff.2 (.inl hRead)⟩
    · obtain ⟨hHeap, fs, hRow, hKnown⟩ := hAccepted.resolve_left hInfo
      exact ⟨_, notify_eq_some_iff.2 (.inr ⟨hInfo, hHeap, fs, hRow, hKnown, rfl⟩)⟩

theorem consistent_notify :
    (∀ e ∈ miplayParseNotifyPayload heap payload miplayMediaEventInit, Consistent e) ↔
      NotifyAgrees heap payload := by
  rw [NotifyAgrees, ← consistent_infoEx]
  constructor
  · intro hAll
    refine ⟨fun e hRead => hAll e (notify_eq_some_iff.2 (.inl hRead)), ?_⟩
    intro hRefused hHeap fs hRow
    by_cases hKnown : ∃ f ∈ fs, Known f
    · exact (consistent_eventOf _).1
        (hAll _ (notify_eq_some_iff.2 (.inr ⟨hRefused, hHeap, fs, hRow, hKnown, rfl⟩)))
    · exact rowAgrees_of_unknown hKnown
  · rintro ⟨hInfo, hFields⟩ e hRead
    rcases notify_eq_some_iff.1 hRead with hObject | ⟨hRefused, hHeap, fs, hRow, -, rfl⟩
    · exact hInfo e hObject
    · exact (consistent_eventOf _).2 (hFields hRefused hHeap fs hRow)

theorem consistent_scalar (p : Bytes) :
    ∀ e ∈ scalarState p miplayMediaEventInit, Consistent e := by
  intro e hRead
  rw [scalarState] at hRead
  simp only [Option.mem_def] at hRead
  split_ifs at hRead with hUnknown
  obtain rfl := Option.some.inj hRead
  exact ⟨iff_of_true rfl hUnknown, fun _ => rfl⟩

theorem consistent_state :
    (∀ e ∈ miplayParseMediaStatePayload heap payload miplayMediaEventInit, Consistent e) ↔
      StateAgrees heap payload := by
  rw [StateAgrees, ← consistent_notify, ← consistent_json, ← notify_isSome, EventReader.read,
    miplayParseMediaStatePayload]
  by_cases hBad : payload = [] ∨ !heap 0
  · rw [if_pos hBad]
    refine iff_of_true (by simp) fun hHeap => ?_
    obtain rfl := hBad.resolve_right (by simp [hHeap])
    simp [miplayParseNotifyPayload, miplayParseSetMediaInfoJson]
  rw [if_neg hBad]
  have hHeap : heap 0 = true := by simpa using (not_or.1 hBad).2
  simp only [hHeap, forall_const]
  cases hNotify : miplayParseNotifyPayload (fun n => heap (1 + n)) payload miplayMediaEventInit with
  | some e => simp
  | none =>
    rcases hJson : miplayParseSetMediaInfoJson (fun n => heap (4 + n)) payload
      miplayMediaEventInit with ⟨e, ok⟩
    cases ok with
    | true => simp
    | false =>
      refine iff_of_true ?_ (by simp)
      simp only
      split_ifs
      · exact consistent_scalar payload
      · exact consistent_scalar (payload.drop 1)
      · simp

end Readers

/-- **The event of any reader.** -/
theorem consistent_iff (reader : EventReader) (heap : Nat → Bool) (payload : Bytes) :
    (∀ e ∈ reader.read heap payload, Consistent e) ↔ reader.Agrees heap payload := by
  cases reader with
  | json => exact consistent_json
  | mediaInfoEx => exact consistent_infoEx
  | notify => exact consistent_notify
  | mediaState => exact consistent_state

/-- The status names a state, the device state behind it does not. -/
def playingThenNine : Bytes := ascii "\x7b\"status\":2,\"state\":9\x7d"

theorem bit_of_unknown :
    ¬∀ (reader : EventReader) (heap : Nat → Bool) (payload : Bytes),
      ∀ e ∈ reader.read heap payload, Consistent e := by
  intro hAll
  have hRead : EventReader.read (fun _ => true) playingThenNine .json =
      some { miplayMediaEventInit with
        status := 2, deviceState := 9
        changed := { status := true, deviceState := true, playerState := true } } := by
    decide +kernel
  exact (hAll .json (fun _ => true) playingThenNine _ hRead).bit.1 rfl rfl

end EspMiplay.Miplay
