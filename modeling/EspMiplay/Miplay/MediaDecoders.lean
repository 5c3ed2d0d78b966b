import EspMiplay.Miplay.MediaForms

/-!
# Where the two decoders agree

JSON drops a text that does not fit its buffer or is blank, and removes the blanks around
the others; OPack cuts a text and keeps its blanks. JSON knows two names OPack does not.
It takes the status for the device state where there is none, and the other way round
under the names both have. A state beyond 31 bits is cut off by JSON and saturated by
OPack.

## Results

* `fieldsAgree_iff`     — the records of which both decoders make the same event.
* `decoders_agree_iff`  — the same for what the decoders return.
-/

namespace EspMiplay.Miplay

/-- The same event: texts as C strings. -/
structure SameEvent (a b : MediaEvent) : Prop where
  changed : a.changed = b.changed
  id : cstr a.id = cstr b.id
  audioId : cstr a.audioId = cstr b.audioId
  title : cstr a.title = cstr b.title
  artist : cstr a.artist = cstr b.artist
  album : cstr a.album = cstr b.album
  coverUrl : cstr a.coverUrl = cstr b.coverUrl
  durationMs : a.durationMs = b.durationMs
  positionMs : a.positionMs = b.positionMs
  status : a.status = b.status
  deviceState : a.deviceState = b.deviceState
  playerState : a.playerState = b.playerState

/-- Both refuse the payload, or both make the same event of it. -/
def SameOutcome : Option MediaEvent → Option MediaEvent → Prop
  | none, none => True
  | some a, some b => SameEvent a b
  | _, _ => False

instance (a b : MediaEvent) : Decidable (SameEvent a b) :=
  decidable_of_iff
    (a.changed = b.changed ∧ cstr a.id = cstr b.id ∧ cstr a.audioId = cstr b.audioId ∧
      cstr a.title = cstr b.title ∧ cstr a.artist = cstr b.artist ∧ cstr a.album = cstr b.album ∧
      cstr a.coverUrl = cstr b.coverUrl ∧ a.durationMs = b.durationMs ∧
      a.positionMs = b.positionMs ∧ a.status = b.status ∧ a.deviceState = b.deviceState ∧
      a.playerState = b.playerState)
    ⟨fun ⟨h₁, h₂, h₃, h₄, h₅, h₆, h₇, h₈, h₉, h₁₀, h₁₁, h₁₂⟩ =>
      ⟨h₁, h₂, h₃, h₄, h₅, h₆, h₇, h₈, h₉, h₁₀, h₁₁, h₁₂⟩,
      fun ⟨h₁, h₂, h₃, h₄, h₅, h₆, h₇, h₈, h₉, h₁₀, h₁₁, h₁₂⟩ =>
        ⟨h₁, h₂, h₃, h₄, h₅, h₆, h₇, h₈, h₉, h₁₀, h₁₁, h₁₂⟩⟩

instance : (a b : Option MediaEvent) → Decidable (SameOutcome a b)
  | none, none => isTrue trivial
  | some a, some b => inferInstanceAs (Decidable (SameEvent a b))
  | none, some _ => isFalse nofun
  | some _, none => isFalse nofun

/-! ## Texts -/

theorem cstr_eq_nil_iff (p : Bytes) : cstr p = [] ↔ peek p = 0 := by
  cases p with
  | nil => exact ⟨fun _ => rfl, fun _ => rfl⟩
  | cons c cs => by_cases hNul : c = 0 <;> simp [cstr, peek, hNul]

theorem ne_nul_of_mem_cstr {p : Bytes} {c : UInt8} (h : c ∈ cstr p) : c ≠ 0 :=
  of_decide_eq_true (List.all_eq_true.1 List.all_takeWhile c h)

theorem cstr_append_nul_of_no_nul {s : Bytes} (h : ∀ c ∈ s, c ≠ 0) (rest : Bytes) :
    cstr (s ++ 0 :: rest) = s := by
  rw [cstr, List.takeWhile_append_of_pos fun c hMem => by simp [h c hMem],
    List.takeWhile_cons_of_neg (by simp), List.append_nil]

theorem cstr_of_no_nul {s : Bytes} (h : ∀ c ∈ s, c ≠ 0) : cstr s = s := by
  rw [← cstr_append_nul, cstr_append_nul_of_no_nul h]

theorem mem_of_mem_trimmed {s : Bytes} {c : UInt8} (h : c ∈ trimmed s) : c ∈ s := by
  rw [trimmed, List.mem_reverse] at h
  have hFront := List.mem_reverse.1 ((List.dropWhile_suffix _).mem h)
  exact (List.dropWhile_suffix _).mem hFront

section Texts

variable {f : MediaField} {size : Nat}

/-- A text both decoders read alike: it fits, and there is no blank at its ends. Under a
name OPack does not know it has to be empty. -/
def TextAgrees (size : Nat) : Option (Named f Bytes) → Prop
  | none => True
  | some m =>
    if m.name ∈ f.heard then
      m.value.length < size ∧ trimmed (cstr m.value) = cstr m.value ∧ cstr m.value ≠ []
    else peek m.value = 0

/-- The C string and the bit. -/
def shown (text : Bytes × Bool) : Bytes × Bool := (cstr text.1, text.2)

theorem shown_copyText (t : Bytes) :
    shown (copyText size t) =
      if t.length < size then
        if trimmed (cstr t) = [] then (cstr t, false) else (trimmed (cstr t), true)
      else (cstr (t.take (size - 1)), false) := by
  have hNoNul : ∀ c ∈ trimmed (cstr t), c ≠ 0 := fun c hMem =>
    ne_nul_of_mem_cstr (mem_of_mem_trimmed hMem)
  unfold copyText
  split_ifs
  · rw [shown, cstr_append_nul]
  · simp only [shown, overlay, List.append_assoc, List.singleton_append,
      cstr_append_nul_of_no_nul hNoNul]
  · rfl

theorem trimmed_nil : trimmed [] = [] := rfl

theorem cstr_nil : cstr [] = [] := rfl

theorem textAgrees_iff (hSize : 1 < size) (hMax : size ≤ miplayCoverSourceMax)
    (x : Option (Named f Bytes)) :
    TextAgrees size x ↔
      shown (MediaFields.readText size x) = shown (MediaFields.heardText size x) := by
  cases x with
  | none => exact ⟨fun _ => rfl, fun _ => trivial⟩
  | some m =>
    rw [MediaFields.readText, shown_copyText, MediaFields.heardText, TextAgrees]
    split_ifs with hHeard hFits hBlank hFits hBlank
    · exact ⟨fun hAgrees => absurd (hAgrees.2.1.symm.trans hBlank) hAgrees.2.2, fun hShown =>
        Bool.noConfusion (Prod.mk.inj hShown).2⟩
    · have hWhole : m.value.take (miplayCoverSourceMax - 1) = m.value :=
        List.take_of_length_le (by omega)
      have hText : strncpy size (cstr m.value) = cstr m.value := by
        rw [strncpy, cstr_of_no_nul fun c => ne_nul_of_mem_cstr]
        have hCstr : (cstr m.value).length ≤ m.value.length := (List.takeWhile_prefix _).length_le
        exact List.take_of_length_le (by omega)
      have hNe : trimmed (cstr m.value) = cstr m.value → cstr m.value ≠ [] := fun hSame hNil =>
        hBlank (hSame.trans hNil)
      rw [hWhole, hText, shown, cstr_of_no_nul fun c => ne_nul_of_mem_cstr]
      exact ⟨fun hAgrees => by rw [hAgrees.2.1], fun hShown =>
        have hSame := (Prod.mk.inj hShown).1
        ⟨hFits, hSame, hNe hSame⟩⟩
    · simp [shown, hFits]
    · simp [shown, cstr_nil, cstr_eq_nil_iff]
    · have hNot : peek m.value ≠ 0 := fun hNul => hBlank (by
        rw [(cstr_eq_nil_iff _).2 hNul, trimmed_nil])
      simp [shown, hNot]
    · have hFirst : peek (m.value.take (size - 1)) = peek m.value := by
        obtain ⟨n, hn⟩ : ∃ n, size - 1 = n + 1 := Nat.exists_eq_succ_of_ne_zero (by omega)
        rw [hn]
        cases m.value <;> rfl
      simp [shown, cstr_nil, cstr_eq_nil_iff, hFirst]

end Texts

/-! ## States -/

/-- The part of an event that says what the player does. -/
structure StateView where
  status : Int
  deviceState : Int
  playerState : PlayerState
  statusChanged : Bool
  deviceStateChanged : Bool
  playerStateChanged : Bool
  deriving DecidableEq

def stateView (e : MediaEvent) : StateView where
  status := e.status
  deviceState := e.deviceState
  playerState := e.playerState
  statusChanged := e.changed.status
  deviceStateChanged := e.changed.deviceState
  playerStateChanged := e.changed.playerState

def withStates (e : MediaEvent) (v : StateView) : MediaEvent :=
  { e with
    status := v.status
    deviceState := v.deviceState
    playerState := v.playerState
    changed := { e.changed with
      status := v.statusChanged
      deviceState := v.deviceStateChanged
      playerState := v.playerStateChanged } }

/-- A state in 31 bits, or one JSON cuts off to the very value OPack saturates at. -/
def StateFits (n : Int) : Prop := (0 ≤ n ∧ n ≤ 0x7fffffff) ∨ n % 0x100000000 = 0x7fffffff

instance (n : Int) : Decidable (StateFits n) := inferInstanceAs (Decidable (_ ∨ _))

theorem stateFits_iff (n : WireInt) :
    StateFits n.val ↔ toInt32 n.val = MediaFields.opackState n.val := by
  obtain ⟨hLow, hHigh⟩ := n.range
  unfold StateFits toInt32 MediaFields.opackState opackIntegerToInt int64Word
  split_ifs <;> omega

/-- A state the player knows is not cut off. -/
theorem player_toInt32 {n : Int} (h : StateFits n) :
    miplayWireStateToPlayer (toInt32 n) = miplayWireStateToPlayer n := by
  by_cases hSmall : 0 ≤ n ∧ n ≤ 0x7fffffff
  · have hSame : toInt32 n = n := by
      unfold toInt32
      omega
    rw [hSame]
  · have hMax : toInt32 n = 0x7fffffff := by
      unfold StateFits at h
      unfold toInt32
      omega
    have hNot : n ≠ 2 ∧ n ≠ 3 ∧ n ≠ 0 := by omega
    simp [hMax, miplayWireStateToPlayer, hNot]

/-- The states both decoders read alike. A status alone must not name a player state,
a device state alone must not have a name the status has too, and of both the device
state has to name a player state if the status does. -/
def StatesAgree : Option (Named .status WireInt) → Option (Named .deviceState WireInt) → Prop
  | none, none => True
  | some s, none =>
    s.name ∈ statusNames ∧ StateFits s.value.val ∧ miplayWireStateToPlayer s.value.val = .unknown
  | none, some d => d.name ∉ MediaField.status.names ∧ StateFits d.value.val
  | some s, some d =>
    s.name ∈ statusNames ∧ StateFits s.value.val ∧ StateFits d.value.val ∧
      (miplayWireStateToPlayer s.value.val ≠ .unknown →
        miplayWireStateToPlayer d.value.val ≠ .unknown)

namespace MediaFields

/-- Nothing else of the event is touched. -/
def Frames (e e' : MediaEvent) : Prop := e' = withStates e (stateView e')

theorem Frames.refl (e : MediaEvent) : Frames e e := rfl

theorem Frames.trans {a b c : MediaEvent} (hab : Frames a b) (hbc : Frames b c) : Frames a c :=
  calc c = withStates b (stateView c) := hbc
    _ = withStates (withStates a (stateView b)) (stateView c) :=
      congrArg (withStates · (stateView c)) hab
    _ = withStates a (stateView c) := rfl

theorem frames_applyJsonStatus (n : Int) (e : MediaEvent) : Frames e (applyJsonStatus n e) := by
  simp only [Frames, applyJsonStatus]
  split_ifs <;> rfl

theorem frames_applyJsonDeviceState (n : Int) (e : MediaEvent) :
    Frames e (applyJsonDeviceState n e) := rfl

theorem frames_jsonStates (status deviceState : Option Int) (e : MediaEvent) :
    Frames e (jsonStates status deviceState e) := by
  have hStatus : Frames e (status.elim e fun n => applyJsonStatus n e) := by
    cases status with
    | none => exact .refl e
    | some n => exact frames_applyJsonStatus n e
  cases deviceState with
  | none => exact hStatus
  | some n => exact hStatus.trans (frames_applyJsonDeviceState n _)

theorem changed_status_applyJsonStatus (n : Int) (e : MediaEvent) :
    (applyJsonStatus n e).changed.status = true := by
  simp only [applyJsonStatus]
  split_ifs <;> rfl

theorem statusChanged_jsonStates (status deviceState : Option Int) (e : MediaEvent) :
    (stateView (jsonStates status deviceState e)).statusChanged =
      (e.changed.status || status.isSome) := by
  have hKept : (stateView (jsonStates status deviceState e)).statusChanged =
      (status.elim e fun n => applyJsonStatus n e).changed.status := by
    cases deviceState <;> rfl
  rw [hKept]
  cases status with
  | none => simp
  | some n => simp [changed_status_applyJsonStatus]

theorem frames_hear {f : MediaField} (hState : f.IsState) (e : MediaEvent)
    (x : Option (Named f WireInt)) : Frames e (hear e (x.map Named.number)) := by
  cases x with
  | none => exact .refl e
  | some m =>
    show Frames e (applyMember e m.number)
    rw [applyMember_number m hState]
    split_ifs <;> rfl

variable (r : MediaFields)

theorem frames_jsonEvent : Frames r.jsonTexts r.jsonEvent := frames_jsonStates _ _ _

theorem frames_opackEvent : Frames r.opackTexts r.opackEvent :=
  (frames_hear (.inl rfl) r.opackTexts r.status).trans
    (frames_hear (.inr rfl) _ r.deviceState)

/-! ### The states of a record -/

theorem stateView_jsonEvent {status deviceState : Option Int}
    (hStatus : miplayJsonReadStateAliases (r.jsonForm ++ [0]) statusKeys = status)
    (hDevice : miplayJsonReadStateAliases (r.jsonForm ++ [0]) deviceStateKeys = deviceState) :
    stateView r.jsonEvent = stateView (jsonStates status deviceState r.jsonTexts) := by
  rw [jsonEvent, hStatus, hDevice]

theorem stateView_opackEvent {status : Option (Named .status WireInt)}
    {deviceState : Option (Named .deviceState WireInt)} (hStatus : r.status = status)
    (hDevice : r.deviceState = deviceState) :
    stateView r.opackEvent =
      stateView (hear (hear r.opackTexts (status.map Named.number)) (deviceState.map Named.number)) := by
  rw [opackEvent, member, member, hStatus, hDevice]

/-- JSON takes a status from a member that is none for OPack. -/
theorem states_differ {m : Member} (hMem : m ∈ r.members) (hName : m.name ∈ MediaField.status.names)
    (hOwn : ∀ s ∈ r.status, s.name ∉ statusNames) :
    stateView r.jsonEvent ≠ stateView r.opackEvent := by
  have hJson : (stateView r.jsonEvent).statusChanged = true := by
    rw [jsonEvent, statusChanged_jsonStates, json_status_isSome hMem hName, Bool.or_true]
  have hDevice : ∀ (e : MediaEvent), (hear e (r.member .deviceState)).changed.status =
      e.changed.status := by
    intro e
    rw [member]
    cases r.deviceState with
    | none => rfl
    | some d =>
      show (applyMember e d.number).changed.status = _
      rw [applyMember_number d (.inr rfl), if_neg (not_mem_statusNames (by decide) _ d.known)]
      rfl
  have hStatus : (hear r.opackTexts (r.member .status)).changed.status = false := by
    rw [member]
    cases hField : r.status with
    | none => rfl
    | some s =>
      show (applyMember r.opackTexts s.number).changed.status = _
      rw [applyMember_number s (.inl rfl), if_neg (hOwn s hField)]
      rfl
  intro hSame
  have hOpack : (stateView r.opackEvent).statusChanged = false := (hDevice _).trans hStatus
  rw [hSame, hOpack] at hJson
  exact Bool.noConfusion hJson

/-- What the status alone leaves. -/
theorem stateView_status (n : Int) :
    stateView (applyJsonStatus n r.jsonTexts) =
      if miplayWireStateToPlayer (toInt32 n) = .unknown then
        ⟨toInt32 n, -1, .unknown, true, false, false⟩
      else
        ⟨toInt32 n, toInt32 n, miplayWireStateToPlayer (toInt32 n), true, true, true⟩ := by
  simp only [applyJsonStatus]
  by_cases hPlayer : miplayWireStateToPlayer (toInt32 n) = .unknown
  · simp [hPlayer, stateView, jsonTexts]
  · simp [hPlayer, stateView]

theorem statesAgree_status {s : Named .status WireInt} (hStatus : r.status = some s)
    (hDevice : r.deviceState = none) (hOwn : s.name ∈ statusNames) :
    StateFits s.value.val ∧ miplayWireStateToPlayer s.value.val = .unknown ↔
      stateView r.jsonEvent = stateView r.opackEvent := by
  have hRead : miplayJsonReadStateAliases (r.jsonForm ++ [0]) deviceStateKeys = none := by
    rw [json_deviceState fun s' hMem => ?_, hDevice]
    · rfl
    · rw [hStatus] at hMem
      obtain rfl := Option.some.inj hMem
      exact hOwn
  have hOpack : stateView r.opackEvent =
      ⟨opackState s.value.val, -1, .unknown, true, false, false⟩ := by
    rw [r.stateView_opackEvent hStatus hDevice]
    show stateView (applyMember r.opackTexts s.number) = _
    rw [applyMember_number s (.inl rfl), if_pos hOwn]
    rfl
  have hJson : stateView r.jsonEvent = stateView (applyJsonStatus s.value.val r.jsonTexts) :=
    r.stateView_jsonEvent (json_status hStatus hOwn) hRead
  rw [hOpack, hJson, r.stateView_status]
  constructor
  · rintro ⟨hFits, hPlayer⟩
    rw [if_pos ((player_toInt32 hFits).trans hPlayer), (stateFits_iff _).1 hFits]
  · intro hSame
    split_ifs at hSame with hPlayer
    · have hFits := (stateFits_iff _).2 (congrArg StateView.status hSame)
      exact ⟨hFits, (player_toInt32 hFits).symm.trans hPlayer⟩
    · exact Bool.noConfusion (congrArg StateView.deviceStateChanged hSame)

theorem statesAgree_device {d : Named .deviceState WireInt} (hStatus : r.status = none)
    (hDevice : r.deviceState = some d) (hOther : d.name ∉ MediaField.status.names) :
    StateFits d.value.val ↔ stateView r.jsonEvent = stateView r.opackEvent := by
  have hNone := json_status_none (r := r) hStatus fun d' hMem => by
    rw [hDevice] at hMem
    obtain rfl := Option.some.inj hMem
    exact hOther
  have hRead := json_deviceState (r := r) (by simp [hStatus])
  have hOpack : stateView r.opackEvent =
      stateView (setDevice (opackState d.value.val) r.opackTexts) := by
    rw [r.stateView_opackEvent hStatus hDevice]
    show stateView (applyMember r.opackTexts d.number) = _
    rw [applyMember_number d (.inr rfl), if_neg (not_mem_statusNames (by decide) _ d.known)]
  have hJson : stateView r.jsonEvent = stateView (applyJsonDeviceState d.value.val r.jsonTexts) := by
    rw [hDevice] at hRead
    exact r.stateView_jsonEvent hNone hRead
  rw [hOpack, hJson, stateFits_iff]
  constructor
  · intro hState
    simp [stateView, applyJsonDeviceState, setDevice, hState, jsonTexts, opackTexts]
  · exact congrArg StateView.deviceState

theorem statesAgree_both {s : Named .status WireInt} {d : Named .deviceState WireInt}
    (hStatus : r.status = some s) (hDevice : r.deviceState = some d)
    (hOwn : s.name ∈ statusNames) :
    (StateFits s.value.val ∧ StateFits d.value.val ∧
      (miplayWireStateToPlayer s.value.val ≠ .unknown →
        miplayWireStateToPlayer d.value.val ≠ .unknown)) ↔
      stateView r.jsonEvent = stateView r.opackEvent := by
  have hRead := json_deviceState (r := r) fun s' hMem => by
    rw [hStatus] at hMem
    obtain rfl := Option.some.inj hMem
    exact hOwn
  have hOpack : stateView r.opackEvent =
      ⟨opackState s.value.val, opackState d.value.val,
        miplayWireStateToPlayer (opackState d.value.val), true, true,
        miplayWireStateToPlayer (opackState d.value.val) ≠ .unknown⟩ := by
    rw [r.stateView_opackEvent hStatus hDevice]
    show stateView (applyMember (applyMember r.opackTexts s.number) d.number) = _
    rw [applyMember_number d (.inr rfl), if_neg (not_mem_statusNames (by decide) _ d.known),
      applyMember_number s (.inl rfl), if_pos hOwn]
    simp [setDevice, stateView, opackTexts]
  have hJson : stateView r.jsonEvent =
      ⟨toInt32 s.value.val, toInt32 d.value.val, miplayWireStateToPlayer (toInt32 d.value.val),
        true, true, miplayWireStateToPlayer (toInt32 s.value.val) ≠ .unknown ∨
          miplayWireStateToPlayer (toInt32 d.value.val) ≠ .unknown⟩ := by
    rw [hDevice] at hRead
    rw [r.stateView_jsonEvent (json_status hStatus hOwn) hRead]
    simp only [jsonStates, Option.elim, Option.map, applyJsonStatus]
    by_cases hPlayer : miplayWireStateToPlayer (toInt32 s.value.val) = .unknown
    · simp [hPlayer, applyJsonDeviceState, stateView, jsonTexts]
    · simp [hPlayer, applyJsonDeviceState, stateView]
  rw [hOpack, hJson]
  simp only [StateView.mk.injEq, true_and, ← stateFits_iff]
  constructor
  · rintro ⟨hFits, hFits', hPlayer⟩
    refine ⟨hFits, hFits', by rw [(stateFits_iff _).1 hFits'], ?_⟩
    rw [← (stateFits_iff _).1 hFits', player_toInt32 hFits, player_toInt32 hFits', decide_eq_decide]
    exact or_iff_right_of_imp hPlayer
  · rintro ⟨hFits, hFits', -, hPlayer⟩
    rw [← (stateFits_iff _).1 hFits', player_toInt32 hFits, player_toInt32 hFits',
      decide_eq_decide] at hPlayer
    exact ⟨hFits, hFits', fun hKnown => hPlayer.1 (.inl hKnown)⟩

theorem statesAgree_iff :
    StatesAgree r.status r.deviceState ↔ stateView r.jsonEvent = stateView r.opackEvent := by
  cases hStatus : r.status with
  | none =>
    cases hDevice : r.deviceState with
    | none =>
      have hNone := json_status_none (r := r) hStatus (by simp [hDevice])
      have hRead := json_deviceState (r := r) (by simp [hStatus])
      rw [hDevice] at hRead
      rw [r.stateView_jsonEvent hNone hRead, r.stateView_opackEvent hStatus hDevice]
      exact iff_of_true trivial rfl
    | some d =>
      by_cases hShared : d.name ∈ MediaField.status.names
      · have hMem : d.number ∈ r.members :=
          mem_members.2 ⟨.deviceState, by rw [member, hDevice]; rfl⟩
        exact iff_of_false (fun hAgrees => hAgrees.1 hShared)
          (r.states_differ hMem hShared (by simp [hStatus]))
      · exact (and_iff_right hShared).trans (r.statesAgree_device hStatus hDevice hShared)
  | some s =>
    by_cases hOwn : s.name ∈ statusNames
    · cases hDevice : r.deviceState with
      | none => exact (and_iff_right hOwn).trans (r.statesAgree_status hStatus hDevice hOwn)
      | some d => exact (and_iff_right hOwn).trans (r.statesAgree_both hStatus hDevice hOwn)
    · have hMem : s.number ∈ r.members := mem_members.2 ⟨.status, by rw [member, hStatus]; rfl⟩
      have hDiffer := r.states_differ hMem s.known (by simp [hStatus, hOwn])
      cases r.deviceState with
      | none => exact iff_of_false (fun hAgrees => hOwn hAgrees.1) hDiffer
      | some d => exact iff_of_false (fun hAgrees => hOwn hAgrees.1) hDiffer

/-! ## Whole records -/

/-- Both decoders make the same event of the record. -/
structure FieldsAgree (r : MediaFields) : Prop where
  id : TextAgrees 64 r.id
  audioId : TextAgrees 64 r.audioId
  title : TextAgrees 128 r.title
  artist : TextAgrees 128 r.artist
  album : TextAgrees 128 r.album
  coverUrl : TextAgrees miplayCoverSourceMax r.coverUrl
  states : StatesAgree r.status r.deviceState

theorem sameEvent_iff {a b : MediaEvent} {e e' : MediaEvent} (ha : Frames a e) (hb : Frames b e') :
    SameEvent e e' ↔
      (∀ f, shown (eventText a f) = shown (eventText b f)) ∧
        (a.durationMs, a.changed.duration) = (b.durationMs, b.changed.duration) ∧
        (a.positionMs, a.changed.position) = (b.positionMs, b.changed.position) ∧
        stateView e = stateView e' := by
  rw [ha, hb]
  constructor
  · rintro ⟨hChanged, hId, hAudioId, hTitle, hArtist, hAlbum, hCover, hDuration, hPosition, hStatus,
      hDevice, hPlayer⟩
    simp only [withStates, Changed.mk.injEq] at hChanged hStatus hDevice hPlayer hDuration hPosition
    obtain ⟨cId, cAudioId, cTitle, cArtist, cAlbum, cCover, cDuration, cPosition, cStatus, cDevice,
      cPlayer⟩ := hChanged
    refine ⟨fun f => ?_, Prod.ext hDuration cDuration, Prod.ext hPosition cPosition, ?_⟩
    · cases f
      · exact Prod.ext hId cId
      · exact Prod.ext hAudioId cAudioId
      · exact Prod.ext hTitle cTitle
      · exact Prod.ext hArtist cArtist
      · exact Prod.ext hAlbum cAlbum
      · exact Prod.ext hCover cCover
      all_goals rfl
    · simp only [withStates, stateView, StateView.mk.injEq] at *
      exact ⟨hStatus, hDevice, hPlayer, cStatus, cDevice, cPlayer⟩
  · rintro ⟨hTexts, hDuration, hPosition, hStates⟩
    have hStates' : stateView e = stateView e' := by
      simpa [withStates, stateView] using hStates
    have hText : ∀ f, cstr (eventText a f).1 = cstr (eventText b f).1 := fun f =>
      (Prod.mk.inj (hTexts f)).1
    have hBit : ∀ f, (eventText a f).2 = (eventText b f).2 := fun f => (Prod.mk.inj (hTexts f)).2
    exact
      { changed := by
          simp only [withStates, hStates', Changed.mk.injEq, and_true]
          exact ⟨hBit .id, hBit .audioId, hBit .title, hBit .artist, hBit .album, hBit .coverUrl,
            (Prod.mk.inj hDuration).2, (Prod.mk.inj hPosition).2⟩
        id := hText .id
        audioId := hText .audioId
        title := hText .title
        artist := hText .artist
        album := hText .album
        coverUrl := hText .coverUrl
        durationMs := (Prod.mk.inj hDuration).1
        positionMs := (Prod.mk.inj hPosition).1
        status := congrArg StateView.status hStates'
        deviceState := congrArg StateView.deviceState hStates'
        playerState := congrArg StateView.playerState hStates' }

theorem fieldsAgree_iff : r.FieldsAgree ↔ SameEvent r.jsonEvent r.opackEvent := by
  have hText : ∀ {f : MediaField} {size : Nat} (x : Option (Named f Bytes)), 1 < size →
      size ≤ miplayCoverSourceMax →
      (TextAgrees size x ↔ shown (readText size x) = shown (heardText size x)) := fun x hLow hHigh =>
    textAgrees_iff hLow hHigh x
  rw [sameEvent_iff r.frames_jsonEvent r.frames_opackEvent, ← statesAgree_iff]
  constructor
  · rintro ⟨hId, hAudioId, hTitle, hArtist, hAlbum, hCover, hStates⟩
    refine ⟨fun f => ?_, rfl, rfl, hStates⟩
    cases f
    · exact (hText r.id (by decide) (by decide)).1 hId
    · exact (hText r.audioId (by decide) (by decide)).1 hAudioId
    · exact (hText r.title (by decide) (by decide)).1 hTitle
    · exact (hText r.artist (by decide) (by decide)).1 hArtist
    · exact (hText r.album (by decide) (by decide)).1 hAlbum
    · exact (hText r.coverUrl (by decide) (by decide)).1 hCover
    all_goals rfl
  · rintro ⟨hTexts, -, -, hStates⟩
    exact
      ⟨(hText r.id (by decide) (by decide)).2 (hTexts .id),
        (hText r.audioId (by decide) (by decide)).2 (hTexts .audioId),
        (hText r.title (by decide) (by decide)).2 (hTexts .title),
        (hText r.artist (by decide) (by decide)).2 (hTexts .artist),
        (hText r.album (by decide) (by decide)).2 (hTexts .album),
        (hText r.coverUrl (by decide) (by decide)).2 (hTexts .coverUrl), hStates⟩

/-- OPack knows no name of the record. -/
structure Unheard (r : MediaFields) : Prop where
  id : ∀ m ∈ r.id, m.name ∉ idNames
  audioId : ∀ m ∈ r.audioId, m.name ∉ audioIdNames
  title : ∀ m ∈ r.title, m.name ∉ titleNames
  artist : ∀ m ∈ r.artist, m.name ∉ artistNames
  album : ∀ m ∈ r.album, m.name ∉ albumNames
  coverUrl : ∀ m ∈ r.coverUrl, m.name ∉ coverNames
  duration : r.duration = none
  position : r.position = none
  status : r.status = none
  deviceState : r.deviceState = none

/-- JSON does not take the text: it is too long for the buffer, or blank. -/
def Untaken {f : MediaField} (size : Nat) (x : Option (Named f Bytes)) : Prop :=
  ∀ m ∈ x, size ≤ m.value.length ∨ trimmed (cstr m.value) = []

/-- JSON takes no text of the record. -/
structure Unread (r : MediaFields) : Prop where
  id : Untaken 64 r.id
  audioId : Untaken 64 r.audioId
  title : Untaken 128 r.title
  artist : Untaken 128 r.artist
  album : Untaken 128 r.album
  coverUrl : Untaken miplayCoverSourceMax r.coverUrl

variable {r}

theorem heardText_eq_false_iff {f : MediaField} {size : Nat} {x : Option (Named f Bytes)} :
    (heardText size x).2 = false ↔ ∀ m ∈ x, m.name ∉ f.heard := by
  cases x with
  | none => simp [heardText]
  | some m =>
    rw [heardText]
    split_ifs with hHeard <;> simp [hHeard]

theorem readText_eq_false_iff {f : MediaField} {size : Nat} {x : Option (Named f Bytes)} :
    (readText size x).2 = false ↔ Untaken size x := by
  cases x with
  | none => simp [readText, Untaken]
  | some m =>
    rw [readText, copyText]
    split_ifs with hFits hBlank
    · simp [Untaken, hBlank]
    · simp [Untaken, hBlank, hFits]
    · simp [Untaken, Nat.not_lt.1 hFits]

theorem changed_any_of_number {f : MediaField} (hState : f.IsState) (e : MediaEvent)
    (x : Option (Named f WireInt)) :
    (hear e (x.map Named.number)).changed.any = (e.changed.any || x.isSome) := by
  cases x with
  | none => simp [hear]
  | some m =>
    show (applyMember e m.number).changed.any = _
    rw [applyMember_number m hState]
    split_ifs <;> simp [Changed.any, setDevice]

/-- OPack refuses what it does not know. -/
theorem unheard_iff : r.Unheard ↔ r.opackEvent.changed.any = false := by
  have hAny : r.opackEvent.changed.any =
      (r.opackTexts.changed.any || r.status.isSome || r.deviceState.isSome) :=
    (changed_any_of_number (.inr rfl) _ r.deviceState).trans
      (congrArg (· || r.deviceState.isSome) (changed_any_of_number (.inl rfl) _ r.status))
  rw [hAny]
  simp only [Changed.any, opackTexts, Bool.or_eq_false_iff, heardText_eq_false_iff,
    Option.isSome_eq_false_iff, Option.isNone_iff_eq_none, and_true]
  constructor
  · rintro ⟨hId, hAudioId, hTitle, hArtist, hAlbum, hCover, hDuration, hPosition, hStatus, hDevice⟩
    exact ⟨⟨⟨⟨⟨⟨⟨⟨⟨hId, hAudioId⟩, hTitle⟩, hArtist⟩, hAlbum⟩, hCover⟩, hDuration⟩, hPosition⟩,
      hStatus⟩, hDevice⟩
  · rintro ⟨⟨⟨⟨⟨⟨⟨⟨⟨hId, hAudioId⟩, hTitle⟩, hArtist⟩, hAlbum⟩, hCover⟩, hDuration⟩, hPosition⟩,
      hStatus⟩, hDevice⟩
    exact ⟨hId, hAudioId, hTitle, hArtist, hAlbum, hCover, hDuration, hPosition, hStatus, hDevice⟩

/-- And JSON takes nothing of it if all its texts are untaken. -/
theorem unread_iff (h : r.Unheard) : r.Unread ↔ r.jsonEvent.changed.any = false := by
  have hStatus : miplayJsonReadStateAliases (r.jsonForm ++ [0]) statusKeys = none :=
    json_status_none h.status (by simp [h.deviceState])
  have hDevice : miplayJsonReadStateAliases (r.jsonForm ++ [0]) deviceStateKeys = none := by
    rw [json_deviceState (by simp [h.status]), h.deviceState]
    rfl
  rw [jsonEvent, changed_any_jsonStates, hStatus, hDevice]
  simp only [Changed.any, jsonTexts, Bool.or_eq_false_iff, readText_eq_false_iff, h.duration,
    h.position, Option.isSome_none, and_true]
  constructor
  · rintro ⟨hId, hAudioId, hTitle, hArtist, hAlbum, hCover⟩
    exact ⟨⟨⟨⟨⟨hId, hAudioId⟩, hTitle⟩, hArtist⟩, hAlbum⟩, hCover⟩
  · rintro ⟨⟨⟨⟨⟨hId, hAudioId⟩, hTitle⟩, hArtist⟩, hAlbum⟩, hCover⟩
    exact ⟨hId, hAudioId, hTitle, hArtist, hAlbum, hCover⟩

/-- The JSON form fits a frame and the fields are read alike, or neither decoder has
anything to tell. -/
def Coincides (r : MediaFields) : Prop :=
  if r.jsonForm.length ≤ miplayMaxFramePayload then r.FieldsAgree ∨ (r.Unheard ∧ r.Unread)
  else r.Unheard

end MediaFields

theorem sameOutcome_iff {a b : MediaEvent} :
    SameOutcome (if a.changed.any then some a else none) (if b.changed.any then some b else none) ↔
      SameEvent a b ∨ (a.changed.any = false ∧ b.changed.any = false) := by
  have hChanged : SameEvent a b → a.changed.any = b.changed.any := fun h => by rw [h.changed]
  cases ha : a.changed.any <;> cases hb : b.changed.any
  · exact iff_of_true trivial (.inr ⟨rfl, rfl⟩)
  · refine iff_of_false (fun h => h) fun h => ?_
    rcases h with hSame | ⟨-, hNot⟩
    · simp [ha, hb] at hChanged
      exact hChanged hSame
    · exact Bool.noConfusion hNot
  · refine iff_of_false (fun h => h) fun h => ?_
    rcases h with hSame | ⟨hNot, -⟩
    · simp [ha, hb] at hChanged
      exact hChanged hSame
    · exact Bool.noConfusion hNot
  · exact ⟨.inl, fun h => h.elim id fun hNot => Bool.noConfusion hNot.1⟩

/-- The decoders tell the same of a record exactly if it `Coincides`. -/
theorem decoders_agree_iff (r : MediaRecord) :
    SameOutcome (decodeJson r.jsonForm) (decodeOpack r.opackForm) ↔ r.Coincides := by
  rw [MediaFields.decodeJson_form, decodeOpack_form, MediaFields.Coincides]
  by_cases hFits : r.jsonForm.length ≤ miplayMaxFramePayload
  · simp only [hFits, true_and, if_true, sameOutcome_iff, ← MediaFields.fieldsAgree_iff]
    rw [and_comm, ← MediaFields.unheard_iff]
    exact or_congr_right (and_congr_right fun h => (MediaFields.unread_iff h).symm)
  · simp only [hFits, false_and, if_false, MediaFields.unheard_iff]
    cases r.opackEvent.changed.any
    · exact iff_of_true trivial rfl
    · exact iff_of_false (fun h => h) (by simp)

/-- The state of the player under its usual name. -/
def playingRecord : MediaRecord where
  id := none
  audioId := none
  title := none
  artist := none
  album := none
  coverUrl := none
  duration := none
  position := none
  status := some ⟨ascii "status", ⟨2, by decide⟩, by decide⟩
  deviceState := none
  fits := by decide +kernel

/-- JSON hears from it that the player plays, OPack only that there is a status. -/
theorem status_heard_apart :
    ¬SameOutcome (decodeJson playingRecord.jsonForm) (decodeOpack playingRecord.opackForm) := by
  decide +kernel

end EspMiplay.Miplay
