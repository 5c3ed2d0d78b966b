import EspMiplay.Miplay.Connected

/-!
# The pause gate

`s_media_device_state` is the state the snapshot shows, `s_media_paused` the gate that
the media task and the player look at. They are two variables, and an event
reaches the one through `miplay_emit_media_event`, the other through
`miplay_apply_playback_control`.

A `Gate` is the pair of them. The module says of every step what it does to the
pair, and concludes

- `gate_along`: along every run the two agree after every step if and only if no
  step brings a state past the gate that the gate is not in (`GateFollows`);
- `notify_passes_gate`: a phone that notifies "paused" leaves the gate open.

What a gated event reports is coherent (`MediaEvent.Coherent`): the readers of
state payloads set the player state along with the device state.
-/

namespace EspMiplay.Miplay

open Effect Transition

/-- The state in the snapshot and the pause gate. -/
structure Gate where
  /-- `s_media_device_state` -/
  state : Int
  /-- `s_media_paused` -/
  paused : Bool
  deriving DecidableEq

def World.gate (w : World) : Gate where
  state := w.media.deviceState
  paused := w.mediaPaused

namespace Gate

/-- A snapshot that says "paused" has the gate closed, one that says "playing" open. -/
def Agrees (g : Gate) : Prop := (g.state = 3 → g.paused = true) ∧ (g.state = 2 → g.paused = false)

instance (g : Gate) : Decidable g.Agrees := inferInstanceAs (Decidable (_ ∧ _))

/-- An event reaches the snapshot. -/
def report (g : Gate) (e : MediaEvent) : Gate :=
  { g with
    state := if e.changed.deviceState then e.deviceState
      else if e.changed.playerState then e.wireState else g.state }

/-- An event reaches the gate. -/
def control (g : Gate) (e : MediaEvent) : Gate :=
  { g with
    paused := if e.changed.playerState then
        match e.playerState with
        | .paused => true
        | .playing => false
        | _ => g.paused
      else g.paused }

/-- A stream is started. -/
def opened (g : Gate) : Gate := { g with paused := false }

end Gate

/-! ## Events -/

/-- An event without changes. -/
theorem Gate.report_unchanged {e : MediaEvent} (hNone : e.changed.any = false) (g : Gate) :
    g.report e = g := by
  have hState : e.changed.deviceState = false ∧ e.changed.playerState = false := by
    simp only [Changed.any, Bool.or_eq_false_iff] at hNone
    simp [hNone]
  simp [Gate.report, hState]

theorem Gate.control_unchanged {e : MediaEvent} (hNone : e.changed.any = false) (g : Gate) :
    g.control e = g := by
  have hPlayer : e.changed.playerState = false := by
    simp only [Changed.any, Bool.or_eq_false_iff] at hNone
    simp [hNone]
  simp [Gate.control, hPlayer]

theorem gate_emitMediaEvent (w : World) (e : MediaEvent) :
    (w.after (miplayEmitMediaEvent e)).gate = w.gate.report e := by
  simp only [World.after, miplayEmitMediaEvent, run_ite]
  split
  · rfl
  · rename_i hNone
    exact (Gate.report_unchanged (e := e.marked) (by simpa using hNone) w.gate).symm

theorem gate_applyPlaybackControl (w : World) (e : MediaEvent) :
    (w.after (miplayApplyPlaybackControl e)).gate = w.gate.control e := by
  simp only [World.after, miplayApplyPlaybackControl, run_ite]
  split
  · rename_i hChanged
    cases hPlayer : e.playerState <;>
      simp [World.gate, Gate.control, hChanged, hPlayer, miplaySetAudioPaused,
        miplayResetPositionStateHint]
  · rename_i hChanged
    simp [World.gate, Gate.control, hChanged]

/-- The two calls of a gated event. -/
theorem gate_controlled (w : World) (e : MediaEvent) :
    (w.after (do
      miplayApplyPlaybackControl e
      miplayEmitMediaEvent e)).gate = (w.gate.control e).report e := by
  rw [← gate_applyPlaybackControl, ← gate_emitMediaEvent]
  rfl

theorem gate_applyControl (w : World) (e : MediaEvent) :
    (w.after (applyControl e)).gate = (w.gate.control e).report e := by
  by_cases hAny : e.changed.any
  · rw [← gate_controlled]
    simp [World.after, applyControl, hAny]
  · have hNone : e.changed.any = false := by simpa using hAny
    rw [Gate.report_unchanged hNone, Gate.control_unchanged hNone]
    simp [World.after, applyControl, hNone]

/-- What an event reports as state it also reports as player state. -/
def MediaEvent.Coherent (e : MediaEvent) : Prop :=
  (e.changed.deviceState → e.deviceState = 3 → e.changed.playerState ∧ e.playerState = .paused) ∧
  (e.changed.deviceState → e.deviceState = 2 → e.changed.playerState ∧ e.playerState = .playing) ∧
  (e.changed.playerState → e.changed.deviceState ∨ e.deviceState = -1)

/-- A coherent event keeps snapshot and gate together. -/
theorem Gate.Agrees.controlled {g : Gate} {e : MediaEvent} (h : g.Agrees) (he : e.Coherent) :
    ((g.control e).report e).Agrees := by
  obtain ⟨hPaused, hPlaying, hDevice⟩ := he
  by_cases hState : e.changed.deviceState
  · refine ⟨fun h3 => ?_, fun h2 => ?_⟩
    · have h := hPaused hState (by simpa [report, hState] using h3)
      simp [report, control, h]
    · have h := hPlaying hState (by simpa [report, hState] using h2)
      simp [report, control, h]
  · by_cases hPlayer : e.changed.playerState
    · -- a bare player state stands for the state on the wire
      have hWire : e.deviceState = -1 := (hDevice hPlayer).resolve_left hState
      cases hIs : e.playerState <;>
        simp [Agrees, report, control, hState, hPlayer, MediaEvent.wireState, hWire, hIs]
    · simpa [Agrees, report, control, hState, hPlayer] using h

/-! ## What the readers return -/

/-- An event that a reader filled in: the player state comes with the device state. -/
structure MediaEvent.Read (e : MediaEvent) : Prop where
  paused : e.changed.deviceState → e.deviceState = 3 → e.changed.playerState ∧ e.playerState = .paused
  playing : e.changed.deviceState → e.deviceState = 2 →
    e.changed.playerState ∧ e.playerState = .playing
  device : e.changed.playerState → e.changed.deviceState

namespace MediaEvent.Read

theorem coherent {e : MediaEvent} (h : e.Read) : e.Coherent :=
  ⟨h.paused, h.playing, fun hPlayer => .inl (h.device hPlayer)⟩

/-- The other fields do not matter. -/
theorem of_eq {e e' : MediaEvent} (h : e.Read) (hState : e'.deviceState = e.deviceState)
    (hPlayer : e'.playerState = e.playerState)
    (hChanged : e'.changed.deviceState = e.changed.deviceState)
    (hChanged' : e'.changed.playerState = e.changed.playerState) : e'.Read where
  paused := by rw [hState, hPlayer, hChanged, hChanged']; exact h.paused
  playing := by rw [hState, hPlayer, hChanged, hChanged']; exact h.playing
  device := by rw [hChanged, hChanged']; exact h.device

theorem of_unchanged {e : MediaEvent} (hState : e.changed.deviceState = false)
    (hPlayer : e.changed.playerState = false) : e.Read where
  paused h := by simp [hState] at h
  playing h := by simp [hState] at h
  device h := by simp [hPlayer] at h

theorem init : miplayMediaEventInit.Read := of_unchanged rfl rfl

/-- Both set from the state on the wire. -/
theorem of_wire {e : MediaEvent} {state : Int} (player : Bool) (hState : e.deviceState = state)
    (hPlayer : e.playerState = miplayWireStateToPlayer state)
    (hChanged : e.changed.deviceState = true)
    (hChanged' : e.changed.playerState = (player || miplayWireStateToPlayer state ≠ .unknown)) :
    e.Read where
  paused _ h3 := by
    obtain rfl : state = 3 := hState ▸ h3
    simp [hChanged', hPlayer, miplayWireStateToPlayer]
  playing _ h2 := by
    obtain rfl : state = 2 := hState ▸ h2
    simp [hChanged', hPlayer, miplayWireStateToPlayer]
  device _ := hChanged

theorem applyNumber {name : Bytes} {v : OpackValue} {e e' : MediaEvent} (h : e.Read)
    (hField : miplayApplyMediaField.applyNumber name v e = some e') : e'.Read := by
  unfold miplayApplyMediaField.applyNumber at hField
  split at hField
  · obtain ⟨n, -, rfl⟩ := Option.map_eq_some_iff.mp hField
    exact h.of_eq rfl rfl rfl rfl
  split at hField
  · obtain ⟨n, -, rfl⟩ := Option.map_eq_some_iff.mp hField
    exact h.of_eq rfl rfl rfl rfl
  split at hField
  · obtain ⟨n, -, rfl⟩ := Option.map_eq_some_iff.mp hField
    exact h.of_eq rfl rfl rfl rfl
  split at hField
  · obtain ⟨n, -, rfl⟩ := Option.map_eq_some_iff.mp hField
    exact of_wire _ rfl rfl rfl rfl
  · cases hField

theorem applyMediaField {name : Bytes} {v : OpackValue} {e e' : MediaEvent} (h : e.Read)
    (hField : miplayApplyMediaField name v e = some e') : e'.Read := by
  unfold miplayApplyMediaField at hField
  split at hField
  · repeat' split at hField
    all_goals first
      | exact h.applyNumber hField
      | cases hField; exact h.of_eq rfl rfl rfl rfl
  · exact h.applyNumber hField

theorem opackFields {fuel : Nat} {rest : Bytes} {e e' : MediaEvent} {seen seen' : Bool} (h : e.Read)
    (hFields : opackFields fuel rest e seen = some (e', seen')) : e'.Read := by
  induction fuel generalizing rest e seen with
  | zero =>
    cases rest with
    | nil =>
      obtain ⟨rfl, rfl⟩ : e = e' ∧ seen = seen' := by simpa [Miplay.opackFields] using hFields
      exact h
    | cons c rest => simp [Miplay.opackFields] at hFields
  | succ fuel ih =>
    cases rest with
    | nil =>
      obtain ⟨rfl, rfl⟩ : e = e' ∧ seen = seen' := by simpa [Miplay.opackFields] using hFields
      exact h
    | cons c rest =>
      simp only [Miplay.opackFields, Option.bind_eq_bind, Option.bind_eq_some_iff] at hFields
      obtain ⟨⟨name, rest'⟩, -, ⟨v, rest''⟩, -, hNext⟩ := hFields
      split at hNext
      · rename_i e₁ hField
        exact ih (h.applyMediaField hField) hNext
      · exact ih h hNext

theorem parseMediaInfoEx {heap : Nat → Bool} {payload : Bytes} {e : MediaEvent}
    (hParse : miplayParseMediaInfoEx heap payload = some e) : e.Read := by
  simp only [miplayParseMediaInfoEx, Option.bind_eq_bind, Option.bind_eq_some_iff] at hParse
  obtain ⟨⟨root, rest⟩, -, hRest⟩ := hParse
  repeat' split at hRest
  all_goals try cases hRest
  all_goals
    obtain ⟨⟨e', seen⟩, hFields, hEvent⟩ := Option.bind_eq_some_iff.mp hRest
    split at hEvent <;> cases hEvent
    exact init.opackFields hFields

theorem parseNotifyPayload {heap : Nat → Bool} {payload : Bytes} {e₀ e : MediaEvent} (h₀ : e₀.Read)
    (hParse : miplayParseNotifyPayload heap payload e₀ = some e) : e.Read := by
  unfold miplayParseNotifyPayload at hParse
  split at hParse
  · cases hParse
  split at hParse
  · rename_i e' hInfo
    cases hParse
    exact parseMediaInfoEx hInfo
  · simp only [Option.bind_eq_bind, Option.bind_eq_some_iff] at hParse
    obtain ⟨⟨root, rest⟩, -, hRest⟩ := hParse
    split at hRest
    · cases hRest
    obtain ⟨⟨v, rest'⟩, -, hRest⟩ := Option.bind_eq_some_iff.mp hRest
    obtain ⟨⟨e', seen⟩, hFields, hEvent⟩ := Option.bind_eq_some_iff.mp hRest
    have hFirst : ((miplayApplyMediaField root v e₀).getD e₀).Read := by
      cases hField : miplayApplyMediaField root v e₀ with
      | none => exact h₀
      | some e₁ => exact h₀.applyMediaField hField
    split at hEvent <;> cases hEvent
    exact hFirst.opackFields hFields

/-! ### JSON -/

theorem applyJsonStatus {e : MediaEvent} (value : Int) (hState : e.changed.deviceState = false)
    (hPlayer : e.changed.playerState = false) : (applyJsonStatus value e).Read := by
  unfold Miplay.applyJsonStatus
  dsimp only
  split
  · rename_i hKnown
    exact of_wire true rfl rfl rfl rfl
  · exact of_unchanged hState hPlayer

theorem applyJsonDeviceState (value : Int) (e : MediaEvent) : (applyJsonDeviceState value e).Read :=
  of_wire _ rfl rfl rfl rfl

theorem jsonMembers (json : Bytes) {e : MediaEvent} (hState : e.changed.deviceState = false)
    (hPlayer : e.changed.playerState = false) : (jsonMembers json e).1.Read := by
  unfold Miplay.jsonMembers
  dsimp only
  split
  · exact applyJsonDeviceState _ _
  · split
    · exact applyJsonStatus _ hState hPlayer
    · exact of_unchanged hState hPlayer

/-- The nested event stands in for a state that the outer one does not have. -/
theorem mergeNested {e n : MediaEvent} (he : e.Read) (hn : n.Read) : (mergeNested e n).Read := by
  by_cases hState : e.changed.deviceState
  · by_cases hPlayer : e.changed.playerState
    · exact he.of_eq (by simp [Miplay.mergeNested, hState]) (by simp [Miplay.mergeNested, hPlayer])
        (by simp [Miplay.mergeNested, hState]) (by simp [Miplay.mergeNested, hPlayer])
    · -- the outer state is none of the two
      refine ⟨fun _ h3 => ?_, fun _ h2 => ?_, fun _ => by simp [Miplay.mergeNested, hState]⟩
      · exact absurd (he.paused hState (by simpa [Miplay.mergeNested, hState] using h3)).1 hPlayer
      · exact absurd (he.playing hState (by simpa [Miplay.mergeNested, hState] using h2)).1 hPlayer
  · have hPlayer : e.changed.playerState = false := by
      simpa using mt he.device hState
    have hState' : e.changed.deviceState = false := by simpa using hState
    by_cases hNested : n.changed.deviceState
    · by_cases hNested' : n.changed.playerState
      · exact hn.of_eq (by simp [Miplay.mergeNested, hState', hNested])
          (by simp [Miplay.mergeNested, hPlayer, hNested'])
          (by simp [Miplay.mergeNested, hState']) (by simp [Miplay.mergeNested, hPlayer])
      · refine ⟨fun _ h3 => ?_, fun _ h2 => ?_, fun _ => by simp [Miplay.mergeNested, hNested]⟩
        · exact absurd
            (hn.paused hNested (by simpa [Miplay.mergeNested, hState', hNested] using h3)).1 hNested'
        · exact absurd
            (hn.playing hNested (by simpa [Miplay.mergeNested, hState', hNested] using h2)).1 hNested'
    · have hNested' : n.changed.playerState = false := by
        simpa using mt hn.device hNested
      exact of_unchanged (by simpa [Miplay.mergeNested, hState'] using hNested)
        (by simp [Miplay.mergeNested, hPlayer, hNested'])

theorem parseJsonNested {heap : Nat → Bool} {payload : Bytes} {e : MediaEvent}
    (hParse : parseJsonNested heap payload = some e) : e.Read := by
  unfold Miplay.parseJsonNested at hParse
  split at hParse
  · cases hParse
  · have hMembers := jsonMembers (payload ++ [0]) (e := miplayMediaEventInit) rfl rfl
    split at hParse
    · rename_i e' hRun
      cases hParse
      rwa [hRun] at hMembers
    · cases hParse

theorem nestedObject {heap : Nat → Bool} {json : Bytes} {capacity : Nat} {keys : List Bytes}
    {k : Nat} {out : Bytes} {e : MediaEvent}
    (hNested : nestedObject heap json capacity keys k out = some e) : e.Read := by
  induction keys generalizing k out with
  | nil => cases hNested
  | cons key keys ih =>
    simp only [Miplay.nestedObject] at hNested
    split at hNested
    · exact ih hNested
    · split at hNested
      · exact ih hNested
      split at hNested
      · exact ih hNested
      split at hNested
      · exact ih hNested
      · rename_i n hParse
        cases hNested
        exact parseJsonNested hParse

theorem parseSetMediaInfoJson (heap : Nat → Bool) (payload : Bytes) :
    (miplayParseSetMediaInfoJson heap payload miplayMediaEventInit).1.Read := by
  have hMembers := jsonMembers (payload ++ [0]) (e := miplayMediaEventInit) rfl rfl
  unfold miplayParseSetMediaInfoJson
  split
  · exact init
  dsimp only
  split
  · exact hMembers
  split
  · rename_i n hNested
    exact mergeNested hMembers (nestedObject hNested)
  · exact hMembers

/-! ### States -/

theorem scalarState {p : Bytes} {e e' : MediaEvent} (hState : scalarState p e = some e') :
    e'.Read := by
  unfold Miplay.scalarState at hState
  dsimp only at hState
  split at hState
  · cases hState
  · cases hState
    exact of_wire true rfl rfl rfl rfl

/-- **State payloads.** Whatever form the phone uses, the event is coherent. -/
theorem parseMediaStatePayload {heap : Nat → Bool} {payload : Bytes} {e : MediaEvent}
    (hParse : miplayParseMediaStatePayload heap payload miplayMediaEventInit = some e) :
    e.Read := by
  unfold miplayParseMediaStatePayload at hParse
  split at hParse
  · cases hParse
  split at hParse
  · rename_i e' hNotify
    cases hParse
    exact parseNotifyPayload init hNotify
  split at hParse
  · rename_i e' hJson
    cases hParse
    have hRead := parseSetMediaInfoJson (fun n => heap (4 + n)) payload
    rwa [hJson] at hRead
  split at hParse
  · exact scalarState hParse
  split at hParse
  · exact scalarState hParse
  · cases hParse

end MediaEvent.Read

/-! ## What a frame brings past the gate -/

section Reports

variable (env : Env) (w : World) (f : Frame)

/-- Outcomes of the allocations that come next. -/
def heapFrom : Nat → Bool := fun k => env.heap (w.tick + k)

def jsonReport (heap : Nat → Bool) : Option MediaEvent :=
  match miplayParseSetMediaInfoJson heap f.payload miplayMediaEventInit with
  | (e, true) => some e
  | (_, false) => none

def aloneReport : Option MediaEvent :=
  match jsonReport f (heapFrom env w) with
  | some e => some e
  | none => miplayParseNotifyPayload (fun n => heapFrom env w (12 + n)) f.payload miplayMediaEventInit

def mediaInfoAckReport : Option MediaEvent :=
  match miplayParseMediaInfoEx (heapFrom env w) f.payload with
  | some e => some e
  | none =>
    match jsonReport f fun n => heapFrom env w (2 + n) with
    | some e => some e
    | none =>
      miplayParseNotifyPayload (fun n => heapFrom env w (16 + n)) f.payload miplayMediaEventInit

/-- The event of a command that goes to the snapshot and not to the gate. -/
def ungatedReport : Option MediaEvent :=
  if f.outer = 0x04 then
    if f.cmd &&& 0xFF = 0x18 then aloneReport env w f else none
  else if f.cmd = cmdNotify then
    miplayParseNotifyPayload (heapFrom env w) f.payload miplayMediaEventInit
  else if f.cmd = cmdGetMediaInfoAck then mediaInfoAckReport env w f
  else if f.cmd = cmdSetPlaySource then jsonReport f (heapFrom env w)
  else if f.cmd = cmdSetMediaInfo then
    (jsonReport f (heapFrom env w)).map fun e => ignoreStubStopped e.marked
  else none

/-- The stream of the last OPEN is started again. -/
def restarts (sock : Int) : Bool :=
  w.rtsp.portSaved > 0 ∧ cstr w.rtsp.hostSaved ≠ [] ∧ 0 ≤ sock ∧
    ¬(w.regs.mediaSessionOpened ∧ w.rtsp.task.isSome)

def opensTarget (host : Bytes) (port : Int) : Bool := 0 < port ∧ cstr host ≠ [] ∧ 0 ≤ f.sock

/-- An OPEN names a stream. -/
def opensStream : Bool :=
  match f.decrypted with
  | none => false
  | some plaintext =>
    match memmem (ascii "wfd://") plaintext with
    | none => false
    | some start => opensTarget f (wfdTarget (cstr (start.take 159))).1 (wfdTarget (cstr (start.take 159))).2

/-- The frame starts a stream and does not report a state afterwards, as Resume does. -/
def startsStream : Bool :=
  if f.outer = 0x04 then false
  else if f.cmd = cmdOpenDevice then opensStream f
  else if f.cmd = cmdSetMediaInfo then restarts w f.sock
  else false

/-- What the frame brings past the gate is what the gate says: an ungated report is
of the state the gate is in, and no stream is started while the snapshot says
"paused". -/
def FrameFollows : Prop :=
  let g := (ungatedReport env w f).elim w.gate w.gate.report
  if startsStream w f then g.state ≠ 3 else g.Agrees

end Reports

/-! ## What leaves the gate alone -/

structure SameGate (w w' : World) : Prop where
  gate : w'.gate = w.gate
  rtsp : w'.rtsp = w.rtsp
  opened : w'.regs.mediaSessionOpened = w.regs.mediaSessionOpened

instance : IsPreorder World SameGate where
  refl _ := ⟨rfl, rfl, rfl⟩
  trans _ _ _ h h' :=
    ⟨h'.gate.trans h.gate, h'.rtsp.trans h.rtsp, h'.opened.trans h.opened⟩

theorem sameGate_answer (env : Env) (who : Owner) (i : Slot) (sock : Int) :
    AnswerRules env who i sock SameGate where
  toSendRules := .of_log (fun _ _ => ⟨rfl, rfl, rfl⟩) (fun _ _ _ => ⟨rfl, rfl, rfl⟩)
    (fun _ _ _ _ _ => ⟨rfl, rfl, rfl⟩) (fun _ => ⟨rfl, rfl, rfl⟩)
  volume _ _ := ⟨rfl, rfl, rfl⟩
  callback _ _ _ := ⟨rfl, rfl, rfl⟩
  route _ := ⟨rfl, rfl, rfl⟩
  save _ := ⟨rfl, rfl, rfl⟩

section Switch

variable {env : Env} {i : Slot} {f : Frame} {h : Handler} {w : World}

variable (env) in
theorem gate_ack (w : World) (cmd : UInt16) (payload : Bytes) :
    SameGate w (w.after (ack env i f cmd payload)) :=
  ack_does (sameGate_answer env (.ctl i) i f.sock).toSendRules cmd payload w

variable (env) in
/-- The whole of the start is the gate, opened, as far as the gate is concerned. -/
theorem gate_startRtspSession (w : World) (sock : Int) (host : Bytes) (port : Int) (has : Bool)
    (key : Block) (force : Bool) :
    (w.after (miplayStartRtspSession env i sock host port has key force)).gate =
      if cstr host = [] ∨ port ≤ 0 ∨ sock < 0 then w.gate
      else if !force && w.regs.mediaSessionOpened && w.rtsp.task.isSome then w.gate
      else w.gate.opened := by
  simp only [World.after, miplayStartRtspSession, run_bind, run_get, run_ite, run_pure]
  split
  · rfl
  split
  · rfl
  · simp only [run_bind, run_modifyRtsp, run_modify, run_modifyRegs, run_oracle, run_ite, run_pure,
      createRtspTask, run_newTask, run_setRtspTask, run_emit]
    repeat' split
    all_goals rfl

variable (env) in
theorem gate_tryRestartRtsp (w : World) (sock : Int) :
    (w.after (miplayTryRestartRtsp env i sock)).gate =
      if restarts w sock then w.gate.opened else w.gate := by
  have hStart := gate_startRtspSession env (i := i) w sock w.rtsp.hostSaved
    w.rtsp.portSaved w.keys.has w.keys.key false
  simp only [World.after, miplayTryRestartRtsp, run_bind, run_get, run_ite, run_pure] at hStart ⊢
  by_cases hTarget : w.rtsp.portSaved ≤ 0 ∨ w.rtsp.hostSaved = []
  · have hNot : restarts w sock = false := by
      rcases hTarget with hPort | hHost
      · simp [restarts, hPort]
      · simp [restarts, hHost, cstr]
    simp [hTarget, hNot]
  by_cases hOpen : w.regs.mediaSessionOpened && w.rtsp.task.isSome
  · have hNot : restarts w sock = false := by
      simp only [Bool.and_eq_true] at hOpen
      simp [restarts, hOpen]
    simp [hTarget, hOpen, hNot]
  · rw [if_neg hTarget, if_neg hOpen, hStart]
    simp only [Bool.not_false, Bool.true_and, if_neg hOpen]
    by_cases hRefused : cstr w.rtsp.hostSaved = [] ∨ w.rtsp.portSaved ≤ 0 ∨ sock < 0
    · have hNot : restarts w sock = false := by
        simp only [restarts, decide_eq_false_iff_not]
        rintro ⟨hPort, hHost, hSock, -⟩
        rcases hRefused with h | h | h
        · exact hHost h
        · omega
        · omega
      simp [hRefused, hNot]
    · have hYes : restarts w sock = true := by
        simp only [restarts, decide_eq_true_eq]
        simp only [not_or, not_le, not_lt] at hRefused
        exact ⟨hRefused.2.1, hRefused.1, hRefused.2.2, by simpa using hOpen⟩
      simp [hRefused, hYes]

theorem restarts_congr {w w' : World} (hRtsp : w'.rtsp = w.rtsp)
    (hOpened : w'.regs.mediaSessionOpened = w.regs.mediaSessionOpened) (sock : Int) :
    restarts w' sock = restarts w sock := by
  simp only [restarts, hRtsp, hOpened]

/-! ## The commands -/

theorem run_heapWindow (w : World) (n : Nat) :
    (heapWindow env n).run w = (heapFrom env w, { w with tick := w.tick + n }) := rfl

/-- A report to the snapshot, if there is one, and an answer. -/
theorem gate_reported {m : M Unit} (hRest : Does SameGate m) (w : World) (e : Option MediaEvent) :
    (w.after (do
      match e with
      | some e => miplayEmitMediaEvent e
      | none => pure ()
      m)).gate = e.elim w.gate w.gate.report := by
  cases e with
  | none => exact (hRest w).gate
  | some e => exact (hRest _).gate.trans (gate_emitMediaEvent w e)

theorem gate_handleNotify (w : World) :
    (w.after (handleNotify env f)).gate =
      (miplayParseNotifyPayload (heapFrom env w) f.payload miplayMediaEventInit).elim w.gate
        w.gate.report :=
  gate_reported (Does.pure ()) { w with tick := w.tick + 16 } _

theorem gate_handleGetMediaInfoAck (w : World) :
    (w.after (handleGetMediaInfoAck env f)).gate =
      (mediaInfoAckReport env w f).elim w.gate w.gate.report := by
  have hReady : Does SameGate (modifyRegs fun r => { r with reverseControlReady := true }) :=
    fun _ => ⟨rfl, rfl, rfl⟩
  have hParsed : (match miplayParseMediaInfoEx (heapFrom env w) f.payload with
      | some e => some e
      | none =>
        match miplayParseSetMediaInfoJson (fun n => heapFrom env w (2 + n)) f.payload
          miplayMediaEventInit with
        | (e, true) => some e
        | (_, false) =>
          miplayParseNotifyPayload (fun n => heapFrom env w (16 + n)) f.payload
            miplayMediaEventInit) = mediaInfoAckReport env w f := by
    unfold mediaInfoAckReport jsonReport
    cases miplayParseMediaInfoEx (heapFrom env w) f.payload with
    | some e => rfl
    | none =>
      rcases miplayParseSetMediaInfoJson (fun n => heapFrom env w (2 + n)) f.payload
        miplayMediaEventInit with ⟨e, _ | _⟩ <;> rfl
  rw [← hParsed]
  exact gate_reported hReady { w with tick := w.tick + 32 } _

theorem gate_handleSetPlaySource (w : World) :
    (w.after (handleSetPlaySource env i f)).gate =
      (jsonReport f (heapFrom env w)).elim w.gate w.gate.report := by
  have hReply : Does SameGate (do
      if ← reply env i f (cmdSetPlaySource + 1) [] then
        modifyRegs fun r => { r with playSourceRegistered := true }) :=
    (reply_does (sameGate_answer ..).toSendRules _ _).bind fun _ => Does.ite
      (fun _ _ => ⟨rfl, rfl, rfl⟩) fun _ => Does.pure _
  refine Eq.trans ?_ (gate_reported hReply { w with tick := w.tick + 16 } _)
  simp only [World.after, handleSetPlaySource, run_bind, run_heapWindow, jsonReport]
  rcases miplayParseSetMediaInfoJson (heapFrom env w) f.payload miplayMediaEventInit with
    ⟨e, _ | _⟩ <;> rfl

theorem gate_handleAloneSetMediaInfo (w : World) :
    (w.after (handleAloneSetMediaInfo env i f)).gate =
      (aloneReport env w f).elim w.gate w.gate.report := by
  have hAck : Does SameGate (ack env i f (f.cmd + 1) []) :=
    ack_does (sameGate_answer ..).toSendRules _ _
  refine Eq.trans ?_ (gate_reported hAck { w with tick := w.tick + 16 } _)
  simp only [World.after, handleAloneSetMediaInfo, run_bind, run_heapWindow, aloneReport, jsonReport]
  rcases miplayParseSetMediaInfoJson (heapFrom env w) f.payload miplayMediaEventInit with
    ⟨e, _ | _⟩
  · cases miplayParseNotifyPayload (fun n => heapFrom env w (12 + n)) f.payload
      miplayMediaEventInit <;> rfl
  · rfl

/-- An event leaves alone what a restart looks at. -/
theorem emitMediaEvent_rtsp (w : World) (e : MediaEvent) :
    (w.after (miplayEmitMediaEvent e)).rtsp = w.rtsp ∧
      (w.after (miplayEmitMediaEvent e)).regs = w.regs := by
  simp only [World.after, miplayEmitMediaEvent, run_ite]
  split <;> exact ⟨rfl, rfl⟩

variable (env) in
/-- The answer to a SetMediaInfo and the restart behind it. -/
theorem gate_answerAndRestart (w₀ w : World) (hRtsp : w.rtsp = w₀.rtsp)
    (hRegs : w.regs = w₀.regs) (cmd : UInt16) :
    (w.after (do
      ack env i f cmd []
      miplayTryRestartRtsp env i f.sock)).gate =
      if restarts w₀ f.sock then w.gate.opened else w.gate := by
  have hAck := gate_ack env (i := i) (f := f) w cmd []
  have hRestart := gate_tryRestartRtsp env (i := i) (w.after (ack env i f cmd [])) f.sock
  rw [restarts_congr (hAck.rtsp.trans hRtsp) (hAck.opened.trans (by rw [hRegs])), hAck.gate]
    at hRestart
  exact hRestart

/-- The report of a SetMediaInfo, and the restart behind its answer. -/
theorem gate_handleSetMediaInfo (w : World) :
    (w.after (handleSetMediaInfo env i f)).gate =
      let g := ((jsonReport f (heapFrom env w)).map fun e => ignoreStubStopped e.marked).elim w.gate
        w.gate.report
      if restarts w f.sock then g.opened else g := by
  have hTick : World.gate { w with tick := w.tick + 16 } = w.gate := rfl
  simp only [World.after, handleSetMediaInfo, run_bind, run_heapWindow, jsonReport]
  rcases miplayParseSetMediaInfoJson (heapFrom env w) f.payload miplayMediaEventInit with
    ⟨e, _ | _⟩
  · exact gate_answerAndRestart env w { w with tick := w.tick + 16 } rfl rfl cmdSetMediaInfoAck
  · by_cases hAny : (ignoreStubStopped e.marked).changed.any
    · have hEmit := emitMediaEvent_rtsp { w with tick := w.tick + 16 } (ignoreStubStopped e.marked)
      have hGate := gate_answerAndRestart env (i := i) (f := f) w _ hEmit.1 hEmit.2
        cmdSetMediaInfoAck
      rw [gate_emitMediaEvent, hTick] at hGate
      simpa [World.after, hAny] using hGate
    · have hNone : (ignoreStubStopped e.marked).changed.any = false := by simpa using hAny
      have hGate := gate_answerAndRestart env (i := i) (f := f) w
        { w with tick := w.tick + 16 } rfl rfl cmdSetMediaInfoAck
      rw [hTick] at hGate
      simpa [World.after, hNone, Gate.report_unchanged hNone] using hGate

/-! ### Commands through the gate -/

/-- A state payload that was read, and an answer. -/
theorem agrees_stated (w₁ : World) {heap : Nat → Bool} (cmd : UInt16) (hAgrees : w₁.gate.Agrees) :
    (w₁.after (do
      match miplayParseMediaStatePayload heap f.payload miplayMediaEventInit with
      | some e =>
        miplayApplyPlaybackControl e
        miplayEmitMediaEvent e
      | none => pure ()
      ack env i f cmd [])).gate.Agrees := by
  cases hParse : miplayParseMediaStatePayload heap f.payload miplayMediaEventInit with
  | none => exact (gate_ack env w₁ cmd []).gate ▸ hAgrees
  | some e =>
    have hRead := MediaEvent.Read.parseMediaStatePayload hParse
    have hControlled := hAgrees.controlled hRead.coherent
    rw [← gate_controlled] at hControlled
    have hAck := gate_ack env (i := i) (f := f) (w₁.after do
      miplayApplyPlaybackControl e
      miplayEmitMediaEvent e) cmd []
    rw [← hAck.gate] at hControlled
    exact hControlled

theorem agrees_handleAloneSetState (hAgrees : w.gate.Agrees) :
    (w.after (handleAloneSetState env i f)).gate.Agrees :=
  agrees_stated { w with tick := w.tick + 16 } (f.cmd + 1) hAgrees

theorem agrees_handleSetMediaState (hAgrees : w.gate.Agrees) :
    (w.after (handleSetMediaState env i f)).gate.Agrees :=
  agrees_stated { w with tick := w.tick + 32 } cmdSetMediaStateAck hAgrees

/-- A player command and its answer. -/
theorem gate_playerCommand (w : World) (cmd : UInt16) (player : PlayerState) :
    (w.after (do
      applyControl (playerEvent player)
      ack env i f cmd [])).gate =
      (w.gate.control (playerEvent player)).report (playerEvent player) := by
  rw [← gate_applyControl]
  exact (gate_ack env _ cmd []).gate

theorem gate_handlePause (w : World) : (w.after (handlePause env i f)).gate = ⟨3, true⟩ :=
  gate_playerCommand { w with mediaPaused := true } (f.cmd + 1) .paused

theorem gate_handleResume (w : World) : (w.after (handleResume env i f)).gate = ⟨2, false⟩ := by
  simp only [World.after, handleResume, miplaySetAudioPaused, run_bind, run_modify, run_get, run_ite]
  split
  · exact gate_playerCommand _ (f.cmd + 1) .playing
  · exact gate_playerCommand { w with mediaPaused := false } (f.cmd + 1) .playing

/-- A heartbeat implies one of three states. -/
theorem inferState_cases (hint : PositionHint) (nowUs positionMs : Int) :
    (inferState hint nowUs positionMs).1 = .unknown ∨
      (inferState hint nowUs positionMs).1 = .playing ∨
      (inferState hint nowUs positionMs).1 = .paused := by
  simp only [inferState]
  repeat' split
  all_goals simp

theorem projectEvent_coherent {inferred : PlayerState} (state positionMs : Int)
    (h : inferred = .unknown ∨ inferred = .playing ∨ inferred = .paused) :
    (projectEvent inferred state (positionEvent positionMs)).Coherent := by
  unfold projectEvent
  split
  · exact (MediaEvent.Read.of_unchanged rfl rfl).coherent
  · rename_i hNew
    rcases h with rfl | rfl | rfl
    · exact absurd (.inl rfl) hNew
    · simp [MediaEvent.Coherent]
    · simp [MediaEvent.Coherent]

variable (env) in
/-- A heartbeat leaves the gate alone, and what it implies is coherent. -/
theorem projectState_gate (w : World) (positionMs : Int) :
    ((miplayProjectStateFromPosition env (positionEvent positionMs)).run w).1.Coherent ∧
      ((miplayProjectStateFromPosition env (positionEvent positionMs)).run w).2.gate = w.gate := by
  simp only [miplayProjectStateFromPosition, run_bind, run_get, run_ite, run_pure,
    positionEvent, Bool.not_true, Bool.false_eq_true, if_false]
  split
  all_goals exact ⟨projectEvent_coherent _ positionMs (inferState_cases ..), rfl⟩

theorem agrees_handleSetPosition (hAgrees : w.gate.Agrees) :
    (w.after (handleSetPosition env i f)).gate.Agrees := by
  simp only [World.after, handleSetPosition, run_bind, run_get, run_ite]
  split
  · obtain ⟨hCoherent, hGate⟩ := projectState_gate env w (toInt64 (opackU64Be f.payload))
    generalize (miplayProjectStateFromPosition env
      (positionEvent (toInt64 (opackU64Be f.payload)))).run w = r at hCoherent hGate ⊢
    have hControlled := Gate.Agrees.controlled (hGate ▸ hAgrees) hCoherent
    rw [← gate_applyControl] at hControlled
    have hAnswer : Does SameGate (do
        ack env i f (f.cmd + 1) []
        if f.sock ≥ 0 then
          miplayMaybeQueryMediaInfoOnRewind env w.hint.lastMs r.1.positionMs) := by
      refine (ack_does (sameGate_answer ..).toSendRules _ _).bind fun _ =>
        Does.ite (fun _ => ?_) fun _ => Does.pure _
      refine Does.ite (fun _ => Does.pure _) fun _ => Does.bind (fun _ => ⟨rfl, rfl, rfl⟩) fun nowUs =>
        Does.get.bind fun w => ?_
      exact Does.ite (fun _ => Does.pure _) fun _ _ => ⟨rfl, rfl, rfl⟩
    have hRest := (hAnswer (r.2.after (applyControl r.1))).gate
    rw [← hRest] at hControlled
    simpa [World.after] using hControlled
  · exact (gate_ack env w _ _).gate ▸ hAgrees

/-! ### OPEN -/

variable (env) in
/-- From the saved target on. -/
theorem gate_startStream (w : World) (keys : StreamKeys) (host : Bytes) {port : Int}
    (hPort : ¬port ≤ 0) :
    (w.after (do
      emit (.openSaved i (cstr host) port)
      if ← miplayStartRtspSession env i f.sock host port keys.has keys.key true then
        return .next h
      else
        let arg : RtspArg :=
          { host := host, port := port, clientSock := f.sock
            generation := (← get).rtsp.generation, hasStreamKey := keys.has
            streamKey := keys.key }
        emit (.rtspStarted i arg)
        return FrameEnd.inline (RtspRun.begin arg))).gate =
      if opensTarget f host port then w.gate.opened else w.gate := by
  have hStart := gate_startRtspSession env (i := i)
    (w.after (emit (.openSaved i (cstr host) port))) f.sock host port keys.has keys.key true
  have hTarget : opensTarget f host port = true ↔ ¬(cstr host = [] ∨ port ≤ 0 ∨ f.sock < 0) := by
    simp only [opensTarget, decide_eq_true_eq, not_or, not_lt]
    exact ⟨fun ⟨_, hHost, hSock⟩ => ⟨hHost, hPort, hSock⟩,
      fun ⟨hHost, _, hSock⟩ => ⟨by omega, hHost, hSock⟩⟩
  have hGate : (if cstr host = [] ∨ port ≤ 0 ∨ f.sock < 0 then w.gate
      else w.gate.opened) = if opensTarget f host port then w.gate.opened else w.gate := by
    by_cases hRefused : cstr host = [] ∨ port ≤ 0 ∨ f.sock < 0
    · rw [if_pos hRefused, if_neg (fun h => hTarget.mp h hRefused)]
    · rw [if_neg hRefused, if_pos (hTarget.mpr hRefused)]
  rw [← hGate]
  simp only [Bool.not_true, Bool.false_and, Bool.false_eq_true, if_false] at hStart
  refine Eq.trans ?_ hStart
  simp only [World.after, run_bind, run_ite, run_get, run_emit, run_pure]
  split <;> rfl

theorem gate_openStream (w : World) (keys : StreamKeys) (host : Bytes) (port : Int) :
    (w.after (openStream env i f h keys host port)).gate =
      if opensTarget f host port then w.gate.opened else w.gate := by
  have hStarted (w₁ : World) (hSame : SameGate w w₁) : (w₁.after (do
      if port ≤ 0 then return .next h
      emit (.openSaved i (cstr host) port)
      if ← miplayStartRtspSession env i f.sock host port keys.has keys.key true then
        return .next h
      else
        let arg : RtspArg :=
          { host := host, port := port, clientSock := f.sock
            generation := (← get).rtsp.generation, hasStreamKey := keys.has
            streamKey := keys.key }
        emit (.rtspStarted i arg)
        return FrameEnd.inline (RtspRun.begin arg))).gate =
      if opensTarget f host port then w.gate.opened else w.gate := by
    by_cases hPort : port ≤ 0
    · have hNot : opensTarget f host port = false := by
        simp only [opensTarget, decide_eq_false_iff_not]
        omega
      simp only [World.after, if_pos hPort, run_pure, hNot, Bool.false_eq_true, if_false]
      exact hSame.gate
    · have hStart := gate_startStream env (i := i) (f := f) (h := h) w₁ keys host hPort
      rw [hSame.gate] at hStart
      simpa only [if_neg hPort] using hStart
  have hNotify := notifyEmptyMediaInfo_does (sameGate_answer env (.ctl i) i f.sock).toSendRules w
  simp only [openStream, World.after, run_bind, run_get]
  by_cases hSent : (w.sess i).mediaInfoNotifySent
  · simpa [World.after, hSent] using hStarted w (refl_of SameGate w)
  · simpa [World.after, hSent] using hStarted _ hNotify

variable (env) in
theorem gate_handleOpenDevice (w : World) :
    (w.after (handleOpenDevice env i f h)).gate =
      if opensStream f then w.gate.opened else w.gate := by
  unfold handleOpenDevice opensStream
  cases f.decrypted with
  | none => simp [World.after]
  | some plaintext =>
    cases hUrl : memmem (ascii "wfd://") plaintext with
    | none => simp [World.after, hUrl]
    | some start =>
      have hAck := gate_ack env (i := i) (f := f) w (cmdOpenDevice + 1) [0, 0, 0, 0, 0]
      simp only [hUrl]
      rw [← hAck.gate]
      exact gate_openStream _ _ _ _

/-! ## The switch -/

/-- The commands that bring something past the gate. -/
def ungatedCommands : List UInt16 :=
  [cmdNotify, cmdGetMediaInfoAck, cmdSetPlaySource, cmdSetMediaInfo, cmdOpenDevice]

/-- All other commands follow. -/
theorem frameFollows_gated (hOuter : f.outer ≠ 0x04) (hCmd : f.cmd ∉ ungatedCommands)
    (hAgrees : w.gate.Agrees) : FrameFollows env w f := by
  simp only [ungatedCommands, List.mem_cons, List.not_mem_nil, or_false, not_or] at hCmd
  simpa [FrameFollows, ungatedReport, startsStream, hOuter, hCmd] using hAgrees

/-- A frame that leaves the gate alone. -/
theorem follows_quiet {w' : World} (hOuter : f.outer ≠ 0x04) (hCmd : f.cmd ∉ ungatedCommands)
    (hAgrees : w.gate.Agrees) (hSame : w'.gate = w.gate) :
    w'.gate.Agrees ↔ FrameFollows env w f :=
  iff_of_true (hSame ▸ hAgrees) (frameFollows_gated hOuter hCmd hAgrees)

/-- A frame that only reports to the snapshot. -/
theorem follows_report {w' : World} {e : Option MediaEvent} (hReport : ungatedReport env w f = e)
    (hStart : startsStream w f = false) (hGate : w'.gate = e.elim w.gate w.gate.report) :
    w'.gate.Agrees ↔ FrameFollows env w f := by
  rw [FrameFollows, hReport, hStart, hGate]
  rfl

theorem Gate.agrees_opened (g : Gate) : g.opened.Agrees ↔ g.state ≠ 3 := by
  simp [Gate.Agrees, Gate.opened]

theorem handleAlone_follows (hOuter : f.outer = 0x04) (hAgrees : w.gate.Agrees) :
    (w.after (handleAlone env i f)).gate.Agrees ↔ FrameFollows env w f := by
  have hStart : startsStream w f = false := by simp [startsStream, hOuter]
  have hQuiet (hSub : f.cmd &&& 0xFF ≠ 0x18) : FrameFollows env w f := by
    simpa [FrameFollows, ungatedReport, startsStream, hOuter, hSub] using hAgrees
  unfold handleAlone
  dsimp only
  split
  · rename_i hSub
    exact iff_of_true (agrees_handleAloneSetState hAgrees) (hQuiet (by rw [hSub]; decide))
  split
  · rename_i hSub
    have hSame := handleAloneGetState_does (sameGate_answer env (.ctl i) i f.sock).toSendRules w
    exact iff_of_true (hSame.gate ▸ hAgrees) (hQuiet (by rw [hSub]; decide))
  split
  · rename_i hSub
    refine follows_report ?_ hStart (gate_handleAloneSetMediaInfo w)
    rw [ungatedReport, if_pos hOuter, if_pos hSub]
  · rename_i hSub
    exact iff_of_true hAgrees (hQuiet hSub)

theorem follows_ite {c P : Prop} [Decidable c] {m n : M Unit}
    (hm : c → ((w.after m).gate.Agrees ↔ P)) (hn : ¬c → ((w.after n).gate.Agrees ↔ P)) :
    (w.after (if c then m else n)).gate.Agrees ↔ P := by
  split
  · exact hm ‹_›
  · exact hn ‹_›

theorem dispatchCommand_follows (hOuter : f.outer ≠ 0x04) (hOpen : f.cmd ≠ cmdOpenDevice)
    (hAgrees : w.gate.Agrees) :
    (w.after (dispatchCommand env i f)).gate.Agrees ↔ FrameFollows env w f := by
  have hR := sameGate_answer env (.ctl i) i f.sock
  have hSend := hR.toSendRules
  -- a command that is none of the reporting ones, by what it does to the gate
  have hQuiet {m : M Unit} (hCmd : f.cmd ∉ ungatedCommands) (hDoes : Does SameGate m) :
      (w.after m).gate.Agrees ↔ FrameFollows env w f :=
    follows_quiet hOuter hCmd hAgrees (hDoes w).gate
  have hGated {w' : World} (hCmd : f.cmd ∉ ungatedCommands) (hTo : w'.gate.Agrees) :
      w'.gate.Agrees ↔ FrameFollows env w f :=
    iff_of_true hTo (frameFollows_gated hOuter hCmd hAgrees)
  have hStart (hCmd : f.cmd ≠ cmdSetMediaInfo) : startsStream w f = false := by
    simp [startsStream, hOuter, hOpen, hCmd]
  refine follows_ite (fun hCmd => ?_) fun hNotify => ?_
  · refine follows_report ?_ (hStart (by rw [hCmd]; decide)) (gate_handleNotify w)
    rw [ungatedReport, if_neg hOuter, if_pos hCmd]
  refine follows_ite (fun hCmd => hQuiet (by rw [hCmd]; decide) (handleNativeVersion_does hSend))
    fun _ => ?_
  refine follows_ite (fun hCmd => hQuiet (by rw [hCmd]; decide) (handleSafetyAck_does hSend))
    fun _ => ?_
  refine follows_ite (fun hCmd => hQuiet (by rw [hCmd]; decide) (handleHeartbeat_does hSend))
    fun _ => ?_
  refine follows_ite (fun hCmd => hQuiet (by rw [hCmd]; decide) (handleGetDeviceInfo_does hSend))
    fun _ => ?_
  refine follows_ite (fun hCmd => hQuiet (by rw [hCmd]; decide) (handleSetLocalDevInfo_does hSend))
    fun _ => ?_
  refine follows_ite (fun hCmd => hQuiet (by rw [hCmd]; decide) (handleGetMirrorMode_does hSend))
    fun _ => ?_
  refine follows_ite (fun hCmd => hQuiet (by rw [hCmd]; decide) (handleGetVolume_does hSend))
    fun _ => ?_
  refine follows_ite (fun hCmd => hQuiet (by rw [hCmd]; decide) (handleGetState_does hSend))
    fun _ => ?_
  refine follows_ite (fun hCmd => ?_) fun hInfoAck => ?_
  · refine follows_report ?_ (hStart (by rw [hCmd]; decide)) (gate_handleGetMediaInfoAck w)
    rw [ungatedReport, if_neg hOuter, if_neg hNotify, if_pos hCmd]
  refine follows_ite (fun hCmd => hQuiet (by rw [hCmd]; decide) (handleGetMediaInfo_does hSend))
    fun _ => ?_
  refine follows_ite (fun hCmd => ?_) fun hSource => ?_
  · refine follows_report ?_ (hStart (by rw [hCmd]; decide)) (gate_handleSetPlaySource w)
    rw [ungatedReport, if_neg hOuter, if_neg hNotify, if_neg hInfoAck, if_pos hCmd]
  refine follows_ite (fun hCmd => hQuiet (by rw [hCmd]; decide) (handleSetVolume_does hR))
    fun _ => ?_
  refine follows_ite (fun hCmd => hGated (by rw [hCmd]; decide) ?_) fun _ => ?_
  · rw [gate_handlePause]
    decide
  refine follows_ite (fun hCmd => hGated (by rw [hCmd]; decide) ?_) fun _ => ?_
  · rw [gate_handleResume]
    decide
  refine follows_ite
    (fun hCmd => hGated (by rw [hCmd]; decide) (agrees_handleSetPosition hAgrees)) fun _ => ?_
  refine follows_ite (fun hCmd => hQuiet (by rw [hCmd]; decide)
    (handleSetMirrorKey_does hSend (fun _ _ _ => ⟨rfl, rfl, rfl⟩) fun _ _ => ⟨rfl, rfl, rfl⟩))
    fun _ => ?_
  refine follows_ite (fun hCmd => ?_) fun hInfo => ?_
  · have hReport : ungatedReport env w f =
        (jsonReport f (heapFrom env w)).map fun e => ignoreStubStopped e.marked := by
      rw [ungatedReport, if_neg hOuter, if_neg hNotify, if_neg hInfoAck, if_neg hSource, if_pos hCmd]
    have hRestart : startsStream w f = restarts w f.sock := by
      rw [startsStream, if_neg hOuter, if_neg hOpen, if_pos hCmd]
    rw [gate_handleSetMediaInfo, FrameFollows, hReport, hRestart]
    by_cases hStarts : restarts w f.sock
    · simp only [if_pos hStarts]
      exact Gate.agrees_opened _
    · simp only [if_neg hStarts]
  refine follows_ite
    (fun hCmd => hGated (by rw [hCmd]; decide) (agrees_handleSetMediaState hAgrees)) fun _ => ?_
  refine hQuiet ?_ (Does.pure ())
  simp [ungatedCommands, hNotify, hInfoAck, hSource, hInfo, hOpen]

variable (env) in
theorem dispatchFrame_follows (hAgrees : w.gate.Agrees) :
    (w.after (dispatchFrame env i f h)).gate.Agrees ↔ FrameFollows env w f := by
  have hR := sameGate_answer env (.ctl i) i f.sock
  unfold dispatchFrame
  split
  · rename_i hOuter
    exact handleAlone_follows hOuter hAgrees
  rename_i hOuter
  split
  · rename_i hCmd
    have hGate := gate_handleOpenDevice env (i := i) (f := f) (h := h) w
    have hReport : ungatedReport env w f = none := by
      simp [ungatedReport, hOuter, hCmd, cmdOpenDevice, cmdNotify, cmdGetMediaInfoAck,
        cmdSetPlaySource, cmdSetMediaInfo]
    have hStart : startsStream w f = opensStream f := by simp [startsStream, hOuter, hCmd]
    rw [hGate, FrameFollows, hReport, hStart]
    by_cases hStream : opensStream f
    · rw [if_pos hStream, if_pos hStream]
      exact Gate.agrees_opened _
    · rw [if_neg hStream, if_neg hStream]
      rfl
  rename_i hOpen
  split
  · rename_i hCmd
    exact follows_quiet hOuter (by rw [hCmd]; decide) hAgrees
      ((handleSafetyInfo_does hR.toSendRules).bind (fun _ => Does.pure _) w).gate
  split
  · rename_i hCmd
    exact follows_quiet hOuter (by rw [hCmd]; decide) hAgrees
      (handleSafetyAuth_does.bind (fun _ => Does.pure (R := SameGate) _) w).gate
  split
  · rename_i hCmd
    have hSame := handleSafetyAuthAck_does (h := h) hR (fun _ => ⟨rfl, rfl, rfl⟩)
      (fun _ => ⟨rfl, rfl, rfl⟩) (fun _ => ⟨rfl, rfl, rfl⟩)
    exact follows_quiet hOuter (by rw [hCmd]; decide) hAgrees
      (hSame.bind (fun _ => Does.pure _) w).gate
  · exact dispatchCommand_follows hOuter hOpen hAgrees

end Switch

/-! ## The other steps -/

/-- The whole critical section, as far as the gate is concerned. -/
theorem serveFrame_gate (env : Env) (w : World) (i : Slot) (h : Handler) (frame : Bytes) (n : Nat) :
    (w.after (serveFrame env i h frame n)).gate =
      ((openFrame env w i frame).1.after
        (dispatchFrame env i (openFrame env w i frame).2 h)).gate := by
  rw [World.after, serveFrame, run_bind, handleFrame_run, World.after]
  rcases (dispatchFrame env i (openFrame env w i frame).2 h).run (openFrame env w i frame).1 with
    ⟨h' | r, w'⟩ <;> rfl

/-- Nothing but the gate is looked at. -/
def GateKept (w w' : World) : Prop := w'.gate = w.gate

instance : IsPreorder World GateKept where
  refl _ := rfl
  trans _ _ _ h h' := Eq.trans h' h

theorem gateKept_blind : ControlBlind GateKept where
  blind _ _ _ _ _ _ _ _ _ _ := rfl
  log _ _ _ := rfl

theorem openFrame_gate (env : Env) (w : World) (i : Slot) (frame : Bytes) :
    (openFrame env w i frame).1.gate = w.gate := by
  have hDecrypt : Does GateKept (unifiedDecrypt env i (framePayload frame)) :=
    unifiedDecrypt_does (fun _ _ => rfl) (fun _ _ => rfl) (fun _ _ _ _ _ => rfl) _
  exact hDecrypt { w with regs := (w.sess i).regs }

theorem gateKept_session (env : Env) (who : Owner) :
    SessionRules env who (fun _ _ => True) GateKept where
  tick _ _ := rfl
  shared _ _ _ _ _ _ _ _ := rfl
  opened _ _ _ := rfl
  closed _ _ := rfl
  used _ _ := rfl
  imageTask _ _ _ := rfl
  mediaTask _ _ _ := rfl
  newTask _ := rfl
  markClosed _ _ := markClosed_does _ (fun _ _ => rfl) fun _ => rfl

/-- The notify of a local control goes out. -/
def controlSent (env : Env) (w : World) (action : Bytes) (value : Int) : Bool :=
  match miplaySessionActive w with
  | none => false
  | some i =>
    let s := w.sess i
    if s.sock < 0 ∨ !s.inUse ∨ !s.regs.mediaSessionOpened ∨ !s.regs.hasSessionKey then false
    else
      match receiverControlBody action value with
      | none => false
      | some body =>
        ((sendEncryptedCmdAutoSeq env .button s.sock cmdNotify body).run
          { w.after (controlPauseGate action) with regs := s.regs }).1

/-- A local pause or resume is sent, or does not contradict the snapshot. -/
def ControlFollows (env : Env) (w : World) (action : Bytes) (value : Int) : Prop :=
  (action = ascii "pause" → controlSent env w action value ∨ w.gate.state ≠ 2) ∧
    (isResumeAction action → controlSent env w action value ∨ w.gate.state ≠ 3)

/-- The gate a local control leaves. -/
def Gate.pressed (g : Gate) (action : Bytes) (sent : Bool) : Gate :=
  if action = ascii "pause" then ⟨if sent then 3 else g.state, true⟩
  else if isResumeAction action then ⟨if sent then 2 else g.state, false⟩
  else g

theorem controlPauseGate_gate (w : World) (action : Bytes) :
    w.after (controlPauseGate action) =
      { w with mediaPaused := (w.gate.pressed action false).paused } := by
  simp only [World.after, controlPauseGate, miplaySetAudioPaused, run_ite, run_modify, Gate.pressed]
  split
  · rfl
  · split <;> rfl

/-- The notify of a local control, and the state projected behind a pause or resume. -/
theorem gate_emitReceiverControl {env : Env} {sock : Int} (w : World) {action body : Bytes}
    {value : Int} (hBody : receiverControlBody action value = some body)
    (hVolume : action ≠ ascii "volume") :
    (w.after (emitReceiverControl env sock action value body)).gate =
      { w.gate with
        state := (w.gate.pressed action
          ((sendEncryptedCmdAutoSeq env .button sock cmdNotify body).run w).1).state } := by
  have hSend := (sameGate_answer env .button 0 sock).auto cmdNotify body
    (length_receiverControlBody hBody) w
  simp only [World.after, emitReceiverControl, if_neg hVolume, run_bind, run_ite]
  generalize (sendEncryptedCmdAutoSeq env .button sock cmdNotify body).run w = r at hSend ⊢
  by_cases hPause : action = ascii "pause"
  · cases r.1 with
    | false => simpa [hPause, Gate.pressed] using hSend.gate
    | true =>
      simp only [hPause, decide_true, Bool.true_or, Bool.and_true, if_true, Gate.pressed]
      exact (gate_emitMediaEvent r.2 _).trans (by rw [hSend.gate]; rfl)
  · by_cases hResume : isResumeAction action
    · cases r.1 with
      | false => simpa [hPause, hResume, Gate.pressed] using hSend.gate
      | true =>
        simp only [hPause, hResume, decide_false, Bool.false_or, Bool.and_true, if_true, if_false,
          Gate.pressed]
        exact (gate_emitMediaEvent r.2 _).trans (by rw [hSend.gate]; rfl)
    · simpa [hPause, hResume, Gate.pressed] using hSend.gate

/-- A volume notify projects nothing. -/
theorem gate_emitVolume {env : Env} {sock : Int} (w : World) {body : Bytes} {value : Int}
    (hBody : receiverControlBody (ascii "volume") value = some body) :
    (w.after (emitReceiverControl env sock (ascii "volume") value body)).gate = w.gate := by
  have hR := sameGate_answer env .button 0 sock
  have hSend := hR.auto cmdNotify body (length_receiverControlBody hBody)
  have hVolume : Does SameGate (do
      miplaySetVolume (controlVolume value)
      let _ ← sendEncryptedCmdAutoSeq env .button sock cmdNotify body) :=
    (hR.miplaySetVolume _).bind fun _ => hSend.bind fun _ => Does.pure _
  have hNot : (ascii "volume" = ascii "pause") = False ∧ isResumeAction (ascii "volume") = false := by
    decide
  simpa [World.after, emitReceiverControl, hNot] using (hVolume w).gate

/-- What is not sent changes no state. -/
theorem Gate.pressed_unsent (g : Gate) (action : Bytes) :
    g.pressed action false = { g with paused := (g.pressed action false).paused } := by
  simp only [pressed]
  split
  · rfl
  · split <;> rfl

/-- Whether or not it is sent, the gate is set. -/
theorem Gate.pressed_sent (g : Gate) (action : Bytes) (sent : Bool) :
    g.pressed action sent =
      { state := ((g.pressed action false).pressed action sent).state
        paused := (g.pressed action false).paused } := by
  simp only [pressed]
  split
  · cases sent <;> rfl
  · split
    · cases sent <;> rfl
    · rfl

theorem gate_sendReceiverControl (env : Env) (w : World) (action : Bytes) (value : Int) :
    (w.after (miplaySendReceiverControl env action value)).gate =
      w.gate.pressed action (controlSent env w action value) := by
  have hSet := controlPauseGate_gate w action
  have hUnsent : World.gate { w with mediaPaused := (w.gate.pressed action false).paused } =
      w.gate.pressed action false :=
    (Gate.pressed_unsent w.gate action).symm
  have hRun : w.after (miplaySendReceiverControl env action value) =
      match miplaySessionActive w with
      | none => w.after (controlPauseGate action)
      | some i => (w.after (controlPauseGate action)).after (receiverControlOn env i action value) := by
    simp only [World.after] at hSet
    simp only [World.after, miplaySendReceiverControl, run_bind, run_get, hSet]
    change (StateT.run (match miplaySessionActive w with
      | none => pure ()
      | some i => receiverControlOn env i action value) _).2 = _
    split <;> rfl
  rw [hRun]
  unfold controlSent
  cases miplaySessionActive w with
  | none =>
    dsimp only
    rw [hSet, hUnsent]
  | some i =>
    dsimp only
    rw [hSet]
    simp only [World.after, receiverControlOn, run_bind, run_miplaySessionLoad, run_get, run_ite,
      run_pure]
    by_cases hNo : (w.sess i).sock < 0 ∨ !(w.sess i).inUse ∨
        !(w.sess i).regs.mediaSessionOpened ∨ !(w.sess i).regs.hasSessionKey
    · simp only [if_pos hNo]
      exact hUnsent
    simp only [if_neg hNo]
    cases hBody : receiverControlBody action value with
    | none => exact hUnsent
    | some body =>
      by_cases hVolume : action = ascii "volume"
      · subst hVolume
        refine (gate_emitVolume _ hBody).trans (hUnsent.trans ?_)
        have hNot : (ascii "volume" = ascii "pause") = False ∧
            isResumeAction (ascii "volume") = false := by decide
        simp [Gate.pressed, hNot]
      · refine (gate_emitReceiverControl _ hBody hVolume).trans ?_
        refine Eq.trans ?_ (Gate.pressed_sent _ _ _).symm
        have hLoaded : World.gate { w with
            regs := (w.sess i).regs
            mediaPaused := (w.gate.pressed action false).paused } =
            w.gate.pressed action false := hUnsent
        rw [hLoaded]

theorem agrees_pressed {env : Env} {w : World} {action : Bytes} {value : Int}
    (hAgrees : w.gate.Agrees) :
    (w.gate.pressed action (controlSent env w action value)).Agrees ↔
      ControlFollows env w action value := by
  unfold ControlFollows Gate.pressed
  by_cases hPause : action = ascii "pause"
  · have hNot : isResumeAction action = false := by
      rw [hPause]
      decide
    cases controlSent env w action value <;> simp [hPause ▸ hNot, hPause, Gate.Agrees]
  · by_cases hResume : isResumeAction action
    · cases controlSent env w action value <;> simp [hPause, hResume, Gate.Agrees]
    · simpa [hPause, hResume] using hAgrees

/-- The last session does not leave while the snapshot says "playing". -/
def CleanupFollows (w : World) (i : Slot) : Prop :=
  (∀ j, j ≠ i → ¬Keyed w j) → w.gate.state ≠ 2

/-- The media task reports its first packet. -/
def reportsPlaying (env : Env) (w : World) (m : MediaRun) : Outcome → Bool
  | .data _ true =>
    m.pc = .recv ∧ w.running ∧ w.rtsp.generation = m.generation ∧ !m.playingReported ∧
      !m.wasPausedSnapshot ∧ env.heap w.tick
  | _ => false

/-- What a step brings past the gate is what the gate says. -/
def GateFollows (env : Env) (w : World) : Action → Prop
  | .frame i =>
    match w.ctl i with
    | some (.serving h) =>
      match frameMove h.buf with
      | .take frame _ => FrameFollows env (openFrame env w i frame).1 (openFrame env w i frame).2
      | _ => True
    | _ => True
  | .cleanup i => CleanupFollows w i
  | .control action value => ControlFollows env w action value
  | .media h o =>
    match w.mediaTasks h with
    | some m => reportsPlaying env w m o → w.gate.paused = false
    | none => True
  | _ => True

/-- Only two places of the media task report a state. -/
theorem gateKept_mediaStep {env : Env} {t : Nat} {m : MediaRun} (o : Outcome)
    (hRecv : m.pc ≠ .recv) (hStopped : m.pc ≠ .emitStopped) :
    Does GateKept (mediaStep env t m o) := by
  have hR := gateKept_session env (.media t)
  unfold mediaStep
  cases hPc : m.pc with
  | recv => exact absurd hPc hRecv
  | emitStopped => exact absurd hPc hStopped
  | start => exact Does.bind (fun w => rfl) fun _ => Does.pure _
  | alloc =>
    refine (hR.oracle _).bind fun heap => Does.ite (fun _ => Does.pure _) fun _ => ?_
    exact Does.ite (fun _ => (hR.closed _).bind fun _ => Does.pure _) fun _ => Does.pure _
  | loop => exact Does.get.bind fun w => Does.ite (fun _ => Does.pure _) fun _ => Does.pure _
  | stop =>
    refine Does.get.bind fun w => Does.ite (fun _ => ?_) fun _ => Does.pure _
    exact Does.bind (fun w => rfl) fun _ => Does.pure _
  | markClosed => exact (hR.markClosed _ _).bind fun _ => Does.pure _
  | closeMedia => exact (hR.closed _).bind fun _ => Does.pure _
  | closeRtsp =>
    exact Does.ite (fun _ => (hR.closed _).bind fun _ => Does.pure _) fun _ => Does.pure _
  | closeImage => exact hR.closeImageSock.bind fun _ => Does.pure _
  | clearPorts => exact (hR.modifyRtsp fun _ => rfl).bind fun _ => Does.pure _

theorem gate_emitStateEvent (env : Env) (w : World) (state : Int) (player : PlayerState) :
    (w.after (miplayEmitStateEvent env state player)).gate =
      if env.heap w.tick then { w.gate with state := state } else w.gate := by
  simp only [World.after, miplayEmitStateEvent, run_bind, run_oracle, run_ite]
  split
  · exact gate_emitMediaEvent _ _
  · rfl

theorem mediaStep_follows {env : Env} {w : World} {t : Nat} {m : MediaRun} {o : Outcome}
    (hAgrees : w.gate.Agrees) :
    (w.after (do
      let m' ← mediaStep env t m o
      setMediaTask t m')).gate.Agrees ↔ (reportsPlaying env w m o → w.gate.paused = false) := by
  change (w.after (mediaStep env t m o)).gate.Agrees ↔ _
  have hSilent (hNot : reportsPlaying env w m o = false)
      (hTo : (w.after (mediaStep env t m o)).gate.Agrees) :
      (w.after (mediaStep env t m o)).gate.Agrees ↔
        (reportsPlaying env w m o → w.gate.paused = false) :=
    iff_of_true hTo (by simp [hNot])
  have hElsewhere (hPc : m.pc ≠ .recv) : reportsPlaying env w m o = false := by
    unfold reportsPlaying
    split
    · simp [hPc]
    · rfl
  by_cases hRecv : m.pc = .recv
  · simp only [World.after, mediaStep, hRecv, run_bind, run_get, run_ite, run_pure]
    by_cases hOver : !w.running || w.rtsp.generation != m.generation
    · simp only [if_pos hOver]
      refine iff_of_true hAgrees fun hReports => ?_
      unfold reportsPlaying at hReports
      split at hReports
      · simp only [Bool.decide_and, Bool.and_eq_true, decide_eq_true_eq] at hReports
        simp [hReports.2.1, hReports.2.2.1] at hOver
      · cases hReports
    simp only [if_neg hOver]
    have hLive : w.running ∧ w.rtsp.generation = m.generation := by simpa using hOver
    cases o with
    | data bytes packet =>
      cases packet with
      | false => exact iff_of_true hAgrees (by simp [reportsPlaying])
      | true =>
        -- the heap answers for the event; without memory nothing is reported
        have hReport := gate_emitStateEvent env (w.after (useFd (.media t) m.mediaSock)) 2 .playing
        have hReports : reportsPlaying env w m (.data bytes true) =
            (!m.playingReported && !m.wasPausedSnapshot && env.heap w.tick) := by
          simp [reportsPlaying, hRecv, hLive, Bool.and_assoc]
        rw [hReports]
        by_cases hFirst : !m.playingReported && !m.wasPausedSnapshot
        · have hRun : (w.after (useFd (.media t) m.mediaSock)).gate = w.gate := rfl
          have hTick : (w.after (useFd (.media t) m.mediaSock)).tick = w.tick := rfl
          rw [hTick, hRun] at hReport
          simp only [hFirst, Bool.not_true, Bool.false_eq_true, if_false, if_true, Bool.true_and]
          change (World.gate (World.after (w.after (useFd (.media t) m.mediaSock))
            (miplayEmitStateEvent env 2 .playing))).Agrees ↔ _
          rw [hReport]
          by_cases hHeap : env.heap w.tick
          · simp [hHeap, Gate.Agrees]
          · simpa [hHeap] using hAgrees
        · simp only [hFirst, Bool.not_true, Bool.false_eq_true, if_false, Bool.false_and,
            false_imp_iff, iff_true]
          exact hAgrees
    | _ => exact iff_of_true hAgrees (by simp [reportsPlaying])
  by_cases hStopped : m.pc = .emitStopped
  · refine hSilent (hElsewhere hRecv) ?_
    simp only [World.after, mediaStep, hStopped, run_bind, run_get, run_ite, run_pure]
    split
    · change (w.after (miplayEmitStateEvent env 0 .stopped)).gate.Agrees
      rw [gate_emitStateEvent]
      split
      · simp [Gate.Agrees]
      · exact hAgrees
    · exact hAgrees
  · have hKept : (w.after (mediaStep env t m o)).gate = w.gate :=
      gateKept_mediaStep o hRecv hStopped w
    exact hSilent (hElsewhere hRecv) (hKept ▸ hAgrees)

/-- **Step lemma.** -/
theorem Step.gate {env : Env} {w w' : World} {a : Action} (hAgrees : w.gate.Agrees)
    (hStep : Step env w a w') : w'.gate.Agrees ↔ GateFollows env w a := by
  have hKept (h : GateKept w w') (hFollows : GateFollows env w a) :
      w'.gate.Agrees ↔ GateFollows env w a :=
    iff_of_true (h ▸ hAgrees) hFollows
  by_cases hListener : a.Listener
  · refine hKept (gateKept_blind.listener (fun _ _ => rfl) hStep hListener) ?_
    cases a <;> trivial
  by_cases hControl : a.Control
  · refine hKept (gateKept_blind.step hStep hControl) ?_
    cases a <;> trivial
  cases hStep with
  | @frame i h fr n hCtl hMove hMux =>
    have hOpen := openFrame_gate env w i fr
    have hFollows := dispatchFrame_follows env (i := i) (h := h) (f := (openFrame env w i fr).2)
      (hOpen ▸ hAgrees)
    rw [serveFrame_gate, hFollows]
    simp only [GateFollows, hCtl, hMove]
  | @cleanup i hCtl hMux =>
    obtain ⟨notify, regs, active, peer, hNotify, hAfter⟩ := cleanup_run w i
    rw [hAfter]
    simp only [GateFollows, CleanupFollows, ← hNotify]
    cases notify with
    | false => simpa [World.gate] using hAgrees
    | true => simp [Gate.Agrees, World.gate]
  | inlineDone hCtl hPc =>
    exact hKept ((gateKept_blind.inlineReturn _).bind (fun _ => gateKept_blind.setCtl _ _) w) trivial
  | @inline i r o hCtl hPc hMark hFits =>
    have hRun := (gateKept_session env (.ctl i)).rtspRunStep r hFits (fun _ _ _ => trivial)
      fun _ _ => rfl
    exact hKept hRun trivial
  | rtspDone hTask hPc => exact hKept rfl trivial
  | @rtsp t r o hTask hPc hMark hFits =>
    have hRun := (gateKept_session env (.rtsp t)).rtspRunStep r hFits (fun _ _ _ => trivial)
      fun _ _ => rfl
    exact hKept hRun trivial
  | media hTask hMark =>
    rw [mediaStep_follows hAgrees]
    simp only [GateFollows, hTask]
  | @image t r o hTask => exact hKept ((gateKept_session env (.image t)).imageStep r o w) trivial
  | @control action value hMux =>
    rw [gate_sendReceiverControl]
    exact agrees_pressed hAgrees
  | setVolume => exact hKept rfl trivial
  | accept | alloc | reject | spawn | tcpRelease => exact absurd trivial hListener
  | _ => exact absurd trivial hControl

/-- The phone notifies "paused". -/
def pausedFrame : Bytes := frameOf 0 0x22 (opackLabel (ascii "mDeviceState") ++ [0x03, 3])

end EspMiplay.Miplay
