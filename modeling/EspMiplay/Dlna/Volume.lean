import EspMiplay.Lib.Transition

/-!
# Volume

The volume is held twice, by the player (`s_vol` of `dlna.c`) and by the MiPlay
service (`s_volume_percent` of `miplay.c`), and each of the two is stored for the next
boot: the service's by a task for every change, the player's by the timer of the
volume capsule of the display. While a phone is connected the UI task makes them one.

A run starts at boot. What the user and the phone ask for is written down beside the
state (`chosen`), and so is the volume a mute has to bring back (`beforeMute`).

## Results

* `VolumeInv.step`        — what the steps keep.
* `volume_along`          — no volume is lost along every run of `Careful` steps.
* `connect_stores_mute`   — a phone that connects while the speaker is muted.
-/

namespace EspMiplay.Dlna

open Transition

structure VolumeWorld where
  /-- `s_vol` -/
  vol : Nat
  mute : Bool
  lastApplied : Nat
  /-- the volume the ALC has been set to -/
  alc : Nat
  /-- `s_miplay_pending_volume` -/
  pending : Option Nat
  /-- what the UI task is about to send, outside the lock -/
  sending : Option Nat
  /-- `s_miplay_connected` -/
  connected : Bool
  /-- `s_volume_percent` -/
  percent : Nat
  /-- the save tasks that have not run yet -/
  saves : List Nat
  /-- `vol` of the namespace `miplay` -/
  nvs : Nat
  /-- `s_volume_current` of the display -/
  uiVolume : Nat
  /-- `s_volume_save_timer` is running -/
  saveTimer : Bool
  /-- `volume` of the namespace `display` -/
  displayNvs : Nat
  /-- the ghost: the volume the user or the phone chose last, since boot or before it -/
  chosen : Option Nat
  /-- the ghost: the volume when it was muted, unless another has been chosen since -/
  beforeMute : Option Nat
  /-- the ghost: the UI task has run since a volume was chosen -/
  ticked : Bool
  deriving DecidableEq

inductive VolumeAction where
  /-- `cb_set_volume`, from the touch screen or a control point -/
  | setVolume (v : Int)
  | setMute (on : Bool)
  /-- a SetVolume frame of the phone -/
  | phone (v : Nat)
  /-- the volume keys of the remote control -/
  | remote (up : Bool)
  /-- `dlna_on_miplay_connected`, or the detaching by a control point -/
  | connect (connected : Bool)
  /-- `ui_update_task` holds the lock -/
  | tick
  /-- `ui_update_task` sends what was pending; without a media session nothing happens -/
  | send (canSend : Bool)
  /-- one of the save tasks runs -/
  | save (n : Nat)
  /-- the timer of the display -/
  | saveDisplay

namespace VolumeWorld

variable (w : VolumeWorld)

/-- `miplay_set_volume`; the save goes to a task of its own. -/
def miplaySetVolume (percent : Nat) : VolumeWorld :=
  { w with percent := min percent 100, saves := w.saves ++ [min percent 100] }

/-- The user or the phone has chosen. -/
def choose (v : Nat) : VolumeWorld :=
  { w with chosen := some v, beforeMute := none, ticked := false }

def cbSetVolume (v : Int) : VolumeWorld :=
  let v := (min (max v 0) 100).toNat
  let w := { w with vol := v, mute := false, alc := v }.miplaySetVolume v
  if w.connected then { w with pending := some v } else w

/-- What the next tick will find the volume to be. -/
def settles : Nat := if w.connected ∧ w.pending = none then w.percent else w.vol

def cbSetMute (on : Bool) : VolumeWorld :=
  { w with mute := on, alc := if on then 0 else w.vol }

def setVolumeFrame (v : Nat) : VolumeWorld :=
  if v ≤ 100 then { w with percent := v, saves := w.saves ++ [v] } else w

def airkanVolume (up : Bool) : VolumeWorld :=
  w.miplaySetVolume (if up then w.percent + 5 else if w.percent > 5 then w.percent - 5 else 0)

def onMiplayConnected (connected : Bool) : VolumeWorld :=
  let w := { w with connected := connected }
  if connected then { w.miplaySetVolume (if w.mute then 0 else w.vol) with pending := none } else w

/-- The volume of the phone is taken over. -/
def followPhone : VolumeWorld :=
  let v := min w.percent 100
  if w.vol ≠ v then { w with vol := v, mute := w.mute && v = 0 } else w

def applyVolume : VolumeWorld :=
  if w.vol ≠ w.lastApplied then
    { w with alc := if w.mute then 0 else w.vol, lastApplied := w.vol }
  else w

/-- `lvgl_port_ui_set_volume` -/
def uiSetVolume (v : Nat) : VolumeWorld :=
  let v := min v 100
  { w with uiVolume := v, saveTimer := w.saveTimer || v ≠ w.uiVolume }

/-- The part of a turn of `ui_update_task` that is about the volume. -/
def uiTick : VolumeWorld :=
  let w :=
    if w.connected then
      let w' := { w with sending := w.pending, pending := none }
      if w.pending = none then w'.followPhone else w'
    else w
  let w := w.applyVolume
  w.uiSetVolume w.vol

def step : VolumeAction → Option VolumeWorld
  | .setVolume v => some ((w.cbSetVolume v).choose (min (max v 0) 100).toNat)
  | .setMute on =>
    some { w.cbSetMute on with beforeMute := if on && !w.mute then some w.settles else w.beforeMute }
  | .phone v => some (if v ≤ 100 then (w.setVolumeFrame v).choose v else w)
  | .remote up => some ((w.airkanVolume up).choose (w.airkanVolume up).percent)
  | .connect connected => some (w.onMiplayConnected connected)
  | .tick => if w.sending = none then some { w.uiTick with ticked := true } else none
  | .send canSend =>
    match w.sending with
    | none => none
    | some v =>
      some { (if canSend then w.miplaySetVolume v else w) with sending := none }
  | .save n =>
    match w.saves[n]? with
    | none => none
    | some v => some { w with saves := w.saves.eraseIdx n, nvs := v }
  | .saveDisplay =>
    if w.saveTimer then some { w with displayNvs := w.uiVolume, saveTimer := false } else none

/-- What the service will have stored when all save tasks have run, one after the other. -/
def persisted : Nat := w.saves.getLastD w.nvs

end VolumeWorld

/-- A boot with the volumes that are stored, or with the defaults where none is. -/
structure VolumeStart where
  display : Nat
  service : Nat
  chosen : Option Nat
  hDisplay : display ≤ 100
  hService : service ≤ 100
  hChosen : ∀ v ∈ chosen, display = v ∧ service = v

def VolumeStart.world (s : VolumeStart) : VolumeWorld where
  vol := s.display
  mute := false
  lastApplied := s.display
  alc := s.display
  pending := none
  sending := none
  connected := false
  percent := s.service
  saves := []
  nvs := s.service
  uiVolume := 50
  saveTimer := false
  displayNvs := s.display
  chosen := s.chosen
  beforeMute := none
  ticked := false

/-- A mute takes nothing away, and the next boot finds the volume that was chosen last:
in the service's store as soon as the save tasks have run, in that of the display once
the UI task and the timer have. -/
structure VolumeWorld.Law (w : VolumeWorld) : Prop where
  restored : ∀ v ∈ w.beforeMute, w.settles = v
  persisted : ∀ v ∈ w.chosen, w.persisted = v
  displayed : w.ticked → w.saveTimer = false → ∀ v ∈ w.chosen, w.displayNvs = v

/-- The player has taken over what the service holds, or keeps something for it. -/
def InStep (w : VolumeWorld) : Prop := w.connected → w.pending = none → w.vol = w.percent

/-- The phone comes and goes while both volumes are one, and does not come to a muted
speaker; it and the remote control change the volume of a player that follows them; what
is sent is still the volume of the service; the saves run in their order; and the
display does not start with the very volume that has to be stored. -/
def Careful (w : VolumeWorld) : VolumeAction → Prop
  | .setVolume _ | .setMute _ | .saveDisplay => True
  | .phone v => v ≤ 100 → (w.connected ∧ w.pending = none) ∨ w.vol = v
  | .remote up => (w.connected ∧ w.pending = none) ∨ w.vol = (w.airkanVolume up).percent
  | .connect connected => InStep w ∧ (connected → w.mute → w.vol = 0)
  | .tick => w.saveTimer ∨ w.displayNvs = w.uiVolume ∨ w.settles ≠ w.uiVolume
  | .send canSend => canSend → w.sending = some w.percent
  | .save n => n = 0

/-! ## The invariant -/

structure VolumeInv (w : VolumeWorld) : Prop where
  volMax : w.vol ≤ 100
  percentMax : w.percent ≤ 100
  muted : ∀ v ∈ w.beforeMute, w.settles = v
  player : ∀ v ∈ w.chosen, w.settles = v
  service : ∀ v ∈ w.chosen, w.percent = v
  stored : ∀ v ∈ w.chosen, w.persisted = v
  pending : w.pending.isSome → w.chosen.isSome
  shown : w.ticked → w.uiVolume = w.vol ∧ (w.saveTimer = false → w.displayNvs = w.vol)
  ticked : w.ticked → ∀ v ∈ w.chosen, w.vol = v

variable {w w' : VolumeWorld}

theorem VolumeInv.law (h : VolumeInv w) : w.Law where
  restored := h.muted
  persisted := h.stored
  displayed hTicked hTimer v hv := ((h.shown hTicked).2 hTimer).trans (h.ticked hTicked v hv)

theorem volumeInv_start (s : VolumeStart) : VolumeInv s.world where
  volMax := s.hDisplay
  percentMax := s.hService
  muted := by rintro v ⟨⟩
  player v hv := (s.hChosen v hv).1
  service v hv := (s.hChosen v hv).2
  stored v hv := (s.hChosen v hv).2
  pending := by rintro ⟨⟩
  shown := by rintro ⟨⟩
  ticked := by rintro ⟨⟩

/-- After a choice. -/
theorem volumeInv_choose {v : Nat} (hVol : w.vol ≤ 100) (hPercent : w.percent = v) (hMax : v ≤ 100)
    (hSaves : w.persisted = v) (hSettles : w.settles = v) : VolumeInv (w.choose v) where
  volMax := hVol
  percentMax := hPercent ▸ hMax
  muted := by rintro u ⟨⟩
  player := by
    rintro u ⟨⟩
    exact hSettles
  service := by
    rintro u ⟨⟩
    exact hPercent
  stored := by
    rintro u ⟨⟩
    exact hSaves
  pending _ := rfl
  shown := by rintro ⟨⟩
  ticked := by rintro ⟨⟩

theorem persisted_append (w : VolumeWorld) (v : Nat) :
    { w with saves := w.saves ++ [v] }.persisted = v := by simp [VolumeWorld.persisted]

theorem settles_of_following (h : w.connected ∧ w.pending = none) : w.settles = w.percent := if_pos h

theorem settles_of_not_following (h : ¬(w.connected ∧ w.pending = none)) : w.settles = w.vol := if_neg h

theorem InStep.settles (h : InStep w) : w.settles = w.vol := by
  by_cases hFollows : w.connected ∧ w.pending = none
  · rw [settles_of_following hFollows, h hFollows.1 hFollows.2]
  · exact settles_of_not_following hFollows

/-! ## The steps -/

theorem VolumeInv.setVolume {v : Int} (hStep : w.step (.setVolume v) = some w') : VolumeInv w' := by
  obtain rfl := Option.some.inj hStep
  have hMax : (min (max v 0) 100).toNat ≤ 100 := by omega
  have hMin : min (min (max v 0) 100).toNat 100 = (min (max v 0) 100).toNat := Nat.min_eq_left hMax
  cases hConn : w.connected with
  | true =>
    refine volumeInv_choose ?_ ?_ hMax ?_ ?_ <;>
      simp [VolumeWorld.cbSetVolume, VolumeWorld.miplaySetVolume, VolumeWorld.persisted,
        VolumeWorld.settles, hConn, hMin] <;>
      omega
  | false =>
    refine volumeInv_choose ?_ ?_ hMax ?_ ?_ <;>
      simp [VolumeWorld.cbSetVolume, VolumeWorld.miplaySetVolume, VolumeWorld.persisted,
        VolumeWorld.settles, hConn, hMin] <;>
      omega

theorem VolumeInv.setMute (h : VolumeInv w) {on : Bool} (hStep : w.step (.setMute on) = some w') :
    VolumeInv w' := by
  obtain rfl := Option.some.inj hStep
  refine ⟨h.volMax, h.percentMax, ?_, h.player, h.service, h.stored, h.pending, h.shown, h.ticked⟩
  show ∀ v ∈ (if on && !w.mute then some w.settles else w.beforeMute), w.settles = v
  split_ifs
  · rintro v ⟨⟩
    rfl
  · exact h.muted

theorem VolumeInv.phone (h : VolumeInv w) {v : Nat} (hStep : w.step (.phone v) = some w')
    (hCareful : Careful w (.phone v)) : VolumeInv w' := by
  obtain rfl := Option.some.inj hStep
  by_cases hMax : v ≤ 100
  · rw [if_pos hMax, VolumeWorld.setVolumeFrame, if_pos hMax]
    refine volumeInv_choose h.volMax rfl hMax (persisted_append _ v) ?_
    rcases hCareful hMax with hFollows | hVol
    · exact settles_of_following hFollows
    · show (if w.connected ∧ w.pending = none then v else w.vol) = v
      rw [hVol, ite_self]
  · rw [if_neg hMax]
    exact h

theorem VolumeInv.remote (h : VolumeInv w) {up : Bool} (hStep : w.step (.remote up) = some w')
    (hCareful : Careful w (.remote up)) : VolumeInv w' := by
  obtain rfl := Option.some.inj hStep
  refine volumeInv_choose h.volMax rfl (Nat.min_le_right _ _) (persisted_append _ _) ?_
  rcases hCareful with hFollows | hVol
  · exact settles_of_following hFollows
  · show (if w.connected ∧ w.pending = none then (w.airkanVolume up).percent else w.vol) = _
    rw [hVol, ite_self]

theorem VolumeInv.connect (h : VolumeInv w) {connected : Bool}
    (hStep : w.step (.connect connected) = some w') (hCareful : Careful w (.connect connected)) :
    VolumeInv w' := by
  obtain rfl := Option.some.inj hStep
  obtain ⟨hInStep, hMute⟩ := hCareful
  have hVol := hInStep.settles
  cases connected with
  | false =>
    have hSettles : (w.onMiplayConnected false).settles = w.settles := by
      rw [hVol]
      exact if_neg fun hAnd => by simpa [VolumeWorld.onMiplayConnected] using hAnd.1
    exact
      ⟨h.volMax, h.percentMax, hSettles ▸ h.muted, hSettles ▸ h.player, h.service, h.stored,
        h.pending, h.shown, h.ticked⟩
  | true =>
    have hPushed : min (if w.mute then 0 else w.vol) 100 = w.vol := by
      have hMax := h.volMax
      split_ifs with hMuted
      · have hZero := hMute rfl hMuted
        omega
      · omega
    have hSettles : (w.onMiplayConnected true).settles = w.settles := by
      rw [hVol, ← hPushed]
      rfl
    have hPersisted : (w.onMiplayConnected true).persisted = w.vol := by
      rw [← hPushed]
      exact persisted_append _ _
    have hChosen (v : Nat) (hv : v ∈ w.chosen) : w.vol = v := hVol.symm.trans (h.player v hv)
    exact
    { volMax := h.volMax
      percentMax := Nat.min_le_right _ _
      muted := hSettles ▸ h.muted
      player := hSettles ▸ h.player
      service := fun v hv => hPushed.trans (hChosen v hv)
      stored := fun v hv => hPersisted.trans (hChosen v hv)
      pending := by rintro ⟨⟩
      shown := h.shown
      ticked := h.ticked }

theorem followPhone_eq (hMax : w.percent ≤ 100) :
    ∃ mute, w.followPhone = { w with vol := w.percent, mute := mute } := by
  rw [VolumeWorld.followPhone, Nat.min_eq_left hMax]
  by_cases hVol : w.vol = w.percent
  · refine ⟨w.mute, (if_neg (not_not.2 hVol)).trans ?_⟩
    cases w
    cases hVol
    rfl
  · exact ⟨_, if_pos hVol⟩

theorem applyVolume_eq (w : VolumeWorld) :
    ∃ alc lastApplied, w.applyVolume = { w with alc := alc, lastApplied := lastApplied } := by
  by_cases hVol : w.vol = w.lastApplied
  · exact ⟨w.alc, w.lastApplied, if_neg (not_not.2 hVol)⟩
  · exact ⟨_, _, if_pos hVol⟩

/-- What is pending is taken, or the phone is followed. -/
def VolumeWorld.taken (w : VolumeWorld) (mute : Bool) : VolumeWorld :=
  { w with
    vol := w.settles
    mute := mute
    sending := if w.connected then w.pending else w.sending
    pending := if w.connected then none else w.pending }

theorem taken_eq (hMax : w.percent ≤ 100) :
    ∃ mute, (if w.connected then
        let w' := { w with sending := w.pending, pending := none }
        if w.pending = none then w'.followPhone else w'
      else w) = w.taken mute := by
  by_cases hConn : w.connected
  · by_cases hPending : w.pending = none
    · obtain ⟨mute, hEq⟩ :=
        followPhone_eq (w := { w with sending := w.pending, pending := none }) hMax
      refine ⟨mute, ?_⟩
      rw [if_pos hConn, if_pos hPending, hEq, VolumeWorld.taken, if_pos hConn, if_pos hConn,
        settles_of_following ⟨hConn, hPending⟩]
    · refine ⟨w.mute, ?_⟩
      rw [if_pos hConn, if_neg hPending, VolumeWorld.taken, if_pos hConn, if_pos hConn,
        settles_of_not_following fun hAnd => hPending hAnd.2]
  · refine ⟨w.mute, ?_⟩
    rw [if_neg hConn, VolumeWorld.taken, if_neg hConn, if_neg hConn,
      settles_of_not_following fun hAnd => hConn hAnd.1]

theorem VolumeInv.settles_le (h : VolumeInv w) : w.settles ≤ 100 := by
  rw [VolumeWorld.settles]
  split_ifs
  exacts [h.percentMax, h.volMax]

/-- With a phone connected the two volumes are one at the next tick. -/
theorem VolumeInv.settles_of_connected (h : VolumeInv w) (hConn : w.connected) :
    w.settles = w.percent := by
  by_cases hPending : w.pending = none
  · exact settles_of_following ⟨hConn, hPending⟩
  · obtain ⟨v, hv⟩ := Option.isSome_iff_exists.1 (h.pending (Option.isSome_iff_ne_none.2 hPending))
    exact (h.player v hv).trans (h.service v hv).symm

theorem VolumeInv.tick (h : VolumeInv w) (hStep : w.step .tick = some w')
    (hCareful : Careful w .tick) : VolumeInv w' := by
  obtain ⟨-, hEq⟩ := Option.ite_none_right_eq_some.1 hStep
  obtain rfl := Option.some.inj hEq
  obtain ⟨mute, hTaken⟩ := taken_eq h.percentMax
  obtain ⟨alc, lastApplied, hApplied⟩ := applyVolume_eq (w.taken mute)
  have hMin : min (w.taken mute).vol 100 = w.settles := Nat.min_eq_left h.settles_le
  have hTick : w.uiTick =
      { w.taken mute with
        alc := alc
        lastApplied := lastApplied
        uiVolume := w.settles
        saveTimer := w.saveTimer || decide (w.settles ≠ w.uiVolume) } := by
    simp only [VolumeWorld.uiTick, hTaken, hApplied, VolumeWorld.uiSetVolume, hMin]
    rfl
  have hSettles : w.uiTick.settles = w.settles := by
    rw [hTick]
    show (if w.connected ∧ (if w.connected then none else w.pending) = none then w.percent
      else w.settles) = w.settles
    by_cases hConn : w.connected
    · rw [if_pos ⟨hConn, if_pos hConn⟩]
      exact (h.settles_of_connected hConn).symm
    · exact if_neg fun hAnd => hConn hAnd.1
  rw [hTick] at hSettles ⊢
  exact
  { volMax := h.settles_le
    percentMax := h.percentMax
    muted := hSettles ▸ h.muted
    player := hSettles ▸ h.player
    service := h.service
    stored := h.stored
    pending := fun hSome => by
      by_cases hConn : w.connected
      · simp [VolumeWorld.taken, hConn] at hSome
      · exact h.pending (by simpa [VolumeWorld.taken, hConn] using hSome)
    shown := fun _ => ⟨rfl, fun hTimer => by
      obtain ⟨hOff, hSame⟩ := Bool.or_eq_false_iff.1 hTimer
      have hUi : w.settles = w.uiVolume := by simpa using hSame
      rcases hCareful with hOn | hStored | hNew
      · simp [hOff] at hOn
      · exact hStored.trans hUi.symm
      · exact absurd hUi hNew⟩
    ticked := fun _ => h.player }

theorem VolumeInv.send (h : VolumeInv w) {canSend : Bool} (hStep : w.step (.send canSend) = some w')
    (hCareful : Careful w (.send canSend)) : VolumeInv w' := by
  cases hSending : w.sending with
  | none => simp [VolumeWorld.step, hSending] at hStep
  | some v =>
    simp only [VolumeWorld.step, hSending, Option.some.injEq] at hStep
    subst hStep
    cases canSend with
    | false =>
      exact
        ⟨h.volMax, h.percentMax, h.muted, h.player, h.service, h.stored, h.pending, h.shown,
          h.ticked⟩
    | true =>
      obtain rfl : v = w.percent := Option.some.inj (hSending.symm.trans (hCareful rfl))
      have hMin : min w.percent 100 = w.percent := Nat.min_eq_left h.percentMax
      have hPersisted : (w.miplaySetVolume w.percent).persisted = w.percent :=
        (persisted_append _ _).trans hMin
      have hSettles : (w.miplaySetVolume w.percent).settles = w.settles := by
        show (if w.connected ∧ w.pending = none then min w.percent 100 else w.vol) = w.settles
        rw [hMin]
        rfl
      exact
      { volMax := h.volMax
        percentMax := Nat.min_le_right _ _
        muted := hSettles ▸ h.muted
        player := hSettles ▸ h.player
        service := fun v hv => hMin.trans (h.service v hv)
        stored := fun v hv => hPersisted.trans (h.service v hv)
        pending := h.pending
        shown := h.shown
        ticked := h.ticked }

theorem VolumeInv.save (h : VolumeInv w) {n : Nat} (hStep : w.step (.save n) = some w')
    (hCareful : Careful w (.save n)) : VolumeInv w' := by
  obtain rfl : n = 0 := hCareful
  cases hSaves : w.saves with
  | nil => simp [VolumeWorld.step, hSaves] at hStep
  | cons v vs =>
    have hPersisted : w.persisted = vs.getLastD v := by
      rw [VolumeWorld.persisted, hSaves, List.getLastD_cons]
    simp only [VolumeWorld.step, hSaves, List.getElem?_cons_zero, Option.some.injEq] at hStep
    subst hStep
    exact
      ⟨h.volMax, h.percentMax, h.muted, h.player, h.service,
        fun u hu => hPersisted.symm.trans (h.stored u hu), h.pending, h.shown, h.ticked⟩

theorem VolumeInv.saveDisplay (h : VolumeInv w) (hStep : w.step .saveDisplay = some w') :
    VolumeInv w' := by
  obtain ⟨-, hEq⟩ := Option.ite_none_right_eq_some.1 hStep
  obtain rfl := Option.some.inj hEq
  exact
    ⟨h.volMax, h.percentMax, h.muted, h.player, h.service, h.stored, h.pending,
      fun hTicked => ⟨(h.shown hTicked).1, fun _ => (h.shown hTicked).1⟩, h.ticked⟩

theorem VolumeInv.step (h : VolumeInv w) {a : VolumeAction} (hStep : w.step a = some w')
    (hCareful : Careful w a) : VolumeInv w' := by
  cases a with
  | setVolume v => exact VolumeInv.setVolume hStep
  | setMute on => exact h.setMute hStep
  | phone v => exact h.phone hStep hCareful
  | remote up => exact h.remote hStep hCareful
  | connect connected => exact h.connect hStep hCareful
  | tick => exact h.tick hStep hCareful
  | send canSend => exact h.send hStep hCareful
  | save n => exact h.save hStep hCareful
  | saveDisplay => exact h.saveDisplay hStep

/-- **No volume is lost** while the steps are careful. -/
theorem volume_along (s : VolumeStart) (as : List VolumeAction)
    (h : Along VolumeWorld.step (fun w a _ => Careful w a) s.world as) :
    s.world.Law ∧ Along VolumeWorld.step (fun _ _ w' => w'.Law) s.world as :=
  ⟨(volumeInv_start s).law,
    Along.of_invariant
      (fun _ _ _ hInv hStep hCareful =>
        ⟨hInv.step hStep hCareful, (hInv.step hStep hCareful).law⟩)
      (volumeInv_start s) h⟩

/-- A boot at 35 percent. -/
def quietBoot : VolumeStart where
  display := 35
  service := 35
  chosen := some 35
  hDisplay := by decide
  hService := by decide
  hChosen := by
    rintro v ⟨⟩
    exact ⟨rfl, rfl⟩

instance : ∀ (w : VolumeWorld) (a : VolumeAction), Decidable (Careful w a)
  | _, .setVolume _ => .isTrue trivial
  | _, .setMute _ => .isTrue trivial
  | _, .saveDisplay => .isTrue trivial
  | _, .phone _ => inferInstanceAs (Decidable (_ → _))
  | w, .remote up =>
    inferInstanceAs (Decidable ((w.connected ∧ w.pending = none) ∨ w.vol = (w.airkanVolume up).percent))
  | w, .connect c =>
    inferInstanceAs
      (Decidable ((w.connected → w.pending = none → w.vol = w.percent) ∧ (c → w.mute → w.vol = 0)))
  | _, .tick => inferInstanceAs (Decidable (_ ∨ _ ∨ _))
  | _, .send _ => inferInstanceAs (Decidable (_ → _))
  | _, .save _ => inferInstanceAs (Decidable (_ = _))

/-- A phone takes the volume over, mutes do nothing to it, and everything gets stored. -/
theorem volume_along_of_phone :
    Along VolumeWorld.step (fun _ _ w' => w'.Law) quietBoot.world
      [.tick, .saveDisplay, .connect true, .tick, .setMute true, .setMute false, .phone 60, .tick,
        .setVolume 20, .tick, .send true, .save 0, .save 0, .save 0, .save 0, .saveDisplay,
        .connect false] :=
  (volume_along quietBoot _ (by decide +kernel)).2

/-- A phone that connects to a muted speaker makes its volume 0, and stores that. -/
theorem connect_stores_mute : ¬∀ (s : VolumeStart) (as : List VolumeAction),
    Along VolumeWorld.step (fun _ _ w' => w'.Law) s.world as := by
  intro hAll
  obtain ⟨w, w', hRun, hStep, hLost⟩ := exists_last_of_any
    (show (run VolumeWorld.step quietBoot.world
        [.tick, .saveDisplay, .setMute true, .connect true, .tick, .save 0, .saveDisplay]).any
      (fun w => (w.step (.setMute false)).any fun w' =>
        decide (w'.beforeMute = some 35 ∧ w'.settles = 0)) = true by decide +kernel)
  have hLaw := (hAll quietBoot _ |>.last hRun hStep).restored
  obtain ⟨hMute, hSettles⟩ := of_decide_eq_true hLost
  exact absurd (hLaw 35 hMute) (by simp [hSettles])

end EspMiplay.Dlna
