import EspMiplay.Lib.Transition
import EspMiplay.Miplay.Bytes

/-!
# Saving the volume

Flash may not be written by a task whose stack is in external memory, so every change
of the volume is saved by a task of its own (`miplay_nvs_save_task`). Nothing orders
these tasks: what is stored in the end is the volume of the task that stored last.

A save is followed from the call of `miplay_save_volume` to the end of its task, one
action for each call into the system, and each of these calls may fail. The saves
since boot are kept with the newest first, so that the number of a save is the number
of calls that came after it.

## Results

* `SaveInv.step`   — what the steps keep.
* `saved_along`    — the volume of the last call is what remains along every run of
  `Orderly` steps, and all volumes are percentages along every run.
* `saved_too_late` — two changes of the volume, the saves of which change places.
-/

namespace EspMiplay.Miplay

open Transition

/-- Who sets the volume. -/
inductive VolumeRequest where
  /-- a SetVolume frame, with its payload -/
  | frame (payload : Bytes)
  /-- `miplay_set_volume` -/
  | set (percent : UInt32)
  /-- `volume` of `miplay_send_receiver_control` -/
  | control (value : Int)

/-- The volume that is asked for, if it is one. -/
def VolumeRequest.percent : VolumeRequest → Option Nat
  | .frame (b0 :: b1 :: b2 :: b3 :: _) =>
    if (getBe32 b0 b1 b2 b3).toNat ≤ 100 then some (getBe32 b0 b1 b2 b3).toNat else none
  | .frame _ => none
  | .set percent => some (min percent.toNat 100)
  -- the cast to uint32_t comes before the bound
  | .control value => some (min (if value < 0 then 0 else (value % 2 ^ 32).toNat) 100)

/-- Where a save is. -/
inductive SavePc where
  /-- before `xTaskCreate` -/
  | create
  /-- the task is before `nvs_open` -/
  | open
  | set
  | commit
  | free
  | done
  deriving DecidableEq

/-- The volume is not yet stored, and will be. -/
def SavePc.pending : SavePc → Bool
  | .create | .open | .set => true
  | .commit | .free | .done => false

/-- Where it goes from there, when the call succeeds and when it does not. -/
def SavePc.next : SavePc → Bool → SavePc
  | .create, true => .open
  -- nobody looks at the result of xTaskCreate
  | .create, false => .done
  | .open, true => .set
  | .open, false => .free
  | .set, _ => .commit
  | .commit, _ => .free
  | .free, _ | .done, _ => .done

/-- `nvs_vol_arg_t`, and who holds it. -/
structure Save where
  vol : Nat
  pc : SavePc
  deriving DecidableEq

structure VolumeStore where
  /-- `s_volume_percent` -/
  volumePercent : Nat
  /-- `vol` of the namespace `miplay` -/
  stored : Option Nat
  /-- the volumes that are set, their setters before `miplay_save_volume` -/
  setters : List Nat
  /-- the calls of `miplay_save_volume` since boot, the newest first -/
  saves : List Save

inductive SaveAction where
  | request (r : VolumeRequest)
  /-- a setter calls `miplay_save_volume`, and there is memory or not -/
  | save (n : Nat) (allocated : Bool)
  /-- a save makes its next call, which succeeds or not -/
  | advance (n : Nat) (ok : Bool)
  | reboot

/-- `miplay_load_volume` -/
def loadVolume (stored : Option Nat) : Nat := min (stored.getD 50) 100

namespace VolumeStore

variable (s : VolumeStore)

/-- The flash as it is, and the service just started. -/
def boot (stored : Option Nat) : VolumeStore where
  volumePercent := loadVolume stored
  stored := stored
  setters := []
  saves := []

def request (r : VolumeRequest) : VolumeStore :=
  match r.percent with
  | some vol => { s with volumePercent := vol, setters := vol :: s.setters }
  | none => s

/-- `miplay_save_volume` up to `xTaskCreate`; without memory it returns. -/
def save (n vol : Nat) (allocated : Bool) : VolumeStore :=
  { s with
    setters := s.setters.eraseIdx n
    saves := ⟨vol, if allocated then .create else .done⟩ :: s.saves }

/-- One call of `miplay_save_volume` or of `miplay_nvs_save_task`. -/
def advance (n : Nat) (a : Save) (ok : Bool) : VolumeStore :=
  { s with
    stored := if a.pc = .set ∧ ok = true then some a.vol else s.stored
    saves := s.saves.set n { a with pc := a.pc.next ok } }

def step : SaveAction → Option VolumeStore
  | .request r => some (s.request r)
  | .save n allocated => s.setters[n]?.map fun vol => s.save n vol allocated
  | .advance n ok => s.saves[n]?.map fun a => s.advance n a ok
  | .reboot => some (boot s.stored)

/-! ## What is wanted -/

/-- Every call has run to its end. -/
def AtRest : Prop := ∀ a ∈ s.saves, a.pc = .done

/-- All volumes are percentages. -/
structure InRange : Prop where
  volume : s.volumePercent ≤ 100
  stored : ∀ vol ∈ s.stored, vol ≤ 100

/-- The last writer wins. -/
structure LastWins : Prop where
  range : s.InRange
  last : s.AtRest → ∀ a ∈ s.saves.head?, s.stored = some a.vol

/-- A call that is not overtaken does not fail, and an older one does not store after the
newest, unless it stores the same. -/
def Orderly : SaveAction → Prop
  | .save _ allocated => allocated = true
  | .advance 0 ok => ∀ newest ∈ s.saves.head?, newest.pc.pending = true → ok = true
  | .advance (n + 1) ok =>
    ∀ a ∈ s.saves[n + 1]?, ∀ newest ∈ s.saves.head?,
      a.pc = .set → ok = true → newest.pc.pending = true ∨ newest.vol = a.vol
  | .request _ | .reboot => True

instance : ∀ a, Decidable (s.Orderly a)
  | .save _ allocated => inferInstanceAs (Decidable (allocated = true))
  | .advance 0 ok =>
    inferInstanceAs (Decidable (∀ newest ∈ s.saves.head?, newest.pc.pending = true → ok = true))
  | .advance (n + 1) ok =>
    inferInstanceAs (Decidable (∀ a ∈ s.saves[n + 1]?, ∀ newest ∈ s.saves.head?,
      a.pc = .set → ok = true → newest.pc.pending = true ∨ newest.vol = a.vol))
  | .request _ | .reboot => .isTrue trivial

/-! ## All volumes are percentages -/

end VolumeStore

theorem VolumeRequest.percent_le {r : VolumeRequest} {vol : Nat} (h : r.percent = some vol) :
    vol ≤ 100 := by
  cases r with
  | frame payload =>
    unfold VolumeRequest.percent at h
    split at h
    · obtain ⟨hLe, hEq⟩ := Option.ite_none_right_eq_some.1 h
      exact Option.some.inj hEq ▸ hLe
    · contradiction
    all_goals contradiction
  | set percent => exact Option.some.inj h ▸ min_le_right _ _
  | control value => exact Option.some.inj h ▸ min_le_right _ _

namespace VolumeStore

variable {s s' : VolumeStore}

/-- What is under way is a percentage too. -/
structure RangeInv (s : VolumeStore) : Prop where
  inRange : s.InRange
  setters : ∀ vol ∈ s.setters, vol ≤ 100
  saves : ∀ a ∈ s.saves, a.vol ≤ 100

theorem RangeInv.boot {stored : Option Nat} (h : ∀ vol ∈ stored, vol ≤ 100) :
    RangeInv (boot stored) where
  inRange := ⟨min_le_right _ _, h⟩
  setters _ hMem := absurd hMem List.not_mem_nil
  saves _ hMem := absurd hMem List.not_mem_nil

namespace RangeInv

variable (h : RangeInv s)

include h

theorem request (r : VolumeRequest) : RangeInv (s.request r) := by
  unfold VolumeStore.request
  split
  · rename_i vol hVol
    have hLe : vol ≤ 100 := VolumeRequest.percent_le hVol
    exact ⟨⟨hLe, h.inRange.stored⟩, List.forall_mem_cons.2 ⟨hLe, h.setters⟩, h.saves⟩
  · exact h

theorem save {n vol : Nat} (hSetter : vol ∈ s.setters) (allocated : Bool) :
    RangeInv (s.save n vol allocated) where
  inRange := ⟨h.inRange.volume, h.inRange.stored⟩
  setters v hMem := h.setters v (List.mem_of_mem_eraseIdx hMem)
  saves := List.forall_mem_cons.2 ⟨h.setters vol hSetter, h.saves⟩

theorem advance {n : Nat} {a : Save} (hSave : a ∈ s.saves) (ok : Bool) :
    RangeInv (s.advance n a ok) where
  inRange := by
    refine ⟨h.inRange.volume, fun vol hStored => ?_⟩
    simp only [VolumeStore.advance] at hStored
    split at hStored
    · exact Option.some.inj hStored ▸ h.saves a hSave
    · exact h.inRange.stored vol hStored
  setters := h.setters
  saves b hMem := by
    rcases List.mem_or_eq_of_mem_set hMem with hOld | rfl
    · exact h.saves b hOld
    · exact h.saves a hSave

theorem step {a : SaveAction} (hStep : s.step a = some s') : RangeInv s' := by
  cases a with
  | request r => exact Option.some.inj hStep ▸ h.request r
  | save n allocated =>
    obtain ⟨vol, hGet, rfl⟩ := Option.map_eq_some_iff.1 hStep
    exact h.save (List.mem_of_getElem? hGet) allocated
  | advance n ok =>
    obtain ⟨a, hGet, rfl⟩ := Option.map_eq_some_iff.1 hStep
    exact h.advance (List.mem_of_getElem? hGet) ok
  | reboot => exact Option.some.inj hStep ▸ RangeInv.boot h.inRange.stored

end RangeInv

/-! ## The volume of the last call -/

/-- The newest volume is stored, or is going to be. -/
def Newest (s : VolumeStore) : Prop :=
  ∀ newest ∈ s.saves.head?, newest.pc.pending = true ∨ s.stored = some newest.vol

/-- A call that succeeds leaves the volume waiting or stored. -/
theorem SavePc.pending_next {pc : SavePc} (h : pc.pending = true) :
    (pc.next true).pending = true ∨ pc = .set := by
  cases pc <;> simp_all [SavePc.pending, SavePc.next]

namespace Newest

theorem save (s : VolumeStore) (n vol : Nat) : Newest (s.save n vol true) := by
  intro newest hHead
  obtain rfl := Option.some.inj hHead
  exact .inl rfl

/-- The newest save itself. -/
theorem advance_newest (h : Newest s) {a : Save} {older : List Save} (hSaves : s.saves = a :: older)
    {ok : Bool} (hOk : a.pc.pending = true → ok = true) : Newest (s.advance 0 a ok) := by
  have hNewest : a.pc.pending = true ∨ s.stored = some a.vol := h a (by simp [hSaves])
  intro newest hHead
  rw [VolumeStore.advance, hSaves, List.set_cons_zero, List.head?_cons] at hHead
  obtain rfl := Option.some.inj hHead
  by_cases hStores : a.pc = .set ∧ ok = true
  · exact .inr (if_pos hStores)
  · have hKept : (s.advance 0 a ok).stored = s.stored := if_neg hStores
    rw [hKept]
    refine hNewest.imp_left fun hPending => ?_
    obtain rfl := hOk hPending
    exact (SavePc.pending_next hPending).resolve_right fun hSet => hStores ⟨hSet, rfl⟩

/-- An older save does not get between. -/
theorem advance_older (h : Newest s) {n : Nat} {a newest : Save} {older : List Save}
    (hSaves : s.saves = newest :: older) {ok : Bool}
    (hOk : a.pc = .set → ok = true → newest.pc.pending = true ∨ newest.vol = a.vol) :
    Newest (s.advance (n + 1) a ok) := by
  have hNewest : newest.pc.pending = true ∨ s.stored = some newest.vol := h newest (by simp [hSaves])
  intro first hHead
  rw [VolumeStore.advance, hSaves, List.set_cons_succ, List.head?_cons] at hHead
  obtain rfl := Option.some.inj hHead
  by_cases hStores : a.pc = .set ∧ ok = true
  · have hStored : (s.advance (n + 1) a ok).stored = some a.vol := if_pos hStores
    rw [hStored]
    exact (hOk hStores.1 hStores.2).imp_right fun hVol => congrArg some hVol.symm
  · have hKept : (s.advance (n + 1) a ok).stored = s.stored := if_neg hStores
    rw [hKept]
    exact hNewest

theorem step (h : Newest s) {a : SaveAction} (hStep : s.step a = some s') (hOrderly : s.Orderly a) :
    Newest s' := by
  cases a with
  | request r =>
    obtain rfl := Option.some.inj hStep
    unfold VolumeStore.request
    split <;> exact h
  | save n allocated =>
    obtain ⟨vol, -, rfl⟩ := Option.map_eq_some_iff.1 hStep
    obtain rfl : allocated = true := hOrderly
    exact save s n vol
  | advance n ok =>
    obtain ⟨a, hGet, rfl⟩ := Option.map_eq_some_iff.1 hStep
    cases hSaves : s.saves with
    | nil => simp [hSaves] at hGet
    | cons newest older =>
      have hHead : newest ∈ s.saves.head? := by simp [hSaves]
      cases n with
      | zero =>
        obtain rfl : newest = a := by simpa [hSaves] using hGet
        exact h.advance_newest hSaves (hOrderly newest hHead)
      | succ n => exact h.advance_older hSaves (hOrderly a hGet newest hHead)
  | reboot =>
    obtain rfl := Option.some.inj hStep
    rintro newest ⟨⟩

end Newest

/-! ## Every run -/

structure SaveInv (s : VolumeStore) : Prop where
  range : RangeInv s
  newest : Newest s

theorem SaveInv.step (h : SaveInv s) {a : SaveAction} (hStep : s.step a = some s')
    (hOrderly : s.Orderly a) : SaveInv s' :=
  ⟨h.range.step hStep, h.newest.step hStep hOrderly⟩

theorem SaveInv.lastWins (h : SaveInv s) : s.LastWins where
  range := h.range.inRange
  last hRest newest hHead := by
    refine (h.newest newest hHead).resolve_left ?_
    rw [hRest newest (List.mem_of_mem_head? hHead)]
    decide

/-- A speaker that has never been used. -/
theorem saveInv_boot : SaveInv (boot none) :=
  ⟨RangeInv.boot (by rintro _ ⟨⟩), by rintro _ ⟨⟩⟩

theorem inRange_along (as : List SaveAction) :
    Along step (fun _ _ s' => s'.InRange) (boot none) as :=
  have hAny : Along step (fun _ _ _ => True) (boot none) as := Along.of_forall (fun _ _ _ _ => trivial) _ _
  Along.of_invariant (fun _ _ _ hInv hStep _ => ⟨hInv.step hStep, (hInv.step hStep).inRange⟩)
    saveInv_boot.range hAny

/-- **The last volume is the one that is stored** while the saves are orderly, and every
volume is a percentage whatever they do. -/
theorem saved_along (as : List SaveAction) :
    Along step (fun _ _ s' => s'.InRange) (boot none) as ∧
      (Along step (fun s a _ => s.Orderly a) (boot none) as →
        Along step (fun _ _ s' => s'.LastWins) (boot none) as) :=
  ⟨inRange_along as,
    Along.of_invariant
      (fun _ _ _ hInv hStep hOrderly => ⟨hInv.step hStep hOrderly, (hInv.step hStep hOrderly).lastWins⟩)
      saveInv_boot⟩

/-! ## The wrong order -/

/-- The volume is set to 30 and to 40, and both saves have their task. -/
def twoSaves : List SaveAction :=
  [.request (.set 30), .save 0 true, .advance 0 true, .request (.set 40), .save 0 true,
    .advance 0 true]

/-- The calls of a task, down to its end. -/
def saveTask (n : Nat) : List SaveAction := List.replicate 4 (.advance n true)

theorem saved_along_of_order :
    Along step (fun _ _ s' => s'.LastWins) (boot none) (twoSaves ++ saveTask 1 ++ saveTask 0) :=
  (saved_along _).2 (by decide +kernel)

/-- The task that was created first stores last: what remains is 30. -/
theorem saved_too_late : ¬∀ as : List SaveAction,
    Along step (fun _ _ s' => s'.LastWins) (boot none) as := by
  intro hAll
  obtain ⟨s, s', hRun, hStep, hOld⟩ := exists_last_of_any
    (show (run step (boot none)
        (twoSaves ++ saveTask 0 ++ List.replicate 3 (.advance 1 true))).any
      (fun s => (s.step (.advance 1 true)).any fun s' =>
        decide (s'.saves = [⟨40, .done⟩, ⟨30, .done⟩] ∧ s'.stored = some 30)) = true by
      decide +kernel)
  obtain ⟨hSaves, hStored⟩ := of_decide_eq_true hOld
  have hRest : s'.AtRest := by
    intro a hMem
    rw [hSaves] at hMem
    simp only [List.mem_cons, List.not_mem_nil, or_false] at hMem
    rcases hMem with rfl | rfl <;> rfl
  have hLast : s'.stored = some 40 := ((hAll _).last hRun hStep).last hRest ⟨40, .done⟩ (by simp [hSaves])
  rw [hStored] at hLast
  contradiction

end VolumeStore

end EspMiplay.Miplay
