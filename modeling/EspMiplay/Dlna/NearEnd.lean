import Mathlib.Logic.ExistsUnique
import EspMiplay.Dlna.PlayerSteps

/-!
# The end that the pipeline does not tell of

`ui_update_task` counts the ticks that find less than a second left of the track, and
schedules the end of the track at the fiftieth. At its pace of 40 ms no more than 25 ticks
fit into a second.

## Results

* `quietTick`        — one tick.
* `never_schedules`  — the ticks of a playback.
* `never_detects`    — every playback.
-/

namespace EspMiplay.Dlna

namespace Player

/-- `remain_ms` -/
def remainMs (p : Player) : Int := p.durCacheSec * 1000 - p.getPositionMs

/-- A track of known duration plays since some time. -/
structure Playing (p : Player) : Prop where
  state : p.state = .playing
  duration : 0 < p.durCacheSec
  started : 0 < p.playStartUs
  since : p.playStartUs ≤ p.nowUs

/-- The player 40 ms later, when the UI task wakes up. -/
def paced (p : Player) : Player := { p with nowUs := p.nowUs + 40000 }

/-- The ticks of the UI task at its pace. -/
def uiTicks (p : Player) : List Luck → Player
  | [] => p
  | luck :: lucks => (p.paced.uiTick luck).uiTicks lucks

/-- The tick schedules the end of the track. -/
def Schedules (p : Player) (luck : Luck) : Prop := (p.uiTick luck).sleepers ≠ p.sleepers

/-- What the tick number `k` of a playback finds. -/
def atTick (p : Player) (lucks : List Luck) (k : Nat) : Player :=
  (p.uiTicks (lucks.take k)).paced

/-- The end is scheduled by one tick, before it is passed and in the last second. -/
structure Detects (p : Player) (lucks : List Luck) : Prop where
  once : ∃! k, ∃ luck ∈ lucks[k]?, (p.atTick lucks k).Schedules luck
  inTime : ∀ k, ∀ luck ∈ lucks[k]?, (p.atTick lucks k).Schedules luck →
    0 < (p.atTick lucks k).remainMs ∧ (p.atTick lucks k).remainMs ≤ 1000

/-- The ticks that were counted lie in the last second. -/
structure Counted (p : Player) : Prop extends Playing p where
  count : p.nearEndCount = 0 ∨ 40 * (p.nearEndCount : Int) + p.remainMs ≤ 1039

section

variable {p : Player}

theorem Playing.paced (h : p.Playing) : p.paced.Playing :=
  ⟨h.state, h.duration, h.started, Int.le_trans h.since (Int.le_add_of_nonneg_right (by decide))⟩

theorem Playing.remainMs_paced (h : p.Playing) : p.paced.remainMs = p.remainMs - 40 := by
  have hNow : p.getPositionMs = p.accumulatedMs + (p.nowUs - p.playStartUs) / 1000 := by
    rw [getPositionMs, if_pos h.started, Int.tdiv_eq_ediv_of_nonneg (by have := h.since; omega)]
  have hNext : p.paced.getPositionMs =
      p.accumulatedMs + (p.nowUs + 40000 - p.playStartUs) / 1000 := by
    rw [getPositionMs, if_pos h.paced.started,
      Int.tdiv_eq_ediv_of_nonneg (by have := h.paced.since; omega)]
    rfl
  have hDur : p.paced.durCacheSec = p.durCacheSec := rfl
  rw [remainMs, remainMs, hNext, hNow, hDur]
  omega

theorem uiTick_of_playing {luck : Luck} (h : p.nearEnd.state = .playing) :
    p.uiTick luck = { p.nearEnd with stuckPausedSince := 0 } := by
  have hNot : ¬(p.nearEnd.state = .paused ∧ !p.nearEnd.userStopped) := by simp [h]
  rw [uiTick, stuckPaused, if_neg hNot]

/-- A tick that finds few enough ticks counted goes on counting, or begins anew. -/
theorem nearEnd_counts (h : p.Playing)
    (hFew : 0 < p.remainMs → p.remainMs < 1000 → p.nearEndCount + 1 < 50) :
    ∃ n, p.nearEnd = { p with nearEndCount := n } ∧
      (n = 0 ∨ n = p.nearEndCount + 1 ∧ p.remainMs < 1000) := by
  rw [nearEnd, if_pos ⟨h.state, h.duration⟩]
  by_cases hNear : 0 < p.remainMs ∧ p.remainMs < 1000
  · refine ⟨p.nearEndCount + 1, ?_, .inr ⟨rfl, hNear.2⟩⟩
    have hCount : ¬p.nearEndCount + 1 ≥ 50 := Nat.not_le_of_lt (hFew hNear.1 hNear.2)
    rw [remainMs] at hNear
    simp only [if_pos hNear, if_neg hCount]
  · refine ⟨0, ?_, .inl rfl⟩
    rw [remainMs] at hNear
    simp only [if_neg hNear]

/-- **One tick** of a playback schedules nothing. -/
theorem quietTick (h : p.Counted) (luck : Luck) :
    ¬p.paced.Schedules luck ∧ (p.paced.uiTick luck).Counted := by
  have hRemain := h.toPlaying.remainMs_paced
  have hCounted := h.count
  have hSame : p.paced.nearEndCount = p.nearEndCount := rfl
  obtain ⟨n, hNear, hN⟩ := nearEnd_counts h.toPlaying.paced (by omega)
  have hTick : p.paced.uiTick luck = { p.paced with nearEndCount := n, stuckPausedSince := 0 } := by
    rw [uiTick_of_playing (by rw [hNear]; exact h.state), hNear]
  refine ⟨fun hSchedules => hSchedules (by rw [hTick]), ?_⟩
  have hLeft : (p.paced.uiTick luck).remainMs = p.paced.remainMs := by
    rw [hTick]
    rfl
  refine ⟨?_, ?_⟩
  · rw [hTick]
    exact ⟨h.state, h.duration, h.started, h.toPlaying.paced.since⟩
  · rw [hLeft, hTick]
    simp only
    omega

/-- The count never comes near 50. -/
theorem Counted.uiTicks (h : p.Counted) (lucks : List Luck) : (p.uiTicks lucks).Counted := by
  induction lucks generalizing p with
  | nil => exact h
  | cons luck lucks ih => exact ih (quietTick h luck).2

theorem never_schedules (h : p.Counted) (lucks : List Luck) (k : Nat) (luck : Luck) :
    ¬(p.atTick lucks k).Schedules luck :=
  (quietTick (h.uiTicks (lucks.take k)) luck).1

end

/-- **Every playback.** Where no tick has been counted yet, none of those that follow at the
pace of the UI task finds the end of the track, whether they pass it or not. -/
theorem never_detects (p : Player) (hPlaying : p.Playing) (hCount : p.nearEndCount = 0)
    (lucks : List Luck) : ¬p.Detects lucks := by
  rintro ⟨⟨k, ⟨luck, -, hSchedules⟩, -⟩, -⟩
  exact never_schedules ⟨hPlaying, .inl hCount⟩ lucks k luck hSchedules

/-- A track of one second, from its beginning on. -/
def oneSecond : Player :=
  { Player.boot 1 with state := .playing, durCacheSec := 1, playStartUs := 1, pipe := .running }

theorem oneSecond_missed :
    (oneSecond.uiTicks (List.replicate 30 ⟨true, false⟩)).remainMs < 0 ∧
      ¬oneSecond.Detects (List.replicate 30 ⟨true, false⟩) :=
  ⟨by decide +kernel, never_detects oneSecond ⟨rfl, by decide, by decide, by decide⟩ rfl _⟩

/-- It passes its end, and nothing is scheduled. -/
theorem oneSecond_not_detected :
    ¬∀ (p : Player), p.Playing → p.nearEndCount = 0 → ∀ lucks : List Luck,
      (p.uiTicks lucks).remainMs < 0 → p.Detects lucks := by
  intro hAll
  have hPlaying : oneSecond.Playing := ⟨rfl, by decide, by decide, by decide⟩
  obtain ⟨k, ⟨luck, -, hSchedules⟩, -⟩ := (hAll oneSecond hPlaying rfl
    (List.replicate 30 ⟨true, false⟩) (by decide +kernel)).once
  exact never_schedules ⟨hPlaying, .inl rfl⟩ _ k luck hSchedules

end Player

end EspMiplay.Dlna
