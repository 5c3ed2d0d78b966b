import EspMiplay.Lib.Mealy

/-!
# Whether the battery is charging

`bat_monitor_is_charging` answers from the trend of the voltage, and each call takes part in
the trend: a voltage that is seen twice counts as flat the second time, and flat means not
charging. The status bar, the percentage and the charge monitor ask one after the other.

## Results

* `repeatable_of_steady` — where asking twice is asking once.
* `repeatable_iff`       — and only there.
* `rise_forgotten`       — a second question right after a rise is answered "no".
-/

namespace EspMiplay.Battery

open Mealy

-- ---------------------------------------------------------------------------
-- The detector
-- ---------------------------------------------------------------------------

def batVoltFull : Int := 4000
def batVoltCharging : Int := 3850

/-- The static variables of `bat_monitor_is_charging` -/
structure Detector where
  state : Bool
  peakMv : Int
  dropCount : Nat
  deriving DecidableEq

def Detector.initial : Detector := ⟨false, 0, 0⟩

/-- Between the two thresholds: up, down or flat -/
def Detector.trend (d : Detector) (mv : Int) : Detector :=
  if d.peakMv < mv then ⟨true, mv, 0⟩
  else if mv < d.peakMv then
    if 4 ≤ d.peakMv - mv ∧ 2 ≤ d.dropCount + 1 then ⟨false, mv, 0⟩
    else { d with dropCount := d.dropCount + 1 }
  else { d with state := false, dropCount := 0 }

/-- `bat_monitor_is_charging` where `bat_monitor_get_volts` returns `mv` -/
def isCharging (d : Detector) (mv : Int) : Detector × Bool :=
  if mv ≤ 0 then (d, d.state)
  else if mv < batVoltCharging then (if d.state then ⟨false, 0, 0⟩ else d, false)
  else if batVoltFull ≤ mv then (if d.state then ⟨false, mv, 0⟩ else d, false)
  else (d.trend mv, (d.trend mv).state)

-- ---------------------------------------------------------------------------
-- Asking twice
-- ---------------------------------------------------------------------------

/-- Outside the thresholds, or no rise, and no first drop of 4 mV -/
def Detector.Steady (d : Detector) (mv : Int) : Prop :=
  mv < batVoltCharging ∨ batVoltFull ≤ mv ∨
    mv ≤ d.peakMv ∧ (d.peakMv - mv < 4 ∨ 1 ≤ d.dropCount)

/-- Behind the first drop the number of drops makes no difference. -/
def SameTrend (d e : Detector) : Prop :=
  d.state = e.state ∧ d.peakMv = e.peakMv ∧
    (d.dropCount = e.dropCount ∨ 1 ≤ d.dropCount ∧ 1 ≤ e.dropCount)

theorem SameTrend.trend {d e : Detector} (h : SameTrend d e) (mv : Int) :
    SameTrend (d.trend mv) (e.trend mv) := by
  obtain ⟨state, peakMv, m⟩ := d
  obtain ⟨_, _, n⟩ := e
  obtain ⟨rfl, rfl, hCount⟩ := h
  simp only [Detector.trend]
  split
  · exact ⟨rfl, rfl, .inl rfl⟩
  split
  · simp only [SameTrend] at hCount ⊢
    grind
  · exact ⟨rfl, rfl, .inl rfl⟩

theorem SameTrend.isCharging {d e : Detector} (h : SameTrend d e) (mv : Int) :
    SameTrend (isCharging d mv).1 (isCharging e mv).1 ∧
      (Battery.isCharging d mv).2 = (Battery.isCharging e mv).2 := by
  have hTrend := h.trend mv
  simp only [Battery.isCharging, h.1]
  split
  · exact ⟨h, rfl⟩
  split
  · split
    · exact ⟨⟨rfl, rfl, .inl rfl⟩, rfl⟩
    · exact ⟨h, rfl⟩
  split
  · split
    · exact ⟨⟨rfl, rfl, .inl rfl⟩, rfl⟩
    · exact ⟨h, rfl⟩
  · exact ⟨hTrend, hTrend.1⟩

theorem alike_of_sameTrend {d e : Detector} (h : SameTrend d e) : Alike isCharging d e :=
  alike_of_bisimulation (fun _ _ mv hRel => (hRel.isCharging mv).2)
    (fun _ _ mv hRel => (hRel.isCharging mv).1) h

section Between

variable {d : Detector} {mv : Int}

theorem isCharging_between (hLow : batVoltCharging ≤ mv) (hHigh : mv < batVoltFull)
    (d : Detector) : isCharging d mv = (d.trend mv, (d.trend mv).state) := by
  have hPos : ¬mv ≤ 0 := by
    unfold batVoltCharging at hLow
    omega
  rw [isCharging, if_neg hPos, if_neg (by omega), if_neg (by omega)]

theorem trend_rise (h : d.peakMv < mv) : d.trend mv = ⟨true, mv, 0⟩ := if_pos h

theorem trend_flat (h : d.peakMv = mv) :
    d.trend mv = { d with state := false, dropCount := 0 } := by
  rw [Detector.trend, if_neg (by omega), if_neg (by omega)]

/-- A second drop, or one that is not large, is counted. -/
theorem trend_fall (h : mv < d.peakMv) (hCalm : d.peakMv - mv < 4 ∨ d.dropCount = 0) :
    d.trend mv = { d with dropCount := d.dropCount + 1 } := by
  rw [Detector.trend, if_neg (by omega), if_pos h, if_neg (by omega)]

theorem trend_drop (h : 4 ≤ d.peakMv - mv) (hCount : 1 ≤ d.dropCount) :
    d.trend mv = ⟨false, mv, 0⟩ := by
  rw [Detector.trend, if_neg (by omega), if_pos (by omega), if_pos (by omega)]

theorem repeatable_between (hLow : batVoltCharging ≤ mv) (hHigh : mv < batVoltFull)
    (hPeak : mv ≤ d.peakMv) (hCalm : d.peakMv - mv < 4 ∨ 1 ≤ d.dropCount) :
    Repeatable isCharging d mv := by
  have hTrend := isCharging_between hLow hHigh
  have hFixed (e : Detector) (hOnce : d.trend mv = e) (hTwice : e.trend mv = e) :
      Repeatable isCharging d mv := by
    refine repeatable_of_fixed ?_ ?_ <;> simp only [hTrend, hOnce, hTwice]
  obtain hFlat | hFall := Int.le_iff_eq_or_lt.1 hPeak
  · exact hFixed _ (trend_flat hFlat.symm) (trend_flat hFlat.symm)
  by_cases hDrop : 4 ≤ d.peakMv - mv
  · exact hFixed _ (trend_drop hDrop (by omega)) (trend_flat rfl)
  · have hCounted (e : Detector) (he : e.peakMv = d.peakMv) :
        e.trend mv = { e with dropCount := e.dropCount + 1 } :=
      trend_fall (by omega) (.inl (by omega))
    -- the second call counts once more, which nothing shows
    simp only [Repeatable, hTrend, hCounted d rfl,
      hCounted { d with dropCount := d.dropCount + 1 } rfl, true_and]
    exact alike_of_sameTrend ⟨rfl, rfl, .inr ⟨by simp, by simp⟩⟩

end Between

theorem repeatable_of_steady {d : Detector} {mv : Int} (h : d.Steady mv) :
    Repeatable isCharging d mv := by
  by_cases hNone : mv ≤ 0
  · refine repeatable_of_fixed ?_ ?_ <;> simp [isCharging, hNone]
  by_cases hLow : mv < batVoltCharging
  · cases hState : d.state <;> refine repeatable_of_fixed ?_ ?_ <;>
      simp [isCharging, hNone, hLow, hState]
  by_cases hHigh : batVoltFull ≤ mv
  · cases hState : d.state <;> refine repeatable_of_fixed ?_ ?_ <;>
      simp [isCharging, hNone, hLow, hHigh, hState]
  obtain hBelow | hFull | ⟨hPeak, hCalm⟩ := h
  · exact absurd hBelow hLow
  · exact absurd hFull hHigh
  · exact repeatable_between (by omega) (by omega) hPeak hCalm

-- ---------------------------------------------------------------------------
-- Telling once from twice
-- ---------------------------------------------------------------------------

section Told

variable {d : Detector} {mv : Int}

/-- A rise is forgotten at once. -/
theorem not_repeatable_rise (hLow : batVoltCharging ≤ mv) (hHigh : mv < batVoltFull)
    (hRise : d.peakMv < mv) : ¬Repeatable isCharging d mv := by
  rintro ⟨hAnswer, -⟩
  have hTrend := isCharging_between hLow hHigh
  rw [hTrend d, trend_rise hRise, hTrend, trend_flat rfl] at hAnswer
  cases hAnswer

/-- Once, the drop is counted; twice, the lower voltage is the new peak. -/
theorem not_alike_drop (hLow : batVoltCharging ≤ mv) (hHigh : mv < batVoltFull) {peak : Int}
    (hDrop : 4 ≤ peak - mv) : ¬Alike isCharging ⟨false, mv, 0⟩ ⟨false, peak, 1⟩ := by
  intro hAlike
  by_cases hRoom : mv + 1 < batVoltFull
  · -- a rise by 1 mV
    have hSame := hAlike [mv + 1]
    have hOnce : (Detector.mk false mv 0).trend (mv + 1) = ⟨true, mv + 1, 0⟩ :=
      trend_rise (Int.lt_succ mv)
    have hTwice : ((Detector.mk false peak 1).trend (mv + 1)).state = false := by
      by_cases hFar : 4 ≤ peak - (mv + 1)
      · rw [trend_drop hFar (Nat.le_refl 1)]
      · have hBelow : mv + 1 < peak := by omega
        rw [trend_fall hBelow (.inl (Int.not_le.1 hFar))]
    simp only [answers, isCharging_between (Int.le_add_one hLow) hRoom, hOnce, hTwice] at hSame
    cases hSame
  · -- the largest voltage in between: down and up again
    have hSame := hAlike [mv - 1, mv]
    have hBelow : batVoltCharging ≤ mv - 1 := by
      unfold batVoltCharging batVoltFull at *
      omega
    have hFall : (Detector.mk false mv 0).trend (mv - 1) = ⟨false, mv, 1⟩ :=
      trend_fall (show mv - 1 < mv by omega) (.inr rfl)
    have hDown : (Detector.mk false peak 1).trend (mv - 1) = ⟨false, mv - 1, 0⟩ :=
      trend_drop (show 4 ≤ peak - (mv - 1) by omega) (Nat.le_refl 1)
    have hFlat : (Detector.mk false mv 1).trend mv = ⟨false, mv, 0⟩ := trend_flat rfl
    have hUp : (Detector.mk false (mv - 1) 0).trend mv = ⟨true, mv, 0⟩ :=
      trend_rise (show mv - 1 < mv by omega)
    simp only [answers, isCharging_between hBelow (by omega : mv - 1 < batVoltFull),
      isCharging_between hLow hHigh, hFall, hDown, hFlat, hUp] at hSame
    cases hSame

theorem not_repeatable_drop (hLow : batVoltCharging ≤ mv) (hHigh : mv < batVoltFull)
    (hDrop : 4 ≤ d.peakMv - mv) (hFirst : d.dropCount = 0) : ¬Repeatable isCharging d mv := by
  rintro ⟨hAnswer, hAlike⟩
  have hOnce : d.trend mv = ⟨d.state, d.peakMv, 1⟩ := by
    rw [trend_fall (by omega) (.inr hFirst), hFirst]
  have hTwice : (Detector.mk d.state d.peakMv 1).trend mv = ⟨false, mv, 0⟩ :=
    trend_drop hDrop (Nat.le_refl 1)
  simp only [isCharging_between hLow hHigh, hOnce, hTwice] at hAnswer hAlike
  rw [← hAnswer] at hAlike
  exact not_alike_drop hLow hHigh hDrop hAlike

end Told

/-- **Asking twice** is asking once exactly where the voltage neither rises nor drops by 4 mV
for the first time. -/
theorem repeatable_iff (d : Detector) (mv : Int) : Repeatable isCharging d mv ↔ d.Steady mv := by
  refine ⟨fun hTwice => ?_, repeatable_of_steady⟩
  by_contra hMoves
  simp only [Detector.Steady, not_or, not_and, Int.not_lt, Int.not_le, Nat.not_le] at hMoves
  obtain ⟨hLow, hHigh, hMoves⟩ := hMoves
  by_cases hRise : d.peakMv < mv
  · exact not_repeatable_rise hLow hHigh hRise hTwice
  · obtain ⟨hDrop, hFirst⟩ := hMoves (by omega)
    exact not_repeatable_drop hLow hHigh hDrop (by omega) hTwice

/-- The charger is put in: the first to ask is told so, and the second is not. -/
theorem rise_forgotten : ¬∀ (mvs : List Int) (mv : Int), Repeatable isCharging
    (mvs.foldl (fun d mv => (isCharging d mv).1) .initial) mv := by
  intro hAll
  have hTwice := (hAll [3860] 3900).1
  revert hTwice
  decide

end EspMiplay.Battery
