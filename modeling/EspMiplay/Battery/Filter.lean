import EspMiplay.Lib.Average

/-!
# The battery voltage

`bat_monitor_get_volts` reads the ADC sixteen times and moves `s_filt_mv` an eighth of the way
to the mean. The product with `BAT_EMA_ALPHA` is divided by 256 without carrying the remainder
to the next call, so the filter stands still within 7 mV of what it reads.

## Results

* `filtered_settles` — under a constant voltage it comes to rest within 7 mV.
* `tracks_iff`       — it gets within 1 mV only where it began there.
-/

namespace EspMiplay.Battery

open Average

-- ---------------------------------------------------------------------------
-- One reading
-- ---------------------------------------------------------------------------

def batEmaAlpha : Nat := 32

/-- The ADC, with `adc_cali_raw_to_voltage` where it is calibrated -/
structure Adc where
  calibrated : Bool
  rawToVoltage : Int → Option Int

/-- One sample in mV; `none` where reading or converting it fails. -/
def Adc.sampleMv (adc : Adc) (raw : Option Int) : Option Int :=
  raw.bind fun raw => if adc.calibrated then adc.rawToVoltage raw else some ((raw * 3300).tdiv 4095)

/-- A turn of the loop over the samples, on `sum` and `valid` -/
def Adc.addSample (adc : Adc) (acc : Int × Nat) (raw : Option Int) : Int × Nat :=
  match adc.sampleMv raw with
  | some mv => (acc.1 + mv, acc.2 + 1)
  | none => acc

/-- `s_filt_mv` behind a call of `bat_monitor_get_volts` -/
def batMonitorGetVolts (adc : Adc) (filtMv : Int) (samples : List (Option Int)) : Int :=
  let acc := samples.foldl adc.addSample (0, 0)
  if 0 < acc.2 then ema batEmaAlpha 256 filtMv (acc.1.tdiv acc.2) else filtMv

/-- The filter under one reading after the other -/
def filtered (adc : Adc) (filtMv : Int) (readings : Nat → List (Option Int)) : Nat → Int
  | 0 => filtMv
  | n + 1 => batMonitorGetVolts adc (filtered adc filtMv readings n) (readings n)

-- ---------------------------------------------------------------------------
-- Constant voltage
-- ---------------------------------------------------------------------------

/-- Samples may fail, but not all of them, and the others read `v`. -/
structure Steady (adc : Adc) (v : Int) (samples : List (Option Int)) : Prop where
  reads : ∃ raw ∈ samples, adc.sampleMv raw = some v
  only : ∀ raw ∈ samples, ∀ mv, adc.sampleMv raw = some mv → mv = v

/-- The filter moves towards `v` and never past it, and is within `tolerance` in the end. -/
def Tracks (tolerance : Nat) (s : Nat → Int) (v : Int) : Prop :=
  (∀ n, Toward (s n) (s (n + 1)) v) ∧ ∃ N, ∀ n, N ≤ n → (v - s n).natAbs ≤ tolerance

section Constant

variable {adc : Adc} {v filtMv : Int}

/-- Each sample that is taken adds `v`. -/
theorem addSample_sum {raw : Option Int} {acc : Int × Nat}
    (h : ∀ mv, adc.sampleMv raw = some mv → mv = v) (hAcc : acc.1 = v * acc.2) :
    (adc.addSample acc raw).1 = v * (adc.addSample acc raw).2 := by
  cases hRead : adc.sampleMv raw with
  | none => simpa only [Adc.addSample, hRead] using hAcc
  | some mv =>
    simp only [Adc.addSample, hRead, h mv hRead, hAcc, Int.natCast_add, Int.natCast_one,
      Int.mul_add, Int.mul_one]

theorem foldl_sum {samples : List (Option Int)} {acc : Int × Nat}
    (h : ∀ raw ∈ samples, ∀ mv, adc.sampleMv raw = some mv → mv = v) (hAcc : acc.1 = v * acc.2) :
    (samples.foldl adc.addSample acc).1 = v * (samples.foldl adc.addSample acc).2 := by
  induction samples generalizing acc with
  | nil => exact hAcc
  | cons raw samples ih =>
    obtain ⟨hNow, hRest⟩ := List.forall_mem_cons.1 h
    exact ih hRest (addSample_sum hNow hAcc)

theorem addSample_valid (adc : Adc) (acc : Int × Nat) (raw : Option Int) :
    (adc.addSample acc raw).2 = acc.2 + if (adc.sampleMv raw).isSome then 1 else 0 := by
  cases hRead : adc.sampleMv raw <;> simp [Adc.addSample, hRead]

theorem foldl_valid (adc : Adc) (samples : List (Option Int)) (acc : Int × Nat) :
    (samples.foldl adc.addSample acc).2 =
      acc.2 + samples.countP fun raw => (adc.sampleMv raw).isSome := by
  induction samples generalizing acc with
  | nil => rfl
  | cons raw samples ih =>
    rw [List.foldl_cons, ih, addSample_valid, List.countP_cons]
    omega

/-- The mean of a steady reading is its voltage. -/
theorem getVolts_steady {samples : List (Option Int)} (h : Steady adc v samples) (filtMv : Int) :
    batMonitorGetVolts adc filtMv samples = ema batEmaAlpha 256 filtMv v := by
  have hSum : (samples.foldl adc.addSample (0, 0)).1 =
      v * (samples.foldl adc.addSample (0, 0)).2 := foldl_sum h.only (by simp)
  have hValid : 0 < (samples.foldl adc.addSample (0, 0)).2 := by
    obtain ⟨raw, hMem, hRead⟩ := h.reads
    rw [foldl_valid, Nat.zero_add, List.countP_pos_iff]
    exact ⟨raw, hMem, by rw [hRead]; rfl⟩
  rw [batMonitorGetVolts, if_pos hValid, hSum, Int.mul_tdiv_cancel]
  omega

variable {readings : Nat → List (Option Int)}

theorem filtered_succ (h : ∀ n, Steady adc v (readings n)) (n : Nat) :
    filtered adc filtMv readings (n + 1) =
      ema batEmaAlpha 256 (filtered adc filtMv readings n) v :=
  getVolts_steady (h n) _

/-- **Constant voltage.** The filter comes to rest within 7 mV of it. -/
theorem filtered_settles (h : ∀ n, Steady adc v (readings n)) :
    Tracks 7 (filtered adc filtMv readings) v := by
  refine ⟨fun n => ?_, ?_⟩
  · rw [filtered_succ h]
    exact ema_toward (by decide) _ v
  · obtain ⟨N, hNear, hRests⟩ := settles (s := filtered adc filtMv readings) (by decide) (by decide)
      (filtered_succ h)
    refine ⟨N, fun n hn => ?_⟩
    rw [hRests n hn]
    unfold batEmaAlpha at hNear
    omega

/-- A distance of 2 mV or more is never made up to the last 2 mV. -/
theorem filtered_apart (h : ∀ n, Steady adc v (readings n)) (hApart : 2 ≤ (v - filtMv).natAbs)
    (n : Nat) : 2 ≤ (v - filtered adc filtMv readings n).natAbs := by
  induction n with
  | zero => exact hApart
  | succ n ih =>
    rw [filtered_succ h, distance_ema (by decide), part, batEmaAlpha]
    omega

theorem filtered_rests (h : ∀ n, Steady adc v (readings n)) (hNear : (v - filtMv).natAbs ≤ 7)
    (n : Nat) : filtered adc filtMv readings n = filtMv := by
  induction n with
  | zero => rfl
  | succ n ih =>
    rw [filtered_succ h, ih]
    exact ema_eq_self (by decide) (by unfold batEmaAlpha; omega)

/-- **Tracking.** The filter gets to within 1 mV of a constant voltage only where it began
there. -/
theorem tracks_iff (h : ∀ n, Steady adc v (readings n)) :
    Tracks 1 (filtered adc filtMv readings) v ↔ (v - filtMv).natAbs ≤ 1 := by
  constructor
  · rintro ⟨-, N, hNear⟩
    by_contra hFar
    have hApart : 2 ≤ (v - filtered adc filtMv readings N).natAbs :=
      filtered_apart h (by omega) N
    have hEnd := hNear N (Nat.le_refl N)
    omega
  · intro hNear
    refine ⟨(filtered_settles h).1, 0, fun n _ => ?_⟩
    rw [filtered_rests h (by omega)]
    exact hNear

end Constant

/-- A calibrated ADC that converts one to one, and a voltage read sixteen times -/
def plainAdc : Adc := ⟨true, some⟩

def steadily (v : Int) (_ : Nat) : List (Option Int) := List.replicate 16 (some v)

theorem steadily_steady (v : Int) (n : Nat) : Steady plainAdc v (steadily v n) where
  reads := ⟨some v, by simp [steadily], rfl⟩
  only raw hMem mv hRead := by
    rw [List.eq_of_mem_replicate hMem] at hRead
    exact (Option.some.inj hRead).symm

theorem fourVolts_tracked :
    Tracks 1 (filtered plainAdc 1325 (steadily 1326)) 1326 ↔ ((1326 : Int) - 1325).natAbs ≤ 1 :=
  tracks_iff (steadily_steady 1326)

/-- A battery at 3.98 V is put on the charger, and is full: the filter does not see it. -/
theorem fourVolts_missed :
    ¬∀ (adc : Adc) (v filtMv : Int) (readings : Nat → List (Option Int)),
      0 ≤ v → 0 ≤ filtMv → (∀ n, Steady adc v (readings n)) →
        Tracks 1 (filtered adc filtMv readings) v := by
  intro hAll
  obtain ⟨-, N, hNear⟩ := hAll plainAdc 1326 1319 (steadily 1326) (by decide) (by decide)
    (steadily_steady 1326)
  have hEnd := hNear N (Nat.le_refl N)
  rw [filtered_rests (steadily_steady 1326) (by decide)] at hEnd
  exact absurd hEnd (by decide)

end EspMiplay.Battery
