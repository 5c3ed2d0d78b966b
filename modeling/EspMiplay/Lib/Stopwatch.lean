import Mathlib.Algebra.BigOperators.Group.List.Basic
import Mathlib.Algebra.Order.Group.Int
import Mathlib.Algebra.Order.Ring.Int
import Mathlib.Data.Int.Basic

/-!
# Stopwatches

A stopwatch counts whole units of a finer clock (`unit` ticks each): it shows a
value, and while it runs the units that have passed since it was last touched.
Starting, stopping and starting again do not change what it reads; only `set` does.

It says what a position display that is kept as a base and a start time has to
read. `Laps` keeps the whole history beside it, and says how far a stopwatch that
rounds every lap down may be behind the time that has really passed.
-/

/-- The value at the last touch, and the time of it if the stopwatch is running. -/
structure Stopwatch where
  shown : Int
  since : Option Int
  deriving DecidableEq

namespace Stopwatch

variable (unit : Int) (s : Stopwatch) (now : Int)

/-- The units since the last touch. -/
def elapsed : Int :=
  match s.since with
  | none => 0
  | some t => (now - t) / unit

def read : Int := s.shown + s.elapsed unit now

/-- Stop, if it is running. -/
def stop : Stopwatch := ⟨s.read unit now, none⟩

/-- Start, or start again. -/
def start : Stopwatch := ⟨s.read unit now, some now⟩

/-- Another value; it goes on running if it was. -/
def set (value : Int) : Stopwatch := ⟨value, s.since.map fun _ => now⟩

variable {unit s now} {t value : Int}

/-- It was touched in the past. -/
def Past (s : Stopwatch) (now : Int) : Prop := ∀ t ∈ s.since, t ≤ now

@[simp] theorem elapsed_self (v : Int) : (Stopwatch.mk v (some now)).elapsed unit now = 0 := by
  simp [elapsed]

@[simp] theorem elapsed_none (v : Int) : (Stopwatch.mk v none).elapsed unit now = 0 := rfl

@[simp] theorem read_stop : (s.stop unit now).read unit t = s.read unit now := by
  simp [stop, read]

@[simp] theorem read_start : (s.start unit now).read unit now = s.read unit now := by
  simp [start, read]

@[simp] theorem read_set : (s.set now value).read unit now = value := by
  cases h : s.since <;> simp [set, read, elapsed, h]

theorem past_stop : (s.stop unit now).Past t := by simp [stop, Past]

theorem past_start : (s.start unit now).Past now := by simp [start, Past]

theorem past_set : (s.set now value).Past now := by simp [set, Past]

theorem Past.mono (h : s.Past now) (hLe : now ≤ t) : s.Past t := fun u hu => (h u hu).trans hLe

/-- It does not run backwards. -/
theorem Past.elapsed_nonneg (h : s.Past now) (hUnit : 0 < unit) : 0 ≤ s.elapsed unit now := by
  cases hSince : s.since with
  | none => simp [elapsed, hSince]
  | some t =>
    have hLe := h t hSince
    rw [elapsed, hSince]
    exact Int.ediv_nonneg (by omega) hUnit.le

theorem Past.shown_le_read (h : s.Past now) (hUnit : 0 < unit) : s.shown ≤ s.read unit now := by
  have := h.elapsed_nonneg hUnit
  rw [read]
  omega

end Stopwatch

/-- The laps that are over, in ticks, the value they are counted from, and the time the
running lap began. -/
structure Laps where
  base : Int
  laps : List Int
  since : Option Int
  deriving DecidableEq

namespace Laps

variable (unit : Int) (l : Laps) (now : Int)

def start : Laps := { l with since := some now }

def stop : Laps :=
  { l with laps := l.laps ++ (l.since.map (now - ·)).toList, since := none }

/-- Another value to count from. -/
def rebase (value : Int) : Laps := ⟨value, [], l.since.map fun _ => now⟩

/-- The ticks that have passed in all laps. -/
def spent : Int := l.laps.sum + (l.since.map (now - ·)).getD 0

/-- The stopwatch that rounds every lap down to whole units. -/
def watch : Stopwatch := ⟨l.base + (l.laps.map (· / unit)).sum, l.since⟩

variable {unit l now} {value : Int}

theorem elapsed_watch :
    (l.watch unit).elapsed unit now =
      match l.since with
      | none => 0
      | some t => (now - t) / unit := rfl

theorem watch_start (h : l.since = none) :
    (l.start now).watch unit = (l.watch unit).start unit now := by
  simp [start, watch, Stopwatch.start, Stopwatch.read, Stopwatch.elapsed, h]

theorem watch_stop : (l.stop now).watch unit = (l.watch unit).stop unit now := by
  cases h : l.since <;>
    simp [stop, watch, Stopwatch.stop, Stopwatch.read, Stopwatch.elapsed, h, add_assoc]

theorem watch_rebase : (l.rebase now value).watch unit = (l.watch unit).set now value := by
  simp [rebase, watch, Stopwatch.set]

/-- Every lap loses less than a unit. -/
theorem sum_rounded (hUnit : 0 < unit) (laps : List Int) :
    0 ≤ laps.sum - unit * (laps.map (· / unit)).sum ∧
      laps.sum - unit * (laps.map (· / unit)).sum ≤ unit * laps.length := by
  induction laps with
  | nil => simp
  | cons lap laps ih =>
    have hRest := Int.emod_add_mul_ediv lap unit
    have hNonneg := Int.emod_nonneg lap hUnit.ne'
    have hLt := Int.emod_lt_of_pos lap hUnit
    simp only [List.sum_cons, List.map_cons, List.length_cons, mul_add, Nat.cast_add,
      Nat.cast_one, mul_one]
    omega

/-- **Exactness.** What the stopwatch shows is behind the time that has passed by less
than a unit for every lap. -/
theorem spent_sub_read (hUnit : 0 < unit) :
    0 ≤ l.spent now - unit * ((l.watch unit).read unit now - l.base) ∧
      l.spent now - unit * ((l.watch unit).read unit now - l.base) <
        unit * (l.laps.length + 1) := by
  obtain ⟨hLow, hHigh⟩ := sum_rounded hUnit l.laps
  have hLap (t : Int) := Int.emod_add_mul_ediv (now - t) unit
  cases h : l.since with
  | none =>
    simp only [spent, watch, Stopwatch.read, Stopwatch.elapsed, h, Option.map_none,
      Option.getD_none, mul_add, mul_sub, mul_one, add_zero]
    omega
  | some t =>
    have hNonneg := Int.emod_nonneg (now - t) hUnit.ne'
    have hLt := Int.emod_lt_of_pos (now - t) hUnit
    have hRest := hLap t
    simp only [spent, watch, Stopwatch.read, Stopwatch.elapsed, h, Option.map_some,
      Option.getD_some, mul_add, mul_sub, mul_one]
    omega

end Laps
