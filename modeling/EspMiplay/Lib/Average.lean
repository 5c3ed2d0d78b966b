import Mathlib.Algebra.Order.Group.Int

/-!
# Moving averages over the integers

`ema a b x v` moves `x` the fraction `a / b` of the way to `v`, the product first and then a
division that drops the remainder. What counts is the distance to `v`: it shrinks by
`distance * a / b` at each step, and that is nothing once the product is below `b`.

- `ema_toward`: a step is on the way to `v`, and not past it.
- `distance_ema`: what is left of the distance.
- `settles`: under a constant input the distance ends where the product is below `b`.
-/

namespace Average

/-- One step of the average, with C's division -/
def ema (a b : Nat) (x v : Int) : Int := x + ((v - x) * a).tdiv b

/-- From `x` to `y` on the way to `v`, and not past it. -/
def Toward (x y v : Int) : Prop := x ≤ y ∧ y ≤ v ∨ v ≤ y ∧ y ≤ x

/-- The part of a distance that one step takes -/
def part (a b d : Nat) : Nat := d * a / b

variable {a b : Nat} {x v : Int}

theorem part_le (hab : a ≤ b) (d : Nat) : part a b d ≤ d := by
  refine Nat.div_le_of_le_mul ?_
  rw [Nat.mul_comm b d]
  exact Nat.mul_le_mul_left d hab

theorem part_eq_zero {d : Nat} (hb : 0 < b) : part a b d = 0 ↔ d * a < b := by
  rw [part, Nat.div_eq_zero_iff]
  omega

theorem ema_of_le (h : x ≤ v) : ema a b x v = x + part a b (v - x).natAbs := by
  obtain ⟨d, rfl⟩ := Int.le.dest h
  have hDist : x + d - x = (d : Int) := by omega
  rw [ema, part, hDist, Int.natAbs_natCast, ← Int.natCast_mul, ← Int.ofNat_tdiv]

/-- Both sides of `v` are alike. -/
theorem ema_neg (a b : Nat) (x v : Int) : ema a b (-x) (-v) = -ema a b x v := by
  have hBack : (-v - -x) * (a : Int) = -((v - x) * a) := by
    rw [← Int.neg_mul]
    congr 1
    omega
  rw [ema, ema, hBack, Int.neg_tdiv, Int.neg_add]

theorem ema_of_ge (h : v ≤ x) : ema a b x v = x - part a b (v - x).natAbs := by
  have hBack := ema_neg a b x v
  rw [ema_of_le (by omega), show (-v - -x).natAbs = (v - x).natAbs by omega] at hBack
  omega

theorem ema_toward (hab : a ≤ b) (x v : Int) : Toward x (ema a b x v) v := by
  have hLess := part_le hab (v - x).natAbs
  rcases Int.le_total x v with h | h
  · rw [ema_of_le h]
    exact .inl ⟨by omega, by omega⟩
  · rw [ema_of_ge h]
    exact .inr ⟨by omega, by omega⟩

/-- What is left of the distance -/
theorem distance_ema (hab : a ≤ b) (x v : Int) :
    (v - ema a b x v).natAbs = (v - x).natAbs - part a b (v - x).natAbs := by
  have hLess := part_le hab (v - x).natAbs
  rcases Int.le_total x v with h | h
  · rw [ema_of_le h]
    omega
  · rw [ema_of_ge h]
    omega

theorem ema_eq_self (hb : 0 < b) (h : (v - x).natAbs * a < b) : ema a b x v = x := by
  have hNone := (part_eq_zero hb).2 h
  rcases Int.le_total x v with h | h
  · rw [ema_of_le h, hNone]
    omega
  · rw [ema_of_ge h, hNone]
    omega

/-- **Constant input.** After finitely many steps the value rests, with the product of its
distance below `b`. -/
theorem settles (hb : 0 < b) (hab : a ≤ b) {s : Nat → Int}
    (hStep : ∀ n, s (n + 1) = ema a b (s n) v) :
    ∃ N, (v - s N).natAbs * a < b ∧ ∀ n, N ≤ n → s n = s N := by
  obtain ⟨N, hNear⟩ : ∃ N, (v - s N).natAbs * a < b := by
    -- as long as it moves, the distance shrinks
    by_contra hFar
    have hShrinks (n : Nat) : (v - s n).natAbs + n ≤ (v - s 0).natAbs := by
      induction n with
      | zero => exact Nat.le_refl _
      | succ n ih =>
        have hMoves : part a b (v - s n).natAbs ≠ 0 := fun hNone =>
          hFar ⟨n, (part_eq_zero hb).1 hNone⟩
        have hLess := part_le hab (v - s n).natAbs
        rw [hStep, distance_ema hab]
        omega
    have hEnd := hShrinks ((v - s 0).natAbs + 1)
    omega
  refine ⟨N, hNear, fun n hn => ?_⟩
  induction n, hn using Nat.le_induction with
  | base => rfl
  | succ n _ ih => rw [hStep, ih, ema_eq_self hb hNear]

end Average
