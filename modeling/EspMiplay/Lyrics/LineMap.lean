import Mathlib.Data.Finset.Max
import EspMiplay.Lyrics.Fetch

/-!
# Lines of the text and lines of the klyric

The loop of `apply_lrc` that looks for the klyric line of each line of the text. The index it
carries goes forward as long as the next klyric line is nearer than this one; where the line
it ends at is more than 100 ms away, all lines in front of it are compared as well.

Two things keep it from the nearest line. At a time that is there twice the next line is
not nearer, so the index never gets behind the first such time. And an index that earlier
lines have brought too far stays where it is when that is still within 100 ms.

## Results

* `mapLine_right_iff`     — what a line of the text is mapped to.
* `leadsTo_iff`           — how far the earlier lines have brought the index.
* `lrcToKlyric_iff`       — every table.
* `rightLines_of_ordered` — where the times of the text do not go back and none of the
  klyric is there twice.
-/

namespace EspMiplay.Lyrics

open EspMiplay.Miplay

-- ---------------------------------------------------------------------------
-- The loops
-- ---------------------------------------------------------------------------

/-- `s_klyric_line_time[j]` -/
def timeAt (kt : List Int) (j : Nat) : Int := kt.getD j 0

/-- `abs(s_klyric_line_time[j] - lrc_time)`, on an `int`. -/
def timeDiff (kt : List Int) (t : Int) (j : Nat) : Nat := (toInt32 (timeAt kt j - t)).natAbs

/-- The search forward. -/
def forwardFrom (kt : List Int) (t : Int) : Nat → Nat → Nat
  | 0, ki => ki
  | fuel + 1, ki =>
    if ki < kt.length - 1 ∧ timeDiff kt t (ki + 1) < timeDiff kt t ki then
      forwardFrom kt t fuel (ki + 1)
    else ki

/-- The search backward, from in front of `kj`: the best index and its difference. -/
def backwardFrom (kt : List Int) (t : Int) : Nat → Nat × Nat → Nat × Nat
  | 0, best => best
  | kj + 1, best =>
    let d := timeDiff kt t kj
    backwardFrom kt t kj (if d < best.2 then (kj, d) else best)

/-- A turn: the index it leaves, and what the line is mapped to. -/
def mapLine (kt : List Int) (ki : Nat) (t : Int) : Nat × Int :=
  let ki := forwardFrom kt t kt.length ki
  let ki :=
    if 0 < ki ∧ 100 < timeDiff kt t ki then
      let best := backwardFrom kt t ki (ki, timeDiff kt t ki)
      if best.2 ≤ 100 then best.1 else ki
    else ki
  (ki, if ki < kt.length ∧ timeDiff kt t ki ≤ 100 then ki else -1)

def mapLines (kt : List Int) : Nat → List Int → List Int
  | _, [] => []
  | ki, t :: ts => (mapLine kt ki t).2 :: mapLines kt (mapLine kt ki t).1 ts

/-- The entries of `s_lrc_to_klyric` for the lines of the text. -/
def lrcToKlyric (lines : List Line) (klines : List KlyricLine) : List Int :=
  if klines = [] then lines.map fun _ => -1
  else mapLines (klines.map KlyricLine.time) 0 (lines.map Line.timeMs)

-- ---------------------------------------------------------------------------
-- What a line is to be mapped to
-- ---------------------------------------------------------------------------

/-- How far a klyric line is from a time. -/
def distance (kt : List Int) (t : Int) (j : Nat) : Nat := (timeAt kt j - t).natAbs

/-- Some klyric line is within 100 ms. -/
def Near (kt : List Int) (t : Int) : Prop := ∃ j < kt.length, distance kt t j ≤ 100

/-- A nearest klyric line, which is within 100 ms; or none, if none is. -/
def RightEntry (kt : List Int) (t entry : Int) : Prop :=
  if entry = -1 then ¬Near kt t
  else ∃ j < kt.length, entry = j ∧ distance kt t j ≤ 100 ∧
    ∀ k < kt.length, distance kt t j ≤ distance kt t k

/-- Every difference of a klyric line and a line of the text is an `int`. -/
def DifferencesFit (kt ts : List Int) : Prop :=
  ∀ a ∈ kt, ∀ t ∈ ts, -2147483648 < a - t ∧ a - t < 2147483648

-- ---------------------------------------------------------------------------
-- The condition
-- ---------------------------------------------------------------------------

/-- The first klyric line whose time is there again, or the last one. -/
def firstRepeat : List Int → Nat
  | a :: b :: rest => if a < b then firstRepeat (b :: rest) + 1 else 0
  | _ => 0

/-- Of the klyric lines up to there, one that is nearest to a time. -/
def NearestUpTo (kt : List Int) (t : Int) (j : Nat) : Prop :=
  j ≤ firstRepeat kt ∧ ∀ k ≤ firstRepeat kt, distance kt t j ≤ distance kt t k

def NearUpTo (kt : List Int) (t : Int) : Prop := ∃ j ≤ firstRepeat kt, distance kt t j ≤ 100

/-- Lines of the text that lead up to a klyric line or behind it: one of them is nearest to
such lines only, and all later ones that are near a klyric line are nearest to such a line
too. -/
def LeadsTo (kt : List Int) (ts : List Int) (j : Nat) : Prop :=
  ∃ front v behind, ts = front ++ v :: behind ∧ (∀ n, NearestUpTo kt v n → j ≤ n) ∧
    ∀ w ∈ behind, NearUpTo kt w → ∃ n, NearestUpTo kt w n ∧ j ≤ n

/-- If a klyric line is near, one up to the first repeated time is nearest; and if the last
klyric line that the earlier lines lead to is not more than 100 ms later, it is not behind
the nearest one. -/
def RightLine (kt earlier : List Int) (t : Int) : Prop :=
  Near kt t →
    (∃ j ≤ firstRepeat kt, ∀ k < kt.length, distance kt t j ≤ distance kt t k) ∧
    ∀ j ≤ firstRepeat kt, LeadsTo kt earlier j →
      (∀ k ≤ firstRepeat kt, LeadsTo kt earlier k → k ≤ j) →
      timeAt kt j ≤ t + 100 → ∃ n, NearestUpTo kt t n ∧ j ≤ n

/-- Every line of the text. -/
def RightLines (kt ts : List Int) : Prop :=
  ∀ front t behind, ts = front ++ t :: behind → RightLine kt front t

-- ---------------------------------------------------------------------------
-- Times that grow
-- ---------------------------------------------------------------------------

section Times

variable {kt : List Int} {t : Int} {j k : Nat}

theorem firstRepeat_lt (h : kt ≠ []) : firstRepeat kt < kt.length := by
  induction kt with
  | nil => exact absurd rfl h
  | cons a rest ih =>
    cases rest with
    | nil => exact Nat.one_pos
    | cons b rest =>
      rw [firstRepeat]
      split
      · exact Nat.succ_lt_succ (ih (List.cons_ne_nil _ _))
      · exact Nat.succ_pos _

theorem timeAt_step (h : j < firstRepeat kt) : timeAt kt j < timeAt kt (j + 1) := by
  induction kt generalizing j with
  | nil => exact absurd h (Nat.not_lt_zero _)
  | cons a rest ih =>
    cases rest with
    | nil => exact absurd h (Nat.not_lt_zero _)
    | cons b rest =>
      rw [firstRepeat] at h
      split at h
      · rename_i hGrows
        cases j with
        | zero => exact hGrows
        | succ j => exact ih (Nat.lt_of_succ_lt_succ h)
      · exact absurd h (Nat.not_lt_zero _)

/-- The times up to the first repeated one grow. -/
theorem timeAt_lt (hLt : j < k) (hK : k ≤ firstRepeat kt) : timeAt kt j < timeAt kt k := by
  induction k, hLt using Nat.le_induction with
  | base => exact timeAt_step hK
  | succ k hLe ih => exact (ih (Nat.le_of_succ_le hK)).trans (timeAt_step hK)

/-- Behind it the same time is there again. -/
theorem timeAt_repeat (hSorted : kt.Pairwise (· ≤ ·)) (hMore : firstRepeat kt + 1 < kt.length) :
    timeAt kt (firstRepeat kt + 1) = timeAt kt (firstRepeat kt) := by
  induction kt with
  | nil => exact absurd hMore (Nat.not_lt_zero _)
  | cons a rest ih =>
    cases rest with
    | nil => exact absurd hMore (Nat.lt_irrefl 1)
    | cons b rest =>
      obtain ⟨hFirst, hRest⟩ := List.pairwise_cons.1 hSorted
      rw [firstRepeat] at hMore ⊢
      split
      · rename_i hGrows
        rw [if_pos hGrows] at hMore
        exact ih hRest (Nat.lt_of_succ_lt_succ hMore)
      · rename_i hSame
        exact Int.le_antisymm (Int.not_lt.1 hSame) (hFirst b List.mem_cons_self)

theorem exists_nearest (kt : List Int) (t : Int) : ∃ j, NearestUpTo kt t j := by
  obtain ⟨j, hMem, hLeast⟩ := Finset.exists_min_image (Finset.range (firstRepeat kt + 1))
    (distance kt t) ⟨0, Finset.mem_range.2 (Nat.succ_pos _)⟩
  exact ⟨j, Nat.le_of_lt_succ (Finset.mem_range.1 hMem), fun k hK =>
    hLeast k (Finset.mem_range.2 (Nat.lt_succ_of_le hK))⟩

end Times

-- ---------------------------------------------------------------------------
-- The searches
-- ---------------------------------------------------------------------------

section Searches

variable {kt : List Int} {t : Int} {x : Nat}

/-- What the two searches ask of the differences. -/
theorem timeDiff_eq (hFits : ∀ a ∈ kt, -2147483648 < a - t ∧ a - t < 2147483648) {j : Nat}
    (hLt : j < kt.length) : timeDiff kt t j = distance kt t j := by
  have hAt : timeAt kt j = kt[j] := by
    rw [timeAt, List.getD_eq_getElem?_getD, List.getElem?_eq_getElem hLt, Option.getD_some]
  have hIn := hFits kt[j] (List.getElem_mem hLt)
  rw [timeDiff, distance, hAt, toInt32]
  omega

/-- A klyric line that is not nearer than the one in front of it, and those behind it. -/
theorem distance_behind (hNot : distance kt t x ≤ distance kt t (x + 1)) {q : Nat} (hLt : x < q)
    (hQ : q ≤ firstRepeat kt) : distance kt t x ≤ distance kt t q := by
  have hStep := timeAt_step (Nat.lt_of_lt_of_le hLt hQ)
  have hLe : timeAt kt (x + 1) ≤ timeAt kt q := by
    rcases Nat.eq_or_lt_of_le (Nat.succ_le_of_lt hLt) with rfl | hMore
    · exact Int.le_refl _
    · exact (timeAt_lt hMore hQ).le
  rw [distance, distance] at *
  omega

/-- One that is nearer than the one in front of it, and those in front. -/
theorem distance_front (hNearer : distance kt t (x + 1) < distance kt t x)
    (hX : x + 1 ≤ firstRepeat kt) {q : Nat} (hLe : q ≤ x) :
    distance kt t (x + 1) < distance kt t q := by
  have hStep := timeAt_step (Nat.lt_of_succ_le hX)
  have hBefore : timeAt kt q ≤ timeAt kt x := by
    rcases Nat.eq_or_lt_of_le hLe with rfl | hLess
    · exact Int.le_refl _
    · exact (timeAt_lt hLess (Nat.le_of_succ_le hX)).le
  rw [distance, distance] at *
  omega

/-- **The search forward.** Where it ends, nothing behind is nearer; and if it has moved,
everything in front is further away. -/
theorem forwardFrom_spec (hSorted : kt.Pairwise (· ≤ ·))
    (hFits : ∀ a ∈ kt, -2147483648 < a - t ∧ a - t < 2147483648) (hSome : kt ≠ [])
    (fuel x : Nat) (hX : x ≤ firstRepeat kt) (hFuel : firstRepeat kt < x + fuel) :
    let p := forwardFrom kt t fuel x
    x ≤ p ∧ p ≤ firstRepeat kt ∧ (∀ q, p < q → q ≤ firstRepeat kt →
      distance kt t p ≤ distance kt t q) ∧
      (p = x ∨ ∀ q < p, distance kt t p < distance kt t q) := by
  induction fuel generalizing x with
  | zero => omega
  | succ fuel ih =>
    have hLast := firstRepeat_lt hSome
    rw [forwardFrom]
    split
    · rename_i hMoves
      obtain ⟨hLt, hNearer⟩ := hMoves
      rw [timeDiff_eq hFits (by omega), timeDiff_eq hFits (by omega)] at hNearer
      have hStep : x + 1 ≤ firstRepeat kt := by
        by_contra hEnd
        obtain rfl : x = firstRepeat kt := by omega
        have hSame := timeAt_repeat hSorted (by omega)
        rw [distance, distance, hSame] at hNearer
        exact absurd hNearer (Nat.lt_irrefl _)
      obtain ⟨hLe, hReach, hBehind, hFront⟩ := ih (x + 1) hStep (by omega)
      refine ⟨by omega, hReach, hBehind, .inr ?_⟩
      rcases hFront with hSame | hFront
      · rw [hSame]
        exact fun q hQ => distance_front hNearer hStep (by omega)
      · exact hFront
    · rename_i hStays
      refine ⟨Nat.le_refl x, hX, fun q hQ hReach => ?_, .inl rfl⟩
      refine distance_behind ?_ hQ hReach
      have hNot := not_and.1 hStays (by omega)
      rw [timeDiff_eq hFits (by omega), timeDiff_eq hFits (by omega)] at hNot
      exact Nat.le_of_not_lt hNot

/-- **The search backward** finds the last one of the nearest lines up to where it begins. -/
theorem backwardFrom_spec (hFits : ∀ a ∈ kt, -2147483648 < a - t ∧ a - t < 2147483648)
    (hX : x < kt.length) (kj b : Nat) (hKj : kj ≤ b) (hLe : b ≤ x)
    (hLeast : ∀ q, kj ≤ q → q ≤ x → distance kt t b ≤ distance kt t q)
    (hLast : ∀ q, b < q → q ≤ x → distance kt t b < distance kt t q) :
    let best := backwardFrom kt t kj (b, distance kt t b)
    best.2 = distance kt t best.1 ∧ best.1 ≤ x ∧ (∀ q ≤ x, best.2 ≤ distance kt t q) ∧
      ∀ q, best.1 < q → q ≤ x → best.2 < distance kt t q := by
  induction kj generalizing b with
  | zero => exact ⟨rfl, hLe, fun q => hLeast q (Nat.zero_le q), hLast⟩
  | succ kj ih =>
    rw [backwardFrom, timeDiff_eq hFits (by omega)]
    dsimp only
    split
    · rename_i hNearer
      refine ih kj (Nat.le_refl kj) (by omega) (fun q hLo hHi => ?_) fun q hLo hHi => ?_
      · rcases Nat.eq_or_lt_of_le hLo with rfl | hMore
        · exact Nat.le_refl _
        · exact hNearer.le.trans (hLeast q hMore hHi)
      · exact hNearer.trans_le (hLeast q hLo hHi)
    · rename_i hNot
      refine ih b (by omega) hLe (fun q hLo hHi => ?_) hLast
      rcases Nat.eq_or_lt_of_le hLo with rfl | hMore
      · exact Nat.le_of_not_lt hNot
      · exact hLeast q hMore hHi

end Searches

-- ---------------------------------------------------------------------------
-- A turn
-- ---------------------------------------------------------------------------

/-- Where a turn leaves the index, if it begins at `x`. -/
inductive Turn (kt : List Int) (t : Int) (x : Nat) : Nat → Prop where
  /-- at the first nearest line, which is not in front -/
  | forward {p : Nat} (hNearest : NearestUpTo kt t p) (hFirst : ∀ n, NearestUpTo kt t n → p ≤ n)
      (hLe : x ≤ p) : Turn kt t x p
  /-- at the line itself, if it is nearest -/
  | stays (hNearest : NearestUpTo kt t x) : Turn kt t x x
  /-- at the last nearest line, in front -/
  | backward {p : Nat} (hNearest : NearestUpTo kt t p) (hNear : distance kt t p ≤ 100)
      (hLast : ∀ n, NearestUpTo kt t n → n ≤ p) (hLt : p < x) (hFar : 100 < distance kt t x) :
      Turn kt t x p
  /-- at the line itself, behind all the nearest ones -/
  | stuck (hBehind : ∀ n, NearestUpTo kt t n → n < x)
      (hNone : ¬(100 < distance kt t x ∧ NearUpTo kt t)) : Turn kt t x x

section Turns

variable {kt : List Int} {t : Int} {x : Nat}

theorem mapLine_turn (hSorted : kt.Pairwise (· ≤ ·))
    (hFits : ∀ a ∈ kt, -2147483648 < a - t ∧ a - t < 2147483648) (hSome : kt ≠ [])
    (hX : x ≤ firstRepeat kt) : Turn kt t x (mapLine kt x t).1 := by
  have hLast := firstRepeat_lt hSome
  obtain ⟨hLe, hReach, hBehind, hFront⟩ := forwardFrom_spec hSorted hFits hSome kt.length x hX
    (by omega)
  rw [mapLine]
  dsimp only
  generalize forwardFrom kt t kt.length x = p at *
  have hLt : p < kt.length := by omega
  rw [timeDiff_eq hFits hLt]
  obtain ⟨hBest, hBestLe, hLeast, hLastOne⟩ := backwardFrom_spec hFits hLt p p (Nat.le_refl p)
    (Nat.le_refl p) (fun q hLo hHi => by rw [Nat.le_antisymm hHi hLo])
    fun q hLo hHi => absurd hHi (Nat.not_le_of_lt hLo)
  generalize backwardFrom kt t p (p, distance kt t p) = best at *
  by_cases hNearest : NearestUpTo kt t p
  · have hSame : (if 0 < p ∧ 100 < distance kt t p then if best.2 ≤ 100 then best.1 else p
        else p) = p := by
      split
      · rename_i hFar
        split
        · rename_i hNear
          have hNot := hNearest.2 best.1 (by omega)
          omega
        · rfl
      · rfl
    rw [hSame]
    rcases hFront with rfl | hFront
    · exact .stays hNearest
    · refine .forward hNearest (fun n hN => ?_) hLe
      by_contra hLess
      have hFurther := hFront n (by omega)
      have hNot := hN.2 p hReach
      omega
  · obtain rfl : p = x := by
      rcases hFront with hSame | hFront
      · exact hSame
      · refine absurd ⟨hReach, fun k hK => ?_⟩ hNearest
        rcases Nat.lt_trichotomy k p with hLess | rfl | hMore
        · exact (hFront k hLess).le
        · exact Nat.le_refl _
        · exact hBehind k hMore hK
    have hBefore (n : Nat) (hN : NearestUpTo kt t n) : n < p := by
      by_contra hNot
      rcases Nat.eq_or_lt_of_le (Nat.le_of_not_lt hNot) with rfl | hMore
      · exact hNearest hN
      · have hP := hBehind n hMore hN.1
        exact hNearest ⟨hReach, fun k hK => hP.trans (hN.2 k hK)⟩
    have hBestNearest : NearestUpTo kt t best.1 := by
      refine ⟨hBestLe.trans hReach, fun k hK => ?_⟩
      rw [← hBest]
      rcases Nat.le_total k p with hLess | hMore
      · exact hLeast k hLess
      · exact (hLeast p (Nat.le_refl p)).trans (by
          rcases Nat.eq_or_lt_of_le hMore with rfl | hMore
          · exact Nat.le_refl _
          · exact hBehind k hMore hK)
    have hBestLt := hBefore best.1 hBestNearest
    split
    · rename_i hFar
      split
      · rename_i hNear
        refine .backward hBestNearest (by omega) (fun n hN => ?_) hBestLt hFar.2
        by_contra hLess
        have hNot := hLastOne n (by omega) (hBefore n hN).le
        have hEqual := hN.2 best.1 hBestNearest.1
        omega
      · rename_i hNone
        refine .stuck hBefore fun h => ?_
        obtain ⟨-, j, hJ, hNear⟩ := h
        have hLe := hBestNearest.2 j hJ
        omega
    · rename_i hStays
      exact .stuck hBefore fun h => hStays ⟨by omega, h.1⟩

theorem Turn.le_firstRepeat {x' : Nat} (hTurn : Turn kt t x x') (hX : x ≤ firstRepeat kt) :
    x' ≤ firstRepeat kt := by
  cases hTurn with
  | forward hNearest => exact hNearest.1
  | stays hNearest => exact hNearest.1
  | backward hNearest => exact hNearest.1
  | stuck => exact hX

/-- What a line is mapped to, by the distance of the klyric line. -/
theorem rightEntry_iff (hFits : ∀ a ∈ kt, -2147483648 < a - t ∧ a - t < 2147483648)
    (hSome : kt ≠ []) {ki : Nat} (hX : (mapLine kt ki t).1 ≤ firstRepeat kt) :
    RightEntry kt t (mapLine kt ki t).2 ↔
      if distance kt t (mapLine kt ki t).1 ≤ 100 then
        ∀ k < kt.length, distance kt t (mapLine kt ki t).1 ≤ distance kt t k
      else ¬Near kt t := by
  have hLast := firstRepeat_lt hSome
  have hEntry : (mapLine kt ki t).2 = if (mapLine kt ki t).1 < kt.length ∧
      timeDiff kt t (mapLine kt ki t).1 ≤ 100 then ((mapLine kt ki t).1 : Int) else -1 := rfl
  rw [hEntry]
  generalize (mapLine kt ki t).1 = x at *
  rw [timeDiff_eq hFits (by omega), RightEntry]
  by_cases hNear : distance kt t x ≤ 100
  · have hMapped : (if x < kt.length ∧ distance kt t x ≤ 100 then (x : Int) else -1) = x :=
      if_pos ⟨by omega, hNear⟩
    rw [hMapped, if_neg (by omega), if_pos hNear]
    constructor
    · rintro ⟨j, -, hJ, -, hLeast⟩
      obtain rfl := Int.ofNat_inj.1 hJ
      exact hLeast
    · exact fun hLeast => ⟨x, by omega, rfl, hNear, hLeast⟩
  · have hNone : (if x < kt.length ∧ distance kt t x ≤ 100 then (x : Int) else -1) = -1 :=
      if_neg (fun h => hNear h.2)
    rw [hNone, if_pos rfl, if_neg hNear]

end Turns

-- ---------------------------------------------------------------------------
-- What the earlier lines lead to
-- ---------------------------------------------------------------------------

section Leads

variable {kt earlier : List Int} {t : Int} {x : Nat}

theorem not_leadsTo_nil (kt : List Int) (j : Nat) : ¬LeadsTo kt [] j := by
  rintro ⟨front, v, behind, hSplit, -⟩
  exact List.append_ne_nil_of_right_ne_nil front (List.cons_ne_nil v behind) hSplit.symm

/-- **One line more.** -/
theorem leadsTo_iff (kt earlier : List Int) (t : Int) (j : Nat) :
    LeadsTo kt (earlier ++ [t]) j ↔ (∀ n, NearestUpTo kt t n → j ≤ n) ∨
      LeadsTo kt earlier j ∧ (NearUpTo kt t → ∃ n, NearestUpTo kt t n ∧ j ≤ n) := by
  constructor
  · rintro ⟨front, v, behind, hSplit, hFirst, hLater⟩
    rcases List.eq_nil_or_concat behind with rfl | ⟨behind, w, rfl⟩
    · obtain ⟨-, hLast⟩ := List.append_inj' hSplit rfl
      obtain rfl := List.head_eq_of_cons_eq hLast
      exact .inl hFirst
    · rw [List.concat_eq_append, ← List.cons_append, ← List.append_assoc] at hSplit
      obtain ⟨rfl, hLast⟩ := List.append_inj' hSplit rfl
      obtain rfl := List.head_eq_of_cons_eq hLast
      exact .inr ⟨⟨front, v, behind, rfl, hFirst, fun w hMem => hLater w (by simp [hMem])⟩,
        hLater t (by simp)⟩
  · rintro (hFirst | ⟨⟨front, v, behind, rfl, hFirst, hLater⟩, hLast⟩)
    · exact ⟨earlier, t, [], rfl, hFirst, fun w hMem => absurd hMem List.not_mem_nil⟩
    · refine ⟨front, v, behind ++ [t], by simp, hFirst, fun w hMem => ?_⟩
      rcases List.mem_append.1 hMem with hMem | hMem
      · exact hLater w hMem
      · rw [List.mem_singleton.1 hMem]
        exact hLast

/-- The index is at the last klyric line that the earlier lines lead to. -/
structure IndexAt (kt earlier : List Int) (x : Nat) : Prop where
  le : x ≤ firstRepeat kt
  leads_iff : ∀ j, 0 < j → j ≤ firstRepeat kt → (LeadsTo kt earlier j ↔ j ≤ x)

theorem indexAt_nil (kt : List Int) : IndexAt kt [] 0 :=
  ⟨Nat.zero_le _, fun j hPos _ => iff_of_false (not_leadsTo_nil kt j) (Nat.not_le_of_lt hPos)⟩

/-- A turn that is not stuck within 100 ms keeps it so. -/
theorem IndexAt.turn {x' : Nat} (h : IndexAt kt earlier x) (hTurn : Turn kt t x x')
    (hRight : (∀ n, NearestUpTo kt t n → n < x') → 100 < distance kt t x') :
    IndexAt kt (earlier ++ [t]) x' := by
  obtain ⟨m, hM⟩ := exists_nearest kt t
  cases hTurn with
  | forward hNearest hFirst hLe =>
    refine ⟨hNearest.1, fun j hPos hJ => ?_⟩
    rw [leadsTo_iff, h.leads_iff j hPos hJ]
    constructor
    · rintro (hAll | ⟨hLess, -⟩)
      · exact hAll x' hNearest
      · omega
    · exact fun hLess => .inl fun n hN => hLess.trans (hFirst n hN)
  | stays hNearest =>
    refine ⟨hNearest.1, fun j hPos hJ => ?_⟩
    rw [leadsTo_iff, h.leads_iff j hPos hJ]
    constructor
    · rintro (hAll | ⟨hLess, -⟩)
      · exact hAll x hNearest
      · exact hLess
    · exact fun hLess => .inr ⟨hLess, fun _ => ⟨x, hNearest, hLess⟩⟩
  | backward hNearest hNear hLast hLt hFar =>
    refine ⟨hNearest.1, fun j hPos hJ => ?_⟩
    rw [leadsTo_iff, h.leads_iff j hPos hJ]
    constructor
    · rintro (hAll | ⟨-, hSome⟩)
      · exact hAll x' hNearest
      · obtain ⟨n, hN, hLess⟩ := hSome ⟨x', hNearest.1, hNear⟩
        exact hLess.trans (hLast n hN)
    · exact fun hLess => .inr ⟨by omega, fun _ => ⟨x', hNearest, hLess⟩⟩
  | stuck hBehind hNone =>
    have hFar := hRight hBehind
    refine ⟨h.le, fun j hPos hJ => ?_⟩
    rw [leadsTo_iff, h.leads_iff j hPos hJ]
    constructor
    · rintro (hAll | ⟨hLess, -⟩)
      · exact (hAll m hM).trans (hBehind m hM).le
      · exact hLess
    · exact fun hLess => .inr ⟨hLess, fun hNear => absurd ⟨hFar, hNear⟩ hNone⟩

/-- The last klyric line that the earlier lines lead to, if it is not the first one. -/
theorem IndexAt.eq_of_last (h : IndexAt kt earlier x) {j : Nat} (hPos : 0 < j)
    (hJ : j ≤ firstRepeat kt) (hLeads : LeadsTo kt earlier j)
    (hLast : ∀ k ≤ firstRepeat kt, LeadsTo kt earlier k → k ≤ j) : j = x := by
  have hLe := (h.leads_iff j hPos hJ).1 hLeads
  have hGe := hLast x h.le ((h.leads_iff x (by omega) h.le).2 (Nat.le_refl x))
  omega

/-- A turn that ends at a nearest line is right if that line is nearest of all. -/
theorem rightLine_of_nearest {p : Nat} (h : IndexAt kt earlier x) (hNearest : NearestUpTo kt t p)
    (hLast : timeAt kt x ≤ t + 100 → ∃ n, NearestUpTo kt t n ∧ x ≤ n) (hSome : kt ≠ []) :
    RightLine kt earlier t ↔
      if distance kt t p ≤ 100 then ∀ k < kt.length, distance kt t p ≤ distance kt t k
      else ¬Near kt t := by
  have hLt := firstRepeat_lt hSome
  have hSecond : ∀ j ≤ firstRepeat kt, LeadsTo kt earlier j →
      (∀ k ≤ firstRepeat kt, LeadsTo kt earlier k → k ≤ j) →
      timeAt kt j ≤ t + 100 → ∃ n, NearestUpTo kt t n ∧ j ≤ n := by
    intro j hJ hLeads hFurthest hSoon
    rcases Nat.eq_zero_or_pos j with rfl | hPos
    · exact ⟨p, hNearest, Nat.zero_le p⟩
    · obtain rfl := h.eq_of_last hPos hJ hLeads hFurthest
      exact hLast hSoon
  have hFirst : (∃ j ≤ firstRepeat kt, ∀ k < kt.length, distance kt t j ≤ distance kt t k) ↔
      ∀ k < kt.length, distance kt t p ≤ distance kt t k := by
    constructor
    · rintro ⟨j, hJ, hLeast⟩ k hK
      exact (hNearest.2 j hJ).trans (hLeast k hK)
    · exact fun hLeast => ⟨p, hNearest.1, hLeast⟩
  rw [RightLine, hFirst, and_iff_left hSecond]
  split
  · rename_i hNear
    exact ⟨fun hRight => hRight ⟨p, by have := hNearest.1; omega, hNear⟩, fun hLeast _ => hLeast⟩
  · rename_i hFar
    refine ⟨fun hRight hNear => hFar ?_, fun hNone hNear => absurd hNear hNone⟩
    obtain ⟨k, hK, hNearK⟩ := hNear
    exact (hRight ⟨k, hK, hNearK⟩ k hK).trans hNearK

/-- **A line of the text** gets the right entry exactly if it meets the condition. -/
theorem mapLine_right_iff (hSorted : kt.Pairwise (· ≤ ·))
    (hFits : ∀ a ∈ kt, -2147483648 < a - t ∧ a - t < 2147483648) (hSome : kt ≠ [])
    (h : IndexAt kt earlier x) :
    RightEntry kt t (mapLine kt x t).2 ↔ RightLine kt earlier t := by
  have hTurn := mapLine_turn hSorted hFits hSome h.le
  have hLt := firstRepeat_lt hSome
  obtain ⟨m, hM⟩ := exists_nearest kt t
  rw [rightEntry_iff hFits hSome (hTurn.le_firstRepeat h.le)]
  generalize (mapLine kt x t).1 = x' at hTurn
  cases hTurn with
  | forward hNearest hFirst hLe =>
    exact (rightLine_of_nearest h hNearest (fun _ => ⟨x', hNearest, hLe⟩) hSome).symm
  | stays hNearest =>
    exact (rightLine_of_nearest h hNearest (fun _ => ⟨x, hNearest, Nat.le_refl x⟩) hSome).symm
  | backward hNearest hNear hLast hLess hFar =>
    refine (rightLine_of_nearest h hNearest (fun hSoon => ?_) hSome).symm
    have hGrows := timeAt_lt hLess h.le
    rw [distance] at hNear hFar
    omega
  | stuck hBehind hNone =>
    have hX := h.le
    have hPos : 0 < x := Nat.lt_of_le_of_lt (Nat.zero_le m) (hBehind m hM)
    split
    · rename_i hNear
      refine iff_of_false (fun hLeast => ?_) fun hRight => ?_
      · refine Nat.lt_irrefl x (hBehind x ⟨h.le, fun k hK => hLeast k (by omega)⟩)
      · have hIn := (hRight ⟨x, by omega, hNear⟩).2 x h.le
          ((h.leads_iff x hPos h.le).2 (Nat.le_refl x))
          (fun k hK hLeads => by
            rcases Nat.eq_zero_or_pos k with rfl | hK'
            · omega
            · exact (h.leads_iff k hK' hK).1 hLeads)
          (by rw [distance] at hNear; omega)
        obtain ⟨n, hN, hLe⟩ := hIn
        exact absurd hLe (Nat.not_le_of_lt (hBehind n hN))
    · rename_i hFar
      refine ⟨fun hNot hNear => absurd hNear hNot, fun hRight hNear => ?_⟩
      obtain ⟨⟨j, hJ, hLeast⟩, -⟩ := hRight hNear
      obtain ⟨k, hK, hNearK⟩ := hNear
      exact hNone ⟨by omega, j, hJ, (hLeast k hK).trans hNearK⟩

end Leads

-- ---------------------------------------------------------------------------
-- The loop over the lines
-- ---------------------------------------------------------------------------

section Loop

variable {kt : List Int}

theorem rightLines_cons {earlier : List Int} {t : Int} {ts : List Int} :
    (∀ front v behind, t :: ts = front ++ v :: behind → RightLine kt (earlier ++ front) v) ↔
      RightLine kt earlier t ∧ ∀ front v behind, ts = front ++ v :: behind →
        RightLine kt (earlier ++ [t] ++ front) v := by
  constructor
  · intro hAll
    refine ⟨by simpa using hAll [] t ts rfl, fun front v behind hSplit => ?_⟩
    have hRight := hAll (t :: front) v behind (by rw [hSplit, List.cons_append])
    rwa [List.append_assoc, List.singleton_append]
  · rintro ⟨hFirst, hMore⟩ front v behind hSplit
    cases front with
    | nil =>
      obtain ⟨rfl, -⟩ := List.cons.inj hSplit
      rwa [List.append_nil]
    | cons w front =>
      obtain ⟨rfl, hRest⟩ := List.cons.inj hSplit
      have hRight := hMore front v behind hRest
      rwa [List.append_assoc, List.singleton_append] at hRight

/-- **A run of the loop**, from wherever the earlier lines have brought the index. -/
theorem mapLines_iff (hSorted : kt.Pairwise (· ≤ ·)) (hSome : kt ≠ []) {ts : List Int}
    (hFits : DifferencesFit kt ts) {earlier : List Int} {x : Nat} (h : IndexAt kt earlier x) :
    List.Forall₂ (RightEntry kt) ts (mapLines kt x ts) ↔
      ∀ front v behind, ts = front ++ v :: behind → RightLine kt (earlier ++ front) v := by
  induction ts generalizing earlier x with
  | nil =>
    refine iff_of_true .nil fun front v behind hSplit => ?_
    exact absurd hSplit.symm (List.append_ne_nil_of_right_ne_nil front (List.cons_ne_nil v behind))
  | cons t ts ih =>
    have hFitsT : ∀ a ∈ kt, -2147483648 < a - t ∧ a - t < 2147483648 := fun a hA =>
      hFits a hA t List.mem_cons_self
    have hFitsTs : DifferencesFit kt ts := fun a hA v hV => hFits a hA v (List.mem_cons_of_mem _ hV)
    have hTurn := mapLine_turn hSorted hFitsT hSome h.le
    rw [mapLines, List.forall₂_cons, rightLines_cons]
    rw [← mapLine_right_iff hSorted hFitsT hSome h]
    refine and_congr_right fun hRight => ih hFitsTs (h.turn hTurn fun hBehind => ?_)
    -- a line that is mapped is mapped to a nearest one
    rw [rightEntry_iff hFitsT hSome (hTurn.le_firstRepeat h.le)] at hRight
    have hX := hTurn.le_firstRepeat h.le
    have hLt := firstRepeat_lt hSome
    by_contra hNear
    rw [if_pos (Nat.le_of_not_lt hNear)] at hRight
    exact Nat.lt_irrefl _ (hBehind _ ⟨hX, fun k hK => hRight k (by omega)⟩)

/-- **The map.** Each line of the text has the entry of a nearest klyric line, or none where
none is within 100 ms, exactly if the lines meet the condition. -/
theorem lrcToKlyric_iff (lines : List Line) (klines : List KlyricLine)
    (hSorted : (klines.map KlyricLine.time).Pairwise (· ≤ ·))
    (hFits : DifferencesFit (klines.map KlyricLine.time) (lines.map Line.timeMs)) :
    List.Forall₂ (RightEntry (klines.map KlyricLine.time)) (lines.map Line.timeMs)
        (lrcToKlyric lines klines) ↔
      RightLines (klines.map KlyricLine.time) (lines.map Line.timeMs) := by
  rw [lrcToKlyric]
  split
  · rename_i hNil
    subst hNil
    have hNone (t : Int) : ¬Near [] t := by
      rintro ⟨j, hJ, -⟩
      exact absurd hJ (Nat.not_lt_zero j)
    refine iff_of_true ?_ fun front t behind _ hNear => absurd hNear (hNone t)
    rw [List.forall₂_map_left_iff, List.forall₂_map_right_iff, List.forall₂_same]
    intro line _
    rw [List.map_nil, RightEntry, if_pos rfl]
    exact hNone _
  · rename_i hSome
    exact mapLines_iff hSorted (fun h => hSome (List.map_eq_nil_iff.1 h)) hFits (indexAt_nil _)

/-- The nearest klyric lines go forward with the time. -/
theorem nearest_forward {v t : Int} (hLe : v ≤ t) {m n : Nat} (hM : NearestUpTo kt v m)
    (hN : NearestUpTo kt t n) : ∃ n, NearestUpTo kt t n ∧ m ≤ n := by
  rcases Nat.lt_or_ge n m with hLess | hMore
  · refine ⟨m, ⟨hM.1, fun k hK => Nat.le_trans ?_ (hN.2 k hK)⟩, Nat.le_refl m⟩
    have hGrows := timeAt_lt hLess hM.1
    have hNear := hM.2 n hN.1
    rw [distance, distance] at hNear ⊢
    omega
  · exact ⟨n, hN, hMore⟩

/-- Where no time of the text is behind a later one, only repeated times can be in the way. -/
theorem rightLine_of_ordered {earlier : List Int} {t : Int} (hOrdered : ∀ v ∈ earlier, v ≤ t)
    (hFirst : Near kt t → ∃ j ≤ firstRepeat kt, ∀ k < kt.length,
      distance kt t j ≤ distance kt t k) : RightLine kt earlier t := by
  refine fun hNear => ⟨hFirst hNear, fun j _ hLeads _ _ => ?_⟩
  obtain ⟨front, v, behind, rfl, hAll, -⟩ := hLeads
  obtain ⟨m, hM⟩ := exists_nearest kt v
  obtain ⟨n, hN⟩ := exists_nearest kt t
  obtain ⟨n', hN', hLe⟩ := nearest_forward (hOrdered v (by simp)) hM hN
  exact ⟨n', hN', (hAll m hM).trans hLe⟩

theorem firstRepeat_of_distinct (hDistinct : kt.Pairwise (· < ·)) :
    firstRepeat kt = kt.length - 1 := by
  induction kt with
  | nil => rfl
  | cons a rest ih =>
    cases rest with
    | nil => rfl
    | cons b rest =>
      obtain ⟨hFirst, hRest⟩ := List.pairwise_cons.1 hDistinct
      rw [firstRepeat, if_pos (hFirst b List.mem_cons_self), ih hRest]
      rfl

theorem rightLines_of_ordered {ts : List Int} (hOrdered : ts.Pairwise (· ≤ ·))
    (hDistinct : kt.Pairwise (· < ·)) : RightLines kt ts := by
  rintro front t behind rfl
  refine rightLine_of_ordered (fun v hV => ?_) fun hNear => ?_
  · exact (List.pairwise_append.1 hOrdered).2.2 v hV t List.mem_cons_self
  · obtain ⟨j, hJ⟩ := exists_nearest kt t
    obtain ⟨k, hK, -⟩ := hNear
    rw [NearestUpTo, firstRepeat_of_distinct hDistinct] at hJ
    exact ⟨j, by rw [firstRepeat_of_distinct hDistinct]; exact hJ.1, fun k hK => hJ.2 k (by omega)⟩

/-- Two lines of a text, with two klyric lines. -/
def twoTimes : List Line := [⟨0, ascii "abc"⟩, ⟨5000, ascii "def"⟩]

theorem twoTimes_mapped :
    List.Forall₂ (RightEntry [0, 5000]) [0, 5000] (lrcToKlyric twoTimes [⟨0, 0⟩, ⟨3, 5000⟩]) :=
  (lrcToKlyric_iff twoTimes [⟨0, 0⟩, ⟨3, 5000⟩] (List.pairwise_pair.2 (by decide))
    (by unfold DifferencesFit; decide)).2 (rightLines_of_ordered (List.pairwise_pair.2 (by decide))
      (List.pairwise_pair.2 (by decide)))

/-- With the first time there twice the second line is not mapped. -/
theorem twoTimes_unmapped : ¬∀ (lines : List Line) (klines : List KlyricLine),
    (klines.map KlyricLine.time).Pairwise (· ≤ ·) →
      List.Forall₂ (RightEntry (klines.map KlyricLine.time)) (lines.map Line.timeMs)
        (lrcToKlyric lines klines) := by
  intro hAll
  have hEntries := hAll twoTimes [⟨0, 0⟩, ⟨0, 0⟩, ⟨3, 5000⟩] (by decide)
  have hMap : lrcToKlyric twoTimes [⟨0, 0⟩, ⟨0, 0⟩, ⟨3, 5000⟩] = [0, -1] := by decide
  rw [hMap] at hEntries
  have hSecond := (List.forall₂_cons.1 (List.forall₂_cons.1 hEntries).2).1
  rw [RightEntry, if_pos rfl] at hSecond
  exact hSecond ⟨2, by decide, by decide⟩

end Loop

end EspMiplay.Lyrics
