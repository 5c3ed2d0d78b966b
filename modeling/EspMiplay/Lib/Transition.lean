import Mathlib.Data.List.Basic

/-!
# Runs of a partial step function

A system is a function `step : σ → α → Option σ`: `none` where the action is not
possible. A run is the list of its actions, and `Along step Q s as` says that
`Q` holds of every step the run `as` takes from `s`. The run ends at the first
action that is not possible.

- `Along.of_invariant`: a property of single steps that an invariant implies
  holds along every run, when the steps that meet `ok` keep the invariant.
- `along_iff_of_invariant`: the same with an equivalence, for a condition that
  is exact.
- `invariant_of_run`: an invariant that every step keeps holds in every state
  that is reached.
- `along_iff_probed`: the exact condition for a property that one more step may
  put to the test at any moment of the run.
-/

namespace Transition

variable {σ α : Type*} (step : σ → α → Option σ)

/-- Every step of the run satisfies `Q`. -/
def Along (Q : σ → α → σ → Prop) : σ → List α → Prop
  | _, [] => True
  | s, a :: as =>
    match step s a with
    | none => True
    | some s' => Q s a s' ∧ Along Q s' as

/-- The state after all actions; `none` when one of them is not possible. -/
def run : σ → List α → Option σ
  | s, [] => some s
  | s, a :: as => (step s a).bind fun s' => run s' as

variable {step} {Q Q' ok : σ → α → σ → Prop} {I : σ → Prop}

theorem along_cons_some {s s' : σ} {a : α} {as : List α} (h : step s a = some s') :
    Along step Q s (a :: as) ↔ Q s a s' ∧ Along step Q s' as := by
  rw [Along, h]

theorem along_cons_none {s : σ} {a : α} {as : List α} (h : step s a = none) :
    Along step Q s (a :: as) := by
  rw [Along, h]
  trivial

theorem run_append {s : σ} {as bs : List α} :
    run step s (as ++ bs) = (run step s as).bind fun t => run step t bs := by
  induction as generalizing s with
  | nil => rfl
  | cons a as ih =>
    rw [List.cons_append, run, run, Option.bind_assoc]
    exact congrArg _ (funext fun _ => ih)

/-- A run can be checked step by step. -/
instance decidableAlong [∀ s a s', Decidable (Q s a s')] :
    ∀ (s : σ) (as : List α), Decidable (Along step Q s as)
  | _, [] => .isTrue trivial
  | s, a :: as =>
    match h : step s a with
    | none => .isTrue (along_cons_none h)
    | some s' =>
      have := decidableAlong s' as
      decidable_of_iff _ (along_cons_some h).symm

/-- **Invariant rule.** `I` is kept by the steps that meet `ok`, and gives `Q`. -/
theorem Along.of_invariant
    (hStep : ∀ s a s', I s → step s a = some s' → ok s a s' → I s' ∧ Q s a s')
    {s : σ} {as : List α} (hInit : I s) (hRun : Along step ok s as) :
    Along step Q s as := by
  induction as generalizing s with
  | nil => trivial
  | cons a as ih =>
    cases h : step s a with
    | none => exact along_cons_none h
    | some s' =>
      rw [along_cons_some h] at hRun ⊢
      obtain ⟨hInv, hQ⟩ := hStep s a s' hInit h hRun.1
      exact ⟨hQ, ih hInv hRun.2⟩

/-- **Reachable states.** What every step keeps holds at the end of a run. -/
theorem invariant_of_run (hStep : ∀ s a s', I s → step s a = some s' → I s') {s t : σ}
    {as : List α} (hInit : I s) (hRun : run step s as = some t) : I t := by
  induction as generalizing s with
  | nil =>
    obtain rfl : s = t := by simpa [run] using hRun
    exact hInit
  | cons a as ih =>
    cases ha : step s a with
    | none => simp [run, ha] at hRun
    | some s' => exact ih (hStep s a s' hInit ha) (by simpa [run, ha] using hRun)

/-- **Exact conditions.** On states that satisfy `I` a step meets `ok` exactly
when it satisfies `Q`, and a step that meets `ok` keeps `I`. -/
theorem along_iff_of_invariant
    (hStep : ∀ s a s', I s → step s a = some s' → (Q s a s' ↔ ok s a s'))
    (hKeep : ∀ s a s', I s → step s a = some s' → ok s a s' → I s')
    {s : σ} {as : List α} (hInit : I s) :
    Along step Q s as ↔ Along step ok s as := by
  induction as generalizing s with
  | nil => exact Iff.rfl
  | cons a as ih =>
    cases h : step s a with
    | none => exact iff_of_true (along_cons_none h) (along_cons_none h)
    | some s' =>
      rw [along_cons_some h, along_cons_some h, hStep s a s' hInit h]
      exact and_congr_right fun hOk => ih (hKeep s a s' hInit h hOk)

theorem Along.mono (hQ : ∀ s a s', Q s a s' → Q' s a s') {s : σ} {as : List α}
    (h : Along step Q s as) : Along step Q' s as :=
  Along.of_invariant (fun _ _ _ _ _ h => ⟨trivial, hQ _ _ _ h⟩) (I := fun _ => True) trivial h

theorem Along.of_forall (hQ : ∀ s a s', step s a = some s' → Q s a s') (s : σ) (as : List α) :
    Along step Q s as := by
  induction as generalizing s with
  | nil => trivial
  | cons a as ih =>
    cases h : step s a with
    | none => exact along_cons_none h
    | some s' => exact (along_cons_some h).mpr ⟨hQ s a s' h, ih s'⟩

/-- What every step ends in holds at the end of the run. -/
theorem Along.final (P : σ → Prop) (hQ : ∀ s a s', Q s a s' → P s') {s t : σ} {as : List α}
    (hInit : P s) (h : Along step Q s as) (hRun : run step s as = some t) : P t := by
  induction as generalizing s with
  | nil =>
    obtain rfl : s = t := by simpa [run] using hRun
    exact hInit
  | cons a as ih =>
    cases ha : step s a with
    | none => simp [run, ha] at hRun
    | some s' =>
      rw [along_cons_some ha] at h
      exact ih (hQ s a s' h.1) h.2 (by simpa [run, ha] using hRun)

/-- What a test finds in the last step of a run. -/
theorem exists_last_of_any {s : σ} {as : List α} {a : α} {P : σ → σ → Bool}
    (h : (run step s as).any (fun t => (step t a).any fun u => P t u) = true) :
    ∃ t u, run step s as = some t ∧ step t a = some u ∧ P t u = true := by
  cases hRun : run step s as with
  | none => simp [hRun] at h
  | some t =>
    cases hStep : step t a with
    | none => simp [hRun, hStep] at h
    | some u => exact ⟨t, u, rfl, hStep, by simpa [hRun, hStep] using h⟩

/-- What is left of a run, from the state its first part ends in. -/
theorem Along.rest {s t : σ} {as bs : List α} (h : Along step Q s (as ++ bs))
    (hRun : run step s as = some t) : Along step Q t bs := by
  induction as generalizing s with
  | nil =>
    obtain rfl : s = t := by simpa [run] using hRun
    exact h
  | cons a as ih =>
    cases ha : step s a with
    | none => simp [run, ha] at hRun
    | some s' => exact ih ((along_cons_some ha).mp h).2 (by simpa [run, ha] using hRun)

/-- The last step of a run. -/
theorem Along.last {s t u : σ} {a : α} {as : List α} (h : Along step Q s (as ++ [a]))
    (hRun : run step s as = some t) (hLast : step t a = some u) : Q t a u :=
  ((along_cons_some hLast).mp (h.rest hRun)).1

/-- **Probes.** At any moment of the run one of the steps `probe` may come. `Q` is
put to the test by them alone, and `I` says that they would pass now. -/
theorem along_iff_probed {ι : Type*} {probe : ι → α}
    (hQ : ∀ s a s', I s → step s a = some s' → Q s a s')
    (hProbe : ∀ s, (∀ i s', step s (probe i) = some s' → Q s (probe i) s') → I s)
    (hStep : ∀ s a s', I s → step s a = some s' → (I s' ↔ ok s a s')) {s : σ} {as : List α}
    (hInit : I s) :
    (∀ bs i, bs <+: as → Along step Q s (bs ++ [probe i])) ↔ Along step ok s as := by
  have hNow (s : σ) (hs : I s) (i : ι) : Along step Q s [probe i] := by
    cases h : step s (probe i) with
    | none => exact along_cons_none h
    | some s' => exact (along_cons_some h).2 ⟨hQ _ _ _ hs h, trivial⟩
  induction as generalizing s with
  | nil =>
    refine iff_of_true (fun bs i hCut => ?_) trivial
    obtain rfl := List.prefix_nil.1 hCut
    exact hNow s hInit i
  | cons a as ih =>
    cases h : step s a with
    | none =>
      refine iff_of_true (fun bs i hCut => ?_) (along_cons_none h)
      cases bs with
      | nil => exact hNow s hInit i
      | cons b bs =>
        obtain ⟨rfl, -⟩ := List.cons_prefix_cons.1 hCut
        exact along_cons_none h
    | some s' =>
      rw [along_cons_some h]
      constructor
      · intro hAll
        -- a probe behind this step shows that it kept `I`
        have hNext : I s' := by
          refine hProbe s' fun i t ht => ?_
          have hCut : [a] <+: a :: as := by simp
          have hTwo := (along_cons_some h).1 (hAll [a] i hCut)
          exact ((along_cons_some ht).1 hTwo.2).1
        refine ⟨(hStep s a s' hInit h).1 hNext, (ih hNext).1 fun bs i hCut => ?_⟩
        have hLonger : a :: bs <+: a :: as := List.cons_prefix_cons.2 ⟨rfl, hCut⟩
        exact ((along_cons_some h).1 (hAll (a :: bs) i hLonger)).2
      · rintro ⟨hOk, hRest⟩ bs i hCut
        cases bs with
        | nil => exact hNow s hInit i
        | cons b bs =>
          obtain ⟨rfl, hTail⟩ := List.cons_prefix_cons.1 hCut
          have hNext := (hStep s b s' hInit h).2 hOk
          exact (along_cons_some h).2 ⟨hQ _ _ _ hInit h, (ih hNext).2 hRest bs i hTail⟩

end Transition
