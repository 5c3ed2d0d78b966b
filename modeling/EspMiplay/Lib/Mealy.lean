import Mathlib.Data.List.Basic

/-!
# Queries that move the state

A query `step : σ → α → σ × β` answers an input and moves a hidden state. Two states are
`Alike` when no sequence of inputs tells them apart, and an input is `Repeatable` in a state
when asking it twice is the same as asking it once.

- `alike_of_bisimulation`: states that are related by a bisimulation are alike.
-/

namespace Mealy

variable {σ α β : Type*} (step : σ → α → σ × β)

/-- The answers to one input after the other -/
def answers : σ → List α → List β
  | _, [] => []
  | s, a :: as => (step s a).2 :: answers (step s a).1 as

def Alike (s t : σ) : Prop := ∀ as, answers step s as = answers step t as

/-- The second answer is the first one, and no later answer tells that there was a second. -/
def Repeatable (s : σ) (a : α) : Prop :=
  (step (step s a).1 a).2 = (step s a).2 ∧ Alike step (step (step s a).1 a).1 (step s a).1

variable {step} {R : σ → σ → Prop} {s t : σ}

theorem alike_of_bisimulation (hAnswer : ∀ s t a, R s t → (step s a).2 = (step t a).2)
    (hNext : ∀ s t a, R s t → R (step s a).1 (step t a).1) (h : R s t) : Alike step s t := by
  intro as
  induction as generalizing s t with
  | nil => rfl
  | cons a as ih => rw [answers, answers, hAnswer s t a h, ih (hNext s t a h)]

theorem repeatable_of_fixed {a : α} (hAnswer : (step (step s a).1 a).2 = (step s a).2)
    (hState : (step (step s a).1 a).1 = (step s a).1) : Repeatable step s a := by
  refine ⟨hAnswer, ?_⟩
  rw [hState]
  exact fun _ => rfl

end Mealy
