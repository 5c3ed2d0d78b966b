import Mathlib.Order.Defs.Unbundled

/-!
# What a state computation does to the state

`Does R m`: from every state `s`, the computation `m` ends in a state that is
`R`-related to `s`. For a preorder `R` there is one rule for each way of putting
computations together, so a property of a long program follows from the
property of its primitive parts. With `R s s' := P s → P s'` it says that `m`
keeps the invariant `P`.
-/

namespace Effect

variable {σ α β : Type} {R : σ → σ → Prop}

def Does (R : σ → σ → Prop) (m : StateM σ α) : Prop := ∀ s, R s (m.run s).2

/-- The invariant `P` is kept. -/
def Keep (P : σ → Prop) (s s' : σ) : Prop := P s → P s'

instance (P : σ → Prop) : IsPreorder σ (Keep P) where
  refl _ := id
  trans _ _ _ h h' := h' ∘ h

namespace Does

theorem mono {R' : σ → σ → Prop} {m : StateM σ α} (h : Does R m)
    (hR : ∀ s s', R s s' → R' s s') : Does R' m :=
  fun s => hR _ _ (h s)

theorem of_modify {f : σ → σ} (h : ∀ s, R s (f s)) : Does R (modify f) := h

/-- Behind `get` the value read is the state the computation starts in. -/
theorem get_bind {f : σ → StateM σ β} (hf : ∀ s, R s ((f s).run s).2) :
    Does R (get >>= f) := hf

theorem get_bind_at {f : σ → StateM σ β} {s : σ} (hf : R s ((f s).run s).2) :
    R s ((get >>= f).run s).2 := hf

theorem map {m : StateM σ α} {f : α → β} (hm : Does R m) : Does R (f <$> m) := hm

theorem ite {c : Prop} [Decidable c] {m n : StateM σ α} (hm : c → Does R m) (hn : ¬c → Does R n) :
    Does R (if c then m else n) := by
  split
  · exact hm ‹_›
  · exact hn ‹_›

section Preorder

variable [IsPreorder σ R]

theorem pure (a : α) : Does R (Pure.pure a : StateM σ α) := fun s => refl_of R s

theorem bind {m : StateM σ α} {f : α → StateM σ β} (hm : Does R m) (hf : ∀ a, Does R (f a)) :
    Does R (m >>= f) :=
  fun s => trans_of R (hm s) (hf (m.run s).1 (m.run s).2)

theorem get : Does R (MonadState.get : StateM σ σ) := fun s => refl_of R s

end Preorder

end Does

end Effect
