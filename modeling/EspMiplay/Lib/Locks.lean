import Mathlib.Data.List.Basic
import Mathlib.Order.Lattice

/-!
# Lock discipline of a piece of code

`Code L` is what a piece of code does with its locks: where it takes and gives
them, with every condition on data left open. `Exec p tr done` are the
executions of `p`: the calls it has made so far, and whether it has run to its
end.

Locks are plain (not recursive) and ordered. `Ordered held tr` says that the calls
`tr`, made by a task that holds `held`, request only locks above all that is
held, so none that is held already, and give back only what is held.

- `check_sound`: `check p held = some held'` means that all executions of `p` are
  ordered, and that those that end leave exactly `held'`.
-/

namespace Locks

variable {L : Type} [LinearOrder L]

inductive Event (L : Type) where
  | take (l : L)
  | give (l : L)
  deriving DecidableEq

inductive Code (L : Type) where
  | skip
  | take (l : L)
  | give (l : L)
  | seq (p q : Code L)
  /-- one of the two, depending on data -/
  | choice (p q : Code L)
  /-- any number of rounds -/
  | loop (p : Code L)

namespace Code

/-- One piece after the other. -/
def steps (ps : List (Code L)) : Code L := ps.foldr seq skip

/-- One of several pieces. -/
def choices (p : Code L) (ps : List (Code L)) : Code L := ps.foldr choice p

def optional (p : Code L) : Code L := choice skip p

/-- Between taking `l` and giving it back. -/
def locked (l : L) (p : Code L) : Code L := seq (take l) (seq p (give l))

end Code

/-! ## Executions -/

inductive Exec : Code L → List (Event L) → Bool → Prop where
  | start (p : Code L) : Exec p [] false
  | skip : Exec .skip [] true
  | take (l : L) : Exec (.take l) [.take l] true
  | give (l : L) : Exec (.give l) [.give l] true
  | seqFirst {p q : Code L} {tr : List (Event L)} (h : Exec p tr false) : Exec (.seq p q) tr false
  | seq {p q : Code L} {tr tr' : List (Event L)} {done : Bool} (h : Exec p tr true)
      (h' : Exec q tr' done) : Exec (.seq p q) (tr ++ tr') done
  | choiceLeft {p q : Code L} {tr : List (Event L)} {done : Bool} (h : Exec p tr done) :
      Exec (.choice p q) tr done
  | choiceRight {p q : Code L} {tr : List (Event L)} {done : Bool} (h : Exec q tr done) :
      Exec (.choice p q) tr done
  | loopEnd (p : Code L) : Exec (.loop p) [] true
  | loopFirst {p : Code L} {tr : List (Event L)} (h : Exec p tr false) : Exec (.loop p) tr false
  | loopMore {p : Code L} {tr tr' : List (Event L)} {done : Bool} (h : Exec p tr true)
      (h' : Exec (.loop p) tr' done) : Exec (.loop p) (tr ++ tr') done

/-! ## The discipline -/

/-- What is held after a call. -/
def Event.after (held : List L) : Event L → List L
  | .take l => l :: held
  | .give l => held.erase l

def heldAfter (held : List L) (tr : List (Event L)) : List L := tr.foldl Event.after held

/-- A request is for a lock above all that is held; what is given is held. -/
def Event.Allowed (held : List L) : Event L → Prop
  | .take l => ∀ l' ∈ held, l' < l
  | .give l => l ∈ held

instance (held : List L) : (e : Event L) → Decidable (e.Allowed held)
  | .take l => inferInstanceAs (Decidable (∀ l' ∈ held, l' < l))
  | .give l => inferInstanceAs (Decidable (l ∈ held))

def Ordered : List L → List (Event L) → Prop
  | _, [] => True
  | held, e :: tr => e.Allowed held ∧ Ordered (e.after held) tr

/-- A lock that is held is never requested. -/
theorem Event.Allowed.not_mem {held : List L} {l : L} (h : (Event.take l).Allowed held) :
    l ∉ held :=
  fun hMem => lt_irrefl l (h l hMem)

@[simp] theorem heldAfter_append (held : List L) (tr tr' : List (Event L)) :
    heldAfter held (tr ++ tr') = heldAfter (heldAfter held tr) tr' :=
  List.foldl_append ..

theorem ordered_append {held : List L} {tr tr' : List (Event L)} :
    Ordered held (tr ++ tr') ↔ Ordered held tr ∧ Ordered (heldAfter held tr) tr' := by
  induction tr generalizing held with
  | nil => simp [Ordered, heldAfter]
  | cons e tr ih =>
    simp only [List.cons_append, Ordered, ih, and_assoc]
    rfl

/-! ## The checker -/

/-- What `p` leaves held, if every execution of it keeps to the discipline. -/
def check : Code L → List L → Option (List L)
  | .skip, held => some held
  | .take l, held => if (Event.take l).Allowed held then some (l :: held) else none
  | .give l, held => if (Event.give l).Allowed held then some (held.erase l) else none
  | .seq p q, held => (check p held).bind (check q)
  | .choice p q, held => if check p held = check q held then check p held else none
  | .loop p, held => if check p held = some held then some held else none

theorem check_seq {p q : Code L} {held held' : List L} :
    check (.seq p q) held = some held' ↔
      ∃ mid, check p held = some mid ∧ check q mid = some held' := by
  simp [check, Option.bind_eq_some_iff]

theorem check_choice {p q : Code L} {held held' : List L} :
    check (.choice p q) held = some held' ↔
      check p held = some held' ∧ check q held = some held' := by
  simp only [check]
  constructor
  · intro h
    split at h
    · rename_i hSame
      exact ⟨h, hSame ▸ h⟩
    · cases h
  · rintro ⟨hp, hq⟩
    rw [if_pos (hp.trans hq.symm), hp]

/-- **Soundness.** -/
theorem check_sound {p : Code L} {held held' : List L} {tr : List (Event L)} {done : Bool}
    (hCheck : check p held = some held') (hExec : Exec p tr done) :
    Ordered held tr ∧ (done = true → heldAfter held tr = held') := by
  induction hExec generalizing held held' with
  | start p => exact ⟨trivial, by simp⟩
  | skip => exact ⟨trivial, fun _ => by simpa [check, heldAfter] using hCheck⟩
  | take l =>
    simp only [check, Option.ite_none_right_eq_some, Option.some.injEq] at hCheck
    exact ⟨⟨hCheck.1, trivial⟩, fun _ => hCheck.2⟩
  | give l =>
    simp only [check, Option.ite_none_right_eq_some, Option.some.injEq] at hCheck
    exact ⟨⟨hCheck.1, trivial⟩, fun _ => hCheck.2⟩
  | seqFirst h ih =>
    obtain ⟨mid, hp, -⟩ := check_seq.mp hCheck
    exact ⟨(ih hp).1, by simp⟩
  | seq h h' ih ih' =>
    obtain ⟨mid, hp, hq⟩ := check_seq.mp hCheck
    obtain ⟨hFirst, hMid⟩ := ih hp
    obtain ⟨hRest, hEnd⟩ := ih' hq
    rw [ordered_append, heldAfter_append, hMid rfl]
    exact ⟨⟨hFirst, hRest⟩, hEnd⟩
  | choiceLeft h ih => exact ih (check_choice.mp hCheck).1
  | choiceRight h ih => exact ih (check_choice.mp hCheck).2
  | loopEnd p =>
    simp only [check, Option.ite_none_right_eq_some, Option.some.injEq] at hCheck
    exact ⟨trivial, fun _ => hCheck.2⟩
  | loopFirst h ih =>
    simp only [check, Option.ite_none_right_eq_some, Option.some.injEq] at hCheck
    exact ⟨(ih hCheck.1).1, by simp⟩
  | loopMore h h' ih ih' =>
    -- a round leaves what it found, and so do the others
    have hRound := hCheck
    simp only [check, Option.ite_none_right_eq_some, Option.some.injEq] at hRound
    obtain ⟨hFirst, hMid⟩ := ih hRound.1
    obtain ⟨hRest, hEnd⟩ := ih' hCheck
    rw [ordered_append, heldAfter_append, hMid rfl]
    exact ⟨⟨hFirst, hRest⟩, hEnd⟩

end Locks
