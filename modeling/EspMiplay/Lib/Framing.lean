import Mathlib.Data.List.Basic

/-!
# Incremental scanners

A receiver that keeps an accumulation buffer looks at the bytes it has and
either drops a few, takes an item off the front, or waits for more. This
module says when such a scanner is *sound* for a reading of whole streams
(`Scanner.Sound`) and proves that a sound scanner finds exactly the items of
the whole stream, however the stream was cut into pieces
(`Scanner.Sound.feedAll`).

The reading `ref` is any function from streams to item lists; the three
conditions compare it with one move of the scanner on one buffer, for every
continuation of that buffer.

A scanner that throws its buffer away on nonsense has no such reading. On the
streams that are made of whole items it can still be exact (`Scanner.Reads`).
-/

namespace Framing

variable {α β : Type*}

/-- What a scanner does with the buffer in front of it. -/
inductive Move (β : Type*) where
  | wait
  | skip (n : Nat)
  | take (item : β) (n : Nat)
  deriving DecidableEq

/-- A scanner whose every move but `wait` consumes something it has. -/
structure Scanner (α β : Type*) where
  move : List α → Move β
  skip_pos : ∀ {xs n}, move xs = .skip n → 0 < n ∧ n ≤ xs.length
  take_pos : ∀ {xs b n}, move xs = .take b n → 0 < n ∧ n ≤ xs.length

namespace Scanner

/-- Move until the scanner waits: the items found and the buffer left over. -/
def drain (S : Scanner α β) (xs : List α) : List β × List α :=
  match _h : S.move xs with
  | .wait => ([], xs)
  | .skip n => drain S (xs.drop n)
  | .take b n =>
    let r := drain S (xs.drop n)
    (b :: r.1, r.2)
termination_by xs.length
decreasing_by
  · have := S.skip_pos _h
    simp only [List.length_drop]
    omega
  · have := S.take_pos _h
    simp only [List.length_drop]
    omega

theorem drain_wait (S : Scanner α β) {xs : List α} (h : S.move xs = .wait) :
    S.drain xs = ([], xs) := by
  rw [drain]
  split <;> simp_all

theorem drain_skip (S : Scanner α β) {xs : List α} {n : Nat} (h : S.move xs = .skip n) :
    S.drain xs = S.drain (xs.drop n) := by
  rw [drain]
  split <;> simp_all

theorem drain_take (S : Scanner α β) {xs : List α} {b : β} {n : Nat}
    (h : S.move xs = .take b n) :
    S.drain xs = (b :: (S.drain (xs.drop n)).1, (S.drain (xs.drop n)).2) := by
  rw [drain]
  split <;> simp_all

/-- Case analysis along a run of `drain`: one case for each move. -/
theorem drain_induction (S : Scanner α β) {motive : List α → Prop}
    (hWait : ∀ xs, S.move xs = .wait → motive xs)
    (hSkip : ∀ xs n, S.move xs = .skip n → motive (xs.drop n) → motive xs)
    (hTake : ∀ xs b n, S.move xs = .take b n → motive (xs.drop n) → motive xs)
    (xs : List α) : motive xs := by
  induction hLen : xs.length using Nat.strongRecOn generalizing xs with
  | _ len ih =>
    cases hMove : S.move xs with
    | wait => exact hWait xs hMove
    | skip n =>
      have hn := S.skip_pos hMove
      refine hSkip xs n hMove (ih _ ?_ _ rfl)
      simp only [List.length_drop]
      omega
    | take b n =>
      have hn := S.take_pos hMove
      refine hTake xs b n hMove (ih _ ?_ _ rfl)
      simp only [List.length_drop]
      omega

/-- A drained buffer is one on which the scanner waits. -/
theorem move_drain (S : Scanner α β) (xs : List α) : S.move (S.drain xs).2 = .wait := by
  induction xs using S.drain_induction with
  | hWait xs h => rw [S.drain_wait h]; exact h
  | hSkip xs n h ih => rw [S.drain_skip h]; exact ih
  | hTake xs b n h ih => rw [S.drain_take h]; exact ih

/-- One move of the scanner agrees with the reading `ref` of whole streams,
whatever is still to come. -/
structure Sound (S : Scanner α β) (ref : List α → List β) : Prop where
  wait : ∀ {xs}, S.move xs = .wait → ref xs = []
  skip : ∀ {xs n}, S.move xs = .skip n → ∀ ys, ref (xs ++ ys) = ref (xs.drop n ++ ys)
  take : ∀ {xs b n}, S.move xs = .take b n → ∀ ys, ref (xs ++ ys) = b :: ref (xs.drop n ++ ys)

variable {S : Scanner α β} {ref : List α → List β}

/-- Draining splits the reading of every continued stream. -/
theorem Sound.drain (hS : S.Sound ref) (xs ys : List α) :
    ref (xs ++ ys) = (S.drain xs).1 ++ ref ((S.drain xs).2 ++ ys) := by
  induction xs using S.drain_induction with
  | hWait xs h => rw [S.drain_wait h]; rfl
  | hSkip xs n h ih => rw [S.drain_skip h, hS.skip h, ih]
  | hTake xs b n h ih => rw [S.drain_take h, hS.take h, ih]; rfl

/-- Nothing more is to be read from a drained buffer as it stands. -/
theorem Sound.ref_drain (hS : S.Sound ref) (xs : List α) : ref (S.drain xs).2 = [] :=
  hS.wait (S.move_drain xs)

/-- Pieces are appended to what the previous drain left over. -/
def feedAll (S : Scanner α β) : List α → List (List α) → List β × List α
  | buf, [] => ([], buf)
  | buf, c :: cs =>
    let r := S.drain (buf ++ c)
    let t := feedAll S r.2 cs
    (r.1 ++ t.1, t.2)

/-- **Independence of the cuts.** From a buffer with nothing to read, the items
found over any sequence of pieces are those of the whole stream. -/
theorem Sound.feedAll (hS : S.Sound ref) (buf : List α) (cs : List (List α))
    (hBuf : ref buf = []) :
    (S.feedAll buf cs).1 = ref (buf ++ cs.flatten) := by
  induction cs generalizing buf with
  | nil => simpa [Scanner.feedAll] using hBuf.symm
  | cons c cs ih =>
    rw [Scanner.feedAll, List.flatten_cons, ← List.append_assoc, hS.drain (buf ++ c)]
    exact congrArg _ (ih _ (hS.ref_drain _))

/-- A scanner of the items in `P`: it takes a whole one, and waits for the rest of one. -/
structure Reads (S : Scanner α (List α)) (P : List α → Prop) : Prop where
  take : ∀ {m}, P m → ∀ ys, S.move (m ++ ys) = .take m m.length
  wait : ∀ {m xs ys}, P m → m = xs ++ ys → ys ≠ [] → S.move xs = .wait

section Items

variable {S : Scanner α (List α)} {P : List α → Prop} {ms : List (List α)} {xs ys : List α}

theorem move_nil (S : Scanner α β) : S.move [] = .wait := by
  cases hMove : S.move [] with
  | wait => rfl
  | skip n =>
    have hn := S.skip_pos hMove
    rw [List.length_nil] at hn
    omega
  | take b n =>
    have hn := S.take_pos hMove
    rw [List.length_nil] at hn
    omega

/-- Draining takes the items that have arrived whole, and leaves the others as they are. -/
theorem Reads.drain (hS : S.Reads P) (hms : ∀ m ∈ ms, P m) (h : xs ++ ys = ms.flatten) :
    ∃ rest, ms = (S.drain xs).1 ++ rest ∧ (S.drain xs).2 ++ ys = rest.flatten := by
  induction ms generalizing xs with
  | nil =>
    obtain ⟨rfl, rfl⟩ := List.append_eq_nil_iff.1 h
    rw [S.drain_wait S.move_nil]
    exact ⟨[], rfl, rfl⟩
  | cons m ms ih =>
    obtain ⟨hm, hRest⟩ := List.forall_mem_cons.1 hms
    rw [List.flatten_cons] at h
    rcases List.append_eq_append_iff.1 h with ⟨part, hm', hys⟩ | ⟨xs', rfl, hTail⟩
    · by_cases hPart : part = []
      · -- exactly this item is there
        rw [hPart, List.append_nil] at hm'
        rw [hPart, List.nil_append] at hys
        have hMove := hS.take hm []
        rw [List.append_nil, hm'] at hMove
        rw [S.drain_take hMove, List.drop_length, S.drain_wait S.move_nil]
        exact ⟨ms, by rw [hm']; rfl, hys⟩
      · rw [S.drain_wait (hS.wait hm hm' hPart)]
        exact ⟨m :: ms, rfl, h⟩
    · obtain ⟨rest, hSplit, hLeft⟩ := ih hRest hTail.symm
      rw [S.drain_take (hS.take hm xs'), List.drop_left]
      exact ⟨rest, congrArg (m :: ·) hSplit, hLeft⟩

/-- When the stream has arrived there are no others. -/
theorem Reads.drained (hS : S.Reads P) (hms : ∀ m ∈ ms, P m) (h : S.move ms.flatten = .wait) :
    ms = [] := by
  cases ms with
  | nil => rfl
  | cons m ms =>
    rw [List.flatten_cons, hS.take (hms m List.mem_cons_self)] at h
    cases h

end Items

end Scanner

end Framing
