import Mathlib.Data.List.TakeWhile
import EspMiplay.Miplay.SafetyData
import EspMiplay.Miplay.Text

/-!
# C strings in a buffer

The string functions once more, over a buffer that holds no NUL unless its bytes
do: a function that reads on behind the last byte faults.

## Results

* `strstrIn_eq_ok`, `strchrIn_eq_ok`, `skipIn_eq_ok` — when a function stays
  inside, and what it returns then.
* `strstrIn_append`, `strchrIn_append`, `skipIn_append` — what lies behind the
  buffer does not matter then.
* `strstr_first`, `strchr_eq_some`, `skipWhile_eq_cons` — where the pointer
  stands.
-/

namespace EspMiplay.Miplay

/-- `strstr`. -/
def strstrIn (needle : Bytes) : Bytes → Access (Option Bytes)
  | [] => .error .readPastData
  | c :: cs =>
    if needle.isPrefixOf (c :: cs) then .ok (some (c :: cs))
    else if c = 0 then .ok none
    else strstrIn needle cs

/-- `strchr` of a character other than NUL. -/
def strchrIn (ch : UInt8) : Bytes → Access (Option Bytes)
  | [] => .error .readPastData
  | c :: cs =>
    if c = ch then .ok (some (c :: cs))
    else if c = 0 then .ok none
    else strchrIn ch cs

/-- `while (pred(*p)) p++`. -/
def skipIn (pred : UInt8 → Bool) : Bytes → Access Bytes
  | [] => .error .readPastData
  | c :: cs => if pred c then skipIn pred cs else .ok (c :: cs)

theorem Access.ok_bind {α β : Type} (a : α) (f : α → Access β) :
    ((.ok a : Access α) >>= f) = f a := rfl

/-- A run of accesses stays inside when each of them does. -/
theorem Access.bind_eq_ok {α β : Type} {m : Access α} {f : α → Access β} {b : β} :
    m >>= f = .ok b ↔ ∃ a, m = .ok a ∧ f a = .ok b := by
  cases m with
  | error e =>
    constructor
    · intro h
      cases h
    · rintro ⟨a, h, -⟩
      cases h
  | ok a =>
    constructor
    · exact fun h => ⟨a, rfl, h⟩
    · rintro ⟨a', h, hf⟩
      cases h
      exact hf

-- ---------------------------------------------------------------------------
-- Inside
-- ---------------------------------------------------------------------------

variable {needle p q behind : Bytes} {ch : UInt8} {pred : UInt8 → Bool} {r : Option Bytes}

/-- The search ends at the needle, or at a NUL. -/
theorem strstrIn_eq_ok (hNeedle : needle ≠ []) :
    strstrIn needle p = .ok r ↔ strstr needle p = r ∧ (r.isSome ∨ 0 ∈ p) := by
  induction p with
  | nil =>
    rw [strstrIn, strstr, if_neg hNeedle]
    constructor
    · intro h
      cases h
    · rintro ⟨rfl, h⟩
      simp at h
  | cons c cs ih =>
    rw [strstrIn, strstr]
    split_ifs with hPrefix hNul
    · constructor
      · intro h
        cases h
        exact ⟨rfl, .inl rfl⟩
      · rintro ⟨rfl, -⟩
        rfl
    · constructor
      · intro h
        cases h
        exact ⟨rfl, .inr (by rw [hNul]; exact List.mem_cons_self)⟩
      · rintro ⟨rfl, -⟩
        rfl
    · rw [ih, List.mem_cons, or_iff_right (Ne.symm hNul)]

theorem strchrIn_eq_ok :
    strchrIn ch p = .ok r ↔ strchr ch p = r ∧ (ch ∈ p ∨ 0 ∈ p) := by
  induction p with
  | nil =>
    rw [strchrIn]
    constructor
    · intro h
      cases h
    · rintro ⟨-, h | h⟩
      · cases h
      · cases h
  | cons c cs ih =>
    rw [strchrIn, strchr]
    split_ifs with hHere hNul
    · constructor
      · intro h
        cases h
        exact ⟨rfl, .inl (by rw [hHere]; exact List.mem_cons_self)⟩
      · rintro ⟨rfl, -⟩
        rfl
    · constructor
      · intro h
        cases h
        exact ⟨rfl, .inr (by rw [hNul]; exact List.mem_cons_self)⟩
      · rintro ⟨rfl, -⟩
        rfl
    · rw [ih, List.mem_cons, List.mem_cons, or_iff_right (Ne.symm hHere),
        or_iff_right (Ne.symm hNul)]

/-- A loop of this kind has no other end than the character it stops at. -/
theorem skipIn_eq_ok : skipIn pred p = .ok q ↔ skipWhile pred p = q ∧ q ≠ [] := by
  induction p with
  | nil =>
    rw [skipIn, skipWhile, List.dropWhile_nil]
    constructor
    · intro h
      cases h
    · rintro ⟨rfl, h⟩
      exact absurd rfl h
  | cons c cs ih =>
    rw [skipIn, skipWhile, List.dropWhile_cons]
    split_ifs with hSkip
    · exact ih
    · constructor
      · intro h
        cases h
        exact ⟨rfl, List.cons_ne_nil c cs⟩
      · rintro ⟨rfl, -⟩
        rfl

-- ---------------------------------------------------------------------------
-- What lies behind
-- ---------------------------------------------------------------------------

/-- No occurrence starts in front of a NUL and ends behind it. -/
theorem strstr_append_of_nul (hNeedle : 0 ∉ needle) (hNul : 0 ∈ p)
    (h : strstr needle p = none) : strstr needle (p ++ behind) = none := by
  induction p with
  | nil => cases hNul
  | cons c cs ih =>
    rw [strstr] at h
    split_ifs at h with hPrefix hHere
    all_goals
      -- an occurrence that needs what lies behind has the NUL in it
      have hNot : ¬needle.isPrefixOf (c :: (cs ++ behind)) := by
        intro hLong
        rcases List.prefix_or_prefix_of_prefix (List.isPrefixOf_iff_prefix.1 hLong)
          (List.prefix_append (c :: cs) behind) with hFits | hPast
        · exact hPrefix (List.isPrefixOf_iff_prefix.2 hFits)
        · exact hNeedle (hPast.subset hNul)
      rw [List.cons_append, strstr, if_neg hNot]
    · rw [if_pos hHere]
    · rw [if_neg hHere]
      exact ih ((List.mem_cons.1 hNul).resolve_left (Ne.symm hHere)) h

/-- The search has the same end whatever lies behind. -/
theorem strstrIn_append (hNeedle : needle ≠ []) (hText : 0 ∉ needle)
    (h : strstrIn needle p = .ok r) : strstr needle (p ++ behind) = r.map (· ++ behind) := by
  obtain ⟨hFound, hEnd⟩ := (strstrIn_eq_ok hNeedle).1 h
  cases r with
  | none => exact strstr_append_of_nul hText (hEnd.resolve_left (by decide)) hFound
  | some e => exact strstr_append hFound behind

theorem strchrIn_append (h : strchrIn ch p = .ok r) :
    strchr ch (p ++ behind) = r.map (· ++ behind) := by
  induction p with
  | nil =>
    rw [strchrIn] at h
    cases h
  | cons c cs ih =>
    rw [strchrIn] at h
    rw [List.cons_append, strchr]
    split_ifs at h ⊢ with hHere hNul
    · cases h
      rfl
    · cases h
      rfl
    · exact ih h

theorem skipIn_append (h : skipIn pred p = .ok q) :
    skipWhile pred (p ++ behind) = q ++ behind := by
  induction p with
  | nil =>
    rw [skipIn] at h
    cases h
  | cons c cs ih =>
    rw [skipIn] at h
    rw [skipWhile, List.cons_append, List.dropWhile_cons]
    split_ifs at h ⊢ with hSkip
    · exact ih h
    · cases h
      rfl

-- ---------------------------------------------------------------------------
-- Where the pointer stands
-- ---------------------------------------------------------------------------

/-- No occurrence is further in front than the one that is found. -/
theorem strstr_first {e front rest : Bytes} (h : strstr needle p = some e)
    (hOther : p = front ++ (needle ++ rest)) : (needle ++ rest).length ≤ e.length := by
  induction p generalizing front with
  | nil =>
    obtain ⟨-, hNil⟩ := List.append_eq_nil_iff.1 hOther.symm
    rw [hNil]
    exact Nat.zero_le _
  | cons c cs ih =>
    rw [strstr] at h
    split_ifs at h with hPrefix hNul
    · obtain rfl := Option.some.inj h
      rw [hOther]
      exact (List.suffix_append front _).length_le
    · cases front with
      | nil =>
        refine absurd (List.isPrefixOf_iff_prefix.2 ?_) hPrefix
        rw [hOther]
        exact List.prefix_append needle rest
      | cons d front => exact ih h (List.cons.inj hOther).2

/-- An occurrence that no NUL is in front of is not missed. -/
theorem strstr_ne_none {needle : Bytes} (hNeedle : needle ≠ []) (w rest : Bytes)
    (hNul : ∀ c ∈ w, c ≠ 0) : strstr needle (w ++ (needle ++ rest)) ≠ none := by
  induction w with
  | nil =>
    obtain ⟨n, ns, rfl⟩ := List.exists_cons_of_ne_nil hNeedle
    have hPrefix : (n :: ns).isPrefixOf (n :: (ns ++ rest)) :=
      List.isPrefixOf_iff_prefix.2 (List.prefix_append (n :: ns) rest)
    rw [List.nil_append, List.cons_append, strstr, if_pos hPrefix]
    exact Option.some_ne_none _
  | cons c cs ih =>
    obtain ⟨hFirst, hTail⟩ := List.forall_mem_cons.1 hNul
    rw [List.cons_append, strstr, if_neg hFirst]
    split_ifs
    · exact Option.some_ne_none _
    · exact ih hTail

/-- The character is the first of its kind, and stands in front of every NUL. -/
theorem strchr_eq_some {e : Bytes} (h : strchr ch p = some e) :
    ∃ w rest, p = w ++ ch :: rest ∧ e = ch :: rest ∧ ch ∉ w := by
  induction p with
  | nil => cases h
  | cons c cs ih =>
    rw [strchr] at h
    split_ifs at h with hHere hNul
    · cases h
      exact ⟨[], cs, by rw [hHere]; rfl, by rw [hHere], List.not_mem_nil⟩
    · obtain ⟨w, rest, rfl, rfl, hFirst⟩ := ih h
      refine ⟨c :: w, rest, rfl, rfl, ?_⟩
      rw [List.mem_cons]
      rintro (hThis | hLater)
      · exact hHere hThis.symm
      · exact hFirst hLater

/-- Other characters are passed over. -/
theorem strchr_skip {w : Bytes} (hOther : ∀ c ∈ w, c ≠ 0 ∧ c ≠ ch) (rest : Bytes) :
    strchr ch (w ++ rest) = strchr ch rest := by
  induction w with
  | nil => rfl
  | cons c cs ih =>
    obtain ⟨⟨hNul, hNe⟩, hTail⟩ := List.forall_mem_cons.1 hOther
    rw [List.cons_append, strchr, if_neg hNe, if_neg hNul]
    exact ih hTail

/-- A loop stops at a character that it does not skip. -/
theorem skipWhile_eq_cons {c : UInt8} {cs : Bytes} (h : skipWhile pred p = c :: cs) :
    ∃ w, p = w ++ c :: cs ∧ (∀ d ∈ w, pred d = true) ∧ pred c = false := by
  refine ⟨p.takeWhile pred, ?_, fun d hd => List.mem_takeWhile_imp hd, ?_⟩
  · rw [← h]
    exact (List.takeWhile_append_dropWhile).symm
  · have hHead := List.head?_dropWhile_not pred p
    rw [skipWhile] at h
    rw [h] at hHead
    simpa using hHead

theorem skipWhile_append {w : Bytes} {c : UInt8} (cs : Bytes) (hSkipped : ∀ d ∈ w, pred d = true)
    (hStop : pred c = false) : skipWhile pred (w ++ c :: cs) = c :: cs := by
  rw [skipWhile, List.dropWhile_append_of_pos hSkipped,
    List.dropWhile_cons_of_neg (by simp [hStop])]

/-- Where a loop that stays inside has stopped. -/
theorem skipIn_eq_cons {c : UInt8} {cs : Bytes} :
    skipIn pred p = .ok (c :: cs) ↔
      ∃ w, p = w ++ c :: cs ∧ (∀ d ∈ w, pred d = true) ∧ pred c = false := by
  rw [skipIn_eq_ok]
  constructor
  · rintro ⟨hSkip, -⟩
    exact skipWhile_eq_cons hSkip
  · rintro ⟨w, rfl, hSkipped, hStop⟩
    exact ⟨skipWhile_append cs hSkipped hStop, List.cons_ne_nil c cs⟩

/-- The first character of its kind is the one that is found. -/
theorem strchr_first {w s e : Bytes} (h : strchr ch (w ++ ch :: s) = some e) (hFirst : ch ∉ w) :
    e = ch :: s := by
  induction w with
  | nil =>
    rw [List.nil_append, strchr, if_pos rfl] at h
    exact (Option.some.inj h).symm
  | cons c w ih =>
    obtain ⟨hNe, hLater⟩ := not_or.1 (List.mem_cons.not.1 hFirst)
    rw [List.cons_append, strchr, if_neg (Ne.symm hNe)] at h
    split_ifs at h
    exact ih h hLater

/-! ## Cut strings -/

theorem cstr_nonzero (p : Bytes) : ∀ c ∈ cstr p, c ≠ 0 := by
  intro c hMem
  simpa using List.mem_takeWhile_imp hMem

theorem cstr_eq_self {p : Bytes} (h : ∀ c ∈ p, c ≠ 0) : cstr p = p :=
  List.takeWhile_eq_self_iff.2 (by simpa using h)

theorem strncpy_strncpy (n : Nat) (p : Bytes) : strncpy n (strncpy n p) = strncpy n p := by
  have hNone : ∀ c ∈ strncpy n p, c ≠ 0 := fun c hMem =>
    cstr_nonzero p c (List.mem_of_mem_take hMem)
  rw [strncpy, cstr_eq_self hNone, strncpy, List.take_take, Nat.min_self]

theorem strncpy_cstr (n : Nat) (p : Bytes) : strncpy n (cstr p) = strncpy n p := by
  rw [strncpy, cstr_eq_self (cstr_nonzero p), strncpy]

end EspMiplay.Miplay
