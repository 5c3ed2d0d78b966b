import Mathlib.Data.Bool.AllAny
import Mathlib.Logic.Function.Iterate
import EspMiplay.Lib.JsonTokens
import EspMiplay.Miplay.Bytes

/-!
# Walking over JSON tokens

`jsmn_container_end` and `json_find_key_in_object` of `lyrics_fetch.c`. The comment on the
first has it that the size of an object counts keys and values; `jsmn` counts the keys. So
the walk over the children of an object ends half way, and never reaches the last key of an
object with two of them.

## Results

* `containerEnd_iff` — where a value ends.
* `findInObject_iff`  — the objects in which keys are found.
* `tokenTree_iff`     — both, in every text.
-/

namespace EspMiplay.Lyrics

open EspMiplay.Miplay
open Json (Token Value Items Members Stands ItemsStand MembersStand)

-- ---------------------------------------------------------------------------
-- The functions
-- ---------------------------------------------------------------------------

/-- The loop of `jsmn_container_end` over so many children, from `idx + width` on. -/
def childrenEnd (endOf : Nat → Nat) (ts : List Token) : Nat → Nat → Nat
  | 0, pos => pos
  | n + 1, pos =>
    match ts[pos]? with
    | none => pos
    | some t => childrenEnd endOf ts n (if t.type.holds then endOf pos else pos + 1)

/-- Every call is for a token behind the one of its caller. -/
def jsmnContainerEndFrom (ts : List Token) : Nat → Nat → Nat
  | 0, idx => idx
  | fuel + 1, idx =>
    match ts[idx]? with
    | none => idx
    | some t =>
      if t.type.holds then childrenEnd (jsmnContainerEndFrom ts fuel) ts t.size (idx + 1)
      else idx + 1

def jsmnContainerEnd (ts : List Token) (idx : Nat) : Nat := jsmnContainerEndFrom ts ts.length idx

/-- `tokens[i].type == JSMN_STRING`, and the text is the key. -/
def readsKey (json key : Bytes) (t : Token) : Bool :=
  t.type = .string ∧ t.stop - t.start = key.length ∧ (json.drop t.start).take key.length = key

/-- The loop of `json_find_key_in_object`. Every turn passes a token. -/
def findInObjectFrom (json : Bytes) (ts : List Token) (stop : Nat) (key : Bytes) :
    Nat → Nat → Option Nat
  | 0, _ => none
  | fuel + 1, i =>
    match ts[i]? with
    | none => none
    | some t =>
      if ¬i < stop then none
      else if readsKey json key t then some (i + 1)
      else
        let i := i + 1
        match ts[i]? with
        | none => none
        | some value =>
          if ¬i < stop then none
          else
            findInObjectFrom json ts stop key fuel
              (if value.type.holds then jsmnContainerEnd ts i else i + 1)

def jsonFindKeyInObject (json : Bytes) (ts : List Token) (container : Nat) (key : Bytes) :
    Option Nat :=
  match ts[container]? with
  | none => none
  | some t =>
    if t.type ≠ .object then none
    else findInObjectFrom json ts (jsmnContainerEnd ts container) key ts.length (container + 1)

-- ---------------------------------------------------------------------------
-- What is to be found
-- ---------------------------------------------------------------------------

mutual

/-- No object in the value has a member. -/
def noMembers : Value → Bool
  | .word _ => true
  | .string _ => true
  | .array _ items => noMembersIn items
  | .object _ members => members.size = 0

def noMembersIn : Items → Bool
  | .nil => true
  | .cons _ v _ more => noMembers v && noMembersIn more

end

/-- The keys as they are written. -/
def keysOf : Members → List Bytes
  | .nil => []
  | .cons _ key _ _ _ _ more => Json.spelling key :: keysOf more

/-- The value of the first member with that key, and where it stands if the first one of all
has its key there. -/
def memberAt (key : Bytes) : Members → Nat → Option (Nat × Value)
  | .nil, _ => none
  | .cons _ key' _ _ v _ more, i =>
    if Json.spelling key' = key then some (i + 1, v) else memberAt key more (i + 1 + v.count)

def valueIndex (key : Bytes) (members : Members) (i : Nat) : Option Nat :=
  (memberAt key members i).map Prod.fst

-- ---------------------------------------------------------------------------
-- Steps over children
-- ---------------------------------------------------------------------------

/-- Where the loop goes from a token. -/
def stepTo (endOf : Nat → Nat) (ts : List Token) (pos : Nat) : Nat :=
  match ts[pos]? with
  | none => pos
  | some t => if t.type.holds then endOf pos else pos + 1

section Steps

variable {json : Bytes} {ts : List Token} {i : Nat} {endOf : Nat → Nat}

theorem childrenEnd_eq (n pos : Nat) :
    childrenEnd endOf ts n pos = (stepTo endOf ts)^[n] pos := by
  induction n generalizing pos with
  | zero => rfl
  | succ n ih =>
    rw [Function.iterate_succ_apply, childrenEnd, stepTo]
    cases hToken : ts[pos]? with
    | some t => exact ih _
    | none =>
      have hStay : stepTo endOf ts pos = pos := by rw [stepTo, hToken]
      exact (Function.iterate_fixed hStay n).symm

/-- No step over a token of a value leads out of it, and none leads back. -/
structure Within (json : Bytes) (ts : List Token) (g : Nat → Nat) : Prop where
  inside : ∀ i v, Stands json ts i v → ∀ p, i ≤ p → p < i + v.count → g p ≤ i + v.count
  forward : ∀ p, p ≤ g p

variable {g : Nat → Nat}

/-- Every step from an item leads to the end of it. -/
def StepsExactly (g : Nat → Nat) : Items → Nat → Prop
  | .nil, _ => True
  | .cons _ v _ more, i => g i = i + v.count ∧ StepsExactly g more (i + v.count)

/-- The steps over the items of an array end with the last one, if they begin with the first
one and each of them ends with its item; once behind they stay so. -/
theorem iterate_items (hg : Within json ts g) (items : Items) {i p lo : Nat}
    (h : ItemsStand json ts i items) (hLo : lo ≤ p) (hP : p ≤ i)
    (hBehind : ∀ q, lo ≤ q → q < i → g q ≤ i) :
    g^[items.size] p ≤ i + items.count ∧
      (g^[items.size] p = i + items.count ↔ p = i ∧ StepsExactly g items i) := by
  cases items with
  | nil => exact ⟨hP, by simp [StepsExactly, Items.size, Items.count]⟩
  | cons before v behind more =>
    obtain ⟨hValue, hMore⟩ := h.cons
    have hPos := v.count_pos
    have hStep (q : Nat) (hQ : lo ≤ q) (hLt : q < i + v.count) : g q ≤ i + v.count := by
      by_cases hFront : q < i
      · exact (hBehind q hQ hFront).trans (Nat.le_add_right _ _)
      · exact hg.inside i v hValue q (Nat.le_of_not_lt hFront) hLt
    obtain ⟨hBound, hExact⟩ := iterate_items hg more hMore (hLo.trans (hg.forward p))
      (hStep p hLo (by omega)) hStep
    rw [Items.size, Function.iterate_succ_apply, Items.count, ← Nat.add_assoc, hExact,
      StepsExactly, ← and_assoc]
    refine ⟨hBound, and_congr_left' ⟨fun hEnd => ?_, ?_⟩⟩
    · have hAt : p = i := by
        by_contra hOff
        have hLate := hBehind p hLo (by omega)
        omega
      exact ⟨hAt, hAt ▸ hEnd⟩
    · rintro ⟨rfl, hEnd⟩
      exact hEnd

/-- Where the last key stands, if the first one stands there. -/
def lastKey : Members → Nat → Nat
  | .nil, i => i
  | .cons _ _ _ _ _ _ .nil, i => i
  | .cons _ _ _ _ v _ more, i => lastKey more (i + 1 + v.count)

theorem lastKey_cons (before : Json.Blanks) (key : List Json.Piece)
    (behindKey beforeValue : Json.Blanks) (v : Value) (behind : Json.Blanks) (more : Members)
    (hMore : 0 < more.size) (i : Nat) :
    lastKey (.cons before key behindKey beforeValue v behind more) i =
      lastKey more (i + 1 + v.count) := by
  cases more with
  | nil => exact absurd hMore (Nat.lt_irrefl 0)
  | cons => rfl

theorem lastKey_lt (members : Members) (hSome : 0 < members.size) (i : Nat) :
    lastKey members i + 2 ≤ i + members.count := by
  cases members with
  | nil => exact absurd hSome (Nat.lt_irrefl 0)
  | cons before key behindKey beforeValue v behind more =>
    have hPos := v.count_pos
    rw [Members.count]
    by_cases hMore : 0 < more.size
    · have hRest := lastKey_lt more hMore (i + 1 + v.count)
      rw [lastKey_cons _ _ _ _ _ _ _ hMore]
      omega
    · cases more with
      | nil =>
        rw [lastKey]
        omega
      | cons => exact absurd (Nat.succ_pos _) hMore

theorem le_lastKey (members : Members) (i : Nat) : i ≤ lastKey members i := by
  cases members with
  | nil => exact Nat.le_refl i
  | cons before key behindKey beforeValue v behind more =>
    by_cases hMore : 0 < more.size
    · rw [lastKey_cons _ _ _ _ _ _ _ hMore]
      have hRest := le_lastKey more (i + 1 + v.count)
      omega
    · cases more with
      | nil => exact Nat.le_refl i
      | cons => exact absurd (Nat.succ_pos _) hMore

/-- A step over a key ends with it. -/
def KeySteps (json : Bytes) (ts : List Token) (g : Nat → Nat) : Prop :=
  ∀ i members, MembersStand json ts i members → 0 < members.size → g i = i + 1

/-- Two steps for each member but the last one do not lead past its key. -/
theorem iterate_members (hg : Within json ts g) (hKey : KeySteps json ts g) (members : Members)
    {i p lo k : Nat} (h : MembersStand json ts i members) (hSome : 0 < members.size)
    (hK : k + 2 ≤ 2 * members.size) (hLo : lo ≤ p) (hP : p ≤ i)
    (hBehind : ∀ q, lo ≤ q → q < i → g q ≤ i) : g^[k] p ≤ lastKey members i := by
  cases members with
  | nil => exact absurd hSome (Nat.lt_irrefl 0)
  | cons before key behindKey beforeValue v behind more =>
    have hLast := le_lastKey (.cons before key behindKey beforeValue v behind more) i
    rw [Members.size] at hK
    cases k with
    | zero => exact hP.trans hLast
    | succ k =>
      have hMore : 0 < more.size := by omega
      obtain ⟨-, hValue, hRest⟩ := h.cons
      have hPos := v.count_pos
      have hFirst (q : Nat) (hQ : lo ≤ q) (hLt : q < i + 1) : g q ≤ i + 1 := by
        by_cases hFront : q < i
        · exact (hBehind q hQ hFront).trans (Nat.le_succ i)
        · obtain rfl : q = i := by omega
          exact (hKey q _ h hSome).le
      have hStep (q : Nat) (hQ : lo ≤ q) (hLt : q < i + 1 + v.count) :
          g q ≤ i + 1 + v.count := by
        by_cases hFront : q < i + 1
        · exact (hFirst q hQ hFront).trans (Nat.le_add_right _ _)
        · exact hg.inside (i + 1) v hValue q (Nat.le_of_not_lt hFront) hLt
      have hOne := hFirst p hLo (by omega)
      rw [lastKey_cons _ _ _ _ _ _ _ hMore, Function.iterate_succ_apply]
      cases k with
      | zero =>
        have hLate := le_lastKey more (i + 1 + v.count)
        rw [Function.iterate_zero_apply]
        omega
      | succ k =>
        rw [Function.iterate_succ_apply]
        exact iterate_members hg hKey more hRest hMore (by omega)
          ((hLo.trans (hg.forward p)).trans (hg.forward (g p)))
          (hStep (g p) (hLo.trans (hg.forward p)) (by omega)) hStep

/-- As many steps as there are members end in front of the last value. -/
theorem iterate_size (hg : Within json ts g) (hKey : KeySteps json ts g) (members : Members)
    (h : MembersStand json ts i members) (hSome : 0 < members.size) :
    g^[members.size] i < i + members.count := by
  have hLast := lastKey_lt members hSome i
  have hNone (q : Nat) (hQ : i ≤ q) (hLt : q < i) : g q ≤ i := absurd hQ (Nat.not_le_of_lt hLt)
  by_cases hTwo : 2 ≤ members.size
  · have hBound := iterate_members hg hKey members (k := members.size) h hSome (by omega)
      (Nat.le_refl i) (Nat.le_refl i) hNone
    omega
  · have hOne : members.size = 1 := by omega
    have hFirst := le_lastKey members i
    rw [hOne, Function.iterate_one, hKey i members h hSome]
    omega

theorem stepTo_scalar {t : Token} (hToken : ts[i]? = some t) (hType : t.type.holds = false) :
    stepTo endOf ts i = i + 1 := by
  rw [stepTo, hToken]
  simp only [hType, Bool.false_eq_true, if_false]

theorem keySteps_stepTo : KeySteps json ts (stepTo endOf ts) := by
  intro i members h hSome
  cases members with
  | nil => exact absurd hSome (Nat.lt_irrefl 0)
  | cons before key behindKey beforeValue v behind more =>
    obtain ⟨⟨t, hToken, hReads⟩, -⟩ := h.cons
    exact stepTo_scalar hToken (by rw [hReads.type_eq]; rfl)

end Steps

-- ---------------------------------------------------------------------------
-- Ends of values
-- ---------------------------------------------------------------------------

section Ends

variable {json : Bytes} {ts : List Token} {i : Nat}

/-- The step of the calls with so much fuel. -/
def endStep (ts : List Token) (fuel : Nat) : Nat → Nat := stepTo (jsmnContainerEndFrom ts fuel) ts

theorem endStep_container {t : Token} (hToken : ts[i]? = some t) (hType : t.type.holds = true)
    (fuel : Nat) : endStep ts (fuel + 1) i = (endStep ts fuel)^[t.size] (i + 1) := by
  rw [endStep, stepTo, hToken]
  simp only [hType, if_true]
  rw [jsmnContainerEndFrom, hToken]
  simp only [hType, if_true]
  exact childrenEnd_eq _ _

theorem le_endStep (fuel p : Nat) : p ≤ endStep ts fuel p := by
  induction fuel generalizing p with
  | zero =>
    rw [endStep, stepTo]
    split
    · exact Nat.le_refl p
    · split
      · exact Nat.le_refl p
      · exact Nat.le_succ p
  | succ fuel ih =>
    cases hToken : ts[p]? with
    | none => rw [endStep, stepTo, hToken]
    | some t =>
      cases hType : t.type.holds with
      | false =>
        rw [endStep, stepTo_scalar hToken hType]
        exact Nat.le_succ p
      | true =>
        rw [endStep_container hToken hType]
        have hIterate (n q : Nat) : q ≤ (endStep ts fuel)^[n] q := by
          induction n generalizing q with
          | zero => exact Nat.le_refl q
          | succ n ihn =>
            rw [Function.iterate_succ_apply]
            exact (ih q).trans (ihn _)
        exact (Nat.le_succ p).trans (hIterate _ _)

mutual

theorem value_inside {fuel : Nat} (hg : Within json ts (endStep ts fuel)) (v : Value) {i p : Nat}
    (h : Stands json ts i v) (hLo : i ≤ p) (hHi : p < i + v.count) :
    endStep ts (fuel + 1) p ≤ i + v.count := by
  cases v with
  | word w =>
    obtain ⟨t, hToken, hReads⟩ := h.word
    obtain rfl : p = i := by
      rw [Value.count] at hHi
      omega
    rw [endStep, stepTo_scalar hToken (by rw [hReads.type_eq]; rfl), Value.count]
  | string s =>
    obtain ⟨t, hToken, hReads⟩ := h.string
    obtain rfl : p = i := by
      rw [Value.count] at hHi
      omega
    rw [endStep, stepTo_scalar hToken (by rw [hReads.type_eq]; rfl), Value.count]
  | array pad items =>
    obtain ⟨⟨t, hToken, hType, hSize⟩, hItems⟩ := h.array
    rw [Value.count] at hHi ⊢
    rcases Nat.eq_or_lt_of_le hLo with rfl | hBehind
    · have hNone (q : Nat) (hQ : i + 1 ≤ q) (hLt : q < i + 1) : endStep ts fuel q ≤ i + 1 :=
        absurd hQ (Nat.not_le_of_lt hLt)
      have hBound := (iterate_items hg items hItems (Nat.le_refl _) (Nat.le_refl _) hNone).1
      rw [endStep_container hToken (by rw [hType]; rfl), hSize]
      omega
    · have hBound := items_inside hg items hItems hBehind (by omega)
      omega
  | object pad members =>
    obtain ⟨⟨t, hToken, hType, hSize⟩, hMembers⟩ := h.object
    rw [Value.count] at hHi ⊢
    rcases Nat.eq_or_lt_of_le hLo with rfl | hBehind
    · rw [endStep_container hToken (by rw [hType]; rfl), hSize]
      rcases Nat.eq_zero_or_pos members.size with hNone | hSome
      · rw [hNone, Function.iterate_zero_apply]
        omega
      · have hBound := iterate_size hg keySteps_stepTo members hMembers hSome
        omega
    · have hBound := members_inside hg members hMembers hBehind (by omega)
      omega

theorem items_inside {fuel : Nat} (hg : Within json ts (endStep ts fuel)) (items : Items)
    {i p : Nat} (h : ItemsStand json ts i items) (hLo : i ≤ p) (hHi : p < i + items.count) :
    endStep ts (fuel + 1) p ≤ i + items.count := by
  cases items with
  | nil =>
    rw [Items.count] at hHi
    omega
  | cons before v behind more =>
    obtain ⟨hValue, hMore⟩ := h.cons
    rw [Items.count] at hHi ⊢
    by_cases hInside : p < i + v.count
    · have hBound := value_inside hg v hValue hLo hInside
      omega
    · have hBound := items_inside hg more hMore (Nat.le_of_not_lt hInside) (by omega)
      omega

theorem members_inside {fuel : Nat} (hg : Within json ts (endStep ts fuel)) (members : Members)
    {i p : Nat} (h : MembersStand json ts i members) (hLo : i ≤ p)
    (hHi : p < i + members.count) : endStep ts (fuel + 1) p ≤ i + members.count := by
  cases members with
  | nil =>
    rw [Members.count] at hHi
    omega
  | cons before key behindKey beforeValue v behind more =>
    obtain ⟨⟨t, hToken, hReads⟩, hValue, hMore⟩ := h.cons
    rw [Members.count] at hHi ⊢
    rcases Nat.eq_or_lt_of_le hLo with rfl | hBehind
    · rw [endStep, stepTo_scalar hToken (by rw [hReads.type_eq]; rfl)]
      omega
    · by_cases hInside : p < i + 1 + v.count
      · have hBound := value_inside hg v hValue hBehind hInside
        omega
      · have hBound := members_inside hg more hMore (Nat.le_of_not_lt hInside) (by omega)
        omega

end

theorem within_endStep (fuel : Nat) : Within json ts (endStep ts fuel) := by
  induction fuel with
  | zero =>
    refine ⟨fun i v h p hLo hHi => ?_, le_endStep 0⟩
    rw [endStep, stepTo]
    split
    · exact hHi.le
    · split
      · exact hHi.le
      · exact hHi
  | succ fuel ih => exact ⟨fun i v h p => value_inside ih v h, le_endStep (fuel + 1)⟩

mutual

theorem endStep_exact (v : Value) {i fuel : Nat} (h : Stands json ts i v)
    (hFuel : v.count ≤ fuel) : endStep ts fuel i = i + v.count ↔ noMembers v := by
  cases v with
  | word w =>
    obtain ⟨t, hToken, hReads⟩ := h.word
    rw [endStep, stepTo_scalar hToken (by rw [hReads.type_eq]; rfl)]
    exact iff_of_true rfl rfl
  | string s =>
    obtain ⟨t, hToken, hReads⟩ := h.string
    rw [endStep, stepTo_scalar hToken (by rw [hReads.type_eq]; rfl)]
    exact iff_of_true rfl rfl
  | array pad items =>
    obtain ⟨⟨t, hToken, hType, hSize⟩, hItems⟩ := h.array
    rw [Value.count] at hFuel
    cases fuel with
    | zero => omega
    | succ fuel =>
      have hNone (q : Nat) (hQ : i + 1 ≤ q) (hLt : q < i + 1) : endStep ts fuel q ≤ i + 1 :=
        absurd hQ (Nat.not_le_of_lt hLt)
      have hExact := (iterate_items (within_endStep fuel) items hItems (Nat.le_refl _)
        (Nat.le_refl _) hNone).2
      rw [endStep_container hToken (by rw [hType]; rfl), hSize, Value.count,
        Nat.add_comm items.count, ← Nat.add_assoc, hExact, and_iff_right rfl,
        stepsExactly_iff items hItems (by omega)]
      rfl
  | object pad members =>
    obtain ⟨⟨t, hToken, hType, hSize⟩, hMembers⟩ := h.object
    rw [Value.count] at hFuel
    cases fuel with
    | zero => omega
    | succ fuel =>
      rw [endStep_container hToken (by rw [hType]; rfl), hSize, Value.count, noMembers,
        decide_eq_true_eq]
      cases members with
      | nil => exact iff_of_true rfl rfl
      | cons before key behindKey beforeValue v behind more =>
        refine iff_of_false (fun hEnd => ?_) (Nat.succ_ne_zero _)
        have hBound := iterate_size (within_endStep fuel) keySteps_stepTo _ hMembers
          (Nat.succ_pos _)
        omega

theorem stepsExactly_iff (items : Items) {i fuel : Nat} (h : ItemsStand json ts i items)
    (hFuel : items.count ≤ fuel) : StepsExactly (endStep ts fuel) items i ↔ noMembersIn items := by
  cases items with
  | nil => exact iff_of_true trivial rfl
  | cons before v behind more =>
    obtain ⟨hValue, hMore⟩ := h.cons
    rw [Items.count] at hFuel
    rw [StepsExactly, noMembersIn, Bool.and_eq_true, endStep_exact v hValue (by omega),
      stepsExactly_iff more hMore (by omega)]

end

theorem jsmnContainerEnd_step {t : Token} (hToken : ts[i]? = some t) (fuel : Nat) :
    jsmnContainerEndFrom ts (fuel + 1) i = endStep ts (fuel + 1) i := by
  rw [endStep, stepTo, hToken]
  cases hType : t.type.holds with
  | true => simp only [hType, if_true]
  | false =>
    rw [jsmnContainerEndFrom, hToken]
    simp only [hType, Bool.false_eq_true, if_false]

theorem token_of_stands {v : Value} (h : Stands json ts i v) : ∃ t, ts[i]? = some t := by
  have hLt := h.lt
  have hPos := v.count_pos
  exact ⟨ts.get ⟨i, by omega⟩, List.getElem?_eq_getElem (by omega)⟩

/-- **Ends of values.** The end of a value is found exactly if no object in it has a
member. -/
theorem containerEnd_iff {v : Value} (h : Stands json ts i v) :
    jsmnContainerEnd ts i = i + v.count ↔ noMembers v := by
  obtain ⟨t, hToken⟩ := token_of_stands h
  have hLt := h.lt
  have hPos := v.count_pos
  obtain ⟨n, hLength⟩ : ∃ n, ts.length = n + 1 := ⟨ts.length - 1, by omega⟩
  rw [jsmnContainerEnd, hLength, jsmnContainerEnd_step hToken]
  exact endStep_exact v h (by omega)

end Ends

-- ---------------------------------------------------------------------------
-- Keys of objects
-- ---------------------------------------------------------------------------

section Keys

variable {json : Bytes} {ts : List Token} {i : Nat}

theorem readsKey_iff {t : Token} {w key : Bytes} (h : t.Reads json .string w) :
    readsKey json key t ↔ w = key := by
  have hText := h.text_eq
  rw [Token.text, h.stop_eq, Nat.add_sub_cancel_left] at hText
  rw [readsKey, decide_eq_true_eq, h.stop_eq, Nat.add_sub_cancel_left]
  constructor
  · rintro ⟨-, hLength, hKey⟩
    rw [← hText, hLength, hKey]
  · rintro rfl
    exact ⟨h.type_eq, rfl, hText⟩

/-- What is found has its key in front of the end. -/
theorem findInObjectFrom_le {stop fuel r : Nat} {key : Bytes}
    (h : findInObjectFrom json ts stop key fuel i = some r) : r ≤ stop := by
  induction fuel generalizing i with
  | zero => cases h
  | succ fuel ih =>
    rw [findInObjectFrom] at h
    split at h
    · cases h
    split at h
    · cases h
    split at h
    · obtain rfl := Option.some.inj h
      omega
    dsimp only at h
    split at h
    · cases h
    split at h
    · cases h
    · exact ih h

theorem valueIndex_lastKey (members : Members) (hSome : 0 < members.size)
    (hDistinct : (keysOf members).Nodup) (i : Nat) :
    ∃ key ∈ keysOf members, valueIndex key members i = some (lastKey members i + 1) := by
  cases members with
  | nil => exact absurd hSome (Nat.lt_irrefl 0)
  | cons before key behindKey beforeValue v behind more =>
    rw [keysOf, List.nodup_cons] at hDistinct
    by_cases hMore : 0 < more.size
    · obtain ⟨name, hMem, hIndex⟩ := valueIndex_lastKey more hMore hDistinct.2 (i + 1 + v.count)
      have hOther : Json.spelling key ≠ name := by
        rintro rfl
        exact hDistinct.1 hMem
      refine ⟨name, List.mem_cons_of_mem _ hMem, ?_⟩
      rw [valueIndex, memberAt, if_neg hOther, ← valueIndex, hIndex,
        lastKey_cons _ _ _ _ _ _ _ hMore]
    · cases more with
      | nil => exact ⟨_, List.mem_cons_self, by rw [valueIndex, memberAt, if_pos rfl, lastKey]; rfl⟩
      | cons => exact absurd (Nat.succ_pos _) hMore

/-- **Keys of objects.** In an object with distinct keys each of them is found, and no other
one, exactly if there is at most one. -/
theorem findInObject_iff {pad : Json.Blanks} {members : Members}
    (h : Stands json ts i (.object pad members)) (hDistinct : (keysOf members).Nodup) :
    (∀ key, jsonFindKeyInObject json ts i key = valueIndex key members (i + 1)) ↔
      members.size ≤ 1 := by
  have hLt := h.lt
  obtain ⟨⟨t, hToken, hType, hSize⟩, hMembers⟩ := h.object
  obtain ⟨n, hLength⟩ : ∃ n, ts.length = n + 1 := ⟨ts.length - 1, by
    rw [Value.count] at hLt
    omega⟩
  have hEnd : jsmnContainerEnd ts i = (endStep ts n)^[members.size] (i + 1) := by
    rw [jsmnContainerEnd, hLength, jsmnContainerEnd_step hToken,
      endStep_container hToken (by rw [hType]; rfl), hSize]
  have hFind (key : Bytes) : jsonFindKeyInObject json ts i key =
      findInObjectFrom json ts ((endStep ts n)^[members.size] (i + 1)) key (n + 1) (i + 1) := by
    rw [jsonFindKeyInObject, hToken]
    simp only [hType, hEnd, hLength, ne_eq, not_true_eq_false, if_false]
  constructor
  · intro hAll
    by_contra hTwo
    obtain ⟨key, -, hIndex⟩ := valueIndex_lastKey members (by omega) hDistinct (i + 1)
    have hFound := (hFind key).symm.trans ((hAll key).trans hIndex)
    have hNone (q : Nat) (hQ : i + 1 ≤ q) (hLt : q < i + 1) : endStep ts n q ≤ i + 1 :=
      absurd hQ (Nat.not_le_of_lt hLt)
    have hBound := iterate_members (within_endStep n) keySteps_stepTo members
      (k := members.size) hMembers (by omega) (by omega) (Nat.le_refl _) (Nat.le_refl _) hNone
    have hLate := findInObjectFrom_le hFound
    omega
  · intro hOne key
    rw [hFind]
    cases members with
    | nil =>
      rw [Members.size, Function.iterate_zero_apply, findInObjectFrom, valueIndex, memberAt]
      split
      · rfl
      · rw [if_pos (Nat.lt_irrefl _), Option.map_none]
    | cons before name behindKey beforeValue v behind more =>
      have hNil : more.size = 0 := by
        rw [Members.size] at hOne
        omega
      have hStop : (endStep ts n)^[more.size + 1] (i + 1) = i + 2 := by
        rw [hNil]
        exact keySteps_stepTo (i + 1) _ hMembers (Nat.succ_pos _)
      obtain ⟨⟨keyToken, hKeyToken, hReads⟩, -⟩ := hMembers.cons
      rw [Members.size, hStop, findInObjectFrom, hKeyToken]
      dsimp only
      rw [if_neg (by omega), valueIndex, memberAt]
      by_cases hKey : Json.spelling name = key
      · rw [if_pos ((readsKey_iff hReads).2 hKey), if_pos hKey]
        rfl
      · rw [if_neg (fun h => hKey ((readsKey_iff hReads).1 h)), if_neg hKey]
        cases more with
        | cons => exact absurd hNil (Nat.succ_ne_zero _)
        | nil =>
          rw [memberAt]
          split
          · rfl
          · rw [if_pos (Nat.lt_irrefl _), Option.map_none]

end Keys

/-- **The token tree.** At every value of every text the end is found exactly if no object
in the value has a member; and in every object with distinct keys each key is found exactly
if there is at most one. -/
theorem tokenTree_iff (d : Json.Document) (rest : Bytes) {i : Nat} {v : Value}
    (h : Stands (d.bytes ++ rest) d.tokens i v) :
    (jsmnContainerEnd d.tokens i = i + v.count ↔ noMembers v) ∧
      ∀ pad members, v = .object pad members → (keysOf members).Nodup →
        ((∀ key, jsonFindKeyInObject (d.bytes ++ rest) d.tokens i key =
          valueIndex key members (i + 1)) ↔ members.size ≤ 1) := by
  refine ⟨containerEnd_iff h, ?_⟩
  rintro pad members rfl hDistinct
  exact findInObject_iff h hDistinct

section Examples

theorem noPad_blank : ∀ b ∈ ([] : Bytes), Json.blank b := List.forall_mem_nil _

def noPad : Json.Blanks := ⟨[], noPad_blank⟩

def wordOne : Json.Word := ⟨ascii "1", by decide, List.all_iff_forall_prop.1 (by decide)⟩

def plainPieces (s : Bytes) (h : ∀ b ∈ s, 0x20 ≤ b ∧ b ≠ 0x22 ∧ b ≠ 0x5C) : List Json.Piece :=
  s.pmap Json.Piece.plain h

/-- `[1]` -/
def oneItem : Json.Document := ⟨noPad, .array noPad (.cons noPad (.word wordOne) noPad
  .nil), noPad⟩

theorem oneItem_end : jsmnContainerEnd oneItem.tokens 0 = 2 :=
  (tokenTree_iff oneItem [] (oneItem.stands [])).1.2 rfl

/-- `{"a":1}` -/
def oneMember : Json.Document := ⟨noPad, .object noPad (.cons noPad
  (plainPieces (ascii "a") (List.all_iff_forall_prop.1 (by decide))) noPad noPad
  (.word wordOne) noPad .nil), noPad⟩

/-- Its end is taken to be in front of its value. -/
theorem oneMember_end : ¬∀ (d : Json.Document) (rest : Bytes) (i : Nat) (v : Value),
    Stands (d.bytes ++ rest) d.tokens i v → jsmnContainerEnd d.tokens i = i + v.count := by
  intro hAll
  have hEnd := hAll oneMember [] 0 oneMember.value (oneMember.stands [])
  revert hEnd
  decide +kernel

end Examples

end EspMiplay.Lyrics
