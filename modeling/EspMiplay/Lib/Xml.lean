import Mathlib.Data.List.Forall2
import Mathlib.Data.List.TakeWhile

/-!
# Escaped texts of XML

Character data and attribute values as the bytes of a document: bytes that stand for
themselves, and references to characters.

- `refChar` gives the character of a reference, by name or by number.
- `render` and `decode` are what stands in the document, and what it means. `Decodes` relates
  the two: a text that can be read can be read in one way only (`Decodes.unique`).
- A reference is longer than the character it means; so a text that means itself has none
  (`decodes_self_iff`).
-/

namespace Xml

abbrev Bytes := List UInt8

-- ---------------------------------------------------------------------------
-- References
-- ---------------------------------------------------------------------------

def decDigit (c : UInt8) : Option Nat :=
  if 0x30 ≤ c.toNat ∧ c.toNat ≤ 0x39 then some (c.toNat - 0x30) else none

def hexDigit (c : UInt8) : Option Nat :=
  if 0x30 ≤ c.toNat ∧ c.toNat ≤ 0x39 then some (c.toNat - 0x30)
  else if 0x61 ≤ c.toNat ∧ c.toNat ≤ 0x66 then some (c.toNat - 0x57)
  else if 0x41 ≤ c.toNat ∧ c.toNat ≤ 0x46 then some (c.toNat - 0x37)
  else none

/-- The number of a string of digits, from `acc` on. -/
def number (base : Nat) (digit : UInt8 → Option Nat) : Nat → Bytes → Option Nat
  | acc, [] => some acc
  | acc, c :: cs => (digit c).bind fun d => number base digit (base * acc + d) cs

/-- The character with the number, which is not NUL. -/
def charOf (n : Nat) : Option Char := if n.isValidChar ∧ n ≠ 0 then some (Char.ofNat n) else none

/-- The character that is referred to between the ampersand and the semicolon. -/
def refChar (body : Bytes) : Option Char :=
  if body = [0x61, 0x6D, 0x70] then some '&'
  else if body = [0x6C, 0x74] then some '<'
  else if body = [0x67, 0x74] then some '>'
  else if body = [0x71, 0x75, 0x6F, 0x74] then some (Char.ofNat 0x22)
  else if body = [0x61, 0x70, 0x6F, 0x73] then some (Char.ofNat 0x27)
  else
    match body with
    | 0x23 :: 0x78 :: d :: ds => (number 16 hexDigit 0 (d :: ds)).bind charOf
    | 0x23 :: d :: ds => (number 10 decDigit 0 (d :: ds)).bind charOf
    | _ => none

/-- A byte that can stand between the ampersand and the semicolon. -/
def isRefByte (c : UInt8) : Bool :=
  c = 0x23 || (0x30 ≤ c && c ≤ 0x39) || (0x41 ≤ c && c ≤ 0x5A) || (0x61 ≤ c && c ≤ 0x7A)

theorem isRefByte_of_hexDigit {c : UInt8} (h : (hexDigit c).isSome) : isRefByte c := by
  simp only [isRefByte, Bool.or_eq_true, Bool.and_eq_true, decide_eq_true_eq, UInt8.le_iff_toNat_le]
  unfold hexDigit at h
  split_ifs at h with hDigit hLower hUpper
  · exact .inl (.inl (.inr hDigit))
  · exact .inr ⟨hLower.1, hLower.2.trans (by decide)⟩
  · exact .inl (.inr ⟨hUpper.1, hUpper.2.trans (by decide)⟩)
  · cases h

theorem isRefByte_of_decDigit {c : UInt8} (h : (decDigit c).isSome) : isRefByte c := by
  refine isRefByte_of_hexDigit ?_
  unfold decDigit at h
  split_ifs at h with hDigit
  · rw [hexDigit, if_pos hDigit]
    rfl
  · cases h

/-- A number has digits only. -/
theorem number_digits {base : Nat} {digit : UInt8 → Option Nat} {acc n : Nat} {cs : Bytes}
    (h : number base digit acc cs = some n) : ∀ c ∈ cs, (digit c).isSome := by
  induction cs generalizing acc with
  | nil => simp
  | cons c cs ih =>
    obtain ⟨d, hDigit, hRest⟩ := Option.bind_eq_some_iff.1 h
    rw [List.forall_mem_cons]
    exact ⟨by rw [hDigit]; rfl, ih hRest⟩

theorem charOf_eq {n : Nat} {c : Char} (h : charOf n = some c) : c.toNat = n ∧ n ≠ 0 := by
  rw [charOf] at h
  split_ifs at h with hValid
  obtain rfl := Option.some.inj h
  refine ⟨?_, hValid.2⟩
  rw [Char.ofNat, dif_pos hValid.1]
  rfl

/-- What a reference by number is made of. -/
theorem refChar_cases {body : Bytes} {c : Char} (h : refChar body = some c) :
    body ∈ [[0x61, 0x6D, 0x70], [0x6C, 0x74], [0x67, 0x74], [0x71, 0x75, 0x6F, 0x74],
      [0x61, 0x70, 0x6F, 0x73]] ∧ c.toNat < 0x80 ∨
    (∃ d ds, body = 0x23 :: 0x78 :: d :: ds ∧ number 16 hexDigit 0 (d :: ds) = some c.toNat) ∨
    ∃ d ds, body = 0x23 :: d :: ds ∧ number 10 decDigit 0 (d :: ds) = some c.toNat := by
  unfold refChar at h
  split_ifs at h with hAmp hLt hGt hQuot hApos
  any_goals
    obtain rfl := Option.some.inj h
    exact .inl ⟨by simp [*], by decide⟩
  split at h
  · obtain ⟨n, hNumber, hChar⟩ := Option.bind_eq_some_iff.1 h
    exact .inr (.inl ⟨_, _, rfl, by rw [(charOf_eq hChar).1]; exact hNumber⟩)
  · obtain ⟨n, hNumber, hChar⟩ := Option.bind_eq_some_iff.1 h
    exact .inr (.inr ⟨_, _, rfl, by rw [(charOf_eq hChar).1]; exact hNumber⟩)
  · cases h

theorem refChar_ne_zero {body : Bytes} {c : Char} (h : refChar body = some c) : c.toNat ≠ 0 := by
  unfold refChar at h
  split_ifs at h
  any_goals
    obtain rfl := Option.some.inj h
    decide
  split at h
  · obtain ⟨n, -, hChar⟩ := Option.bind_eq_some_iff.1 h
    rw [(charOf_eq hChar).1]
    exact (charOf_eq hChar).2
  · obtain ⟨n, -, hChar⟩ := Option.bind_eq_some_iff.1 h
    rw [(charOf_eq hChar).1]
    exact (charOf_eq hChar).2
  · cases h

theorem refChar_bytes {body : Bytes} {c : Char} (h : refChar body = some c) :
    ∀ b ∈ body, isRefByte b := by
  rcases refChar_cases h with ⟨hName, -⟩ | ⟨d, ds, rfl, hNumber⟩ | ⟨d, ds, rfl, hNumber⟩
  · simp only [List.mem_cons, List.not_mem_nil, or_false] at hName
    rcases hName with rfl | rfl | rfl | rfl | rfl <;> decide +kernel
  · rw [List.forall_mem_cons, List.forall_mem_cons]
    exact ⟨by decide, by decide, fun b hb => isRefByte_of_hexDigit (number_digits hNumber b hb)⟩
  · rw [List.forall_mem_cons]
    exact ⟨by decide, fun b hb => isRefByte_of_decDigit (number_digits hNumber b hb)⟩

theorem refChar_not_mem {body : Bytes} {c : Char} (h : refChar body = some c) {b : UInt8}
    (hb : isRefByte b = false) : b ∉ body := by
  intro hMem
  rw [refChar_bytes h b hMem] at hb
  cases hb

/-- A reference is longer than its character. -/
theorem refChar_longer {body : Bytes} {c : Char} (h : refChar body = some c) :
    c.utf8Size < body.length + 2 := by
  have hOne (hAscii : c.toNat < 0x80) : c.utf8Size = 1 := by
    rw [Char.utf8Size, if_pos]
    exact Nat.le_of_lt_succ hAscii
  have hFour := c.utf8Size_le_four
  rcases refChar_cases h with ⟨hName, hAscii⟩ | ⟨d, ds, rfl, hNumber⟩ | ⟨d, ds, rfl, hNumber⟩
  · rw [hOne hAscii]
    simp only [List.mem_cons, List.not_mem_nil, or_false] at hName
    rcases hName with rfl | rfl | rfl | rfl | rfl <;> decide +kernel
  · simp only [List.length_cons]
    omega
  · simp only [List.length_cons]
    cases ds with
    | cons e ds =>
      simp only [List.length_cons]
      omega
    | nil =>
      -- one digit is a number below ten
      obtain ⟨n, hDigit, hEnd⟩ := Option.bind_eq_some_iff.1 hNumber
      have hSmall : c.toNat < 10 := by
        rw [number] at hEnd
        rw [decDigit] at hDigit
        split_ifs at hDigit with hRange
        have := Option.some.inj hDigit
        have := Option.some.inj hEnd
        omega
      rw [hOne (by omega)]
      simp

-- ---------------------------------------------------------------------------
-- Texts
-- ---------------------------------------------------------------------------

/-- Where a text stands: the bytes that end it, and what a byte of it is read as. -/
structure Mode where
  stops : Bytes
  read : UInt8 → UInt8

/-- Between two tags. -/
def Mode.text : Mode where
  stops := [0x3C]
  read c := c

/-- Between the quotes of an attribute, where tabs and line ends are read as spaces. -/
def Mode.attr : Mode where
  stops := [0x3C, 0x22]
  read c := if c = 0x09 ∨ c = 0x0A ∨ c = 0x0D then 0x20 else c

/-- A byte that stands for itself, or a reference. -/
inductive Item where
  | byte (c : UInt8)
  | ref (body : Bytes)
  deriving DecidableEq

namespace Item

def render : Item → Bytes
  | byte c => [c]
  | ref body => 0x26 :: body ++ [0x3B]

def decode (m : Mode) : Item → Bytes
  | byte c => [m.read c]
  | ref body => ((refChar body).map String.utf8EncodeChar).getD []

/-- The item may stand there. -/
def Ok (m : Mode) : Item → Prop
  | byte c => c ∉ m.stops ∧ c ≠ 0x26 ∧ c ≠ 0
  | ref body => (refChar body).isSome

instance (m : Mode) : (i : Item) → Decidable (i.Ok m)
  | byte c => inferInstanceAs (Decidable (c ∉ m.stops ∧ c ≠ 0x26 ∧ c ≠ 0))
  | ref body => inferInstanceAs (Decidable ((refChar body).isSome = true))

end Item

def render (t : List Item) : Bytes := t.flatMap Item.render

def decode (m : Mode) (t : List Item) : Bytes := t.flatMap (Item.decode m)

def Ok (m : Mode) (t : List Item) : Prop := ∀ i ∈ t, i.Ok m

instance (m : Mode) (t : List Item) : Decidable (Ok m t) :=
  inferInstanceAs (Decidable (∀ i ∈ t, i.Ok m))

@[simp] theorem render_nil : render [] = [] := rfl

@[simp] theorem render_cons (i : Item) (t : List Item) : render (i :: t) = i.render ++ render t :=
  List.flatMap_cons

@[simp] theorem render_append (t u : List Item) : render (t ++ u) = render t ++ render u :=
  List.flatMap_append

section

variable (m : Mode)

@[simp] theorem decode_nil : decode m [] = [] := rfl

@[simp] theorem decode_cons (i : Item) (t : List Item) :
    decode m (i :: t) = i.decode m ++ decode m t :=
  List.flatMap_cons

@[simp] theorem decode_append (t u : List Item) : decode m (t ++ u) = decode m t ++ decode m u :=
  List.flatMap_append

end

variable {m : Mode} {t u : List Item}

theorem Ok.append (ht : Ok m t) (hu : Ok m u) : Ok m (t ++ u) :=
  List.forall_mem_append.2 ⟨ht, hu⟩

/-- What ends at the first stop is determined. -/
theorem stop_unique {q : UInt8} {a b r s : Bytes} (ha : q ∉ a) (hb : q ∉ b)
    (h : a ++ q :: r = b ++ q :: s) : a = b ∧ r = s := by
  induction a generalizing b with
  | nil =>
    cases b with
    | nil => exact ⟨rfl, (List.cons.inj h).2⟩
    | cons d b =>
      obtain ⟨rfl, -⟩ := List.cons.inj h
      exact absurd List.mem_cons_self hb
  | cons c a ih =>
    cases b with
    | nil =>
      obtain ⟨rfl, -⟩ := List.cons.inj h
      exact absurd List.mem_cons_self ha
    | cons d b =>
      obtain ⟨rfl, hRest⟩ := List.cons.inj h
      rw [List.mem_cons, not_or] at ha hb
      obtain ⟨rfl, hEnd⟩ := ih ha.2 hb.2 hRest
      exact ⟨rfl, hEnd⟩

/-- The first item of a text can be told from its bytes. -/
theorem Item.first_unique {i j : Item} {r s : Bytes} (hi : i.Ok m) (hj : j.Ok m)
    (h : i.render ++ r = j.render ++ s) : i = j ∧ r = s := by
  cases i with
  | byte c =>
    cases j with
    | byte d =>
      obtain ⟨rfl, rfl⟩ := List.cons.inj h
      exact ⟨rfl, rfl⟩
    | ref body =>
      obtain ⟨rfl, -⟩ := List.cons.inj h
      exact absurd rfl hi.2.1
  | ref body =>
    cases j with
    | byte d =>
      obtain ⟨hEq, -⟩ := List.cons.inj h
      exact absurd hEq.symm hj.2.1
    | ref body' =>
      obtain ⟨c, hc⟩ := Option.isSome_iff_exists.1 hi
      obtain ⟨c', hc'⟩ := Option.isSome_iff_exists.1 hj
      have hBodies : body ++ 0x3B :: r = body' ++ 0x3B :: s := by
        simpa [Item.render] using h
      obtain ⟨rfl, hRest⟩ :=
        stop_unique (refChar_not_mem hc (by decide)) (refChar_not_mem hc' (by decide)) hBodies
      exact ⟨rfl, hRest⟩

theorem Item.render_ne_nil (i : Item) : i.render ≠ [] := by
  cases i <;> simp [Item.render]

/-- A text is read in one way. -/
theorem render_injective (ht : Ok m t) (hu : Ok m u) (h : render t = render u) : t = u := by
  induction t generalizing u with
  | nil =>
    cases u with
    | nil => rfl
    | cons j u =>
      rw [render_nil, render_cons] at h
      exact absurd (List.append_eq_nil_iff.1 h.symm).1 j.render_ne_nil
  | cons i t ih =>
    cases u with
    | nil =>
      rw [render_nil, render_cons] at h
      exact absurd (List.append_eq_nil_iff.1 h).1 i.render_ne_nil
    | cons j u =>
      obtain ⟨hi, ht'⟩ := List.forall_mem_cons.1 ht
      obtain ⟨hj, hu'⟩ := List.forall_mem_cons.1 hu
      rw [render_cons, render_cons] at h
      obtain ⟨rfl, hRest⟩ := Item.first_unique hi hj h
      rw [ih ht' hu' hRest]

/-- The bytes of the document are a text with this meaning. -/
def Decodes (m : Mode) (raw plain : Bytes) : Prop :=
  ∃ t, Ok m t ∧ render t = raw ∧ decode m t = plain

theorem Decodes.unique {raw p q : Bytes} (hp : Decodes m raw p) (hq : Decodes m raw q) :
    p = q := by
  obtain ⟨t, ht, rfl, rfl⟩ := hp
  obtain ⟨u, hu, hSame, rfl⟩ := hq
  rw [render_injective ht hu hSame.symm]

theorem Decodes.append {a b p q : Bytes} (ha : Decodes m a p) (hb : Decodes m b q) :
    Decodes m (a ++ b) (p ++ q) := by
  obtain ⟨t, ht, rfl, rfl⟩ := ha
  obtain ⟨u, hu, rfl, rfl⟩ := hb
  exact ⟨t ++ u, ht.append hu, render_append t u, decode_append m t u⟩

theorem Decodes.nil : Decodes m [] [] := ⟨[], by simp [Ok], rfl, rfl⟩

-- ---------------------------------------------------------------------------
-- Texts that mean themselves
-- ---------------------------------------------------------------------------

theorem Item.decode_length {i : Item} (hi : i.Ok m) :
    (i.decode m).length ≤ i.render.length ∧
      ((i.decode m).length = i.render.length → ∃ c, i = .byte c) := by
  cases i with
  | byte c => exact ⟨le_rfl, fun _ => ⟨c, rfl⟩⟩
  | ref body =>
    obtain ⟨c, hc⟩ := Option.isSome_iff_exists.1 hi
    have hLonger := refChar_longer hc
    have hDecode : ((Item.ref body).decode m).length = c.utf8Size := by
      rw [Item.decode, hc, Option.map_some, Option.getD_some, String.length_utf8EncodeChar]
    have hRender : (Item.ref body).render.length = body.length + 2 := by
      simp [Item.render]
    exact ⟨by omega, fun hEq => by omega⟩

theorem decode_length (ht : Ok m t) :
    (decode m t).length ≤ (render t).length ∧
      ((decode m t).length = (render t).length → ∀ i ∈ t, ∃ c, i = .byte c) := by
  induction t with
  | nil => simp
  | cons i t ih =>
    obtain ⟨hi, ht'⟩ := List.forall_mem_cons.1 ht
    obtain ⟨hLe, hEq⟩ := Item.decode_length hi
    obtain ⟨hLe', hEq'⟩ := ih ht'
    rw [render_cons, decode_cons, List.length_append, List.length_append, List.forall_mem_cons]
    exact ⟨by omega, fun hSame => ⟨hEq (by omega), hEq' (by omega)⟩⟩

theorem Decodes.length_le {raw plain : Bytes} (h : Decodes m raw plain) :
    plain.length ≤ raw.length := by
  obtain ⟨t, ht, rfl, rfl⟩ := h
  exact (decode_length ht).1

theorem render_bytes (cs : Bytes) : render (cs.map .byte) = cs := by
  rw [render, List.flatMap_map]
  exact List.flatMap_singleton' cs

theorem decode_bytes (m : Mode) (cs : Bytes) : decode m (cs.map .byte) = cs.map m.read := by
  rw [decode, List.flatMap_map]
  exact List.flatMap_pure_eq_map m.read cs

/-- **Texts without references.** A text that is as long as its meaning has no reference, and
each of its bytes stands for itself. -/
theorem decodes_self_iff {raw : Bytes} :
    Decodes m raw raw ↔ ∀ c ∈ raw, (c ∉ m.stops ∧ c ≠ 0x26 ∧ c ≠ 0) ∧ m.read c = c := by
  constructor
  · rintro ⟨t, ht, hRender, hDecode⟩
    -- as long as its meaning, so without references
    have hBytes := (decode_length ht).2 (by rw [hRender, hDecode])
    obtain ⟨cs, rfl⟩ : ∃ cs : Bytes, t = cs.map .byte := by
      clear hRender hDecode ht
      induction t with
      | nil => exact ⟨[], rfl⟩
      | cons i t ih =>
        obtain ⟨⟨c, rfl⟩, hBytes'⟩ := List.forall_mem_cons.1 hBytes
        obtain ⟨cs, rfl⟩ := ih hBytes'
        exact ⟨c :: cs, rfl⟩
    rw [render_bytes] at hRender
    subst hRender
    rw [decode_bytes] at hDecode
    have hRead := List.map_inj_left.1 (hDecode.trans (List.map_id cs).symm)
    exact fun c hc => ⟨ht _ (List.mem_map_of_mem hc), hRead c hc⟩
  · intro hAll
    refine ⟨raw.map .byte, ?_, render_bytes raw, ?_⟩
    · intro i hi
      obtain ⟨c, hc, rfl⟩ := List.mem_map.1 hi
      exact (hAll c hc).1
    · have hRead := List.map_inj_left.2 fun c hc => (hAll c hc).2
      exact (decode_bytes m raw).trans (hRead.trans (List.map_id raw))

/-- What ends a text is not in it. -/
theorem Decodes.not_mem {raw plain : Bytes} (h : Decodes m raw plain) {c : UInt8}
    (hStop : c ∈ m.stops) (hRef : isRefByte c = false) (hAmp : c ≠ 0x26) (hEnd : c ≠ 0x3B) :
    c ∉ raw := by
  obtain ⟨t, ht, rfl, -⟩ := h
  intro hMem
  rw [render, List.mem_flatMap] at hMem
  obtain ⟨i, hi, hc⟩ := hMem
  cases i with
  | byte d =>
    obtain rfl := List.mem_singleton.1 hc
    exact (ht _ hi).1 hStop
  | ref body =>
    obtain ⟨ch, hch⟩ := Option.isSome_iff_exists.1 (ht _ hi)
    have hBody := refChar_not_mem hch hRef
    simp [Item.render, hAmp, hEnd, hBody] at hc

end Xml
