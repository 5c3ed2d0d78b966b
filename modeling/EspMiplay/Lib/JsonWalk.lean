import EspMiplay.Lib.Json

/-!
# Walking over a JSON text

What an array and an object hold, and a walk over the bytes of a text that only keeps whether
it is in a string. It ends outside, and meets no control character inside, on every JSON text
(`Document.walk_bytes`): a text of which this is not so is none.
-/

namespace Json

-- ---------------------------------------------------------------------------
-- What is in a value
-- ---------------------------------------------------------------------------

def Items.values : Items → List Value
  | .nil => []
  | .cons _ v _ more => v :: more.values

/-- The members, by the spelling of their keys -/
def Members.pairs : Members → List (List UInt8 × Value)
  | .nil => []
  | .cons _ key _ _ v _ more => (spelling key, v) :: more.pairs

-- ---------------------------------------------------------------------------
-- The walk
-- ---------------------------------------------------------------------------

inductive Place where
  | outside
  | inside
  /-- behind a backslash -/
  | escaped
  deriving DecidableEq

def Place.step : Place → UInt8 → Option Place
  | .outside, b => some (if b = 0x22 then .inside else .outside)
  | .inside, b =>
    if b < 0x20 then none
    else some (if b = 0x22 then .outside else if b = 0x5C then .escaped else .inside)
  | .escaped, b => if b < 0x20 then none else some .inside

def walk (place : Place) (p : List UInt8) : Option Place := p.foldlM Place.step place

section Walk

variable {place : Place} {p q : List UInt8} {b : UInt8}

@[simp] theorem walk_nil (place : Place) : walk place [] = some place := rfl

theorem walk_cons (place : Place) (b : UInt8) (p : List UInt8) :
    walk place (b :: p) = (place.step b).bind fun next => walk next p := List.foldlM_cons

theorem walk_append (place : Place) (p q : List UInt8) :
    walk place (p ++ q) = (walk place p).bind fun next => walk next q := List.foldlM_append

theorem walk_trans {next : Place} (h : walk place p = some next) (q : List UInt8) :
    walk place (p ++ q) = walk next q := by
  rw [walk_append, h, Option.bind_some]

/-- Without a quote one stays outside. -/
theorem walk_outside (h : ∀ b ∈ p, b ≠ 0x22) : walk .outside p = some .outside := by
  induction p with
  | nil => rfl
  | cons b p ih =>
    obtain ⟨hFirst, hRest⟩ := List.forall_mem_cons.1 h
    rw [walk_cons, Place.step, if_neg hFirst, Option.bind_some, ih hRest]

/-- With plain characters only one stays inside. -/
theorem walk_inside (h : ∀ b ∈ p, ¬b < 0x20 ∧ b ≠ 0x22 ∧ b ≠ 0x5C) :
    walk .inside p = some .inside := by
  induction p with
  | nil => rfl
  | cons b p ih =>
    obtain ⟨⟨hControl, hQuote, hSlash⟩, hRest⟩ := List.forall_mem_cons.1 h
    rw [walk_cons, Place.step, if_neg hControl, if_neg hQuote, if_neg hSlash, Option.bind_some,
      ih hRest]

theorem walk_escape (h : ¬b < 0x20) (p : List UInt8) :
    walk .inside (0x5C :: b :: p) = walk .inside p := by
  have hSlash : Place.step .inside 0x5C = some .escaped := rfl
  rw [walk_cons, hSlash, Option.bind_some, walk_cons, Place.step, if_neg h, Option.bind_some]

theorem walk_piece (piece : Piece) : walk .inside piece.bytes = some .inside := by
  cases piece with
  | plain b h =>
    refine walk_inside fun c hMem => ?_
    obtain rfl := List.mem_singleton.1 hMem
    exact ⟨UInt8.not_lt.2 h.1, h.2⟩
  | short letter h =>
    have hLetter : ∀ b ∈ shortEscapes.map Prod.fst, ¬b < 0x20 := by decide +kernel
    exact walk_escape (hLetter letter h) []
  | unicode n ds h =>
    have hDigits : ∀ b ∈ ds, ¬b < 0x20 ∧ b ≠ 0x22 ∧ b ≠ 0x5C := by
      intro b hMem
      refine ⟨?_, (h.plain b hMem).2⟩
      obtain ⟨a, b', c, d, x, y, z, w, rfl, hA, hB, hC, hD, -⟩ := h
      simp only [HexDigit] at hA hB hC hD
      simp only [List.mem_cons, List.not_mem_nil, or_false] at hMem
      rw [UInt8.lt_iff_toNat_lt]
      obtain rfl | rfl | rfl | rfl := hMem <;> simp only [UInt8.reduceToNat] <;> omega
    exact (walk_escape (by decide) ds).trans (walk_inside hDigits)

theorem walk_spelling (ps : List Piece) : walk .inside (spelling ps) = some .inside := by
  induction ps with
  | nil => rfl
  | cons piece ps ih =>
    rw [spelling, List.flatMap_cons, walk_trans (walk_piece piece), ← spelling, ih]

theorem walk_quoted (ps : List Piece) : walk .outside (quoted ps) = some .outside := by
  rw [quoted, walk_cons]
  change walk .inside (spelling ps ++ [0x22]) = _
  rw [walk_trans (walk_spelling ps)]
  rfl

theorem walk_blanks (pad : Blanks) : walk .outside pad.bytes = some .outside := by
  refine walk_outside fun b hMem => ?_
  have hBlank := pad.blank b hMem
  rintro rfl
  revert hBlank
  decide

theorem walk_word (w : Word) : walk .outside w.bytes = some .outside := by
  refine walk_outside fun b hMem => ?_
  have hWord := w.chars b hMem
  rintro rfl
  revert hWord
  decide

end Walk

/-- One more character outside of the strings. -/
theorem walk_sign {b : UInt8} (h : b ≠ 0x22) (p : List UInt8) :
    walk .outside (b :: p) = walk .outside p := by
  rw [walk_cons, Place.step, if_neg h, Option.bind_some]

mutual

theorem Value.walk_bytes (v : Value) : walk .outside v.bytes = some .outside := by
  cases v with
  | word w => exact walk_word w
  | string s => exact walk_quoted s
  | array pad items =>
    rw [Value.bytes, walk_sign (by decide), List.append_assoc, walk_trans (walk_blanks pad),
      walk_trans items.walk_rest]
    rfl
  | object pad members =>
    rw [Value.bytes, walk_sign (by decide), List.append_assoc, walk_trans (walk_blanks pad),
      walk_trans members.walk_rest]
    rfl

/-- Without the comma in front -/
theorem Items.walk_rest (items : Items) : walk .outside (items.bytes.drop 1) = some .outside := by
  cases items with
  | nil => rfl
  | cons before v behind more =>
    rw [Items.bytes, List.drop_one, List.tail_cons, List.append_assoc, List.append_assoc,
      walk_trans (walk_blanks before), walk_trans v.walk_bytes, walk_trans (walk_blanks behind)]
    cases more with
    | nil => rfl
    | cons before v behind more =>
      rw [Items.bytes, walk_sign (by decide)]
      exact Items.walk_rest (.cons before v behind more)

theorem Members.walk_rest (members : Members) :
    walk .outside (members.bytes.drop 1) = some .outside := by
  cases members with
  | nil => rfl
  | cons before key behindKey beforeValue v behind more =>
    rw [Members.bytes, List.drop_one, List.tail_cons, List.append_assoc, List.append_assoc,
      walk_trans (walk_blanks before), walk_trans (walk_quoted key),
      walk_trans (walk_blanks behindKey), walk_sign (by decide), List.append_assoc,
      List.append_assoc, walk_trans (walk_blanks beforeValue), walk_trans v.walk_bytes,
      walk_trans (walk_blanks behind)]
    cases more with
    | nil => rfl
    | cons before key behindKey beforeValue v behind more =>
      rw [Members.bytes, walk_sign (by decide)]
      exact Members.walk_rest (.cons before key behindKey beforeValue v behind more)

end

theorem Document.walk_bytes (d : Document) : walk .outside d.bytes = some .outside := by
  rw [Document.bytes, walk_append, walk_trans (walk_blanks d.before), d.value.walk_bytes,
    Option.bind_some, walk_blanks]

end Json
