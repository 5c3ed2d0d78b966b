import Mathlib.Data.List.Basic
import EspMiplay.Lib.Utf8

/-!
# JSON texts

The grammar of JSON as trees that keep every byte of the text: the blanks, the spelling of
strings, and the words that numbers and the three literals are.

- `Json.Value.members` are the members of a text at any depth, in the order of the text.
- `Json.Spells` are the ways a character can be written in a string.

Words and raw characters are taken a little wider than the standard has them, so that every
text of the standard is one of these.
-/

namespace Json

-- ---------------------------------------------------------------------------
-- Strings
-- ---------------------------------------------------------------------------

/-- A hexadecimal digit in either case. -/
def HexDigit (v : Nat) (b : UInt8) : Prop :=
  v < 10 ∧ b.toNat = 0x30 + v ∨
    10 ≤ v ∧ v < 16 ∧ (b.toNat = 0x61 + (v - 10) ∨ b.toNat = 0x41 + (v - 10))

instance (v : Nat) (b : UInt8) : Decidable (HexDigit v b) := inferInstanceAs (Decidable (_ ∨ _))

def Hex4 (n : Nat) (ds : List UInt8) : Prop :=
  ∃ a b c d, ∃ a' b' c' d', ds = [a', b', c', d'] ∧ HexDigit a a' ∧ HexDigit b b' ∧
    HexDigit c c' ∧ HexDigit d d' ∧ n = ((a * 16 + b) * 16 + c) * 16 + d

/-- The letters behind a backslash, and what they stand for. -/
def shortEscapes : List (UInt8 × UInt8) :=
  [(0x22, 0x22), (0x5C, 0x5C), (0x2F, 0x2F), (0x62, 0x08), (0x66, 0x0C), (0x6E, 0x0A),
    (0x72, 0x0D), (0x74, 0x09)]

/-- What stands between the quotes, piece by piece. -/
inductive Piece where
  | plain (b : UInt8) (h : 0x20 ≤ b ∧ b ≠ 0x22 ∧ b ≠ 0x5C)
  | short (letter : UInt8) (h : letter ∈ shortEscapes.map Prod.fst)
  | unicode (n : Nat) (ds : List UInt8) (h : Hex4 n ds)

def Piece.bytes : Piece → List UInt8
  | .plain b _ => [b]
  | .short letter _ => [0x5C, letter]
  | .unicode _ ds _ => 0x5C :: 0x75 :: ds

def spelling (ps : List Piece) : List UInt8 := ps.flatMap Piece.bytes

/-- A string with its quotes. -/
def quoted (ps : List Piece) : List UInt8 := 0x22 :: (spelling ps ++ [0x22])

/-- The ways a character can be written. -/
inductive Spells : Char → List UInt8 → Prop
  | raw {c : Char} (hControl : 0x20 ≤ c.toNat) (hQuote : c.toNat ≠ 0x22)
      (hSlash : c.toNat ≠ 0x5C) : Spells c (String.utf8EncodeChar c)
  | short {letter b : UInt8} (h : (letter, b) ∈ shortEscapes) :
      Spells (Char.ofNat b.toNat) [0x5C, letter]
  | unicode {c : Char} {ds : List UInt8} (h : Hex4 c.toNat ds) : Spells c (0x5C :: 0x75 :: ds)
  | pair {c : Char} {hi lo : List UInt8} (hBig : 0x10000 ≤ c.toNat)
      (hHigh : Hex4 (0xD800 + (c.toNat - 0x10000) / 0x400) hi)
      (hLow : Hex4 (0xDC00 + (c.toNat - 0x10000) % 0x400) lo) :
      Spells c (0x5C :: 0x75 :: (hi ++ 0x5C :: 0x75 :: lo))

/-- The ways a text can be written between quotes. -/
inductive SpellsText : List Char → List UInt8 → Prop
  | nil : SpellsText [] []
  | cons {c : Char} {cs : List Char} {w ws : List UInt8} (h : Spells c w)
      (hs : SpellsText cs ws) : SpellsText (c :: cs) (w ++ ws)

theorem HexDigit.plain {v : Nat} {b : UInt8} (h : HexDigit v b) :
    b ≠ 0 ∧ b ≠ 0x22 ∧ b ≠ 0x5C := by
  refine ⟨?_, ?_, ?_⟩ <;>
  · rintro rfl
    simp only [HexDigit, UInt8.reduceToNat] at h
    omega

theorem Hex4.plain {n : Nat} {ds : List UInt8} (h : Hex4 n ds) :
    ∀ b ∈ ds, b ≠ 0 ∧ b ≠ 0x22 ∧ b ≠ 0x5C := by
  obtain ⟨a, b, c, d, a', b', c', d', rfl, hA, hB, hC, hD, -⟩ := h
  simp [hA.plain, hB.plain, hC.plain, hD.plain]

theorem Hex4.length_eq {n : Nat} {ds : List UInt8} (h : Hex4 n ds) : ds.length = 4 := by
  obtain ⟨a, b, c, d, a', b', c', d', rfl, -⟩ := h
  rfl

theorem Hex4.lt {n : Nat} {ds : List UInt8} (h : Hex4 n ds) : n < 0x10000 := by
  obtain ⟨a, b, c, d, a', b', c', d', -, hA, hB, hC, hD, rfl⟩ := h
  simp only [HexDigit] at hA hB hC hD
  omega

/-- A character that is written as it is. -/
theorem raw_plain {c : Char} (hControl : 0x20 ≤ c.toNat) (hQuote : c.toNat ≠ 0x22)
    (hSlash : c.toNat ≠ 0x5C) :
    ∀ b ∈ String.utf8EncodeChar c, b ≠ 0 ∧ b ≠ 0x22 ∧ b ≠ 0x5C := by
  refine fun b hMem => ⟨?_, ?_, ?_⟩
  · rintro rfl
    have hNul := (Utf8.byte_eq_iff hMem (show 0 < 0x80 by decide)).1 rfl
    omega
  · rintro rfl
    exact hQuote ((Utf8.byte_eq_iff hMem (by decide)).1 rfl)
  · rintro rfl
    exact hSlash ((Utf8.byte_eq_iff hMem (by decide)).1 rfl)

/-- A text can be written as it is where no character needs an escape. -/
theorem spellsText_raw {cs : List Char}
    (h : ∀ c ∈ cs, 0x20 ≤ c.toNat ∧ c.toNat ≠ 0x22 ∧ c.toNat ≠ 0x5C) :
    SpellsText cs (Utf8.encode cs) := by
  induction cs with
  | nil => exact .nil
  | cons c cs ih =>
    obtain ⟨⟨hControl, hQuote, hSlash⟩, hTail⟩ := List.forall_mem_cons.1 h
    rw [Utf8.encode_cons]
    exact .cons (.raw hControl hQuote hSlash) (ih hTail)

-- ---------------------------------------------------------------------------
-- Values
-- ---------------------------------------------------------------------------

def blank (b : UInt8) : Bool := b = 0x20 ∨ b = 0x09 ∨ b = 0x0A ∨ b = 0x0D

structure Blanks where
  bytes : List UInt8
  blank : ∀ b ∈ bytes, Json.blank b

/-- The characters of numbers, `true`, `false` and `null`. -/
def wordByte (b : UInt8) : Bool :=
  (0x30 ≤ b ∧ b ≤ 0x39) ∨ (0x61 ≤ b ∧ b ≤ 0x7A) ∨ b = 0x45 ∨ b = 0x2B ∨ b = 0x2D ∨ b = 0x2E

structure Word where
  bytes : List UInt8
  nonempty : bytes ≠ []
  chars : ∀ b ∈ bytes, wordByte b

mutual

inductive Value where
  | word (w : Word)
  | string (s : List Piece)
  | array (pad : Blanks) (items : Items)
  | object (pad : Blanks) (members : Members)

inductive Items where
  | nil
  | cons (before : Blanks) (v : Value) (behind : Blanks) (more : Items)

inductive Members where
  | nil
  | cons (before : Blanks) (key : List Piece) (behindKey beforeValue : Blanks) (v : Value)
      (behind : Blanks) (more : Members)

end

mutual

def Value.bytes : Value → List UInt8
  | .word w => w.bytes
  | .string s => quoted s
  | .array pad items => 0x5B :: (pad.bytes ++ items.bytes.drop 1 ++ [0x5D])
  | .object pad members => 0x7B :: (pad.bytes ++ members.bytes.drop 1 ++ [0x7D])

/-- With a comma in front of each; the first is dropped. -/
def Items.bytes : Items → List UInt8
  | .nil => []
  | .cons before v behind more =>
    0x2C :: (before.bytes ++ v.bytes ++ behind.bytes ++ more.bytes)

def Members.bytes : Members → List UInt8
  | .nil => []
  | .cons before key behindKey beforeValue v behind more =>
    0x2C :: (before.bytes ++ quoted key ++ behindKey.bytes ++
      0x3A :: (beforeValue.bytes ++ v.bytes ++ behind.bytes ++ more.bytes))

end

/-- A member as it is found: the spelling of its key, and the text from its value on. -/
structure Found where
  key : List UInt8
  text : List UInt8

mutual

/-- The members in a value that has this text behind it. -/
def Value.members : Value → List UInt8 → List Found
  | .word _, _ => []
  | .string _, _ => []
  | .array _ items, rest => items.members (0x5D :: rest)
  | .object _ members, rest => members.members (0x7D :: rest)

def Items.members : Items → List UInt8 → List Found
  | .nil, _ => []
  | .cons _ v behind more, rest =>
    v.members (behind.bytes ++ more.bytes ++ rest) ++ more.members rest

def Members.members : Members → List UInt8 → List Found
  | .nil, _ => []
  | .cons _ key _ _ v behind more, rest =>
    ⟨spelling key, v.bytes ++ behind.bytes ++ more.bytes ++ rest⟩ ::
      (v.members (behind.bytes ++ more.bytes ++ rest) ++ more.members rest)

end

/-- A whole text. -/
structure Document where
  before : Blanks
  value : Value
  behind : Blanks

def Document.bytes (d : Document) : List UInt8 :=
  d.before.bytes ++ d.value.bytes ++ d.behind.bytes

/-- The members of a text that has this behind it. -/
def Document.members (d : Document) (rest : List UInt8) : List Found :=
  d.value.members (d.behind.bytes ++ rest)

/-- The text from the value of the first member with that key on. -/
def Document.first (d : Document) (key rest : List UInt8) : Option (List UInt8) :=
  ((d.members rest).find? fun m => m.key = key).map Found.text

end Json
