import Mathlib.Data.Bool.AllAny
import EspMiplay.Lib.Json
import EspMiplay.Miplay.JsonForm

/-!
# Looking for a member

`miplay_json_find_value` searches the text for the quoted key. It looks at one character in
front of what it finds and, behind blanks, at one behind, but it does not know where strings
begin and end. That is enough: a quote inside a string has a backslash before it, and behind
the quote that closes one there is no letter.

## Results

* `find_string` — what becomes of the search at a string.
* `find_value`, `find_items`, `find_members` — at a value, over the grammar.
* `find_document` — the first member with that key.
-/

namespace EspMiplay.Miplay

/-- A letter, a digit or an underscore. -/
def isIdentChar (c : UInt8) : Bool := isNameChar c || isDigit c

structure Identifier (name : Bytes) : Prop where
  nonempty : name ≠ []
  chars : ∀ c ∈ name, isIdentChar c

section Search

variable {name rest : Bytes} {prev : Option UInt8}

theorem blank_plain {b : UInt8} (h : Json.blank b) :
    jsonSpace b ∧ isIdentChar b = false ∧ b ≠ 0 ∧ b ≠ 0x22 := by
  simp only [Json.blank, decide_eq_true_eq] at h
  rcases h with rfl | rfl | rfl | rfl <;> decide

/-- The character before matters at a quote only. -/
theorem find_prev (hQuote : peek rest ≠ 0x22) (prev prev' : Option UInt8) :
    jsonFindFrom (quote name) prev rest = jsonFindFrom (quote name) prev' rest := by
  cases rest with
  | nil => rfl
  | cons c cs =>
    have hFirst : c ≠ 0x22 := hQuote
    have hPrefix : (quote name).isPrefixOf (c :: cs) = false := by
      simp [quote, List.isPrefixOf, hFirst.symm]
    rw [jsonFindFrom, jsonFindFrom, hPrefix]
    rfl

theorem find_blanks (name : Bytes) (w : Json.Blanks) (prev : Option UInt8) :
    ∃ prev', (∀ rest, jsonFindFrom (quote name) prev (w.bytes ++ rest) =
      jsonFindFrom (quote name) prev' rest) ∧ (atObjectKey prev → atObjectKey prev') := by
  refine ⟨w.bytes.foldl (fun _ c => some c) prev, fun rest => jsonFind_skip fun c hMem => ?_, ?_⟩
  · exact (blank_plain (w.blank c hMem)).2.2
  · have hBlank := w.blank
    generalize w.bytes = line at hBlank
    induction line generalizing prev with
    | nil => exact id
    | cons c cs ih =>
      obtain ⟨hFirst, hTail⟩ := List.forall_mem_cons.1 hBlank
      rw [List.foldl_cons]
      refine fun _ => ih (some c) hTail ?_
      have hSpace := (blank_plain hFirst).1
      simp [atObjectKey, hSpace]

theorem skip_blanks (w : Json.Blanks) (rest : Bytes) :
    skipWhile jsonSpace (w.bytes ++ rest) = skipWhile jsonSpace rest := by
  rw [skipWhile, skipWhile, List.dropWhile_append_of_pos]
  exact fun b hMem => (blank_plain (w.blank b hMem)).1

theorem peek_blanks {w : Json.Blanks} {P : UInt8 → Prop} (hBlank : ∀ b, Json.blank b → P b)
    (hRest : P (peek rest)) : P (peek (w.bytes ++ rest)) := by
  have hAll := w.blank
  cases hBytes : w.bytes with
  | nil => exact hRest
  | cons b bs => exact hBlank b (hAll b (by rw [hBytes]; exact List.mem_cons_self))

-- ---------------------------------------------------------------------------
-- Strings
-- ---------------------------------------------------------------------------

/-- Behind the quote that closes a string no name begins. -/
theorem find_closing (hName : Identifier name) (hRest : isIdentChar (peek rest) = false) :
    jsonFindFrom (quote name) prev (0x22 :: rest) =
      jsonFindFrom (quote name) (some 0x22) rest := by
  refine jsonFind_pass (by decide) fun hPrefix => ?_
  obtain ⟨n, ns, rfl⟩ := List.exists_cons_of_ne_nil hName.nonempty
  have hFirst := hName.chars n List.mem_cons_self
  cases rest with
  | nil => simp [quote, List.isPrefixOf] at hPrefix
  | cons c cs =>
    have hSame : n = c := by
      simp only [quote, List.cons_append, List.isPrefixOf_cons_cons_self, List.isPrefixOf,
        Bool.and_eq_true, beq_iff_eq] at hPrefix
      exact hPrefix.1
    rw [hSame] at hFirst
    rw [peek, List.headD_cons] at hRest
    rw [hFirst] at hRest
    cases hRest

/-- What stands in a string. -/
theorem find_spelling (hName : Identifier name) (ps : List Json.Piece)
    (hRest : isIdentChar (peek rest) = false) (prev : Option UInt8) :
    jsonFindFrom (quote name) prev (Json.spelling ps ++ 0x22 :: rest) =
      jsonFindFrom (quote name) (some 0x22) rest := by
  induction ps generalizing prev with
  | nil => exact find_closing hName hRest
  | cons p ps ih =>
    rw [Json.spelling, List.flatMap_cons, List.append_assoc, ← Json.spelling]
    cases p with
    | plain b h =>
      obtain ⟨hLow, hQuote, -⟩ := h
      have hNul : b ≠ 0 := by
        rintro rfl
        exact absurd hLow (by decide)
      rw [Json.Piece.bytes, List.singleton_append, jsonFind_pass_char hNul hQuote, ih]
    | short letter h =>
      -- the quote that is escaped has the backslash before it
      have hNul : letter ≠ 0 := by
        rintro rfl
        exact absurd h (by decide)
      rw [Json.Piece.bytes, List.cons_append, jsonFind_pass_char (by decide) (by decide),
        List.singleton_append, jsonFind_pass hNul (fun _ => by decide), ih]
    | unicode n ds h =>
      have hPlain : ∀ b ∈ 0x5C :: 0x75 :: ds, b ≠ 0 ∧ b ≠ 0x22 := by
        simpa using fun b hMem => ⟨(h.plain b hMem).1, (h.plain b hMem).2.1⟩
      rw [Json.Piece.bytes, jsonFind_skip hPlain, ih]

/-- A name up to its quote is the spelling up to the closing one. -/
theorem closed_prefix (hChars : ∀ c ∈ name, c ≠ 0x22 ∧ c ≠ 0x5C) (ps : List Json.Piece) :
    name ++ [0x22] <+: Json.spelling ps ++ 0x22 :: rest ↔ Json.spelling ps = name := by
  constructor
  · intro hPrefix
    induction ps generalizing name with
    | nil =>
      cases name with
      | nil => rfl
      | cons n ns =>
        have hFirst := (List.cons_prefix_cons.1 hPrefix).1
        exact absurd hFirst (hChars n List.mem_cons_self).1
    | cons p ps ih =>
      rw [Json.spelling, List.flatMap_cons, ← Json.spelling] at hPrefix ⊢
      cases p with
      | plain b h =>
        cases name with
        | nil => exact absurd (List.cons_prefix_cons.1 hPrefix).1.symm h.2.1
        | cons n ns =>
          obtain ⟨rfl, hRest⟩ := List.cons_prefix_cons.1 hPrefix
          exact congrArg (n :: ·) (ih (fun c hMem => hChars c (List.mem_cons_of_mem _ hMem)) hRest)
      | short letter h =>
        -- no name has a backslash
        cases name with
        | nil => exact absurd (List.cons_prefix_cons.1 hPrefix).1 (by decide)
        | cons n ns =>
          exact absurd (List.cons_prefix_cons.1 hPrefix).1 (hChars n List.mem_cons_self).2
      | unicode n ds h =>
        cases name with
        | nil => exact absurd (List.cons_prefix_cons.1 hPrefix).1 (by decide)
        | cons n ns =>
          exact absurd (List.cons_prefix_cons.1 hPrefix).1 (hChars n List.mem_cons_self).2
  · rintro rfl
    exact ⟨rest, by simp⟩

theorem Identifier.not_quote (hName : Identifier name) : ∀ c ∈ name, c ≠ 0x22 ∧ c ≠ 0x5C := by
  intro c hMem
  have hChar := hName.chars c hMem
  constructor
  all_goals
    rintro rfl
    exact absurd hChar (by decide)

/-- The key of a string of this spelling begins here, and no other. -/
theorem quote_prefix (hName : Identifier name) (ps : List Json.Piece) (rest : Bytes) :
    (quote name).isPrefixOf (Json.quoted ps ++ rest) ↔ Json.spelling ps = name := by
  rw [List.isPrefixOf_iff_prefix, quote, Json.quoted, List.cons_append, List.cons_prefix_cons,
    List.append_assoc, List.singleton_append, closed_prefix hName.not_quote]
  exact and_iff_right rfl

/-- **A string** is found by its spelling, if it is a key. -/
theorem find_string (hName : Identifier name) (ps : List Json.Piece)
    (hRest : isIdentChar (peek rest) = false) :
    jsonFindFrom (quote name) prev (Json.quoted ps ++ rest) =
      if Json.spelling ps = name ∧ atObjectKey prev ∧ peek (skipWhile jsonSpace rest) = 0x3A then
        some (skipWhile jsonSpace ((skipWhile jsonSpace rest).drop 1))
      else jsonFindFrom (quote name) (some 0x22) rest := by
  have hBehind : jsonFindFrom (quote name) (some 0x22) (Json.spelling ps ++ 0x22 :: rest) =
      jsonFindFrom (quote name) (some 0x22) rest := find_spelling hName ps hRest (some 0x22)
  have hText : Json.quoted ps ++ rest = 0x22 :: (Json.spelling ps ++ 0x22 :: rest) := by
    simp [Json.quoted]
  have hPrefix := quote_prefix hName ps rest
  rw [hText] at hPrefix ⊢
  rw [jsonFindFrom]
  by_cases hSame : Json.spelling ps = name
  · have hDrop : (0x22 :: (Json.spelling ps ++ 0x22 :: rest)).drop (quote name).length = rest := by
      rw [hSame, ← quote_append, List.drop_left]
    rw [if_pos (hPrefix.2 hSame), hDrop]
    rw [hSame] at hBehind
    simp only [hSame, true_and, hBehind]
  · rw [if_neg (fun h => hSame (hPrefix.1 h)), if_neg (by decide), hBehind,
      if_neg fun h => hSame h.1]

end Search

-- ---------------------------------------------------------------------------
-- Values
-- ---------------------------------------------------------------------------

section Values

variable {name rest : Bytes}

/-- Behind the blanks a member, an item or the text ends. -/
def Behind (rest : Bytes) : Prop := peek (skipWhile jsonSpace rest) ∈ [0x2C, 0x5D, 0x7D, 0x00]

theorem Behind.plain (h : Behind rest) :
    isIdentChar (peek rest) = false ∧ peek rest ≠ 0x22 ∧
      peek (skipWhile jsonSpace rest) ≠ 0x3A := by
  have hEnds : ∀ c ∈ [0x2C, 0x5D, 0x7D, (0x00 : UInt8)],
      isIdentChar c = false ∧ c ≠ 0x22 ∧ c ≠ 0x3A := List.all_iff_forall_prop.1 (by decide)
  have hSpace : ∀ c : UInt8, jsonSpace c → isIdentChar c = false ∧ c ≠ 0x22 := by
    intro c hBlank
    simp only [jsonSpace, decide_eq_true_eq] at hBlank
    rcases hBlank with rfl | rfl | rfl | rfl <;> decide
  have hColon := (hEnds _ h).2.2
  cases rest with
  | nil => exact ⟨by decide, by decide, hColon⟩
  | cons c cs =>
    by_cases hBlank : jsonSpace c
    · exact ⟨(hSpace c hBlank).1, (hSpace c hBlank).2, hColon⟩
    · have hMem : peek (c :: cs) ∈ [0x2C, 0x5D, 0x7D, (0x00 : UInt8)] := by
        rwa [Behind, skipWhile, List.dropWhile_cons_of_neg hBlank] at h
      exact ⟨(hEnds _ hMem).1, (hEnds _ hMem).2.1, hColon⟩

theorem behind_blanks (w : Json.Blanks) (hRest : peek rest ∈ [0x2C, 0x5D, 0x7D, 0x00]) :
    Behind (w.bytes ++ rest) := by
  rw [Behind, skip_blanks]
  cases rest with
  | nil => exact hRest
  | cons c cs =>
    have hMem : c ∈ [0x2C, 0x5D, 0x7D, (0x00 : UInt8)] := hRest
    have hBlank : ¬jsonSpace c := by
      simp only [List.mem_cons, List.not_mem_nil, or_false] at hMem
      rcases hMem with rfl | rfl | rfl | rfl <;> decide
    rw [skipWhile, List.dropWhile_cons_of_neg hBlank]
    exact hRest

theorem behind_of_peek (hRest : peek rest ∈ [0x2C, 0x5D, 0x7D, 0x00]) : Behind rest :=
  behind_blanks ⟨[], by simp⟩ hRest

theorem peek_items (items : Json.Items) (hRest : peek rest = 0x5D) :
    peek (items.bytes ++ rest) ∈ [0x2C, 0x5D, 0x7D, 0x00] := by
  cases items with
  | nil => simp [Json.Items.bytes, hRest]
  | cons => simp [Json.Items.bytes, peek]

theorem peek_members (members : Json.Members) (hRest : peek rest = 0x7D) :
    peek (members.bytes ++ rest) ∈ [0x2C, 0x5D, 0x7D, 0x00] := by
  cases members with
  | nil => simp [Json.Members.bytes, hRest]
  | cons => simp [Json.Members.bytes, peek]

theorem wordByte_plain {b : UInt8} (h : Json.wordByte b) :
    jsonSpace b = false ∧ b ≠ 0 ∧ b ≠ 0x22 := by
  refine ⟨?_, ?_, ?_⟩
  · by_contra hBlank
    simp only [jsonSpace, decide_eq_false_iff_not, not_not] at hBlank
    rcases hBlank with rfl | rfl | rfl | rfl <;> exact absurd h (by decide)
  all_goals
    rintro rfl
    exact absurd h (by decide)

/-- The text behind the first member of the name, or what the search finds behind it all. -/
def foundOr (name : Bytes) (ms : List Json.Found) (other : Option Bytes) : Option Bytes :=
  ((ms.find? fun m => m.key = name).map Json.Found.text).or other

theorem foundOr_nil (other : Option Bytes) : foundOr name [] other = other := rfl

theorem foundOr_append (ms ms' : List Json.Found) (other : Option Bytes) :
    foundOr name (ms ++ ms') other = foundOr name ms (foundOr name ms' other) := by
  rw [foundOr, foundOr, foundOr, List.find?_append]
  cases ms.find? fun m => m.key = name <;> rfl

theorem foundOr_cons (m : Json.Found) (ms : List Json.Found) (other : Option Bytes) :
    foundOr name (m :: ms) other = if m.key = name then some m.text else foundOr name ms other := by
  rw [foundOr, List.find?_cons]
  by_cases hSame : m.key = name
  · simp [hSame]
  · simp [hSame, foundOr]

/-- No blank stands before a value. -/
theorem value_first (v : Json.Value) (rest : Bytes) :
    skipWhile jsonSpace (v.bytes ++ rest) = v.bytes ++ rest := by
  cases v with
  | word w =>
    obtain ⟨c, cs, hForm⟩ := List.exists_cons_of_ne_nil w.nonempty
    have hPlain := wordByte_plain (w.chars c (by rw [hForm]; exact List.mem_cons_self))
    rw [Json.Value.bytes, hForm]
    exact List.dropWhile_cons_of_neg (by simp [hPlain.1])
  | string s => exact List.dropWhile_cons_of_neg (by decide)
  | array pad items => exact List.dropWhile_cons_of_neg (by decide)
  | object pad members => exact List.dropWhile_cons_of_neg (by decide)

/-- The comma in front of an item makes no difference. -/
theorem find_comma_items (name : Bytes) (items : Json.Items) (rest : Bytes) (prev : Option UInt8) :
    ∃ prev', jsonFindFrom (quote name) prev (items.bytes ++ rest) =
      jsonFindFrom (quote name) prev' (items.bytes.drop 1 ++ rest) := by
  cases items with
  | nil => exact ⟨prev, rfl⟩
  | cons before v behind more =>
    refine ⟨some 0x2C, ?_⟩
    rw [Json.Items.bytes, List.cons_append, jsonFind_pass_char (by decide) (by decide)]
    rfl

/-- The comma in front of a member is one a key may stand behind. -/
theorem find_comma_members (name : Bytes) (members : Json.Members) (hRest : peek rest = 0x7D)
    (prev : Option UInt8) :
    ∃ prev', atObjectKey prev' ∧ jsonFindFrom (quote name) prev (members.bytes ++ rest) =
      jsonFindFrom (quote name) prev' (members.bytes.drop 1 ++ rest) := by
  cases members with
  | nil =>
    have hQuote : peek rest ≠ 0x22 := by
      rw [hRest]
      decide
    exact ⟨none, rfl, find_prev hQuote _ _⟩
  | cons before key behindKey beforeValue v behind more =>
    refine ⟨some 0x2C, by decide, ?_⟩
    rw [Json.Members.bytes, List.cons_append, jsonFind_pass_char (by decide) (by decide)]
    rfl

mutual

/-- **A value.** -/
theorem find_value (hName : Identifier name) (v : Json.Value) (prev : Option UInt8) (rest : Bytes)
    (hRest : Behind rest) :
    jsonFindFrom (quote name) prev (v.bytes ++ rest) =
      foundOr name (v.members rest) (jsonFindFrom (quote name) none rest) := by
  cases v with
  | word w =>
    rw [Json.Value.bytes, Json.Value.members, foundOr_nil,
      jsonFind_skip fun c hMem => (wordByte_plain (w.chars c hMem)).2]
    exact find_prev hRest.plain.2.1 _ _
  | string s =>
    rw [Json.Value.bytes, Json.Value.members, foundOr_nil, find_string hName s hRest.plain.1,
      if_neg fun h => hRest.plain.2.2 h.2.2]
    exact find_prev hRest.plain.2.1 _ _
  | array pad items =>
    obtain ⟨prev', hPad, -⟩ := find_blanks name pad (some 0x5B)
    have hItems := find_items hName items prev' (0x5D :: rest) rfl
    have hText : (Json.Value.array pad items).bytes ++ rest =
        0x5B :: (pad.bytes ++ (items.bytes.drop 1 ++ 0x5D :: rest)) := by
      simp [Json.Value.bytes]
    rw [hText, jsonFind_pass_char (by decide) (by decide), hPad, hItems, Json.Value.members,
      jsonFind_pass_char (by decide) (by decide), find_prev hRest.plain.2.1 (some 0x5D) none]
  | object pad members =>
    obtain ⟨prev', hPad, hKey⟩ := find_blanks name pad (some 0x7B)
    have hMembers := find_members hName members prev' (0x7D :: rest) (hKey (by decide)) rfl
    have hText : (Json.Value.object pad members).bytes ++ rest =
        0x7B :: (pad.bytes ++ (members.bytes.drop 1 ++ 0x7D :: rest)) := by
      simp [Json.Value.bytes]
    rw [hText, jsonFind_pass_char (by decide) (by decide), hPad, hMembers, Json.Value.members,
      jsonFind_pass_char (by decide) (by decide), find_prev hRest.plain.2.1 (some 0x7D) none]

theorem find_items (hName : Identifier name) (items : Json.Items) (prev : Option UInt8)
    (rest : Bytes) (hRest : peek rest = 0x5D) :
    jsonFindFrom (quote name) prev (items.bytes.drop 1 ++ rest) =
      foundOr name (items.members rest) (jsonFindFrom (quote name) none rest) := by
  cases items with
  | nil =>
    have hQuote : peek rest ≠ 0x22 := by
      rw [hRest]
      decide
    exact find_prev hQuote _ _
  | cons before v behind more =>
    have hBehind : Behind (behind.bytes ++ (more.bytes ++ rest)) :=
      behind_blanks behind (peek_items more hRest)
    obtain ⟨front, hBefore, -⟩ := find_blanks name before prev
    obtain ⟨back, hBack, -⟩ := find_blanks name behind none
    obtain ⟨comma, hComma⟩ := find_comma_items name more rest back
    have hText : (Json.Items.cons before v behind more).bytes.drop 1 ++ rest =
        before.bytes ++ (v.bytes ++ (behind.bytes ++ (more.bytes ++ rest))) := by
      simp [Json.Items.bytes]
    rw [hText, hBefore, find_value hName v front _ hBehind, hBack, hComma,
      find_items hName more comma rest hRest, Json.Items.members, foundOr_append,
      List.append_assoc]

theorem find_members (hName : Identifier name) (members : Json.Members) (prev : Option UInt8)
    (rest : Bytes) (hPrev : atObjectKey prev) (hRest : peek rest = 0x7D) :
    jsonFindFrom (quote name) prev (members.bytes.drop 1 ++ rest) =
      foundOr name (members.members rest) (jsonFindFrom (quote name) none rest) := by
  cases members with
  | nil =>
    have hQuote : peek rest ≠ 0x22 := by
      rw [hRest]
      decide
    exact find_prev hQuote _ _
  | cons before key behindKey beforeValue v behind more =>
    have hBehind : Behind (behind.bytes ++ (more.bytes ++ rest)) :=
      behind_blanks behind (peek_members more hRest)
    obtain ⟨front, hBefore, hKey⟩ := find_blanks name before prev
    obtain ⟨quoteEnd, hColon, -⟩ := find_blanks name behindKey (some 0x22)
    obtain ⟨colon, hValue, -⟩ := find_blanks name beforeValue (some 0x3A)
    obtain ⟨back, hBack, -⟩ := find_blanks name behind none
    obtain ⟨comma, hCommaKey, hComma⟩ := find_comma_members name more hRest back
    have hText : (Json.Members.cons before key behindKey beforeValue v behind more).bytes.drop 1 ++
        rest = before.bytes ++ (Json.quoted key ++ (behindKey.bytes ++ 0x3A ::
          (beforeValue.bytes ++ (v.bytes ++ (behind.bytes ++ (more.bytes ++ rest)))))) := by
      simp [Json.Members.bytes]
    have hPeek : isIdentChar (peek (behindKey.bytes ++ 0x3A :: (beforeValue.bytes ++
        (v.bytes ++ (behind.bytes ++ (more.bytes ++ rest)))))) = false :=
      peek_blanks (fun b h => (blank_plain h).2.1) (show isIdentChar 0x3A = false by decide)
    have hSkip : skipWhile jsonSpace (0x3A :: (beforeValue.bytes ++ (v.bytes ++ (behind.bytes ++
        (more.bytes ++ rest))))) = 0x3A :: (beforeValue.bytes ++ (v.bytes ++ (behind.bytes ++
          (more.bytes ++ rest)))) := List.dropWhile_cons_of_neg (by decide)
    rw [hText, hBefore, find_string hName key hPeek, skip_blanks, hSkip, Json.Members.members,
      foundOr_cons]
    by_cases hSame : Json.spelling key = name
    · rw [if_pos ⟨hSame, hKey hPrev, rfl⟩, if_pos hSame, List.drop_one, List.tail_cons,
        skip_blanks, value_first]
      simp
    · rw [if_neg fun h => hSame h.1, if_neg hSame, hColon,
        jsonFind_pass_char (by decide) (by decide), hValue, find_value hName v colon _ hBehind,
        hBack, hComma, find_members hName more comma rest hCommaKey hRest, foundOr_append,
        List.append_assoc]

end

/-- **A text.** The search ends at the value of the first member with that key. -/
theorem find_document (d : Json.Document) (name : Bytes) (hName : Identifier name)
    (behind : Bytes) :
    miplayJsonFindValue (d.bytes ++ 0 :: behind) (quote name) = d.first name (0 :: behind) := by
  obtain ⟨front, hBefore, -⟩ := find_blanks name d.before none
  obtain ⟨back, hBack, -⟩ := find_blanks name d.behind none
  have hText : d.bytes ++ 0 :: behind =
      d.before.bytes ++ (d.value.bytes ++ (d.behind.bytes ++ 0 :: behind)) := by
    simp [Json.Document.bytes]
  have hEnd : Behind (d.behind.bytes ++ 0 :: behind) :=
    behind_blanks d.behind (show (0 : UInt8) ∈ [0x2C, 0x5D, 0x7D, 0x00] by decide)
  rw [miplayJsonFindValue, hText, hBefore, find_value hName d.value front _ hEnd, hBack,
    jsonFindFrom_nul (quote_headD name), foundOr, Option.or_none]
  rfl

end Values

def noBlanks : Json.Blanks := ⟨[], by simp⟩

def oneBlank : Json.Blanks := ⟨[0x20], by simp [Json.blank]⟩

/-- `{"art":"\"title\":1,", "title" :2}`: the text in front looks like the member. -/
def titleInText : Json.Document where
  before := noBlanks
  value := .object noBlanks
    (.cons noBlanks
      ((ascii "art").pmap Json.Piece.plain (List.all_iff_forall_prop.1 (by decide)))
      noBlanks noBlanks
      (.string (.short 0x22 (by decide) ::
        (ascii "title").pmap Json.Piece.plain (List.all_iff_forall_prop.1 (by decide)) ++
          .short 0x22 (by decide) ::
            (ascii ":1,").pmap Json.Piece.plain (List.all_iff_forall_prop.1 (by decide)))) noBlanks
      (.cons oneBlank
        ((ascii "title").pmap Json.Piece.plain (List.all_iff_forall_prop.1 (by decide)))
        oneBlank noBlanks
        (.word ⟨ascii "2", by decide, List.all_iff_forall_prop.1 (by decide)⟩) noBlanks .nil))
  behind := noBlanks

theorem titleInText_found :
    miplayJsonFindValue (titleInText.bytes ++ [0]) (quote (ascii "title")) =
      some (ascii "2\x7d" ++ [0]) :=
  (find_document titleInText (ascii "title")
    ⟨by decide, List.all_iff_forall_prop.1 (by decide)⟩ []).trans (by decide +kernel)

end EspMiplay.Miplay
