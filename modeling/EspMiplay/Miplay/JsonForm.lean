import EspMiplay.Miplay.Json

/-!
# JSON as it is written

An object with texts and integers as a phone writes it, and what the reader of
SetMediaInfo finds in it. The reader looks for a quoted key anywhere in the text; in an
object whose keys are made of letters it finds a key only where a member begins,
whatever the texts are.

## Results

* `jsonFind_members`   — a member is found by its name, and nothing else is.
* `Only.copyText`      — a text that fits is read back, a longer one is not.
* `Only.readNumber`    — a 64-bit integer is read back.
-/

namespace EspMiplay.Miplay

/-! ## Writing -/

/-- A character of a JSON string. -/
def jsonEscape (c : UInt8) : Bytes :=
  if c = 0x22 ∨ c = 0x5C then [0x5C, c]
  else if c < 0x20 then [0x5C, 0x75, 0x30, 0x30, hexDigit (c >>> 4), hexDigit (c &&& 0x0F)]
  else [c]

def jsonString (text : Bytes) : Bytes := 0x22 :: (text.flatMap jsonEscape ++ [0x22])

def jsonNumber (n : Int) : Bytes := if n < 0 then 0x2D :: decimal n.natAbs else decimal n.natAbs

/-- A name as a key. -/
def quote (name : Bytes) : Bytes := 0x22 :: (name ++ [0x22])

/-- A letter or an underscore. -/
def isNameChar (c : UInt8) : Bool :=
  (0x61 ≤ c ∧ c ≤ 0x7A) ∨ (0x41 ≤ c ∧ c ≤ 0x5A) ∨ c = 0x5F

/-- A name as members have it: letters, and not too many for a label. -/
structure PlainName (name : Bytes) : Prop where
  nonempty : name ≠ []
  chars : ∀ c ∈ name, isNameChar c
  short : name.length < 64

instance (name : Bytes) : Decidable (PlainName name) :=
  decidable_of_iff (name ≠ [] ∧ name.all isNameChar ∧ name.length < 64)
    ⟨fun h => ⟨h.1, List.all_eq_true.1 h.2.1, h.2.2⟩,
      fun h => ⟨h.1, List.all_eq_true.2 h.2, h.3⟩⟩

/-- What a member says, in either form. -/
inductive MemberValue where
  | text (t : Bytes)
  | number (n : Int)
  deriving DecidableEq

def MemberValue.json : MemberValue → Bytes
  | .text t => jsonString t
  | .number n => jsonNumber n

theorem quote_append (name rest : Bytes) :
    quote name ++ rest = 0x22 :: (name ++ 0x22 :: rest) := by
  simp [quote]

theorem quote_headD (name : Bytes) : (quote name).headD 0 ≠ 0 := by
  show (0x22 : UInt8) ≠ 0
  decide

structure Member where
  name : Bytes
  value : MemberValue
  plain : PlainName name

/-- What follows the opening brace. -/
def jsonMembersText : List Member → Bytes
  | [] => [0x7D]
  | [m] => quote m.name ++ 0x3A :: (m.value.json ++ [0x7D])
  | m :: ms => quote m.name ++ 0x3A :: (m.value.json ++ 0x2C :: jsonMembersText ms)

def jsonObject (ms : List Member) : Bytes := 0x7B :: jsonMembersText ms

/-- The value of the first member of that name. -/
def lookup (name : Bytes) (ms : List Member) : Option MemberValue :=
  (ms.find? fun m => m.name = name).map Member.value

/-! ## Looking for a key -/

theorem isNameChar_ne {c d : UInt8} (h : isNameChar c) (hd : isNameChar d = false) : c ≠ d := by
  rintro rfl
  simp [h] at hd

/-- A member or the object ends. -/
def Ends (s : UInt8) : Prop := s = 0x2C ∨ s = 0x7D

theorem Ends.not_nameChar {s : UInt8} (h : Ends s) : isNameChar s = false := by
  rcases h with rfl | rfl <;> decide

section Find

variable {name name' : Bytes} {prev : Option UInt8} {c s : UInt8} {cs rest : Bytes}

/-- Where no key begins the search goes on. -/
theorem jsonFind_pass {key : Bytes} (hNul : c ≠ 0)
    (hKey : key.isPrefixOf (c :: cs) → atObjectKey prev = false) :
    jsonFindFrom key prev (c :: cs) = jsonFindFrom key (some c) cs := by
  rw [jsonFindFrom]
  by_cases hPrefix : key.isPrefixOf (c :: cs)
  · simp [hPrefix, hKey hPrefix]
  · simp [hPrefix, hNul]

/-- A key begins with a quote. -/
theorem jsonFind_pass_char (hNul : c ≠ 0) (hQuote : c ≠ 0x22) :
    jsonFindFrom (quote name) prev (c :: cs) = jsonFindFrom (quote name) (some c) cs := by
  refine jsonFind_pass hNul fun hPrefix => ?_
  simp [quote, List.isPrefixOf, hQuote.symm] at hPrefix

theorem jsonFind_skip {line : Bytes} (hLine : ∀ c ∈ line, c ≠ 0 ∧ c ≠ 0x22) :
    jsonFindFrom (quote name) prev (line ++ rest) =
      jsonFindFrom (quote name) (line.foldl (fun _ c => some c) prev) rest := by
  induction line generalizing prev with
  | nil => rfl
  | cons c cs ih =>
    obtain ⟨⟨hNul, hQuote⟩, hTail⟩ := List.forall_mem_cons.1 hLine
    rw [List.cons_append, jsonFind_pass_char hNul hQuote, ih hTail, List.foldl_cons]

theorem hexDigit_plain (n : UInt8) (h : n < 16) : hexDigit n ≠ 0 ∧ hexDigit n ≠ 0x22 := by
  have hAll : ∀ k : Fin 16,
      hexDigit (UInt8.ofNat k) ≠ 0 ∧ hexDigit (UInt8.ofNat k) ≠ 0x22 := by decide
  have hLt : n.toNat < 16 := h
  simpa using hAll ⟨n.toNat, hLt⟩

theorem shiftRight_four_lt (c : UInt8) : c >>> 4 < 16 := by
  have hLt := c.toNat_lt
  rw [UInt8.lt_iff_toNat_lt, UInt8.toNat_shiftRight]
  simp only [UInt8.reduceToNat, Nat.reduceMod, Nat.shiftRight_eq_div_pow]
  omega

theorem and_fifteen_lt (c : UInt8) : c &&& 0x0F < 16 := by
  rw [UInt8.lt_iff_toNat_lt, UInt8.toNat_and]
  exact Nat.lt_of_le_of_lt Nat.and_le_right (by decide)

variable (name) in
/-- A quote in a text has a backslash before it. -/
theorem jsonFind_escape (c : UInt8) :
    ∃ last, ∀ prev rest, jsonFindFrom (quote name) prev (jsonEscape c ++ rest) =
      jsonFindFrom (quote name) (some last) rest := by
  unfold jsonEscape
  split_ifs with hSpecial hControl
  · refine ⟨c, fun prev rest => ?_⟩
    have hNul : c ≠ 0 := by rcases hSpecial with rfl | rfl <;> decide
    rw [List.cons_append, jsonFind_pass_char (by decide) (by decide), List.cons_append,
      jsonFind_pass hNul (fun _ => by decide)]
    rfl
  · refine ⟨hexDigit (c &&& 0x0F), fun prev rest => ?_⟩
    have hHigh := hexDigit_plain _ (shiftRight_four_lt c)
    have hLow := hexDigit_plain _ (and_fifteen_lt c)
    rw [jsonFind_skip (by simp [hHigh, hLow])]
    rfl
  · refine ⟨c, fun prev rest => ?_⟩
    have hQuote : c ≠ 0x22 := fun h => hSpecial (.inl h)
    have hNul : c ≠ 0 := by
      rintro rfl
      exact hControl (by decide)
    exact jsonFind_pass_char hNul hQuote

variable (name) in
theorem jsonFind_text (text : Bytes) (prev : Option UInt8) :
    ∃ last, ∀ rest, jsonFindFrom (quote name) prev (text.flatMap jsonEscape ++ rest) =
      jsonFindFrom (quote name) last rest := by
  induction text generalizing prev with
  | nil => exact ⟨prev, fun _ => rfl⟩
  | cons c cs ih =>
    obtain ⟨last, hEscape⟩ := jsonFind_escape name c
    obtain ⟨last', hRest⟩ := ih (some last)
    refine ⟨last', fun rest => ?_⟩
    rw [List.flatMap_cons, List.append_assoc, hEscape, hRest]

/-- No key is found in the value of a member. -/
def Quiet (value : Bytes) : Prop :=
  ∀ name, PlainName name → ∀ s rest, Ends s →
    jsonFindFrom (quote name) (some 0x3A) (value ++ s :: rest) =
      jsonFindFrom (quote name) (some s) rest

theorem jsonFind_ends (h : Ends s) :
    jsonFindFrom (quote name) prev (s :: rest) = jsonFindFrom (quote name) (some s) rest := by
  rcases h with rfl | rfl <;> exact jsonFind_pass_char (by decide) (by decide)

theorem quiet_jsonString (text : Bytes) : Quiet (jsonString text) := by
  intro name hName s rest hEnds
  obtain ⟨last, hText⟩ := jsonFind_text name text (some 0x22)
  obtain ⟨n, ns, rfl⟩ := List.exists_cons_of_ne_nil hName.nonempty
  have hFirst : n ≠ s := isNameChar_ne (hName.chars n (by simp)) hEnds.not_nameChar
  rw [jsonString, List.cons_append, jsonFind_pass (by decide) (fun _ => by decide),
    List.append_assoc, hText, List.singleton_append]
  -- the closing quote is followed by what ends the member, not by a name
  rw [jsonFind_pass (by decide) (fun hPrefix => by simp [quote, List.isPrefixOf, hFirst] at hPrefix),
    jsonFind_ends hEnds]

end Find

/-! ## Numbers -/

theorem isDigit_byte {c : Char} (h : c.isDigit) :
    isDigit c.toNat.toUInt8 ∧ c.toNat.toUInt8.toNat - 0x30 = c.toNat - '0'.toNat := by
  obtain ⟨hLow, hHigh⟩ : 48 ≤ c.toNat ∧ c.toNat ≤ 57 := by
    simpa [Char.isDigit, UInt32.le_iff_toNat_le] using h
  have hByte : c.toNat.toUInt8.toNat = c.toNat := by
    rw [Nat.toUInt8_eq, UInt8.toNat_ofNat_of_lt']
    exact Nat.lt_of_le_of_lt hHigh (by decide)
  refine ⟨?_, by rw [hByte]; rfl⟩
  simp only [isDigit, UInt8.le_iff_toNat_le, hByte, decide_eq_true_eq, Bool.decide_and,
    Bool.and_eq_true]
  exact ⟨hLow, hHigh⟩

theorem decimal_eq (n : Nat) :
    decimal n = (Nat.toDigits 10 n).map fun c => c.toNat.toUInt8 := by
  simp [decimal, ascii, Nat.toList_repr]

theorem isDigit_decimal {n : Nat} {c : UInt8} (h : c ∈ decimal n) : isDigit c := by
  rw [decimal_eq] at h
  obtain ⟨d, hMem, rfl⟩ := List.mem_map.1 h
  exact (isDigit_byte (Nat.isDigit_of_mem_toDigits (by decide) (by decide) hMem)).1

theorem decimal_ne_nil (n : Nat) : decimal n ≠ [] := by
  rw [decimal_eq]
  exact fun h => Nat.toDigits_ne_nil (List.map_eq_nil_iff.1 h)

theorem digitsVal_decimal (n : Nat) : digitsVal (decimal n) = n := by
  have hFold : ∀ (ds : List Char) (init : Nat), (∀ d ∈ ds, d.isDigit) →
      (ds.map fun c => c.toNat.toUInt8).foldl (fun n d => 10 * n + (d.toNat - 0x30)) init =
        Nat.ofDigitChars 10 ds init := by
    intro ds
    induction ds with
    | nil => intros; rfl
    | cons d ds ih =>
      intro init hDigits
      obtain ⟨hDigit, hRest⟩ := List.forall_mem_cons.1 hDigits
      rw [List.map_cons, List.foldl_cons, (isDigit_byte hDigit).2, ih _ hRest,
        Nat.ofDigitChars_cons]
  rw [digitsVal, decimal_eq, hFold _ 0 fun d hMem =>
    Nat.isDigit_of_mem_toDigits (by decide) (by decide) hMem, Nat.ofDigitChars_ten_toDigits]

/-- A digit is no blank, no sign, no quote and no end. -/
theorem isDigit_plain {c : UInt8} (h : isDigit c) :
    isSpace c = false ∧ jsonSpace c = false ∧ c ≠ 0x2D ∧ c ≠ 0x2B ∧ c ≠ 0x22 ∧ c ≠ 0 := by
  have hAll : ∀ k : Fin 10, let c := UInt8.ofNat (0x30 + k)
      isSpace c = false ∧ jsonSpace c = false ∧ c ≠ 0x2D ∧ c ≠ 0x2B ∧ c ≠ 0x22 ∧ c ≠ 0 := by
    decide
  obtain ⟨hLow, hHigh⟩ : 0x30 ≤ c.toNat ∧ c.toNat ≤ 0x39 := by
    simpa [isDigit, UInt8.le_iff_toNat_le] using h
  have hEq : UInt8.ofNat (0x30 + (c.toNat - 0x30)) = c := by
    rw [Nat.add_sub_cancel' hLow, UInt8.ofNat_toNat]
  have hOne := hAll ⟨c.toNat - 0x30, by omega⟩
  rwa [hEq] at hOne

theorem Ends.not_digit {s : UInt8} (h : Ends s) : isDigit s = false := by
  rcases h with rfl | rfl <;> decide

section Digits

variable {ds : Bytes} {s : UInt8}

theorem scanDigits (hDigits : ∀ c ∈ ds, isDigit c) (rest : Bytes) (hEnd : isDigit s = false) :
    (ds ++ s :: rest).takeWhile isDigit = ds ∧ (ds ++ s :: rest).dropWhile isDigit = s :: rest := by
  constructor
  · rw [List.takeWhile_append_of_pos hDigits, List.takeWhile_cons_of_neg (by simp [hEnd]),
      List.append_nil]
  · rw [List.dropWhile_append_of_pos hDigits, List.dropWhile_cons_of_neg (by simp [hEnd])]

/-- Digits without a sign are all of the number. -/
theorem scanNumber_of_digits (hDigits : ∀ c ∈ ds, isDigit c) (hNe : ds ≠ []) (rest : Bytes)
    (hEnd : isDigit s = false) :
    scanNumber (ds ++ s :: rest) = some (false, digitsVal ds, s :: rest) := by
  obtain ⟨hTake, hDrop⟩ := scanDigits hDigits rest hEnd
  obtain ⟨b, bs, hBytes⟩ := List.exists_cons_of_ne_nil hNe
  obtain ⟨hSpace, -, hMinus, hPlus, -, -⟩ := isDigit_plain (hDigits b (by simp [hBytes]))
  have hSkip : skipWhile isSpace (ds ++ s :: rest) = ds ++ s :: rest := by
    rw [hBytes]
    exact List.dropWhile_cons_of_neg (by simp [hSpace])
  have hSign : ∀ cs, ds ++ s :: rest ≠ 0x2D :: cs ∧ ds ++ s :: rest ≠ 0x2B :: cs := by
    simp [hBytes, hMinus, hPlus]
  rw [scanNumber, hSkip]
  split
  rename_i neg p hMatch
  obtain ⟨rfl, rfl⟩ : false = neg ∧ ds ++ s :: rest = p := by
    split at hMatch
    · exact absurd ‹_› (hSign _).1
    · exact absurd ‹_› (hSign _).2
    · simpa using hMatch
  simp only [hTake, hDrop, hNe, if_false]

end Digits

theorem scanNumber_jsonNumber {n : Int} {s : UInt8} {rest : Bytes} (hEnds : Ends s) :
    scanNumber (jsonNumber n ++ s :: rest) = some (decide (n < 0), n.natAbs, s :: rest) := by
  have hDigits : ∀ c ∈ decimal n.natAbs, isDigit c := fun c => isDigit_decimal
  have hNe := decimal_ne_nil n.natAbs
  unfold jsonNumber
  split_ifs with hNeg
  · obtain ⟨hTake, hDrop⟩ := scanDigits hDigits rest hEnds.not_digit
    have hSkip : skipWhile isSpace (0x2D :: decimal n.natAbs ++ s :: rest) =
        0x2D :: (decimal n.natAbs ++ s :: rest) :=
      List.dropWhile_cons_of_neg (by decide)
    simp only [scanNumber, hSkip, hTake, hDrop, hNe, if_false, digitsVal_decimal, hNeg, decide_true]
  · rw [scanNumber_of_digits hDigits hNe rest hEnds.not_digit, digitsVal_decimal]
    simp only [hNeg, decide_false]

/-- A 64-bit integer. -/
def Int64Range (n : Int) : Prop := -9223372036854775808 ≤ n ∧ n ≤ 9223372036854775807

instance (n : Int) : Decidable (Int64Range n) :=
  inferInstanceAs (Decidable (_ ∧ _))

theorem strtoll_jsonNumber {n : Int} {s : UInt8} {rest : Bytes} (hRange : Int64Range n)
    (hEnds : Ends s) : strtoll (jsonNumber n ++ s :: rest) = some (n, s :: rest) := by
  obtain ⟨hLow, hHigh⟩ := hRange
  rw [strtoll, scanNumber_jsonNumber hEnds]
  simp only [Option.map_some, Option.some.injEq, Prod.mk.injEq, and_true, decide_eq_true_eq,
    llongMax]
  split_ifs <;> omega

/-- A number is not taken for a key or a text. -/
theorem jsonNumber_plain {n : Int} {c : UInt8} (h : c ∈ jsonNumber n) :
    jsonSpace c = false ∧ c ≠ 0x22 ∧ c ≠ 0 := by
  have hDigit : c ∈ decimal n.natAbs → jsonSpace c = false ∧ c ≠ 0x22 ∧ c ≠ 0 := fun hMem => by
    obtain ⟨-, hSpace, -, -, hQuote, hNul⟩ := isDigit_plain (isDigit_decimal hMem)
    exact ⟨hSpace, hQuote, hNul⟩
  unfold jsonNumber at h
  split_ifs at h
  · rcases List.mem_cons.1 h with rfl | hMem
    · decide
    · exact hDigit hMem
  · exact hDigit h

theorem jsonNumber_ne_nil (n : Int) : jsonNumber n ≠ [] := by
  unfold jsonNumber
  split_ifs
  · exact List.cons_ne_nil _ _
  · exact decimal_ne_nil _

theorem quiet_jsonNumber (n : Int) : Quiet (jsonNumber n) := by
  intro name _ s rest hEnds
  rw [jsonFind_skip fun c hMem => ⟨(jsonNumber_plain hMem).2.2, (jsonNumber_plain hMem).2.1⟩,
    jsonFind_ends hEnds]

/-! ## Members -/

theorem MemberValue.quiet : ∀ v : MemberValue, Quiet v.json
  | .text t => quiet_jsonString t
  | .number n => quiet_jsonNumber n

/-- No blank stands before a value. -/
theorem MemberValue.skipSpace (v : MemberValue) (rest : Bytes) :
    skipWhile jsonSpace (v.json ++ rest) = v.json ++ rest := by
  cases v with
  | text t => exact List.dropWhile_cons_of_neg (by decide)
  | number n =>
    obtain ⟨c, cs, hForm⟩ := List.exists_cons_of_ne_nil (jsonNumber_ne_nil n)
    rw [MemberValue.json, hForm]
    have hPlain := jsonNumber_plain (n := n) (c := c) (by simp [hForm])
    exact List.dropWhile_cons_of_neg (by simp [hPlain.1])

theorem PlainName.not_quote {name : Bytes} (h : PlainName name) {c : UInt8} (hMem : c ∈ name) :
    c ≠ 0 ∧ c ≠ 0x22 :=
  ⟨isNameChar_ne (h.chars c hMem) (by decide), isNameChar_ne (h.chars c hMem) (by decide)⟩

theorem PlainName.takeWhile {name : Bytes} (h : PlainName name) (rest : Bytes) :
    (name ++ 0x22 :: rest).takeWhile (· ≠ 0x22) = name := by
  rw [List.takeWhile_append_of_pos fun c hMem => by simp [(h.not_quote hMem).2],
    List.takeWhile_cons_of_neg (by simp), List.append_nil]

/-- The key of one name begins no other key. -/
theorem not_prefix_of_ne {name name' : Bytes} (h : PlainName name) (h' : PlainName name')
    (hNe : name' ≠ name) (rest : Bytes) : ¬(quote name).isPrefixOf (quote name' ++ rest) := by
  rw [List.isPrefixOf_iff_prefix]
  rintro ⟨tail, hEq⟩
  have hNames : name ++ 0x22 :: tail = name' ++ 0x22 :: rest := by simpa [quote] using hEq
  exact hNe (by rw [← h'.takeWhile rest, ← hNames, h.takeWhile])

theorem foldl_last {name : Bytes} (h : PlainName name) (prev : Option UInt8) :
    ∃ c, isNameChar c ∧ name.foldl (fun _ c => some c) prev = some c := by
  rcases List.eq_nil_or_concat name with hNil | ⟨front, c, rfl⟩
  · exact absurd hNil h.nonempty
  · exact ⟨c, h.chars c (by simp), by simp⟩

theorem not_atObjectKey {c : UInt8} (h : isNameChar c) : atObjectKey (some c) = false := by
  simp only [atObjectKey, jsonSpace]
  have hNe := fun {d} (hd : isNameChar d = false) => isNameChar_ne h hd
  simp [hNe (d := 0x7B) (by decide), hNe (d := 0x2C) (by decide), hNe (d := 0x20) (by decide),
    hNe (d := 0x09) (by decide), hNe (d := 0x0D) (by decide), hNe (d := 0x0A) (by decide)]

section Members

variable {name : Bytes} {prev : Option UInt8} {s : UInt8} {rest : Bytes}

/-- A member of another name is passed over. -/
theorem jsonFind_other (m : Member) (hName : PlainName name) (hNe : m.name ≠ name)
    (hEnds : Ends s) :
    jsonFindFrom (quote name) prev (quote m.name ++ 0x3A :: (m.value.json ++ s :: rest)) =
      jsonFindFrom (quote name) (some s) rest := by
  have hFirst := not_prefix_of_ne hName m.plain hNe (0x3A :: (m.value.json ++ s :: rest))
  obtain ⟨c, hChar, hLast⟩ := foldl_last m.plain (some 0x22)
  rw [quote_append] at hFirst ⊢
  rw [jsonFind_pass (by decide) (fun hPrefix => absurd hPrefix hFirst),
    jsonFind_skip (fun c hMem => m.plain.not_quote hMem), hLast]
  -- the closing quote stands behind a letter, so no key begins there
  rw [jsonFind_pass (by decide) (fun _ => not_atObjectKey hChar),
    jsonFind_pass_char (by decide) (by decide), m.value.quiet name hName s rest hEnds]

/-- A member is found by its name. -/
theorem jsonFind_member (m : Member) (hPrev : atObjectKey prev) :
    jsonFindFrom (quote m.name) prev (quote m.name ++ 0x3A :: (m.value.json ++ rest)) =
      some (m.value.json ++ rest) := by
  have hPrefix : (quote m.name).isPrefixOf (quote m.name ++ 0x3A :: (m.value.json ++ rest)) := by
    rw [List.isPrefixOf_iff_prefix]
    exact List.prefix_append _ _
  have hDrop : skipWhile jsonSpace
      ((quote m.name ++ 0x3A :: (m.value.json ++ rest)).drop (quote m.name).length) =
        0x3A :: (m.value.json ++ rest) := by
    rw [List.drop_left]
    exact List.dropWhile_cons_of_neg (by decide)
  have hColon : peek (0x3A :: (m.value.json ++ rest)) = 0x3A := rfl
  rw [quote_append] at hPrefix hDrop ⊢
  rw [jsonFindFrom, if_pos hPrefix]
  simp only [hDrop, hPrev, true_and]
  rw [if_pos hColon, List.drop_one, List.tail_cons, m.value.skipSpace]

theorem jsonMembersText_cons (m : Member) (ms : List Member) :
    ∃ s rest, Ends s ∧
      jsonMembersText (m :: ms) ++ [0] = quote m.name ++ 0x3A :: (m.value.json ++ s :: rest) ∧
      (ms = [] ∧ rest = [0] ∨ s = 0x2C ∧ rest = jsonMembersText ms ++ [0]) := by
  cases ms with
  | nil => exact ⟨0x7D, [0], .inr rfl, by simp [jsonMembersText], .inl ⟨rfl, rfl⟩⟩
  | cons m' ms =>
    exact ⟨0x2C, _, .inl rfl, by simp [jsonMembersText], .inr ⟨rfl, rfl⟩⟩

/-- The reader looks up what the object holds. -/
theorem jsonFind_members (hName : PlainName name) (ms : List Member) (hPrev : atObjectKey prev) :
    (lookup name ms = none ∧
      jsonFindFrom (quote name) prev (jsonMembersText ms ++ [0]) = none) ∨
    ∃ v s rest, lookup name ms = some v ∧ Ends s ∧
      jsonFindFrom (quote name) prev (jsonMembersText ms ++ [0]) = some (v.json ++ s :: rest) := by
  induction ms generalizing prev with
  | nil =>
    refine .inl ⟨rfl, ?_⟩
    rw [jsonMembersText, List.singleton_append, jsonFind_pass_char (by decide) (by decide)]
    exact jsonFindFrom_nul (quote_headD name) _ _
  | cons m ms ih =>
    obtain ⟨s, rest, hEnds, hText, hRest⟩ := jsonMembersText_cons m ms
    rw [hText]
    by_cases hSame : m.name = name
    · subst hSame
      exact .inr ⟨m.value, s, rest, by simp [lookup], hEnds, jsonFind_member m hPrev⟩
    · have hLookup : lookup name (m :: ms) = lookup name ms := by
        simp [lookup, hSame]
      rw [jsonFind_other m hName hSame hEnds, hLookup]
      rcases hRest with ⟨rfl, rfl⟩ | ⟨rfl, rfl⟩
      · exact .inl ⟨rfl, jsonFindFrom_nul (quote_headD name) _ _⟩
      · exact ih (by decide)

end Members

theorem jsonFindValue_object {name : Bytes} (hName : PlainName name) (ms : List Member) :
    (lookup name ms = none ∧ miplayJsonFindValue (jsonObject ms ++ [0]) (quote name) = none) ∨
    ∃ v s rest, lookup name ms = some v ∧ Ends s ∧
      miplayJsonFindValue (jsonObject ms ++ [0]) (quote name) = some (v.json ++ s :: rest) := by
  have hPass : miplayJsonFindValue (jsonObject ms ++ [0]) (quote name) =
      jsonFindFrom (quote name) (some 0x7B) (jsonMembersText ms ++ [0]) :=
    jsonFind_pass_char (by decide) (by decide)
  rw [hPass]
  exact jsonFind_members hName ms (by decide)

/-! ## Texts -/

/-- What a copy of a text leaves in an empty buffer, and whether it is taken. -/
def copyText (size : Nat) (t : Bytes) : Bytes × Bool :=
  if t.length < size then
    if trimmed (cstr t) = [] then (t ++ [0], false)
    else (overlay (trimmed (cstr t) ++ [0]) (t ++ [0]), true)
  else (t.take (size - 1), false)

theorem unicodeEscape_control {c : UInt8} (h : c < 0x20) (rest : Bytes) :
    unicodeEscape (0x30 :: 0x30 :: hexDigit (c >>> 4) :: hexDigit (c &&& 0x0F) :: rest) =
      some (c.toNat, rest) := by
  have hAll : ∀ k : Fin 32, let c := UInt8.ofNat k
      jsonHex4 [0x30, 0x30, hexDigit (c >>> 4), hexDigit (c &&& 0x0F)] = some k.val := by
    decide +kernel
  have hLt : c.toNat < 32 := h
  have hHex : jsonHex4 (0x30 :: 0x30 :: hexDigit (c >>> 4) :: hexDigit (c &&& 0x0F) :: rest) =
      some c.toNat := by
    have hOne := hAll ⟨c.toNat, hLt⟩
    simp only [UInt8.ofNat_toNat] at hOne
    exact hOne
  have hLow : ¬0xD800 ≤ c.toNat := by omega
  rw [unicodeEscape, hHex]
  simp [hLow]

/-- One character is read in one turn. -/
theorem jsonCopyChars_escape (size fuel : Nat) (c : UInt8) (rest out : Bytes) :
    jsonCopyChars size (fuel + 1) (jsonEscape c ++ rest) out =
      if out.length + 1 ≥ size then (out, false)
      else jsonCopyChars size fuel rest (out ++ [c]) := by
  by_cases hSpecial : c = 0x22 ∨ c = 0x5C
  · have hEscape : jsonEscape c ++ rest = 0x5C :: c :: rest := by
      simp [jsonEscape, hSpecial]
    have hShort : shortEscape c = some c := by
      rcases hSpecial with rfl | rfl <;> rfl
    have hLetter : c ≠ 0x75 := by
      rcases hSpecial with rfl | rfl <;> decide
    simp [hEscape, jsonCopyChars, hShort, hLetter]
  by_cases hControl : c < 0x20
  · have hEscape : jsonEscape c ++ rest = 0x5C :: 0x75 :: 0x30 :: 0x30 :: hexDigit (c >>> 4) ::
        hexDigit (c &&& 0x0F) :: rest := by
      simp [jsonEscape, hSpecial, hControl]
    have hLow : c.toNat < 0x80 := Nat.lt_trans hControl (by decide)
    have hBytes : codepointBytes c.toNat = some [c] := by
      simp [codepointBytes, hLow]
    by_cases hFull : out.length + 1 ≥ size
    · have hRoom : miplayJsonAppendCodepoint size out c.toNat = none := by
        rw [miplayJsonAppendCodepoint, hBytes]
        exact if_pos (Nat.lt_succ_of_le hFull)
      simp [hEscape, jsonCopyChars, unicodeEscape_control hControl, hRoom, hFull]
    · have hRoom : miplayJsonAppendCodepoint size out c.toNat = some (out ++ [c]) := by
        rw [miplayJsonAppendCodepoint, hBytes]
        exact if_neg (by
          rw [List.length_singleton]
          omega)
      simp [hEscape, jsonCopyChars, unicodeEscape_control hControl, hRoom, hFull]
  · have hEscape : jsonEscape c ++ rest = c :: rest := by
      simp [jsonEscape, hSpecial, hControl]
    have hNul : c ≠ 0 := by
      rintro rfl
      exact hControl (by decide)
    obtain ⟨hQuote, hSlash⟩ := not_or.1 hSpecial
    simp [hEscape, jsonCopyChars, hNul, hQuote, hSlash]

/-- A text is read up to its closing quote, or as far as the buffer goes. -/
theorem jsonCopyChars_text (size fuel : Nat) (t rest out : Bytes) (hFuel : t.length < fuel)
    (hOut : out.length < size) :
    jsonCopyChars size fuel (t.flatMap jsonEscape ++ 0x22 :: rest) out =
      if out.length + t.length < size then (out ++ t ++ [0], true)
      else (out ++ t.take (size - 1 - out.length), false) := by
  induction t generalizing fuel out with
  | nil =>
    obtain ⟨fuel, rfl⟩ := Nat.exists_eq_add_of_lt hFuel
    simp [jsonCopyChars, hOut]
  | cons c cs ih =>
    obtain ⟨fuel, rfl⟩ : ∃ n, fuel = n + 1 := Nat.exists_eq_succ_of_ne_zero (by omega)
    rw [List.flatMap_cons, List.append_assoc, jsonCopyChars_escape]
    rw [List.length_cons] at hFuel ⊢
    split_ifs with hFull hFits hFits
    · omega
    · rw [show size - 1 - out.length = 0 by omega, List.take_zero, List.append_nil]
    all_goals
      rw [ih fuel (out ++ [c]) (by omega) (by rw [List.length_append]; simp; omega)]
      simp only [List.length_append, List.length_singleton, List.append_assoc,
        List.nil_append, List.cons_append]
    · rw [if_pos (by omega)]
    · rw [if_neg (by omega), show size - 1 - out.length = size - 1 - (out.length + 1) + 1 by omega,
        List.take_succ_cons]

theorem length_le_flatMap_jsonEscape (t : Bytes) : t.length ≤ (t.flatMap jsonEscape).length := by
  induction t with
  | nil => exact Nat.le_refl 0
  | cons c cs ih =>
    have hOne : 1 ≤ (jsonEscape c).length := by
      unfold jsonEscape
      split_ifs <;> simp
    rw [List.flatMap_cons, List.length_append, List.length_cons]
    omega

section Copy

variable {json key : Bytes} {size : Nat} {keys before after : List Bytes}

theorem jsonCopyString_of_found {t rest : Bytes} (hSize : 0 < size)
    (hFind : miplayJsonFindValue json key = some (jsonString t ++ rest)) :
    miplayJsonCopyString json key size [] =
      if t.length < size then (t ++ [0], true) else (t.take (size - 1), false) := by
  have hQuote : peek (jsonString t ++ rest) = 0x22 := rfl
  have hInside : (jsonString t ++ rest).drop 1 = t.flatMap jsonEscape ++ 0x22 :: rest := by
    simp [jsonString]
  have hFuel : t.length < (jsonString t ++ rest).length := by
    have hLen := length_le_flatMap_jsonEscape t
    simp only [jsonString, List.cons_append, List.length_cons, List.length_append]
    omega
  simp only [miplayJsonCopyString, hFind, hQuote, ne_eq, not_true_eq_false, if_false, hInside,
    jsonCopyChars_text size _ t rest [] hFuel hSize, List.length_nil, Nat.zero_add,
    List.nil_append, Nat.sub_zero]
  split_ifs <;> simp [overlay]

theorem jsonCopyAliases_of_absent (hKeys : ∀ key ∈ keys, miplayJsonFindValue json key = none)
    (out : Bytes) : miplayJsonCopyStringAliases json size keys out = (out, false) := by
  induction keys generalizing out with
  | nil => rfl
  | cons key keys ih =>
    obtain ⟨hKey, hRest⟩ := List.forall_mem_cons.1 hKeys
    simp only [miplayJsonCopyStringAliases, miplayJsonCopyString, hKey]
    exact ih hRest out

theorem jsonCopyAliases_append (hBefore : ∀ key ∈ before, miplayJsonFindValue json key = none)
    (out : Bytes) :
    miplayJsonCopyStringAliases json size (before ++ after) out =
      miplayJsonCopyStringAliases json size after out := by
  induction before with
  | nil => rfl
  | cons key keys ih =>
    obtain ⟨hKey, hRest⟩ := List.forall_mem_cons.1 hBefore
    simp only [List.cons_append, miplayJsonCopyStringAliases, miplayJsonCopyString, hKey]
    exact ih hRest

theorem length_trimmed_le (s : Bytes) : (trimmed s).length ≤ s.length := by
  rw [trimmed, List.length_reverse]
  calc (((skipWhile isSpace s).reverse.dropWhile isSpace)).length
      ≤ (skipWhile isSpace s).reverse.length := (List.dropWhile_suffix _).length_le
    _ ≤ s.length := by
      rw [List.length_reverse]
      exact (List.dropWhile_suffix _).length_le

theorem cstr_append_zero (t rest : Bytes) : cstr (t ++ 0 :: rest) = cstr t := by
  induction t with
  | nil => rfl
  | cons c cs ih =>
    rw [cstr, cstr, List.cons_append, List.takeWhile_cons, List.takeWhile_cons]
    split_ifs
    · exact congrArg (c :: ·) ih
    · rfl

theorem cstr_append_nul (t : Bytes) : cstr (t ++ [0]) = cstr t := cstr_append_zero t []

/-- Of all aliases only one is there. -/
theorem jsonCopyAliases_of_found {t rest : Bytes} (hSize : 0 < size)
    (hBefore : ∀ key ∈ before, miplayJsonFindValue json key = none)
    (hAfter : ∀ key ∈ after, miplayJsonFindValue json key = none)
    (hFind : miplayJsonFindValue json key = some (jsonString t ++ rest)) :
    miplayJsonCopyStringAliases json size (before ++ key :: after) [] = copyText size t := by
  rw [jsonCopyAliases_append hBefore, miplayJsonCopyStringAliases,
    jsonCopyString_of_found hSize hFind, copyText]
  split_ifs with hFits hBlank
  · have hNone : (trimmed (cstr (t ++ [0]))).take (size - 1) = [] := by
      rw [cstr_append_nul, hBlank, List.take_nil]
    simp only [hNone, if_true]
    exact jsonCopyAliases_of_absent hAfter _
  · have hWhole : (trimmed (cstr (t ++ [0]))).take (size - 1) = trimmed (cstr t) := by
      rw [cstr_append_nul]
      refine List.take_of_length_le ?_
      have hTrimmed := length_trimmed_le (cstr t)
      have hCstr : (cstr t).length ≤ t.length := (List.takeWhile_prefix _).length_le
      omega
    simp only [hWhole, hBlank, if_false]
  · exact jsonCopyAliases_of_absent hAfter _

theorem jsonReadNumber_of_found {n : Int} {s : UInt8} {rest : Bytes} (hRange : Int64Range n)
    (hEnds : Ends s) (hFind : miplayJsonFindValue json key = some (jsonNumber n ++ s :: rest)) :
    miplayJsonReadNumber json key = some n := by
  have hFirst : peek (jsonNumber n ++ s :: rest) ≠ 0x22 := by
    obtain ⟨c, cs, hForm⟩ := List.exists_cons_of_ne_nil (jsonNumber_ne_nil n)
    have hPlain := jsonNumber_plain (n := n) (c := c) (by simp [hForm])
    rw [hForm]
    exact hPlain.2.1
  simp [miplayJsonReadNumber, hFind, hFirst, strtoll_jsonNumber hRange hEnds]

end Copy

/-! ## What an object holds -/

/-- Among the members of these names there is this one and no other. -/
structure Only (names : List Bytes) (one : Option Member) (ms : List Member) : Prop where
  mem : ∀ m ∈ one, m ∈ ms ∧ m.name ∈ names
  unique : ∀ m ∈ ms, m.name ∈ names → one = some m

section Only

variable {names : List Bytes} {ms : List Member} {m : Member} {size : Nat}

theorem Only.lookup_none {one : Option Member} (h : Only names one ms) {name : Bytes}
    (hMem : name ∈ names) (hNe : ∀ m ∈ one, m.name ≠ name) : lookup name ms = none := by
  rw [lookup, Option.map_eq_none_iff, List.find?_eq_none]
  intro m hIn hName
  obtain rfl : m.name = name := of_decide_eq_true hName
  exact hNe m (h.unique m hIn hMem) rfl

theorem Only.lookup_some (h : Only names (some m) ms) : lookup m.name ms = some m.value := by
  obtain ⟨hIn, hMem⟩ := h.mem m rfl
  have hFound : ms.find? (fun m' => m'.name = m.name) = some m := by
    cases hFind : ms.find? (fun m' => m'.name = m.name) with
    | none => exact absurd (decide_eq_true rfl) (List.find?_eq_none.1 hFind m hIn)
    | some m' =>
      have hName : m'.name = m.name := by simpa using List.find?_some hFind
      exact (h.unique m' (List.mem_of_find?_eq_some hFind) (hName ▸ hMem)).symm
  rw [lookup, hFound]
  rfl

variable (hPlain : ∀ name ∈ names, PlainName name)

include hPlain

theorem Only.find_none {one : Option Member} (h : Only names one ms) {key : Bytes}
    (hKey : key ∈ names.map quote) (hNe : ∀ m ∈ one, quote m.name ≠ key) :
    miplayJsonFindValue (jsonObject ms ++ [0]) key = none := by
  obtain ⟨name, hMem, rfl⟩ := List.mem_map.1 hKey
  have hNone := h.lookup_none hMem fun m hIn hName => hNe m hIn (congrArg quote hName)
  rcases jsonFindValue_object (hPlain name hMem) ms with ⟨-, hFind⟩ | ⟨v, s, rest, hSome, -⟩
  · exact hFind
  · simp [hNone] at hSome

theorem Only.find_absent (h : Only names none ms) {key : Bytes} (hKey : key ∈ names.map quote) :
    miplayJsonFindValue (jsonObject ms ++ [0]) key = none :=
  h.find_none hPlain hKey (by simp)

theorem Only.find_some (h : Only names (some m) ms) :
    ∃ s rest, Ends s ∧ miplayJsonFindValue (jsonObject ms ++ [0]) (quote m.name) =
      some (m.value.json ++ s :: rest) := by
  have hSome := h.lookup_some
  rcases jsonFindValue_object (hPlain _ (h.mem m rfl).2) ms with
    ⟨hNone, -⟩ | ⟨v, s, rest, hValue, hEnds, hFind⟩
  · simp [hSome] at hNone
  · obtain rfl : m.value = v := Option.some.inj (hSome.symm.trans hValue)
    exact ⟨s, rest, hEnds, hFind⟩

omit hPlain in
theorem quote_injective : Function.Injective quote := by
  intro a b hEq
  exact List.append_left_injective _ (List.cons.inj hEq).2

/-- The keys around the one that is there. -/
theorem Only.split (h : Only names (some m) ms) (hNodup : names.Nodup) :
    ∃ before after, names.map quote = before ++ quote m.name :: after ∧
      (∀ key ∈ before, miplayJsonFindValue (jsonObject ms ++ [0]) key = none) ∧
      ∀ key ∈ after, miplayJsonFindValue (jsonObject ms ++ [0]) key = none := by
  obtain ⟨before, after, hSplit⟩ :=
    List.append_of_mem (List.mem_map_of_mem (f := quote) (h.mem m rfl).2)
  have hKeys := hNodup.map quote_injective
  rw [hSplit, List.nodup_append] at hKeys
  obtain ⟨-, hAfter, hApart⟩ := hKeys
  have hAbsent : ∀ key ∈ names.map quote, key ≠ quote m.name →
      miplayJsonFindValue (jsonObject ms ++ [0]) key = none := fun key hKey hNe =>
    h.find_none hPlain hKey fun m' hEq => by
      obtain rfl := Option.some.inj hEq
      exact hNe.symm
  refine ⟨before, after, hSplit, fun key hKey => ?_, fun key hKey => ?_⟩
  · exact hAbsent key (by simp [hSplit, hKey]) (hApart key hKey _ (List.mem_cons_self ..))
  · refine hAbsent key (by simp [hSplit, hKey]) ?_
    rintro rfl
    exact (List.nodup_cons.1 hAfter).1 hKey

theorem Only.copyText {t : Bytes} (h : Only names (some m) ms) (hNodup : names.Nodup)
    (hSize : 0 < size) (hText : m.value = .text t) :
    miplayJsonCopyStringAliases (jsonObject ms ++ [0]) size (names.map quote) [] =
      copyText size t := by
  obtain ⟨before, after, hSplit, hBefore, hAfter⟩ := h.split hPlain hNodup
  obtain ⟨s, rest, -, hFind⟩ := h.find_some hPlain
  rw [hText] at hFind
  rw [hSplit]
  exact jsonCopyAliases_of_found hSize hBefore hAfter hFind

theorem Only.copyNone (h : Only names none ms) :
    miplayJsonCopyStringAliases (jsonObject ms ++ [0]) size (names.map quote) [] = ([], false) :=
  jsonCopyAliases_of_absent (fun _ hKey => h.find_absent hPlain hKey) []

theorem Only.readNumber {n : Int} (h : Only names (some m) ms) (hNodup : names.Nodup)
    (hNumber : m.value = .number n) (hRange : Int64Range n) :
    miplayJsonReadNumberAliases (jsonObject ms ++ [0]) (names.map quote) = some n := by
  obtain ⟨before, after, hSplit, hBefore, -⟩ := h.split hPlain hNodup
  obtain ⟨s, rest, hEnds, hFind⟩ := h.find_some hPlain
  rw [hNumber] at hFind
  have hAbsent : before.findSome? (miplayJsonReadNumber (jsonObject ms ++ [0])) = none :=
    List.findSome?_eq_none_iff.2 fun key hKey => by simp [miplayJsonReadNumber, hBefore key hKey]
  rw [miplayJsonReadNumberAliases, hSplit, List.findSome?_append, hAbsent, Option.none_or,
    List.findSome?_cons, jsonReadNumber_of_found hRange hEnds hFind]

theorem Only.readNone (h : Only names none ms) :
    miplayJsonReadNumberAliases (jsonObject ms ++ [0]) (names.map quote) = none :=
  List.findSome?_eq_none_iff.2 fun key hKey => by
    simp [miplayJsonReadNumber, h.find_absent hPlain hKey]

end Only

end EspMiplay.Miplay
