import Mathlib.Data.Bool.AllAny
import EspMiplay.Lib.Json
import EspMiplay.Miplay.JsonForm
import EspMiplay.Miplay.TextBounds

/-!
# Lyrics in JSON strings

The two readers of escapes in `lyrics_fetch.c`. `json_unescape` undoes `\n` and `\r` and
leaves every other escape as it is written, with its backslash; a backslash that is written
twice stays so, or makes a line break of the letter behind it. `json_extract_string_alloc`
undoes those that stand for the character behind the backslash, and `\n`, `\r` and `\t`; of
the others it leaves the letters.

## Results

* `jsonUnescape_iff` — the texts `json_unescape` reads.
* `copyUnescaped_iff` — those that `json_extract_string_alloc` reads.
* `unescape_iff`      — those that come out of both of them.
-/

namespace EspMiplay.Lyrics

open EspMiplay.Miplay
open Utf8 (encode)
open Json (Spells SpellsText Hex4)

-- ---------------------------------------------------------------------------
-- The readers
-- ---------------------------------------------------------------------------

def jsonUnescape : Bytes → Bytes
  | [] => []
  | 0x5C :: 0x6E :: rest => 0x0A :: jsonUnescape rest
  | 0x5C :: 0x72 :: rest => 0x0D :: jsonUnescape rest
  | c :: rest => c :: jsonUnescape rest

/-- What `extract_json_field` makes of the text of a token, where there is memory. -/
def fieldText (heap : Bool) (text : Bytes) : Option Bytes :=
  if text = [] then none else if !heap then none else some (jsonUnescape text)

/-- `ch` for the letter behind a backslash. -/
def letterBehind (c : UInt8) : UInt8 :=
  if c = 0x6E then 0x0A else if c = 0x72 then 0x0D else if c = 0x74 then 0x09 else c

/-- The loop of `json_extract_string_alloc`. -/
def copyUnescaped : Bytes → Bytes
  | [] => []
  | [c] => if c = 0 ∨ c = 0x22 then [] else [c]
  | c :: d :: rest =>
    if c = 0 ∨ c = 0x22 then []
    else if c = 0x5C ∧ d ≠ 0 then letterBehind d :: copyUnescaped rest
    else c :: copyUnescaped (d :: rest)

def jsonExtractStringAlloc (heap : Bool) (json key : Bytes) : Option Bytes := do
  let pattern := (quote (cstr key)).take 63
  let p ← strstr pattern json
  let p ← strchr 0x3A (p.drop pattern.length)
  let p := skipWhile Json.blank (p.drop 1)
  if peek p ≠ 0x22 then none
  else if !heap then none
  else some (copyUnescaped (p.drop 1))

-- ---------------------------------------------------------------------------
-- Escapes
-- ---------------------------------------------------------------------------

/-- Every escape has one of these letters. -/
def escapesIn (letters : List UInt8) : Bytes → Bool
  | [] => true
  | 0x5C :: c :: rest => decide (c ∈ letters) && escapesIn letters rest
  | _ :: rest => escapesIn letters rest

/-- `\n`, `\r` -/
def lineBreaks : List UInt8 := [0x6E, 0x72]

/-- `\n`, `\r`, `\t`, `\"`, `\\`, `\/` -/
def simpleEscapes : List UInt8 := [0x6E, 0x72, 0x74, 0x22, 0x5C, 0x2F]

section Pieces

variable {c : Char} {cs : List Char} {w ws rest : Bytes} {letters : List UInt8}

theorem jsonUnescape_plain {b : UInt8} (hSlash : b ≠ 0x5C) (rest : Bytes) :
    jsonUnescape (b :: rest) = b :: jsonUnescape rest := by
  rw [jsonUnescape]
  · rintro rest' rfl
    exact fun _ => hSlash rfl
  · rintro rest' rfl
    exact fun _ => hSlash rfl

theorem jsonUnescape_slash {d : UInt8} (hD : d ∉ lineBreaks) (rest : Bytes) :
    jsonUnescape (0x5C :: d :: rest) = 0x5C :: jsonUnescape (d :: rest) := by
  rw [jsonUnescape]
  · rintro rest' - h
    exact hD (by simp [lineBreaks, (List.cons.inj h).1])
  · rintro rest' - h
    exact hD (by simp [lineBreaks, (List.cons.inj h).1])

theorem jsonUnescape_append (hSlash : ∀ b ∈ w, b ≠ 0x5C) (rest : Bytes) :
    jsonUnescape (w ++ rest) = w ++ jsonUnescape rest := by
  induction w with
  | nil => rfl
  | cons b w ih =>
    obtain ⟨hB, hTail⟩ := List.forall_mem_cons.1 hSlash
    rw [List.cons_append, jsonUnescape_plain hB, ih hTail, List.cons_append]

theorem escapesIn_append (hSlash : ∀ b ∈ w, b ≠ 0x5C) (rest : Bytes) :
    escapesIn letters (w ++ rest) = escapesIn letters rest := by
  induction w with
  | nil => rfl
  | cons b w ih =>
    obtain ⟨hB, hTail⟩ := List.forall_mem_cons.1 hSlash
    rw [List.cons_append, escapesIn, ih hTail]
    rintro c rest' rfl
    exact fun _ => hB rfl

theorem copyUnescaped_append (hPlain : ∀ b ∈ w, b ≠ 0 ∧ b ≠ 0x22 ∧ b ≠ 0x5C) (rest : Bytes) :
    copyUnescaped (w ++ rest) = w ++ copyUnescaped rest := by
  induction w with
  | nil => rfl
  | cons b w ih =>
    obtain ⟨⟨hNul, hQuote, hSlash⟩, hTail⟩ := List.forall_mem_cons.1 hPlain
    rw [List.cons_append, List.cons_append, ← ih hTail]
    cases hRest : w ++ rest with
    | nil => simp [copyUnescaped, hNul, hQuote]
    | cons d ds => rw [copyUnescaped, if_neg (by simp [hNul, hQuote]), if_neg (by simp [hSlash])]

theorem copyUnescaped_slash {d : UInt8} (hD : d ≠ 0) (rest : Bytes) :
    copyUnescaped (0x5C :: d :: rest) = letterBehind d :: copyUnescaped rest := by
  rw [copyUnescaped, if_neg (by decide), if_pos ⟨rfl, hD⟩]

/-- What a short escape stands for takes one byte. -/
theorem shortEscape_char {letter b : UInt8} (h : (letter, b) ∈ Json.shortEscapes) :
    letter ≠ 0 ∧ String.utf8EncodeChar (Char.ofNat b.toNat) = [b] ∧
      (letter ∈ simpleEscapes → letterBehind letter = b) ∧
      (letter ∉ simpleEscapes → letterBehind letter ≠ b) ∧
      (letter ∈ lineBreaks → letter ∈ simpleEscapes) := by
  have hAll : ∀ e ∈ Json.shortEscapes, e.1 ≠ 0 ∧
      String.utf8EncodeChar (Char.ofNat e.2.toNat) = [e.2] ∧
      (e.1 ∈ simpleEscapes → letterBehind e.1 = e.2) ∧
      (e.1 ∉ simpleEscapes → letterBehind e.1 ≠ e.2) ∧ (e.1 ∈ lineBreaks → e.1 ∈ simpleEscapes) :=
    List.all_iff_forall_prop.1 (by decide)
  exact hAll _ h

theorem encodeChar_length_le {c : Char} (hSmall : c.toNat < 0x10000) :
    (String.utf8EncodeChar c).length ≤ 3 := by
  have hVal : c.val.toNat < 0x10000 := hSmall
  rw [String.length_utf8EncodeChar, Char.utf8Size]
  split_ifs <;> simp_all [UInt32.le_iff_toNat_le]
  omega

end Pieces

-- ---------------------------------------------------------------------------
-- `json_unescape`
-- ---------------------------------------------------------------------------

section Unescape

variable {c : Char} {cs : List Char} {w ws : Bytes}

theorem length_jsonUnescape_cons (b : UInt8) (rest : Bytes) :
    (jsonUnescape rest).length ≤ (jsonUnescape (b :: rest)).length := by
  by_cases hSlash : b = 0x5C
  · subst hSlash
    cases rest with
    | nil => exact Nat.zero_le _
    | cons d rest =>
      by_cases hD : d ∈ lineBreaks
      · have hOther : d ≠ 0x5C := by
          rintro rfl
          exact absurd hD (by decide)
        rw [jsonUnescape_plain hOther]
        rcases List.mem_pair.1 hD with rfl | rfl <;> exact Nat.le_refl _
      · rw [jsonUnescape_slash hD]
        exact Nat.le_succ _
  · rw [jsonUnescape_plain hSlash]
    exact Nat.le_succ _

theorem length_jsonUnescape_slash (d : UInt8) (rest : Bytes) :
    (jsonUnescape rest).length + 1 ≤ (jsonUnescape (0x5C :: d :: rest)).length := by
  by_cases hD : d ∈ lineBreaks
  · rcases List.mem_pair.1 hD with rfl | rfl <;> exact Nat.le_refl _
  · rw [jsonUnescape_slash hD]
    exact Nat.succ_le_succ (length_jsonUnescape_cons d rest)

theorem jsonUnescape_hex {ds : Bytes} {n : Nat} (h : Hex4 n ds) (rest : Bytes) :
    jsonUnescape (0x5C :: 0x75 :: (ds ++ rest)) = 0x5C :: 0x75 :: (ds ++ jsonUnescape rest) := by
  rw [jsonUnescape_slash (by decide), jsonUnescape_plain (by decide),
    jsonUnescape_append (fun b hMem => (h.plain b hMem).2.2)]

/-- Nothing that is read gets lost. -/
theorem length_encode_le (h : SpellsText cs w) :
    (encode cs).length ≤ (jsonUnescape w).length := by
  induction h with
  | nil => exact Nat.zero_le _
  | @cons c cs w ws hChar hText ih =>
    rw [Utf8.encode_cons, List.length_append]
    cases hChar with
    | raw hControl hQuote hSlash =>
      have hPlain := Json.raw_plain hControl hQuote hSlash
      rw [jsonUnescape_append (fun b hMem => (hPlain b hMem).2.2), List.length_append]
      omega
    | @short letter b hEscape =>
      obtain ⟨-, hEncode, -⟩ := shortEscape_char hEscape
      have hStep := length_jsonUnescape_slash letter ws
      rw [hEncode, List.length_singleton, List.cons_append, List.singleton_append]
      omega
    | @unicode c ds hHex =>
      have hSmall := encodeChar_length_le hHex.lt
      have hFour := hHex.length_eq
      rw [List.cons_append, List.cons_append, jsonUnescape_hex hHex]
      simp only [List.length_cons, List.length_append]
      omega
    | @pair c hi lo hBig hHigh hLow =>
      have hSize := c.utf8Size_le_four
      rw [List.cons_append, List.cons_append, List.append_assoc, jsonUnescape_hex hHigh,
        List.cons_append, List.cons_append, jsonUnescape_hex hLow, String.length_utf8EncodeChar]
      simp only [List.length_cons, List.length_append]
      omega

/-- A text begins as it is written, but for escapes. -/
theorem encode_head {b : UInt8} {rest : Bytes} (h : SpellsText cs w) (hText : w = b :: rest)
    (hSlash : b ≠ 0x5C) : ∃ t, encode cs = b :: t := by
  cases h with
  | nil => cases hText
  | cons hChar hMore =>
    cases hChar with
    | raw hControl hQuote hOther =>
      obtain ⟨a, t, hEncode⟩ := List.exists_cons_of_length_pos (Utf8.encodeChar_pos _)
      rw [hEncode, List.cons_append] at hText
      rw [Utf8.encode_cons, hEncode, (List.cons.inj hText).1, List.cons_append]
      exact ⟨_, rfl⟩
    | short hEscape => exact absurd (List.cons.inj hText).1.symm hSlash
    | unicode hHex => exact absurd (List.cons.inj hText).1.symm hSlash
    | pair hBig hHigh hLow => exact absurd (List.cons.inj hText).1.symm hSlash

/-- A backslash that is written twice is not read. -/
theorem jsonUnescape_double (h : SpellsText cs ws) :
    jsonUnescape (0x5C :: 0x5C :: ws) ≠ 0x5C :: encode cs := by
  intro hSame
  rw [jsonUnescape_slash (by decide), List.cons_inj_right] at hSame
  have hLength := length_encode_le h
  cases hText : ws with
  | nil =>
    rw [hText] at hSame hLength
    rw [← hSame] at hLength
    exact absurd hLength (by decide)
  | cons d rest =>
    rw [hText] at hSame hLength
    by_cases hD : d ∈ lineBreaks
    · -- a line break is read where a letter begins
      have hOther : d ≠ 0x5C := by
        rintro rfl
        exact absurd hD (by decide)
      obtain ⟨t, hT⟩ := encode_head h hText hOther
      rw [hT] at hSame
      rcases List.mem_pair.1 hD with rfl | rfl
      · exact absurd (List.cons.inj hSame).1 (by decide)
      · exact absurd (List.cons.inj hSame).1 (by decide)
    · rw [jsonUnescape_slash hD] at hSame
      rw [← hSame] at hLength
      exact absurd hLength (Nat.not_succ_le_self _)

/-- **`json_unescape`** reads a text exactly if it has no escape but `\n` and `\r`. -/
theorem jsonUnescape_iff (h : SpellsText cs w) :
    jsonUnescape w = encode cs ↔ escapesIn lineBreaks w := by
  induction h with
  | nil => exact iff_of_true rfl rfl
  | @cons c cs w ws hChar hText ih =>
    rw [Utf8.encode_cons]
    cases hChar with
    | raw hControl hQuote hSlash =>
      have hPlain := Json.raw_plain hControl hQuote hSlash
      rw [jsonUnescape_append (fun b hMem => (hPlain b hMem).2.2),
        escapesIn_append (fun b hMem => (hPlain b hMem).2.2), List.append_cancel_left_eq, ih]
    | @short letter b hEscape =>
      obtain ⟨-, hEncode, hSimple, -, hBreak⟩ := shortEscape_char hEscape
      rw [hEncode, List.singleton_append, List.cons_append, List.singleton_append, escapesIn]
      by_cases hLetter : letter ∈ lineBreaks
      · rw [decide_eq_true hLetter, Bool.true_and, ← ih, ← hSimple (hBreak hLetter)]
        rcases List.mem_pair.1 hLetter with rfl | rfl <;> exact List.cons_inj_right _
      · rw [decide_eq_false hLetter, Bool.false_and]
        refine iff_of_false (fun hSame => ?_) Bool.false_ne_true
        by_cases hDouble : letter = 0x5C
        · subst hDouble
          rw [← hSimple (by decide)] at hSame
          exact jsonUnescape_double hText hSame
        · have hLength := length_encode_le hText
          have hSizes := congrArg List.length hSame
          rw [jsonUnescape_slash hLetter, jsonUnescape_plain hDouble] at hSizes
          simp only [List.length_cons] at hSizes
          omega
    | @unicode c ds hHex =>
      rw [List.cons_append, List.cons_append, jsonUnescape_hex hHex]
      refine iff_of_false (fun hSame => ?_) Bool.false_ne_true
      have hSmall := encodeChar_length_le hHex.lt
      have hFour := hHex.length_eq
      have hLength := length_encode_le hText
      have hSizes := congrArg List.length hSame
      simp only [List.length_cons, List.length_append] at hSizes
      omega
    | @pair c hi lo hBig hHigh hLow =>
      rw [List.cons_append, List.cons_append, List.append_assoc, jsonUnescape_hex hHigh,
        List.cons_append, List.cons_append, jsonUnescape_hex hLow]
      refine iff_of_false (fun hSame => ?_) Bool.false_ne_true
      have hSize := c.utf8Size_le_four
      have hFour := hHigh.length_eq
      have hLength := length_encode_le hText
      have hSizes := congrArg List.length hSame
      simp only [List.length_cons, List.length_append, String.length_utf8EncodeChar] at hSizes
      omega

end Unescape

-- ---------------------------------------------------------------------------
-- `json_extract_string_alloc`
-- ---------------------------------------------------------------------------

section Extract

variable {c : Char} {cs : List Char} {w rest : Bytes}

theorem copyUnescaped_quote (rest : Bytes) : copyUnescaped (0x22 :: rest) = [] := by
  cases rest <;> rfl

theorem copyUnescaped_hex {ds : Bytes} {n : Nat} (h : Hex4 n ds) (rest : Bytes) :
    copyUnescaped (0x5C :: 0x75 :: (ds ++ rest)) = 0x75 :: (ds ++ copyUnescaped rest) := by
  rw [copyUnescaped_slash (by decide), copyUnescaped_append h.plain]
  rfl

theorem length_encode_le_copied (h : SpellsText cs w) (rest : Bytes) :
    (encode cs).length ≤ (copyUnescaped (w ++ 0x22 :: rest)).length := by
  induction h with
  | nil => exact Nat.zero_le _
  | @cons c cs w ws hChar hText ih =>
    rw [Utf8.encode_cons, List.length_append, List.append_assoc]
    cases hChar with
    | raw hControl hQuote hSlash =>
      rw [copyUnescaped_append (Json.raw_plain hControl hQuote hSlash), List.length_append]
      omega
    | @short letter b hEscape =>
      obtain ⟨hNul, hEncode, -⟩ := shortEscape_char hEscape
      rw [List.cons_append, List.singleton_append, copyUnescaped_slash hNul, hEncode]
      simp only [List.length_cons, List.length_nil]
      omega
    | @unicode c ds hHex =>
      have hSmall := encodeChar_length_le hHex.lt
      have hFour := hHex.length_eq
      rw [List.cons_append, List.cons_append, copyUnescaped_hex hHex]
      simp only [List.length_cons, List.length_append]
      omega
    | @pair c hi lo hBig hHigh hLow =>
      have hSize := c.utf8Size_le_four
      have hFour := hHigh.length_eq
      rw [List.cons_append, List.cons_append, List.append_assoc, copyUnescaped_hex hHigh,
        List.cons_append, List.cons_append, copyUnescaped_hex hLow, String.length_utf8EncodeChar]
      simp only [List.length_cons, List.length_append]
      omega

/-- **`json_extract_string_alloc`** reads a text exactly if it has none of the escapes `\b`,
`\f` and `\u`. -/
theorem copyUnescaped_iff (h : SpellsText cs w) (rest : Bytes) :
    copyUnescaped (w ++ 0x22 :: rest) = encode cs ↔ escapesIn simpleEscapes w := by
  induction h with
  | nil => exact iff_of_true (copyUnescaped_quote rest) rfl
  | @cons c cs w ws hChar hText ih =>
    have hLength := length_encode_le_copied hText rest
    rw [Utf8.encode_cons, List.append_assoc]
    cases hChar with
    | raw hControl hQuote hSlash =>
      have hPlain := Json.raw_plain hControl hQuote hSlash
      rw [copyUnescaped_append hPlain, escapesIn_append (fun b hMem => (hPlain b hMem).2.2),
        List.append_cancel_left_eq, ih]
    | @short letter b hEscape =>
      obtain ⟨hNul, hEncode, hSimple, hOther, -⟩ := shortEscape_char hEscape
      rw [hEncode, List.singleton_append]
      simp only [List.cons_append, List.nil_append]
      rw [copyUnescaped_slash hNul, escapesIn]
      by_cases hLetter : letter ∈ simpleEscapes
      · rw [decide_eq_true hLetter, Bool.true_and, hSimple hLetter, List.cons_inj_right, ih]
      · rw [decide_eq_false hLetter, Bool.false_and]
        exact iff_of_false (fun hSame => hOther hLetter (List.cons.inj hSame).1)
          Bool.false_ne_true
    | @unicode c ds hHex =>
      rw [List.cons_append, List.cons_append, copyUnescaped_hex hHex]
      refine iff_of_false (fun hSame => ?_) Bool.false_ne_true
      have hSmall := encodeChar_length_le hHex.lt
      have hFour := hHex.length_eq
      have hSizes := congrArg List.length hSame
      simp only [List.length_cons, List.length_append] at hSizes
      omega
    | @pair c hi lo hBig hHigh hLow =>
      rw [List.cons_append, List.cons_append, List.append_assoc, copyUnescaped_hex hHigh,
        List.cons_append, List.cons_append, copyUnescaped_hex hLow]
      refine iff_of_false (fun hSame => ?_) Bool.false_ne_true
      have hSize := c.utf8Size_le_four
      have hFour := hHigh.length_eq
      have hSizes := congrArg List.length hSame
      simp only [List.length_cons, List.length_append, String.length_utf8EncodeChar] at hSizes
      omega

end Extract

-- ---------------------------------------------------------------------------
-- Responses
-- ---------------------------------------------------------------------------

/-- The first place where the quoted key stands in a response, that of a member with this
text as its value. -/
structure FieldAt (json key w : Bytes) : Prop where
  key_text : ∀ c ∈ key, c ≠ 0
  key_short : key.length ≤ 61
  found : ∃ before behind : Json.Blanks, ∃ rest, strstr (quote key) json =
    some (quote key ++ (before.bytes ++ 0x3A :: (behind.bytes ++ 0x22 :: (w ++ 0x22 :: rest))))

/-- What both readers are to make of a text. -/
structure Unescaped (cs : List Char) (json key w : Bytes) : Prop where
  field : fieldText true w = some (encode cs)
  alloc : jsonExtractStringAlloc true json key = some (encode cs)
  agree : fieldText true w = jsonExtractStringAlloc true json key

section Response

variable {cs : List Char} {json key w : Bytes}

theorem cstr_of_text {t : Bytes} (hText : ∀ c ∈ t, c ≠ 0) : cstr t = t := by
  rw [cstr, List.takeWhile_eq_self_iff]
  exact fun c hMem => decide_eq_true (hText c hMem)

theorem skip_json_blanks (blanks : Json.Blanks) {c : UInt8} (hC : Json.blank c = false)
    (rest : Bytes) : skipWhile Json.blank (blanks.bytes ++ c :: rest) = c :: rest := by
  rw [skipWhile, List.dropWhile_append_of_pos blanks.blank, List.dropWhile_cons_of_neg]
  simp [hC]

theorem jsonExtractStringAlloc_at (h : FieldAt json key w) :
    ∃ rest, jsonExtractStringAlloc true json key = some (copyUnescaped (w ++ 0x22 :: rest)) := by
  obtain ⟨before, behind, rest, hFound⟩ := h.found
  have hShort := h.key_short
  have hPattern : (quote (cstr key)).take 63 = quote key := by
    rw [cstr_of_text h.key_text, List.take_of_length_le]
    simp only [quote, List.length_cons, List.length_append, List.length_nil]
    omega
  have hBefore : ∀ c ∈ before.bytes, c ≠ 0 ∧ c ≠ 0x3A := by
    intro c hMem
    have hBlank := before.blank c hMem
    refine ⟨?_, ?_⟩
    all_goals
      rintro rfl
      exact absurd hBlank (by decide)
  refine ⟨rest, ?_⟩
  rw [jsonExtractStringAlloc]
  dsimp only
  rw [hPattern, hFound, Option.bind_eq_bind, Option.bind_some, List.drop_left,
    strchr_skip hBefore, strchr, if_pos rfl, Option.bind_some,
    List.drop_succ_cons, List.drop_zero, skip_json_blanks behind (by decide)]
  rfl

theorem fieldText_of_text (hSpelled : SpellsText cs w) (hSome : cs ≠ []) :
    fieldText true w = some (jsonUnescape w) := by
  have hText : w ≠ [] := by
    rintro rfl
    have hLength := length_encode_le hSpelled
    exact hSome (Utf8.encode_injective (List.length_eq_zero_iff.1 (Nat.le_zero.1 hLength)))
  rw [fieldText, if_neg hText]
  rfl

theorem escapesIn_mono {letters letters' : List UInt8} (hSub : letters ⊆ letters')
    (h : escapesIn letters w) : escapesIn letters' w := by
  induction w using escapesIn.induct with
  | case1 => rfl
  | case2 c rest ih =>
    rw [escapesIn, Bool.and_eq_true, decide_eq_true_eq] at h ⊢
    exact ⟨hSub h.1, ih h.2⟩
  | case3 c rest hSlash ih =>
    rw [escapesIn] at h ⊢
    · exact ih h
    · exact hSlash
    · exact hSlash

/-- **Texts.** However a text is written in a response, both readers return it exactly if it
is not empty and has no escapes but `\n` and `\r`. -/
theorem unescape_iff (hSpelled : SpellsText cs w) (hField : FieldAt json key w) :
    Unescaped cs json key w ↔ cs ≠ [] ∧ escapesIn lineBreaks w := by
  obtain ⟨rest, hAlloc⟩ := jsonExtractStringAlloc_at hField
  constructor
  · intro h
    have hSome : cs ≠ [] := by
      rintro rfl
      have hNil := h.field
      cases hSpelled
      cases hNil
    refine ⟨hSome, (jsonUnescape_iff hSpelled).1 ?_⟩
    exact Option.some.inj ((fieldText_of_text hSpelled hSome).symm.trans h.field)
  · rintro ⟨hSome, hEscapes⟩
    have hRead : fieldText true w = some (encode cs) := by
      rw [fieldText_of_text hSpelled hSome, (jsonUnescape_iff hSpelled).2 hEscapes]
    have hCopied : jsonExtractStringAlloc true json key = some (encode cs) := by
      have hSimple : escapesIn simpleEscapes w := escapesIn_mono (by decide) hEscapes
      rw [hAlloc, (copyUnescaped_iff hSpelled rest).2 hSimple]
    exact ⟨hRead, hCopied, hRead.trans hCopied.symm⟩

/-- Two lines of lyrics. -/
def twoLines : Bytes := ascii "a\\nb"

theorem twoLines_spelled : SpellsText ['a', '\n', 'b'] twoLines :=
  .cons (.raw (by decide) (by decide) (by decide)) (.cons (.short (b := 0x0A) (by decide))
    (.cons (.raw (by decide) (by decide) (by decide)) .nil))

def twoLinesResponse : Bytes := ascii "\x7b\"lyric\": \"a\\nb\"\x7d"

theorem twoLines_read :
    Unescaped ['a', '\n', 'b'] twoLinesResponse (ascii "lyric") twoLines := by
  have hField : FieldAt twoLinesResponse (ascii "lyric") twoLines :=
    ⟨List.all_iff_forall_prop.1 (by decide), by decide,
      ⟨[], by simp⟩, ⟨[0x20], by simp [Json.blank]⟩, ascii "\x7d", by decide +kernel⟩
  exact (unescape_iff twoLines_spelled hField).2 ⟨by decide, by decide +kernel⟩

/-- A quotation mark. -/
theorem quotation_kept : ¬∀ (cs : List Char) (json key w : Bytes), SpellsText cs w →
    FieldAt json key w → Unescaped cs json key w := by
  intro hAll
  have hSpelled : SpellsText ['"'] (ascii "\\\"") := .cons (.short (b := 0x22) (by decide)) .nil
  have hField : FieldAt (ascii "\x7b\"lyric\":\"\\\"\"\x7d") (ascii "lyric") (ascii "\\\"") :=
    ⟨List.all_iff_forall_prop.1 (by decide), by decide,
      ⟨[], by simp⟩, ⟨[], by simp⟩, ascii "\x7d", by decide +kernel⟩
  have hRead := (hAll _ _ _ _ hSpelled hField).field
  revert hRead
  decide +kernel

end Response

end EspMiplay.Lyrics
