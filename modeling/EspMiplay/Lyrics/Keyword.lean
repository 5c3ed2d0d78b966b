import Mathlib.Data.Bool.AllAny
import Mathlib.Data.List.DropRight
import EspMiplay.Lib.FormUrl
import EspMiplay.Lib.Utf8
import EspMiplay.Miplay.Text

/-!
# The search keyword

What `search_song`, `fetch_lrc_qq` and `fetch_lrc_kuwo` of `lyrics_fetch.c` send for a title
and an artist. `strip_title_suffix` cuts the title at a parenthesis, a buffer of 128 bytes
takes it with the artist behind a blank, and `url_encode` fills another one of 256 bytes.

- The full-width parenthesis is a character constant of three bytes. A `char` never has its
  value, so that only the narrow one ends a title.
- Every buffer is filled up to its last byte, in the middle of a character too.

## Results

* `stripTitleSuffix_iff` — the titles that are cleaned as the comment has it.
* `keyword_iff`          — the keywords that are sent in whole characters.
-/

namespace EspMiplay.Lyrics

open EspMiplay.Miplay
open Utf8 (encode)

/-- A text without NUL. -/
structure PlainText where
  chars : List Char
  no_nul : ∀ c ∈ chars, c ≠ Char.ofNat 0

-- ---------------------------------------------------------------------------
-- The functions
-- ---------------------------------------------------------------------------

/-- `'（'`: the three bytes in one `int`. -/
def fullWidthParen : Nat := 0xEFBC88

/-- `in[i] == '(' || in[i] == '（'` -/
def endsTitle (c : UInt8) : Bool := c.toNat = 0x28 ∨ c.toNat = fullWidthParen

def stripTitleSuffix (outSize : Nat) (title : Bytes) : Bytes :=
  (((cstr title).takeWhile fun c => !endsTitle c).take (outSize - 1)).rdropWhile (· = 0x20)

/-- `clean_title`, in its buffer of 128 bytes. -/
def cleanTitle (title : Bytes) : Bytes :=
  let clean := stripTitleSuffix 128 title
  if clean = [] then (cstr title).take 127 else clean

/-- `snprintf(keyword, sizeof(keyword), "%s %s", clean_title, artist)` -/
def searchKeyword (title artist : Bytes) : Bytes :=
  (cleanTitle title ++ 0x20 :: cstr artist).take 127

def urlHex : Bytes := ascii "0123456789ABCDEF"

/-- A turn of `url_encode`: what it writes for a byte. -/
def urlByte (c : UInt8) : Bytes :=
  if (0x41 ≤ c ∧ c ≤ 0x5A) ∨ (0x61 ≤ c ∧ c ≤ 0x7A) ∨ (0x30 ≤ c ∧ c ≤ 0x39) ∨ c = 0x2D ∨
      c = 0x5F ∨ c = 0x2E ∨ c = 0x7E then [c]
  else if c = 0x20 then [0x2B]
  else [0x25, urlHex.getD (c >>> 4).toNat 0, urlHex.getD (c &&& 0x0F).toNat 0]

/-- The loop of `url_encode`, from `di` on. -/
def urlEncodeFrom (dstSize : Nat) : Nat → Bytes → Bytes
  | _, [] => []
  | di, c :: src =>
    if c ≠ 0 ∧ di < dstSize - 3 then
      urlByte c ++ urlEncodeFrom dstSize (di + (urlByte c).length) src
    else []

/-- The text in `dst`; a NUL stands behind it. -/
def urlEncode (src : Bytes) (dstSize : Nat) : Bytes := urlEncodeFrom dstSize 0 src

/-- `encoded` -/
def searchEncoded (title artist : Bytes) : Bytes := urlEncode (searchKeyword title artist) 256

-- ---------------------------------------------------------------------------
-- Titles
-- ---------------------------------------------------------------------------

section Title

/-- The part in front of a parenthesis of either kind. -/
def titlePart (cs : List Char) : List Char := cs.takeWhile fun c => c ≠ '(' ∧ c ≠ '（'

/-- In front of the first narrow one. -/
def beforeParen (cs : List Char) : List Char := cs.takeWhile (· ≠ '(')

def trimRight (cs : List Char) : List Char := cs.rdropWhile (· = ' ')

/-- What is to be left of a title: its part in front of a parenthesis, as many characters of
it as fit, without the blanks at the end. -/
def cleaned (outSize : Nat) (cs : List Char) : List Char :=
  trimRight (Utf8.whole (outSize - 1) (titlePart cs))

theorem endsTitle_eq (c : UInt8) : endsTitle c = decide (c = 0x28) := by
  have hLt := c.toNat_lt
  have hWide : c.toNat ≠ fullWidthParen := by
    rw [fullWidthParen]
    omega
  rw [endsTitle, Bool.eq_iff_iff, decide_eq_true_eq, decide_eq_true_eq, ← UInt8.toNat_inj]
  simp [hWide]

/-- An ASCII character is met as a byte where it is met as a character. -/
theorem byte_eq_char {c d : Char} {b : UInt8} (n : UInt8) (hMem : b ∈ String.utf8EncodeChar c)
    (hD : d.toNat = n.toNat) (hAscii : n.toNat < 0x80) : decide (b = n) = decide (c = d) := by
  rw [Bool.eq_iff_iff, decide_eq_true_eq, decide_eq_true_eq, Utf8.char_eq_iff, hD,
    ← UInt8.toNat_inj]
  exact Utf8.byte_eq_iff hMem hAscii

theorem cstr_encode (t : PlainText) : cstr (encode t.chars) = encode t.chars := by
  have hSame : ∀ c, ∀ b ∈ String.utf8EncodeChar c, decide (b ≠ 0) = decide (c ≠ Char.ofNat 0) := by
    intro c b hMem
    rw [decide_not, decide_not, byte_eq_char 0 hMem (d := Char.ofNat 0) rfl (by decide)]
  rw [cstr, Utf8.takeWhile_encode hSame, List.takeWhile_eq_self_iff.2]
  intro c hMem
  exact decide_eq_true (t.no_nul c hMem)

theorem takeWhile_paren (cs : List Char) :
    (encode cs).takeWhile (fun c => !endsTitle c) = encode (beforeParen cs) := by
  refine Utf8.takeWhile_encode (fun c b hMem => ?_) cs
  rw [endsTitle_eq, byte_eq_char 0x28 hMem (d := '(') rfl (by decide), decide_not]

theorem rdropWhile_blank (cs : List Char) :
    (encode cs).rdropWhile (· = 0x20) = encode (trimRight cs) :=
  Utf8.rdropWhile_encode (fun _ _ hMem => byte_eq_char 0x20 hMem (d := ' ') rfl (by decide)) cs

/-- What is left of a cut character does not end in a blank. -/
theorem rdropWhile_fragment {n : Nat} {cs : List Char} (hCut : Utf8.fragment n cs ≠ [])
    (w : Bytes) :
    (w ++ Utf8.fragment n cs).rdropWhile (· = 0x20) = w ++ Utf8.fragment n cs := by
  obtain ⟨c, -, m, -, hShort, hFragment⟩ := (Utf8.fragment_part n cs).resolve_left hCut
  obtain ⟨u, b, hU⟩ := (List.eq_nil_or_concat (Utf8.fragment n cs)).resolve_left hCut
  have hMem : b ∈ String.utf8EncodeChar c := by
    refine List.mem_of_mem_take (i := m) ?_
    rw [← hFragment, hU]
    simp
  have hByte : ¬(decide (b = 0x20)) := by
    rw [byte_eq_char 0x20 hMem (d := ' ') rfl (by decide), decide_eq_true_eq]
    rintro rfl
    have hOne : (' ' : Char).utf8Size = 1 := by decide
    have hEmpty : Utf8.fragment n cs = [] ∨ 1 ≤ m := by
      rcases Nat.eq_zero_or_pos m with rfl | hPos
      · exact .inl hFragment
      · exact .inr hPos
    rcases hEmpty with h | h
    · exact hCut h
    · omega
  rw [hU, List.concat_eq_append, ← List.append_assoc]
  exact List.rdropWhile_concat_neg _ _ _ hByte

/-- What the buffer holds: whole characters without the blanks behind them, or a cut one. -/
theorem stripTitleSuffix_encode (outSize : Nat) (t : PlainText) :
    stripTitleSuffix outSize (encode t.chars) =
      let part := beforeParen t.chars
      if Utf8.fragment (outSize - 1) part = [] then
        encode (trimRight (Utf8.whole (outSize - 1) part))
      else (encode part).take (outSize - 1) := by
  have hTake := Utf8.take_encode (outSize - 1) (beforeParen t.chars)
  rw [stripTitleSuffix, cstr_encode, takeWhile_paren]
  dsimp only
  split_ifs with hFragment
  · rw [hTake, hFragment, List.append_nil, rdropWhile_blank]
  · rw [hTake, rdropWhile_fragment hFragment]

theorem titlePart_eq (cs : List Char) :
    titlePart cs = (beforeParen cs).takeWhile (· ≠ '（') := by
  rw [titlePart, beforeParen, List.takeWhile_takeWhile]
  congr 1
  funext c
  simp [and_comm]

theorem mem_trimRight {c : Char} {cs : List Char} (hMem : c ∈ cs) (hBlank : c ≠ ' ') :
    c ∈ trimRight cs := by
  have hSplit : trimRight cs ++ cs.rtakeWhile (· = ' ') = cs := List.rdropWhile_append_rtakeWhile ..
  rw [← hSplit, List.mem_append] at hMem
  refine hMem.resolve_right fun hTail => hBlank ?_
  exact of_decide_eq_true (List.mem_rtakeWhile_imp (p := (· = ' ')) hTail)

/-- **Clean-up of titles.** A title is cleaned as it is to be exactly if its part in front of
the first narrow parenthesis has no full-width one in it and is not cut within a character. -/
theorem stripTitleSuffix_iff (t : PlainText) (outSize : Nat) :
    stripTitleSuffix outSize (encode t.chars) = encode (cleaned outSize t.chars) ↔
      '（' ∉ Utf8.whole (outSize - 1) (beforeParen t.chars) ∧
        Utf8.fragment (outSize - 1) (beforeParen t.chars) = [] := by
  have hCleaned : cleaned outSize t.chars =
      trimRight ((Utf8.whole (outSize - 1) (beforeParen t.chars)).takeWhile (· ≠ '（')) := by
    rw [cleaned, titlePart_eq, Utf8.whole_takeWhile]
  rw [stripTitleSuffix_encode]
  dsimp only
  split_ifs with hFragment
  · rw [Utf8.encode_injective.eq_iff, hCleaned, and_iff_left hFragment]
    constructor
    · intro hSame hMem
      have hKept := mem_trimRight hMem (by decide)
      rw [hSame] at hKept
      have hFront := (List.rdropWhile_prefix _ _).mem hKept
      exact absurd (List.mem_takeWhile_imp hFront) (by decide)
    · intro hNarrow
      rw [List.takeWhile_eq_self_iff.2]
      rintro c hMem
      refine decide_eq_true ?_
      rintro rfl
      exact hNarrow hMem
  · -- the part of a character is not in any text, and makes the result longer than it is to be
    refine iff_of_false (fun hSame => ?_) (fun h => hFragment h.2)
    have hLen := congrArg List.length hSame
    have hFront : cleaned outSize t.chars <+:
        Utf8.whole (outSize - 1) (beforeParen t.chars) := by
      rw [hCleaned]
      exact (List.rdropWhile_prefix _ _).trans (List.takeWhile_prefix _)
    obtain ⟨more, hMore⟩ := hFront
    have hPos := List.length_pos_iff.2 hFragment
    rw [Utf8.take_encode, ← hMore, Utf8.encode_append, List.length_append,
      List.length_append] at hLen
    omega

/-- What follows a parenthesis of either kind is no part of the title. -/
theorem cleaned_suffix {outSize n : Nat} {title suffix : List Char} {paren : Char}
    (hParen : paren = '(' ∨ paren = '（') (hTitle : ∀ c ∈ title, c ≠ '(' ∧ c ≠ '（')
    (hFits : (encode (title ++ List.replicate n ' ')).length ≤ outSize - 1) :
    cleaned outSize (title ++ List.replicate n ' ' ++ paren :: suffix) = trimRight title := by
  have hPart : titlePart (title ++ List.replicate n ' ' ++ paren :: suffix) =
      title ++ List.replicate n ' ' := by
    rw [titlePart, List.takeWhile_append_of_pos, List.takeWhile_cons_of_neg, List.append_nil]
    · rcases hParen with rfl | rfl <;> decide
    · intro c hMem
      refine decide_eq_true ?_
      rcases List.mem_append.1 hMem with h | h
      · exact hTitle c h
      · rw [List.eq_of_mem_replicate h]
        decide
  have hBlanks : ∀ c ∈ (List.replicate n ' ').reverse, decide (c = ' ') := by
    intro c hMem
    rw [List.eq_of_mem_replicate (List.mem_reverse.1 hMem)]
    decide
  rw [cleaned, hPart, Utf8.whole_of_fits hFits, trimRight, List.rdropWhile,
    List.reverse_append, List.dropWhile_append_of_pos hBlanks]
  rfl

/-- `雲雀（TV动画片尾曲）` -/
def larkTitle : PlainText := 
  ⟨"雲雀（TV动画片尾曲）".toList, List.all_iff_forall_prop.1 (by decide +kernel)⟩

theorem larkTitle_kept : ¬∀ (t : PlainText) (outSize : Nat),
    stripTitleSuffix outSize (encode t.chars) = encode (cleaned outSize t.chars) := by
  intro hAll
  have hLark := hAll larkTitle 128
  revert hLark
  decide +kernel

end Title

-- ---------------------------------------------------------------------------
-- Form encoding
-- ---------------------------------------------------------------------------

section Encode

theorem urlHex_eq {v : UInt8} (h : v.toNat < 16) :
    urlHex.getD v.toNat 0 = FormUrl.upperHex v := by
  have hAll : ∀ k : Fin 16, urlHex.getD k 0 = FormUrl.upperHex (UInt8.ofNat k) := by decide +kernel
  have hOne := hAll ⟨v.toNat, h⟩
  rwa [UInt8.ofNat_toNat] at hOne

theorem urlByte_eq (c : UInt8) : urlByte c = FormUrl.encodeByte c := by
  have hHigh : (c >>> 4).toNat < 16 := by
    have hLt := c.toNat_lt
    have hShift : (c >>> 4).toNat = c.toNat / 16 := by
      rw [UInt8.toNat_shiftRight]
      exact Nat.shiftRight_eq_div_pow c.toNat 4
    omega
  have hLow : (c &&& 0x0F).toNat < 16 := by
    rw [UInt8.toNat_and]
    exact Nat.lt_of_le_of_lt Nat.and_le_right (by decide)
  rw [urlByte, FormUrl.encodeByte, urlHex_eq hHigh, urlHex_eq hLow]
  simp only [FormUrl.unreserved, decide_eq_true_eq]

/-- The bytes the loop takes, from `di` on. -/
def taken (dstSize : Nat) : Nat → Bytes → Bytes
  | _, [] => []
  | di, c :: src =>
    if c ≠ 0 ∧ di < dstSize - 3 then
      c :: taken dstSize (di + (FormUrl.encodeByte c).length) src
    else []

theorem urlEncodeFrom_eq (dstSize di : Nat) (src : Bytes) :
    urlEncodeFrom dstSize di src = FormUrl.encode (taken dstSize di src) := by
  induction src generalizing di with
  | nil => rfl
  | cons c src ih =>
    rw [urlEncodeFrom, taken, urlByte_eq]
    split_ifs
    · rw [ih, FormUrl.encode_cons]
    · rfl

theorem taken_isPrefix (dstSize di : Nat) (src : Bytes) : taken dstSize di src <+: src := by
  induction src generalizing di with
  | nil => exact List.nil_prefix
  | cons c src ih =>
    rw [taken]
    split_ifs
    · exact (List.prefix_cons_inj c).2 (ih _)
    · exact List.nil_prefix

theorem urlEncodeFrom_length {dstSize : Nat} (src : Bytes) (di : Nat) (hSize : di < dstSize) :
    di + (urlEncodeFrom dstSize di src).length < dstSize := by
  induction src generalizing di with
  | nil => exact hSize
  | cons c src ih =>
    rw [urlEncodeFrom]
    split_ifs with hRoom
    · have hLe := FormUrl.length_encodeByte_le c
      have hRest := ih (di + (urlByte c).length) (by rw [urlByte_eq]; omega)
      rw [List.length_append]
      omega
    · exact hSize

/-- **No write outside of `dst`**, the NUL included. -/
theorem urlEncode_length {dstSize : Nat} (hSize : 0 < dstSize) (src : Bytes) :
    (urlEncode src dstSize).length < dstSize := by
  have hLength := urlEncodeFrom_length src 0 hSize
  rwa [Nat.zero_add] at hLength

/-- What is not taken did not fit. -/
theorem taken_all (dstSize di : Nat) {src : Bytes} (hNul : 0 ∉ src) :
    taken dstSize di src = src ∨
      dstSize - 3 ≤ di + (FormUrl.encode (taken dstSize di src)).length := by
  induction src generalizing di with
  | nil => exact .inl rfl
  | cons c src ih =>
    obtain ⟨hC, hSrc⟩ := not_or.1 (List.mem_cons.not.1 hNul)
    rw [taken]
    split_ifs with hRoom
    · rw [FormUrl.encode_cons, List.length_append]
      refine (ih (di + (FormUrl.encodeByte c).length) hSrc).imp (congrArg (c :: ·)) ?_
      omega
    · rw [not_and] at hRoom
      have hFull := hRoom (Ne.symm hC)
      exact .inr (by simp [FormUrl.encode]; omega)

end Encode

-- ---------------------------------------------------------------------------
-- Characters
-- ---------------------------------------------------------------------------

/-- The bytes a text takes in `encoded`. -/
def formLength (cs : List Char) : Nat := (FormUrl.encode (encode cs)).length

/-- A character that begins while there is room, in `room` bytes and behind `di` bytes of
`encoded`, ends while there is. -/
def NotCut (room di : Nat) (cs : List Char) : Prop :=
  ∀ front c rest, cs = front ++ c :: rest →
    (encode front).length < room → di + formLength front < 253 →
      (encode front).length + c.utf8Size ≤ room ∧ di + formLength (front ++ [c]) ≤ 255

section Characters

variable {di room : Nat} {c : Char} {cs : List Char}

theorem formLength_cons (c : Char) (cs : List Char) :
    formLength (c :: cs) = (FormUrl.encode (String.utf8EncodeChar c)).length + formLength cs := by
  rw [formLength, Utf8.encode_cons, FormUrl.encode_append, List.length_append, formLength]

theorem notCut_cons (hRoom : 0 < room) (hDi : di < 253) :
    NotCut room di (c :: cs) ↔
      (c.utf8Size ≤ room ∧ di + formLength [c] ≤ 255) ∧
        NotCut (room - c.utf8Size) (di + formLength [c]) cs := by
  have hOne : formLength [c] = (FormUrl.encode (String.utf8EncodeChar c)).length := by
    rw [formLength_cons]
    rfl
  constructor
  · intro h
    refine ⟨by simpa [encode, formLength] using h [] c cs rfl hRoom hDi, ?_⟩
    intro front d rest hSplit hFront hForm
    have hStep := h (c :: front) d rest (by rw [hSplit]; rfl)
    rw [Utf8.encode_cons, List.length_append, String.length_utf8EncodeChar, formLength_cons,
      List.cons_append, formLength_cons] at hStep
    obtain ⟨hSize, hEnd⟩ := hStep (by omega) (by omega)
    exact ⟨by omega, by omega⟩
  · rintro ⟨⟨hSize, hEnd⟩, h⟩ front d rest hSplit hFront hForm
    cases front with
    | nil =>
      obtain ⟨rfl, -⟩ := List.cons.inj hSplit
      simpa [encode] using ⟨hSize, hEnd⟩
    | cons a front =>
      obtain ⟨rfl, hRest⟩ := List.cons.inj hSplit
      rw [Utf8.encode_cons, List.length_append, String.length_utf8EncodeChar] at hFront ⊢
      rw [formLength_cons] at hForm
      rw [List.cons_append, formLength_cons]
      obtain ⟨hSize', hEnd'⟩ := h front d rest hRest (by omega) (by omega)
      exact ⟨by omega, by omega⟩

theorem taken_append (w rest : Bytes) :
    taken 256 di (w ++ rest) =
      if taken 256 di w = w then w ++ taken 256 (di + (FormUrl.encode w).length) rest
      else taken 256 di w := by
  induction w generalizing di with
  | nil => rfl
  | cons x w ih =>
    rw [List.cons_append, taken, taken]
    by_cases hTake : x ≠ 0 ∧ di < 256 - 3
    · rw [if_pos hTake, if_pos hTake, ih, FormUrl.encode_cons, List.length_append, ← Nat.add_assoc]
      simp only [List.cons.injEq, true_and]
      split_ifs <;> rfl
    · rw [if_neg hTake, if_neg hTake, if_neg (List.cons_ne_nil x w).symm]

/-- Bytes from 128 on take three each. -/
theorem taken_wide {w : Bytes} (hWide : ∀ b ∈ w, 0x80 ≤ b.toNat) :
    taken 256 di w = w ↔ w = [] ∨ di + (FormUrl.encode w).length ≤ 255 := by
  induction w generalizing di with
  | nil => simp [taken]
  | cons x w ih =>
    obtain ⟨hX, hTail⟩ := List.forall_mem_cons.1 hWide
    have hNul : x ≠ 0 := by
      rintro rfl
      exact absurd hX (by decide)
    have hThree := FormUrl.length_encodeByte_wide hX
    rw [taken, FormUrl.encode_cons, List.length_append]
    split_ifs with hTake
    · rw [List.cons_inj_right, ih hTail]
      simp only [false_or]
      constructor
      · rintro (rfl | h)
        · simp only [FormUrl.encode, List.flatMap_nil, List.length_nil]
          omega
        · omega
      · exact fun h => .inr (by omega)
    · simp only [hNul, ne_eq, not_false_eq_true, true_and, Nat.not_lt] at hTake
      simp only [false_or, false_iff]
      omega

/-- A character is taken as a whole exactly if it ends in front of the end. -/
theorem taken_char (hNul : c ≠ Char.ofNat 0) (hDi : di < 253) :
    taken 256 di (String.utf8EncodeChar c) = String.utf8EncodeChar c ↔
      di + formLength [c] ≤ 255 := by
  have hForm : formLength [c] = (FormUrl.encode (String.utf8EncodeChar c)).length := by
    rw [formLength_cons]
    rfl
  rw [hForm]
  by_cases hAscii : ∃ b ∈ String.utf8EncodeChar c, b.toNat < 0x80
  · obtain ⟨b, hMem, hLt⟩ := hAscii
    obtain ⟨hEncode, hVal⟩ := Utf8.encodeChar_ascii hMem hLt
    have hB : b ≠ 0 := by
      rintro rfl
      exact hNul (Char.ext (UInt32.toNat_inj.1 hVal.symm))
    have hLe := FormUrl.length_encodeByte_le b
    rw [hEncode, taken, if_pos ⟨hB, hDi⟩]
    simp only [taken, FormUrl.encode, List.flatMap_cons, List.flatMap_nil, List.append_nil,
      true_iff]
    omega
  · rw [taken_wide fun b hMem => Nat.le_of_not_lt fun hLt => hAscii ⟨b, hMem, hLt⟩]
    have hSome := List.length_pos_iff.1 (Utf8.encodeChar_pos c)
    simp [hSome]

/-- Whole characters are taken exactly if none is cut. -/
theorem taken_whole (hNul : ∀ c ∈ cs, c ≠ Char.ofNat 0) :
    (∃ front, taken 256 di ((encode cs).take room) = encode front) ↔ NotCut room di cs := by
  induction cs generalizing di room with
  | nil =>
    refine iff_of_true ⟨[], by simp [encode, taken]⟩ fun front c rest hSplit => ?_
    exact absurd (congrArg List.length hSplit) (by simp)
  | cons c cs ih =>
    obtain ⟨hC, hTail⟩ := List.forall_mem_cons.1 hNul
    by_cases hNone : room = 0 ∨ 253 ≤ di
    · -- there is no room for the first byte
      refine iff_of_true ⟨[], ?_⟩ fun front d rest hSplit hRoom hDi => by omega
      have hFirst : ∀ w : Bytes, 253 ≤ di → taken 256 di w = [] := by
        intro w hFull
        cases w with
        | nil => rfl
        | cons x w => rw [taken, if_neg (by omega)]
      rcases hNone with rfl | hFull
      · rfl
      · exact hFirst _ hFull
    rw [not_or, Nat.not_le] at hNone
    rw [notCut_cons (Nat.pos_of_ne_zero hNone.1) hNone.2, Utf8.encode_cons, List.take_append,
      String.length_utf8EncodeChar]
    have hSize := String.length_utf8EncodeChar c
    have hPos := c.utf8Size_pos
    have hSome (w : Bytes) (hW : w ≠ []) (hNul : ∀ b ∈ w, b ≠ 0) : taken 256 di w ≠ [] := by
      cases w with
      | nil => exact absurd rfl hW
      | cons x w =>
        rw [taken, if_pos ⟨hNul x List.mem_cons_self, hNone.2⟩]
        exact List.cons_ne_nil _ _
    have hBytes : ∀ b ∈ String.utf8EncodeChar c, b ≠ 0 := by
      rintro b hMem rfl
      have hSame := byte_eq_char 0 hMem (d := Char.ofNat 0) rfl (by decide)
      rw [decide_eq_true rfl] at hSame
      exact hC (of_decide_eq_true hSame.symm)
    by_cases hFits : c.utf8Size ≤ room ∧ di + formLength [c] ≤ 255
    · rw [and_iff_right hFits, ← ih hTail, List.take_of_length_le (by omega), taken_append,
        if_pos ((taken_char hC hNone.2).2 hFits.2)]
      have hForm : formLength [c] = (FormUrl.encode (String.utf8EncodeChar c)).length := by
        rw [formLength_cons]
        rfl
      rw [hForm]
      constructor
      · rintro ⟨front, hFront⟩
        obtain ⟨ds, rfl, hRest⟩ := Utf8.encode_eq_append hFront.symm
        exact ⟨ds, hRest.symm⟩
      · rintro ⟨front, hFront⟩
        exact ⟨c :: front, by rw [hFront, Utf8.encode_cons]⟩
    · -- a part of the character is taken
      refine iff_of_false ?_ (fun h => hFits h.1)
      rintro ⟨front, hFront⟩
      by_cases hRoom : c.utf8Size ≤ room
      · have hCut : ¬taken 256 di (String.utf8EncodeChar c) = String.utf8EncodeChar c := by
          rw [taken_char hC hNone.2]
          exact fun h => hFits ⟨hRoom, h⟩
        rw [List.take_of_length_le (by omega), taken_append, if_neg hCut] at hFront
        have hPart := taken_isPrefix 256 di (String.utf8EncodeChar c)
        refine Utf8.part_ne_encode hPart (hSome _ (List.length_pos_iff.1 (by omega)) hBytes) ?_
          hFront.symm
        have hLe := hPart.length_le
        refine Nat.lt_of_le_of_ne (by omega) fun hEq => hCut ?_
        exact hPart.eq_of_length (by omega)
      · have hZero : room - c.utf8Size = 0 := by omega
        rw [hZero, List.take_zero, List.append_nil] at hFront
        have hTake := List.take_prefix room (String.utf8EncodeChar c)
        have hPart := taken_isPrefix 256 di ((String.utf8EncodeChar c).take room)
        refine Utf8.part_ne_encode (hPart.trans hTake) (hSome _ ?_ ?_) ?_ hFront.symm
        · exact List.length_pos_iff.1 (by rw [List.length_take]; omega)
        · exact fun b hMem => hBytes b (List.mem_of_mem_take hMem)
        · have hLe := hPart.length_le
          rw [List.length_take] at hLe
          omega

end Characters

-- ---------------------------------------------------------------------------
-- Keywords
-- ---------------------------------------------------------------------------

/-- What the buffers take from, as a text: the cleaned title, a blank and the artist, or
nothing but a title that fills its buffer up to the middle of a character. -/
def keywordText (title artist : List Char) : List Char :=
  let part := beforeParen title
  let clean := trimRight (Utf8.whole 127 part)
  if Utf8.fragment 127 part ≠ [] then part
  else if clean ≠ [] then clean ++ ' ' :: artist
  else if Utf8.fragment 127 title ≠ [] then title
  else Utf8.whole 127 title ++ ' ' :: artist

/-- What is to be sent of the keyword: all of it or as many whole characters as fit. -/
structure KeywordSent (title artist : Bytes) : Prop where
  inside : (searchEncoded title artist).length < 256
  start : FormUrl.decode (searchEncoded title artist) <+: cleanTitle title ++ 0x20 :: cstr artist
  full : FormUrl.decode (searchEncoded title artist) = cleanTitle title ++ 0x20 :: cstr artist ∨
    127 ≤ (FormUrl.decode (searchEncoded title artist)).length ∨
      253 ≤ (searchEncoded title artist).length
  characters : ∃ cs, FormUrl.decode (searchEncoded title artist) = encode cs

section Keyword

theorem encode_eq_nil {cs : List Char} : encode cs = [] ↔ cs = [] :=
  Utf8.encode_injective.eq_iff (b := [])

theorem take_full {w : Bytes} (n : Nat) (hLength : n ≤ w.length) (rest : Bytes) :
    (w.take n ++ rest).take n = w.take n := by
  rw [List.take_append_of_le_length (by rw [List.length_take]; omega), List.take_take,
    Nat.min_self]

theorem fragment_length {n : Nat} {cs : List Char} (hCut : Utf8.fragment n cs ≠ []) :
    n ≤ (encode cs).length := by
  by_contra hLt
  refine hCut ?_
  have hTake := Utf8.take_encode n cs
  rw [List.take_of_length_le (by omega), Utf8.whole_of_fits (by omega)] at hTake
  exact List.append_right_eq_self.1 hTake.symm

theorem searchKeyword_text (title artist : PlainText) :
    searchKeyword (encode title.chars) (encode artist.chars) =
      (encode (keywordText title.chars artist.chars)).take 127 := by
  have hTake (cs : List Char) (hWhole : Utf8.fragment 127 cs = []) :
      (encode cs).take 127 = encode (Utf8.whole 127 cs) := by
    rw [Utf8.take_encode, hWhole, List.append_nil]
  have hBlank (cs ds : List Char) :
      encode cs ++ 0x20 :: encode ds = encode (cs ++ ' ' :: ds) := by
    rw [Utf8.encode_append, Utf8.encode_cons]
    rfl
  have hNotNil (cs : List Char) (hCut : Utf8.fragment 127 cs ≠ []) :
      (encode cs).take 127 ≠ [] := by
    rw [Utf8.take_encode]
    exact fun h => hCut (List.append_eq_nil_iff.1 h).2
  rw [searchKeyword, cleanTitle, stripTitleSuffix_encode, cstr_encode, cstr_encode, keywordText]
  dsimp only
  by_cases hPart : Utf8.fragment 127 (beforeParen title.chars) = []
  · rw [if_pos hPart, if_neg (not_not.2 hPart)]
    by_cases hClean : trimRight (Utf8.whole 127 (beforeParen title.chars)) = []
    · rw [if_pos (encode_eq_nil.2 hClean), if_neg (not_not.2 hClean)]
      by_cases hTitle : Utf8.fragment 127 title.chars = []
      · rw [if_neg (not_not.2 hTitle), hTake _ hTitle, hBlank]
      · rw [if_pos hTitle, take_full 127 (fragment_length hTitle)]
    · rw [if_neg (fun h => hClean (encode_eq_nil.1 h)), if_pos hClean, hBlank]
  · rw [if_neg hPart, if_pos hPart, if_neg (hNotNil _ hPart), take_full 127 (fragment_length hPart)]

theorem keywordText_no_nul (title artist : PlainText) :
    ∀ c ∈ keywordText title.chars artist.chars, c ≠ Char.ofNat 0 := by
  have hPart : ∀ c ∈ beforeParen title.chars, c ≠ Char.ofNat 0 := fun c hMem =>
    title.no_nul c ((List.takeWhile_prefix _).mem hMem)
  have hArtist : ∀ c ∈ ' ' :: artist.chars, c ≠ Char.ofNat 0 :=
    List.forall_mem_cons.2 ⟨by decide, artist.no_nul⟩
  rw [keywordText]
  split_ifs
  · exact hPart
  · refine List.forall_mem_append.2 ⟨fun c hMem => hPart c ?_, hArtist⟩
    exact (Utf8.whole_prefix _ _).mem ((List.rdropWhile_prefix _ _).mem hMem)
  · exact title.no_nul
  · refine List.forall_mem_append.2 ⟨fun c hMem => title.no_nul c ?_, hArtist⟩
    exact (Utf8.whole_prefix _ _).mem hMem

theorem zero_not_mem_encode {cs : List Char} (hNul : ∀ c ∈ cs, c ≠ Char.ofNat 0) :
    0 ∉ encode cs := by
  intro hMem
  obtain ⟨c, hC, hByte⟩ := List.mem_flatMap.1 hMem
  have hSame := byte_eq_char 0 hByte (d := Char.ofNat 0) rfl (by decide)
  rw [decide_eq_true rfl] at hSame
  exact hNul c hC (of_decide_eq_true hSame.symm)

theorem decode_searchEncoded (title artist : Bytes) :
    FormUrl.decode (searchEncoded title artist) = taken 256 0 (searchKeyword title artist) := by
  rw [searchEncoded, urlEncode, urlEncodeFrom_eq, FormUrl.decode_encode]

theorem characters_iff (title artist : PlainText) :
    (∃ cs, FormUrl.decode (searchEncoded (encode title.chars) (encode artist.chars)) = encode cs) ↔
      NotCut 127 0 (keywordText title.chars artist.chars) := by
  rw [decode_searchEncoded, searchKeyword_text]
  exact taken_whole (keywordText_no_nul title artist)

/-- **Search keywords.** Of a title and an artist whole characters are sent exactly if no
character of the keyword begins while there is room in the buffers and ends behind it. -/
theorem keyword_iff (title artist : PlainText) :
    KeywordSent (encode title.chars) (encode artist.chars) ↔
      NotCut 127 0 (keywordText title.chars artist.chars) := by
  refine ⟨fun h => (characters_iff title artist).1 h.characters, fun h => ?_⟩
  refine ⟨urlEncode_length (by decide) _, ?_, ?_, (characters_iff title artist).2 h⟩
  · rw [decode_searchEncoded]
    exact (taken_isPrefix _ _ _).trans (List.take_prefix _ _)
  · have hNul := zero_not_mem_encode (keywordText_no_nul title artist)
    have hZero : 0 ∉ searchKeyword (encode title.chars) (encode artist.chars) := by
      rw [searchKeyword_text]
      exact fun hMem => hNul (List.mem_of_mem_take hMem)
    rw [decode_searchEncoded, searchEncoded, urlEncode, urlEncodeFrom_eq]
    rcases taken_all 256 0 hZero with hAll | hFull
    · rw [hAll, searchKeyword]
      by_cases hFits : (cleanTitle (encode title.chars) ++
          0x20 :: cstr (encode artist.chars)).length ≤ 127
      · exact .inl (List.take_of_length_le hFits)
      · refine .inr (.inl ?_)
        rw [List.length_take]
        omega
    · exact .inr (.inr (by omega))

/-- `ABC` with twenty characters of three bytes, and eight of them for the artist. -/
def cutTitle : PlainText :=
  ⟨"ABC".toList ++ List.replicate 20 '中', List.all_iff_forall_prop.1 (by decide +kernel)⟩

def cutArtist : PlainText := ⟨List.replicate 8 '中', List.all_iff_forall_prop.1 (by decide +kernel)⟩

theorem keyword_cut : ¬∀ title artist : PlainText,
    KeywordSent (encode title.chars) (encode artist.chars) := by
  intro hAll
  have hWhole := (characters_iff cutTitle cutArtist).1 (hAll cutTitle cutArtist).characters
  have hLast := hWhole (cutTitle.chars ++ ' ' :: List.replicate 7 '中') '中' []
    (by decide +kernel) (by decide +kernel) (by decide +kernel)
  revert hLast
  decide +kernel

end Keyword

end EspMiplay.Lyrics
