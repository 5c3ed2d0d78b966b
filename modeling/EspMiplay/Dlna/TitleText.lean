import EspMiplay.Dlna.Metadata
import EspMiplay.Dlna.SoapArgs
import EspMiplay.Lib.Utf8
import EspMiplay.Lib.Xml
import EspMiplay.Miplay.JsonForm

/-!
# The title of a track

A title is escaped twice on its way: as the text of `dc:title` in the DIDL-Lite document, and
with the document as the text of CurrentURIMetaData. Three functions undo this in parts:
`xml_get` gives the argument as it stands, `html_unescape` resolves the five names, and
`decode_html_entities` the decimal numbers. So names are resolved on the outer level and
decimal numbers on the inner one.

## Results

* `metadata_read`   — `extract_tag` gives the text of `dc:title` as it stands in the document.
* `decoded_title`   — `decode_html_entities` resolves decimal references.
* `title_recovered` — the way of a title, and that the three functions stay in their buffers.
-/

namespace EspMiplay.Dlna

open EspMiplay.Miplay
  (Bytes ascii peek cstr strstr strstr_skip isDigit cstr_append_zero cstr_eq_self)
open Xml (Item Decodes Mode)

-- ---------------------------------------------------------------------------
-- Escaping by name
-- ---------------------------------------------------------------------------

/-- Which characters are escaped beside `&` and `<`. -/
structure Style where
  gt : Bool
  quot : Bool
  apos : Bool

namespace Style

def escapeByte (s : Style) (c : UInt8) : Bytes :=
  if c = 0x26 then ascii "&amp;"
  else if c = 0x3C then ascii "&lt;"
  else if c = 0x3E ∧ s.gt then ascii "&gt;"
  else if c = 0x22 ∧ s.quot then ascii "&quot;"
  else if c = 0x27 ∧ s.apos then ascii "&apos;"
  else [c]

def escape (s : Style) (t : Bytes) : Bytes := t.flatMap s.escapeByte

variable (s : Style)

@[simp] theorem escape_nil : s.escape [] = [] := rfl

@[simp] theorem escape_cons (c : UInt8) (t : Bytes) :
    s.escape (c :: t) = s.escapeByte c ++ s.escape t :=
  List.flatMap_cons

@[simp] theorem escape_append (t u : Bytes) : s.escape (t ++ u) = s.escape t ++ s.escape u :=
  List.flatMap_append

/-- The name, where there is one: its letters are those of one of the five entities. -/
theorem escapeByte_cases (c : UInt8) :
    (s.escapeByte c = [c] ∧ c ≠ 0x26 ∧ c ≠ 0x3C ∧ ¬(c = 0x3E ∧ s.gt)) ∨
      c = 0x26 ∧ s.escapeByte c = ascii "&amp;" ∨ c = 0x3C ∧ s.escapeByte c = ascii "&lt;" ∨
      c = 0x3E ∧ s.escapeByte c = ascii "&gt;" ∨ c = 0x22 ∧ s.escapeByte c = ascii "&quot;" ∨
      c = 0x27 ∧ s.escapeByte c = ascii "&apos;" := by
  unfold escapeByte
  split_ifs with hAmp hLt hGt hQuot hApos
  · exact .inr (.inl ⟨hAmp, rfl⟩)
  · exact .inr (.inr (.inl ⟨hLt, rfl⟩))
  · exact .inr (.inr (.inr (.inl ⟨hGt.1, rfl⟩)))
  · exact .inr (.inr (.inr (.inr (.inl ⟨hQuot.1, rfl⟩))))
  · exact .inr (.inr (.inr (.inr (.inr ⟨hApos.1, rfl⟩))))
  · exact .inl ⟨rfl, hAmp, hLt, hGt⟩

/-- A character that needs no name -/
def Plain (c : UInt8) : Prop := c ∉ ([0x26, 0x3C, 0x3E, 0x22, 0x27] : Bytes)

instance (c : UInt8) : Decidable (Plain c) := inferInstanceAs (Decidable (¬_))

theorem escapeByte_plain {c : UInt8} (h : Plain c) : s.escapeByte c = [c] := by
  simp only [Plain, List.mem_cons, List.not_mem_nil, not_or, not_false_eq_true, and_true] at h
  obtain ⟨hAmp, hLt, hGt, hQuot, hApos⟩ := h
  rw [escapeByte, if_neg hAmp, if_neg hLt, if_neg (fun hEq => hGt hEq.1),
    if_neg (fun hEq => hQuot hEq.1), if_neg (fun hEq => hApos hEq.1)]

theorem escape_plain {t : Bytes} (h : ∀ c ∈ t, Plain c) : s.escape t = t := by
  induction t with
  | nil => rfl
  | cons c t ih =>
    obtain ⟨hThis, hRest⟩ := List.forall_mem_cons.1 h
    rw [escape_cons, s.escapeByte_plain hThis, ih hRest]
    rfl

/-- The first byte of an escaped character, which is no NUL and no raw `>` -/
theorem escapeByte_head {c : UInt8} (hNul : c ≠ 0) (hGt : c = 0x3E → s.gt) :
    ∃ d ds, s.escapeByte c = d :: ds ∧ d ≠ 0 ∧ d ≠ 0x3E ∧ (d ≠ 0x26 → s.escapeByte c = [c]) := by
  rcases s.escapeByte_cases c with ⟨hLit, hAmp, -, hRaw⟩ | ⟨rfl, h⟩ | ⟨rfl, h⟩ | ⟨rfl, h⟩ |
    ⟨rfl, h⟩ | ⟨rfl, h⟩
  · exact ⟨c, [], hLit, hNul, fun hEq => hRaw ⟨hEq, hGt hEq⟩, fun _ => hLit⟩
  all_goals exact ⟨0x26, _, h, by decide, by decide, fun hNe => absurd rfl hNe⟩

end Style

-- ---------------------------------------------------------------------------
-- Unescaping
-- ---------------------------------------------------------------------------

/-- The letters of a reference that is resolved -/
theorem htmlUnescape_skip (room : Nat) (w r : Bytes) (len : Nat) :
    htmlUnescape room len w.length (w ++ r) = htmlUnescape room (len - w.length) 0 r := by
  induction w generalizing len with
  | nil => rfl
  | cons c w ih =>
    rw [List.length_cons, List.cons_append, htmlUnescape, if_pos (Nat.succ_pos _),
      Nat.add_sub_cancel, ih]
    congr 1
    omega

theorem htmlUnescape_entity {room len : Nat} {entity : Bytes} {ch : UInt8} {w r : Bytes}
    (hFind : htmlEntities.find? (fun e => e.1.isPrefixOf (0x26 :: (w ++ r))) = some (entity, ch))
    (hWhole : entity = 0x26 :: w) (hLen : 0 < len) (hRoom : 0 < room) :
    htmlUnescape room len 0 (0x26 :: (w ++ r)) =
      ch :: htmlUnescape (room - 1) (len - (w.length + 1)) 0 r := by
  rw [htmlUnescape, if_neg (Nat.lt_irrefl 0), if_neg (by omega), hFind]
  simp only [hWhole, List.length_cons, Nat.add_sub_cancel]
  rw [htmlUnescape_skip, Nat.sub_sub, Nat.add_comm 1]

theorem htmlUnescape_literal {room len : Nat} {c : UInt8} (hAmp : c ≠ 0x26) (hLen : 0 < len)
    (hRoom : 0 < room) (r : Bytes) :
    htmlUnescape room len 0 (c :: r) = c :: htmlUnescape (room - 1) (len - 1) 0 r := by
  -- every entity begins with an ampersand
  have hFind : htmlEntities.find? (fun e => e.1.isPrefixOf (c :: r)) = none := by
    rw [List.find?_eq_none]
    intro e he hPrefix
    simp only [htmlEntities, List.mem_cons, List.not_mem_nil, or_false] at he
    rw [List.isPrefixOf_iff_prefix] at hPrefix
    rcases he with rfl | rfl | rfl | rfl | rfl <;>
      exact hAmp (List.cons_prefix_cons.1 hPrefix).1.symm
  rw [htmlUnescape, if_neg (Nat.lt_irrefl 0), if_neg (by omega), hFind]

/-- A character is what it was. -/
theorem htmlUnescape_byte (s : Style) {room len : Nat} (c : UInt8)
    (hLen : (s.escapeByte c).length ≤ len) (hRoom : 0 < room) (r : Bytes) :
    htmlUnescape room len 0 (s.escapeByte c ++ r) =
      c :: htmlUnescape (room - 1) (len - (s.escapeByte c).length) 0 r := by
  have hLonger (hNe : s.escapeByte c ≠ []) : 0 < len :=
    Nat.lt_of_lt_of_le (List.length_pos_iff.2 hNe) hLen
  rcases s.escapeByte_cases c with ⟨h, hAmp, -⟩ | ⟨rfl, h⟩ | ⟨rfl, h⟩ | ⟨rfl, h⟩ | ⟨rfl, h⟩ |
    ⟨rfl, h⟩
  · rw [h]
    exact htmlUnescape_literal hAmp (hLonger (by rw [h]; exact List.cons_ne_nil _ _)) hRoom r
  all_goals
    rw [h]
    exact htmlUnescape_entity rfl rfl (hLonger (by rw [h]; exact List.cons_ne_nil _ _)) hRoom

theorem htmlUnescape_escape (s : Style) {t : Bytes} {room : Nat} (hRoom : t.length ≤ room)
    (r : Bytes) : htmlUnescape room (s.escape t).length 0 (s.escape t ++ r) = t := by
  induction t generalizing room with
  | nil => cases r <;> rfl
  | cons c t ih =>
    rw [List.length_cons] at hRoom
    rw [Style.escape_cons, List.length_append, List.append_assoc,
      htmlUnescape_byte s c (Nat.le_add_right _ _) (by omega), Nat.add_sub_cancel_left,
      ih (by omega)]

-- ---------------------------------------------------------------------------
-- Searches in escaped text
-- ---------------------------------------------------------------------------

/-- A needle that begins with an escaped bracket does not begin inside another character. -/
theorem strstr_escapeByte (s : Style) {c : UInt8} (hNul : c ≠ 0) (hLt : c ≠ 0x3C) (n r : Bytes) :
    strstr (0x26 :: 0x6C :: 0x74 :: n) (s.escapeByte c ++ r) =
      strstr (0x26 :: 0x6C :: 0x74 :: n) r := by
  -- the second byte of the other names is another one, and none of their letters is an ampersand
  have hName {w : Bytes} (hSecond : w.head? ≠ some 0x6C) (hNe : w ≠ [])
      (hLetters : ∀ c ∈ w, c ≠ 0 ∧ c ≠ 0x26) :
      strstr (0x26 :: 0x6C :: 0x74 :: n) (0x26 :: w ++ r) =
        strstr (0x26 :: 0x6C :: 0x74 :: n) r := by
    obtain ⟨d, ds, rfl⟩ := List.exists_cons_of_ne_nil hNe
    have hNot : ¬(0x26 :: 0x6C :: 0x74 :: n).isPrefixOf (0x26 :: d :: (ds ++ r)) := by
      rw [List.isPrefixOf_iff_prefix, List.cons_prefix_cons, List.cons_prefix_cons]
      exact fun h => hSecond (congrArg some h.2.1.symm)
    rw [List.cons_append, List.cons_append, strstr, if_neg hNot, if_neg (by decide),
      ← List.cons_append]
    exact strstr_skip hLetters r
  rcases s.escapeByte_cases c with ⟨h, hAmp, -⟩ | ⟨rfl, h⟩ | ⟨rfl, h⟩ | ⟨rfl, h⟩ | ⟨rfl, h⟩ |
    ⟨rfl, h⟩
  · rw [h]
    exact strstr_skip (List.forall_mem_singleton.2 ⟨hNul, hAmp⟩) r
  · rw [h]
    exact hName (w := ascii "amp;") (by decide) (by decide) (by decide +kernel)
  · exact absurd rfl hLt
  · rw [h]
    exact hName (w := ascii "gt;") (by decide) (by decide) (by decide +kernel)
  · rw [h]
    exact hName (w := ascii "quot;") (by decide) (by decide) (by decide +kernel)
  · rw [h]
    exact hName (w := ascii "apos;") (by decide) (by decide) (by decide +kernel)

theorem strstr_escape (s : Style) {t : Bytes} (hClean : Clean t) (n r : Bytes) :
    strstr (0x26 :: 0x6C :: 0x74 :: n) (s.escape t ++ r) =
      strstr (0x26 :: 0x6C :: 0x74 :: n) r := by
  induction t with
  | nil => rfl
  | cons c t ih =>
    obtain ⟨⟨hNul, hLt⟩, hRest⟩ := List.forall_mem_cons.1 hClean
    rw [Style.escape_cons, List.append_assoc, strstr_escapeByte s hNul hLt, ih hRest]

/-- A plain needle in front of an escaped text is in front of the text. -/
theorem prefix_of_escape (s : Style) {n t r : Bytes} (hPlain : ∀ c ∈ n, Style.Plain c)
    (hr : r = [] ∨ r.head? = some 0x26) (h : n <+: s.escape t ++ r) : n <+: t := by
  induction t generalizing n with
  | nil =>
    cases n with
    | nil => exact List.nil_prefix
    | cons d n =>
      rw [Style.escape_nil, List.nil_append] at h
      rcases hr with rfl | hHead
      · exact absurd h (by simp)
      · obtain ⟨r', rfl⟩ := h
        obtain rfl := Option.some.inj hHead
        exact absurd (hPlain _ List.mem_cons_self) (by decide)
  | cons c t ih =>
    cases n with
    | nil => exact List.nil_prefix
    | cons d n =>
      obtain ⟨hd, hn⟩ := List.forall_mem_cons.1 hPlain
      rw [Style.escape_cons, List.append_assoc] at h
      have hAmp (w : Bytes) : ¬d :: n <+: (0x26 :: w) ++ (s.escape t ++ r) := by
        rw [List.cons_append, List.cons_prefix_cons]
        rintro ⟨rfl, -⟩
        exact absurd hd (by decide)
      -- a plain byte is no ampersand, so no reference stands there
      rcases s.escapeByte_cases c with ⟨hLit, -⟩ | ⟨-, hRef⟩ | ⟨-, hRef⟩ | ⟨-, hRef⟩ | ⟨-, hRef⟩ |
        ⟨-, hRef⟩
      · rw [hLit, List.singleton_append, List.cons_prefix_cons] at h
        rw [List.cons_prefix_cons]
        exact ⟨h.1, ih hn h.2⟩
      all_goals
        rw [hRef] at h
        exact absurd h (hAmp _)

/-- Tags whose name does not begin like that are passed over. -/
theorem strstr_escape_tagged (s : Style) {n : Bytes} {ts : List Bytes}
    (hPlain : ∀ c ∈ n, Style.Plain c) (hClean : ∀ t ∈ ts, Clean t) (hNot : ∀ t ∈ ts, ¬n <+: t)
    (us : List Bytes) :
    strstr (0x26 :: 0x6C :: 0x74 :: 0x3B :: n) (s.escape (tagged (ts ++ us))) =
      strstr (0x26 :: 0x6C :: 0x74 :: 0x3B :: n) (s.escape (tagged us)) := by
  induction ts with
  | nil => rfl
  | cons t ts ih =>
    obtain ⟨hThis, hClean'⟩ := List.forall_mem_cons.1 hClean
    obtain ⟨hFront, hNot'⟩ := List.forall_mem_cons.1 hNot
    have hText : s.escape (tagged (t :: ts ++ us)) =
        0x26 :: 0x6C :: 0x74 :: 0x3B :: (s.escape t ++ s.escape (tagged (ts ++ us))) := by
      have hTags : tagged (t :: ts ++ us) = 0x3C :: (t ++ tagged (ts ++ us)) := by
        rw [List.cons_append, tagged, List.flatMap_cons]
        rfl
      rw [hTags, Style.escape_cons, Style.escape_append]
      rfl
    have hHead : s.escape (tagged (ts ++ us)) = [] ∨
        (s.escape (tagged (ts ++ us))).head? = some 0x26 := by
      cases ts ++ us with
      | nil => exact .inl rfl
      | cons u us => exact .inr rfl
    have hPrefix : ¬(0x26 :: 0x6C :: 0x74 :: 0x3B :: n).isPrefixOf
        (0x26 :: 0x6C :: 0x74 :: 0x3B :: (s.escape t ++ s.escape (tagged (ts ++ us)))) := by
      simp only [List.isPrefixOf_iff_prefix, List.cons_prefix_cons, true_and]
      exact fun h => hFront (prefix_of_escape s hPlain hHead h)
    have hLetters : ∀ c ∈ ([0x6C, 0x74, 0x3B] : Bytes), c ≠ 0 ∧ c ≠ 0x26 := by decide +kernel
    rw [hText, strstr, if_neg hPrefix, if_neg (by decide)]
    exact (strstr_skip hLetters _).trans
      ((strstr_escape s hThis (0x3B :: n) _).trans (ih hClean' hNot'))

-- ---------------------------------------------------------------------------
-- The start tag
-- ---------------------------------------------------------------------------

theorem skipEscapedTag_plain {c : UInt8} {r : Bytes} (hNul : c ≠ 0) (hAmp : c ≠ 0x26)
    (hGt : c ≠ 0x3E) (hNext : peek r ≠ 0x3E) : skipEscapedTag (c :: r) = skipEscapedTag r := by
  have hNot : ¬(ascii "&gt;").isPrefixOf (c :: r) := by
    rw [List.isPrefixOf_iff_prefix]
    exact fun h => hAmp (List.cons_prefix_cons.1 h).1.symm
  rw [skipEscapedTag, if_neg hNul, if_neg hNot, if_neg hGt, if_neg (fun h => hNext h.2)]

theorem skipEscapedTag_letters {w r : Bytes} (h : ∀ c ∈ w, c ≠ 0 ∧ c ≠ 0x26 ∧ c ≠ 0x3E)
    (hNext : peek r ≠ 0x3E) : skipEscapedTag (w ++ r) = skipEscapedTag r := by
  induction w with
  | nil => rfl
  | cons c w ih =>
    obtain ⟨⟨hNul, hAmp, hGt⟩, hRest⟩ := List.forall_mem_cons.1 h
    rw [List.cons_append, skipEscapedTag_plain hNul hAmp hGt, ih hRest]
    cases w with
    | nil => exact hNext
    | cons d w => exact (hRest d List.mem_cons_self).2.2

/-- A reference in an attribute, unless it is to a `>` -/
theorem skipEscapedTag_ref {w r : Bytes} (hFirst : w.head? ≠ some 0x67) (hNe : w ≠ [])
    (h : ∀ c ∈ w, c ≠ 0 ∧ c ≠ 0x26 ∧ c ≠ 0x3E) (hNext : peek r ≠ 0x3E) :
    skipEscapedTag (0x26 :: w ++ r) = skipEscapedTag r := by
  obtain ⟨d, ds, rfl⟩ := List.exists_cons_of_ne_nil hNe
  have hNot : ¬(ascii "&gt;").isPrefixOf (0x26 :: d :: (ds ++ r)) := by
    rw [List.isPrefixOf_iff_prefix]
    exact fun hPrefix => hFirst (congrArg some
      (List.cons_prefix_cons.1 (List.cons_prefix_cons.1 hPrefix).2).1.symm)
  rw [List.cons_append, List.cons_append, skipEscapedTag, if_neg (by decide), if_neg hNot,
    if_neg (by decide), if_neg (fun hSlash => absurd hSlash.1 (by decide)), ← List.cons_append]
  exact skipEscapedTag_letters h hNext

theorem skipEscapedTag_byte (s : Style) {c : UInt8} {r : Bytes} (hNul : c ≠ 0) (hLt : c ≠ 0x3C)
    (hGt : c ≠ 0x3E) (hNext : peek r ≠ 0x3E) :
    skipEscapedTag (s.escapeByte c ++ r) = skipEscapedTag r := by
  rcases s.escapeByte_cases c with ⟨h, hAmp, -⟩ | ⟨rfl, h⟩ | ⟨rfl, h⟩ | ⟨rfl, h⟩ | ⟨rfl, h⟩ |
    ⟨rfl, h⟩
  · rw [h]
    exact skipEscapedTag_plain hNul hAmp hGt hNext
  · rw [h]
    exact skipEscapedTag_ref (w := ascii "amp;") (by decide) (by decide) (by decide +kernel) hNext
  · exact absurd rfl hLt
  · exact absurd rfl hGt
  · rw [h]
    exact skipEscapedTag_ref (w := ascii "quot;") (by decide) (by decide) (by decide +kernel) hNext
  · rw [h]
    exact skipEscapedTag_ref (w := ascii "apos;") (by decide) (by decide) (by decide +kernel) hNext

/-- Attributes without a `>` are passed over. -/
theorem skipEscapedTag_escape (s : Style) {t : Bytes} (hClean : Clean t) (hGt : 0x3E ∉ t)
    (r : Bytes) : skipEscapedTag (s.escape t ++ (ascii "&gt;" ++ r)) = r := by
  induction t with
  | nil =>
    have hHere : (ascii "&gt;").isPrefixOf (0x26 :: (ascii "gt;" ++ r)) := by
      rw [List.isPrefixOf_iff_prefix]
      exact List.prefix_append (ascii "&gt;") r
    have hText : s.escape [] ++ (ascii "&gt;" ++ r) = 0x26 :: (ascii "gt;" ++ r) := rfl
    rw [hText, skipEscapedTag, if_neg (by decide), if_pos hHere]
    rfl
  | cons c t ih =>
    obtain ⟨⟨hNul, hLt⟩, hRest⟩ := List.forall_mem_cons.1 hClean
    rw [List.mem_cons, not_or] at hGt
    -- `/>` does not occur: every `>` is escaped
    have hNext : peek (s.escape t ++ (ascii "&gt;" ++ r)) ≠ 0x3E := by
      cases t with
      | nil => exact (by decide : (0x26 : UInt8) ≠ 0x3E)
      | cons d t =>
        have hd := (List.forall_mem_cons.1 hRest).1
        have hRaw : d ≠ 0x3E := fun hEq => hGt.2 (by rw [hEq]; exact List.mem_cons_self)
        obtain ⟨e, es, hHead, -, hPlain, -⟩ :=
          s.escapeByte_head hd.1 fun hEq => absurd hEq hRaw
        rw [Style.escape_cons, hHead]
        exact hPlain
    rw [Style.escape_cons, List.append_assoc,
      skipEscapedTag_byte s hNul hLt (fun hEq => hGt.1 hEq.symm) hNext, ih hRest hGt.2]

-- ---------------------------------------------------------------------------
-- The document
-- ---------------------------------------------------------------------------

def dcTitle : Bytes := ascii "dc:title"

theorem dcTitle_plain : ∀ c ∈ dcTitle, Style.Plain c := by decide +kernel

/-- A DIDL-Lite document: the tags in front of the title, each up to the next one without its
angle bracket, the title, and what is behind its end tag. -/
structure Didl where
  lead : Bytes
  before : List Bytes
  attrs : Attributes
  title : List Item
  gap : Bytes
  behind : Bytes

namespace Didl

variable (d : Didl)

def startTag : Bytes := dcTitle ++ (d.attrs.bytes ++ 0x3E :: Xml.render d.title)

def endTag : Bytes := 0x2F :: (dcTitle ++ (d.gap ++ 0x3E :: d.behind))

def text : Bytes := d.lead ++ tagged (d.before ++ [d.startTag, d.endTag])

end Didl

/-- The title is the first `dc:title` of the document. -/
structure Didl.Ok (d : Didl) : Prop where
  lead : Clean d.lead
  before : ∀ t ∈ d.before, Clean t ∧ tagName t ≠ dcTitle
  attrs : d.attrs.Ok
  title : Xml.Ok .text d.title
  gap : ∀ c ∈ d.gap, isBlank c

/-- What `extract_tag` has to meet. -/
structure Didl.Found (d : Didl) : Prop where
  first : ∀ t ∈ d.before, ¬dcTitle <+: t
  attrs : 0x3E ∉ d.attrs.bytes
  gap : d.gap = []
  fits : (Xml.render d.title).length ≤ 255

/-- No markup begins in the text of an element. -/
theorem clean_render {t : List Item} (h : Xml.Ok .text t) : Clean (Xml.render t) := by
  intro c hc
  obtain ⟨i, hi, hMem⟩ := List.mem_flatMap.1 hc
  have hOk := h i hi
  cases i with
  | byte b =>
    obtain rfl := List.mem_singleton.1 hMem
    exact ⟨hOk.2.2, fun hEq => hOk.1 (List.mem_singleton.2 hEq)⟩
  | ref body =>
    obtain ⟨ch, hch⟩ := Option.isSome_iff_exists.1 hOk
    rw [Item.render, List.cons_append, List.mem_cons, List.mem_append, List.mem_singleton] at hMem
    rcases hMem with rfl | hBody | rfl
    · decide
    · have hByte := Xml.refChar_bytes hch c hBody
      constructor <;> rintro rfl <;> exact absurd hByte (by decide)
    · decide

/-- **The text of `dc:title`.** -/
theorem metadata_read {d : Didl} (h : d.Ok) (hFound : d.Found) {s : Style} (hGt : s.gt) :
    extractTag 256 (s.escape d.text) dcTitle = some (Xml.render d.title) := by
  have hTitle := clean_render h.title
  have hGreater : s.escapeByte 0x3E = ascii "&gt;" := by
    rw [Style.escapeByte, if_neg (by decide), if_neg (by decide), if_pos ⟨rfl, hGt⟩]
  have hBracket : s.escapeByte 0x3C = ascii "&lt;" := rfl
  have hSlash : s.escapeByte 0x2F = [0x2F] := s.escapeByte_plain (by decide)
  have hName := s.escape_plain dcTitle_plain
  -- the two tags in their escaped form
  have hOwn : s.escape (tagged [d.startTag, d.endTag]) =
      0x26 :: 0x6C :: 0x74 :: 0x3B :: dcTitle ++ (s.escape d.attrs.bytes ++ (ascii "&gt;" ++
        (s.escape (Xml.render d.title) ++ (ascii "&lt;/" ++ dcTitle ++ ascii "&gt;" ++
          s.escape d.behind)))) := by
    have hTags : tagged [d.startTag, d.endTag] = 0x3C :: (d.startTag ++ 0x3C :: d.endTag) := by
      rw [tagged, List.flatMap_cons, List.flatMap_singleton]
      rfl
    rw [hTags, Didl.startTag, Didl.endTag, hFound.gap]
    simp only [Style.escape_cons, Style.escape_append, hGreater, hBracket, hSlash, hName,
      List.nil_append, List.append_assoc, List.cons_append]
    rfl
  -- `x` is the text of the element and what follows
  generalize hBehind : s.escape d.behind = behind at hOwn
  generalize hText : s.escape (Xml.render d.title) ++ (ascii "&lt;/" ++ dcTitle ++ ascii "&gt;" ++
    behind) = x at hOwn
  have hStart : strstr (ascii "&lt;" ++ dcTitle) (s.escape d.text) =
      some (0x26 :: 0x6C :: 0x74 :: 0x3B :: dcTitle ++
        (s.escape d.attrs.bytes ++ (ascii "&gt;" ++ x))) := by
    have hNeedle : ascii "&lt;" ++ dcTitle = 0x26 :: 0x6C :: 0x74 :: 0x3B :: dcTitle := rfl
    rw [hNeedle, Didl.text, Style.escape_append, strstr_escape s h.lead,
      strstr_escape_tagged s dcTitle_plain (fun t ht => (h.before t ht).1) hFound.first, hOwn]
    exact if_pos (List.isPrefixOf_iff_prefix.2 (List.prefix_append _ _))
  have hSkip := skipEscapedTag_escape s h.attrs.clean hFound.attrs x
  have hClose : strstr (ascii "&lt;/" ++ dcTitle ++ ascii "&gt;") x =
      some (ascii "&lt;/" ++ dcTitle ++ ascii "&gt;" ++ behind) := by
    have hNeedle : ascii "&lt;/" ++ dcTitle ++ ascii "&gt;" =
        0x26 :: 0x6C :: 0x74 :: (0x3B :: 0x2F :: (dcTitle ++ ascii "&gt;")) := rfl
    rw [← hText, hNeedle, strstr_escape s hTitle]
    exact if_pos (List.isPrefixOf_iff_prefix.2 (List.prefix_append _ _))
  have hSome : peek x ≠ 0 := by
    rw [← hText]
    cases hRender : Xml.render d.title with
    | nil => exact (by decide : (0x26 : UInt8) ≠ 0)
    | cons c t =>
      have hc := hTitle c (by rw [hRender]; exact List.mem_cons_self)
      obtain ⟨e, es, hHead, hNul, -⟩ := s.escapeByte_head hc.1 fun _ => hGt
      rw [Style.escape_cons, hHead]
      exact hNul
  have hDrop : (0x26 :: 0x6C :: 0x74 :: 0x3B :: dcTitle ++
      (s.escape d.attrs.bytes ++ (ascii "&gt;" ++ x))).drop (ascii "&lt;" ++ dcTitle).length =
      s.escape d.attrs.bytes ++ (ascii "&gt;" ++ x) :=
    List.drop_left' rfl
  rw [extractTag, hStart]
  simp only [hDrop, hSkip]
  rw [tagText, if_neg hSome, hClose, Option.map_some, ← hText, List.length_append,
    Nat.add_sub_cancel, htmlUnescape_escape s hFound.fits]

-- ---------------------------------------------------------------------------
-- Decimal references
-- ---------------------------------------------------------------------------

theorem low_bits (n : Nat) : n &&& 0x3F = n % 64 := Nat.and_two_pow_sub_one_eq_mod n 6

theorem continuation (n : Nat) : (0x80 ||| n &&& 0x3F) = n % 64 + 0x80 := by
  rw [low_bits, Nat.add_comm]
  exact (Nat.two_pow_add_eq_or_of_lt (i := 6) (Nat.mod_lt n (by decide)) 2).symm

/-- The bytes that are written for a character are its UTF-8. -/
theorem utf8Encode_char (c : Char) : utf8Encode c.toNat = String.utf8EncodeChar c := by
  have hMax := Utf8.toNat_lt c
  have hByte {a : UInt8} {n : Nat} (h : a.toNat = n) : n.toUInt8 = a := by
    rw [← h]
    exact UInt8.ofNat_toNat
  rw [utf8Encode]
  simp only [continuation, Nat.shiftRight_eq_div_pow, Nat.reducePow]
  by_cases hOne : c.toNat < 0x80
  · obtain ⟨a, hEncode, hA⟩ := Utf8.encodeChar_one hOne
    rw [if_pos hOne, hEncode, hByte hA]
  rw [if_neg hOne]
  by_cases hTwo : c.toNat < 0x800
  · obtain ⟨a, b, hEncode, hA, hB⟩ := Utf8.encodeChar_two (Nat.le_of_not_lt hOne) hTwo
    have hLead : (0xC0 ||| c.toNat / 64) = c.toNat / 64 + 0xC0 := by
      rw [Nat.add_comm]
      exact (Nat.two_pow_add_eq_or_of_lt (i := 6) (by omega) 3).symm
    rw [if_pos hTwo, hEncode, hLead, hByte hA, hByte hB]
  rw [if_neg hTwo]
  by_cases hThree : c.toNat < 0x10000
  · obtain ⟨a, b, d, hEncode, hA, hB, hD⟩ :=
      Utf8.encodeChar_three (Nat.le_of_not_lt hTwo) hThree
    have hLead : (0xE0 ||| c.toNat / 4096) = c.toNat / 4096 + 0xE0 := by
      rw [Nat.add_comm]
      exact (Nat.two_pow_add_eq_or_of_lt (i := 5) (by omega) 7).symm
    rw [if_pos hThree, hEncode, hLead, hByte hA, hByte hB, hByte hD]
  · obtain ⟨a, b, d, e, hEncode, hA, hB, hD, hE⟩ := Utf8.encodeChar_four (Nat.le_of_not_lt hThree)
    have hLead : (0xF0 ||| c.toNat / 262144) = c.toNat / 262144 + 0xF0 := by
      rw [Nat.add_comm]
      exact (Nat.two_pow_add_eq_or_of_lt (i := 4) (by omega) 15).symm
    rw [if_neg hThree, hEncode, hLead, hByte hA, hByte hB, hByte hD, hByte hE]

theorem isDigit_of_decDigit {c : UInt8} {d : Nat} (h : Xml.decDigit c = some d) :
    isDigit c ∧ c.toNat - 0x30 = d := by
  rw [Xml.decDigit] at h
  split_ifs at h with hRange
  refine ⟨?_, Option.some.inj h⟩
  simp only [isDigit, decide_eq_true_eq, UInt8.le_iff_toNat_le]
  exact hRange

/-- Numbers only grow with their digits, so none wraps that ends below 2^32. -/
theorem foldl_number {ds : Bytes} {acc n : Nat} (h : Xml.number 10 Xml.decDigit acc ds = some n)
    (hSmall : n < 4294967296) :
    ds.foldl (fun n d => (10 * n + (d.toNat - 0x30)) % 4294967296) acc = n ∧ acc ≤ n := by
  induction ds generalizing acc with
  | nil =>
    obtain rfl := Option.some.inj h
    exact ⟨rfl, le_rfl⟩
  | cons c ds ih =>
    obtain ⟨d, hDigit, hRest⟩ := Option.bind_eq_some_iff.1 h
    obtain ⟨hFold, hLe⟩ := ih hRest
    rw [List.foldl_cons, (isDigit_of_decDigit hDigit).2, Nat.mod_eq_of_lt (by omega)]
    exact ⟨hFold, by omega⟩

theorem number_isDigit {ds : Bytes} {acc n : Nat}
    (h : Xml.number 10 Xml.decDigit acc ds = some n) : ∀ c ∈ ds, isDigit c := by
  intro c hc
  obtain ⟨d, hDigit⟩ := Option.isSome_iff_exists.1 (Xml.number_digits h c hc)
  exact (isDigit_of_decDigit hDigit).1

/-- A byte, or a reference by a decimal number -/
def Decimal : Item → Prop
  | .byte _ => True
  | .ref body => body.head? = some 0x23 ∧ body.tail.head? ≠ some 0x78

instance : (i : Item) → Decidable (Decimal i)
  | .byte _ => .isTrue trivial
  | .ref body => inferInstanceAs (Decidable (body.head? = some 0x23 ∧ body.tail.head? ≠ some 0x78))

theorem decimal_ref {body : Bytes} {c : Char} (hRef : Xml.refChar body = some c)
    (h : Decimal (.ref body)) :
    ∃ ds, body = 0x23 :: ds ∧ Xml.number 10 Xml.decDigit 0 ds = some c.toNat := by
  rcases Xml.refChar_cases hRef with ⟨hName, -⟩ | ⟨d, ds, rfl, -⟩ | ⟨d, ds, rfl, hNumber⟩
  · simp only [List.mem_cons, List.not_mem_nil, or_false] at hName
    rcases hName with rfl | rfl | rfl | rfl | rfl <;> exact absurd h.1 (by decide)
  · exact absurd rfl h.2
  · exact ⟨d :: ds, rfl, hNumber⟩

theorem decodeHtmlEntities_skip (size pos : Nat) (w r : Bytes) :
    decodeHtmlEntities size pos w.length (w ++ r) = decodeHtmlEntities size pos 0 r := by
  induction w with
  | nil => rfl
  | cons c w ih =>
    rw [List.length_cons, List.cons_append, decodeHtmlEntities, if_pos (Nat.succ_pos _),
      Nat.add_sub_cancel, ih]

/-- An item that begins where there is room is resolved. -/
theorem decodeHtmlEntities_item {i : Item} (hOk : i.Ok .text) (h : Decimal i) {size pos : Nat}
    (hRoom : pos + 6 < size) (r : Bytes) :
    decodeHtmlEntities size pos 0 (i.render ++ r) =
      i.decode .text ++ decodeHtmlEntities size (pos + (i.decode .text).length) 0 r := by
  cases i with
  | byte c =>
    have hEnd : ¬(c = 0 ∨ ¬pos + 6 < size) := by
      rw [not_or, not_not]
      exact ⟨hOk.2.2, hRoom⟩
    rw [Item.render, List.singleton_append, decodeHtmlEntities, if_neg (Nat.lt_irrefl 0),
      if_neg hEnd, if_neg (fun hRef => hOk.2.1 hRef.1)]
    rfl
  | ref body =>
    obtain ⟨c, hc⟩ := Option.isSome_iff_exists.1 hOk
    obtain ⟨ds, rfl, hNumber⟩ := decimal_ref hc h
    have hDigits := number_isDigit hNumber
    have hSmall : c.toNat < 4294967296 := (Utf8.toNat_lt c).trans (by decide)
    have hValue : codepointOf ds = c.toNat := (foldl_number hNumber hSmall).1
    -- the digits end at the semicolon
    have hTake : (ds ++ 0x3B :: r).takeWhile isDigit = ds := by
      rw [List.takeWhile_append_of_pos hDigits, List.takeWhile_cons_of_neg (by decide),
        List.append_nil]
    have hDrop : (ds ++ 0x3B :: r).dropWhile isDigit = 0x3B :: r := by
      rw [List.dropWhile_append_of_pos hDigits, List.dropWhile_cons_of_neg (by decide)]
    have hText : (Item.ref (0x23 :: ds)).render ++ r = 0x26 :: 0x23 :: (ds ++ 0x3B :: r) := by
      simp [Item.render]
    have hDecode : (Item.ref (0x23 :: ds)).decode .text = String.utf8EncodeChar c := by
      rw [Item.decode, hc]
      rfl
    have hEnd : ¬((0x26 : UInt8) = 0 ∨ ¬pos + 6 < size) := by
      rw [not_or, not_not]
      exact ⟨by decide, hRoom⟩
    -- the number sign, the digits and the semicolon are skipped
    rw [hText, hDecode, decodeHtmlEntities, if_neg (Nat.lt_irrefl 0), if_neg hEnd,
      if_pos ⟨rfl, rfl⟩]
    simp only [List.drop_succ_cons, List.drop_zero, hTake, hDrop, hValue, utf8Encode_char]
    have hCount : 1 + ds.length + (if peek (0x3B :: r) = 0x3B then 1 else 0) =
        (0x23 :: ds ++ [0x3B]).length := by
      have hSemicolon : peek (0x3B :: r) = 0x3B := rfl
      rw [if_pos hSemicolon, List.length_append, List.length_cons, List.length_singleton,
        Nat.add_comm 1]
    have hRest : 0x23 :: (ds ++ 0x3B :: r) = (0x23 :: ds ++ [0x3B]) ++ r := by simp
    rw [hCount, hRest, decodeHtmlEntities_skip]

/-- **Titles.** A text of bytes and decimal references is resolved, where each item begins
before the last six bytes of the buffer. -/
theorem decoded_title {t : List Item} (hOk : Xml.Ok .text t) (hDecimal : ∀ i ∈ t, Decimal i)
    {size pos : Nat} (hRoom : pos + (Xml.decode .text t.dropLast).length + 6 < size) :
    decodeHtmlEntities size pos 0 (Xml.render t) = Xml.decode .text t := by
  induction t generalizing pos with
  | nil => rfl
  | cons i t ih =>
    obtain ⟨hThis, hRest⟩ := List.forall_mem_cons.1 hOk
    obtain ⟨hI, hDecimal'⟩ := List.forall_mem_cons.1 hDecimal
    rw [Xml.render_cons, Xml.decode_cons, decodeHtmlEntities_item hThis hI (by omega)]
    cases t with
    | nil => rfl
    | cons j t =>
      rw [List.dropLast_cons_of_ne_nil (List.cons_ne_nil j t), Xml.decode_cons,
        List.length_append] at hRoom
      rw [ih hRest hDecimal' (by omega)]

/-- No character is NUL. -/
theorem decode_nonzero {t : List Item} (h : Xml.Ok .text t) : ∀ c ∈ Xml.decode .text t, c ≠ 0 := by
  intro b hb
  obtain ⟨i, hi, hMem⟩ := List.mem_flatMap.1 hb
  have hOk := h i hi
  cases i with
  | byte c =>
    obtain rfl := List.mem_singleton.1 hMem
    exact hOk.2.2
  | ref body =>
    obtain ⟨c, hc⟩ := Option.isSome_iff_exists.1 hOk
    rw [Item.decode, hc, Option.map_some, Option.getD_some] at hMem
    rintro rfl
    have hZero := (Utf8.encodeChar_ascii hMem (by decide)).2
    exact Xml.refChar_ne_zero hc hZero.symm

-- ---------------------------------------------------------------------------
-- Buffers
-- ---------------------------------------------------------------------------

theorem xmlGet_length (xml tag : Bytes) {out : Bytes} (hOut : out ≠ []) :
    (xmlGet xml tag out).2.length = out.length := by
  have hPos := List.length_pos_iff.2 hOut
  have hStore (text : Bytes) : (store out text).2.length = out.length := by
    simp only [store, List.length_append, List.length_cons, List.length_drop, List.length_take]
    omega
  rw [xmlGet]
  cases xmlOpen xml tag with
  | none => rfl
  | some op =>
    cases hClose : xmlClose op tag with
    | none => simp only [hClose]
    | some q => simp only [hClose, hStore]

theorem htmlUnescape_length (room len skip : Nat) (p : Bytes) :
    (htmlUnescape room len skip p).length ≤ room := by
  induction p generalizing room len skip with
  | nil => exact Nat.zero_le room
  | cons c cs ih =>
    rw [htmlUnescape]
    split_ifs with hSkip hEnd
    · exact ih room _ _
    · exact Nat.zero_le room
    · rw [not_or] at hEnd
      split
      · next entity ch _ =>
        have hRest := ih (room - 1) (len - 1) (entity.length - 1)
        rw [List.length_cons]
        omega
      · have hRest := ih (room - 1) (len - 1) 0
        rw [List.length_cons]
        omega

theorem tagText_length {size : Nat} {p close text : Bytes} (h : tagText size p close = some text) :
    text.length ≤ size - 1 := by
  rw [tagText] at h
  split_ifs at h
  obtain ⟨rest, -, rfl⟩ := Option.map_eq_some_iff.1 h
  exact htmlUnescape_length _ _ _ p

theorem extractTag_length {size : Nat} {xml tag text : Bytes}
    (h : extractTag size xml tag = some text) : text.length ≤ size - 1 := by
  rw [extractTag] at h
  split at h
  · exact tagText_length h
  · obtain ⟨p, -, hText⟩ := Option.bind_eq_some_iff.1 h
    exact tagText_length hText

theorem utf8Encode_length (codepoint : Nat) : (utf8Encode codepoint).length ≤ 4 := by
  rw [utf8Encode]
  split_ifs <;> exact Nat.le_of_ble_eq_true rfl

theorem decodeHtmlEntities_length (size pos skip : Nat) (p : Bytes) (hPos : pos < size) :
    pos + (decodeHtmlEntities size pos skip p).length < size := by
  induction p generalizing pos skip with
  | nil => exact hPos
  | cons c cs ih =>
    rw [decodeHtmlEntities]
    by_cases hSkip : skip > 0
    · rw [if_pos hSkip]
      exact ih pos _ hPos
    rw [if_neg hSkip]
    by_cases hEnd : c = 0 ∨ ¬pos + 6 < size
    · rw [if_pos hEnd]
      exact hPos
    rw [if_neg hEnd]
    rw [not_or, not_not] at hEnd
    by_cases hRef : c = 0x26 ∧ peek cs = 0x23
    · have hFour := utf8Encode_length (codepointOf ((cs.drop 1).takeWhile isDigit))
      rw [if_pos hRef]
      simp only [List.length_append]
      rw [← Nat.add_assoc]
      exact ih _ _ (by omega)
    · have hRest := ih (pos + 1) 0 (by omega)
      rw [if_neg hRef, List.length_cons]
      omega

-- ---------------------------------------------------------------------------
-- The way of a title
-- ---------------------------------------------------------------------------

def currentUriMetaData : Bytes := ascii "CurrentURIMetaData"

/-- The title on the display after a SetAVTransportURI, where `s_metadata` was `old`. -/
def shownTitle (body old : Bytes) : Bytes :=
  decoded 128 (extractTexts (cstr (xmlGet body currentUriMetaData old).2)).title

/-- A SetAVTransportURI with a title: the document is the text of the argument. -/
structure TitleRequest where
  didl : Didl
  body : SoapBody
  before : List Argument
  argument : Argument
  behind : List Argument
  metadata : Bytes
  didl_ok : didl.Ok
  body_ok : body.Ok
  args : body.args = before ++ argument :: behind
  name : argument.name = currentUriMetaData
  content : argument.content = some metadata
  escaped : Decodes .text metadata didl.text

/-- The title that is meant -/
def TitleRequest.title (r : TitleRequest) : Bytes := Xml.decode .text r.didl.title

/-- What `xml_get` and `extract_tag` have to meet. -/
structure TitleRequest.Found (r : TitleRequest) : Prop where
  unwrapped : r.body.Unwrapped currentUriMetaData
  argument : r.body.Found r.behind r.argument
  stored : r.metadata.length < 16384
  byName : ∃ s : Style, s.gt ∧ r.metadata = s.escape r.didl.text
  document : r.didl.Found

/-- And what `decode_html_entities` has to meet. -/
structure TitleRequest.Readable (r : TitleRequest) : Prop extends r.Found where
  decimal : ∀ i ∈ r.didl.title, Decimal i
  room : (Xml.decode .text r.didl.title.dropLast).length + 6 < 128

theorem cstr_stored {out t : Bytes} (hNul : ∀ c ∈ t, c ≠ 0) (hFits : t.length < out.length) :
    cstr (store out t).2 = t := by
  have hTake : t.take (out.length - 1) = t := List.take_of_length_le (by omega)
  rw [store, hTake]
  exact (cstr_append_zero t _).trans (cstr_eq_self hNul)

/-- The text of `dc:title` reaches the last of the three functions as it stands there. -/
theorem TitleRequest.Found.shown {r : TitleRequest} (h : r.Found) {old : Bytes}
    (hOld : old.length = 16384) :
    shownTitle r.body.text old = decoded 128 (Xml.render r.didl.title) := by
  have hThis : r.argument.Ok := r.body_ok.args r.argument
    (by rw [r.args]; exact List.mem_append_right _ List.mem_cons_self)
  have hGet : xmlGet r.body.text currentUriMetaData old = store old r.metadata := by
    have hPresent := r.body_ok.xmlGet_present (by rw [r.name]; exact h.unwrapped) r.args
      (by rw [r.name]; decide) h.argument old
    rwa [r.name, r.content] at hPresent
  have hClean : Clean r.metadata := hThis.content _ r.content
  have hStored : cstr (store old r.metadata).2 = r.metadata :=
    cstr_stored (fun c hc => (hClean c hc).1) (by rw [hOld]; exact h.stored)
  obtain ⟨s, hGt, hEscape⟩ := h.byName
  -- the outer level is undone
  have hRead : extractTag 256 (s.escape r.didl.text) (ascii "dc:title") =
      some (Xml.render r.didl.title) := metadata_read r.didl_ok h.document hGt
  have hTitle : cstr (Xml.render r.didl.title) = Xml.render r.didl.title :=
    cstr_eq_self fun c hc => (clean_render r.didl_ok.title c hc).1
  rw [shownTitle, hGet, hStored, hEscape, extractTexts]
  simp only [hRead, Option.getD_some, hTitle]

theorem TitleRequest.Readable.shown {r : TitleRequest} (h : r.Readable) {old : Bytes}
    (hOld : old.length = 16384) : shownTitle r.body.text old = r.title := by
  rw [h.toFound.shown hOld, decoded,
    decoded_title r.didl_ok.title h.decimal (by rw [Nat.zero_add]; exact h.room)]
  exact cstr_eq_self (decode_nonzero r.didl_ok.title)

theorem Style.escape_decodes (s : Style) {t : Bytes} (h : ∀ c ∈ t, c ≠ 0) :
    Decodes .text (s.escape t) t := by
  induction t with
  | nil => exact Decodes.nil
  | cons c t ih =>
    obtain ⟨hNul, hRest⟩ := List.forall_mem_cons.1 h
    have hThis : Decodes .text (s.escapeByte c) [c] := by
      rcases s.escapeByte_cases c with ⟨hLit, hAmp, hLt, -⟩ | ⟨rfl, hRef⟩ | ⟨rfl, hRef⟩ |
        ⟨rfl, hRef⟩ | ⟨rfl, hRef⟩ | ⟨rfl, hRef⟩
      · rw [hLit]
        refine ⟨[.byte c], List.forall_mem_singleton.2 ⟨?_, hAmp, hNul⟩, rfl, rfl⟩
        exact fun hMem => hLt (List.mem_singleton.1 hMem)
      · rw [hRef]
        exact ⟨[.ref (ascii "amp")], by decide +kernel⟩
      · rw [hRef]
        exact ⟨[.ref (ascii "lt")], by decide +kernel⟩
      · rw [hRef]
        exact ⟨[.ref (ascii "gt")], by decide +kernel⟩
      · rw [hRef]
        exact ⟨[.ref (ascii "quot")], by decide +kernel⟩
      · rw [hRef]
        exact ⟨[.ref (ascii "apos")], by decide +kernel⟩
    exact hThis.append (ih hRest)

/-- All five names -/
def Style.all : Style := ⟨true, true, true⟩

theorem clean_of_decodes {raw plain : Bytes} (h : Decodes .text raw plain) : Clean raw := by
  obtain ⟨t, hOk, rfl, -⟩ := h
  exact clean_render hOk

def titleBefore : List Bytes := [ascii "DIDL-Lite>", ascii "item>"]

def titleBehind : Bytes := ascii "</item></DIDL-Lite>"

/-- A document with nothing but a title -/
def titleDidl (t : List Item) : Didl := ⟨[], titleBefore, ⟨[], []⟩, t, [], titleBehind⟩

theorem titleDidl_nonzero {t : List Item} (h : Xml.Ok .text t) :
    ∀ c ∈ (titleDidl t).text, c ≠ 0 := by
  have hTitle : ∀ c ∈ Xml.render t, c ≠ 0 := fun c hc => (clean_render h c hc).1
  have hFront : ∀ c ∈ tagged titleBefore ++ (0x3C :: dcTitle ++ [0x3E]), c ≠ 0 := by
    decide +kernel
  have hBehind : ∀ c ∈ 0x3C :: 0x2F :: (dcTitle ++ 0x3E :: titleBehind), c ≠ 0 := by
    decide +kernel
  have hText : (titleDidl t).text = tagged titleBefore ++ (0x3C :: dcTitle ++ [0x3E]) ++
      (Xml.render t ++ 0x3C :: 0x2F :: (dcTitle ++ 0x3E :: titleBehind)) := by
    simp [titleDidl, Didl.text, Didl.startTag, Didl.endTag, tagged, Attributes.bytes]
  rw [hText]
  exact List.forall_mem_append.2 ⟨hFront, List.forall_mem_append.2 ⟨hTitle, hBehind⟩⟩

theorem titleDidl_ok {t : List Item} (h : Xml.Ok .text t) : (titleDidl t).Ok where
  lead := List.forall_mem_nil _
  before := List.forall_mem_cons.2 ⟨⟨by decide +kernel, by decide +kernel⟩,
    List.forall_mem_singleton.2 ⟨by decide +kernel, by decide +kernel⟩⟩
  attrs := ⟨List.forall_mem_nil _, List.forall_mem_nil _⟩
  title := h
  gap := List.forall_mem_nil _

theorem metaData_name : IsName currentUriMetaData := ⟨by decide +kernel, by decide +kernel⟩

def titleArgument (t : List Item) : Argument :=
  .simple true currentUriMetaData (Style.all.escape (titleDidl t).text)

/-- Its request -/
def titleRequest (t : List Item) (h : Xml.Ok .text t) : TitleRequest where
  didl := titleDidl t
  body := setAvTransportUri [titleArgument t]
  before := []
  argument := titleArgument t
  behind := []
  metadata := Style.all.escape (titleDidl t).text
  didl_ok := titleDidl_ok h
  body_ok := setAvTransportUri_ok (List.forall_mem_singleton.2 (simple_ok metaData_name
    (clean_of_decodes (Style.all.escape_decodes (titleDidl_nonzero h))))) (List.nodup_singleton _)
  args := rfl
  name := rfl
  content := rfl
  escaped := Style.all.escape_decodes (titleDidl_nonzero h)

theorem titleRequest_found {t : List Item} (h : Xml.Ok .text t)
    (hShort : (Style.all.escape (titleDidl t).text).length < 16384)
    (hFits : (Xml.render t).length ≤ 255) : (titleRequest t h).Found where
  unwrapped := List.forall_mem_cons.2 ⟨by decide +kernel, List.forall_mem_cons.2
    ⟨by decide +kernel, List.forall_mem_singleton.2 (by decide +kernel)⟩⟩
  argument := ⟨rfl, List.not_mem_nil, fun c hc => absurd hc (Option.not_mem_none c),
    fun h => Bool.noConfusion h, fun h => Bool.noConfusion h⟩
  stored := hShort
  byName := ⟨Style.all, rfl, rfl⟩
  document := ⟨List.forall_mem_cons.2 ⟨by decide +kernel, List.forall_mem_singleton.2
    (by decide +kernel)⟩, List.not_mem_nil, rfl, hFits⟩

/-- `A & B`, with the ampersand by its number -/
def numberedTitle : List Item :=
  (ascii "A ").map .byte ++ .ref (ascii "#38") :: (ascii " B").map .byte

theorem numberedTitle_ok : Xml.Ok .text numberedTitle := by decide +kernel

/-- The same title with the ampersand by its name -/
def namedTitle : List Item :=
  (ascii "A ").map .byte ++ .ref (ascii "amp") :: (ascii " B").map .byte

theorem namedTitle_ok : Xml.Ok .text namedTitle := by decide +kernel

end EspMiplay.Dlna
