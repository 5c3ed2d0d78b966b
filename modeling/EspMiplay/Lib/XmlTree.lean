import EspMiplay.Lib.Utf8
import EspMiplay.Lib.Xml

/-!
# Documents of XML

Elements with their attributes and the texts between them, each with a start tag and an end tag.
Comments, sections of CDATA and processing instructions behind the declaration are left out.

- `Content.Ok` is what names, attributes and texts have to meet; `IsDocument` adds the
  declaration, the one element around everything, and the characters.
- In a document an ampersand begins a reference (`IsDocument.reference`), and what stands between
  two bytes of ASCII is made of whole characters (`IsChars.between`).
- So a text that is cut after some bytes may stand in a document exactly when the cut is neither
  inside a reference nor inside a character (`IsDocument.cutsClean`, `IsText.take`).
-/

namespace Xml

-- ---------------------------------------------------------------------------
-- Characters
-- ---------------------------------------------------------------------------

/-- A character that may stand in a document -/
def Legal (c : Char) : Prop :=
  c.toNat = 0x09 ∨ c.toNat = 0x0A ∨ c.toNat = 0x0D ∨
    (0x20 ≤ c.toNat ∧ c.toNat ≠ 0xFFFE ∧ c.toNat ≠ 0xFFFF)

/-- The bytes are such characters, in UTF-8. -/
def IsChars (bs : Bytes) : Prop := ∃ cs, (∀ c ∈ cs, Legal c) ∧ Utf8.encode cs = bs

/-- A byte of ASCII that can be shown -/
def isPrintable (c : UInt8) : Bool := 0x20 ≤ c.toNat && c.toNat < 0x7F

section Chars

variable {a b : Bytes}

theorem IsChars.append (ha : IsChars a) (hb : IsChars b) : IsChars (a ++ b) := by
  obtain ⟨as, hAs, rfl⟩ := ha
  obtain ⟨bs, hBs, rfl⟩ := hb
  exact ⟨as ++ bs, List.forall_mem_append.2 ⟨hAs, hBs⟩, Utf8.encode_append as bs⟩

theorem isChars_printable (h : ∀ c ∈ a, isPrintable c) : IsChars a := by
  induction a with
  | nil => exact ⟨[], List.forall_mem_nil _, rfl⟩
  | cons c a ih =>
    obtain ⟨hFirst, hRest⟩ := List.forall_mem_cons.1 h
    refine IsChars.append (a := [c]) ?_ (ih hRest)
    rw [isPrintable, Bool.and_eq_true, decide_eq_true_eq, decide_eq_true_eq] at hFirst
    have hValid : c.toNat.isValidChar := .inl (by omega)
    have hNat : (Char.ofNat c.toNat).toNat = c.toNat := by
      rw [Char.ofNat, dif_pos hValid]
      rfl
    refine ⟨[Char.ofNat c.toNat], List.forall_mem_singleton.2 ?_, ?_⟩
    · exact .inr (.inr (.inr (by rw [hNat]; omega)))
    · obtain ⟨d, hEncode, hVal⟩ := Utf8.encodeChar_one (c := Char.ofNat c.toNat) (by omega)
      rw [Utf8.encode_cons, hEncode]
      have hSame : d = c := UInt8.toNat_inj.1 (by rw [hVal, hNat])
      rw [hSame]
      rfl

/-- Between two bytes of ASCII are whole characters. -/
theorem IsChars.between {w v rest : Bytes} {c d : UInt8} (h : IsChars (w ++ c :: (v ++ d :: rest)))
    (hc : c.toNat < 0x80) (hd : d.toNat < 0x80) : IsChars v := by
  obtain ⟨cs, hLegal, hEncode⟩ := h
  obtain ⟨ds, hSuffix, hRest⟩ := Utf8.encode_ascii_split hEncode hc
  obtain ⟨es, hSuffix', hRest'⟩ := Utf8.encode_ascii_split hRest.symm hd
  obtain ⟨front, rfl⟩ := hSuffix'
  have hFront : v ++ [d] = Utf8.encode front := by
    rw [Utf8.encode_append, hRest', List.append_cons, List.append_cancel_right_eq] at hRest
    exact hRest
  -- its last character is the second byte
  obtain rfl | ⟨front, x, rfl⟩ := List.eq_nil_or_concat' front
  · exact absurd hFront (by simp [Utf8.encode])
  have hOne : Utf8.encode [x] = String.utf8EncodeChar x := List.append_nil _
  rw [Utf8.encode_append, hOne] at hFront
  have hLast : d ∈ String.utf8EncodeChar x := by
    obtain hNil | ⟨ys, e, hX⟩ := List.eq_nil_or_concat' (String.utf8EncodeChar x)
    · exact absurd hNil (List.ne_nil_of_length_pos (Utf8.encodeChar_pos x))
    · rw [hX, ← List.append_assoc] at hFront
      obtain ⟨-, hEnd⟩ := List.append_inj' hFront rfl
      rw [hX, (List.cons.inj hEnd).1]
      exact List.mem_append_right ys List.mem_cons_self
  obtain ⟨hSingle, -⟩ := Utf8.encodeChar_ascii hLast hd
  rw [hSingle] at hFront
  refine ⟨front, fun y hMem => hLegal y ?_, (List.append_inj_left' hFront rfl).symm⟩
  exact hSuffix.subset (by simp [hMem])

end Chars

-- ---------------------------------------------------------------------------
-- Elements
-- ---------------------------------------------------------------------------

def isNameStart (c : UInt8) : Bool :=
  (0x41 ≤ c && c ≤ 0x5A) || (0x61 ≤ c && c ≤ 0x7A) || c = 0x5F || c = 0x3A

def isNameByte (c : UInt8) : Bool :=
  isNameStart c || (0x30 ≤ c && c ≤ 0x39) || c = 0x2D || c = 0x2E

def isName : Bytes → Bool
  | [] => false
  | c :: n => isNameStart c && n.all isNameByte

/-- References are to characters that may stand in a document. -/
def LegalRefs (t : List Item) : Prop := ∀ body, .ref body ∈ t → ∀ c ∈ refChar body, Legal c

/-- A text between two tags -/
structure IsText (t : List Item) : Prop where
  ok : Ok .text t
  legal : LegalRefs t
  /-- the end of a section of CDATA -/
  noEnd : ¬[0x5D, 0x5D, 0x3E] <:+: render t

structure Attr where
  name : Bytes
  value : List Item

def Attr.render (a : Attr) : Bytes :=
  0x20 :: (a.name ++ (0x3D :: 0x22 :: (Xml.render a.value ++ [0x22])))

structure Attr.Ok (a : Attr) : Prop where
  name : isName a.name
  ok : Xml.Ok .attr a.value
  legal : LegalRefs a.value

/-- What stands between two tags: a text, then nothing or an element and what follows it -/
inductive Content where
  | text (t : List Item)
  | element (before : List Item) (name : Bytes) (attrs : List Attr) (inside rest : Content)

namespace Content

def render : Content → Bytes
  | text t => Xml.render t
  | element before name attrs inside rest =>
    Xml.render before ++ (0x3C :: (name ++ (attrs.flatMap Attr.render ++ (0x3E :: (inside.render ++
      (0x3C :: 0x2F :: (name ++ (0x3E :: rest.render))))))))

def Ok : Content → Prop
  | text t => IsText t
  | element before name attrs inside rest =>
    (IsText before ∧ isName name ∧ (∀ a ∈ attrs, a.Ok) ∧ (attrs.map Attr.name).Nodup) ∧
      inside.Ok ∧ rest.Ok

/-- The inside of the first element with the name -/
def child (n : Bytes) : Content → Option Content
  | text _ => none
  | element _ name _ inside rest => if name = n then some inside else rest.child n

/-- From one element to the next -/
def find : List Bytes → Content → Option Content
  | [], c => some c
  | n :: path, c => (c.child n).bind (find path)

end Content

/-- `<?xml version="1.0" encoding="utf-8"?>` -/
def declaration : Bytes :=
  [0x3C, 0x3F, 0x78, 0x6D, 0x6C, 0x20, 0x76, 0x65, 0x72, 0x73, 0x69, 0x6F, 0x6E, 0x3D, 0x22, 0x31,
    0x2E, 0x30, 0x22, 0x20, 0x65, 0x6E, 0x63, 0x6F, 0x64, 0x69, 0x6E, 0x67, 0x3D, 0x22, 0x75, 0x74,
    0x66, 0x2D, 0x38, 0x22, 0x3F, 0x3E]

/-- The bytes are a document with this content. -/
structure IsDocument (doc : Bytes) (root : Content) : Prop where
  bytes : doc = declaration ++ root.render
  ok : root.Ok
  single : ∃ name attrs inside, root = .element [] name attrs inside (.text [])
  chars : IsChars doc

-- ---------------------------------------------------------------------------
-- Ampersands
-- ---------------------------------------------------------------------------

/-- Every ampersand begins a reference. -/
def Referring (bs : Bytes) : Prop :=
  ∀ w rest, bs = w ++ 0x26 :: rest →
    ∃ body behind, rest = body ++ 0x3B :: behind ∧ (refChar body).isSome

section Ampersands

variable {a b : Bytes} {m : Mode} {t : List Item} {c : Content}

theorem referring_plain (h : 0x26 ∉ a) : Referring a := by
  rintro w rest rfl
  exact absurd (List.mem_append_right w List.mem_cons_self) h

theorem Referring.append (ha : Referring a) (hb : Referring b) : Referring (a ++ b) := by
  intro w rest hSplit
  obtain ⟨u, rfl, hRest⟩ | ⟨u, rfl, hRest⟩ := List.append_eq_append_iff.1 hSplit
  · exact hb u rest hRest
  · cases u with
    | nil => exact hb [] rest hRest.symm
    | cons d u =>
      obtain ⟨rfl, rfl⟩ := List.cons.inj hRest
      obtain ⟨body, behind, rfl, hRef⟩ := ha w u rfl
      exact ⟨body, behind ++ b, by simp, hRef⟩

theorem Referring.cons (d : UInt8) (hd : d ≠ 0x26) (ha : Referring a) : Referring (d :: a) := by
  refine Referring.append (a := [d]) (referring_plain fun hMem => ?_) ha
  exact hd (List.mem_singleton.1 hMem).symm

theorem referring_render (h : Xml.Ok m t) : Referring (Xml.render t) := by
  induction t with
  | nil => exact referring_plain List.not_mem_nil
  | cons i t ih =>
    obtain ⟨hFirst, hRest⟩ := List.forall_mem_cons.1 h
    rw [render_cons]
    refine Referring.append ?_ (ih hRest)
    cases i with
    | byte d => exact Referring.cons d hFirst.2.1 (referring_plain List.not_mem_nil)
    | ref body =>
      obtain ⟨x, hChar⟩ := Option.isSome_iff_exists.1 hFirst
      intro w rest hSplit
      cases w with
      | nil =>
        rw [Item.render, List.cons_append, List.nil_append] at hSplit
        exact ⟨body, [], (List.cons.inj hSplit).2.symm, hFirst⟩
      | cons d w =>
        -- there is no second one in a reference
        have hInside : (0x26 : UInt8) ∈ body ++ [0x3B] := by
          rw [Item.render, List.cons_append, List.cons_append] at hSplit
          rw [(List.cons.inj hSplit).2]
          exact List.mem_append_right w List.mem_cons_self
        obtain hBody | hEnd := List.mem_append.1 hInside
        · exact absurd hBody (refChar_not_mem hChar (by decide))
        · exact absurd (List.mem_singleton.1 hEnd) (by decide)

theorem not_mem_name {n : Bytes} (h : isName n) : 0x26 ∉ n := by
  intro hMem
  cases n with
  | nil => cases hMem
  | cons d n =>
    rw [isName, Bool.and_eq_true, List.all_eq_true] at h
    obtain rfl | hRest := List.mem_cons.1 hMem
    · exact absurd h.1 (by decide)
    · exact absurd (h.2 _ hRest) (by decide)

theorem referring_attrs {attrs : List Attr} (h : ∀ x ∈ attrs, x.Ok) :
    Referring (attrs.flatMap Attr.render) := by
  induction attrs with
  | nil => exact referring_plain List.not_mem_nil
  | cons x attrs ih =>
    obtain ⟨hFirst, hRest⟩ := List.forall_mem_cons.1 h
    rw [List.flatMap_cons]
    refine Referring.append ?_ (ih hRest)
    have hEnd : Referring [0x22] := referring_plain (by decide)
    have hValue := Referring.append (referring_render hFirst.ok) hEnd
    have hQuoted := Referring.cons 0x3D (by decide) (Referring.cons 0x22 (by decide) hValue)
    have hName := referring_plain (not_mem_name hFirst.name)
    exact Referring.cons 0x20 (by decide) (hName.append hQuoted)

theorem Content.Ok.referring (h : c.Ok) : Referring c.render := by
  induction c with
  | text t => exact referring_render h.ok
  | element before name attrs inside rest ihInside ihRest =>
    obtain ⟨⟨hBefore, hName, hAttrs, -⟩, hInside, hRest⟩ := h
    have hTag := referring_plain (not_mem_name hName)
    have hBehind := hTag.append (Referring.cons 0x3E (by decide) (ihRest hRest))
    have hClose := Referring.cons 0x3C (by decide) (Referring.cons 0x2F (by decide) hBehind)
    have hContent := Referring.cons 0x3E (by decide) ((ihInside hInside).append hClose)
    have hStart := hTag.append ((referring_attrs hAttrs).append hContent)
    exact (referring_render hBefore.ok).append (Referring.cons 0x3C (by decide) hStart)

theorem IsDocument.referring {doc : Bytes} {root : Content} (h : IsDocument doc root) :
    Referring doc := by
  rw [h.bytes]
  exact Referring.append (referring_plain (by decide)) h.ok.referring

end Ampersands

-- ---------------------------------------------------------------------------
-- Texts that are cut
-- ---------------------------------------------------------------------------

/-- A cut after `n` bytes is neither inside a reference nor inside a character. -/
structure CutsClean (n : Nat) (t : List Item) : Prop where
  item : ∃ k, (render t).take n = render (t.take k)
  char : IsChars ((render t).take n)

section Cuts

variable {n : Nat} {m : Mode} {t : List Item}

/-- A cut is between two items or inside a reference. -/
theorem take_render (h : Ok m t) (n : Nat) :
    (∃ k, (render t).take n = render (t.take k)) ∨
      ∃ k body w, (render t).take n = render (t.take k) ++ 0x26 :: w ∧ w <+: body ∧
        (refChar body).isSome := by
  induction t generalizing n with
  | nil => exact .inl ⟨0, List.take_nil⟩
  | cons i t ih =>
    obtain ⟨hFirst, hRest⟩ := List.forall_mem_cons.1 h
    rw [render_cons]
    by_cases hWhole : i.render.length ≤ n
    · rw [List.take_append, List.take_of_length_le hWhole]
      obtain ⟨k, hCut⟩ | ⟨k, body, w, hCut, hInside⟩ := ih hRest (n - i.render.length)
      · exact .inl ⟨k + 1, by rw [hCut, List.take_succ_cons, render_cons]⟩
      · refine .inr ⟨k + 1, body, w, ?_, hInside⟩
        rw [hCut, List.take_succ_cons, render_cons, List.append_assoc]
    · cases n with
      | zero => exact .inl ⟨0, rfl⟩
      | succ n =>
        cases i with
        | byte c => exact absurd (Nat.succ_le_succ (Nat.zero_le n)) hWhole
        | ref body =>
          have hShort : n ≤ body.length := by
            rw [Item.render, List.length_append, List.length_cons, List.length_singleton] at hWhole
            omega
          refine .inr ⟨0, body, body.take n, ?_, List.take_prefix n body, hFirst⟩
          rw [Item.render, List.cons_append, List.cons_append, List.take_succ_cons,
            List.append_assoc, List.take_append_of_le_length hShort]
          rfl

/-- What ends before a semicolon and at an angle bracket is no reference. -/
theorem not_reference {body w behind post : Bytes} (hBody : 0x3C ∉ body) (hPart : 0x3B ∉ w)
    (h : w ++ 0x3C :: post = body ++ 0x3B :: behind) : False := by
  obtain ⟨u, rfl, hRest⟩ | ⟨u, rfl, hRest⟩ := List.append_eq_append_iff.1 h
  · cases u with
    | nil => exact absurd (List.cons.inj hRest).1 (by decide)
    | cons d u =>
      obtain ⟨rfl, -⟩ := List.cons.inj hRest
      exact hBody (List.mem_append_right w List.mem_cons_self)
  · cases u with
    | nil => exact absurd (List.cons.inj hRest).1 (by decide)
    | cons d u =>
      obtain ⟨rfl, -⟩ := List.cons.inj hRest
      exact hPart (List.mem_append_right body List.mem_cons_self)

/-- A part of a text that stands between two tags of a document was cut cleanly. -/
theorem IsDocument.cutsClean {doc pre post : Bytes} {root : Content} (h : IsDocument doc root)
    (ht : Ok m t) (hDoc : doc = pre ++ 0x3E :: ((render t).take n ++ 0x3C :: post)) :
    CutsClean n t where
  char := by
    have hChars := h.chars
    rw [hDoc] at hChars
    exact hChars.between (by decide) (by decide)
  item := by
    obtain hClean | ⟨k, body, w, hCut, hPart, hRef⟩ := take_render ht n
    · exact hClean
    obtain ⟨x, hChar⟩ := Option.isSome_iff_exists.1 hRef
    have hSplit : doc = (pre ++ 0x3E :: render (t.take k)) ++ 0x26 :: (w ++ 0x3C :: post) := by
      rw [hDoc, hCut]
      simp only [List.append_assoc, List.cons_append]
    -- the ampersand begins a reference, which neither the rest of the cut one nor the tag ends
    obtain ⟨other, behind, hSame, hOther⟩ := h.referring _ _ hSplit
    obtain ⟨y, hChar'⟩ := Option.isSome_iff_exists.1 hOther
    have hEnd : 0x3B ∉ w := fun hMem => refChar_not_mem hChar (by decide) (hPart.subset hMem)
    exact (not_reference (refChar_not_mem hChar' (by decide)) hEnd hSame).elim

theorem prefix_render_take (k : Nat) (t : List Item) : render (t.take k) <+: render t := by
  refine ⟨render (t.drop k), ?_⟩
  rw [← render_append, List.take_append_drop]

theorem prefix_decode_take (m : Mode) (k : Nat) (t : List Item) :
    decode m (t.take k) <+: decode m t := by
  refine ⟨decode m (t.drop k), ?_⟩
  rw [← decode_append, List.take_append_drop]

/-- A byte that stands for itself in every text -/
def isPlain (c : UInt8) : Bool := isPrintable c && c ∉ ([0x26, 0x3C, 0x5D] : Bytes)

theorem ok_plain {w : Bytes} (h : ∀ c ∈ w, isPlain c ∧ c ∉ m.stops) : Ok m (w.map .byte) := by
  intro i hMem
  obtain ⟨c, hc, rfl⟩ := List.mem_map.1 hMem
  obtain ⟨hPlain, hStop⟩ := h c hc
  refine ⟨hStop, ?_, ?_⟩
  · rintro rfl
    exact absurd hPlain (by decide)
  · rintro rfl
    exact absurd hPlain (by decide)

theorem isText_plain {w : Bytes} (h : ∀ c ∈ w, isPlain c) : IsText (w.map .byte) where
  ok := by
    refine ok_plain fun c hMem => ⟨h c hMem, fun hStop => ?_⟩
    have hPlain := h c hMem
    rw [List.mem_singleton.1 hStop] at hPlain
    exact absurd hPlain (by decide)
  legal body hMem := by
    obtain ⟨c, -, hByte⟩ := List.mem_map.1 hMem
    cases hByte
  noEnd hEnd := by
    rw [render_bytes] at hEnd
    exact absurd (h _ (hEnd.subset List.mem_cons_self)) (by decide)

theorem isChars_plain {w : Bytes} (h : ∀ c ∈ w, isPlain c) : IsChars w := by
  refine isChars_printable fun c hMem => ?_
  have hPlain := h c hMem
  rw [isPlain, Bool.and_eq_true] at hPlain
  exact hPlain.1

theorem IsText.take (h : IsText t) (k : Nat) : IsText (t.take k) where
  ok i hMem := h.ok i (List.mem_of_mem_take hMem)
  legal body hMem := h.legal body (List.mem_of_mem_take hMem)
  noEnd hEnd := h.noEnd (hEnd.trans (prefix_render_take k t).isInfix)

end Cuts

-- ---------------------------------------------------------------------------
-- Elements in a row
-- ---------------------------------------------------------------------------

/-- Elements with a text each -/
def Content.fields : List (Bytes × List Item) → Content
  | [] => .text []
  | f :: fs => .element [] f.1 [] (.text f.2) (fields fs)

section Fields

variable {f : Bytes × List Item} {fs : List (Bytes × List Item)}

theorem isText_nil : IsText [] where
  ok _ hMem := absurd hMem List.not_mem_nil
  legal _ hMem := absurd hMem List.not_mem_nil
  noEnd hEnd := absurd (List.infix_nil.1 hEnd) (List.cons_ne_nil _ _)

theorem Content.fields_ok (h : ∀ f ∈ fs, isName f.1 ∧ IsText f.2) : (fields fs).Ok := by
  induction fs with
  | nil => exact isText_nil
  | cons f fs ih =>
    obtain ⟨⟨hName, hText⟩, hRest⟩ := List.forall_mem_cons.1 h
    exact ⟨⟨isText_nil, hName, List.forall_mem_nil _, List.nodup_nil⟩, hText, ih hRest⟩

theorem Content.child_fields (hMem : f ∈ fs) (hNodup : (fs.map Prod.fst).Nodup) :
    (fields fs).child f.1 = some (.text f.2) := by
  induction fs with
  | nil => exact absurd hMem List.not_mem_nil
  | cons g fs ih =>
    rw [List.map_cons, List.nodup_cons] at hNodup
    rw [fields, child]
    obtain rfl | hRest := List.mem_cons.1 hMem
    · exact if_pos rfl
    · have hOther : g.1 ≠ f.1 := by
        intro hSame
        exact hNodup.1 (hSame ▸ List.mem_map_of_mem hRest)
      rw [if_neg hOther]
      exact ih hRest hNodup.2

end Fields

end Xml
