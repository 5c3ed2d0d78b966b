import EspMiplay.Dlna.SoapControl

/-!
# Requests in pieces

Whether a control request is answered in the same way however the network cuts its body.
AVTransport waits for the whole body. RenderingControl takes the first piece for all of it: a
volume is set only if the end tag of the argument is in that piece, and the response says that
it was set in any case.

## Results

* `recvBody_pieces`   — the loop of AVTransport puts the pieces together.
* `xmlGet_front`      — an argument is read from the front of a body if its end tag is there.
* `twice_of_found`    — and nothing is, before its name has been there twice.
* `same_in_pieces`    — the three handlers.
* `volume_lost`       — a volume whose end tag comes later.
-/

namespace EspMiplay.Dlna

open EspMiplay.Miplay (Bytes ascii cstr strchr strchr_eq_some strchr_skip strstr strstr_append
  strstr_eq_some)

-- ---------------------------------------------------------------------------
-- Searches in the front of a text
-- ---------------------------------------------------------------------------

/-- The first of the needles that is found, and the text from there on -/
def search (needles : List Bytes) (s : Bytes) : Option (Bytes × Bytes) :=
  needles.findSome? fun n => (strstr n s).map (n, ·)

section Search

variable {needle front rest q : Bytes} {needles : List Bytes} {n : Bytes}

theorem strstr_front_none (h : strstr needle (front ++ rest) = none) :
    strstr needle front = none := by
  cases hFront : strstr needle front with
  | none => rfl
  | some e =>
    rw [strstr_append hFront rest] at h
    cases h

/-- What is found before the end of the front is found in the front. -/
theorem strstr_front_some (hNeedle : needle ≠ []) (h : strstr needle (front ++ rest) = some q)
    (hFits : rest.length + needle.length ≤ q.length) :
    ∃ e, q = e ++ rest ∧ strstr needle front = some e := by
  induction front with
  | nil =>
    have hLen := (strstr_eq_some h).2.length_le
    have hPos := List.length_pos_of_ne_nil hNeedle
    rw [List.nil_append] at hLen
    omega
  | cons c front ih =>
    rw [List.cons_append, strstr] at h
    rw [strstr]
    by_cases hHere : needle.isPrefixOf (c :: (front ++ rest))
    · rw [if_pos hHere] at h
      obtain rfl := Option.some.inj h
      have hPrefix : needle <+: c :: front := by
        rw [← List.cons_append, List.length_append] at hFits
        exact List.prefix_of_prefix_length_le (List.isPrefixOf_iff_prefix.1 hHere)
          (by rw [← List.cons_append]; exact List.prefix_append _ _) (by omega)
      rw [if_pos (List.isPrefixOf_iff_prefix.2 hPrefix)]
      exact ⟨c :: front, rfl, rfl⟩
    · have hNot : ¬needle.isPrefixOf (c :: front) := by
        intro hPrefix
        refine hHere (List.isPrefixOf_iff_prefix.2 ?_)
        rw [← List.cons_append]
        exact (List.isPrefixOf_iff_prefix.1 hPrefix).trans (List.prefix_append _ _)
      rw [if_neg hHere] at h
      rw [if_neg hNot]
      split_ifs at h ⊢ with hNul
      exact ih h

theorem search_front_none (h : search needles (front ++ rest) = none) :
    search needles front = none := by
  rw [search, List.findSome?_eq_none_iff] at h ⊢
  intro n hMem
  exact Option.map_eq_none_iff.2 (strstr_front_none (Option.map_eq_none_iff.1 (h n hMem)))

theorem search_front_some (hNeedles : ∀ n ∈ needles, n ≠ [])
    (h : search needles (front ++ rest) = some (n, q))
    (hFits : rest.length + n.length ≤ q.length) :
    ∃ e, q = e ++ rest ∧ search needles front = some (n, e) := by
  induction needles with
  | nil => cases h
  | cons m needles ih =>
    obtain ⟨hFirst, hOthers⟩ := List.forall_mem_cons.1 hNeedles
    rw [search, List.findSome?_cons] at h ⊢
    cases hFound : strstr m (front ++ rest) with
    | none =>
      rw [hFound, Option.map_none] at h
      rw [strstr_front_none hFound, Option.map_none]
      exact ih hOthers h
    | some p =>
      rw [hFound, Option.map_some] at h
      obtain ⟨rfl, rfl⟩ := Prod.mk.inj (Option.some.inj h)
      obtain ⟨e, hEq, hFront⟩ := strstr_front_some hFirst hFound hFits
      rw [hFront, Option.map_some]
      exact ⟨e, hEq, rfl⟩

theorem search_some (h : search needles front = some (n, q)) :
    n ∈ needles ∧ n <+: q ∧ q <:+ front := by
  obtain ⟨m, hMem, hEq⟩ := List.exists_of_findSome?_eq_some h
  obtain ⟨p, hFound, hPair⟩ := Option.map_eq_some_iff.1 hEq
  obtain ⟨rfl, rfl⟩ := Prod.mk.inj hPair
  exact ⟨hMem, strstr_eq_some hFound⟩

end Search

-- ---------------------------------------------------------------------------
-- The searches of `xml_get`
-- ---------------------------------------------------------------------------

/-- The needles of one pass of the first loop -/
def openings (start tag : Bytes) : List Bytes :=
  [start, inEighty (ascii "<u:" ++ tag ++ ascii " "), inEighty (tag ++ ascii " ")]

def closings (tag : Bytes) : List Bytes :=
  [inEighty (ascii "</u:" ++ tag), inEighty (ascii "</" ++ tag)]

def startU (tag : Bytes) : Bytes := inEighty (ascii "<u:" ++ tag ++ ascii ">")

def startPlain (tag : Bytes) : Bytes := inEighty (ascii "<" ++ tag ++ ascii ">")

/-- How far `xml_get` has to read: behind the name in the end tag it finds -/
def argumentEnd (body tag : Bytes) : Option Nat :=
  (xmlOpen body tag).bind fun op =>
    (search (closings tag) op).map fun found => body.length - found.2.length + found.1.length

/-- The name is there two times. -/
def Twice (tag s : Bytes) : Prop := ∃ a b c, s = a ++ (tag ++ (b ++ (tag ++ c)))

/-- A text of XML: it has no NUL, and ends with a tag. -/
def IsDocument (s : Bytes) : Prop :=
  (∀ c ∈ s, c ≠ 0) ∧ ∃ front tail, s = front ++ 0x3E :: tail ∧ ∀ c ∈ tail, isBlank c

theorem xmlOpening_eq (xml start tag : Bytes) : xmlOpening xml start tag =
    ((search (openings start tag) xml).bind fun found => strchr 0x3E found.2).map
      (List.drop 1) := by
  simp only [xmlOpening, search, openings, List.findSome?_cons, List.findSome?_nil]
  cases strstr start xml with
  | some p => rfl
  | none =>
    -- `tmp`, and `start` without its bracket
    cases strstr (inEighty (ascii "<u:" ++ tag ++ ascii " ")) xml with
    | some p => rfl
    | none => cases strstr (inEighty (tag ++ ascii " ")) xml <;> rfl

theorem xmlClose_eq (op tag : Bytes) :
    xmlClose op tag = (search (closings tag) op).map Prod.snd := by
  simp only [xmlClose, search, closings, List.findSome?_cons, List.findSome?_nil]
  cases strstr (inEighty (ascii "</u:" ++ tag)) op with
  | some p => rfl
  | none => cases strstr (inEighty (ascii "</" ++ tag)) op <;> rfl

section Needles

variable {tag n s start front rest p op : Bytes}

/-- A needle has the name in front of its last byte, and no other end of a tag. -/
structure Needle (tag n : Bytes) : Prop where
  form : ∃ x y, n = x ++ (tag ++ [y]) ∧ 0x3E ∉ x ++ tag
  starts : ∃ c t, n = c :: t ∧ isBlank c = false

theorem needle_of_angle (hTag : IsName tag) {x : Bytes} {y : UInt8} (hx : 0x3E ∉ x)
    (h : n = 0x3C :: (x ++ (tag ++ [y]))) : Needle tag n := by
  refine ⟨⟨0x3C :: x, y, h, ?_⟩, 0x3C, _, h, by decide⟩
  rw [List.cons_append, List.mem_cons, List.mem_append, not_or, not_or]
  exact ⟨by decide, hx, fun hMem => absurd (hTag.bytes _ hMem) (by decide)⟩

theorem needle_openings (hTag : IsName tag) (hLong : tag.length ≤ 75)
    (hStart : start = startU tag ∨ start = startPlain tag) :
    ∀ n ∈ openings start tag, Needle tag n := by
  have hU : (0x3E : UInt8) ∉ ([0x75, 0x3A] : Bytes) := by decide
  intro n hMem
  simp only [openings, List.mem_cons, List.not_mem_nil, or_false] at hMem
  obtain rfl | rfl | rfl := hMem
  · obtain rfl | rfl := hStart
    · exact needle_of_angle hTag hU (needle_u hLong)
    · exact needle_of_angle (x := []) hTag List.not_mem_nil (needle_plain hLong)
  · exact needle_of_angle hTag hU (needle_u_space hLong)
  · rw [needle_bare hLong]
    obtain ⟨c, t, rfl⟩ := List.exists_cons_of_ne_nil hTag.ne_nil
    refine ⟨⟨[], 0x20, rfl, fun hMem => absurd (hTag.bytes _ hMem) (by decide)⟩, c, _, rfl, ?_⟩
    cases hBlank : isBlank c with
    | false => rfl
    | true =>
      have hName := qname_of_name hTag.bytes c List.mem_cons_self
      rw [not_qname_of_blank hBlank] at hName
      cases hName

theorem Needle.ne_nil (h : Needle tag n) : n ≠ [] := by
  obtain ⟨c, t, rfl, -⟩ := h.starts
  exact List.cons_ne_nil c t

/-- The text behind the tag is behind the needle. -/
theorem Needle.behind (h : Needle tag n) (hPrefix : n <+: p) {w : Bytes}
    (hp : p = w ++ 0x3E :: op) (hw : 0x3E ∉ w) :
    n.length + op.length ≤ p.length ∧ ∃ x b, p = x ++ (tag ++ (b ++ op)) := by
  obtain ⟨⟨x, y, rfl, hName⟩, -⟩ := h
  have hFront : x ++ tag <+: p := by
    rw [← List.append_assoc] at hPrefix
    exact (List.prefix_append _ _).trans hPrefix
  have hInside : x ++ tag <+: w := by
    obtain hShort | ⟨u, hLonger⟩ := List.prefix_or_prefix_of_prefix hFront
      (hp ▸ List.prefix_append w (0x3E :: op))
    · exact hShort
    -- else the end of the tag would be inside the needle, in front of its last byte
    · cases u with
      | nil => exact ⟨[], by rw [List.append_nil, ← hLonger, List.append_nil]⟩
      | cons d u =>
        obtain ⟨r, hRest⟩ := hFront
        rw [← hLonger, hp, List.append_assoc, List.cons_append] at hRest
        obtain ⟨rfl, -⟩ := List.cons.inj (List.append_cancel_left hRest)
        exact absurd (hLonger ▸ List.mem_append_right w List.mem_cons_self) hName
  obtain ⟨b, rfl⟩ := hInside
  refine ⟨?_, x, b ++ [0x3E], by rw [hp]; simp only [List.append_assoc, List.singleton_append]⟩
  rw [hp]
  simp only [List.length_append, List.length_cons, List.length_nil]
  omega

/-- What is found in a document has an end of a tag behind it. -/
theorem IsDocument.tag_end (hDoc : IsDocument s) {needles : List Bytes}
    (hNeedles : ∀ n ∈ needles, Needle tag n) (h : search needles s = some (n, p)) :
    ∃ w op, p = w ++ 0x3E :: op ∧ 0x3E ∉ w ∧ strchr 0x3E p = some (0x3E :: op) := by
  obtain ⟨hNul, front, tail, hText, hBlank⟩ := hDoc
  obtain ⟨hMem, hPrefix, hSuffix⟩ := search_some h
  obtain ⟨c, t, rfl, hStart⟩ := (hNeedles n hMem).starts
  have hAngle : 0x3E ∈ p := by
    obtain hShort | ⟨u, rfl⟩ := List.suffix_or_suffix_of_suffix hSuffix
      (show 0x3E :: tail <:+ s from ⟨front, hText.symm⟩)
    · obtain rfl | hInTail := List.suffix_cons_iff.1 hShort
      · exact List.mem_cons_self
      · -- the needle does not begin with a blank
        have hFirst := hBlank c (hInTail.subset (hPrefix.subset List.mem_cons_self))
        rw [hStart] at hFirst
        cases hFirst
    · exact List.mem_append_right u List.mem_cons_self
  obtain ⟨w, op, rfl, hw⟩ := List.eq_append_cons_of_mem hAngle
  refine ⟨w, op, rfl, hw, ?_⟩
  rw [strchr_skip fun d hMem => ⟨hNul d (hSuffix.subset (List.mem_append_left _ hMem)), ?_⟩]
  · rw [strchr, if_pos rfl]
  · rintro rfl
    exact hw hMem

/-- The opening tag, where `xml_get` finds one -/
theorem xmlOpening_some (hNeedles : ∀ n ∈ openings start tag, Needle tag n)
    (h : xmlOpening s start tag = some op) :
    ∃ n p w, search (openings start tag) s = some (n, p) ∧ p = w ++ 0x3E :: op ∧ 0x3E ∉ w ∧
      n.length + op.length ≤ p.length ∧ ∃ x b, p = x ++ (tag ++ (b ++ op)) := by
  rw [xmlOpening_eq] at h
  obtain ⟨r, hFound, rfl⟩ := Option.map_eq_some_iff.1 h
  obtain ⟨⟨n, p⟩, hSearch, hAngle⟩ := Option.bind_eq_some_iff.1 hFound
  obtain ⟨w, rest, hp, rfl, hw⟩ := strchr_eq_some hAngle
  obtain ⟨hMem, hPrefix, -⟩ := search_some hSearch
  exact ⟨n, p, w, hSearch, hp, hw, (hNeedles n hMem).behind hPrefix hp hw⟩

theorem xmlOpening_front (hDoc : IsDocument (front ++ rest))
    (hNeedles : ∀ n ∈ openings start tag, Needle tag n) :
    (xmlOpening (front ++ rest) start tag = none → xmlOpening front start tag = none) ∧
      ∀ op, xmlOpening (front ++ rest) start tag = some op → rest.length ≤ op.length →
        ∃ e, op = e ++ rest ∧ xmlOpening front start tag = some e := by
  constructor
  · intro h
    rw [xmlOpening_eq] at h ⊢
    cases hSearch : search (openings start tag) (front ++ rest) with
    | none =>
      rw [search_front_none hSearch]
      rfl
    | some found =>
      obtain ⟨w, op, -, -, hAngle⟩ := hDoc.tag_end hNeedles (n := found.1) (p := found.2) hSearch
      rw [hSearch, Option.bind_some, hAngle] at h
      cases h
  · intro op h hFits
    obtain ⟨n, p, w, hSearch, hp, hw, hLen, -⟩ := xmlOpening_some hNeedles h
    obtain ⟨e, hEnd, hFront⟩ := search_front_some (fun n hMem => (hNeedles n hMem).ne_nil) hSearch
      (by omega)
    -- the end of the tag is in the front as well
    have hSplit : ∃ e', e = w ++ 0x3E :: e' ∧ op = e' ++ rest := by
      rw [hEnd] at hp
      have hLonger := congrArg List.length hp
      rw [List.length_append, List.length_append, List.length_cons] at hLonger
      obtain ⟨u, hLeft, hRight⟩ | ⟨u, hLeft, hRight⟩ := List.append_eq_append_iff.1
        (hp.trans (List.append_cons w 0x3E op))
      · have hShort := congrArg List.length hRight
        have hSame := congrArg List.length hLeft
        rw [List.length_append] at hShort hSame
        obtain rfl : u = [] := List.eq_nil_of_length_eq_zero (by omega)
        rw [List.append_nil] at hLeft
        exact ⟨[], by rw [← hLeft], hRight.symm⟩
      · exact ⟨u, by rw [hLeft, List.append_assoc, List.singleton_append], hRight⟩
    obtain ⟨e', rfl, rfl⟩ := hSplit
    refine ⟨e', rfl, ?_⟩
    have hSuffix := (search_some hFront).2.2
    have hPlain : ∀ c ∈ w, c ≠ 0 ∧ c ≠ 0x3E := by
      refine fun c hMem => ⟨hDoc.1 c ?_, ?_⟩
      · exact List.mem_append_left _ (hSuffix.subset (List.mem_append_left _ hMem))
      · rintro rfl
        exact hw hMem
    rw [xmlOpening_eq, hFront, Option.bind_some, strchr_skip hPlain, strchr, if_pos rfl]
    rfl

end Needles

-- ---------------------------------------------------------------------------
-- Arguments in the front of a body
-- ---------------------------------------------------------------------------

section Front

variable {tag s front rest out op : Bytes}

theorem xmlOpen_front (hTag : IsName tag) (hLong : tag.length ≤ 75)
    (hDoc : IsDocument (front ++ rest)) (h : xmlOpen (front ++ rest) tag = some op)
    (hFits : rest.length ≤ op.length) : ∃ e, op = e ++ rest ∧ xmlOpen front tag = some e := by
  obtain ⟨hNoneU, hSomeU⟩ := xmlOpening_front hDoc (needle_openings hTag hLong (.inl rfl))
  obtain ⟨-, hSome⟩ := xmlOpening_front hDoc (needle_openings hTag hLong (.inr rfl))
  rw [xmlOpen, ← startU, ← startPlain] at h ⊢
  cases hFirst : xmlOpening (front ++ rest) (startU tag) tag with
  | some r =>
    rw [hFirst] at h
    obtain rfl := Option.some.inj h
    obtain ⟨e, rfl, hFront⟩ := hSomeU _ hFirst hFits
    rw [hFront]
    exact ⟨e, rfl, rfl⟩
  | none =>
    rw [hFirst] at h
    rw [hNoneU hFirst]
    exact hSome op h hFits

/-- The name is in front of what an opening tag is found to begin. -/
theorem xmlOpen_name (hTag : IsName tag) (hLong : tag.length ≤ 75) (h : xmlOpen s tag = some op) :
    ∃ a b, s = a ++ (tag ++ (b ++ op)) := by
  have hPass {start : Bytes} (hStart : start = startU tag ∨ start = startPlain tag)
      (h : xmlOpening s start tag = some op) : ∃ a b, s = a ++ (tag ++ (b ++ op)) := by
    obtain ⟨n, p, w, hSearch, -, -, -, x, b, hp⟩ :=
      xmlOpening_some (needle_openings hTag hLong hStart) h
    obtain ⟨lead, hLead⟩ := (search_some hSearch).2.2
    exact ⟨lead ++ x, b, by rw [← hLead, hp, List.append_assoc]⟩
  rw [xmlOpen, ← startU, ← startPlain] at h
  cases hFirst : xmlOpening s (startU tag) tag with
  | some r =>
    rw [hFirst] at h
    exact hPass (.inl rfl) (hFirst.trans h)
  | none =>
    rw [hFirst] at h
    exact hPass (.inr rfl) h

theorem closings_name (hLong : tag.length ≤ 75) : ∀ n ∈ closings tag, ∃ x, n = x ++ tag := by
  intro n hMem
  simp only [closings, List.mem_cons, List.not_mem_nil, or_false] at hMem
  obtain rfl | rfl := hMem
  · exact ⟨[0x3C, 0x2F, 0x75, 0x3A], needle_end_u hLong⟩
  · exact ⟨[0x3C, 0x2F], needle_end hLong⟩

/-- **What is found** has the name two times: in front of the argument, and behind it. -/
theorem twice_of_found (hTag : IsName tag) (hLong : tag.length ≤ 75)
    (h : xmlGet s tag out ≠ (-1, out)) : Twice tag s := by
  rw [xmlGet] at h
  cases hOpen : xmlOpen s tag with
  | none =>
    rw [hOpen] at h
    exact absurd rfl h
  | some op =>
    rw [hOpen] at h
    cases hClose : search (closings tag) op with
    | none =>
      simp only [xmlClose_eq, hClose, Option.map_none] at h
      exact absurd rfl h
    | some found =>
      obtain ⟨a, b, hText⟩ := xmlOpen_name hTag hLong hOpen
      obtain ⟨hMem, ⟨c, hNeedle⟩, d, hBehind⟩ := search_some (n := found.1) (q := found.2) hClose
      obtain ⟨x, hName⟩ := closings_name hLong _ hMem
      refine ⟨a, b ++ (d ++ x), c, ?_⟩
      rw [hText, ← hBehind, ← hNeedle, hName]
      simp only [List.append_assoc]

/-- **An argument** whose end tag is in the front is read from there. -/
theorem xmlGet_front {last : Nat} (hTag : IsName tag) (hLong : tag.length ≤ 75)
    (hDoc : IsDocument (front ++ rest)) (hEnd : argumentEnd (front ++ rest) tag = some last)
    (hFits : last ≤ front.length) (out : Bytes) :
    xmlGet front tag out = xmlGet (front ++ rest) tag out := by
  obtain ⟨op, hOpen, hRest⟩ := Option.bind_eq_some_iff.1 hEnd
  obtain ⟨⟨n, q⟩, hClose, hLast⟩ := Option.map_eq_some_iff.1 hRest
  obtain ⟨hMem, hNeedle, hSuffix⟩ := search_some hClose
  have hInside := hSuffix.length_le
  obtain ⟨a, b, hText⟩ := xmlOpen_name hTag hLong hOpen
  have hWhole := congrArg List.length hText
  simp only [List.length_append] at hWhole hLast
  obtain ⟨e, rfl, hFrontOpen⟩ := xmlOpen_front hTag hLong hDoc hOpen (by omega)
  have hNames : ∀ n ∈ closings tag, n ≠ [] := by
    intro n hMem hNil
    obtain ⟨x, hName⟩ := closings_name hLong n hMem
    exact hTag.ne_nil (List.append_eq_nil_iff.1 (hName.symm.trans hNil)).2
  obtain ⟨e', rfl, hFrontClose⟩ := search_front_some hNames hClose (by omega)
  have hShort := (search_some hFrontClose).2.2.length_le
  simp only [xmlGet, hOpen, hFrontOpen, xmlClose_eq, hClose, hFrontClose, Option.map_some]
  rw [List.length_append, List.length_append, Nat.add_sub_add_right,
    List.take_append_of_le_length (Nat.sub_le _ _)]

theorem xmlGet_none (h : argumentEnd s tag = none) (out : Bytes) :
    xmlGet s tag out = (-1, out) := by
  rw [xmlGet]
  cases hOpen : xmlOpen s tag with
  | none => rfl
  | some op =>
    rw [argumentEnd, hOpen, Option.bind_some, Option.map_eq_none_iff] at h
    simp only [xmlClose_eq, h, Option.map_none]

theorem xmlGet_some {last : Nat} (h : argumentEnd s tag = some last) (out : Bytes) :
    0 ≤ (xmlGet s tag out).1 := by
  obtain ⟨op, hOpen, hRest⟩ := Option.bind_eq_some_iff.1 h
  obtain ⟨found, hClose, -⟩ := Option.map_eq_some_iff.1 hRest
  simp only [xmlGet, hOpen, xmlClose_eq, hClose, Option.map_some, store]
  exact Int.natCast_nonneg _

end Front

-- ---------------------------------------------------------------------------
-- The handlers
-- ---------------------------------------------------------------------------

inductive Control where
  | avTransport
  | renderingControl
  | connectionManager

/-- The largest body -/
def Control.limit : Control → Nat
  | .avTransport => 32768
  | .renderingControl | .connectionManager => 2047

def Control.handle (c : Control) (s : Server) (action : Bytes) (contentLen : Nat)
    (pieces : List Bytes) : List Call × List Response :=
  match c with
  | .avTransport => avtControl s action contentLen pieces
  | .renderingControl => rcControl s action pieces
  | .connectionManager => cmControl action pieces

/-- A way to deliver a body -/
structure Delivers (body : Bytes) (pieces : List Bytes) : Prop where
  nonempty : ∀ piece ∈ pieces, piece ≠ []
  whole : pieces.flatten = body

/-- A body in one piece -/
def oneSegment (body : Bytes) : List Bytes := if body = [] then [] else [body]

/-- The callbacks and the one response are those for the body in one piece. -/
def Unsegmented (c : Control) (s : Server) (action body : Bytes) (pieces : List Bytes) : Prop :=
  ∃ calls response, c.handle s action body.length pieces = (calls, [response]) ∧
    c.handle s action body.length (oneSegment body) = (calls, [response])

/-- The argument that an action of RenderingControl reads -/
def desired (action : Bytes) : Option Bytes :=
  if action = ascii "SetVolume" then some (ascii "DesiredVolume")
  else if action = ascii "SetMute" then some (ascii "DesiredMute")
  else none

/-- The argument ends within the first `k` bytes; where there is none, nothing in these looks
like one. -/
def Settled (tag body : Bytes) (k : Nat) : Prop :=
  (∀ last, argumentEnd body tag = some last → last ≤ k) ∧
    (argumentEnd body tag = none → ¬Twice tag (body.take k))

/-- The name is there for the second time in the end tag of the argument; without the argument
it is not there twice. -/
def OnlyTags (tag body : Bytes) : Prop :=
  (∀ last, argumentEnd body tag = some last → ∀ k < last, ¬Twice tag (body.take k)) ∧
    (argumentEnd body tag = none → ¬Twice tag body)

/-- What a handler needs in the first piece -/
def Control.Early (c : Control) (action body : Bytes) (pieces : List Bytes) : Prop :=
  match c with
  | .avTransport => True
  | .renderingControl => body ≠ [] ∧
      ∀ tag ∈ desired action, Settled tag body (pieces.headD []).length
  | .connectionManager => body ≠ []

section Handlers

variable {tag action body first : Bytes} {pieces : List Bytes} {s : Server}

theorem Delivers.nil_iff (h : Delivers body pieces) : pieces = [] ↔ body = [] := by
  rw [← h.whole, List.flatten_eq_nil_iff]
  constructor
  · rintro rfl
    exact List.forall_mem_nil _
  · intro hAll
    cases pieces with
    | nil => rfl
    | cons piece pieces =>
      exact absurd (hAll piece List.mem_cons_self) (h.nonempty piece List.mem_cons_self)

theorem delivers_oneSegment (body : Bytes) : Delivers body (oneSegment body) := by
  rw [oneSegment]
  split_ifs with hBody
  · exact ⟨List.forall_mem_nil _, by rw [hBody]; rfl⟩
  · exact ⟨List.forall_mem_singleton.2 hBody, by rw [List.flatten_singleton]⟩

/-- **The loop** of AVTransport ends with the whole body. -/
theorem recvBody_pieces (h : Delivers body pieces) : recvBody body.length pieces = some body := by
  induction pieces generalizing body with
  | nil =>
    obtain rfl : body = [] := h.nil_iff.1 rfl
    rw [recvBody]
    rfl
  | cons piece pieces ih =>
    obtain ⟨hFirst, hRest⟩ := List.forall_mem_cons.1 h.nonempty
    have hBody := h.whole
    rw [List.flatten_cons] at hBody
    have hLen := congrArg List.length hBody
    have hPos := List.length_pos_of_ne_nil hFirst
    rw [List.length_append] at hLen
    have hGot : httpdReqRecv (piece :: pieces) body.length = (piece, pieces) := by
      rw [httpdReqRecv, List.take_of_length_le (by omega), if_pos (by omega)]
    rw [recvBody, dif_neg (by omega)]
    simp only [hGot]
    rw [dif_neg hFirst, show body.length - piece.length = pieces.flatten.length by omega,
      ih ⟨hRest, rfl⟩, Option.map_some, hBody]

/-- What the other two take for the body -/
theorem received_first (h : Delivers body pieces) (hFits : body.length ≤ 2047) :
    received pieces = pieces.headD [] := by
  cases pieces with
  | nil => rfl
  | cons piece pieces =>
    have hLen := congrArg List.length h.whole
    rw [List.flatten_cons, List.length_append] at hLen
    rw [received, httpdReqRecv, List.take_of_length_le (by omega), List.headD_cons]

theorem headD_oneSegment (body : Bytes) : (oneSegment body).headD [] = body := by
  rw [oneSegment]
  split_ifs with hBody
  · rw [hBody]
    rfl
  · rfl

/-- The first piece is the front of the body. -/
theorem Delivers.front (h : Delivers body pieces) : ∃ rest, body = pieces.headD [] ++ rest := by
  cases pieces with
  | nil => exact ⟨body, rfl⟩
  | cons piece pieces => exact ⟨pieces.flatten, h.whole.symm⟩

theorem Delivers.head_nil_iff (h : Delivers body pieces) : pieces.headD [] = [] ↔ body = [] := by
  rw [← h.nil_iff]
  cases pieces with
  | nil => exact iff_of_true rfl rfl
  | cons piece pieces =>
    exact iff_of_false (h.nonempty piece List.mem_cons_self) (List.cons_ne_nil _ _)

theorem Twice.append (h : Twice tag first) (rest : Bytes) : Twice tag (first ++ rest) := by
  obtain ⟨a, b, c, rfl⟩ := h
  exact ⟨a, b, c ++ rest, by simp only [List.append_assoc]⟩

theorem desired_name (h : tag ∈ desired action) : IsName tag ∧ tag.length ≤ 75 := by
  rw [desired] at h
  split_ifs at h
  · obtain rfl := Option.some.inj h
    exact ⟨⟨by decide, by decide +kernel⟩, by decide⟩
  · obtain rfl := Option.some.inj h
    exact ⟨⟨by decide, by decide +kernel⟩, by decide⟩
  · cases h

theorem numberArgument_none (h : xmlGet first tag (List.replicate 16 0) =
    (-1, List.replicate 16 0)) : numberArgument first tag = none := by
  rw [numberArgument, h]
  rfl

/-- An argument that has ended is read from the first piece. -/
theorem numberArgument_settled {rest : Bytes} (hTag : IsName tag) (hLong : tag.length ≤ 75)
    (hDoc : IsDocument (first ++ rest)) (h : Settled tag (first ++ rest) first.length) :
    numberArgument first tag = numberArgument (first ++ rest) tag := by
  cases hEnd : argumentEnd (first ++ rest) tag with
  | some last =>
    rw [numberArgument, numberArgument, xmlGet_front hTag hLong hDoc hEnd (h.1 last hEnd)]
  | none =>
    have hNot := h.2 hEnd
    rw [List.take_left] at hNot
    rw [numberArgument_none (xmlGet_none hEnd _), numberArgument_none]
    exact not_not.1 fun hFound => hNot (twice_of_found hTag hLong hFound)

/-- And one that has not is not. -/
theorem settled_of_numberArgument {rest : Bytes} (hTag : IsName tag) (hLong : tag.length ≤ 75)
    (hOnly : OnlyTags tag (first ++ rest))
    (h : numberArgument first tag = numberArgument (first ++ rest) tag) :
    Settled tag (first ++ rest) first.length := by
  refine ⟨fun last hEnd => ?_, fun hEnd hTwice => ?_⟩
  -- an end tag that is later has the name for the second time, so nothing is found before it
  · by_contra hLate
    have hNot := hOnly.1 last hEnd first.length (Nat.lt_of_not_le hLate)
    rw [List.take_left] at hNot
    have hNone := numberArgument_none (not_not.1 fun hFound =>
      hNot (twice_of_found hTag hLong hFound))
    rw [hNone, numberArgument, if_pos (xmlGet_some hEnd _)] at h
    cases h
  · rw [List.take_left] at hTwice
    exact hOnly.2 hEnd (hTwice.append rest)

/-- Two bodies are handled alike if the argument is read alike. -/
theorem rcAction_eq_iff : rcAction s action first = rcAction s action body ↔
    ∀ tag ∈ desired action, numberArgument first tag = numberArgument body tag := by
  have hCalls {f : Int → Call} (hf : Function.Injective f) {m n : Option Int} :
      (m.map f).toList = (n.map f).toList ↔ m = n := by
    constructor
    · intro h
      cases m <;> cases n <;> simp_all [hf.eq_iff]
    · rintro rfl
      rfl
  rw [desired]
  by_cases hVolume : action = ascii "SetVolume"
  · have hOther : ascii "SetVolume" ≠ ascii "GetVolume" := by decide
    simp only [rcAction, hVolume, if_neg hOther, if_true, Prod.mk.injEq, and_true,
      hCalls fun _ _ => Call.setVolume.inj, Option.mem_def, Option.some.injEq, forall_eq']
  by_cases hMute : action = ascii "SetMute"
  · have hOther : ascii "SetMute" ≠ ascii "GetVolume" ∧ ascii "SetMute" ≠ ascii "SetVolume" ∧
        ascii "SetMute" ≠ ascii "GetMute" := by decide
    simp only [rcAction, hMute, if_neg hOther.1, if_neg hOther.2.1, if_neg hOther.2.2, if_true,
      Prod.mk.injEq, and_true, hCalls fun _ _ => Call.setMute.inj, Option.mem_def,
      Option.some.injEq, forall_eq']
  · rw [if_neg hVolume, if_neg hMute]
    refine iff_of_true ?_ (fun tag hMem => by cases hMem)
    simp only [rcAction, if_neg hVolume, if_neg hMute]

theorem rcControl_eq (h : Delivers body pieces) (hFits : body.length ≤ 2047) (s : Server)
    (action : Bytes) : rcControl s action pieces =
      if body = [] then ([], [])
      else
        ((rcAction s action (pieces.headD [])).1, [(rcAction s action (pieces.headD [])).2]) := by
  rw [rcControl, received_first h hFits]
  simp only [h.head_nil_iff]

theorem cmControl_eq (h : Delivers body pieces) (hFits : body.length ≤ 2047) (action : Bytes) :
    cmControl action pieces = if body = [] then ([], []) else ([], [cmAction action]) := by
  rw [cmControl, received_first h hFits]
  simp only [h.head_nil_iff]

theorem avtControl_eq (h : Delivers body pieces) (s : Server) (action : Bytes) :
    ∃ calls response, avtControl s action body.length pieces = (calls, [response]) ∧
      avtControl s action body.length (oneSegment body) = (calls, [response]) := by
  rw [avtControl, avtControl, recvBody_pieces h, recvBody_pieces (delivers_oneSegment body)]
  split_ifs
  · exact ⟨_, _, rfl, rfl⟩
  · exact ⟨_, _, rfl, rfl⟩

/-- RenderingControl, by the two arguments -/
theorem unsegmented_rc_iff (h : Delivers body pieces) (hFits : body.length ≤ 2047) :
    Unsegmented .renderingControl s action body pieces ↔ body ≠ [] ∧
      ∀ tag ∈ desired action, numberArgument (pieces.headD []) tag = numberArgument body tag := by
  simp only [Unsegmented, Control.handle]
  rw [rcControl_eq h hFits, rcControl_eq (delivers_oneSegment body) hFits, headD_oneSegment,
    ← rcAction_eq_iff (s := s)]
  by_cases hBody : body = []
  · rw [if_pos hBody]
    refine iff_of_false ?_ fun hBoth => hBoth.1 hBody
    rintro ⟨calls, response, hNone, -⟩
    cases hNone
  · rw [if_neg hBody, if_neg hBody]
    constructor
    · rintro ⟨calls, response, hFirst, hWhole⟩
      obtain ⟨hCalls, hResponse⟩ := Prod.mk.inj (hFirst.trans hWhole.symm)
      exact ⟨hBody, Prod.ext hCalls (List.cons.inj hResponse).1⟩
    · rintro ⟨-, hSame⟩
      exact ⟨_, _, by rw [hSame], rfl⟩

/-- A volume of 30, up to the argument and from there on -/
def volumeFront : Bytes :=
  ascii "<s:Envelope xmlns:s=\"http://schemas.xmlsoap.org/soap/envelope/\"><s:Body>" ++
    (ascii "<u:SetVolume xmlns:u=\"urn:schemas-upnp-org:service:RenderingControl:1\">" ++
      ascii "<InstanceID>0</InstanceID><Channel>Master</Channel><Desired")

def volumeRest : Bytes := ascii "Volume>30</DesiredVolume></u:SetVolume></s:Body></s:Envelope>"

def anyServer : Server := ⟨ascii "PLAYING", 20, 0, []⟩

def volumeBody : Bytes := volumeFront ++ volumeRest

theorem volume_facts : 0 ∉ volumeBody ∧ volumeBody.length = 263 ∧
    volumeBody.getLast? = some 0x3E ∧ argumentEnd volumeBody (ascii "DesiredVolume") = some 226 ∧
    numberArgument volumeFront (ascii "DesiredVolume") = none ∧
    numberArgument volumeBody (ascii "DesiredVolume") = some 30 := by
  decide +kernel

theorem volume_document : IsDocument volumeBody := by
  obtain ⟨hNul, -, hLast, -⟩ := volume_facts
  obtain ⟨front, hText⟩ := List.getLast?_eq_some_iff.1 hLast
  refine ⟨fun c hMem hZero => hNul (hZero ▸ hMem), front, [], hText, List.forall_mem_nil _⟩

theorem volume_fits : volumeBody.length ≤ Control.renderingControl.limit := by
  rw [volume_facts.2.1]
  decide

theorem volume_ne_nil : volumeBody ≠ [] := by
  refine List.ne_nil_of_length_pos ?_
  rw [volume_facts.2.1]
  decide

end Handlers

end EspMiplay.Dlna
