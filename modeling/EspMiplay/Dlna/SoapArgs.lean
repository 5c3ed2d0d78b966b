import EspMiplay.Miplay.TextBounds

/-!
# Arguments of a SOAP action

`xml_get` looks for the start tag of an argument with three searches, and for its end tag with
two more. The last resort of the first three is the name in front of a space, without the
angle bracket: it is tried before the plain start tag without a prefix.

## Results

* `xmlGet_present` — an argument is read where its start tag is the one the searches find,
  and no end tag with a longer name behind it is taken for its own.
* `xmlGet_absent`  — without the argument nothing is read where the name in front of a space
  does not occur either.
* `xmlGet_spec`    — the two together.
-/

namespace EspMiplay.Dlna

open EspMiplay.Miplay (Bytes ascii strstr strchr strstr_skip strstr_eq_some)

-- ---------------------------------------------------------------------------
-- The searches
-- ---------------------------------------------------------------------------

/-- What `snprintf` leaves in `start[80]` and `end[80]`. -/
def inEighty (s : Bytes) : Bytes := s.take 79

/-- One pass of the first loop: behind the first `>` from what is found on. -/
def xmlOpening (xml start tag : Bytes) : Option Bytes :=
  let p := match strstr start xml with
    | some p => some p
    | none =>
      -- `tmp`, and then `start` without its bracket
      match strstr (inEighty (ascii "<u:" ++ tag ++ ascii " ")) xml with
      | some pt => some pt
      | none => strstr (inEighty (tag ++ ascii " ")) xml
  (p.bind (strchr 0x3E)).map (List.drop 1)

/-- The first loop of `xml_get` -/
def xmlOpen (xml tag : Bytes) : Option Bytes :=
  match xmlOpening xml (inEighty (ascii "<u:" ++ tag ++ ascii ">")) tag with
  | some op => some op
  | none => xmlOpening xml (inEighty (ascii "<" ++ tag ++ ascii ">")) tag

/-- The second loop -/
def xmlClose (op tag : Bytes) : Option Bytes :=
  match strstr (inEighty (ascii "</u:" ++ tag)) op with
  | some q => some q
  | none => strstr (inEighty (ascii "</" ++ tag)) op

/-- A text with its NUL at the front of `out`, and its length. -/
def store (out text : Bytes) : Int × Bytes :=
  -- `if (len >= out_max) len = out_max - 1`
  let text := text.take (out.length - 1)
  (text.length, text ++ 0 :: out.drop (text.length + 1))

/-- `xml_get`: the return value, and `out[out_max]` after it. -/
def xmlGet (xml tag out : Bytes) : Int × Bytes :=
  match xmlOpen xml tag with
  | none => (-1, out)
  | some op =>
    match xmlClose op tag with
    | none => (-1, out)
    | some q => store out (op.take (op.length - q.length))

-- ---------------------------------------------------------------------------
-- Bodies
-- ---------------------------------------------------------------------------

def isBlank (c : UInt8) : Bool := c = 0x20 || c = 0x09 || c = 0x0A || c = 0x0D

/-- A byte of a name without a prefix -/
def isNameByte (c : UInt8) : Bool :=
  c ∉ ([0x3C, 0x3E, 0x2F, 0x3D, 0x21, 0x3F, 0x26, 0x22, 0x27, 0x20, 0x09, 0x0A, 0x0D, 0x3A, 0] :
    Bytes)

def isQNameByte (c : UInt8) : Bool := isNameByte c || c = 0x3A

structure IsName (n : Bytes) : Prop where
  ne_nil : n ≠ []
  bytes : ∀ c ∈ n, isNameByte c

/-- No markup begins in it. -/
def Clean (t : Bytes) : Prop := ∀ c ∈ t, c ≠ 0 ∧ c ≠ 0x3C

instance (t : Bytes) : Decidable (Clean t) := List.decidableBAll _ t

structure Attribute where
  gap : Bytes
  name : Bytes
  quote : UInt8
  value : Bytes

def Attribute.bytes (a : Attribute) : Bytes :=
  a.gap ++ (a.name ++ 0x3D :: a.quote :: (a.value ++ [a.quote]))

structure Attribute.Ok (a : Attribute) : Prop where
  gap_ne_nil : a.gap ≠ []
  gap : ∀ c ∈ a.gap, isBlank c
  name : ∀ c ∈ a.name, isQNameByte c
  quote : a.quote = 0x22 ∨ a.quote = 0x27
  value : Clean a.value ∧ a.quote ∉ a.value

/-- What stands between a name and the end of its tag. -/
structure Attributes where
  list : List Attribute
  gap : Bytes

def Attributes.bytes (as : Attributes) : Bytes := as.list.flatMap Attribute.bytes ++ as.gap

structure Attributes.Ok (as : Attributes) : Prop where
  list : ∀ a ∈ as.list, a.Ok
  gap : ∀ c ∈ as.gap, isBlank c

/-- An argument of the action; `none` for an element that closes itself. -/
structure Argument where
  prefixed : Bool
  name : Bytes
  attrs : Attributes
  content : Option Bytes
  close : Bytes
  after : Bytes

/-- The envelope, its body or the action: an element that is around the arguments. -/
structure Wrapper where
  qname : Bytes
  attrs : Attributes
  inside : Bytes
  close : Bytes
  behind : Bytes

/-- A body; the prolog is what begins with `<?` and `<!`. -/
structure SoapBody where
  lead : Bytes
  prolog : List Bytes
  outer : List Wrapper
  args : List Argument

/-- The name with its prefix -/
def withU (n : Bytes) : Bytes := 0x75 :: 0x3A :: n

def Argument.qname (a : Argument) : Bytes := if a.prefixed then withU a.name else a.name

/-- The tags of the argument, each up to the next one, without its angle bracket. -/
def Argument.tags (a : Argument) : List Bytes :=
  match a.content with
  | none => [a.qname ++ (a.attrs.bytes ++ 0x2F :: 0x3E :: a.after)]
  | some t =>
    [a.qname ++ (a.attrs.bytes ++ 0x3E :: t), 0x2F :: (a.qname ++ (a.close ++ 0x3E :: a.after))]

def Wrapper.startTag (w : Wrapper) : Bytes := w.qname ++ (w.attrs.bytes ++ 0x3E :: w.inside)

def Wrapper.endTag (w : Wrapper) : Bytes := 0x2F :: (w.qname ++ (w.close ++ 0x3E :: w.behind))

/-- The tags as they stand in a body -/
def tagged (ts : List Bytes) : Bytes := ts.flatMap (0x3C :: ·)

namespace SoapBody

variable (b : SoapBody)

/-- The tags in front of the arguments -/
def opening : List Bytes := b.prolog ++ b.outer.map Wrapper.startTag

/-- The tags from some argument on -/
def tagsFrom (args : List Argument) : List Bytes :=
  args.flatMap Argument.tags ++ b.outer.reverse.map Wrapper.endTag

def text : Bytes := b.lead ++ tagged (b.opening ++ b.tagsFrom b.args)

end SoapBody

structure Argument.Ok (a : Argument) : Prop where
  name : IsName a.name
  attrs : a.attrs.Ok
  content : ∀ t ∈ a.content, Clean t
  close : ∀ c ∈ a.close, isBlank c
  after : ∀ c ∈ a.after, isBlank c

structure Wrapper.Ok (w : Wrapper) : Prop where
  qname : ∀ c ∈ w.qname, isQNameByte c
  attrs : w.attrs.Ok
  inside : ∀ c ∈ w.inside, isBlank c
  close : ∀ c ∈ w.close, isBlank c
  behind : ∀ c ∈ w.behind, isBlank c

structure SoapBody.Ok (b : SoapBody) : Prop where
  lead : Clean b.lead
  prolog : ∀ t ∈ b.prolog, Clean t ∧ (t.head? = some 0x3F ∨ t.head? = some 0x21)
  outer : ∀ w ∈ b.outer, w.Ok
  args : ∀ a ∈ b.args, a.Ok
  unique : (b.args.map Argument.name).Nodup

/-- What `xml_get` is to do with the body. -/
def SoapBody.expected (b : SoapBody) (tag out : Bytes) : Int × Bytes :=
  match b.args.find? fun a => a.name = tag with
  | none => (-1, out)
  | some a => store out (a.content.getD [])

-- ---------------------------------------------------------------------------
-- Tags and searches
-- ---------------------------------------------------------------------------

theorem clean_of_blank {t : Bytes} (h : ∀ c ∈ t, isBlank c) : Clean t := by
  intro c hc
  have hBlank := h c hc
  constructor <;> rintro rfl <;> exact absurd hBlank (by decide)

theorem clean_of_qname {t : Bytes} (h : ∀ c ∈ t, isQNameByte c) : Clean t := by
  intro c hc
  have hName := h c hc
  constructor <;> rintro rfl <;> exact absurd hName (by decide)

theorem Clean.append {s t : Bytes} (hs : Clean s) (ht : Clean t) : Clean (s ++ t) :=
  List.forall_mem_append.2 ⟨hs, ht⟩

theorem Clean.cons {c : UInt8} {t : Bytes} (hc : c ≠ 0 ∧ c ≠ 0x3C) (ht : Clean t) :
    Clean (c :: t) :=
  List.forall_mem_cons.2 ⟨hc, ht⟩

theorem Attribute.Ok.clean {a : Attribute} (h : a.Ok) : Clean a.bytes := by
  have hQuote : a.quote ≠ 0 ∧ a.quote ≠ 0x3C := by
    rcases h.quote with hQ | hQ <;> rw [hQ] <;> decide
  have hEnd : Clean [a.quote] := Clean.cons hQuote (List.forall_mem_nil _)
  have hValue := Clean.cons hQuote (h.value.1.append hEnd)
  exact (clean_of_blank h.gap).append ((clean_of_qname h.name).append
    (Clean.cons (by decide) hValue))

theorem Attributes.Ok.clean {as : Attributes} (h : as.Ok) : Clean as.bytes := by
  refine Clean.append ?_ (clean_of_blank h.gap)
  intro c hc
  obtain ⟨a, ha, hMem⟩ := List.mem_flatMap.1 hc
  exact (h.list a ha).clean c hMem

/-- Behind the name comes a blank, where anything comes. -/
theorem Attributes.Ok.blank {as : Attributes} (h : as.Ok) : ∀ c ∈ as.bytes.head?, isBlank c := by
  intro c hc
  rw [Attributes.bytes] at hc
  cases hList : as.list with
  | nil =>
    rw [hList, List.flatMap_nil, List.nil_append] at hc
    exact h.gap c (List.mem_of_mem_head? hc)
  | cons a rest =>
    have ha := h.list a (by rw [hList]; exact List.mem_cons_self)
    obtain ⟨d, ds, hGap⟩ := List.exists_cons_of_ne_nil ha.gap_ne_nil
    rw [hList, List.flatMap_cons, Attribute.bytes, hGap] at hc
    obtain rfl : d = c := by simpa using hc
    exact ha.gap d (by rw [hGap]; exact List.mem_cons_self)

/-- A needle without `<` that is in front of a tag and what follows is in front of the tag. -/
theorem prefix_of_tag {rest t s : Bytes} (hRest : 0x3C ∉ rest) (hs : s = [] ∨ s.head? = some 0x3C)
    (h : rest <+: t ++ s) : rest <+: t := by
  rcases hs with rfl | hHead
  · rwa [List.append_nil] at h
  · by_contra hNot
    obtain ⟨s', rfl⟩ : ∃ s', s = 0x3C :: s' := by
      cases s with
      | nil => cases hHead
      | cons c s' =>
        obtain rfl := Option.some.inj hHead
        exact ⟨s', rfl⟩
    -- the needle goes beyond the tag, so it has the bracket of the next one
    have hLong : t.length < rest.length := by
      by_contra hShort
      exact hNot (List.prefix_of_prefix_length_le h (List.prefix_append _ _) (by omega))
    have hWhole : t ++ [0x3C] <+: t ++ 0x3C :: s' := ⟨s', by simp⟩
    have hOver : t ++ [0x3C] <+: rest := by
      refine List.prefix_of_prefix_length_le hWhole h ?_
      rw [List.length_append, List.length_singleton]
      exact hLong
    exact hRest (hOver.subset (by simp))

theorem tagged_head (ts : List Bytes) : tagged ts = [] ∨ (tagged ts).head? = some 0x3C := by
  cases ts with
  | nil => exact .inl rfl
  | cons t ts => exact .inr rfl

theorem tagged_append (ts us : List Bytes) : tagged (ts ++ us) = tagged ts ++ tagged us :=
  List.flatMap_append

/-- Tags that do not begin with the needle are passed over. -/
theorem strstr_tagged {rest : Bytes} {ts : List Bytes} (hRest : 0x3C ∉ rest)
    (hClean : ∀ t ∈ ts, Clean t) (hNot : ∀ t ∈ ts, ¬rest <+: t) (us : List Bytes) :
    strstr (0x3C :: rest) (tagged (ts ++ us)) = strstr (0x3C :: rest) (tagged us) := by
  induction ts with
  | nil => rfl
  | cons t ts ih =>
    obtain ⟨hThis, hClean'⟩ := List.forall_mem_cons.1 hClean
    obtain ⟨hFront, hNot'⟩ := List.forall_mem_cons.1 hNot
    have hText : tagged (t :: ts ++ us) = 0x3C :: (t ++ tagged (ts ++ us)) := by
      rw [List.cons_append, tagged, List.flatMap_cons]
      rfl
    have hPrefix : ¬(0x3C :: rest).isPrefixOf (0x3C :: (t ++ tagged (ts ++ us))) := by
      rw [List.isPrefixOf_iff_prefix, List.cons_prefix_cons]
      exact fun h => hFront (prefix_of_tag hRest (tagged_head _) h.2)
    rw [hText, strstr, if_neg hPrefix, if_neg (by decide), strstr_skip hThis]
    exact ih hClean' hNot'

theorem strstr_tagged_none {rest : Bytes} {ts : List Bytes} (hRest : 0x3C ∉ rest)
    (hClean : ∀ t ∈ ts, Clean t) (hNot : ∀ t ∈ ts, ¬rest <+: t) :
    strstr (0x3C :: rest) (tagged ts) = none := by
  have hAll := strstr_tagged hRest hClean hNot []
  rw [List.append_nil] at hAll
  rw [hAll]
  rfl

theorem strstr_tagged_some {rest t : Bytes} (h : rest <+: t) (ts : List Bytes) :
    strstr (0x3C :: rest) (tagged (t :: ts)) = some (tagged (t :: ts)) := by
  have hPrefix : (0x3C :: rest).isPrefixOf (0x3C :: (t ++ tagged ts)) := by
    rw [List.isPrefixOf_iff_prefix, List.cons_prefix_cons]
    exact ⟨rfl, h.trans (List.prefix_append _ _)⟩
  exact if_pos hPrefix

-- ---------------------------------------------------------------------------
-- The names of tags
-- ---------------------------------------------------------------------------

/-- The name a tag begins with; nothing for an end tag. -/
def tagName (t : Bytes) : Bytes := t.takeWhile isQNameByte

theorem tagName_append {q r : Bytes} {c : UInt8} (hq : ∀ c ∈ q, isQNameByte c)
    (hc : isQNameByte c = false) : tagName (q ++ c :: r) = q := by
  have hStop : ¬isQNameByte c = true := by rw [hc]; exact Bool.false_ne_true
  rw [tagName, List.takeWhile_append_of_pos hq, List.takeWhile_cons_of_neg hStop, List.append_nil]

/-- A search for a name and the byte behind it finds tags with this name only. -/
theorem tagName_of_prefix {n t : Bytes} {c : UInt8} (hn : ∀ c ∈ n, isQNameByte c)
    (hc : isQNameByte c = false) (h : n ++ [c] <+: t) : tagName t = n := by
  obtain ⟨r, rfl⟩ := h
  rw [List.append_assoc]
  exact tagName_append hn hc

/-- Names that begin a tag are part of its name. -/
theorem prefix_tagName {n t : Bytes} (hn : ∀ c ∈ n, isQNameByte c) (h : n <+: t) :
    n <+: tagName t := by
  obtain ⟨r, rfl⟩ := h
  rw [tagName, List.takeWhile_append_of_pos hn]
  exact List.prefix_append _ _

theorem not_qname_of_blank {c : UInt8} (h : isBlank c) : isQNameByte c = false := by
  simp only [isBlank, Bool.or_eq_true, decide_eq_true_eq] at h
  rcases h with ((rfl | rfl) | rfl) | rfl <;> decide

theorem qname_of_name {n : Bytes} (h : ∀ c ∈ n, isNameByte c) : ∀ c ∈ n, isQNameByte c := by
  intro c hc
  rw [isQNameByte, h c hc, Bool.true_or]

theorem colon_not_mem {n : Bytes} (h : IsName n) : 0x3A ∉ n :=
  fun hMem => absurd (h.bytes _ hMem) (by decide)

theorem qname_withU {n : Bytes} (h : IsName n) : ∀ c ∈ withU n, isQNameByte c :=
  List.forall_mem_cons.2 ⟨by decide, List.forall_mem_cons.2 ⟨by decide, qname_of_name h.bytes⟩⟩

theorem withU_injective {m n : Bytes} (h : withU m = withU n) : m = n :=
  (List.cons.inj (List.cons.inj h).2).2

theorem withU_ne {m n : Bytes} (hn : IsName n) : withU m ≠ n := by
  rintro rfl
  exact colon_not_mem hn (List.mem_cons_of_mem _ List.mem_cons_self)

/-- The name of a start tag, whatever ends it. -/
theorem tagName_start {q r : Bytes} {as : Attributes} {c : UInt8} (hq : ∀ c ∈ q, isQNameByte c)
    (hAttrs : as.Ok) (hc : isQNameByte c = false) : tagName (q ++ (as.bytes ++ c :: r)) = q := by
  cases hBytes : as.bytes with
  | nil => exact tagName_append hq hc
  | cons d ds =>
    have hBlank := hAttrs.blank d (by rw [hBytes]; rfl)
    exact tagName_append hq (not_qname_of_blank hBlank)

/-- The name of an end tag, behind the slash -/
theorem tagName_close {q r close : Bytes} (hq : ∀ c ∈ q, isQNameByte c)
    (hClose : ∀ c ∈ close, isBlank c) : tagName (q ++ (close ++ 0x3E :: r)) = q := by
  cases close with
  | nil => exact tagName_append hq (by decide)
  | cons d ds => exact tagName_append hq (not_qname_of_blank (hClose d List.mem_cons_self))

namespace Argument

variable {a : Argument}

theorem Ok.qname (h : a.Ok) : ∀ c ∈ a.qname, isQNameByte c := by
  rw [Argument.qname]
  split_ifs
  · exact qname_withU h.name
  · exact qname_of_name h.name.bytes

theorem Ok.qname_eq (h : a.Ok) {tag : Bytes} (hTag : IsName tag)
    (hName : a.qname = tag ∨ a.qname = withU tag) : a.name = tag := by
  rw [Argument.qname] at hName
  split_ifs at hName
  · rcases hName with hEq | hEq
    · exact absurd hEq (withU_ne hTag)
    · exact withU_injective hEq
  · rcases hName with hEq | hEq
    · exact hEq
    · exact absurd hEq.symm (withU_ne h.name)

theorem Ok.tags_clean (h : a.Ok) : ∀ t ∈ a.tags, Clean t := by
  have hName := clean_of_qname h.qname
  have hAfter := clean_of_blank h.after
  have hClose := clean_of_blank h.close
  rw [Argument.tags]
  cases hContent : a.content with
  | none =>
    refine List.forall_mem_singleton.2 (hName.append (h.attrs.clean.append ?_))
    exact Clean.cons (by decide) (Clean.cons (by decide) hAfter)
  | some t =>
    have hText := h.content t hContent
    refine List.forall_mem_cons.2 ⟨?_, List.forall_mem_singleton.2 ?_⟩
    · exact hName.append (h.attrs.clean.append (Clean.cons (by decide) hText))
    · exact Clean.cons (by decide) (hName.append (hClose.append (Clean.cons (by decide) hAfter)))

/-- The tags of an argument begin with its name, or are end tags. -/
theorem Ok.tags_name (h : a.Ok) : ∀ t ∈ a.tags, tagName t = a.qname ∨ tagName t = [] := by
  rw [Argument.tags]
  cases a.content with
  | none =>
    exact List.forall_mem_singleton.2 (.inl (tagName_start h.qname h.attrs (by decide)))
  | some t =>
    refine List.forall_mem_cons.2 ⟨.inl (tagName_start h.qname h.attrs (by decide)),
      List.forall_mem_singleton.2 (.inr ?_)⟩
    exact List.takeWhile_cons_of_neg (by decide)

end Argument

theorem Wrapper.Ok.clean {w : Wrapper} (h : w.Ok) : Clean w.startTag ∧ Clean w.endTag := by
  have hName := clean_of_qname h.qname
  exact ⟨hName.append (h.attrs.clean.append (Clean.cons (by decide) (clean_of_blank h.inside))),
    Clean.cons (by decide) (hName.append ((clean_of_blank h.close).append
      (Clean.cons (by decide) (clean_of_blank h.behind))))⟩

theorem Wrapper.Ok.names {w : Wrapper} (h : w.Ok) :
    tagName w.startTag = w.qname ∧ tagName w.endTag = [] :=
  ⟨tagName_start h.qname h.attrs (by decide), List.takeWhile_cons_of_neg (by decide)⟩

-- ---------------------------------------------------------------------------
-- Tags with another name
-- ---------------------------------------------------------------------------

/-- No search for the start tag of the argument finds it. -/
structure Other (tag t : Bytes) : Prop where
  clean : Clean t
  name : tagName t ≠ tag
  withU : tagName t ≠ withU tag

theorem Other.of_end {tag t : Bytes} (hTag : IsName tag) (hClean : Clean t) (h : tagName t = []) :
    Other tag t :=
  ⟨hClean, by rw [h]; exact hTag.ne_nil.symm, by rw [h]; exact List.cons_ne_nil _ _ ∘ Eq.symm⟩

/-- The two ways to write the name in a start tag -/
def Names (tag n : Bytes) : Prop := n = tag ∨ n = withU tag

theorem Names.qname {tag n : Bytes} (hTag : IsName tag) (h : Names tag n) :
    ∀ c ∈ n, isQNameByte c := by
  rcases h with rfl | rfl
  · exact qname_of_name hTag.bytes
  · exact qname_withU hTag

theorem Other.not_found {tag t n : Bytes} {c : UInt8} (hTag : IsName tag) (h : Other tag t)
    (hn : Names tag n) (hc : isQNameByte c = false) : ¬n ++ [c] <+: t := by
  intro hPrefix
  have hName := tagName_of_prefix (hn.qname hTag) hc hPrefix
  rcases hn with rfl | rfl
  · exact h.name hName
  · exact h.withU hName

theorem no_angle {tag n : Bytes} {c : UInt8} (hTag : IsName tag) (hn : Names tag n)
    (hc : c ≠ 0x3C) : 0x3C ∉ n ++ [c] := by
  rw [List.mem_append, List.mem_singleton, not_or]
  exact ⟨fun hMem => absurd (hn.qname hTag _ hMem) (by decide), hc.symm⟩

/-- The searches for start tags pass over the other tags. -/
theorem strstr_others {tag n : Bytes} {c : UInt8} {ts : List Bytes} (hTag : IsName tag)
    (hn : Names tag n) (hc : isQNameByte c = false) (hAngle : c ≠ 0x3C)
    (hOthers : ∀ t ∈ ts, Other tag t) (us : List Bytes) :
    strstr (0x3C :: (n ++ [c])) (tagged (ts ++ us)) = strstr (0x3C :: (n ++ [c])) (tagged us) :=
  strstr_tagged (no_angle hTag hn hAngle) (fun t ht => (hOthers t ht).clean)
    (fun t ht => (hOthers t ht).not_found hTag hn hc) us

theorem others_args {tag : Bytes} (hTag : IsName tag) {args : List Argument}
    (h : ∀ a ∈ args, a.Ok ∧ a.name ≠ tag) : ∀ t ∈ args.flatMap Argument.tags, Other tag t := by
  intro t ht
  obtain ⟨a, ha, hMem⟩ := List.mem_flatMap.1 ht
  obtain ⟨hOk, hName⟩ := h a ha
  -- a start tag has another name, an end tag none
  rcases hOk.tags_name t hMem with hThis | hThis
  · refine ⟨hOk.tags_clean t hMem, ?_, ?_⟩ <;> rw [hThis]
    · exact fun hEq => hName (hOk.qname_eq hTag (.inl hEq))
    · exact fun hEq => hName (hOk.qname_eq hTag (.inr hEq))
  · exact Other.of_end hTag (hOk.tags_clean t hMem) hThis

namespace SoapBody

variable {b : SoapBody} {tag : Bytes}

/-- Neither the envelope nor the action has the name of the argument. -/
def Unwrapped (b : SoapBody) (tag : Bytes) : Prop :=
  ∀ w ∈ b.outer, w.qname ≠ tag ∧ w.qname ≠ withU tag

theorem Ok.others_opening (h : b.Ok) (hTag : IsName tag) (hUnwrapped : b.Unwrapped tag) :
    ∀ t ∈ b.opening, Other tag t := by
  refine List.forall_mem_append.2 ⟨fun t ht => ?_, fun t ht => ?_⟩
  · obtain ⟨hClean, hHead⟩ := h.prolog t ht
    refine Other.of_end hTag hClean ?_
    cases t with
    | nil => rfl
    | cons c t =>
      refine List.takeWhile_cons_of_neg ?_
      rcases hHead with hEq | hEq <;> obtain rfl := Option.some.inj hEq <;> decide
  · obtain ⟨w, hw, rfl⟩ := List.mem_map.1 ht
    have hOk := h.outer w hw
    refine ⟨hOk.clean.1, ?_, ?_⟩ <;> rw [hOk.names.1]
    · exact (hUnwrapped w hw).1
    · exact (hUnwrapped w hw).2

theorem Ok.others_ends (h : b.Ok) (hTag : IsName tag) :
    ∀ t ∈ b.outer.reverse.map Wrapper.endTag, Other tag t := by
  intro t ht
  obtain ⟨w, hw, rfl⟩ := List.mem_map.1 ht
  have hOk := h.outer w (List.mem_reverse.1 hw)
  exact Other.of_end hTag hOk.clean.2 hOk.names.2

/-- The tags that stand in the body -/
def tags (b : SoapBody) : List Bytes := b.opening ++ b.tagsFrom b.args

end SoapBody

-- ---------------------------------------------------------------------------
-- The argument itself
-- ---------------------------------------------------------------------------

theorem needle_start {x tag y : Bytes} (hLong : tag.length ≤ 75) (h : x.length + y.length ≤ 4) :
    inEighty (x ++ tag ++ y) = x ++ tag ++ y := by
  refine List.take_of_length_le ?_
  rw [List.length_append, List.length_append]
  omega

theorem needle_u {tag : Bytes} (hLong : tag.length ≤ 75) :
    inEighty (ascii "<u:" ++ tag ++ ascii ">") = 0x3C :: (withU tag ++ [0x3E]) :=
  needle_start hLong (by decide)

theorem needle_u_space {tag : Bytes} (hLong : tag.length ≤ 75) :
    inEighty (ascii "<u:" ++ tag ++ ascii " ") = 0x3C :: (withU tag ++ [0x20]) :=
  needle_start hLong (by decide)

theorem needle_plain {tag : Bytes} (hLong : tag.length ≤ 75) :
    inEighty (ascii "<" ++ tag ++ ascii ">") = 0x3C :: (tag ++ [0x3E]) :=
  needle_start hLong (by decide)

theorem needle_bare {tag : Bytes} (hLong : tag.length ≤ 75) :
    inEighty (tag ++ ascii " ") = tag ++ ascii " " :=
  needle_start (x := []) hLong (by decide)

theorem needle_end_u {tag : Bytes} (hLong : tag.length ≤ 75) :
    inEighty (ascii "</u:" ++ tag) = 0x3C :: 0x2F :: withU tag := by
  have hWhole := needle_start (x := ascii "</u:") (y := []) hLong (by decide)
  rwa [List.append_nil] at hWhole

theorem needle_end {tag : Bytes} (hLong : tag.length ≤ 75) :
    inEighty (ascii "</" ++ tag) = 0x3C :: 0x2F :: tag := by
  have hWhole := needle_start (x := ascii "</") (y := []) hLong (by decide)
  rwa [List.append_nil] at hWhole

theorem xmlOpening_first {xml start tag p : Bytes} (h : strstr start xml = some p) :
    xmlOpening xml start tag = (strchr 0x3E p).map (List.drop 1) := by
  rw [xmlOpening, h]
  rfl

theorem xmlOpening_second {xml start tag p : Bytes} (h : strstr start xml = none)
    (hSpace : strstr (inEighty (ascii "<u:" ++ tag ++ ascii " ")) xml = some p) :
    xmlOpening xml start tag = (strchr 0x3E p).map (List.drop 1) := by
  rw [xmlOpening, h, hSpace]
  rfl

theorem xmlOpening_third {xml start tag : Bytes} (h : strstr start xml = none)
    (hSpace : strstr (inEighty (ascii "<u:" ++ tag ++ ascii " ")) xml = none) :
    xmlOpening xml start tag =
      ((strstr (inEighty (tag ++ ascii " ")) xml).bind (strchr 0x3E)).map (List.drop 1) := by
  rw [xmlOpening, h, hSpace]

/-- The first `>` behind the name of a start tag ends it. -/
theorem behind_tag {q r : Bytes} {as : Attributes} (hq : ∀ c ∈ q, isQNameByte c) (hAttrs : as.Ok)
    (hPlain : 0x3E ∉ as.bytes) :
    (strchr 0x3E (q ++ (as.bytes ++ 0x3E :: r))).map (List.drop 1) = some r := by
  have hOther : ∀ c ∈ q ++ as.bytes, c ≠ 0 ∧ c ≠ 0x3E := by
    refine List.forall_mem_append.2 ⟨fun c hc => ?_, fun c hc => ?_⟩
    · have hName := hq c hc
      constructor <;> rintro rfl <;> exact absurd hName (by decide)
    · refine ⟨(hAttrs.clean c hc).1, ?_⟩
      rintro rfl
      exact hPlain hc
  rw [← List.append_assoc, EspMiplay.Miplay.strchr_skip hOther, strchr, if_pos rfl]
  rfl

/-- What the searches have to meet for an argument that is there. -/
structure SoapBody.Found (b : SoapBody) (ys : List Argument) (a : Argument) : Prop where
  content : a.content.isSome
  plain : 0x3E ∉ a.attrs.bytes
  space : ∀ c ∈ a.attrs.bytes.head?, c = 0x20
  alone : a.prefixed = false → strstr (a.name ++ ascii " ") b.text =
    if a.attrs.bytes = [] then none else some ((tagged (b.tagsFrom (a :: ys))).drop 1)
  closing : a.prefixed = false → ∀ t ∈ b.tagsFrom ys, ¬(0x2F :: withU a.name) <+: t

def Argument.endTag (a : Argument) : Bytes := 0x2F :: (a.qname ++ (a.close ++ 0x3E :: a.after))

namespace SoapBody

variable {b : SoapBody} {xs ys : List Argument} {a : Argument} {t : Bytes}

theorem tagsFrom_cons (hContent : a.content = some t) :
    b.tagsFrom (a :: ys) =
      (a.qname ++ (a.attrs.bytes ++ 0x3E :: t)) :: a.endTag :: b.tagsFrom ys := by
  rw [tagsFrom, List.flatMap_cons, Argument.tags, hContent]
  rfl

/-- The tags in front of the argument and those behind its start tag -/
theorem Ok.others_around (h : b.Ok) (hUnwrapped : b.Unwrapped a.name)
    (hArgs : b.args = xs ++ a :: ys) :
    (∀ t ∈ b.opening ++ xs.flatMap Argument.tags, Other a.name t) ∧
      ∀ t ∈ a.endTag :: b.tagsFrom ys, Other a.name t := by
  have hOk : ∀ c ∈ xs ++ a :: ys, c.Ok := by rw [← hArgs]; exact h.args
  have hThis := hOk a (List.mem_append_right _ List.mem_cons_self)
  have hUnique : ((xs ++ a :: ys).map Argument.name).Nodup := by rw [← hArgs]; exact h.unique
  -- no other argument has its name
  rw [List.map_append, List.map_cons, List.nodup_append, List.nodup_cons] at hUnique
  obtain ⟨-, ⟨hBehind, -⟩, hFront⟩ := hUnique
  have hXs : ∀ c ∈ xs, c.Ok ∧ c.name ≠ a.name := fun c hc =>
    ⟨hOk c (List.mem_append_left _ hc),
      hFront _ (List.mem_map_of_mem hc) _ List.mem_cons_self⟩
  have hYs : ∀ c ∈ ys, c.Ok ∧ c.name ≠ a.name := by
    refine fun c hc => ⟨hOk c (List.mem_append_right _ (List.mem_cons_of_mem _ hc)), ?_⟩
    intro hEq
    rw [← hEq] at hBehind
    exact hBehind (List.mem_map_of_mem hc)
  have hEnd : Clean a.endTag := Clean.cons (by decide) ((clean_of_qname hThis.qname).append
    ((clean_of_blank hThis.close).append (Clean.cons (by decide) (clean_of_blank hThis.after))))
  refine ⟨List.forall_mem_append.2 ⟨h.others_opening hThis.name hUnwrapped,
    others_args hThis.name hXs⟩, List.forall_mem_cons.2 ⟨?_, List.forall_mem_append.2
    ⟨others_args hThis.name hYs, h.others_ends hThis.name⟩⟩⟩
  exact Other.of_end hThis.name hEnd (List.takeWhile_cons_of_neg (by decide))

theorem text_eq (hArgs : b.args = xs ++ a :: ys) (hContent : a.content = some t) :
    b.text = b.lead ++ tagged (b.opening ++ xs.flatMap Argument.tags ++
      (a.qname ++ (a.attrs.bytes ++ 0x3E :: t)) :: a.endTag :: b.tagsFrom ys) := by
  rw [← tagsFrom_cons hContent, text, hArgs, tagsFrom, tagsFrom, List.flatMap_append]
  simp only [List.append_assoc]

/-- The searches for a start tag find the one of the argument, or none. -/
theorem Ok.search (h : b.Ok) (hUnwrapped : b.Unwrapped a.name) (hArgs : b.args = xs ++ a :: ys)
    (hContent : a.content = some t) {n : Bytes} {c : UInt8} (hTag : IsName a.name)
    (hn : Names a.name n) (hc : isQNameByte c = false) (hAngle : c ≠ 0x3C) :
    (n ++ [c] <+: a.qname ++ (a.attrs.bytes ++ 0x3E :: t) →
      strstr (0x3C :: (n ++ [c])) b.text = some (tagged (b.tagsFrom (a :: ys)))) ∧
    (¬n ++ [c] <+: a.qname ++ (a.attrs.bytes ++ 0x3E :: t) →
      strstr (0x3C :: (n ++ [c])) b.text = none) := by
  obtain ⟨hFront, hBehind⟩ := h.others_around hUnwrapped hArgs
  have hLead : ∀ c ∈ b.lead, c ≠ 0 ∧ c ≠ 0x3C := h.lead
  rw [text_eq hArgs hContent, strstr_skip hLead, strstr_others hTag hn hc hAngle hFront,
    tagsFrom_cons hContent]
  refine ⟨fun hOwn => strstr_tagged_some hOwn _, fun hNot => ?_⟩
  have hThis : a.Ok := h.args a (by rw [hArgs]; exact List.mem_append_right _ List.mem_cons_self)
  have hOwn : Clean (a.qname ++ (a.attrs.bytes ++ 0x3E :: t)) :=
    hThis.tags_clean _ (by rw [Argument.tags, hContent]; exact List.mem_cons_self)
  exact strstr_tagged_none (no_angle hTag hn hAngle)
    (List.forall_mem_cons.2 ⟨hOwn, fun u hu => (hBehind u hu).clean⟩)
    (List.forall_mem_cons.2 ⟨hNot, fun u hu => (hBehind u hu).not_found hTag hn hc⟩)

/-- Behind the start tag of the argument -/
theorem Ok.behind (h : b.Ok) (hArgs : b.args = xs ++ a :: ys) (hFound : b.Found ys a)
    (hContent : a.content = some t) :
    (strchr 0x3E (tagged (b.tagsFrom (a :: ys)))).map (List.drop 1) =
        some (t ++ tagged (a.endTag :: b.tagsFrom ys)) ∧
      (strchr 0x3E ((tagged (b.tagsFrom (a :: ys))).drop 1)).map (List.drop 1) =
        some (t ++ tagged (a.endTag :: b.tagsFrom ys)) := by
  have hThis : a.Ok := h.args a (by rw [hArgs]; exact List.mem_append_right _ List.mem_cons_self)
  have hOwn : tagged (b.tagsFrom (a :: ys)) = 0x3C :: (a.qname ++ (a.attrs.bytes ++
      0x3E :: (t ++ tagged (a.endTag :: b.tagsFrom ys)))) := by
    rw [tagsFrom_cons hContent, tagged, List.flatMap_cons]
    simp only [tagged, List.cons_append, List.append_assoc]
  have hBehind := behind_tag (r := t ++ tagged (a.endTag :: b.tagsFrom ys)) hThis.qname
    hThis.attrs hFound.plain
  rw [hOwn]
  refine ⟨?_, hBehind⟩
  rw [strchr, if_neg (by decide), if_neg (by decide)]
  exact hBehind

/-- The first loop ends behind the start tag of the argument. -/
theorem Ok.open_eq (h : b.Ok) (hUnwrapped : b.Unwrapped a.name) (hArgs : b.args = xs ++ a :: ys)
    (hLong : a.name.length ≤ 75) (hFound : b.Found ys a) (hContent : a.content = some t) :
    xmlOpen b.text a.name = some (t ++ tagged (a.endTag :: b.tagsFrom ys)) := by
  have hThis : a.Ok := h.args a (by rw [hArgs]; exact List.mem_append_right _ List.mem_cons_self)
  have hSearch {n : Bytes} {c : UInt8} (hn : Names a.name n) (hc : isQNameByte c = false)
      (hAngle : c ≠ 0x3C) := h.search hUnwrapped hArgs hContent hThis.name hn hc hAngle
  obtain ⟨hAngled, hBare⟩ := h.behind hArgs hFound hContent
  have hEnd := hSearch (n := withU a.name) (c := 0x3E) (.inr rfl) (by decide) (by decide)
  have hSpace := hSearch (n := withU a.name) (c := 0x20) (.inr rfl) (by decide) (by decide)
  have hPlain := hSearch (n := a.name) (c := 0x3E) (.inl rfl) (by decide) (by decide)
  rw [← needle_u hLong] at hEnd
  rw [← needle_u_space hLong] at hSpace
  rw [← needle_plain hLong] at hPlain
  rw [xmlOpen]
  cases hPrefixed : a.prefixed with
  | true =>
    have hQName : a.qname = withU a.name := by rw [Argument.qname, hPrefixed]; rfl
    rw [hQName] at hEnd hSpace
    cases hBytes : a.attrs.bytes with
    | nil =>
      -- the first search of the first pass
      rw [hBytes] at hEnd
      rw [xmlOpening_first (hEnd.1 ⟨t, by simp⟩), hAngled]
    | cons d ds =>
      -- the second search of the first pass
      obtain rfl := hFound.space d (by rw [hBytes]; rfl)
      rw [hBytes] at hEnd hSpace
      have hNot : ¬withU a.name ++ [0x3E] <+: withU a.name ++ (0x20 :: ds ++ 0x3E :: t) := by
        rw [List.prefix_append_right_inj, List.cons_append, List.cons_prefix_cons]
        exact fun hEq => absurd hEq.1 (by decide)
      rw [xmlOpening_second (hEnd.2 hNot) (hSpace.1 ⟨ds ++ 0x3E :: t, by simp⟩), hAngled]
  | false =>
    have hQName : a.qname = a.name := by rw [Argument.qname, hPrefixed]; rfl
    -- without the prefix, what has it is not found
    have hNot {c : UInt8} (hc : isQNameByte c = false) :
        ¬withU a.name ++ [c] <+: a.qname ++ (a.attrs.bytes ++ 0x3E :: t) := by
      intro hPrefix
      have hWith := tagName_of_prefix (qname_withU hThis.name) hc hPrefix
      rw [tagName_start hThis.qname hThis.attrs (by decide), hQName] at hWith
      exact withU_ne hThis.name hWith.symm
    have hFirst := xmlOpening_third (hEnd.2 (hNot (by decide))) (hSpace.2 (hNot (by decide)))
    have hAlone := hFound.alone hPrefixed
    rw [needle_bare hLong] at hFirst
    rw [hQName] at hPlain
    cases hBytes : a.attrs.bytes with
    | nil =>
      -- the third search finds nothing, the second pass begins
      rw [hBytes] at hPlain
      rw [if_pos hBytes] at hAlone
      rw [hFirst, hAlone]
      exact (xmlOpening_first (hPlain.1 ⟨t, by simp⟩)).trans hAngled
    | cons d ds =>
      -- the third search of the first pass
      rw [if_neg (by rw [hBytes]; exact List.cons_ne_nil d ds)] at hAlone
      rw [hFirst, hAlone, Option.bind_some, hBare]

/-- The second loop finds the end tag of the argument. -/
theorem Ok.close_eq (h : b.Ok) (hUnwrapped : b.Unwrapped a.name) (hArgs : b.args = xs ++ a :: ys)
    (hLong : a.name.length ≤ 75) (hFound : b.Found ys a) (hContent : a.content = some t) :
    xmlClose (t ++ tagged (a.endTag :: b.tagsFrom ys)) a.name =
      some (tagged (a.endTag :: b.tagsFrom ys)) := by
  have hThis : a.Ok := h.args a (by rw [hArgs]; exact List.mem_append_right _ List.mem_cons_self)
  have hText : ∀ c ∈ t, c ≠ 0 ∧ c ≠ 0x3C := hThis.content t hContent
  have hBehind := (h.others_around hUnwrapped hArgs).2
  -- no tag begins in the text
  rw [xmlClose, needle_end_u hLong, needle_end hLong, strstr_skip hText, strstr_skip hText]
  cases hPrefixed : a.prefixed with
  | true =>
    have hQName : a.qname = withU a.name := by rw [Argument.qname, hPrefixed]; rfl
    have hOwn : 0x2F :: withU a.name <+: a.endTag := by
      rw [Argument.endTag, hQName, List.cons_prefix_cons]
      exact ⟨rfl, List.prefix_append _ _⟩
    rw [strstr_tagged_some hOwn]
  | false =>
    have hQName : a.qname = a.name := by rw [Argument.qname, hPrefixed]; rfl
    have hOwn : 0x2F :: a.name <+: a.endTag := by
      rw [Argument.endTag, hQName, List.cons_prefix_cons]
      exact ⟨rfl, List.prefix_append _ _⟩
    have hNot : ¬0x2F :: withU a.name <+: a.endTag := by
      rw [Argument.endTag, hQName, List.cons_prefix_cons]
      -- the name with the prefix is longer than the whole name
      rintro ⟨-, hPrefix⟩
      have hName := prefix_tagName (qname_withU hThis.name) hPrefix
      rw [tagName_close (qname_of_name hThis.name.bytes) hThis.close] at hName
      have hLength := hName.length_le
      simp only [withU, List.length_cons] at hLength
      omega
    have hNone := strstr_tagged_none (List.not_mem_cons_of_ne_of_not_mem (by decide)
      (fun hMem => absurd (qname_withU hThis.name _ hMem) (by decide)))
      (fun u hu => (hBehind u hu).clean)
      (List.forall_mem_cons.2 ⟨hNot, hFound.closing hPrefixed⟩)
    rw [hNone]
    exact strstr_tagged_some hOwn _

/-- **Arguments that are there.** -/
theorem Ok.xmlGet_present (h : b.Ok) (hUnwrapped : b.Unwrapped a.name)
    (hArgs : b.args = xs ++ a :: ys) (hLong : a.name.length ≤ 75) (hFound : b.Found ys a)
    (out : Bytes) : xmlGet b.text a.name out = store out (a.content.getD []) := by
  obtain ⟨t, hContent⟩ := Option.isSome_iff_exists.1 hFound.content
  have hOpen := h.open_eq hUnwrapped hArgs hLong hFound hContent
  have hClose := h.close_eq hUnwrapped hArgs hLong hFound hContent
  have hTake : (t ++ tagged (a.endTag :: b.tagsFrom ys)).take
      ((t ++ tagged (a.endTag :: b.tagsFrom ys)).length -
        (tagged (a.endTag :: b.tagsFrom ys)).length) = t := by
    rw [List.length_append, Nat.add_sub_cancel]
    exact List.take_left
  simp only [xmlGet, hOpen, hClose, hTake, hContent, Option.getD_some]

-- ---------------------------------------------------------------------------
-- Arguments that are missing
-- ---------------------------------------------------------------------------

/-- What the searches for an argument that is not there have to meet: behind the first place
where the name stands in front of a space, and the `>` after it, no end tag begins with the
name. -/
def Missing (b : SoapBody) (tag : Bytes) : Prop :=
  ∀ gt, (strstr (tag ++ ascii " ") b.text).bind (strchr 0x3E) = some gt →
    strstr (ascii "</u:" ++ tag) (gt.drop 1) = none ∧ strstr (ascii "</" ++ tag) (gt.drop 1) = none

theorem Ok.others (h : b.Ok) {tag : Bytes} (hTag : IsName tag) (hUnwrapped : b.Unwrapped tag)
    (hAbsent : ∀ a ∈ b.args, a.name ≠ tag) : ∀ t ∈ b.tags, Other tag t :=
  List.forall_mem_append.2 ⟨h.others_opening hTag hUnwrapped, List.forall_mem_append.2
    ⟨others_args hTag fun a ha => ⟨h.args a ha, hAbsent a ha⟩, h.others_ends hTag⟩⟩

/-- Without the argument, what the first loop finds is the name in front of a space. -/
theorem Ok.open_absent (h : b.Ok) {tag : Bytes} (hTag : IsName tag) (hLong : tag.length ≤ 75)
    (hUnwrapped : b.Unwrapped tag) (hAbsent : ∀ a ∈ b.args, a.name ≠ tag) :
    xmlOpen b.text tag =
      ((strstr (tag ++ ascii " ") b.text).bind (strchr 0x3E)).map (List.drop 1) := by
  have hOthers := h.others hTag hUnwrapped hAbsent
  have hLead : ∀ c ∈ b.lead, c ≠ 0 ∧ c ≠ 0x3C := h.lead
  have hNone {n : Bytes} {c : UInt8} (hn : Names tag n) (hc : isQNameByte c = false)
      (hAngle : c ≠ 0x3C) : strstr (0x3C :: (n ++ [c])) b.text = none := by
    rw [text, strstr_skip hLead]
    exact strstr_tagged_none (no_angle hTag hn hAngle) (fun t ht => (hOthers t ht).clean)
      fun t ht => (hOthers t ht).not_found hTag hn hc
  have hEnd := hNone (n := withU tag) (c := 0x3E) (.inr rfl) (by decide) (by decide)
  have hSpace := hNone (n := withU tag) (c := 0x20) (.inr rfl) (by decide) (by decide)
  have hPlain := hNone (n := tag) (c := 0x3E) (.inl rfl) (by decide) (by decide)
  rw [← needle_u hLong] at hEnd
  rw [← needle_u_space hLong] at hSpace
  rw [← needle_plain hLong] at hPlain
  -- both passes come to the third search, which is the same
  have hFirst := xmlOpening_third hEnd hSpace
  have hSecond := xmlOpening_third hPlain hSpace
  rw [needle_bare hLong] at hFirst hSecond
  rw [xmlOpen, hFirst, hSecond]
  cases ((strstr (tag ++ ascii " ") b.text).bind (strchr 0x3E)).map (List.drop 1) <;> rfl

/-- **Arguments that are missing.** Nothing is read exactly where nothing can be mistaken. -/
theorem Ok.xmlGet_absent (h : b.Ok) {tag : Bytes} (hTag : IsName tag) (hLong : tag.length ≤ 75)
    (hUnwrapped : b.Unwrapped tag) (hAbsent : ∀ a ∈ b.args, a.name ≠ tag) (out : Bytes) :
    xmlGet b.text tag out = (-1, out) ↔ b.Missing tag := by
  have hEndU : inEighty (ascii "</u:" ++ tag) = ascii "</u:" ++ tag := needle_end_u hLong
  have hEnd : inEighty (ascii "</" ++ tag) = ascii "</" ++ tag := needle_end hLong
  rw [xmlGet, h.open_absent hTag hLong hUnwrapped hAbsent, Missing]
  cases (strstr (tag ++ ascii " ") b.text).bind (strchr 0x3E) with
  | none => exact iff_of_true rfl fun gt hGt => absurd hGt (Option.some_ne_none gt).symm
  | some gt =>
    -- a text that is read has a length of its own
    have hStored (text : Bytes) : store out text ≠ (-1, out) := by
      intro hEq
      have hLength := congrArg Prod.fst hEq
      simp only [store] at hLength
      omega
    simp only [Option.map_some, Option.some.injEq, forall_eq', xmlClose, hEndU, hEnd]
    cases strstr (ascii "</u:" ++ tag) (gt.drop 1) with
    | some q => exact iff_of_false (hStored _) fun hNone => absurd hNone.1 (Option.some_ne_none q)
    | none =>
      cases strstr (ascii "</" ++ tag) (gt.drop 1) with
      | some q => exact iff_of_false (hStored _) fun hNone => absurd hNone.2 (Option.some_ne_none q)
      | none => exact iff_of_true rfl ⟨rfl, rfl⟩

-- ---------------------------------------------------------------------------
-- All arguments
-- ---------------------------------------------------------------------------

/-- The condition on the body, for the argument that is asked for. -/
structure Unmistakable (b : SoapBody) (tag : Bytes) : Prop where
  short : tag.length ≤ 75
  unwrapped : b.Unwrapped tag
  found : ∀ xs a ys, b.args = xs ++ a :: ys → a.name = tag → b.Found ys a
  missing : (∀ a ∈ b.args, a.name ≠ tag) → b.Missing tag

/-- **Arguments of a request.** -/
theorem xmlGet_spec {b : SoapBody} (h : b.Ok) {tag : Bytes} (hTag : IsName tag)
    (hUnmistakable : b.Unmistakable tag) (out : Bytes) :
    xmlGet b.text tag out = b.expected tag out := by
  rw [expected]
  cases hFind : b.args.find? fun a => a.name = tag with
  | none =>
    have hAbsent : ∀ a ∈ b.args, a.name ≠ tag := fun a ha =>
      of_decide_eq_false (Bool.not_eq_true _ ▸ List.find?_eq_none.1 hFind a ha)
    exact (h.xmlGet_absent hTag hUnmistakable.short hUnmistakable.unwrapped hAbsent out).2
      (hUnmistakable.missing hAbsent)
  | some a =>
    obtain ⟨hName, xs, ys, hArgs, -⟩ := List.find?_eq_some_iff_append.1 hFind
    obtain rfl : a.name = tag := of_decide_eq_true hName
    exact h.xmlGet_present hUnmistakable.unwrapped hArgs hUnmistakable.short
      (hUnmistakable.found xs a ys hArgs rfl) out

end SoapBody

/-- An element without white space around it -/
def Wrapper.bare (qname : Bytes) (as : List Attribute) : Wrapper := ⟨qname, ⟨as, []⟩, [], [], []⟩

def setAvTransportUri (args : List Argument) : SoapBody where
  lead := []
  prolog := [ascii "?xml version=\"1.0\"?>"]
  outer :=
    [.bare (ascii "s:Envelope") [⟨ascii " ", ascii "xmlns:s", 0x22,
        ascii "http://schemas." ++ ascii "xmlsoap.org/soap/" ++ ascii "envelope/"⟩],
      .bare (ascii "s:Body") [],
      .bare (ascii "u:SetAVTransportURI") [⟨ascii " ", ascii "xmlns:u", 0x22,
        ascii "urn:schemas-upnp-org" ++ ascii ":service:AVTransport:1"⟩]]
  args := args

theorem wrapper_bare_ok {qname : Bytes} {as : List Attribute} (hName : ∀ c ∈ qname, isQNameByte c)
    (h : ∀ a ∈ as, a.Ok) : (Wrapper.bare qname as).Ok :=
  ⟨hName, ⟨h, List.forall_mem_nil _⟩, List.forall_mem_nil _, List.forall_mem_nil _,
    List.forall_mem_nil _⟩

theorem setAvTransportUri_ok {args : List Argument} (h : ∀ a ∈ args, a.Ok)
    (hUnique : (args.map Argument.name).Nodup) : (setAvTransportUri args).Ok where
  lead := List.forall_mem_nil _
  prolog := List.forall_mem_singleton.2 ⟨by decide +kernel, by decide +kernel⟩
  outer := by
    have hAttr {name value : Bytes} (hName : ∀ c ∈ name, isQNameByte c) (hValue : Clean value)
        (hQuote : 0x22 ∉ value) : (⟨ascii " ", name, 0x22, value⟩ : Attribute).Ok :=
      have hGap : ascii " " ≠ [] := by decide
      have hBlank : ∀ c ∈ ascii " ", isBlank c := by decide +kernel
      ⟨hGap, hBlank, hName, .inl rfl, hValue, hQuote⟩
    refine List.forall_mem_cons.2 ⟨?_, List.forall_mem_cons.2 ⟨?_, List.forall_mem_singleton.2 ?_⟩⟩
    · refine wrapper_bare_ok (by decide +kernel) (List.forall_mem_singleton.2 (hAttr ?_ ?_ ?_))
      all_goals decide +kernel
    · exact wrapper_bare_ok (by decide +kernel) (List.forall_mem_nil _)
    · refine wrapper_bare_ok (by decide +kernel) (List.forall_mem_singleton.2 (hAttr ?_ ?_ ?_))
      all_goals decide +kernel
  args := h
  unique := hUnique

/-- An argument with a text and nothing else -/
def Argument.simple (prefixed : Bool) (name text : Bytes) : Argument :=
  ⟨prefixed, name, ⟨[], []⟩, some text, [], []⟩

theorem simple_ok {prefixed : Bool} {name text : Bytes} (hName : IsName name)
    (hText : Clean text) : (Argument.simple prefixed name text).Ok where
  name := hName
  attrs := ⟨List.forall_mem_nil _, List.forall_mem_nil _⟩
  content := fun _ h => Option.some.inj h ▸ hText
  close := List.forall_mem_nil _
  after := List.forall_mem_nil _

def currentUri : Bytes := ascii "CurrentURI"

theorem currentUri_name : IsName currentUri := ⟨by decide +kernel, by decide +kernel⟩

/-- The URI of a song, with the prefix -/
def prefixedSong : SoapBody :=
  setAvTransportUri [.simple true currentUri (ascii "http://a/1.mp3")]

theorem prefixedSong_read :
    xmlGet prefixedSong.text currentUri (List.replicate 32 0) =
      prefixedSong.expected currentUri (List.replicate 32 0) := by
  refine SoapBody.xmlGet_spec ?_ currentUri_name ?_ (List.replicate 32 0)
  · exact setAvTransportUri_ok (List.forall_mem_singleton.2
      (simple_ok currentUri_name (by decide +kernel))) (by decide)
  · refine ⟨by decide, ?_, ?_, fun hAbsent => ?_⟩
    · exact List.forall_mem_cons.2 ⟨by decide +kernel, List.forall_mem_cons.2
        ⟨by decide +kernel, List.forall_mem_singleton.2 (by decide +kernel)⟩⟩
    · intro xs a ys hArgs _
      have hOnly : a = .simple true currentUri (ascii "http://a/1.mp3") := by
        have hMem : a ∈ prefixedSong.args := by rw [hArgs]; simp
        exact List.mem_singleton.1 hMem
      subst hOnly
      exact ⟨rfl, by decide, by decide +kernel, fun h => Bool.noConfusion h,
        fun h => Bool.noConfusion h⟩
    · exact absurd rfl (hAbsent _ List.mem_cons_self)

/-- A song whose description has the name of the argument in it -/
def describedSong : SoapBody :=
  setAvTransportUri [.simple false currentUri (ascii "http://a/1.mp3"),
    .simple false (ascii "CurrentURIMetaData") (ascii "The CurrentURI of a song")]

/-- The URI is in the body, and is not read: the word in the description is taken for its start
tag, and no end tag follows. -/
theorem describedSong_lost :
    describedSong.Ok ∧ IsName currentUri ∧
      xmlGet describedSong.text currentUri (List.replicate 32 0) =
        (-1, List.replicate 32 0) ∧
      describedSong.expected currentUri (List.replicate 32 0) =
        (14, ascii "http://a/1.mp3" ++ List.replicate 18 0) := by
  have hName : IsName (ascii "CurrentURIMetaData") := ⟨by decide +kernel, by decide +kernel⟩
  refine ⟨setAvTransportUri_ok ?_ (by decide +kernel), currentUri_name, by decide +kernel,
    by decide +kernel⟩
  exact List.forall_mem_cons.2 ⟨simple_ok currentUri_name (by decide +kernel),
    List.forall_mem_singleton.2 (simple_ok hName (by decide +kernel))⟩

end EspMiplay.Dlna
