import EspMiplay.Miplay.TextBounds

/-!
# Searches for the device

The part of `ssdp_task` in `custom_dlna.c` that answers an M-SEARCH. The line ends of the
datagram are overwritten with bars before the ST header is looked for, so that its value goes
on with the headers behind it.

A text with bars is taken as the pieces between them: it can be cut (`cutPieces`), and what
has no bar is found in one of the pieces.

## Results

* `strstr_joinBar`  — a name in a text with bars.
* `search_iff`      — every request.
* `agent_hides_target` — a header that moves the target out of reach.
-/

namespace EspMiplay.Dlna

open EspMiplay.Miplay

-- ---------------------------------------------------------------------------
-- The source
-- ---------------------------------------------------------------------------

/-- What is answered: one response for each. -/
inductive SearchTarget where
  | rootDevice
  | mediaRenderer
  | avTransport
  | renderingControl
  | connectionManager
  deriving DecidableEq

namespace SearchTarget

/-- In the order of the responses. -/
def all : List SearchTarget :=
  [rootDevice, mediaRenderer, avTransport, renderingControl, connectionManager]

/-- What `ssdp_task` looks for in the value. -/
def name : SearchTarget → Bytes
  | rootDevice => ascii "rootdevice"
  | mediaRenderer => ascii "MediaRenderer"
  | avTransport => ascii "AVTransport"
  | renderingControl => ascii "RenderingControl"
  | connectionManager => ascii "ConnectionManager"

/-- The ST of the response. -/
def st : SearchTarget → Bytes
  | rootDevice => ascii "upnp:rootdevice"
  | mediaRenderer => ascii "urn:schemas-upnp-org:device:MediaRenderer:1"
  | avTransport => ascii "urn:schemas-upnp-org:service:AVTransport:1"
  | renderingControl => ascii "urn:schemas-upnp-org:service:RenderingControl:1"
  | connectionManager => ascii "urn:schemas-upnp-org:service:ConnectionManager:1"

/-- The response, for the device at `host` and `port`. -/
def response (t : SearchTarget) (host : Bytes) (port : Nat) (uuid : Bytes) : Bytes :=
  ascii "HTTP/1.1 200 OK\r\nCACHE-CONTROL: max-age=1800\r\nEXT:\r\nLOCATION: http://" ++ host ++
    ascii ":" ++ decimal port ++
    ascii "/device.xml\r\nSERVER: ESP32-DLNA/1.0 UPnP/1.0\r\nST: " ++ t.st ++
    ascii "\r\nUSN: uuid:" ++ uuid ++ ascii "::" ++ t.st ++ ascii "\r\n\r\n"

end SearchTarget

def isLineEnd (c : UInt8) : Bool := c = 0x0D ∨ c = 0x0A

/-- A line end becomes a bar. -/
def barred (c : UInt8) : UInt8 := if isLineEnd c then 0x7C else c

/-- `stv`: from behind the first `ST:` on -/
def searchValue (buf : Bytes) : Option Bytes :=
  (strstr (ascii "ST:") buf).map fun st =>
    ((skipWhile isSpace (st.drop 3)).takeWhile fun c => !isLineEnd c && c ≠ 0).take 127

def occurs (needle p : Bytes) : Bool := (strstr needle p).isSome

/-- The value asks for everything or has the name of the response in it. -/
def asksFor (stv : Bytes) (t : SearchTarget) : Bool :=
  occurs (ascii "ssdp:all") stv || occurs t.name stv

/-- What `ssdp_task` answers to a datagram. -/
def ssdpAnswers (suppressed : Bool) (datagram : Bytes) : List SearchTarget :=
  let buf := datagram.take 2047
  if ¬occurs (ascii "M-SEARCH") buf ∨ suppressed then []
  else
    match searchValue (buf.map barred) with
    | none => []
    | some stv => SearchTarget.all.filter (asksFor stv)

-- ---------------------------------------------------------------------------
-- Requests
-- ---------------------------------------------------------------------------

/-- A byte that may stand in a line. -/
def isLineByte (c : UInt8) : Bool := !isLineEnd c && c ≠ 0

/-- A header line; `text` is what stands behind the colon. -/
structure SearchHeader where
  name : Bytes
  text : Bytes
  name_ne_nil : name ≠ []
  name_ok : ∀ c ∈ name, isLineByte c && c ≠ 0x3A && !isSpace c
  text_ok : ∀ c ∈ text, isLineByte c

def SearchHeader.line (h : SearchHeader) : Bytes := h.name ++ ascii ":" ++ h.text

/-- The header is the search target. -/
def SearchHeader.IsSt (h : SearchHeader) : Prop := eqIgnoreCase h.name (ascii "ST")

instance (h : SearchHeader) : Decidable h.IsSt := inferInstanceAs (Decidable (_ = true))

/-- The value of a header, without the white space around it. -/
def SearchHeader.value (h : SearchHeader) : Bytes :=
  ((h.text.dropWhile isSpace).reverse.dropWhile isSpace).reverse

/-- An M-SEARCH request, with its one ST header among the others. -/
structure SearchRequest where
  before : List SearchHeader
  st : SearchHeader
  behind : List SearchHeader
  isSt : st.IsSt
  only : ∀ h ∈ before ++ behind, ¬h.IsSt

namespace SearchRequest

variable (r : SearchRequest)

def headers : List SearchHeader := r.before ++ r.st :: r.behind

/-- The lines of the request, with the empty one at its end. -/
def lines : List Bytes := ascii "M-SEARCH * HTTP/1.1" :: r.headers.map SearchHeader.line ++ [[]]

def text : Bytes := r.lines.flatMap (· ++ [0x0D, 0x0A])

/-- What the value of the ST header selects. -/
def Selects (t : SearchTarget) : Prop := r.st.value = ascii "ssdp:all" ∨ r.st.value = t.st

instance (t : SearchTarget) : Decidable (r.Selects t) := inferInstanceAs (Decidable (_ ∨ _))

def selected : List SearchTarget := SearchTarget.all.filter (r.Selects ·)

end SearchRequest

-- ---------------------------------------------------------------------------
-- Texts with bars
-- ---------------------------------------------------------------------------

/-- The pieces, with a bar between them. -/
def joinBar : List Bytes → Bytes
  | [] => []
  | [p] => p
  | p :: q :: ps => p ++ 0x7C :: joinBar (q :: ps)

/-- The pieces of the first `n` bytes. -/
def cutPieces : Nat → List Bytes → List Bytes
  | _, [] => []
  | n, p :: ps => if n ≤ p.length then [p.take n] else p :: cutPieces (n - p.length - 1) ps

theorem joinBar_cons {p : Bytes} {ps : List Bytes} (h : ps ≠ []) :
    joinBar (p :: ps) = p ++ 0x7C :: joinBar ps := by
  cases ps with
  | nil => exact absurd rfl h
  | cons q ps => rfl

theorem joinBar_two (p q : Bytes) (ps : List Bytes) :
    joinBar (p :: q :: ps) = p ++ 0x7C :: joinBar (q :: ps) := rfl

theorem cutPieces_ne_nil {n : Nat} {p : Bytes} {ps : List Bytes} : cutPieces n (p :: ps) ≠ [] := by
  rw [cutPieces]
  split_ifs <;> simp

theorem take_joinBar (n : Nat) (ps : List Bytes) :
    (joinBar ps).take n = joinBar (cutPieces n ps) := by
  induction ps generalizing n with
  | nil => simp [joinBar, cutPieces]
  | cons p ps ih =>
    rw [cutPieces]
    cases ps with
    | nil =>
      split_ifs with hShort
      · rfl
      · simp [joinBar, cutPieces, List.take_of_length_le (Nat.le_of_not_le hShort)]
    | cons q ps =>
      rw [joinBar_cons (by simp)]
      split_ifs with hShort
      · rw [List.take_append_of_le_length hShort]
        rfl
      · have hLong : n = p.length + ((n - p.length - 1) + 1) := by omega
        rw [joinBar_cons cutPieces_ne_nil, ← ih, hLong, List.take_length_add_append,
          List.take_succ_cons]
        congr 3
        omega

theorem mem_joinBar {ps : List Bytes} {c : UInt8} (h : c ∈ joinBar ps) :
    c = 0x7C ∨ ∃ p ∈ ps, c ∈ p := by
  induction ps with
  | nil => cases h
  | cons p ps ih =>
    cases ps with
    | nil => exact .inr ⟨p, List.mem_cons_self, h⟩
    | cons q ps =>
      rw [joinBar_two, List.mem_append, List.mem_cons] at h
      rcases h with hHere | rfl | hRest
      · exact .inr ⟨p, List.mem_cons_self, hHere⟩
      · exact .inl rfl
      · refine (ih hRest).imp_right ?_
        rintro ⟨p', hMem, hc⟩
        exact ⟨p', List.mem_cons_of_mem p hMem, hc⟩

/-- A name without a bar is looked for in front of a bar, and then behind it. -/
theorem strstr_bar {needle p rest : Bytes} (hNeedle : 0x7C ∉ needle) (hSome : needle ≠ [])
    (hp : ∀ c ∈ p, c ≠ 0) :
    strstr needle (p ++ 0x7C :: rest) =
      match strstr needle p with
      | some e => some (e ++ 0x7C :: rest)
      | none => strstr needle rest := by
  induction p with
  | nil =>
    have hNot : ¬needle.isPrefixOf (0x7C :: rest) := by
      intro hPrefix
      cases needle with
      | nil => exact hSome rfl
      | cons d ds =>
        obtain ⟨rfl, -⟩ := List.cons_prefix_cons.1 (List.isPrefixOf_iff_prefix.1 hPrefix)
        exact hNeedle List.mem_cons_self
    simp only [List.nil_append, strstr, if_neg hNot, if_neg hSome]
    rfl
  | cons c cs ih =>
    obtain ⟨hNul, hTail⟩ := List.forall_mem_cons.1 hp
    by_cases hPrefix : needle.isPrefixOf (c :: cs)
    · have hFound : strstr needle (c :: cs) = some (c :: cs) := by rw [strstr, if_pos hPrefix]
      rw [strstr_append hFound, hFound]
    · have hNot : ¬needle.isPrefixOf (c :: cs ++ 0x7C :: rest) := by
        intro hLonger
        rw [List.isPrefixOf_iff_prefix] at hPrefix hLonger
        by_cases hRoom : needle.length ≤ (c :: cs).length
        · exact hPrefix (List.prefix_of_prefix_length_le hLonger (List.prefix_append _ _) hRoom)
        · -- it would reach over the bar
          obtain ⟨v, hV⟩ := List.prefix_of_prefix_length_le
            (List.prefix_append (c :: cs) (0x7C :: rest)) hLonger (by omega)
          rw [← hV, List.prefix_append_right_inj] at hLonger
          cases v with
          | nil =>
            rw [List.append_nil] at hV
            exact hRoom (hV ▸ Nat.le_refl _)
          | cons d v =>
            obtain ⟨rfl, -⟩ := List.cons_prefix_cons.1 hLonger
            exact hNeedle (by rw [← hV]; simp)
      rw [List.cons_append] at hNot ⊢
      rw [strstr, if_neg hNot, if_neg hNul, ih hTail, strstr, if_neg hPrefix, if_neg hNul]

/-- The first piece with the name, from there on. -/
def findPiece (needle : Bytes) : List Bytes → Option (List Bytes)
  | [] => none
  | p :: ps =>
    match strstr needle p with
    | some e => some (e :: ps)
    | none => findPiece needle ps

section Pieces

variable {needle : Bytes} {ps : List Bytes}

theorem strstr_joinBar (hNeedle : 0x7C ∉ needle) (hSome : needle ≠ [])
    (hps : ∀ p ∈ ps, ∀ c ∈ p, c ≠ 0) :
    strstr needle (joinBar ps) = (findPiece needle ps).map joinBar := by
  induction ps with
  | nil => simp [joinBar, findPiece, strstr, hSome]
  | cons p ps ih =>
    obtain ⟨hp, hTail⟩ := List.forall_mem_cons.1 hps
    rw [findPiece]
    cases ps with
    | nil =>
      rw [joinBar]
      cases strstr needle p <;> rfl
    | cons q ps =>
      rw [joinBar_cons (by simp), strstr_bar hNeedle hSome hp]
      cases strstr needle p with
      | none => exact ih hTail
      | some e => rfl

theorem findPiece_isSome : (findPiece needle ps).isSome ↔ ∃ p ∈ ps, occurs needle p := by
  induction ps with
  | nil => simp [findPiece]
  | cons p ps ih =>
    rw [findPiece]
    cases hFind : strstr needle p with
    | none => simp [occurs, hFind, ih]
    | some e => simp [occurs, hFind]

theorem occurs_joinBar (hNeedle : 0x7C ∉ needle) (hSome : needle ≠ [])
    (hps : ∀ p ∈ ps, ∀ c ∈ p, c ≠ 0) :
    occurs needle (joinBar ps) ↔ ∃ p ∈ ps, occurs needle p := by
  rw [← findPiece_isSome, occurs, strstr_joinBar hNeedle hSome hps, Option.isSome_map]

theorem drop_joinBar {n : Nat} {p : Bytes} (h : n ≤ p.length) :
    (joinBar (p :: ps)).drop n = joinBar (p.drop n :: ps) := by
  cases ps with
  | nil => rfl
  | cons q ps =>
    rw [joinBar_two, joinBar_two, List.drop_append_of_le_length h]

theorem skipSpace_joinBar (p : Bytes) :
    skipWhile isSpace (joinBar (p :: ps)) = joinBar (p.dropWhile isSpace :: ps) := by
  cases ps with
  | nil => rfl
  | cons q ps =>
    rw [joinBar_two, joinBar_two, skipWhile]
    induction p with
    | nil => rfl
    | cons c cs ih =>
      rw [List.cons_append, List.dropWhile_cons, List.dropWhile_cons]
      split_ifs with hSpace
      · exact ih
      · rfl

/-- A cut text has no other bytes. -/
theorem mem_cutPieces {n : Nat} {p : Bytes} {c : UInt8} (hp : p ∈ cutPieces n ps) (hc : c ∈ p) :
    ∃ q ∈ ps, c ∈ q := by
  induction ps generalizing n with
  | nil => cases hp
  | cons q ps ih =>
    rw [cutPieces] at hp
    split_ifs at hp with hShort
    · obtain rfl := List.mem_singleton.1 hp
      exact ⟨q, List.mem_cons_self, List.mem_of_mem_take hc⟩
    · rcases List.mem_cons.1 hp with rfl | hRest
      · exact ⟨p, List.mem_cons_self, hc⟩
      · obtain ⟨q', hMem, hc'⟩ := ih hRest
        exact ⟨q', List.mem_cons_of_mem q hMem, hc'⟩

/-- What is found is a piece that is cut at its front, and the pieces behind it. -/
theorem findPiece_eq_some {found : List Bytes} (h : findPiece needle ps = some found) :
    ∃ e rest, found = e :: rest ∧ needle <+: e ∧ (∃ p ∈ ps, e <:+ p) ∧ ∀ q ∈ rest, q ∈ ps := by
  induction ps with
  | nil => cases h
  | cons p ps ih =>
    rw [findPiece] at h
    cases hFind : strstr needle p with
    | none =>
      rw [hFind] at h
      obtain ⟨e, rest, hFound, hFront, ⟨q, hMem, hSuffix⟩, hRest⟩ := ih h
      exact ⟨e, rest, hFound, hFront, ⟨q, List.mem_cons_of_mem p hMem, hSuffix⟩,
        fun q' hq => List.mem_cons_of_mem p (hRest q' hq)⟩
    | some e =>
      rw [hFind] at h
      obtain rfl := Option.some.inj h
      obtain ⟨hFront, hSuffix⟩ := strstr_eq_some hFind
      exact ⟨e, ps, rfl, hFront, ⟨p, List.mem_cons_self, hSuffix⟩,
        fun q hq => List.mem_cons_of_mem p hq⟩

end Pieces

-- ---------------------------------------------------------------------------
-- Requests in pieces
-- ---------------------------------------------------------------------------

/-- The lines, each with the nothing between its two bars. -/
def piecesOf (lines : List Bytes) : List Bytes := lines.flatMap (fun l => [l, []]) ++ [[]]

theorem piecesOf_ne_nil (lines : List Bytes) : piecesOf lines ≠ [] := by simp [piecesOf]

theorem map_barred {p : Bytes} (h : ∀ c ∈ p, isLineByte c) : p.map barred = p := by
  have hSame : ∀ c ∈ p, barred c = id c := by
    intro c hMem
    have hLine := h c hMem
    simp only [isLineByte, Bool.and_eq_true, Bool.not_eq_true'] at hLine
    simp [barred, hLine.1]
  rw [List.map_congr_left hSame, List.map_id]

theorem joinBar_piecesOf {lines : List Bytes} (h : ∀ l ∈ lines, ∀ c ∈ l, isLineByte c) :
    (lines.flatMap (· ++ [0x0D, 0x0A])).map barred = joinBar (piecesOf lines) := by
  induction lines with
  | nil => rfl
  | cons l lines ih =>
    obtain ⟨hl, hTail⟩ := List.forall_mem_cons.1 h
    have hPieces : piecesOf (l :: lines) = l :: [] :: piecesOf lines := rfl
    rw [hPieces, joinBar_cons (by simp), joinBar_cons (piecesOf_ne_nil lines), ← ih hTail,
      List.flatMap_cons, List.map_append, List.map_append, map_barred hl]
    simp [barred, isLineEnd]

namespace SearchRequest

variable (r : SearchRequest)

theorem lines_ok : ∀ l ∈ r.lines, ∀ c ∈ l, isLineByte c := by
  intro l hl
  simp only [lines, List.mem_cons, List.mem_append, List.mem_map, List.not_mem_nil, or_false] at hl
  rcases hl with (rfl | ⟨h, -, rfl⟩) | rfl
  · decide +kernel
  · intro c hc
    simp only [SearchHeader.line, List.mem_append] at hc
    rcases hc with (hName | hColon) | hText
    · have hOk := h.name_ok c hName
      simp only [Bool.and_eq_true] at hOk
      exact hOk.1.1
    · rw [show ascii ":" = [0x3A] from rfl, List.mem_singleton] at hColon
      rw [hColon]
      decide
    · exact h.text_ok c hText
  · simp

/-- The first 2047 bytes of the request, in pieces. -/
def received : List Bytes := cutPieces 2047 (piecesOf r.lines)

theorem received_nonzero : ∀ p ∈ r.received, ∀ c ∈ p, isLineByte c := by
  intro p hp c hc
  obtain ⟨q, hq, hc'⟩ := mem_cutPieces hp hc
  simp only [piecesOf, List.mem_append, List.mem_flatMap, List.mem_cons, List.not_mem_nil,
    or_false] at hq
  rcases hq with ⟨l, hl, rfl | rfl⟩ | rfl
  · exact r.lines_ok _ hl c hc'
  · cases hc'
  · cases hc'

/-- What is behind the first `ST:` of the request, up to 127 bytes, in pieces. -/
def window : Option (List Bytes) :=
  (findPiece (ascii "ST:") r.received).map fun
    | [] => []
    | p :: ps => cutPieces 127 ((p.drop 3).dropWhile isSpace :: ps)

/-- The value the responder goes by is the window. -/
theorem searchValue_eq :
    searchValue ((r.text.take 2047).map barred) = r.window.map joinBar := by
  have hNul : ∀ p ∈ r.received, ∀ c ∈ p, c ≠ 0 := fun p hp c hc => by
    have hLine := r.received_nonzero p hp c hc
    simp only [isLineByte, Bool.and_eq_true, decide_eq_true_eq] at hLine
    exact hLine.2
  rw [List.map_take, text, joinBar_piecesOf r.lines_ok, take_joinBar, searchValue, ← received,
    strstr_joinBar (by decide) (by decide) hNul, window, Option.map_map, Option.map_map]
  cases hFound : findPiece (ascii "ST:") r.received with
  | none => rfl
  | some found =>
    obtain ⟨e, rest, rfl, hFront, ⟨p, hp, hSuffix⟩, hRest⟩ := findPiece_eq_some hFound
    have hLong : 3 ≤ e.length := hFront.length_le
    simp only [Option.map_some, Function.comp_apply, Option.some.injEq]
    rw [drop_joinBar hLong, skipSpace_joinBar, ← take_joinBar, List.takeWhile_eq_self_iff.2]
    -- no line end and no NUL is left
    intro c hMem
    have hLine : isLineByte c := by
      rcases mem_joinBar hMem with rfl | ⟨q, hq, hc⟩
      · decide
      · rcases List.mem_cons.1 hq with rfl | hq
        · exact r.received_nonzero p hp c (hSuffix.subset
            (List.mem_of_mem_drop ((List.dropWhile_sublist _).subset hc)))
        · exact r.received_nonzero q (hRest q hq) c hc
    simpa [isLineByte] using hLine

/-- The window has a name that asks for the response. -/
def Mentions (t : SearchTarget) : Prop :=
  ∃ ps ∈ r.window, ∃ p ∈ ps, occurs (ascii "ssdp:all") p ∨ occurs t.name p

theorem window_nonzero {ps : List Bytes} (h : ps ∈ r.window) : ∀ p ∈ ps, ∀ c ∈ p, c ≠ 0 := by
  obtain ⟨found, hFound, rfl⟩ := Option.map_eq_some_iff.1 h
  obtain ⟨e, rest, rfl, -, ⟨q, hq, hSuffix⟩, hRest⟩ := findPiece_eq_some hFound
  intro p hp c hc
  have hLine : isLineByte c := by
    obtain ⟨p', hp', hc'⟩ := mem_cutPieces hp hc
    rcases List.mem_cons.1 hp' with rfl | hp'
    · exact r.received_nonzero q hq c (hSuffix.subset
        (List.mem_of_mem_drop ((List.dropWhile_sublist _).subset hc')))
    · exact r.received_nonzero p' (hRest p' hp') c hc'
  simp only [isLineByte, Bool.and_eq_true, decide_eq_true_eq] at hLine
  exact hLine.2

theorem asksFor_iff {ps : List Bytes} (h : ps ∈ r.window) (t : SearchTarget) :
    asksFor (joinBar ps) t ↔ ∃ p ∈ ps, occurs (ascii "ssdp:all") p ∨ occurs t.name p := by
  have hNul := r.window_nonzero h
  have hAll : occurs (ascii "ssdp:all") (joinBar ps) ↔ ∃ p ∈ ps, occurs (ascii "ssdp:all") p :=
    occurs_joinBar (by decide) (by decide) hNul
  have hName : occurs t.name (joinBar ps) ↔ ∃ p ∈ ps, occurs t.name p :=
    occurs_joinBar (by cases t <;> decide) (by cases t <;> decide) hNul
  rw [asksFor, Bool.or_eq_true, hAll, hName]
  constructor
  · rintro (⟨p, hp, h⟩ | ⟨p, hp, h⟩)
    · exact ⟨p, hp, .inl h⟩
    · exact ⟨p, hp, .inr h⟩
  · rintro ⟨p, hp, h | h⟩
    · exact .inl ⟨p, hp, h⟩
    · exact .inr ⟨p, hp, h⟩

/-- A request is recognised by its first line. -/
theorem search_found : occurs (ascii "M-SEARCH") (r.text.take 2047) := by
  have hText : r.text = ascii "M-SEARCH" ++
      (ascii " * HTTP/1.1\r\n" ++ (r.headers.map SearchHeader.line ++ [[]]).flatMap
        (· ++ [0x0D, 0x0A])) := rfl
  rw [hText, List.take_append, List.take_of_length_le (by decide), occurs]
  have hSelf : strstr (ascii "M-SEARCH") (ascii "M-SEARCH") = some (ascii "M-SEARCH") := by decide
  rw [strstr_append hSelf]
  rfl

/-- The answers are the responses that the window asks for. -/
theorem answers_eq : ∃ asked : SearchTarget → Bool,
    ssdpAnswers false r.text = SearchTarget.all.filter asked ∧ ∀ t, asked t ↔ r.Mentions t := by
  have hGo : ¬(¬occurs (ascii "M-SEARCH") (r.text.take 2047) ∨ false = true) := by
    simp [r.search_found]
  simp only [ssdpAnswers, if_neg hGo]
  rw [r.searchValue_eq]
  cases hWindow : r.window with
  | none => exact ⟨fun _ => false, by simp, fun t => by simp [Mentions, hWindow]⟩
  | some ps =>
    refine ⟨asksFor (joinBar ps), rfl, fun t => ?_⟩
    rw [r.asksFor_iff hWindow t, Mentions, hWindow]
    simp

/-- **Every request** is answered as its ST header selects, exactly when the lines behind the
first `ST:` of the request, up to 127 bytes, name what that header selects and no more. -/
theorem search_iff :
    ssdpAnswers false r.text = r.selected ↔ ∀ t, r.Mentions t ↔ r.Selects t := by
  obtain ⟨asked, hAnswers, hAsked⟩ := r.answers_eq
  have hMem (t : SearchTarget) : t ∈ SearchTarget.all := by cases t <;> decide
  rw [hAnswers, selected]
  constructor
  · intro hSame t
    have hBoth : t ∈ SearchTarget.all.filter asked ↔ t ∈ SearchTarget.all.filter (r.Selects ·) := by
      rw [hSame]
    simpa [hMem, ← hAsked] using hBoth
  · intro hAll
    refine List.filter_congr fun t _ => ?_
    rw [Bool.eq_iff_iff, hAsked, hAll, decide_eq_true_iff]

end SearchRequest

-- ---------------------------------------------------------------------------
-- Requests in the network
-- ---------------------------------------------------------------------------

/-- A search for everything, from a control point that tells much about itself. -/
def agentRequest : SearchRequest where
  before :=
    [⟨ascii "HOST", ascii " 239.255.255.250:1900", by decide, by decide +kernel,
        by decide +kernel⟩,
      ⟨ascii "USER-AGENT", ascii " " ++ List.replicate 110 0x78, by decide, by decide +kernel,
        by decide +kernel⟩]
  st := ⟨ascii "ST", ascii " ssdp:all", by decide, by decide +kernel, by decide +kernel⟩
  behind := [⟨ascii "MX", ascii " 3", by decide, by decide +kernel, by decide +kernel⟩]
  isSt := by decide +kernel
  only := by decide +kernel

/-- The ST header is found in HOST, and is too far behind it. -/
theorem agent_hides_target : ¬∀ r : SearchRequest, ssdpAnswers false r.text = r.selected := by
  intro hAll
  exact absurd (hAll agentRequest) (by decide +kernel)

end EspMiplay.Dlna
