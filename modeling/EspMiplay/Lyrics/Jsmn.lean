import Mathlib.Data.List.Basic
import EspMiplay.Lib.JsonTokens
import EspMiplay.Miplay.Text

/-!
# The tokens of a text

`jsmn_parse` of `jsmn.c`, as `lyrics_fetch.c` calls it: with an array for the tokens, without
`JSMN_STRICT` and without `JSMN_PARENT_LINKS`. Every text of JSON is accepted, and many others.

## Results

* `jsmnParse_returns` — there is a result for every text.
* `jsmnParse_nested`  — the tokens of a text that is accepted, whether it is JSON or not: they lie
  in the text between their delimiters, and of two of them one holds the other or is behind it.
-/

namespace EspMiplay.Lyrics

open EspMiplay.Miplay
open Json (TokenType)

-- ---------------------------------------------------------------------------
-- The functions
-- ---------------------------------------------------------------------------

/-- `jsmntok_t`; without a `stop` its `end` is -1. -/
structure JsmnTok where
  type : TokenType
  start : Nat
  stop : Option Nat
  size : Nat
  deriving DecidableEq

/-- `jsmnerr_t` -/
inductive JsmnErr where
  | nomem
  | inval
  | part
  deriving DecidableEq

/-- `jsmn_parser_t`, the tokens up to `toknext`, and `count`; a `toksuper` of -1 is none. -/
structure JsmnParser where
  pos : Nat
  tokens : List JsmnTok
  toksuper : Option Nat
  count : Nat

/-- `jsmn_init` -/
def jsmnInit : JsmnParser := ⟨0, [], none, 0⟩

/-- `jsmn_alloc_token`, with what the caller writes into the token -/
def JsmnParser.alloc (num : Nat) (p : JsmnParser) (t : JsmnTok) : Except JsmnErr JsmnParser :=
  if toInt32 num ≤ p.tokens.length then .error .nomem
  else .ok { p with tokens := p.tokens ++ [t] }

/-- `tokens[parser->toksuper].size++`, unless `toksuper` is -1 -/
def JsmnParser.grow (p : JsmnParser) : JsmnParser :=
  { p with
    tokens := p.toksuper.elim p.tokens fun i =>
      p.tokens.modify i fun t => { t with size := t.size + 1 } }

/-- The labels in front of `goto found` -/
def endsPrimitive (c : UInt8) : Bool :=
  c = 0x3A ∨ c = 0x09 ∨ c = 0x0D ∨ c = 0x0A ∨ c = 0x20 ∨ c = 0x2C ∨ c = 0x5D ∨ c = 0x7D

/-- The loop of `jsmn_parse_primitive` -/
def primitiveStop : Bytes → Nat → Except JsmnErr Nat
  | [], pos => .ok pos
  | c :: rest, pos =>
    if c = 0 ∨ endsPrimitive c then .ok pos
    else if c < 32 ∨ 127 ≤ c then .error .inval
    else primitiveStop rest (pos + 1)

/-- `jsmn_parse_primitive`. The byte behind the token is read again. -/
def jsmnParsePrimitive (num : Nat) (text : Bytes) (p : JsmnParser) : Except JsmnErr JsmnParser := do
  let stop ← primitiveStop (text.drop p.pos) p.pos
  let p ← p.alloc num ⟨.primitive, p.pos, some stop, 0⟩
  return { p with pos := stop - 1 }

/-- The letters behind a backslash, but for the one of a number -/
def isEscape (c : UInt8) : Bool :=
  c = 0x22 ∨ c = 0x2F ∨ c = 0x5C ∨ c = 0x62 ∨ c = 0x66 ∨ c = 0x72 ∨ c = 0x6E ∨ c = 0x74

def isHexDigit (c : UInt8) : Bool :=
  (48 ≤ c ∧ c ≤ 57) ∨ (65 ≤ c ∧ c ≤ 70) ∨ (97 ≤ c ∧ c ≤ 102)

/-- Where the loop of `jsmn_parse_string` is: behind a backslash, or in the loop over the digits
of a number, with so many more of them to come -/
inductive Reading where
  | plain
  | slash
  | digits (more : Nat)

/-- The loop of `jsmn_parse_string` -/
def stringStop : Reading → Bytes → Nat → Except JsmnErr Nat
  | _, [], _ => .error .part
  | .plain, c :: rest, pos =>
    if c = 0 then .error .part
    else if c = 0x22 then .ok pos
    else stringStop (if c = 0x5C then .slash else .plain) rest (pos + 1)
  | .slash, c :: rest, pos =>
    if isEscape c then stringStop .plain rest (pos + 1)
    else if c = 0x75 then stringStop (.digits 3) rest (pos + 1)
    else .error .inval
  | .digits more, c :: rest, pos =>
    if c = 0 then .error .part
    else if isHexDigit c then
      stringStop (if more = 0 then .plain else .digits (more - 1)) rest (pos + 1)
    else .error .inval

/-- `jsmn_parse_string` -/
def jsmnParseString (num : Nat) (text : Bytes) (p : JsmnParser) : Except JsmnErr JsmnParser := do
  let stop ← stringStop .plain (text.drop (p.pos + 1)) (p.pos + 1)
  let p ← p.alloc num ⟨.string, p.pos + 1, some stop, 0⟩
  return { p with pos := stop }

/-- The loops that go down from the last token -/
def lastIndex (ok : JsmnTok → Bool) : List JsmnTok → Option Nat
  | [] => none
  | t :: ts =>
    match lastIndex ok ts with
    | some i => some (i + 1)
    | none => if ok t then some 0 else none

/-- `token->start != -1 && token->end == -1` -/
def JsmnTok.open (t : JsmnTok) : Bool := t.stop.isNone

def jsmnOpen (num : Nat) (type : TokenType) (p : JsmnParser) : Except JsmnErr JsmnParser := do
  let q ← { p with count := p.count + 1 }.alloc num ⟨type, p.pos, none, 0⟩
  return { q.grow with toksuper := some p.tokens.length }

def jsmnClose (type : TokenType) (p : JsmnParser) : Except JsmnErr JsmnParser :=
  match lastIndex JsmnTok.open p.tokens with
  | none => .error .inval
  | some i =>
    if (p.tokens[i]?).any fun t => t.type ≠ type then .error .inval
    else .ok { p with
      tokens := p.tokens.modify i fun t => { t with stop := some (p.pos + 1) }
      toksuper := lastIndex JsmnTok.open (p.tokens.take i) }

def jsmnComma (p : JsmnParser) : JsmnParser :=
  if (p.toksuper.bind (p.tokens[·]?)).any fun t => !t.type.holds then
    match lastIndex (fun t => t.type.holds && t.open) p.tokens with
    | some i => { p with toksuper := some i }
    | none => p
  else p

/-- What `jsmn_parse` does with a byte -/
def jsmnStep (num : Nat) (text : Bytes) (c : UInt8) (p : JsmnParser) :
    Except JsmnErr JsmnParser :=
  if c = 0x7B then jsmnOpen num .object p
  else if c = 0x5B then jsmnOpen num .array p
  else if c = 0x7D then jsmnClose .object p
  else if c = 0x5D then jsmnClose .array p
  else if c = 0x22 then do
    let p ← jsmnParseString num text p
    return { p with count := p.count + 1 }.grow
  else if c = 0x09 ∨ c = 0x0D ∨ c = 0x0A ∨ c = 0x20 then .ok p
  else if c = 0x3A then .ok { p with toksuper := lastIndex (fun _ => true) p.tokens }
  else if c = 0x2C then .ok (jsmnComma p)
  else do
    let p ← jsmnParsePrimitive num text p
    return { p with count := p.count + 1 }.grow

/-- `parser->pos < (int)len && js[parser->pos] != '\0'`, of the text up to `(int)len` -/
def current (text : Bytes) (pos : Nat) : Option UInt8 := text[pos]?.filter (· ≠ 0)

/-- The loop of `jsmn_parse`. Every turn passes a byte. -/
def jsmnLoop (num : Nat) (text : Bytes) : Nat → JsmnParser → Option (Except JsmnErr JsmnParser)
  | 0, _ => none
  | fuel + 1, p =>
    match current text p.pos with
    | none => some (.ok p)
    | some c =>
      match jsmnStep num text c p with
      | .error e => some (.error e)
      | .ok p => jsmnLoop num text fuel { p with pos := p.pos + 1 }

/-- `jsmn_parse` of a fresh parser: the number of the tokens, and the tokens -/
def jsmnParse (js : Bytes) (num : Nat) : Option (Except JsmnErr (Nat × List JsmnTok)) :=
  (jsmnLoop num (js.take (toInt32 js.length).toNat) (js.length + 1) jsmnInit).map fun r => do
    let p ← r
    if p.tokens.any JsmnTok.open then .error .part else .ok (p.count, p.tokens)

-- ---------------------------------------------------------------------------
-- The last token of a kind
-- ---------------------------------------------------------------------------

section LastIndex

variable {ok : JsmnTok → Bool} {ts front back : List JsmnTok} {t : JsmnTok} {i : Nat}

theorem lastIndex_eq_none : lastIndex ok ts = none ↔ ∀ t ∈ ts, ok t = false := by
  induction ts with
  | nil => exact ⟨fun _ => List.forall_mem_nil _, fun _ => rfl⟩
  | cons a ts ih =>
    rw [lastIndex, List.forall_mem_cons, ← ih]
    cases lastIndex ok ts with
    | some i => simp
    | none => simp

theorem lastIndex_append (hBack : ∀ b ∈ back, ok b = false) :
    lastIndex ok (front ++ back) = lastIndex ok front := by
  induction front with
  | nil => exact lastIndex_eq_none.2 hBack
  | cons a front ih => rw [List.cons_append, lastIndex, lastIndex, ih]

theorem lastIndex_split (hOk : ok t = true) (hBack : ∀ b ∈ back, ok b = false) :
    lastIndex ok (front ++ t :: back) = some front.length := by
  induction front with
  | nil =>
    rw [List.nil_append, lastIndex, lastIndex_eq_none.2 hBack, hOk]
    rfl
  | cons a front ih => rw [List.cons_append, lastIndex, ih, List.length_cons]

theorem exists_split (h : lastIndex ok ts = some i) :
    ∃ front t back, ts = front ++ t :: back ∧ front.length = i ∧ ok t = true ∧
      ∀ b ∈ back, ok b = false := by
  induction ts generalizing i with
  | nil => cases h
  | cons a ts ih =>
    rw [lastIndex] at h
    cases hRest : lastIndex ok ts with
    | some j =>
      rw [hRest] at h
      obtain rfl := Option.some.inj h
      obtain ⟨front, t, back, rfl, rfl, hOk, hBack⟩ := ih hRest
      exact ⟨a :: front, t, back, rfl, rfl, hOk, hBack⟩
    | none =>
      rw [hRest] at h
      dsimp only at h
      split_ifs at h with hOk
      obtain rfl := Option.some.inj h
      exact ⟨[], a, ts, rfl, rfl, hOk, lastIndex_eq_none.1 hRest⟩

end LastIndex

-- ---------------------------------------------------------------------------
-- What a turn does
-- ---------------------------------------------------------------------------

/-- A token without its size -/
structure Span where
  type : TokenType
  start : Nat
  stop : Option Nat

def JsmnTok.span (t : JsmnTok) : Span := ⟨t.type, t.start, t.stop⟩

def JsmnParser.spans (p : JsmnParser) : List Span := p.tokens.map JsmnTok.span

/-- What stands at the ends of a token -/
def Delimited (text : Bytes) (type : TokenType) (start stop : Nat) : Prop :=
  match type with
  | .object => start + 2 ≤ stop ∧ text[start]? = some 0x7B ∧ text[stop - 1]? = some 0x7D
  | .array => start + 2 ≤ stop ∧ text[start]? = some 0x5B ∧ text[stop - 1]? = some 0x5D
  | .string => 1 ≤ start ∧ start ≤ stop ∧ text[start - 1]? = some 0x22 ∧ text[stop]? = some 0x22
  | .primitive => start < stop ∧ stop ≤ text.length ∧
      ∀ c ∈ (text.drop start).take (stop - start), !endsPrimitive c

/-- The token has begun, and `toksuper` is not behind the last one. -/
def JsmnParser.Valid (p : JsmnParser) : Prop := ∀ i ∈ p.toksuper, i < p.tokens.length

/-- The turns of the loop -/
inductive JsmnTurn (num : Nat) (text : Bytes) (p q : JsmnParser) : Prop where
  | opens (type : TokenType) (hRoom : p.tokens.length < toInt32 num) (hHolds : type.holds)
      (hBegins : type = .object ∧ text[p.pos]? = some 0x7B ∨
        type = .array ∧ text[p.pos]? = some 0x5B)
      (hSpans : q.spans = p.spans ++ [⟨type, p.pos, none⟩]) (hPos : q.pos = p.pos)
      (hCount : q.count = p.count + 1)
  | closes (front back : List Span) (type : TokenType) (start : Nat)
      (hFound : p.spans = front ++ ⟨type, start, none⟩ :: back)
      (hBack : ∀ s ∈ back, s.stop.isSome)
      (hEnds : type = .object ∧ text[p.pos]? = some 0x7D ∨
        type = .array ∧ text[p.pos]? = some 0x5D)
      (hSpans : q.spans = front ++ ⟨type, start, some (p.pos + 1)⟩ :: back) (hPos : q.pos = p.pos)
      (hCount : q.count = p.count)
  | adds (type : TokenType) (start stop : Nat) (hRoom : p.tokens.length < toInt32 num)
      (hDelimited : Delimited text type start stop) (hStart : p.pos ≤ start)
      (hSpans : q.spans = p.spans ++ [⟨type, start, some stop⟩]) (hPos : p.pos ≤ q.pos)
      (hStop : stop ≤ q.pos + 1) (hInside : start ≤ q.pos) (hCount : q.count = p.count + 1)
  | moves (hSpans : q.spans = p.spans) (hPos : q.pos = p.pos) (hCount : q.count = p.count)

section Turns

variable {num : Nat} {text : Bytes} {p q : JsmnParser} {c : UInt8} {t : JsmnTok} {w : Bytes}
  {pos stop : Nat}

theorem primitiveStop_spec (h : primitiveStop w pos = .ok stop) :
    pos ≤ stop ∧ stop ≤ pos + w.length ∧ ∀ c ∈ w.take (stop - pos), !endsPrimitive c := by
  fun_induction primitiveStop w pos with
  | case1 pos =>
    cases h
    simp
  | case2 c rest pos hEnd =>
    cases h
    simp
  | case3 c rest pos hEnd hBad => cases h
  | case4 c rest pos hEnd hBad ih =>
    obtain ⟨hPos, hInside, hRest⟩ := ih h
    rw [List.length_cons]
    refine ⟨by omega, by omega, ?_⟩
    rw [show stop - pos = stop - (pos + 1) + 1 by omega, List.take_succ_cons, List.forall_mem_cons]
    refine ⟨?_, hRest⟩
    rw [Bool.not_eq_true', ← Bool.not_eq_true]
    exact fun hEnds => hEnd (.inr hEnds)

theorem lt_primitiveStop (hNul : c ≠ 0) (hEnds : endsPrimitive c = false)
    (h : primitiveStop (c :: w) pos = .ok stop) : pos < stop := by
  rw [primitiveStop, if_neg (by simp [hNul, hEnds])] at h
  split_ifs at h with hBad
  exact (primitiveStop_spec h).1

theorem stringStop_spec {state : Reading} (h : stringStop state w pos = .ok stop) :
    pos ≤ stop ∧ w[stop - pos]? = some 0x22 := by
  fun_induction stringStop state w pos with
  | case1 | case2 | case7 | case8 | case10 => cases h
  | case3 rest pos hNul =>
    cases h
    exact ⟨Nat.le_refl _, by rw [Nat.sub_self]; rfl⟩
  | case4 c rest pos hNul hQuote ih | case5 c rest pos hEscape ih | case6 rest pos hEscape ih
    | case9 more c rest pos hNul hHex ih =>
    obtain ⟨hPos, hEnd⟩ := ih h
    rw [show stop - pos = stop - (pos + 1) + 1 by omega]
    exact ⟨by omega, hEnd⟩

theorem bind_ok_iff {α β : Type} {m : Except JsmnErr α} {f : α → Except JsmnErr β} {b : β} :
    m >>= f = .ok b ↔ ∃ a, m = .ok a ∧ f a = .ok b := by
  cases m with
  | error e => simp [bind, Except.bind]
  | ok a => simp [bind, Except.bind]

theorem alloc_eq (h : p.alloc num t = .ok q) :
    p.tokens.length < toInt32 num ∧ q = { p with tokens := p.tokens ++ [t] } := by
  rw [JsmnParser.alloc] at h
  split_ifs at h with hFull
  exact ⟨Int.not_le.1 hFull, (Except.ok.inj h).symm⟩

theorem modify_split (f : JsmnTok → JsmnTok) (front back : List JsmnTok) (t : JsmnTok) :
    (front ++ t :: back).modify front.length f = front ++ f t :: back := by
  induction front with
  | nil => rfl
  | cons a front ih =>
    rw [List.cons_append, List.length_cons, List.modify_succ_cons, ih, List.cons_append]

theorem spans_modify (i : Nat) (f : JsmnTok → JsmnTok) (hf : ∀ t, (f t).span = t.span)
    (ts : List JsmnTok) : (ts.modify i f).map JsmnTok.span = ts.map JsmnTok.span := by
  refine List.ext_getElem? fun j => ?_
  rw [List.getElem?_map, List.getElem?_map, List.getElem?_modify]
  cases ts[j]? with
  | none => rfl
  | some t =>
    rw [Option.map_eq_map, Option.map_some, Option.map_some, Option.map_some]
    split_ifs with hSame
    · rw [hf]
    · rfl

/-- The growth of a token leaves all ends where they are. -/
theorem spans_grow (p : JsmnParser) : p.grow.spans = p.spans := by
  rw [JsmnParser.spans, JsmnParser.spans, JsmnParser.grow]
  cases p.toksuper with
  | none => rfl
  | some i => exact spans_modify i (fun t => { t with size := t.size + 1 }) (fun _ => rfl) p.tokens

theorem length_grow (p : JsmnParser) : p.grow.tokens.length = p.tokens.length := by
  have hSpans := congrArg List.length (spans_grow p)
  rwa [JsmnParser.spans, JsmnParser.spans, List.length_map, List.length_map] at hSpans

theorem turn_open {type : TokenType} (hHolds : type.holds)
    (hBegins : type = .object ∧ text[p.pos]? = some 0x7B ∨
      type = .array ∧ text[p.pos]? = some 0x5B)
    (h : jsmnOpen num type p = .ok q) : JsmnTurn num text p q ∧ q.Valid := by
  obtain ⟨r, hAlloc, hDone⟩ := bind_ok_iff.1 h
  obtain ⟨hRoom, rfl⟩ := alloc_eq hAlloc
  obtain rfl := Except.ok.inj hDone
  refine ⟨.opens type hRoom hHolds hBegins ?_ rfl rfl, ?_⟩
  · exact (spans_grow _).trans (List.map_append ..)
  · rintro i hSuper
    obtain rfl := Option.some.inj hSuper
    exact (Nat.lt_succ_self _).trans_eq ((length_grow _).trans List.length_append).symm

theorem turn_close {type : TokenType}
    (hEnds : type = .object ∧ text[p.pos]? = some 0x7D ∨
      type = .array ∧ text[p.pos]? = some 0x5D)
    (h : jsmnClose type p = .ok q) : JsmnTurn num text p q ∧ q.Valid := by
  rw [jsmnClose] at h
  cases hLast : lastIndex JsmnTok.open p.tokens with
  | none =>
    rw [hLast] at h
    cases h
  | some i =>
    rw [hLast] at h
    dsimp only at h
    obtain ⟨front, t, back, hFound, rfl, hOpen, hBack⟩ := exists_split hLast
    have hThere : p.tokens[front.length]? = some t := by
      rw [hFound, List.getElem?_append_right (Nat.le_refl _), Nat.sub_self]
      rfl
    split_ifs at h with hType
    rw [hThere, Option.any_some, decide_not, Bool.not_eq_true', decide_eq_false_iff_not,
      Decidable.not_not] at hType
    obtain rfl := Except.ok.inj h
    have hNone : t.stop = none := Option.isNone_iff_eq_none.1 hOpen
    refine ⟨.closes (front.map JsmnTok.span) (back.map JsmnTok.span) type t.start ?_ ?_ hEnds ?_
      rfl rfl, fun i hSuper => ?_⟩
    · rw [JsmnParser.spans, hFound, List.map_append, List.map_cons, JsmnTok.span, hNone, hType]
    · refine List.forall_mem_map.2 fun b hMem => ?_
      have hClosed := hBack b hMem
      rwa [JsmnTok.open, Option.isNone_eq_false_iff] at hClosed
    · rw [JsmnParser.spans, hFound, modify_split, List.map_append, List.map_cons, JsmnTok.span,
        hType]
    · -- the next one that is open is in front
      obtain ⟨before, s, after, hAbove, rfl, -⟩ := exists_split hSuper
      have hShort := congrArg List.length hAbove
      rw [List.length_take, List.length_append, List.length_cons] at hShort
      dsimp only
      rw [List.length_modify]
      omega

theorem super_lastIndex {ok : JsmnTok → Bool} (hTokens : q.tokens = p.tokens)
    (hSuper : q.toksuper = lastIndex ok p.tokens) : q.Valid := by
  intro i hMem
  rw [hSuper] at hMem
  obtain ⟨front, t, back, hFound, rfl, -⟩ := exists_split hMem
  rw [hTokens, hFound, List.length_append, List.length_cons]
  omega

theorem turn_comma (hValid : p.Valid) :
    JsmnTurn num text p (jsmnComma p) ∧ (jsmnComma p).Valid := by
  rw [jsmnComma]
  split_ifs with hKey
  · cases hLast : lastIndex (fun t => t.type.holds && t.open) p.tokens with
    | none => exact ⟨.moves rfl rfl rfl, hValid⟩
    | some i => exact ⟨.moves rfl rfl rfl, super_lastIndex rfl hLast.symm⟩
  · exact ⟨.moves rfl rfl rfl, hValid⟩

/-- A token without children, and the growth of its parent -/
theorem turn_add {type : TokenType} {start stop n : Nat} (hRoom : p.tokens.length < toInt32 num)
    (hDelimited : Delimited text type start stop) (hStart : p.pos ≤ start) (hValid : p.Valid)
    (hPos : p.pos ≤ n) (hStop : stop ≤ n + 1) (hInside : start ≤ n) :
    JsmnTurn num text p (JsmnParser.grow ⟨n, p.tokens ++ [⟨type, start, some stop, 0⟩], p.toksuper,
        p.count + 1⟩) ∧
      (JsmnParser.grow ⟨n, p.tokens ++ [⟨type, start, some stop, 0⟩], p.toksuper,
        p.count + 1⟩).Valid := by
  refine ⟨.adds type start stop hRoom hDelimited hStart ?_ hPos hStop hInside rfl,
    fun i hSuper => ?_⟩
  · exact (spans_grow _).trans (List.map_append ..)
  · rw [length_grow, List.length_append]
    exact Nat.lt_add_right 1 (hValid i hSuper)

/-- **A turn**: every byte opens a token, closes the last one that is open, adds one that is
closed, or moves `toksuper`. -/
theorem jsmnStep_turn (hValid : p.Valid) (hCurrent : current text p.pos = some c)
    (h : jsmnStep num text c p = .ok q) : JsmnTurn num text p q ∧ q.Valid := by
  obtain ⟨hText, hNul⟩ := Option.filter_eq_some_iff.1 hCurrent
  rw [jsmnStep] at h
  split_ifs at h with hObject hArray hObjectEnd hArrayEnd hString hBlank hColon hComma
  · rw [hObject] at hText
    exact turn_open rfl (.inl ⟨rfl, hText⟩) h
  · rw [hArray] at hText
    exact turn_open rfl (.inr ⟨rfl, hText⟩) h
  · rw [hObjectEnd] at hText
    exact turn_close (.inl ⟨rfl, hText⟩) h
  · rw [hArrayEnd] at hText
    exact turn_close (.inr ⟨rfl, hText⟩) h
  · rw [hString] at hText
    obtain ⟨r, hParse, hDone⟩ := bind_ok_iff.1 h
    obtain rfl := Except.ok.inj hDone
    obtain ⟨stop, hStop, hRest⟩ := bind_ok_iff.1 hParse
    obtain ⟨s, hAlloc, hDone⟩ := bind_ok_iff.1 hRest
    obtain ⟨hRoom, rfl⟩ := alloc_eq hAlloc
    obtain rfl := Except.ok.inj hDone
    obtain ⟨hPos, hQuote⟩ := stringStop_spec hStop
    rw [List.getElem?_drop, Nat.add_sub_of_le hPos] at hQuote
    have hDelimited : Delimited text .string (p.pos + 1) stop :=
      ⟨Nat.le_add_left 1 _, hPos, hText, hQuote⟩
    exact turn_add hRoom hDelimited (Nat.le_succ _) hValid (Nat.le_of_succ_le hPos) (Nat.le_succ _)
      hPos
  · obtain rfl := Except.ok.inj h
    exact ⟨.moves rfl rfl rfl, hValid⟩
  · obtain rfl := Except.ok.inj h
    exact ⟨.moves rfl rfl rfl, super_lastIndex rfl rfl⟩
  · obtain rfl := Except.ok.inj h
    exact turn_comma hValid
  · obtain ⟨r, hParse, hDone⟩ := bind_ok_iff.1 h
    obtain rfl := Except.ok.inj hDone
    obtain ⟨stop, hStop, hRest⟩ := bind_ok_iff.1 hParse
    obtain ⟨s, hAlloc, hDone⟩ := bind_ok_iff.1 hRest
    obtain ⟨hRoom, rfl⟩ := alloc_eq hAlloc
    obtain rfl := Except.ok.inj hDone
    obtain ⟨-, hEnd, hPlain⟩ := primitiveStop_spec hStop
    obtain ⟨hInside, hThere⟩ := List.getElem?_eq_some_iff.1 hText
    rw [List.length_drop, Nat.add_sub_of_le hInside.le] at hEnd
    have hLt : p.pos < stop := by
      rw [List.drop_eq_getElem_cons hInside, hThere] at hStop
      simp only [not_or] at hBlank
      have hOther : endsPrimitive c = false := by
        simp [endsPrimitive, hBlank, hColon, hComma, hArrayEnd, hObjectEnd]
      exact lt_primitiveStop (of_decide_eq_true hNul) hOther hStop
    have hDelimited : Delimited text .primitive p.pos stop := ⟨hLt, hEnd, hPlain⟩
    have hPos : p.pos ≤ stop - 1 := Nat.le_sub_one_of_lt hLt
    exact turn_add hRoom hDelimited (Nat.le_refl _) hValid hPos
      (Nat.le_add_of_sub_le (Nat.le_refl _)) hPos

end Turns

-- ---------------------------------------------------------------------------
-- Every text
-- ---------------------------------------------------------------------------

/-- Of two tokens the second is behind the first, or inside it. -/
def Span.Apart (a b : Span) : Prop :=
  a.start < b.start ∧ ∀ e ∈ a.stop, e ≤ b.start ∨ ∃ f ∈ b.stop, f ≤ e

/-- The ends of a token that are known, of the text in front of a position -/
structure Span.Placed (text : Bytes) (pos : Nat) (s : Span) : Prop where
  start_lt : s.start < pos
  stop_le : ∀ e ∈ s.stop, e ≤ pos
  delimited : ∀ e ∈ s.stop, Delimited text s.type s.start e
  begun : s.stop = none → s.type = .object ∧ text[s.start]? = some 0x7B ∨
    s.type = .array ∧ text[s.start]? = some 0x5B

/-- The tokens in front of a position -/
structure Laid (text : Bytes) (pos : Nat) (ss : List Span) : Prop where
  placed : ∀ s ∈ ss, s.Placed text pos
  apart : ss.Pairwise Span.Apart

structure JsmnInv (num : Nat) (text : Bytes) (p : JsmnParser) : Prop where
  laid : Laid text p.pos p.spans
  count : p.count = p.tokens.length
  room : (p.tokens.length : Int) ≤ max 0 (toInt32 num)
  valid : p.Valid

section EveryText

variable {num : Nat} {text : Bytes} {p q : JsmnParser} {c : UInt8} {pos n : Nat} {s : Span}
  {ss front back : List Span}

theorem Span.Placed.mono (h : s.Placed text pos) (hPos : pos ≤ n) : s.Placed text n where
  start_lt := h.start_lt.trans_le hPos
  stop_le e hMem := (h.stop_le e hMem).trans hPos
  delimited := h.delimited
  begun := h.begun

/-- A token that begins here is behind all others. -/
theorem Laid.append (h : Laid text pos ss) (hStart : pos ≤ s.start) (hPos : pos ≤ n)
    (hPlaced : s.Placed text n) : Laid text n (ss ++ [s]) where
  placed := List.forall_mem_append.2
    ⟨fun a hMem => (h.placed a hMem).mono hPos, List.forall_mem_singleton.2 hPlaced⟩
  apart := by
    refine List.pairwise_append.2 ⟨h.apart, List.pairwise_singleton .., fun a hMem b hLast => ?_⟩
    obtain rfl := List.mem_singleton.1 hLast
    have hBefore := h.placed a hMem
    exact ⟨hBefore.start_lt.trans_le hStart,
      fun e hStop => .inl ((hBefore.stop_le e hStop).trans hStart)⟩

theorem Laid.mono (h : Laid text pos ss) (hPos : pos ≤ n) : Laid text n ss where
  placed a hMem := (h.placed a hMem).mono hPos
  apart := h.apart

/-- The last token that is open holds all that have begun behind it. -/
theorem Laid.close {type : TokenType} {start : Nat}
    (h : Laid text pos (front ++ ⟨type, start, none⟩ :: back)) (hBack : ∀ s ∈ back, s.stop.isSome)
    (hDelimited : Delimited text type start (pos + 1)) :
    Laid text (pos + 1) (front ++ ⟨type, start, some (pos + 1)⟩ :: back) := by
  obtain ⟨hFront, hTail⟩ := List.forall_mem_append.1 h.placed
  obtain ⟨hThis, hBehind⟩ := List.forall_mem_cons.1 hTail
  obtain ⟨hFrontApart, hTailApart, hBoth⟩ := List.pairwise_append.1 h.apart
  obtain ⟨hThisApart, hBackApart⟩ := List.pairwise_cons.1 hTailApart
  constructor
  · refine List.forall_mem_append.2 ⟨fun a hMem => (hFront a hMem).mono (Nat.le_succ _),
      List.forall_mem_cons.2 ⟨?_, fun a hMem => (hBehind a hMem).mono (Nat.le_succ _)⟩⟩
    exact ⟨hThis.start_lt.trans (Nat.lt_succ_self _), fun e hMem => (Option.some.inj hMem).ge,
      fun e hMem => (Option.some.inj hMem) ▸ hDelimited, fun hNone => by cases hNone⟩
  · refine List.pairwise_append.2 ⟨hFrontApart, List.pairwise_cons.2 ⟨fun b hMem => ?_, hBackApart⟩,
      fun a hMem => List.forall_mem_cons.2 ⟨?_, fun b hLater => hBoth a hMem b
        (List.mem_cons_of_mem _ hLater)⟩⟩
    · refine ⟨(hThisApart b hMem).1, fun e hStop => .inr ?_⟩
      obtain rfl := Option.some.inj hStop
      obtain ⟨f, hClosed⟩ := Option.isSome_iff_exists.1 (hBack b hMem)
      exact ⟨f, hClosed, ((hBehind b hMem).stop_le f hClosed).trans (Nat.le_succ _)⟩
    · obtain ⟨hStart, hStop⟩ := hBoth a hMem _ List.mem_cons_self
      refine ⟨hStart, fun e hEnd => .inl ?_⟩
      obtain hBefore | ⟨f, hOpen, -⟩ := hStop e hEnd
      · exact hBefore
      · cases hOpen

/-- A turn keeps the tokens apart. -/
theorem JsmnInv.turn (h : JsmnInv num text p) (hTurn : JsmnTurn num text p q) (hValid : q.Valid) :
    JsmnInv num text { q with pos := q.pos + 1 } := by
  have hLength (r : JsmnParser) : r.spans.length = r.tokens.length := List.length_map _
  cases hTurn with
  | opens type hRoom hHolds hBegins hSpans hPos hCount =>
    have hMore := congrArg List.length hSpans
    rw [hLength, List.length_append, hLength, List.length_singleton] at hMore
    have hPlaced : Span.Placed text (p.pos + 1) ⟨type, p.pos, none⟩ :=
      ⟨Nat.lt_succ_self _, fun e hMem => (by cases hMem), fun e hMem => (by cases hMem),
        fun _ => hBegins⟩
    refine ⟨?_, hCount.trans (by rw [h.count, hMore]), ?_, hValid⟩
    · show Laid text (q.pos + 1) q.spans
      rw [hSpans, hPos]
      exact h.laid.append (Nat.le_refl _) (Nat.le_succ _) hPlaced
    · rw [hMore]
      omega
  | closes front back type start hFound hBack hEnds hSpans hPos hCount =>
    have hSame := congrArg List.length hSpans
    have hBefore := congrArg List.length hFound
    rw [hLength, List.length_append, List.length_cons] at hSame hBefore
    refine ⟨?_, hCount.trans (by rw [h.count, hBefore, hSame]), ?_, hValid⟩
    · show Laid text (q.pos + 1) q.spans
      have hLaid := h.laid
      rw [hFound] at hLaid
      have hThis := hLaid.placed _ (List.mem_append_right front List.mem_cons_self)
      rw [hSpans, hPos]
      refine hLaid.close hBack ?_
      have hStart := hThis.start_lt
      obtain ⟨rfl, hBrace⟩ | ⟨rfl, hBracket⟩ := hEnds
      · obtain ⟨-, hText⟩ | ⟨hType, -⟩ := hThis.begun rfl
        · exact ⟨Nat.succ_le_succ hStart, hText, hBrace⟩
        · cases hType
      · obtain ⟨hType, -⟩ | ⟨-, hText⟩ := hThis.begun rfl
        · cases hType
        · exact ⟨Nat.succ_le_succ hStart, hText, hBracket⟩
    · rw [hSame, ← hBefore]
      exact h.room
  | adds type start stop hRoom hDelimited hStart hSpans hPos hStop hInside hCount =>
    have hMore := congrArg List.length hSpans
    rw [hLength, List.length_append, hLength, List.length_singleton] at hMore
    refine ⟨?_, hCount.trans (by rw [h.count, hMore]), ?_, hValid⟩
    · show Laid text (q.pos + 1) q.spans
      rw [hSpans]
      exact h.laid.append hStart (hPos.trans (Nat.le_succ _))
        ⟨Nat.lt_succ_of_le hInside, fun e hMem => (Option.some.inj hMem) ▸ hStop,
          fun e hMem => (Option.some.inj hMem) ▸ hDelimited, fun hNone => by cases hNone⟩
    · rw [hMore]
      omega
  | moves hSpans hPos hCount =>
    have hSame := congrArg List.length hSpans
    rw [hLength, hLength] at hSame
    refine ⟨?_, hCount.trans (by rw [h.count, hSame]), ?_, hValid⟩
    · show Laid text (q.pos + 1) q.spans
      rw [hSpans, hPos]
      exact h.laid.mono (Nat.le_succ _)
    · rw [hSame]
      exact h.room

theorem JsmnTurn.pos_le (h : JsmnTurn num text p q) : p.pos ≤ q.pos := by
  cases h with
  | opens _ _ _ _ _ hPos => exact hPos.ge
  | closes _ _ _ _ _ _ _ _ hPos => exact hPos.ge
  | adds _ _ _ _ _ _ _ hPos => exact hPos
  | moves _ hPos => exact hPos.ge

/-- The loop keeps the tokens apart. -/
theorem jsmnLoop_inv {fuel : Nat} (h : JsmnInv num text p)
    (hLoop : jsmnLoop num text fuel p = some (.ok q)) : JsmnInv num text q := by
  induction fuel generalizing p with
  | zero => cases hLoop
  | succ fuel ih =>
    rw [jsmnLoop] at hLoop
    cases hCurrent : current text p.pos with
    | none =>
      rw [hCurrent] at hLoop
      obtain rfl := Except.ok.inj (Option.some.inj hLoop)
      exact h
    | some c =>
      rw [hCurrent] at hLoop
      dsimp only at hLoop
      cases hStep : jsmnStep num text c p with
      | error e =>
        rw [hStep] at hLoop
        cases hLoop
      | ok r =>
        rw [hStep] at hLoop
        obtain ⟨hTurn, hValid⟩ := jsmnStep_turn h.valid hCurrent hStep
        exact ih (h.turn hTurn hValid) hLoop

/-- Every turn passes a byte, so the loop ends. -/
theorem jsmnLoop_isSome {fuel : Nat} (h : p.Valid) (hFuel : text.length - p.pos < fuel) :
    (jsmnLoop num text fuel p).isSome := by
  induction fuel generalizing p with
  | zero => exact absurd hFuel (Nat.not_lt_zero _)
  | succ fuel ih =>
    rw [jsmnLoop]
    cases hCurrent : current text p.pos with
    | none => rfl
    | some c =>
      dsimp only
      cases hStep : jsmnStep num text c p with
      | error e => rfl
      | ok q =>
        obtain ⟨hTurn, hValid⟩ := jsmnStep_turn h hCurrent hStep
        obtain ⟨hText, -⟩ := Option.filter_eq_some_iff.1 hCurrent
        obtain ⟨hInside, -⟩ := List.getElem?_eq_some_iff.1 hText
        have hPos := hTurn.pos_le
        refine ih hValid ?_
        dsimp only
        omega

theorem validInit : jsmnInit.Valid := fun i hMem => by cases hMem

theorem invInit (num : Nat) (text : Bytes) : JsmnInv num text jsmnInit where
  laid := ⟨List.forall_mem_nil _, List.Pairwise.nil⟩
  count := rfl
  room := le_max_left _ _
  valid := validInit

/-- There is a result for every text. -/
theorem jsmnParse_returns (js : Bytes) (num : Nat) : ∃ r, jsmnParse js num = some r := by
  have hFuel : (js.take (toInt32 js.length).toNat).length - jsmnInit.pos < js.length + 1 := by
    rw [List.length_take]
    exact Nat.lt_succ_of_le ((Nat.sub_le _ _).trans (Nat.min_le_right _ _))
  have hSome : (jsmnLoop num _ _ jsmnInit).isSome := jsmnLoop_isSome validInit hFuel
  obtain ⟨r, hLoop⟩ := Option.isSome_iff_exists.1 hSome
  exact ⟨_, by rw [jsmnParse, hLoop]; rfl⟩

theorem Delimited.of_take {js : Bytes} {m start stop : Nat} {type : TokenType}
    (h : Delimited (js.take m) type start stop) : Delimited js type start stop := by
  have hGet {i : Nat} {c : UInt8} (hThere : (js.take m)[i]? = some c) : js[i]? = some c := by
    rw [List.getElem?_take] at hThere
    split_ifs at hThere
    exact hThere
  cases type with
  | object => exact ⟨h.1, hGet h.2.1, hGet h.2.2⟩
  | array => exact ⟨h.1, hGet h.2.1, hGet h.2.2⟩
  | string => exact ⟨h.1, h.2.1, hGet h.2.2.1, hGet h.2.2.2⟩
  | primitive =>
    obtain ⟨hStart, hStop, hPlain⟩ := h
    rw [List.length_take] at hStop
    rw [List.drop_take, List.take_take, Nat.min_eq_left (by omega)] at hPlain
    exact ⟨hStart, hStop.trans (Nat.min_le_right _ _), hPlain⟩

/-- **The tokens of a text** that is accepted: all of them have ends, which are those of strings,
of brackets or of words, and they do not cross. -/
theorem jsmnParse_nested {js : Bytes} {num n : Nat} {ts : List JsmnTok}
    (h : jsmnParse js num = some (.ok (n, ts))) :
    n = ts.length ∧ (n : Int) ≤ max 0 (toInt32 num) ∧
      (∀ t ∈ ts, ∃ e ∈ t.stop, Delimited js t.type t.start e) ∧
        (ts.map JsmnTok.span).Pairwise Span.Apart := by
  obtain ⟨r, hLoop, hResult⟩ := Option.map_eq_some_iff.1 h
  obtain ⟨p, rfl, hEnd⟩ := bind_ok_iff.1 hResult
  split_ifs at hEnd with hOpen
  obtain ⟨rfl, rfl⟩ := Prod.mk.inj (Except.ok.inj hEnd)
  have hInv := jsmnLoop_inv (invInit num _) hLoop
  refine ⟨hInv.count, hInv.count ▸ hInv.room, fun t hMem => ?_, hInv.laid.apart⟩
  have hClosed : t.stop ≠ none := by
    intro hNone
    exact hOpen (List.any_eq_true.2 ⟨t, hMem, Option.isNone_iff_eq_none.2 hNone⟩)
  obtain ⟨e, hStop⟩ := Option.ne_none_iff_exists'.1 hClosed
  have hPlaced := hInv.laid.placed _ (List.mem_map_of_mem hMem)
  exact ⟨e, hStop, (hPlaced.delimited e hStop).of_take⟩

/-- `a:b,[c] d` -/
def unquoted : Bytes := [0x61, 0x3A, 0x62, 0x2C, 0x5B, 0x63, 0x5D, 0x20, 0x64]

def unquotedTokens : List JsmnTok :=
  [⟨.primitive, 0, some 1, 2⟩, ⟨.primitive, 2, some 3, 0⟩, ⟨.array, 4, some 7, 1⟩,
    ⟨.primitive, 5, some 6, 0⟩, ⟨.primitive, 8, some 9, 0⟩]

theorem unquoted_nested : 5 = unquotedTokens.length ∧ ((5 : Nat) : Int) ≤ max 0 (toInt32 30) ∧
    (∀ t ∈ unquotedTokens, ∃ e ∈ t.stop, Delimited unquoted t.type t.start e) ∧
      (unquotedTokens.map JsmnTok.span).Pairwise Span.Apart :=
  jsmnParse_nested (by decide)

end EveryText

end EspMiplay.Lyrics
