import EspMiplay.Lyrics.Jsmn

/-!
# The tokens of JSON

What `jsmn_parse` makes of a text of JSON: the tokens that `Json.Document.tokens` lists, if the
array has room for all of them.

A value is read from any state whose `toksuper` is its parent. The proof is along the value; in an
array and in an object it is the container itself that is open last, so the comma and the closing
bracket find it again.

## Results

* `Value.goes`         — a value, from any state.
* `jsmnParse_document` — a whole text.
-/

namespace EspMiplay.Lyrics

open EspMiplay.Miplay
open Json (Token TokenType Value Items Members Blanks Piece)

-- ---------------------------------------------------------------------------
-- Turns in a row
-- ---------------------------------------------------------------------------

/-- Some turns lead from the one state to the other. -/
def Comes (num : Nat) (text : Bytes) (p q : JsmnParser) : Prop :=
  ∃ n, ∀ fuel, jsmnLoop num text (fuel + n) p = jsmnLoop num text fuel q

def Fails (num : Nat) (text : Bytes) (p : JsmnParser) : Prop :=
  ∃ n, ∀ fuel, jsmnLoop num text (fuel + n) p = some (.error .nomem)

/-- What happens if there is room, and if there is not -/
structure Goes (num : Nat) (text : Bytes) (p : JsmnParser) (room : Prop) (q : JsmnParser) :
    Prop where
  comes : room → Comes num text p q
  fails : ¬room → Fails num text p

section Rows

variable {num : Nat} {text : Bytes} {p q r : JsmnParser} {A B C : Prop} {c : UInt8} {rest : Bytes}

theorem Comes.refl (p : JsmnParser) : Comes num text p p := ⟨0, fun _ => rfl⟩

theorem Comes.trans (h : Comes num text p q) (h' : Comes num text q r) : Comes num text p r := by
  obtain ⟨n, hn⟩ := h
  obtain ⟨m, hm⟩ := h'
  exact ⟨m + n, fun fuel => by rw [← Nat.add_assoc, hn, hm]⟩

theorem Comes.fails (h : Comes num text p q) (h' : Fails num text q) : Fails num text p := by
  obtain ⟨n, hn⟩ := h
  obtain ⟨m, hm⟩ := h'
  exact ⟨m + n, fun fuel => by rw [← Nat.add_assoc, hn, hm]⟩

theorem Comes.ends (h : Comes num text p q) (hEnd : current text q.pos = none) :
    ∃ m, jsmnLoop num text m p = some (.ok q) := by
  obtain ⟨n, hn⟩ := h
  exact ⟨1 + n, by rw [hn 1, jsmnLoop, hEnd]⟩

theorem Goes.after (h : Comes num text p q) (h' : Goes num text q A r) : Goes num text p A r where
  comes hRoom := h.trans (h'.comes hRoom)
  fails hFull := h.fails (h'.fails hFull)

theorem Goes.trans (h : Goes num text p A q) (h' : A → Goes num text q B r) (hBoth : C ↔ A ∧ B) :
    Goes num text p C r where
  comes hRoom := by
    obtain ⟨hA, hB⟩ := hBoth.1 hRoom
    exact (h.comes hA).trans ((h' hA).comes hB)
  fails hFull := by
    by_cases hA : A
    · exact (h.comes hA).fails ((h' hA).fails fun hB => hFull (hBoth.2 ⟨hA, hB⟩))
    · exact h.fails hA

theorem Goes.before (h : Goes num text p A q) (h' : A → Comes num text q r) :
    Goes num text p A r where
  comes hRoom := (h.comes hRoom).trans (h' hRoom)
  fails := h.fails

theorem current_eq (hText : text.drop p.pos = c :: rest) (hNul : c ≠ 0) :
    current text p.pos = some c := by
  have hThere : text[p.pos]? = some c := by
    have hGet := congrArg (·[0]?) hText
    simpa using hGet
  rw [current, hThere, Option.filter_some, if_pos (decide_eq_true hNul)]

theorem comes_step (hText : text.drop p.pos = c :: rest) (hNul : c ≠ 0)
    (hStep : jsmnStep num text c p = .ok q) : Comes num text p { q with pos := q.pos + 1 } := by
  refine ⟨1, fun fuel => ?_⟩
  rw [jsmnLoop, current_eq hText hNul]
  dsimp only
  rw [hStep]

theorem fails_step (hText : text.drop p.pos = c :: rest) (hNul : c ≠ 0)
    (hStep : jsmnStep num text c p = .error .nomem) : Fails num text p := by
  refine ⟨1, fun fuel => ?_⟩
  rw [jsmnLoop, current_eq hText hNul]
  dsimp only
  rw [hStep]

theorem drop_add {n m : Nat} {w post : Bytes} (h : text.drop n = w ++ post)
    (hm : m = n + w.length) : text.drop m = post := by
  rw [hm, ← List.drop_drop, h, List.drop_left]

theorem comes_blanks (bs : Blanks) {tokens : List JsmnTok} {super : Option Nat} {pos count : Nat}
    {post : Bytes} (hText : text.drop pos = bs.bytes ++ post) :
    Comes num text ⟨pos, tokens, super, count⟩ ⟨pos + bs.bytes.length, tokens, super, count⟩ := by
  obtain ⟨bs, hBlank⟩ := bs
  dsimp only at hText ⊢
  induction bs generalizing pos with
  | nil => exact Comes.refl _
  | cons b bs ih =>
    obtain ⟨hFirst, hRest⟩ := List.forall_mem_cons.1 hBlank
    have hStep (p : JsmnParser) : b ≠ 0 ∧ jsmnStep num text b p = .ok p := by
      rw [Json.blank, decide_eq_true_eq] at hFirst
      obtain rfl | rfl | rfl | rfl := hFirst
      all_goals exact ⟨by decide, rfl⟩
    have hBehind : text.drop (pos + 1) = bs ++ post := drop_add (w := [b]) hText rfl
    have hOne := comes_step (p := ⟨pos, tokens, super, count⟩) hText (hStep jsmnInit).1 (hStep _).2
    rw [List.length_cons, Nat.add_comm bs.length, ← Nat.add_assoc]
    exact hOne.trans (ih hRest hBehind)

end Rows

-- ---------------------------------------------------------------------------
-- Strings and words
-- ---------------------------------------------------------------------------

def ofToken (t : Token) : JsmnTok := ⟨t.type, t.start, some t.stop, t.size⟩

/-- What may follow a word -/
def Ends (post : Bytes) : Prop := ∀ c ∈ post.head?, endsPrimitive c

/-- The state behind a value without children -/
def JsmnParser.added (p : JsmnParser) (t : Token) (pos : Nat) : JsmnParser :=
  ⟨pos, p.grow.tokens ++ [ofToken t], p.toksuper, p.count + 1⟩

section Scalars

variable {num : Nat} {text : Bytes} {p : JsmnParser} {post : Bytes} {pos : Nat}

theorem isHexDigit_of {v : Nat} {b : UInt8} (h : Json.HexDigit v b) :
    b ≠ 0 ∧ isHexDigit b = true := by
  refine ⟨h.plain.1, ?_⟩
  simp only [Json.HexDigit] at h
  simp only [isHexDigit, decide_eq_true_eq, UInt8.le_iff_toNat_le, UInt8.reduceToNat]
  omega

theorem stringStop_digit {more : Nat} {b : UInt8} {w : Bytes}
    (h : b ≠ 0 ∧ isHexDigit b = true) :
    stringStop (.digits more) (b :: w) pos =
      stringStop (if more = 0 then .plain else .digits (more - 1)) w (pos + 1) := by
  rw [stringStop, if_neg h.1, if_pos h.2]

theorem stringStop_slash (w : Bytes) (pos : Nat) :
    stringStop .plain (0x5C :: w) pos = stringStop .slash w (pos + 1) := by
  rw [stringStop, if_neg (by decide), if_neg (by decide), if_pos rfl]

theorem stringStop_piece (x : Piece) (w : Bytes) (pos : Nat) :
    stringStop .plain (x.bytes ++ w) pos = stringStop .plain w (pos + x.bytes.length) := by
  cases x with
  | plain b h =>
    obtain ⟨hControl, hQuote, hSlash⟩ := h
    have hNul : b ≠ 0 := by
      rintro rfl
      exact absurd hControl (by decide)
    rw [Piece.bytes, List.singleton_append, stringStop, if_neg hNul, if_neg hQuote, if_neg hSlash]
    rfl
  | short letter h =>
    have hEscape : isEscape letter = true := by
      revert h
      simp only [Json.shortEscapes, List.map_cons, List.map_nil, List.mem_cons, List.not_mem_nil,
        or_false]
      rintro (rfl | rfl | rfl | rfl | rfl | rfl | rfl | rfl)
      all_goals rfl
    rw [Piece.bytes, List.cons_append, List.singleton_append, stringStop_slash, stringStop,
      if_pos hEscape]
    rfl
  | unicode n ds h =>
    rw [Piece.bytes]
    obtain ⟨a, b, c, d, a', b', c', d', rfl, hA, hB, hC, hD, -⟩ := h
    simp only [List.cons_append, List.nil_append, List.length_cons, List.length_nil]
    rw [stringStop_slash, stringStop, if_neg (by decide), if_pos rfl,
      stringStop_digit (isHexDigit_of hA), if_neg (by decide), stringStop_digit (isHexDigit_of hB),
      if_neg (by decide), stringStop_digit (isHexDigit_of hC), if_neg (by decide),
      stringStop_digit (isHexDigit_of hD), if_pos rfl]

theorem stringStop_spelling (s : List Piece) (pos : Nat) :
    stringStop .plain (Json.spelling s ++ 0x22 :: post) pos =
      .ok (pos + (Json.spelling s).length) := by
  induction s generalizing pos with
  | nil =>
    show stringStop .plain (0x22 :: post) pos = _
    rw [stringStop, if_neg (by decide), if_pos rfl]
    rfl
  | cons x s ih =>
    rw [Json.spelling, List.flatMap_cons, List.append_assoc, stringStop_piece, ← Json.spelling, ih,
      List.length_append, Nat.add_assoc]

theorem primitiveStop_word (hPost : Ends post) {w : Bytes} (hWord : ∀ b ∈ w, Json.wordByte b)
    (pos : Nat) : primitiveStop (w ++ post) pos = .ok (pos + w.length) := by
  induction w generalizing pos with
  | nil =>
    cases post with
    | nil => rfl
    | cons c post =>
      rw [List.nil_append, primitiveStop, if_pos (.inr (hPost c rfl))]
      rfl
  | cons b w ih =>
    obtain ⟨hFirst, hRest⟩ := List.forall_mem_cons.1 hWord
    have hPlain : ¬(b = 0 ∨ endsPrimitive b = true) ∧ ¬(b < 32 ∨ 127 ≤ b) := by
      simp only [Json.wordByte, decide_eq_true_eq, UInt8.le_iff_toNat_le, ← UInt8.toNat_inj,
        UInt8.reduceToNat] at hFirst
      simp only [endsPrimitive, decide_eq_true_eq, UInt8.le_iff_toNat_le, UInt8.lt_iff_toNat_lt,
        ← UInt8.toNat_inj, UInt8.reduceToNat]
      omega
    rw [List.cons_append, primitiveStop, if_neg hPlain.1, if_neg hPlain.2, ih hRest,
      List.length_cons, Nat.add_right_comm, Nat.add_assoc]

theorem modify_append {i : Nat} (f : JsmnTok → JsmnTok) (front back : List JsmnTok)
    (h : i < front.length) : (front ++ back).modify i f = front.modify i f ++ back := by
  induction front generalizing i with
  | nil => exact absurd h (Nat.not_lt_zero _)
  | cons a front ih =>
    cases i with
    | zero => rfl
    | succ i =>
      rw [List.cons_append, List.modify_succ_cons, List.modify_succ_cons, List.cons_append,
        ih (Nat.lt_of_succ_lt_succ h)]

/-- A new token leaves its parent where it is. -/
theorem grow_append (hValid : p.Valid) (t : JsmnTok) (pos count : Nat) :
    (JsmnParser.grow ⟨pos, p.tokens ++ [t], p.toksuper, count⟩).tokens = p.grow.tokens ++ [t] := by
  rw [JsmnParser.grow, JsmnParser.grow]
  cases hSuper : p.toksuper with
  | none => rfl
  | some i => exact modify_append _ _ _ (hValid i hSuper)

theorem alloc_room (hNum : num < 2147483648) (t : JsmnTok) :
    p.alloc num t = if p.tokens.length < num then .ok { p with tokens := p.tokens ++ [t] }
      else .error .nomem := by
  have hSame : toInt32 num = num := by
    rw [toInt32]
    omega
  rw [JsmnParser.alloc, hSame]
  by_cases hRoom : p.tokens.length < num
  · rw [if_pos hRoom, if_neg (by omega)]
  · rw [if_neg hRoom, if_pos (by omega)]

theorem bind_return {α β : Type} (m : Except JsmnErr α) (f : α → β) :
    (m >>= fun a => pure (f a)) = m.map f := by
  cases m with
  | error e => rfl
  | ok a => rfl

theorem ok_bind {α β : Type} (a : α) (f : α → Except JsmnErr β) : (.ok a >>= f) = f a := rfl

/-- A turn that adds a token if there is room -/
theorem goes_added (hNum : num < 2147483648) (hValid : p.Valid) {c : UInt8} {rest : Bytes}
    {t : Token} {n : Nat} (hText : text.drop p.pos = c :: rest) (hNul : c ≠ 0)
    (hStep : jsmnStep num text c p =
      ((p.alloc num (ofToken t)).map fun q => { q with pos := n }).map fun q =>
        { q with count := q.count + 1 }.grow) :
    Goes num text p (p.tokens.length < num) (p.added t (n + 1)) := by
  rw [alloc_room hNum] at hStep
  constructor
  · intro hRoom
    rw [if_pos hRoom] at hStep
    have hComes := comes_step hText hNul hStep
    have hAdded : p.added t (n + 1) = { JsmnParser.grow ⟨n, p.tokens ++ [ofToken t], p.toksuper,
        p.count + 1⟩ with pos := n + 1 } := by
      rw [JsmnParser.added, ← grow_append hValid (ofToken t) n (p.count + 1)]
      rfl
    rw [hAdded]
    exact hComes
  · intro hFull
    rw [if_neg hFull] at hStep
    exact fails_step hText hNul hStep

/-- A string, from its opening quote on -/
theorem goes_string (hNum : num < 2147483648) (hValid : p.Valid) (s : List Piece)
    (hText : text.drop p.pos = Json.quoted s ++ post) :
    Goes num text p (p.tokens.length < num)
      (p.added (Json.stringToken p.pos s 0) (p.pos + (Json.quoted s).length)) := by
  have hInside : text.drop p.pos = 0x22 :: (Json.spelling s ++ 0x22 :: post) := by
    rw [hText, Json.quoted, List.cons_append, List.append_assoc]
    rfl
  have hBehind : text.drop (p.pos + 1) = Json.spelling s ++ 0x22 :: post :=
    drop_add (w := [0x22]) hInside rfl
  have hParse : jsmnParseString num text p =
      (p.alloc num (ofToken (Json.stringToken p.pos s 0))).map
        fun q => { q with pos := p.pos + 1 + (Json.spelling s).length } := by
    rw [jsmnParseString, hBehind, stringStop_spelling, ok_bind]
    exact bind_return _ _
  have hEnd : p.pos + (Json.quoted s).length = p.pos + 1 + (Json.spelling s).length + 1 := by
    rw [Json.length_quoted]
    omega
  rw [hEnd]
  refine goes_added hNum hValid hInside (by decide) ?_
  rw [jsmnStep, if_neg (by decide), if_neg (by decide), if_neg (by decide), if_neg (by decide),
    if_pos rfl, hParse]
  exact bind_return _ _

/-- The bytes of words begin no other turn. -/
theorem jsmnStep_word {b : UInt8} (h : Json.wordByte b) :
    b ≠ 0 ∧ jsmnStep num text b p = (jsmnParsePrimitive num text p).map fun q =>
      { q with count := q.count + 1 }.grow := by
  rw [Json.wordByte, decide_eq_true_eq] at h
  simp only [UInt8.le_iff_toNat_le, ← UInt8.toNat_inj, UInt8.reduceToNat] at h
  have hOther {n : UInt8} (hn : n.toNat ∉ [0x2B, 0x2D, 0x2E, 0x45] ∧
      ¬(48 ≤ n.toNat ∧ n.toNat ≤ 57) ∧ ¬(97 ≤ n.toNat ∧ n.toNat ≤ 122)) : b ≠ n := by
    rintro rfl
    simp only [List.mem_cons, List.not_mem_nil, or_false] at hn
    omega
  refine ⟨hOther (by decide), ?_⟩
  rw [jsmnStep, if_neg (hOther (by decide)), if_neg (hOther (by decide)),
    if_neg (hOther (by decide)), if_neg (hOther (by decide)), if_neg (hOther (by decide)), if_neg,
    if_neg (hOther (by decide)), if_neg (hOther (by decide))]
  · exact bind_return _ _
  · rintro (hTab | hReturn | hLine | hSpace)
    exacts [hOther (by decide) hTab, hOther (by decide) hReturn, hOther (by decide) hLine,
      hOther (by decide) hSpace]

theorem goes_word (hNum : num < 2147483648) (hValid : p.Valid) (w : Json.Word) (hPost : Ends post)
    (hText : text.drop p.pos = w.bytes ++ post) :
    Goes num text p (p.tokens.length < num)
      (p.added ⟨.primitive, p.pos, p.pos + w.bytes.length, 0⟩ (p.pos + w.bytes.length)) := by
  have hParse : jsmnParsePrimitive num text p =
      (p.alloc num (ofToken ⟨.primitive, p.pos, p.pos + w.bytes.length, 0⟩)).map
        fun q => { q with pos := p.pos + w.bytes.length - 1 } := by
    rw [jsmnParsePrimitive, hText, primitiveStop_word hPost w.chars, ok_bind]
    exact bind_return _ _
  have hLength := List.length_pos_of_ne_nil w.nonempty
  have hEnd : p.pos + w.bytes.length = p.pos + w.bytes.length - 1 + 1 := by omega
  obtain ⟨b, rest, hWord⟩ := List.exists_cons_of_ne_nil w.nonempty
  obtain ⟨hNul, hStep⟩ := jsmnStep_word (p := p)
    (w.chars b (hWord ▸ List.mem_cons_self))
  rw [hParse] at hStep
  rw [hWord, List.cons_append] at hText
  have hGoes := goes_added hNum hValid hText hNul hStep
  rwa [← hEnd] at hGoes

end Scalars

-- ---------------------------------------------------------------------------
-- Containers
-- ---------------------------------------------------------------------------

/-- The state behind a value. Behind a container `toksuper` is the one around it. -/
def JsmnParser.past (p : JsmnParser) (v : Value) : JsmnParser where
  pos := p.pos + v.bytes.length
  tokens := p.grow.tokens ++ (v.tokens p.pos).map ofToken
  toksuper :=
    match v with
    | .word _ => p.toksuper
    | .string _ => p.toksuper
    | .array _ _ => lastIndex JsmnTok.open p.grow.tokens
    | .object _ _ => lastIndex JsmnTok.open p.grow.tokens
  count := p.count + v.count

section Containers

variable {num : Nat} {text : Bytes} {p : JsmnParser} {rest post : Bytes} {type : TokenType}
  {front done : List JsmnTok} {pos start size count : Nat} {super : Option Nat}

theorem jsmnOpen_eq (hNum : num < 2147483648) (hValid : p.Valid) :
    jsmnOpen num type p = if p.tokens.length < num then
        .ok ⟨p.pos, p.grow.tokens ++ [⟨type, p.pos, none, 0⟩], some p.tokens.length, p.count + 1⟩
      else .error .nomem := by
  rw [jsmnOpen, alloc_room hNum]
  by_cases hRoom : p.tokens.length < num
  · rw [if_pos hRoom, if_pos hRoom, ok_bind,
      ← grow_append hValid ⟨type, p.pos, none, 0⟩ p.pos (p.count + 1)]
    rfl
  · rw [if_neg hRoom, if_neg hRoom]
    rfl

/-- An opening bracket -/
theorem goes_open (hNum : num < 2147483648) (hValid : p.Valid) {c : UInt8}
    (hType : type = .object ∧ c = 0x7B ∨ type = .array ∧ c = 0x5B)
    (hText : text.drop p.pos = c :: rest) :
    Goes num text p (p.tokens.length < num)
      ⟨p.pos + 1, p.grow.tokens ++ [⟨type, p.pos, none, 0⟩], some p.tokens.length,
        p.count + 1⟩ := by
  have hStep : c ≠ 0 ∧ jsmnStep num text c p = jsmnOpen num type p := by
    obtain ⟨rfl, rfl⟩ | ⟨rfl, rfl⟩ := hType
    · exact ⟨by decide, rfl⟩
    · exact ⟨by decide, rfl⟩
  rw [jsmnOpen_eq hNum hValid] at hStep
  obtain ⟨hNul, hStep⟩ := hStep
  constructor
  · intro hRoom
    rw [if_pos hRoom] at hStep
    exact comes_step hText hNul hStep
  · intro hFull
    rw [if_neg hFull] at hStep
    exact fails_step hText hNul hStep

/-- A closing bracket -/
theorem comes_close {c : UInt8} (hType : type = .object ∧ c = 0x7D ∨ type = .array ∧ c = 0x5D)
    (hClosed : ∀ t ∈ done, t.open = false) (hText : text.drop pos = c :: rest) :
    Comes num text ⟨pos, front ++ ⟨type, start, none, size⟩ :: done, super, count⟩
      ⟨pos + 1, front ++ ⟨type, start, some (pos + 1), size⟩ :: done,
        lastIndex JsmnTok.open front, count⟩ := by
  have hClose : jsmnClose type ⟨pos, front ++ ⟨type, start, none, size⟩ :: done, super, count⟩ =
      .ok ⟨pos, front ++ ⟨type, start, some (pos + 1), size⟩ :: done,
        lastIndex JsmnTok.open front, count⟩ := by
    have hThere : (front ++ (⟨type, start, none, size⟩ : JsmnTok) :: done)[front.length]? =
        some ⟨type, start, none, size⟩ := by
      rw [List.getElem?_append_right (Nat.le_refl _), Nat.sub_self]
      rfl
    rw [jsmnClose]
    dsimp only
    rw [lastIndex_split rfl hClosed]
    dsimp only
    rw [hThere, modify_split, List.take_left, if_neg (by simp)]
  obtain ⟨rfl, rfl⟩ | ⟨rfl, rfl⟩ := hType
  · exact comes_step (p := ⟨pos, _, super, count⟩) hText (by decide) hClose
  · exact comes_step (p := ⟨pos, _, super, count⟩) hText (by decide) hClose

/-- A comma, behind an element of the container that is open last -/
theorem comes_comma (hHolds : type.holds = true) (hClosed : ∀ t ∈ done, t.open = false)
    (hSuper : super = some front.length ∨ ∃ t, super.bind ((front ++
      ⟨type, start, none, size⟩ :: done)[·]?) = some t ∧ t.type.holds = false)
    (hText : text.drop pos = 0x2C :: rest) :
    Comes num text ⟨pos, front ++ ⟨type, start, none, size⟩ :: done, super, count⟩
      ⟨pos + 1, front ++ ⟨type, start, none, size⟩ :: done, some front.length, count⟩ := by
  have hComma : jsmnComma ⟨pos, front ++ ⟨type, start, none, size⟩ :: done, super, count⟩ =
      ⟨pos, front ++ ⟨type, start, none, size⟩ :: done, some front.length, count⟩ := by
    rw [jsmnComma]
    dsimp only
    obtain rfl | ⟨t, hKey, hOther⟩ := hSuper
    · rw [Option.bind_some, List.getElem?_append_right (Nat.le_refl _), Nat.sub_self,
        List.getElem?_cons_zero, Option.any_some, hHolds]
      rfl
    · rw [hKey, Option.any_some, hOther, lastIndex_split]
      · rfl
      · rw [hHolds]
        rfl
      · intro b hMem
        rw [hClosed b hMem, Bool.and_false]
  have hStep : jsmnStep num text 0x2C ⟨pos, front ++ ⟨type, start, none, size⟩ :: done, super,
      count⟩ = .ok _ := congrArg Except.ok hComma
  exact comes_step (p := ⟨pos, _, super, count⟩) hText (by decide) hStep

theorem comes_colon (t : JsmnTok) (hText : text.drop pos = 0x3A :: rest) :
    Comes num text ⟨pos, front ++ [t], super, count⟩
      ⟨pos + 1, front ++ [t], some front.length, count⟩ := by
  have hStep : jsmnStep num text 0x3A ⟨pos, front ++ [t], super, count⟩ =
      .ok ⟨pos, front ++ [t], some front.length, count⟩ := by
    have hLast : lastIndex (fun _ => true) (front ++ [t]) = some front.length :=
      lastIndex_split rfl (List.forall_mem_nil _)
    rw [← hLast]
    rfl
  exact comes_step (p := ⟨pos, _, super, count⟩) hText (by decide) hStep

end Containers

-- ---------------------------------------------------------------------------
-- Values
-- ---------------------------------------------------------------------------

section Values

variable {num : Nat} {text : Bytes} {p : JsmnParser} {post : Bytes} {front done : List JsmnTok}
  {pos start size count : Nat}

theorem open_ofToken (ts : List Token) : ∀ t ∈ ts.map ofToken, t.open = false :=
  List.forall_mem_map.2 fun _ _ => rfl

/-- The growth of the container that is open last -/
theorem grow_container (t : JsmnTok) :
    (JsmnParser.grow ⟨pos, front ++ t :: done, some front.length, count⟩).tokens =
      front ++ { t with size := t.size + 1 } :: done :=
  modify_split _ front done t

theorem valid_container (t : JsmnTok) :
    JsmnParser.Valid ⟨pos, front ++ t :: done, some front.length, count⟩ := by
  rintro i hSuper
  obtain rfl := Option.some.inj hSuper
  rw [List.length_append, List.length_cons]
  omega

theorem ends_blanks (bs : Blanks) (hPost : Ends post) : Ends (bs.bytes ++ post) := by
  obtain ⟨bs, hBlank⟩ := bs
  cases bs with
  | nil => exact hPost
  | cons b bs =>
    rintro d hMem
    obtain rfl := Option.some.inj hMem
    have hFirst := hBlank b List.mem_cons_self
    rw [Json.blank, decide_eq_true_eq] at hFirst
    obtain rfl | rfl | rfl | rfl := hFirst
    all_goals rfl

/-- `toksuper` behind an element of the container that is open last: the container, or a key -/
def Around (front : List JsmnTok) (t : JsmnTok) (done : List JsmnTok) (super : Option Nat) : Prop :=
  super = some front.length ∨
    ∃ key, super.bind ((front ++ t :: done)[·]?) = some key ∧ key.type.holds = false

/-- Behind a value in an array that is open last -/
theorem past_item (v : Value) (hClosed : ∀ t ∈ done, t.open = false) :
    JsmnParser.past ⟨pos, front ++ ⟨.array, start, none, size⟩ :: done, some front.length, count⟩
      v =
      ⟨pos + v.bytes.length, front ++ ⟨.array, start, none, size + 1⟩ ::
        (done ++ (v.tokens pos).map ofToken), some front.length, count + v.count⟩ := by
  have hSuper : lastIndex JsmnTok.open
      (front ++ (⟨.array, start, none, size + 1⟩ : JsmnTok) :: done) = some front.length :=
    lastIndex_split rfl hClosed
  cases v with
  | _ => simp only [JsmnParser.past, grow_container, hSuper, List.append_assoc, List.cons_append]

/-- Behind the value of a key, which is the child of the key -/
theorem past_key (front : List JsmnTok) (obj : JsmnTok) (pos count keyPos : Nat) (v : Value)
    (hOpen : obj.open = true) (hClosed : ∀ t ∈ done, t.open = false) (key : List Piece) :
    ∃ super, Around front obj (done ++ ofToken (Json.stringToken keyPos key 1) ::
        (v.tokens pos).map ofToken) super ∧
      JsmnParser.past ⟨pos, (front ++ obj :: done) ++ [ofToken (Json.stringToken keyPos key 0)],
          some (front ++ obj :: done).length, count⟩ v =
        ⟨pos + v.bytes.length, front ++ obj :: (done ++ ofToken (Json.stringToken keyPos key 1) ::
          (v.tokens pos).map ofToken), super, count + v.count⟩ := by
  have hList : front ++ obj :: (done ++ ofToken (Json.stringToken keyPos key 1) ::
      (v.tokens pos).map ofToken) = (front ++ obj :: done) ++
        ofToken (Json.stringToken keyPos key 1) :: (v.tokens pos).map ofToken := by
    rw [List.append_assoc, List.cons_append]
  have hKey : Around front obj (done ++ ofToken (Json.stringToken keyPos key 1) ::
      (v.tokens pos).map ofToken) (some (front ++ obj :: done).length) := by
    refine .inr ⟨ofToken (Json.stringToken keyPos key 1), ?_, rfl⟩
    rw [hList, Option.bind_some, List.getElem?_append_right (Nat.le_refl _), Nat.sub_self]
    rfl
  have hObject : lastIndex JsmnTok.open ((front ++ obj :: done) ++
      [ofToken (Json.stringToken keyPos key 1)]) = some front.length := by
    rw [lastIndex_append (List.forall_mem_singleton.2 rfl), lastIndex_split hOpen hClosed]
  have hTokens : (JsmnParser.grow ⟨pos, (front ++ obj :: done) ++
      [ofToken (Json.stringToken keyPos key 0)], some (front ++ obj :: done).length,
        count⟩).tokens = (front ++ obj :: done) ++ [ofToken (Json.stringToken keyPos key 1)] :=
    grow_container (ofToken (Json.stringToken keyPos key 0))
  have hAll (super : Option Nat) : (⟨pos + v.bytes.length, (front ++ obj :: done) ++
      [ofToken (Json.stringToken keyPos key 1)] ++ (v.tokens pos).map ofToken, super,
        count + v.count⟩ : JsmnParser) = ⟨pos + v.bytes.length, front ++ obj :: (done ++
          ofToken (Json.stringToken keyPos key 1) :: (v.tokens pos).map ofToken), super,
            count + v.count⟩ := by
    rw [hList, List.append_assoc (front ++ obj :: done), List.singleton_append]
  cases v with
  | word w =>
    rw [JsmnParser.past, hTokens]
    exact ⟨_, hKey, hAll _⟩
  | string s =>
    rw [JsmnParser.past, hTokens]
    exact ⟨_, hKey, hAll _⟩
  | array pad items =>
    rw [JsmnParser.past, hTokens]
    dsimp only
    rw [hObject]
    exact ⟨_, .inl rfl, hAll _⟩
  | object pad members =>
    rw [JsmnParser.past, hTokens]
    dsimp only
    rw [hObject]
    exact ⟨_, .inl rfl, hAll _⟩

/-- Behind an element: more of them behind a comma, or the bracket -/
theorem goes_more {type : TokenType} {super : Option Nat} {bytes : Bytes} {more grown : Nat}
    {ts : List JsmnTok} (hHolds : type.holds = true) (hClosed : ∀ t ∈ done, t.open = false)
    (hSuper : Around front ⟨type, start, none, size⟩ done super)
    (hEmpty : bytes = [] → more = 0 ∧ grown = 0 ∧ ts = []) (hComma : ∀ c ∈ bytes.head?, c = 0x2C)
    (hText : text.drop pos = bytes ++ post)
    (h : Goes num text p (front.length + (done.length + 1) ≤ num)
      ⟨pos, front ++ ⟨type, start, none, size⟩ :: done, super, count⟩)
    (hMore : front.length + (done.length + 1) ≤ num → text.drop (pos + 1) = bytes.drop 1 ++ post →
      ∃ super', Goes num text
        ⟨pos + 1, front ++ ⟨type, start, none, size⟩ :: done, some front.length, count⟩
        (front.length + (done.length + 1) + more ≤ num)
        ⟨pos + 1 + (bytes.drop 1).length,
          front ++ ⟨type, start, none, size + grown⟩ :: (done ++ ts), super', count + more⟩) :
    ∃ super', Goes num text p (front.length + (done.length + 1) + more ≤ num)
      ⟨pos + bytes.length, front ++ ⟨type, start, none, size + grown⟩ :: (done ++ ts), super',
        count + more⟩ := by
  cases bytes with
  | nil =>
    obtain ⟨rfl, rfl, rfl⟩ := hEmpty rfl
    rw [List.append_nil]
    exact ⟨super, h⟩
  | cons c bytes =>
    obtain rfl := hComma c rfl
    by_cases hFits : front.length + (done.length + 1) ≤ num
    · obtain ⟨super', hGoes⟩ := hMore hFits (drop_add (w := [0x2C]) hText rfl)
      have hEnd : pos + 1 + (List.drop 1 (0x2C :: bytes)).length =
          pos + (0x2C :: bytes).length := by
        rw [List.drop_succ_cons, List.drop_zero, List.length_cons]
        omega
      rw [hEnd] at hGoes
      exact ⟨super', h.trans (fun _ => hGoes.after (comes_comma hHolds hClosed hSuper hText))
        (by omega)⟩
    · exact ⟨none, fun hAll => absurd hAll (by omega), fun _ => h.fails hFits⟩

/-- A container, if what is inside it goes well -/
theorem goes_container (hNum : num < 2147483648) (hValid : p.Valid) {type : TokenType}
    {c d : UInt8} (hBegins : type = .object ∧ c = 0x7B ∨ type = .array ∧ c = 0x5B)
    (hEnds : type = .object ∧ d = 0x7D ∨ type = .array ∧ d = 0x5D) {pad : Blanks} {bytes : Bytes}
    {ts : List Token} {more : Nat}
    (hText : text.drop p.pos = c :: (pad.bytes ++ (bytes ++ d :: post)))
    (hInside : p.grow.tokens.length + (0 + 1) ≤ num →
      text.drop (p.pos + pad.bytes.length + 1) = bytes ++ d :: post → ∃ super, Goes num text
        ⟨p.pos + pad.bytes.length + 1, p.grow.tokens ++ [⟨type, p.pos, none, 0⟩],
          some p.grow.tokens.length, p.count + 1⟩
        (p.grow.tokens.length + (0 + 1) + more ≤ num)
        ⟨p.pos + pad.bytes.length + 1 + bytes.length,
          p.grow.tokens ++ ⟨type, p.pos, none, 0 + size⟩ :: ([] ++ ts.map ofToken), super,
          p.count + 1 + more⟩) :
    Goes num text p (p.tokens.length + (more + 1) ≤ num)
      ⟨p.pos + (pad.bytes.length + bytes.length + 2),
        p.grow.tokens ++ (⟨type, p.pos, p.pos + (pad.bytes.length + bytes.length + 2), size⟩ ::
          ts).map ofToken, lastIndex JsmnTok.open p.grow.tokens, p.count + (more + 1)⟩ := by
  have hPad : text.drop (p.pos + 1) = pad.bytes ++ (bytes ++ d :: post) :=
    drop_add (w := [c]) hText rfl
  have hBytes : text.drop (p.pos + pad.bytes.length + 1) = bytes ++ d :: post :=
    drop_add hPad (by omega)
  have hBlanks : Comes num text ⟨p.pos + 1, p.grow.tokens ++ [⟨type, p.pos, none, 0⟩],
      some p.grow.tokens.length, p.count + 1⟩ _ := comes_blanks pad hPad
  rw [Nat.add_right_comm] at hBlanks
  have hOpen := goes_open hNum hValid hBegins hText
  rw [← length_grow] at hOpen ⊢
  refine hOpen.trans (B := p.grow.tokens.length + (0 + 1) + more ≤ num) (fun hRoom => ?_) (by omega)
  obtain ⟨super, hGoes⟩ := hInside hRoom hBytes
  refine (hGoes.after hBlanks).before fun _ => ?_
  have hClose : Comes num text ⟨_, p.grow.tokens ++ ⟨type, p.pos, none, 0 + size⟩ ::
      ts.map ofToken, super, p.count + 1 + more⟩ _ :=
    comes_close hEnds (open_ofToken ts) (drop_add hBytes rfl)
  have hEnd : p.pos + pad.bytes.length + 1 + bytes.length + 1 =
      p.pos + (pad.bytes.length + bytes.length + 2) := by omega
  rw [List.nil_append]
  rw [hEnd, Nat.zero_add, Nat.add_assoc p.count, Nat.add_comm 1 more] at hClose
  rw [Nat.zero_add, Nat.add_assoc p.count, Nat.add_comm 1 more]
  exact hClose

theorem Items.head_bytes (items : Items) :
    (items.bytes = [] → items.count = 0 ∧ items.size = 0 ∧ ∀ pos, items.tokens pos = []) ∧
      ∀ c ∈ items.bytes.head?, c = 0x2C := by
  cases items with
  | nil => exact ⟨fun _ => ⟨rfl, rfl, fun _ => rfl⟩, fun c hMem => by cases hMem⟩
  | cons => exact ⟨fun hNil => absurd hNil (List.cons_ne_nil _ _),
      fun c hMem => (Option.some.inj hMem).symm⟩

theorem Members.head_bytes (members : Members) :
    (members.bytes = [] → members.count = 0 ∧ members.size = 0 ∧ ∀ pos, members.tokens pos = []) ∧
      ∀ c ∈ members.bytes.head?, c = 0x2C := by
  cases members with
  | nil => exact ⟨fun _ => ⟨rfl, rfl, fun _ => rfl⟩, fun c hMem => by cases hMem⟩
  | cons => exact ⟨fun hNil => absurd hNil (List.cons_ne_nil _ _),
      fun c hMem => (Option.some.inj hMem).symm⟩

/-- Behind a value there may be a comma or the bracket. -/
theorem ends_more (behind : Blanks) {bytes : Bytes} {d : UInt8} (hEnds : endsPrimitive d = true)
    (hComma : ∀ c ∈ bytes.head?, c = 0x2C) : Ends (behind.bytes ++ (bytes ++ d :: post)) := by
  refine ends_blanks behind fun c hMem => ?_
  cases bytes with
  | nil =>
    obtain rfl := Option.some.inj hMem
    exact hEnds
  | cons b bytes =>
    obtain rfl := Option.some.inj hMem
    obtain rfl := hComma b rfl
    rfl

mutual

theorem Value.goes (hNum : num < 2147483648) (v : Value) {p : JsmnParser} (hValid : p.Valid)
    {post : Bytes} (hPost : Ends post) (hText : text.drop p.pos = v.bytes ++ post) :
    Goes num text p (p.tokens.length + v.count ≤ num) (p.past v) := by
  cases v with
  | word w => exact goes_word hNum hValid w hPost hText
  | string s => exact goes_string hNum hValid s hText
  | array pad items =>
    have hSplit : text.drop p.pos =
        0x5B :: (pad.bytes ++ (items.bytes.drop 1 ++ 0x5D :: post)) := by
      rw [hText, Value.bytes]
      simp
    have hGoes := goes_container hNum hValid (.inr ⟨rfl, rfl⟩) (.inr ⟨rfl, rfl⟩) hSplit
      fun hRoom hInside => Items.goes hNum items (List.forall_mem_nil _) hInside hRoom
    rw [JsmnParser.past, Value.tokens, Json.arrayToken, Json.Value.length_array, Value.count,
      ← List.length_drop]
    exact hGoes
  | object pad members =>
    have hSplit : text.drop p.pos =
        0x7B :: (pad.bytes ++ (members.bytes.drop 1 ++ 0x7D :: post)) := by
      rw [hText, Value.bytes]
      simp
    have hGoes := goes_container hNum hValid (.inl ⟨rfl, rfl⟩) (.inl ⟨rfl, rfl⟩) hSplit
      fun hRoom hInside => Members.goes hNum members (List.forall_mem_nil _) hInside hRoom
    rw [JsmnParser.past, Value.tokens, Json.objectToken, Json.Value.length_object, Value.count,
      ← List.length_drop]
    exact hGoes

theorem Items.goes (hNum : num < 2147483648) (items : Items) {front done : List JsmnTok}
    {pos start size count : Nat} {post : Bytes} (hClosed : ∀ t ∈ done, t.open = false)
    (hText : text.drop (pos + 1) = items.bytes.drop 1 ++ 0x5D :: post)
    (hFits : front.length + (done.length + 1) ≤ num) :
    ∃ super, Goes num text
      ⟨pos + 1, front ++ ⟨.array, start, none, size⟩ :: done, some front.length, count⟩
      (front.length + (done.length + 1) + items.count ≤ num)
      ⟨pos + 1 + (items.bytes.drop 1).length, front ++ ⟨.array, start, none, size + items.size⟩ ::
        (done ++ (items.tokens pos).map ofToken), super, count + items.count⟩ := by
  cases items with
  | nil =>
    rw [Items.tokens, List.map_nil, List.append_nil]
    exact ⟨_, fun _ => Comes.refl _, fun hFull => absurd hFits hFull⟩
  | cons before v behind more =>
    rw [Items.bytes, List.drop_succ_cons, List.drop_zero, List.append_assoc, List.append_assoc,
      List.append_assoc] at hText
    have hValue := drop_add hText rfl
    have hBehind := drop_add hValue rfl
    obtain ⟨hEmpty, hComma⟩ := Items.head_bytes more
    have hGoes := Value.goes hNum v (p := ⟨_, front ++ ⟨.array, start, none, size⟩ :: done,
      some front.length, count⟩) (valid_container _) (ends_more behind rfl hComma) hValue
    have hRoom : front.length + (done.length + 1) + v.count = front.length +
        ((done ++ (v.tokens (pos + 1 + before.bytes.length)).map ofToken).length + 1) := by
      rw [List.length_append, List.length_map, Json.Value.length_tokens]
      omega
    have hClosed' := List.forall_mem_append.2
      ⟨hClosed, open_ofToken (v.tokens (pos + 1 + before.bytes.length))⟩
    rw [past_item v hClosed, List.length_append, List.length_cons, hRoom] at hGoes
    have hNow := (hGoes.after (comes_blanks before hText)).before fun _ =>
      comes_blanks behind hBehind
    obtain ⟨super, hAll⟩ := goes_more rfl hClosed' (.inl rfl)
      (fun hNil => ⟨(hEmpty hNil).1, (hEmpty hNil).2.1,
        congrArg (·.map ofToken) ((hEmpty hNil).2.2 _)⟩) hComma (drop_add hBehind rfl) hNow
      fun hFits hText => Items.goes hNum more hClosed' hText hFits
    have hEnd : pos + 1 + ((Items.cons before v behind more).bytes.drop 1).length =
        pos + 1 + before.bytes.length + v.bytes.length + behind.bytes.length +
          more.bytes.length := by
      rw [List.length_drop, Json.Items.length_cons]
      omega
    rw [← hRoom, List.append_assoc, ← List.map_append] at hAll
    rw [hEnd, Items.size, Items.tokens, Items.count, ← Nat.add_assoc count, Nat.add_comm more.size,
      ← Nat.add_assoc size, ← Nat.add_assoc (_ + _) v.count]
    exact ⟨super, hAll⟩

theorem Members.goes (hNum : num < 2147483648) (members : Members) {front done : List JsmnTok}
    {pos start size count : Nat} {post : Bytes} (hClosed : ∀ t ∈ done, t.open = false)
    (hText : text.drop (pos + 1) = members.bytes.drop 1 ++ 0x7D :: post)
    (hFits : front.length + (done.length + 1) ≤ num) :
    ∃ super, Goes num text
      ⟨pos + 1, front ++ ⟨.object, start, none, size⟩ :: done, some front.length, count⟩
      (front.length + (done.length + 1) + members.count ≤ num)
      ⟨pos + 1 + (members.bytes.drop 1).length,
        front ++ ⟨.object, start, none, size + members.size⟩ ::
          (done ++ (members.tokens pos).map ofToken), super, count + members.count⟩ := by
  cases members with
  | nil =>
    rw [Members.tokens, List.map_nil, List.append_nil]
    exact ⟨_, fun _ => Comes.refl _, fun hFull => absurd hFits hFull⟩
  | cons before key behindKey beforeValue v behind more =>
    rw [Members.bytes, List.drop_succ_cons, List.drop_zero] at hText
    simp only [List.append_assoc, List.cons_append] at hText
    have hKey := drop_add hText rfl
    have hBehindKey := drop_add hKey rfl
    have hColon := drop_add hBehindKey rfl
    have hBeforeValue := drop_add (w := [0x3A]) hColon rfl
    rw [List.length_singleton] at hBeforeValue
    have hValue := drop_add hBeforeValue rfl
    have hBehind := drop_add hValue rfl
    obtain ⟨hEmpty, hComma⟩ := Members.head_bytes more
    -- the key is the last token when the colon comes
    have hString := goes_string hNum (p := ⟨_, front ++ ⟨.object, start, none, size⟩ :: done,
      some front.length, count⟩) (valid_container _) key hKey
    rw [JsmnParser.added, grow_container] at hString
    have hToValue := (hString.after (comes_blanks before hText)).before fun _ =>
      ((comes_blanks behindKey hBehindKey).trans (comes_colon _ hColon)).trans
        (comes_blanks beforeValue hBeforeValue)
    have hGoes := Value.goes hNum v (p := ⟨_, (front ++ ⟨.object, start, none, size + 1⟩ :: done) ++
        [ofToken (Json.stringToken (pos + 1 + before.bytes.length) key 0)], some _, count + 1⟩)
      (valid_container _) (ends_more behind rfl hComma) hValue
    obtain ⟨super, hSuper, hPast⟩ := past_key front ⟨.object, start, none, size + 1⟩
      (pos + 1 + before.bytes.length + (Json.quoted key).length + behindKey.bytes.length + 1 +
        beforeValue.bytes.length) (count + 1) (pos + 1 + before.bytes.length) v rfl hClosed key
    rw [hPast] at hGoes
    obtain ⟨done', hDone⟩ : ∃ done', done' =
        done ++ ofToken (Json.stringToken (pos + 1 + before.bytes.length) key 1) ::
          (v.tokens (pos + 1 + before.bytes.length + (Json.quoted key).length +
            behindKey.bytes.length + 1 + beforeValue.bytes.length)).map ofToken := ⟨_, rfl⟩
    have hRoom : front.length + (done.length + 1) + (v.count + 1) =
        front.length + (done'.length + 1) := by
      rw [hDone, List.length_append, List.length_cons, List.length_map, Json.Value.length_tokens]
      omega
    have hClosed' : ∀ t ∈ done', t.open = false := by
      rw [hDone]
      exact List.forall_mem_append.2 ⟨hClosed, List.forall_mem_cons.2 ⟨rfl, open_ofToken _⟩⟩
    rw [← hDone] at hGoes hSuper
    have hNow : Goes num text _ (front.length + (done'.length + 1) ≤ num) _ :=
      (hToValue.trans (fun _ => hGoes) (by
        simp only [List.length_append, List.length_cons, List.length_nil]
        omega)).before fun _ => comes_blanks behind hBehind
    obtain ⟨super', hAll⟩ := goes_more rfl hClosed' hSuper
      (fun hNil => ⟨(hEmpty hNil).1, (hEmpty hNil).2.1,
        congrArg (·.map ofToken) ((hEmpty hNil).2.2 _)⟩) hComma (drop_add hBehind rfl) hNow
      fun hFits hText => Members.goes hNum more hClosed' hText hFits
    have hEnd : pos + 1 +
        ((Members.cons before key behindKey beforeValue v behind more).bytes.drop 1).length =
          pos + 1 + before.bytes.length + (Json.quoted key).length + behindKey.bytes.length + 1 +
            beforeValue.bytes.length + v.bytes.length + behind.bytes.length +
              more.bytes.length := by
      rw [List.length_drop, Json.Members.length_cons]
      omega
    refine ⟨super', ?_⟩
    rw [hEnd, Members.size, Members.tokens, Members.count]
    rw [← hRoom, hDone, List.append_assoc, List.cons_append, ← List.map_append, Nat.add_assoc size,
      Nat.add_comm 1, Nat.add_assoc _ (v.count + 1)] at hAll
    have hCount : count + 1 + v.count + more.count = count + (v.count + 1 + more.count) := by omega
    rw [hCount] at hAll
    exact hAll

end

end Values

-- ---------------------------------------------------------------------------
-- Whole texts
-- ---------------------------------------------------------------------------

section WholeTexts

variable {num fuel : Nat} {text : Bytes} {p q : JsmnParser} {r : Except JsmnErr JsmnParser}

theorem jsmnLoop_add (h : jsmnLoop num text fuel p = some r) (k : Nat) :
    jsmnLoop num text (fuel + k) p = some r := by
  induction fuel generalizing p with
  | zero => cases h
  | succ fuel ih =>
    rw [Nat.add_right_comm, jsmnLoop]
    rw [jsmnLoop] at h
    cases hCurrent : current text p.pos with
    | none =>
      rw [hCurrent] at h
      exact h
    | some c =>
      rw [hCurrent] at h
      dsimp only at h ⊢
      cases hStep : jsmnStep num text c p with
      | error e =>
        rw [hStep] at h
        exact h
      | ok q =>
        rw [hStep] at h
        exact ih h

/-- The turns of the loop are enough to come as far as any number of them does. -/
theorem jsmnLoop_eq {m : Nat} (hValid : p.Valid) (hFuel : text.length - p.pos < fuel)
    (h : jsmnLoop num text m p = some r) : jsmnLoop num text fuel p = some r := by
  obtain ⟨r', hSome⟩ := Option.isSome_iff_exists.1 (jsmnLoop_isSome hValid hFuel)
  have hBoth := jsmnLoop_add hSome m
  rw [Nat.add_comm, jsmnLoop_add h fuel] at hBoth
  rw [hSome, hBoth]

/-- **The tokens of JSON**: they are those of the document, in the order of the text, if the array
has room for all of them, and else there is no result. -/
theorem jsmnParse_document (d : Json.Document) (num : Nat) (hText : d.bytes.length < 2147483648)
    (hNum : num < 2147483648) :
    jsmnParse d.bytes num = some (if d.value.count ≤ num then
      .ok (d.value.count, d.tokens.map ofToken) else .error .nomem) := by
  have hTake : d.bytes.take (toInt32 d.bytes.length).toNat = d.bytes := by
    rw [toInt32]
    exact List.take_of_length_le (by omega)
  have hFuel : d.bytes.length - jsmnInit.pos < d.bytes.length + 1 :=
    Nat.lt_succ_of_le (Nat.sub_le _ _)
  have hBefore : d.bytes.drop 0 = d.before.bytes ++ (d.value.bytes ++ d.behind.bytes) := by
    rw [List.drop_zero, Json.Document.bytes, List.append_assoc]
  have hValue := drop_add hBefore (Nat.zero_add _).symm
  have hBehind : d.bytes.drop (d.before.bytes.length + d.value.bytes.length) =
      d.behind.bytes ++ [] := by
    rw [List.append_nil]
    exact drop_add hValue rfl
  have hPost : Ends d.behind.bytes := by
    rw [← List.append_nil d.behind.bytes]
    exact ends_blanks d.behind fun c hMem => by cases hMem
  have hBlanks : Comes num d.bytes ⟨0, [], none, 0⟩ _ := comes_blanks d.before hBefore
  rw [Nat.zero_add] at hBlanks
  have hGoes := ((Value.goes hNum d.value (p := ⟨d.before.bytes.length, [], none, 0⟩)
    (fun i hSuper => by cases hSuper) hPost hValue).after hBlanks).before fun _ =>
      comes_blanks d.behind hBehind
  rw [List.length_nil, Nat.zero_add] at hGoes
  rw [jsmnParse, hTake]
  by_cases hRoom : d.value.count ≤ num
  · have hEnd : current d.bytes (d.before.bytes.length + d.value.bytes.length +
        d.behind.bytes.length) = none := by
      rw [current, List.getElem?_eq_none (by simp [Json.Document.bytes, Nat.add_assoc])]
      rfl
    obtain ⟨m, hLoop⟩ := (hGoes.comes hRoom).ends hEnd
    have hClosed : (d.tokens.map ofToken).any JsmnTok.open = false :=
      List.any_eq_false.2 fun t hMem => by rw [open_ofToken _ t hMem]; exact Bool.false_ne_true
    rw [jsmnLoop_eq validInit hFuel hLoop, if_pos hRoom, Option.map_some, ok_bind]
    show some (if (d.tokens.map ofToken).any JsmnTok.open then _ else _) = _
    rw [hClosed]
    rfl
  · obtain ⟨n, hFails⟩ := hGoes.fails hRoom
    rw [jsmnLoop_eq validInit hFuel (hFails 0), if_neg hRoom]
    rfl

theorem blank_none : ∀ b ∈ ([] : Bytes), Json.blank b := List.forall_mem_nil _

theorem blank_space : ∀ b ∈ ([0x20] : Bytes), Json.blank b := List.forall_mem_singleton.2 rfl

theorem plain_lower_a : (0x20 : UInt8) ≤ 0x61 ∧ (0x61 : UInt8) ≠ 0x22 ∧ (0x61 : UInt8) ≠ 0x5C := by
  decide

def noBlanks : Blanks := ⟨[], blank_none⟩

def oneBlank : Blanks := ⟨[0x20], blank_space⟩

/-- `[{"a":true} , "b"]`, with a blank before and behind -/
def mixed : Json.Document :=
  ⟨oneBlank, .array noBlanks (.cons noBlanks (.object noBlanks (.cons noBlanks
    [.plain 0x61 plain_lower_a] noBlanks noBlanks
    (.word ⟨[0x74, 0x72, 0x75, 0x65], by decide, List.all_eq_true.1 (by decide)⟩) noBlanks
    .nil)) oneBlank (.cons oneBlank (.string [.plain 0x62 (by decide)]) noBlanks .nil)), oneBlank⟩

theorem mixed_tokens : jsmnParse mixed.bytes 8 = some (.ok (5, [⟨.array, 1, some 19, 2⟩,
    ⟨.object, 2, some 12, 1⟩, ⟨.string, 4, some 5, 1⟩, ⟨.primitive, 7, some 11, 0⟩,
      ⟨.string, 16, some 17, 0⟩])) :=
  jsmnParse_document mixed 8 (by decide) (by decide)

end WholeTexts

end EspMiplay.Lyrics
