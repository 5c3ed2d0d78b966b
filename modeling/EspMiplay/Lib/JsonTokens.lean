import EspMiplay.Lib.Json

/-!
# JSON texts as tokens

A text in the flat form of a tokeniser: one token for every value and every key, in the order
of the text, with its place in the text and the number of its children. The children of an
object are its keys, and the child of a key is its value.

- `Value.tokens` are the tokens of a value that begins at a position.
- `Stands` says at which index of a list of tokens a value stands, and that the text has it
  where its tokens say.
-/

namespace Json

inductive TokenType where
  | primitive
  | object
  | array
  | string
  deriving DecidableEq

/-- An object or an array. -/
def TokenType.holds : TokenType → Bool
  | .object => true
  | .array => true
  | _ => false

structure Token where
  type : TokenType
  start : Nat
  stop : Nat
  size : Nat
  deriving DecidableEq

/-- The part of the text that belongs to a token; of a string what its quotes enclose. -/
def Token.text (json : List UInt8) (t : Token) : List UInt8 :=
  (json.drop t.start).take (t.stop - t.start)

/-- The token is of that type, and its text is this one. -/
structure Token.Reads (json : List UInt8) (t : Token) (type : TokenType) (w : List UInt8) :
    Prop where
  type_eq : t.type = type
  text_eq : t.text json = w
  stop_eq : t.stop = t.start + w.length

def Items.size : Items → Nat
  | .nil => 0
  | .cons _ _ _ more => more.size + 1

def Members.size : Members → Nat
  | .nil => 0
  | .cons _ _ _ _ _ _ more => more.size + 1

mutual

/-- How many tokens there are. -/
def Value.count : Value → Nat
  | .word _ => 1
  | .string _ => 1
  | .array _ items => items.count + 1
  | .object _ members => members.count + 1

def Items.count : Items → Nat
  | .nil => 0
  | .cons _ v _ more => v.count + more.count

def Members.count : Members → Nat
  | .nil => 0
  | .cons _ _ _ _ v _ more => v.count + 1 + more.count

end

/-- The token of a string whose opening quote is at that position. -/
def stringToken (pos : Nat) (s : List Piece) (size : Nat) : Token :=
  ⟨.string, pos + 1, pos + 1 + (spelling s).length, size⟩

def arrayToken (pos : Nat) (pad : Blanks) (items : Items) : Token :=
  ⟨.array, pos, pos + (Value.array pad items).bytes.length, items.size⟩

def objectToken (pos : Nat) (pad : Blanks) (members : Members) : Token :=
  ⟨.object, pos, pos + (Value.object pad members).bytes.length, members.size⟩

mutual

def Value.tokens : Value → Nat → List Token
  | .word w, pos => [⟨.primitive, pos, pos + w.bytes.length, 0⟩]
  | .string s, pos => [stringToken pos s 0]
  | .array pad items, pos => arrayToken pos pad items :: items.tokens (pos + pad.bytes.length)
  | .object pad members, pos =>
    objectToken pos pad members :: members.tokens (pos + pad.bytes.length)

/-- The position is the one of the comma in front. -/
def Items.tokens : Items → Nat → List Token
  | .nil, _ => []
  | .cons before v behind more, pos =>
    v.tokens (pos + 1 + before.bytes.length) ++
      more.tokens (pos + 1 + before.bytes.length + v.bytes.length + behind.bytes.length)

def Members.tokens : Members → Nat → List Token
  | .nil, _ => []
  | .cons before key behindKey beforeValue v behind more, pos =>
    let keyPos := pos + 1 + before.bytes.length
    let valuePos := keyPos + (quoted key).length + behindKey.bytes.length + 1 +
      beforeValue.bytes.length
    stringToken keyPos key 1 :: (v.tokens valuePos ++
      more.tokens (valuePos + v.bytes.length + behind.bytes.length))

end

def Document.tokens (d : Document) : List Token := d.value.tokens d.before.bytes.length

mutual

theorem Value.length_tokens (v : Value) (pos : Nat) : (v.tokens pos).length = v.count := by
  cases v with
  | word w => rfl
  | string s => rfl
  | array pad items =>
    rw [Value.tokens, List.length_cons, Items.length_tokens items, Value.count]
  | object pad members =>
    rw [Value.tokens, List.length_cons, Members.length_tokens members, Value.count]

theorem Items.length_tokens (items : Items) (pos : Nat) :
    (items.tokens pos).length = items.count := by
  cases items with
  | nil => rfl
  | cons before v behind more =>
    rw [Items.tokens, List.length_append, Value.length_tokens v, Items.length_tokens more,
      Items.count]

theorem Members.length_tokens (members : Members) (pos : Nat) :
    (members.tokens pos).length = members.count := by
  cases members with
  | nil => rfl
  | cons before key behindKey beforeValue v behind more =>
    rw [Members.tokens, List.length_cons, List.length_append, Value.length_tokens v,
      Members.length_tokens more, Members.count]
    omega

end

theorem Value.count_pos (v : Value) : 0 < v.count := by
  cases v <;> simp [Value.count]

theorem Members.size_le_count (members : Members) : members.size ≤ members.count := by
  cases members with
  | nil => exact Nat.le_refl 0
  | cons before key behindKey beforeValue v behind more =>
    have hMore := Members.size_le_count more
    rw [Members.size, Members.count]
    omega

theorem Value.bytes_pos (v : Value) : 0 < v.bytes.length := by
  cases v with
  | word w => exact List.length_pos_of_ne_nil w.nonempty
  | string s => exact Nat.succ_pos _
  | array => exact Nat.succ_pos _
  | object => exact Nat.succ_pos _

theorem length_quoted (s : List Piece) : (quoted s).length = (spelling s).length + 2 := by
  simp [quoted]

theorem Value.length_array (pad : Blanks) (items : Items) :
    (Value.array pad items).bytes.length =
      pad.bytes.length + (items.bytes.length - 1) + 2 := by
  simp [Value.bytes]
  omega

theorem Value.length_object (pad : Blanks) (members : Members) :
    (Value.object pad members).bytes.length =
      pad.bytes.length + (members.bytes.length - 1) + 2 := by
  simp [Value.bytes]
  omega

theorem Items.length_cons (before : Blanks) (v : Value) (behind : Blanks) (more : Items) :
    (Items.cons before v behind more).bytes.length =
      1 + before.bytes.length + v.bytes.length + behind.bytes.length + more.bytes.length := by
  simp [Items.bytes]
  omega

theorem Members.length_cons (before : Blanks) (key : List Piece) (behindKey beforeValue : Blanks)
    (v : Value) (behind : Blanks) (more : Members) :
    (Members.cons before key behindKey beforeValue v behind more).bytes.length =
      1 + before.bytes.length + (quoted key).length + behindKey.bytes.length + 1 +
        beforeValue.bytes.length + v.bytes.length + behind.bytes.length + more.bytes.length := by
  simp [Members.bytes]
  omega

mutual

/-- Every token begins within the text. -/
theorem Value.start_tokens (v : Value) (pos : Nat) :
    ∀ t ∈ v.tokens pos, pos ≤ t.start ∧ t.start < pos + v.bytes.length := by
  have hPos := v.bytes_pos
  cases v with
  | word w =>
    intro t hMem
    rw [List.mem_singleton.1 hMem]
    exact ⟨Nat.le_refl pos, Nat.lt_add_of_pos_right hPos⟩
  | string s =>
    intro t hMem
    rw [List.mem_singleton.1 hMem, stringToken, Value.bytes, length_quoted]
    dsimp only
    omega
  | array pad items =>
    rw [Value.tokens, List.forall_mem_cons]
    refine ⟨⟨Nat.le_refl pos, Nat.lt_add_of_pos_right hPos⟩, fun t hMem => ?_⟩
    have hStart := Items.start_tokens items _ t hMem
    rw [Value.length_array]
    omega
  | object pad members =>
    rw [Value.tokens, List.forall_mem_cons]
    refine ⟨⟨Nat.le_refl pos, Nat.lt_add_of_pos_right hPos⟩, fun t hMem => ?_⟩
    have hStart := Members.start_tokens members _ t hMem
    rw [Value.length_object]
    omega

theorem Items.start_tokens (items : Items) (pos : Nat) :
    ∀ t ∈ items.tokens pos, pos < t.start ∧ t.start < pos + items.bytes.length := by
  cases items with
  | nil => exact fun t hMem => absurd hMem List.not_mem_nil
  | cons before v behind more =>
    intro t hMem
    rw [Items.length_cons]
    rcases List.mem_append.1 hMem with hMem | hMem
    · have hStart := Value.start_tokens v _ t hMem
      omega
    · have hStart := Items.start_tokens more _ t hMem
      omega

theorem Members.start_tokens (members : Members) (pos : Nat) :
    ∀ t ∈ members.tokens pos, pos < t.start ∧ t.start < pos + members.bytes.length := by
  cases members with
  | nil => exact fun t hMem => absurd hMem List.not_mem_nil
  | cons before key behindKey beforeValue v behind more =>
    rw [Members.tokens, List.forall_mem_cons, Members.length_cons, length_quoted]
    refine ⟨?_, fun t hMem => ?_⟩
    · rw [stringToken]
      dsimp only
      omega
    · rcases List.mem_append.1 hMem with hMem | hMem
      · have hStart := Value.start_tokens v _ t hMem
        omega
      · have hStart := Members.start_tokens more _ t hMem
        omega

end

-- ---------------------------------------------------------------------------
-- Places
-- ---------------------------------------------------------------------------

/-- At this index of the tokens the value stands, the text has it at its position, and what
follows begins behind it. -/
def Stands (json : List UInt8) (ts : List Token) (i : Nat) (v : Value) : Prop :=
  ∃ front pos rest, ts = front ++ (v.tokens pos ++ rest) ∧ front.length = i ∧
    (∃ post, json.drop pos = v.bytes ++ post) ∧ ∀ t ∈ rest, pos + v.bytes.length ≤ t.start

/-- The text is the one behind the comma in front. -/
def ItemsStand (json : List UInt8) (ts : List Token) (i : Nat) (items : Items) : Prop :=
  ∃ front pos rest, ts = front ++ (items.tokens pos ++ rest) ∧ front.length = i ∧
    (∃ post, json.drop (pos + 1) = items.bytes.drop 1 ++ post) ∧
      ∀ t ∈ rest, pos + items.bytes.length ≤ t.start

def MembersStand (json : List UInt8) (ts : List Token) (i : Nat) (members : Members) : Prop :=
  ∃ front pos rest, ts = front ++ (members.tokens pos ++ rest) ∧ front.length = i ∧
    (∃ post, json.drop (pos + 1) = members.bytes.drop 1 ++ post) ∧
      ∀ t ∈ rest, pos + members.bytes.length ≤ t.start

section Places

variable {json : List UInt8} {ts : List Token} {i : Nat}

theorem Document.stands (d : Document) (rest : List UInt8) :
    Stands (d.bytes ++ rest) d.tokens 0 d.value := by
  refine ⟨[], d.before.bytes.length, [], by simp [Document.tokens], rfl,
    ⟨d.behind.bytes ++ rest, ?_⟩, fun t hMem => absurd hMem List.not_mem_nil⟩
  rw [Document.bytes, List.append_assoc, List.append_assoc, List.drop_left]

theorem Stands.lt {v : Value} (h : Stands json ts i v) : i + v.count ≤ ts.length := by
  obtain ⟨front, pos, rest, rfl, rfl, -⟩ := h
  rw [List.length_append, List.length_append, Value.length_tokens]
  omega

/-- What follows in the text. -/
theorem drop_behind {n m : Nat} {w post : List UInt8} (h : json.drop n = w ++ post)
    (hLength : w.length = m) : json.drop (n + m) = post := by
  rw [← List.drop_drop, h, ← hLength, List.drop_left]

theorem Token.text_of_drop {t : Token} {w post : List UInt8}
    (hDrop : json.drop t.start = w ++ post) (hStop : t.stop = t.start + w.length) :
    t.text json = w := by
  rw [Token.text, hDrop, hStop, Nat.add_sub_cancel_left, List.take_left]

theorem Stands.array {pad : Blanks} {items : Items} (h : Stands json ts i (.array pad items)) :
    (∃ t, ts[i]? = some t ∧ t.type = .array ∧ t.size = items.size) ∧
      ItemsStand json ts (i + 1) items := by
  obtain ⟨front, pos, rest, rfl, rfl, ⟨post, hText⟩, hAfter⟩ := h
  refine ⟨⟨arrayToken pos pad items, ?_, rfl, rfl⟩, ?_⟩
  · rw [List.getElem?_append_right (Nat.le_refl _), Nat.sub_self]
    rfl
  · refine ⟨front ++ [arrayToken pos pad items], pos + pad.bytes.length, rest, ?_, by simp,
      ⟨0x5D :: post, ?_⟩, fun t hMem => ?_⟩
    · rw [Value.tokens, List.append_assoc]
      rfl
    · have hSplit : json.drop pos =
          (0x5B :: pad.bytes) ++ (items.bytes.drop 1 ++ 0x5D :: post) := by
        rw [hText, Value.bytes]
        simp
      have hBehind := drop_behind hSplit rfl
      rwa [List.length_cons, ← Nat.add_assoc] at hBehind
    · have hStart := hAfter t hMem
      rw [Value.length_array] at hStart
      omega

theorem Stands.object {pad : Blanks} {members : Members}
    (h : Stands json ts i (.object pad members)) :
    (∃ t, ts[i]? = some t ∧ t.type = .object ∧ t.size = members.size) ∧
      MembersStand json ts (i + 1) members := by
  obtain ⟨front, pos, rest, rfl, rfl, ⟨post, hText⟩, hAfter⟩ := h
  refine ⟨⟨objectToken pos pad members, ?_, rfl, rfl⟩, ?_⟩
  · rw [List.getElem?_append_right (Nat.le_refl _), Nat.sub_self]
    rfl
  · refine ⟨front ++ [objectToken pos pad members], pos + pad.bytes.length, rest, ?_, by simp,
      ⟨0x7D :: post, ?_⟩, fun t hMem => ?_⟩
    · rw [Value.tokens, List.append_assoc]
      rfl
    · have hSplit : json.drop pos =
          (0x7B :: pad.bytes) ++ (members.bytes.drop 1 ++ 0x7D :: post) := by
        rw [hText, Value.bytes]
        simp
      have hBehind := drop_behind hSplit rfl
      rwa [List.length_cons, ← Nat.add_assoc] at hBehind
    · have hStart := hAfter t hMem
      rw [Value.length_object] at hStart
      omega

/-- The text of an array or an object is not empty. -/
theorem Stands.text_ne_nil {v : Value} (h : Stands json ts i v) (hString : ∀ s, v ≠ .string s) :
    ∃ t, ts[i]? = some t ∧ t.type ≠ .string ∧ t.text json ≠ [] := by
  obtain ⟨front, pos, rest, rfl, rfl, ⟨post, hText⟩, hAfter⟩ := h
  rw [List.getElem?_append_right (Nat.le_refl _), Nat.sub_self]
  cases v with
  | word w =>
    refine ⟨_, rfl, (fun hType => by cases hType), ?_⟩
    rw [Token.text_of_drop hText rfl]
    exact w.nonempty
  | string s => exact absurd rfl (hString s)
  | array pad items =>
    refine ⟨_, rfl, (fun hType => by cases hType), ?_⟩
    rw [Token.text_of_drop hText rfl, Value.bytes]
    exact List.cons_ne_nil _ _
  | object pad members =>
    refine ⟨_, rfl, (fun hType => by cases hType), ?_⟩
    rw [Token.text_of_drop hText rfl, Value.bytes]
    exact List.cons_ne_nil _ _

theorem Stands.string {s : List Piece} (h : Stands json ts i (.string s)) :
    ∃ t, ts[i]? = some t ∧ t.Reads json .string (spelling s) := by
  obtain ⟨front, pos, rest, rfl, rfl, ⟨post, hText⟩, hAfter⟩ := h
  refine ⟨stringToken pos s 0, ?_, rfl, ?_, rfl⟩
  · rw [List.getElem?_append_right (Nat.le_refl _), Nat.sub_self]
    rfl
  · have hSplit : json.drop pos = [0x22] ++ (spelling s ++ 0x22 :: post) := by
      rw [hText, Value.bytes, quoted]
      simp
    exact Token.text_of_drop (drop_behind hSplit rfl) rfl

theorem Stands.word {w : Word} (h : Stands json ts i (.word w)) :
    ∃ t, ts[i]? = some t ∧ t.Reads json .primitive w.bytes := by
  obtain ⟨front, pos, rest, rfl, rfl, ⟨post, hText⟩, hAfter⟩ := h
  refine ⟨⟨.primitive, pos, pos + w.bytes.length, 0⟩, ?_, rfl, ?_, rfl⟩
  · rw [List.getElem?_append_right (Nat.le_refl _), Nat.sub_self]
    rfl
  · exact Token.text_of_drop (by rw [hText, Value.bytes]) rfl

/-- The tokens of a value begin in front of the end of the first of them, and what follows does
not. -/
theorem Stands.split {v : Value} (h : Stands json ts i v) :
    ∃ t tail rest, ts.drop i = t :: (tail ++ rest) ∧ tail.length + 1 = v.count ∧
      (∀ t' ∈ tail, t'.start < t.stop) ∧ ∀ t' ∈ rest, t.stop ≤ t'.start := by
  obtain ⟨front, pos, rest, rfl, rfl, -, hAfter⟩ := h
  rw [List.drop_left]
  have hCount := v.length_tokens pos
  have hStart := v.start_tokens pos
  cases v with
  | word w => exact ⟨_, [], rest, rfl, rfl, fun t hMem => absurd hMem List.not_mem_nil, hAfter⟩
  | string s =>
    refine ⟨_, [], rest, rfl, rfl, fun t hMem => absurd hMem List.not_mem_nil, fun t hMem => ?_⟩
    have hEnd := hAfter t hMem
    rw [Value.bytes, length_quoted] at hEnd
    rw [stringToken]
    dsimp only
    omega
  | array pad items =>
    exact ⟨_, items.tokens (pos + pad.bytes.length), rest, rfl, hCount,
      fun t hMem => (hStart t (List.mem_cons_of_mem _ hMem)).2, hAfter⟩
  | object pad members =>
    exact ⟨_, members.tokens (pos + pad.bytes.length), rest, rfl, hCount,
      fun t hMem => (hStart t (List.mem_cons_of_mem _ hMem)).2, hAfter⟩

theorem ItemsStand.cons {before behind : Blanks} {v : Value} {more : Items}
    (h : ItemsStand json ts i (.cons before v behind more)) :
    Stands json ts i v ∧ ItemsStand json ts (i + v.count) more := by
  obtain ⟨front, pos, rest, rfl, rfl, ⟨post, hText⟩, hAfter⟩ := h
  have hFirst : json.drop (pos + 1) =
      before.bytes ++ (v.bytes ++ (behind.bytes ++ (more.bytes ++ post))) := by
    rw [hText, Items.bytes]
    simp
  have hValue := drop_behind hFirst rfl
  have hBehind := drop_behind (drop_behind hValue rfl) rfl
  let valuePos := pos + 1 + before.bytes.length
  let morePos := valuePos + v.bytes.length + behind.bytes.length
  have hLength := Items.length_cons before v behind more
  refine ⟨⟨front, valuePos, more.tokens morePos ++ rest, ?_, rfl, ⟨_, hValue⟩, fun t hMem => ?_⟩,
    front ++ v.tokens valuePos, morePos, rest, ?_, ?_, ⟨post.drop (1 - more.bytes.length), ?_⟩,
    fun t hMem => ?_⟩
  · rw [Items.tokens, List.append_assoc]
  · rcases List.mem_append.1 hMem with hMem | hMem
    · have hStart := more.start_tokens morePos t hMem
      omega
    · have hStart := hAfter t hMem
      omega
  · rw [Items.tokens, List.append_assoc, List.append_assoc]
  · rw [List.length_append, Value.length_tokens]
  · rw [← List.drop_drop, hBehind, List.drop_append]
  · have hStart := hAfter t hMem
    omega

theorem MembersStand.cons {before behindKey beforeValue behind : Blanks} {key : List Piece}
    {v : Value} {more : Members}
    (h : MembersStand json ts i (.cons before key behindKey beforeValue v behind more)) :
    (∃ t, ts[i]? = some t ∧ t.Reads json .string (spelling key)) ∧
      Stands json ts (i + 1) v ∧ MembersStand json ts (i + 1 + v.count) more := by
  obtain ⟨front, pos, rest, rfl, rfl, ⟨post, hText⟩, hAfter⟩ := h
  have hFirst : json.drop (pos + 1) = before.bytes ++ (quoted key ++ (behindKey.bytes ++
      ([0x3A] ++ (beforeValue.bytes ++ (v.bytes ++ (behind.bytes ++ (more.bytes ++ post))))))) := by
    rw [hText, Members.bytes]
    simp
  have hKey := drop_behind hFirst rfl
  have hValue := drop_behind (drop_behind (drop_behind (drop_behind hKey rfl) rfl) rfl) rfl
  have hBehind := drop_behind (drop_behind hValue rfl) rfl
  rw [List.length_singleton] at hValue hBehind
  let keyPos := pos + 1 + before.bytes.length
  let valuePos := keyPos + (quoted key).length + behindKey.bytes.length + 1 +
    beforeValue.bytes.length
  let morePos := valuePos + v.bytes.length + behind.bytes.length
  have hLength := Members.length_cons before key behindKey beforeValue v behind more
  refine ⟨⟨stringToken keyPos key 1, ?_, rfl, ?_, rfl⟩,
    ⟨front ++ [stringToken keyPos key 1], valuePos, more.tokens morePos ++ rest, ?_, by simp,
      ⟨_, hValue⟩, fun t hMem => ?_⟩,
    front ++ stringToken keyPos key 1 :: v.tokens valuePos, morePos, rest, ?_, ?_,
    ⟨post.drop (1 - more.bytes.length), ?_⟩, fun t hMem => ?_⟩
  · rw [List.getElem?_append_right (Nat.le_refl _), Nat.sub_self]
    rfl
  · have hQuote : json.drop (pos + 1 + before.bytes.length) =
        [0x22] ++ (spelling key ++ 0x22 :: (behindKey.bytes ++ ([0x3A] ++
          (beforeValue.bytes ++ (v.bytes ++ (behind.bytes ++ (more.bytes ++ post))))))) := by
      rw [hKey, quoted]
      simp
    exact Token.text_of_drop (drop_behind hQuote rfl) rfl
  · rw [Members.tokens]
    simp only [List.append_assoc, List.cons_append, List.nil_append, morePos, valuePos, keyPos]
  · rcases List.mem_append.1 hMem with hMem | hMem
    · have hStart := more.start_tokens morePos t hMem
      omega
    · have hStart := hAfter t hMem
      omega
  · rw [Members.tokens]
    simp only [List.append_assoc, List.cons_append, morePos, valuePos, keyPos]
  · rw [List.length_append, List.length_cons, Value.length_tokens]
    omega
  · rw [← List.drop_drop, hBehind, List.drop_append]
  · have hStart := hAfter t hMem
    omega

end Places

end Json
