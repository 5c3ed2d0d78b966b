import EspMiplay.Lyrics.Tokens
import EspMiplay.Lyrics.Unescape

/-!
# Fields of a response

`json_find_key` and `extract_json_field` of `lyrics_fetch.c`. The search for a key is to pass
over what stands in objects and arrays. It counts the tokens to pass down to none before it
passes them, and so looks at every string of the response behind the index it begins at, the
keys and the values of every depth.

## Results

* `jsonFindKey_eq_some`  — what the search finds.
* `extractJsonField_iff` — the responses of which the right field is returned.
-/

namespace EspMiplay.Lyrics

open EspMiplay.Miplay
open Json (Token Value Items Members Stands ItemsStand MembersStand)

-- ---------------------------------------------------------------------------
-- The functions
-- ---------------------------------------------------------------------------

/-- The inner loop of `json_find_key`: what it leaves of `skip`. -/
def skipLeft : List Token → Nat → Nat
  | _, 0 => 0
  | [], skip => skip
  | t :: ts, skip + 1 => skipLeft ts (if t.type.holds then skip + t.size else skip)

/-- The loop, with the tokens from `i` on. -/
def jsonFindKeyFrom (json key : Bytes) : Nat → List Token → Nat → Option Nat
  | 0, _, _ => none
  | _, [], _ => none
  | fuel + 1, t :: ts, i =>
    if readsKey json key t then some (i + 1)
    else
      let skip := if t.type.holds then skipLeft ts t.size else 0
      jsonFindKeyFrom json key fuel (ts.drop skip) (i + skip + 1)

def jsonFindKey (json : Bytes) (ts : List Token) (start : Nat) (key : Bytes) : Option Nat :=
  jsonFindKeyFrom json key ts.length (ts.drop start) start

/-- A text that is returned, and the tokens it was found at: `idx` and `fld`. -/
structure Extracted where
  idx : Nat
  fld : Nat
  text : Bytes
  deriving DecidableEq

/-- `extract_json_field`; the error is the index of a token that is not there. -/
def extractJsonField (heap : Bool) (json : Bytes) (ts : List Token) (objKey fieldKey : Bytes) :
    Except Nat (Option Extracted) :=
  match jsonFindKey json ts 0 objKey with
  | none => .ok none
  | some idx =>
    match jsonFindKey json ts idx fieldKey with
    | none => .ok none
    | some fld =>
      match ts[fld]? with
      | none => .error fld
      | some t => .ok ((fieldText heap (t.text json)).map fun text => ⟨idx, fld, text⟩)

-- ---------------------------------------------------------------------------
-- What is to be returned
-- ---------------------------------------------------------------------------

/-- The text of `resp[objKey][fieldKey]`. -/
def fieldAt (d : Json.Document) (objKey fieldKey : Bytes) : Option Extracted :=
  match d.value with
  | .object _ members =>
    match memberAt objKey members 1 with
    | some (idx, .object _ fields) =>
      match memberAt fieldKey fields (idx + 1) with
      | some (fld, .string s) => some ⟨idx, fld, jsonUnescape (Json.spelling s)⟩
      | _ => none
    | _ => none
  | _ => none

mutual

/-- The strings of a value as they are written, keys and values, with their indices. -/
def stringsOf : Value → Nat → List (Nat × Bytes)
  | .word _, _ => []
  | .string s, i => [(i, Json.spelling s)]
  | .array _ items, i => stringsIn items (i + 1)
  | .object _ members, i => stringsAmong members (i + 1)

def stringsIn : Items → Nat → List (Nat × Bytes)
  | .nil, _ => []
  | .cons _ v _ more, i => stringsOf v i ++ stringsIn more (i + v.count)

def stringsAmong : Members → Nat → List (Nat × Bytes)
  | .nil, _ => []
  | .cons _ key _ _ v _ more, i =>
    (i, Json.spelling key) :: (stringsOf v (i + 1) ++ stringsAmong more (i + 1 + v.count))

end

/-- The first string from an index on that reads the key is the one in front of `idx`. -/
def FirstKey (d : Json.Document) (start : Nat) (key : Bytes) (idx : Nat) : Prop :=
  ∃ j, idx = j + 1 ∧ start ≤ j ∧ (j, key) ∈ stringsOf d.value 0 ∧
    ∀ m, start ≤ m → m < j → (m, key) ∉ stringsOf d.value 0

/-- Where there is a field to return, its text is not empty and it has the first strings of
the response that read the keys; where there is none, what follows the first such strings is
an empty string at most. -/
def FieldFirst (d : Json.Document) (objKey fieldKey : Bytes) : Prop :=
  match fieldAt d objKey fieldKey with
  | some f => f.text ≠ [] ∧ FirstKey d 0 objKey f.idx ∧ FirstKey d f.idx fieldKey f.fld
  | none => ∀ idx fld, FirstKey d 0 objKey idx → FirstKey d idx fieldKey fld →
      (fld, []) ∈ stringsOf d.value 0

-- ---------------------------------------------------------------------------
-- The search
-- ---------------------------------------------------------------------------

section Search

variable {json key : Bytes} {ts : List Token} {i : Nat}

theorem skipLeft_zero (ts : List Token) : skipLeft ts 0 = 0 := by
  cases ts <;> rfl

mutual

def keyCount : Value → Nat
  | .word _ => 0
  | .string _ => 0
  | .array _ items => keyCountIn items
  | .object _ members => keyCountAmong members

def keyCountIn : Items → Nat
  | .nil => 0
  | .cons _ v _ more => keyCount v + keyCountIn more

def keyCountAmong : Members → Nat
  | .nil => 0
  | .cons _ _ _ _ v _ more => 1 + keyCount v + keyCountAmong more

end

mutual

/-- The count goes down by one for the value and for each key in it. -/
theorem skipLeft_value (v : Value) (pos k : Nat) (rest : List Token) :
    skipLeft (v.tokens pos ++ rest) k = skipLeft rest (k - (1 + keyCount v)) := by
  cases k with
  | zero => rw [skipLeft_zero, Nat.zero_sub, skipLeft_zero]
  | succ k =>
    cases v with
    | word w => rw [keyCount, Nat.add_sub_cancel]; rfl
    | string s => rw [keyCount, Nat.add_sub_cancel]; rfl
    | array pad items =>
      have hHolds : (Json.arrayToken pos pad items).type.holds = true := rfl
      rw [Value.tokens, List.cons_append, skipLeft, if_pos hHolds, skipLeft_items items, keyCount]
      have hSize : (Json.arrayToken pos pad items).size = items.size := rfl
      congr 1
      omega
    | object pad members =>
      have hHolds : (Json.objectToken pos pad members).type.holds = true := rfl
      rw [Value.tokens, List.cons_append, skipLeft, if_pos hHolds, skipLeft_members members,
        keyCount]
      have hSize : (Json.objectToken pos pad members).size = members.size := rfl
      congr 1
      omega

theorem skipLeft_items (items : Items) (pos k : Nat) (rest : List Token) :
    skipLeft (items.tokens pos ++ rest) k =
      skipLeft rest (k - (items.size + keyCountIn items)) := by
  cases items with
  | nil => rfl
  | cons before v behind more =>
    rw [Items.tokens, List.append_assoc, skipLeft_value v, skipLeft_items more, Items.size,
      keyCountIn]
    congr 1
    omega

theorem skipLeft_members (members : Members) (pos k : Nat) (rest : List Token) :
    skipLeft (members.tokens pos ++ rest) k =
      skipLeft rest (k - (members.size + keyCountAmong members)) := by
  cases members with
  | nil => rfl
  | cons before key behindKey beforeValue v behind more =>
    cases k with
    | zero => rw [skipLeft_zero, Nat.zero_sub, skipLeft_zero]
    | succ k =>
      have hFlat (p : Nat) : (Json.stringToken p key 1).type.holds ≠ true := Bool.false_ne_true
      rw [Members.tokens, List.cons_append, skipLeft, if_neg (hFlat _), List.append_assoc,
        skipLeft_value v, skipLeft_members more, Members.size, keyCountAmong]
      congr 1
      omega

end

/-- Nothing is passed over at any token. -/
def NoSkip : List Token → Prop
  | [] => True
  | t :: ts => (t.type.holds → skipLeft ts t.size = 0) ∧ NoSkip ts

mutual

theorem noSkip_value (v : Value) (pos : Nat) {rest : List Token} (h : NoSkip rest) :
    NoSkip (v.tokens pos ++ rest) := by
  cases v with
  | word w => exact ⟨fun hType => absurd hType Bool.false_ne_true, h⟩
  | string s => exact ⟨fun hType => absurd hType Bool.false_ne_true, h⟩
  | array pad items =>
    refine ⟨fun _ => ?_, noSkip_items items _ h⟩
    have hLeft := skipLeft_items items (pos + pad.bytes.length) items.size rest
    rwa [Nat.sub_add_eq, Nat.sub_self, Nat.zero_sub, skipLeft_zero] at hLeft
  | object pad members =>
    refine ⟨fun _ => ?_, noSkip_members members _ h⟩
    have hLeft := skipLeft_members members (pos + pad.bytes.length) members.size rest
    rwa [Nat.sub_add_eq, Nat.sub_self, Nat.zero_sub, skipLeft_zero] at hLeft

theorem noSkip_items (items : Items) (pos : Nat) {rest : List Token} (h : NoSkip rest) :
    NoSkip (items.tokens pos ++ rest) := by
  cases items with
  | nil => exact h
  | cons before v behind more =>
    rw [Items.tokens, List.append_assoc]
    exact noSkip_value v _ (noSkip_items more _ h)

theorem noSkip_members (members : Members) (pos : Nat) {rest : List Token} (h : NoSkip rest) :
    NoSkip (members.tokens pos ++ rest) := by
  cases members with
  | nil => exact h
  | cons before key behindKey beforeValue v behind more =>
    rw [Members.tokens, List.cons_append, List.append_assoc]
    exact ⟨fun hType => absurd hType Bool.false_ne_true, noSkip_value v _ (noSkip_members more _ h)⟩

end

theorem noSkip_drop (h : NoSkip ts) (n : Nat) : NoSkip (ts.drop n) := by
  induction n generalizing ts with
  | zero => exact h
  | succ n ih =>
    cases ts with
    | nil => exact h
    | cons t ts => exact ih h.2

theorem jsonFindKeyFrom_eq (h : NoSkip ts) {fuel : Nat} (hFuel : ts.length ≤ fuel) (i : Nat) :
    jsonFindKeyFrom json key fuel ts i =
      (ts.findIdx? (readsKey json key)).map fun n => n + i + 1 := by
  induction fuel generalizing ts i with
  | zero =>
    rw [List.eq_nil_of_length_eq_zero (Nat.le_zero.1 hFuel)]
    rfl
  | succ fuel ih =>
    cases ts with
    | nil => rfl
    | cons t ts =>
      have hSkip : (if t.type.holds then skipLeft ts t.size else 0) = 0 := by
        split
        · exact h.1 (by assumption)
        · rfl
      rw [jsonFindKeyFrom, List.findIdx?_cons, hSkip]
      split
      · rw [Option.map_some, Nat.zero_add]
      · dsimp only
        rw [List.drop_zero, ih h.2 (Nat.le_of_succ_le_succ hFuel), Option.map_map]
        congr 1
        funext n
        simp only [Function.comp_apply]
        omega

theorem jsonFindKey_eq (h : NoSkip ts) (start : Nat) :
    jsonFindKey json ts start key =
      ((ts.drop start).findIdx? (readsKey json key)).map fun n => n + start + 1 :=
  jsonFindKeyFrom_eq (noSkip_drop h start) (by rw [List.length_drop]; omega) start

end Search

-- ---------------------------------------------------------------------------
-- Strings of the response
-- ---------------------------------------------------------------------------

section Strings

variable {json : Bytes} {ts : List Token} {i j : Nat}

/-- What the functions ask of a token, and where the strings say so. -/
structure Answers (json : Bytes) (t : Token) (reads : Bytes → Prop) : Prop where
  key_iff (key : Bytes) : readsKey json key t ↔ reads key
  nil_iff : t.text json = [] ↔ reads []

theorem Answers.congr {t : Token} {reads reads' : Bytes → Prop} (h : Answers json t reads)
    (hIff : ∀ key, reads' key ↔ reads key) : Answers json t reads' :=
  ⟨fun key => (h.key_iff key).trans (hIff key).symm, h.nil_iff.trans (hIff []).symm⟩

theorem answers_string {t : Token} {w : Bytes} {reads : Bytes → Prop}
    (h : t.Reads json .string w) (hReads : ∀ key, reads key ↔ w = key) : Answers json t reads :=
  ⟨fun key => (readsKey_iff h).trans (hReads key).symm, by rw [h.text_eq, hReads]⟩

theorem answers_other {t : Token} {reads : Bytes → Prop} (hType : t.type ≠ .string)
    (hText : t.text json ≠ []) (hReads : ∀ key, ¬reads key) : Answers json t reads :=
  ⟨fun key => by simp [readsKey, hType, hReads], by simp [hText, hReads]⟩

mutual

theorem index_stringsOf (v : Value) {i j : Nat} {key : Bytes} (h : (j, key) ∈ stringsOf v i) :
    i ≤ j ∧ j < i + v.count := by
  cases v with
  | word w => cases h
  | string s =>
    rw [stringsOf, List.mem_singleton, Prod.mk.injEq] at h
    rw [Value.count]
    omega
  | array pad items =>
    have hIndex := index_stringsIn items h
    rw [Value.count]
    omega
  | object pad members =>
    have hIndex := index_stringsAmong members h
    rw [Value.count]
    omega

theorem index_stringsIn (items : Items) {i j : Nat} {key : Bytes}
    (h : (j, key) ∈ stringsIn items i) : i ≤ j ∧ j < i + items.count := by
  cases items with
  | nil => cases h
  | cons before v behind more =>
    rw [Items.count]
    rw [stringsIn, List.mem_append] at h
    rcases h with h | h
    · have hIndex := index_stringsOf v h
      omega
    · have hIndex := index_stringsIn more h
      omega

theorem index_stringsAmong (members : Members) {i j : Nat} {key : Bytes}
    (h : (j, key) ∈ stringsAmong members i) : i ≤ j ∧ j < i + members.count := by
  cases members with
  | nil => cases h
  | cons before name behindKey beforeValue v behind more =>
    rw [Members.count]
    rw [stringsAmong, List.mem_cons, List.mem_append, Prod.mk.injEq] at h
    rcases h with h | h | h
    · omega
    · have hIndex := index_stringsOf v h
      omega
    · have hIndex := index_stringsAmong more h
      omega

end

mutual

theorem answers_value (v : Value) {i j : Nat} (h : Stands json ts i v) (hLo : i ≤ j)
    (hHi : j < i + v.count) :
    ∃ t, ts[j]? = some t ∧ Answers json t fun key => (j, key) ∈ stringsOf v i := by
  cases v with
  | word w =>
    obtain rfl : i = j := Nat.le_antisymm hLo (Nat.le_of_lt_succ hHi)
    obtain ⟨t, hToken, hType, hText⟩ := h.text_ne_nil (fun s hString => by cases hString)
    exact ⟨t, hToken, answers_other hType hText fun key => List.not_mem_nil⟩
  | string s =>
    obtain rfl : i = j := Nat.le_antisymm hLo (Nat.le_of_lt_succ hHi)
    obtain ⟨t, hToken, hReads⟩ := h.string
    exact ⟨t, hToken, answers_string hReads fun key => by
      rw [stringsOf, List.mem_singleton, Prod.mk.injEq, and_iff_right rfl, eq_comm]⟩
  | array pad items =>
    rw [Value.count] at hHi
    rcases Nat.eq_or_lt_of_le hLo with rfl | hBehind
    · obtain ⟨t, hToken, hType, hText⟩ := h.text_ne_nil (fun s hString => by cases hString)
      refine ⟨t, hToken, answers_other hType hText fun key hMem => ?_⟩
      have hIndex := index_stringsIn items hMem
      omega
    · exact answers_items items h.array.2 hBehind (by omega)
  | object pad members =>
    rw [Value.count] at hHi
    rcases Nat.eq_or_lt_of_le hLo with rfl | hBehind
    · obtain ⟨t, hToken, hType, hText⟩ := h.text_ne_nil (fun s hString => by cases hString)
      refine ⟨t, hToken, answers_other hType hText fun key hMem => ?_⟩
      have hIndex := index_stringsAmong members hMem
      omega
    · exact answers_members members h.object.2 hBehind (by omega)

theorem answers_items (items : Items) {i j : Nat} (h : ItemsStand json ts i items) (hLo : i ≤ j)
    (hHi : j < i + items.count) :
    ∃ t, ts[j]? = some t ∧ Answers json t fun key => (j, key) ∈ stringsIn items i := by
  cases items with
  | nil =>
    rw [Items.count] at hHi
    omega
  | cons before v behind more =>
    obtain ⟨hValue, hMore⟩ := h.cons
    rw [Items.count] at hHi
    by_cases hInside : j < i + v.count
    · obtain ⟨t, hToken, hAnswers⟩ := answers_value v hValue hLo hInside
      refine ⟨t, hToken, hAnswers.congr fun key => ?_⟩
      rw [stringsIn, List.mem_append, or_iff_left]
      intro hMem
      have hIndex := index_stringsIn more hMem
      omega
    · obtain ⟨t, hToken, hAnswers⟩ := answers_items more hMore (Nat.le_of_not_lt hInside) (by omega)
      refine ⟨t, hToken, hAnswers.congr fun key => ?_⟩
      rw [stringsIn, List.mem_append, or_iff_right]
      intro hMem
      exact hInside (index_stringsOf v hMem).2

theorem answers_members (members : Members) {i j : Nat} (h : MembersStand json ts i members)
    (hLo : i ≤ j) (hHi : j < i + members.count) :
    ∃ t, ts[j]? = some t ∧ Answers json t fun key => (j, key) ∈ stringsAmong members i := by
  cases members with
  | nil =>
    rw [Members.count] at hHi
    omega
  | cons before name behindKey beforeValue v behind more =>
    obtain ⟨⟨t, hToken, hReads⟩, hValue, hMore⟩ := h.cons
    rw [Members.count] at hHi
    rcases Nat.eq_or_lt_of_le hLo with rfl | hBehind
    · refine ⟨t, hToken, answers_string hReads fun key => ?_⟩
      rw [stringsAmong, List.mem_cons, Prod.mk.injEq, and_iff_right rfl, or_iff_left, eq_comm]
      rw [List.mem_append]
      rintro (hMem | hMem)
      · have hIndex := index_stringsOf v hMem
        omega
      · have hIndex := index_stringsAmong more hMem
        omega
    · have hOther (key : Bytes) : (j, key) ≠ (i, Json.spelling name) := by
        intro hSame
        have hIndex := congrArg Prod.fst hSame
        dsimp only at hIndex
        omega
      by_cases hInside : j < i + 1 + v.count
      · obtain ⟨t, hToken, hAnswers⟩ := answers_value v hValue hBehind hInside
        refine ⟨t, hToken, hAnswers.congr fun key => ?_⟩
        rw [stringsAmong, List.mem_cons, or_iff_right (hOther key), List.mem_append, or_iff_left]
        intro hMem
        have hIndex := index_stringsAmong more hMem
        omega
      · obtain ⟨t, hToken, hAnswers⟩ := answers_members more hMore (Nat.le_of_not_lt hInside)
          (by omega)
        refine ⟨t, hToken, hAnswers.congr fun key => ?_⟩
        rw [stringsAmong, List.mem_cons, or_iff_right (hOther key), List.mem_append, or_iff_right]
        intro hMem
        exact hInside (index_stringsOf v hMem).2

end

end Strings

-- ---------------------------------------------------------------------------
-- What is found
-- ---------------------------------------------------------------------------

section Lookup

variable {d : Json.Document} {rest : Bytes} {start idx fld : Nat} {key : Bytes}

theorem answers_document (d : Json.Document) (rest : Bytes) {j : Nat} (h : j < d.tokens.length) :
    ∃ t, d.tokens[j]? = some t ∧
      Answers (d.bytes ++ rest) t fun key => (j, key) ∈ stringsOf d.value 0 := by
  rw [Json.Document.tokens, Value.length_tokens] at h
  exact answers_value d.value (d.stands rest) (Nat.zero_le j) (by omega)

theorem noSkip_document (d : Json.Document) : NoSkip d.tokens := by
  have hNil : NoSkip [] := trivial
  have h := noSkip_value d.value d.before.bytes.length hNil
  rwa [List.append_nil] at h

/-- A string of the value has a token. -/
theorem lt_of_mem_strings {j : Nat} (h : (j, key) ∈ stringsOf d.value 0) :
    j < d.tokens.length := by
  have hIndex := index_stringsOf d.value h
  rw [Json.Document.tokens, Value.length_tokens]
  omega

/-- **The search.** It finds what follows the first string from there on that reads the key. -/
theorem jsonFindKey_eq_some :
    jsonFindKey (d.bytes ++ rest) d.tokens start key = some idx ↔ FirstKey d start key idx := by
  have hReads (n : Nat) (h : n < (d.tokens.drop start).length) :
      readsKey (d.bytes ++ rest) key ((d.tokens.drop start)[n]) ↔
        (start + n, key) ∈ stringsOf d.value 0 := by
    rw [List.length_drop] at h
    obtain ⟨t, hToken, hAnswers⟩ := answers_document d rest (j := start + n) (by omega)
    rw [List.getElem?_eq_some_iff] at hToken
    obtain ⟨_, rfl⟩ := hToken
    rw [List.getElem_drop]
    exact hAnswers.key_iff key
  rw [jsonFindKey_eq (noSkip_document d), Option.map_eq_some_iff]
  constructor
  · rintro ⟨n, hFind, rfl⟩
    obtain ⟨hLt, hKey, hBefore⟩ := List.findIdx?_eq_some_iff_getElem.1 hFind
    refine ⟨start + n, by omega, Nat.le_add_right _ _, (hReads n hLt).1 hKey, ?_⟩
    intro m hLo hHi hMem
    obtain ⟨k, rfl⟩ := Nat.exists_eq_add_of_le hLo
    exact hBefore k (by omega) ((hReads k (by omega)).2 hMem)
  · rintro ⟨j, rfl, hLo, hMem, hBefore⟩
    obtain ⟨n, rfl⟩ := Nat.exists_eq_add_of_le hLo
    have hIndex := lt_of_mem_strings hMem
    have hLt : n < (d.tokens.drop start).length := by
      rw [List.length_drop]
      omega
    refine ⟨n, List.findIdx?_eq_some_iff_getElem.2 ⟨hLt, (hReads n hLt).2 hMem, ?_⟩, by omega⟩
    intro k hK hKey
    exact hBefore (start + k) (Nat.le_add_right _ _) (by omega) ((hReads k (by omega)).1 hKey)

theorem FirstKey.unique {idx' : Nat} (h : FirstKey d start key idx)
    (h' : FirstKey d start key idx') : idx = idx' :=
  Option.some.inj ((@jsonFindKey_eq_some d [] start idx key |>.2 h).symm.trans
    (jsonFindKey_eq_some.2 h'))

theorem jsonUnescape_eq_nil {w : Bytes} : jsonUnescape w = [] ↔ w = [] := by
  cases w with
  | nil => exact iff_of_true rfl rfl
  | cons c w =>
    refine iff_of_false ?_ (List.cons_ne_nil _ _)
    unfold jsonUnescape
    split <;> simp_all

variable {objKey fieldKey : Bytes}

/-- What is returned for the first strings that read the keys. -/
theorem extractJsonField_of_first {t : Token} (hObj : FirstKey d 0 objKey idx)
    (hField : FirstKey d idx fieldKey fld) (hToken : d.tokens[fld]? = some t) :
    extractJsonField true (d.bytes ++ rest) d.tokens objKey fieldKey =
      .ok ((fieldText true (t.text (d.bytes ++ rest))).map fun text => ⟨idx, fld, text⟩) := by
  rw [extractJsonField, jsonFindKey_eq_some.2 hObj]
  dsimp only
  rw [jsonFindKey_eq_some.2 hField]
  dsimp only
  rw [hToken]

theorem extractJsonField_of_missing (hObj : FirstKey d 0 objKey idx)
    (hField : FirstKey d idx fieldKey fld) (hToken : d.tokens[fld]? = none) :
    extractJsonField true (d.bytes ++ rest) d.tokens objKey fieldKey = .error fld := by
  rw [extractJsonField, jsonFindKey_eq_some.2 hObj]
  dsimp only
  rw [jsonFindKey_eq_some.2 hField]
  dsimp only
  rw [hToken]

theorem extractJsonField_of_none
    (h : ∀ idx fld, FirstKey d 0 objKey idx → ¬FirstKey d idx fieldKey fld) :
    extractJsonField true (d.bytes ++ rest) d.tokens objKey fieldKey = .ok none := by
  rw [extractJsonField]
  cases hObj : jsonFindKey (d.bytes ++ rest) d.tokens 0 objKey with
  | none => rfl
  | some idx =>
    dsimp only
    cases hField : jsonFindKey (d.bytes ++ rest) d.tokens idx fieldKey with
    | none => rfl
    | some fld =>
      exact absurd (jsonFindKey_eq_some.1 hField) (h idx fld (jsonFindKey_eq_some.1 hObj))

/-- Where nothing is returned. -/
theorem extractJsonField_none_iff :
    extractJsonField true (d.bytes ++ rest) d.tokens objKey fieldKey = .ok none ↔
      ∀ idx fld, FirstKey d 0 objKey idx → FirstKey d idx fieldKey fld →
        (fld, []) ∈ stringsOf d.value 0 := by
  by_cases hFirst : ∃ idx fld, FirstKey d 0 objKey idx ∧ FirstKey d idx fieldKey fld
  · obtain ⟨idx, fld, hObj, hField⟩ := hFirst
    have hOnly : (∀ idx fld, FirstKey d 0 objKey idx → FirstKey d idx fieldKey fld →
        (fld, []) ∈ stringsOf d.value 0) ↔ (fld, []) ∈ stringsOf d.value 0 := by
      refine ⟨fun h => h idx fld hObj hField, fun h idx' fld' hObj' hField' => ?_⟩
      obtain rfl := hObj.unique hObj'
      obtain rfl := hField.unique hField'
      exact h
    rw [hOnly]
    by_cases hLt : fld < d.tokens.length
    · obtain ⟨t, hToken, hAnswers⟩ := answers_document d rest hLt
      rw [extractJsonField_of_first hObj hField hToken, ← hAnswers.nil_iff, Except.ok.injEq,
        Option.map_eq_none_iff, fieldText]
      simp
    · rw [extractJsonField_of_missing hObj hField (List.getElem?_eq_none (by omega))]
      exact iff_of_false (fun h => by cases h) fun h => hLt (lt_of_mem_strings h)
  · refine iff_of_true (extractJsonField_of_none fun idx fld hObj hField =>
      hFirst ⟨idx, fld, hObj, hField⟩) fun idx fld hObj hField => ?_
    exact absurd ⟨idx, fld, hObj, hField⟩ hFirst

/-- A text that is returned is the one of the first strings. -/
theorem extractJsonField_some {f : Extracted}
    (h : extractJsonField true (d.bytes ++ rest) d.tokens objKey fieldKey = .ok (some f)) :
    FirstKey d 0 objKey f.idx ∧ FirstKey d f.idx fieldKey f.fld := by
  rw [extractJsonField] at h
  split at h
  · cases h
  · rename_i idx hObj
    split at h
    · cases h
    · rename_i fld hFld
      split at h
      · cases h
      · obtain ⟨text, -, rfl⟩ := Option.map_eq_some_iff.1 (Except.ok.inj h)
        exact ⟨jsonFindKey_eq_some.1 hObj, jsonFindKey_eq_some.1 hFld⟩

theorem memberAt_stands {json : Bytes} {ts : List Token} (members : Members) {i j : Nat}
    {v : Value} (h : MembersStand json ts i members) (hAt : memberAt key members i = some (j, v)) :
    Stands json ts j v := by
  cases members with
  | nil => cases hAt
  | cons before name behindKey beforeValue w behind more =>
    obtain ⟨-, hValue, hMore⟩ := h.cons
    rw [memberAt] at hAt
    split at hAt
    · cases hAt
      exact hValue
    · exact memberAt_stands more hMore hAt

theorem fieldAt_stands (rest : Bytes) {f : Extracted} (h : fieldAt d objKey fieldKey = some f) :
    ∃ s, Stands (d.bytes ++ rest) d.tokens f.fld (.string s) ∧
      f.text = jsonUnescape (Json.spelling s) := by
  have hDocument := d.stands rest
  rw [fieldAt] at h
  split at h
  · rename_i members hValue
    rw [hValue] at hDocument
    split at h
    · rename_i fields hMember
      have hObject := memberAt_stands _ hDocument.object.2 hMember
      split at h
      · rename_i s hField
        cases h
        exact ⟨s, memberAt_stands _ hObject.object.2 hField, rfl⟩
      · cases h
    · cases h
  · cases h

/-- **Extracting a field.** What is returned is the field of the response exactly if its keys
are the first strings that read so, and the text is not empty; or where the response has no
such field, no text follows. -/
theorem extractJsonField_iff (d : Json.Document) (rest objKey fieldKey : Bytes) :
    extractJsonField true (d.bytes ++ rest) d.tokens objKey fieldKey =
        .ok (fieldAt d objKey fieldKey) ↔
      FieldFirst d objKey fieldKey := by
  rw [FieldFirst]
  cases hField : fieldAt d objKey fieldKey with
  | none => exact extractJsonField_none_iff
  | some f =>
    obtain ⟨s, hStands, hText⟩ := fieldAt_stands rest hField
    obtain ⟨t, hToken, hReads⟩ := hStands.string
    dsimp only
    have hText' : f.text ≠ [] ↔ Json.spelling s ≠ [] := by
      rw [hText, Ne, jsonUnescape_eq_nil]
    have hReturned (hObj : FirstKey d 0 objKey f.idx) (hFld : FirstKey d f.idx fieldKey f.fld) :
        extractJsonField true (d.bytes ++ rest) d.tokens objKey fieldKey = .ok (some f) ↔
          f.text ≠ [] := by
      rw [extractJsonField_of_first hObj hFld hToken, hReads.text_eq, fieldText, hText',
        Except.ok.injEq]
      by_cases hNil : Json.spelling s = []
      · simp [hNil]
      · simp [hNil, ← hText]
    constructor
    · intro hExtract
      obtain ⟨hObj, hFld⟩ := extractJsonField_some hExtract
      exact ⟨(hReturned hObj hFld).1 hExtract, hObj, hFld⟩
    · rintro ⟨hSome, hObj, hFld⟩
      exact (hReturned hObj hFld).2 hSome

section Examples

/-- `{"lrc":{},"tlyric":{"lyric":"x"}}` -/
def laterLyric : Json.Document :=
  let key (s : String) (h : ∀ b ∈ ascii s, 0x20 ≤ b ∧ b ≠ 0x22 ∧ b ≠ 0x5C) :=
    plainPieces (ascii s) h
  ⟨noPad, .object noPad
    (.cons noPad (key "lrc" (List.all_iff_forall_prop.1 (by decide))) noPad noPad
      (.object noPad .nil) noPad
    (.cons noPad (key "tlyric" (List.all_iff_forall_prop.1 (by decide))) noPad noPad
      (.object noPad (.cons noPad (key "lyric" (List.all_iff_forall_prop.1 (by decide))) noPad noPad
        (.string (key "x" (List.all_iff_forall_prop.1 (by decide)))) noPad .nil)) noPad
    .nil)), noPad⟩

/-- The text of a later object is returned. -/
theorem laterLyric_taken : ¬∀ (d : Json.Document) (rest objKey fieldKey : Bytes),
    extractJsonField true (d.bytes ++ rest) d.tokens objKey fieldKey =
      .ok (fieldAt d objKey fieldKey) := by
  intro hAll
  have hLater := hAll laterLyric [] (ascii "lrc") (ascii "lyric")
  revert hLater
  decide +kernel

end Examples

end Lookup

end EspMiplay.Lyrics
