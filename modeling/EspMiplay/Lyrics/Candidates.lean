import EspMiplay.Lyrics.FieldLookup

/-!
# Choosing a song

`search_parse_best` of `lyrics_fetch.c`: of the songs in the response of a search, the one
whose name matches the title best. The members of a song are told from what is nested in
their values by the places of the tokens in the text, not by their number.

A name is kept in 64 bytes, and so is the title that it is compared with. An id is what
`strtoul` reads of a number or of a text.

## Results

* `passBelow_eq`              — the walk passes over a whole value.
* `scanFrom_eq`               — what is read of a song.
* `searchParseBest_selects`   — which song is chosen.
-/

namespace EspMiplay.Lyrics

open EspMiplay.Miplay
open Json (Token Value Items Members Stands ItemsStand MembersStand)

-- ---------------------------------------------------------------------------
-- The function
-- ---------------------------------------------------------------------------

def ulongMax : Nat := 4294967295

/-- `strtoul(p, NULL, 10)`; a `long` has 32 bits. -/
def strtoul (p : Bytes) : Nat :=
  (scanNumber p).elim 0 fun (neg, n, _) =>
    if ulongMax < n then ulongMax else if neg then (ulongMax + 1 - n) % (ulongMax + 1) else n

def jsonGetString (json : Bytes) (t : Token) (size : Nat) : Bytes := (t.text json).take (size - 1)

def jsonGetInt (json : Bytes) (t : Token) : Nat := strtoul (jsonGetString json t 24)

def asciiLower (size : Nat) (p : Bytes) : Bytes := ((cstr p).take (size - 1)).map toLower

/-- `song_id` and `song_name` -/
structure Candidate where
  id : Nat
  name : Bytes
  deriving DecidableEq

/-- What a token and the one behind it are read for. -/
def readMember (json : Bytes) (t : Token) (value : Option Token) (c : Candidate) : Candidate :=
  match value with
  | none => c
  | some value =>
    let id :=
      if !readsKey json (ascii "id") t then c.id
      else if value.type = .primitive then jsonGetInt json value
      else if value.type = .string then strtoul (jsonGetString json value 32)
      else c.id
    ⟨id, if readsKey json (ascii "name") t ∧ value.type = .string then jsonGetString json value 64
      else c.name⟩

/-- `while (i < end && i < num && tokens[i].start < stop) i++` -/
def passBelow (ts : List Token) (stop last i : Nat) : Nat :=
  i + (((ts.take last).drop i).takeWhile (·.start < stop)).length

/-- The loop over the members of a song. -/
def scanFrom (json : Bytes) (ts : List Token) (objEnd : Nat) : Nat → Nat → Candidate → Candidate
  | 0, _, c => c
  | fuel + 1, scan, c =>
    match ts[scan]? with
    | none => c
    | some t =>
      if ¬scan < objEnd then c
      else
        let value := ts[scan + 1]?
        scanFrom json ts objEnd fuel
          (passBelow ts (value.elim 0 Token.stop) objEnd (scan + 2)) (readMember json t value c)

def matchScore (cand target : Bytes) : Nat :=
  if cand = [] ∨ target = [] then 0
  else if cand = target then 100
  else if target.isPrefixOf cand then 60 + target.length * 40 / cand.length
  else if (strstr target cand).isSome then 40
  else 0

/-- `score` -/
def storedScore (title : Bytes) (c : Candidate) : Nat :=
  matchScore (asciiLower 64 (c.name.take 63)) (asciiLower 64 title)

/-- `best_id` and `best_score` -/
def keepBest (score : Candidate → Nat) (best : Nat × Int) (c : Candidate) : Nat × Int :=
  if c.id = 0 then best
  else if best.1 = 0 ∨ best.2 < score c then (c.id, score c)
  else best

/-- The loop over the songs. -/
def songsFrom (json : Bytes) (ts : List Token) (title : Bytes) : Nat → Nat → Nat × Int → Nat
  | 0, _, best => best.1
  | s + 1, pos, best =>
    match ts[pos]? with
    | none => best.1
    | some t =>
      if t.type ≠ .object then songsFrom json ts title s (pos + 1) best
      else
        let objEnd := passBelow ts t.stop ts.length (pos + 1)
        let c := scanFrom json ts objEnd ts.length (pos + 1) ⟨0, []⟩
        songsFrom json ts title s objEnd (keepBest (storedScore title) best c)

/-- `si`, where it is the index of an array that is not empty. -/
def songsIndex (json : Bytes) (ts : List Token) : Option Nat := do
  let ri ← jsonFindKey json ts 0 (ascii "result")
  let result ← ts[ri]?
  if result.type ≠ .object then none
  let si ← jsonFindKeyInObject json ts ri (ascii "songs")
  let songs ← ts[si]?
  if songs.type ≠ .array ∨ songs.size < 1 then none
  return si

/-- The function, from the tokens on. -/
def searchParseBest (json : Bytes) (ts : List Token) (title : Bytes) : Nat :=
  match songsIndex json ts with
  | none => 0
  | some si =>
    let first := (ts[si + 1]?).any fun t => t.type = .array
    songsFrom json ts title ((ts[si]?).elim 0 Token.size) (if first then si + 2 else si + 1) (0, -1)

-- ---------------------------------------------------------------------------
-- The song to choose
-- ---------------------------------------------------------------------------

def memberList : Members → List (Bytes × Value)
  | .nil => []
  | .cons _ key _ _ v _ more => (Json.spelling key, v) :: memberList more

/-- The id that a member gives. -/
def idField (m : Bytes × Value) : Option Nat :=
  if m.1 ≠ ascii "id" then none
  else
    match m.2 with
    | .word w => some (strtoul (w.bytes.take 23))
    | .string s => some (strtoul ((Json.spelling s).take 31))
    | _ => none

def nameField (m : Bytes × Value) : Option Bytes :=
  if m.1 ≠ ascii "name" then none
  else
    match m.2 with
    | .string s => some (Json.spelling s)
    | _ => none

/-- The last id and the last name among the members. -/
def candidateOf (members : Members) : Candidate :=
  ⟨((memberList members).filterMap idField).getLastD 0,
    ((memberList members).filterMap nameField).getLastD []⟩

/-- The songs with an id. -/
def candidates : Items → List Candidate
  | .nil => []
  | .cons _ (.object _ members) _ more =>
    if (candidateOf members).id = 0 then candidates more
    else candidateOf members :: candidates more
  | .cons _ _ _ more => candidates more

/-- The score of the whole name. -/
def wholeScore (title : Bytes) (c : Candidate) : Nat :=
  matchScore (c.name.map toLower) (title.map toLower)

/-- The first one with the highest score. -/
def FirstBest (score : Candidate → Nat) (cs : List Candidate) (c : Candidate) : Prop :=
  ∃ front behind, cs = front ++ c :: behind ∧ (∀ b ∈ front, score b < score c) ∧
    ∀ b ∈ behind, score b ≤ score c

/-- Its id; or 0, if there is none. -/
def Selected (score : Candidate → Nat) (cs : List Candidate) (id : Nat) : Prop :=
  if cs = [] then id = 0 else ∃ c, FirstBest score cs c ∧ 0 < c.id ∧ id = c.id

/-- No song is an array. -/
def noArrays : Items → Bool
  | .nil => true
  | .cons _ (.array _ _) _ _ => false
  | .cons _ _ _ more => noArrays more

-- ---------------------------------------------------------------------------
-- Walking by places
-- ---------------------------------------------------------------------------

section Walk

variable {json : Bytes} {ts : List Token} {i : Nat}

theorem takeWhile_inside {tail rest : List Token} {stop : Nat} (hTail : ∀ t ∈ tail, t.start < stop)
    (hRest : ∀ t ∈ rest, stop ≤ t.start) (n : Nat) :
    ((tail ++ rest.take n).takeWhile (·.start < stop)).length = tail.length := by
  rw [List.takeWhile_append_of_pos fun t hMem => decide_eq_true (hTail t hMem)]
  have hNone : (rest.take n).takeWhile (fun t => decide (t.start < stop)) = [] := by
    rw [List.takeWhile_eq_nil_iff]
    intro hPos hFirst
    have hStop := hRest _ (List.mem_of_mem_take (List.getElem_mem hPos))
    exact absurd (of_decide_eq_true hFirst) (Nat.not_lt_of_le hStop)
  rw [hNone, List.append_nil]

/-- **The walk** passes over what stands in a value, and no further. -/
theorem passBelow_eq {v : Value} {t : Token} (h : Stands json ts i v) (hToken : ts[i]? = some t)
    {last : Nat} (hLast : i + v.count ≤ last) :
    passBelow ts t.stop last (i + 1) = i + v.count := by
  obtain ⟨t', tail, rest, hDrop, hCount, hTail, hRest⟩ := h.split
  obtain rfl : t' = t := by
    have hHead := List.head?_drop (l := ts) (i := i)
    rw [hDrop, hToken] at hHead
    exact Option.some.inj hHead
  have hInside : (ts.take last).drop (i + 1) =
      tail ++ rest.take (last - (i + 1) - tail.length) := by
    rw [List.drop_take, ← List.drop_drop, hDrop, List.drop_one, List.tail_cons, List.take_append,
      List.take_of_length_le (by omega)]
  rw [passBelow, hInside, takeWhile_inside hTail hRest, ← hCount]
  omega

/-- What a member gives, as it is kept. -/
def Candidate.stored (c : Candidate) : Candidate := ⟨c.id, c.name.take 63⟩

def readPair (c : Candidate) (m : Bytes × Value) : Candidate :=
  ⟨(idField m).getD c.id, (nameField m).getD c.name⟩

theorem readMember_eq {t value : Token} {key : Bytes} {v : Value} {j : Nat}
    (hKey : t.Reads json .string key) (h : Stands json ts j v) (hValue : ts[j]? = some value)
    (c : Candidate) :
    readMember json t (some value) c.stored = (readPair c (key, v)).stored := by
  have hReads (name : Bytes) : readsKey json name t = decide (key = name) := by
    rw [Bool.eq_iff_iff, readsKey_iff hKey, decide_eq_true_eq]
  cases v with
  | word w =>
    obtain ⟨t', hToken, hWord⟩ := h.word
    obtain rfl := Option.some.inj (hToken.symm.trans hValue)
    by_cases hId : key = ascii "id" <;>
      simp [readMember, readPair, Candidate.stored, idField, nameField, hReads, hId, hWord.type_eq,
        hWord.text_eq, jsonGetInt, jsonGetString]
  | string s =>
    obtain ⟨t', hToken, hString⟩ := h.string
    obtain rfl := Option.some.inj (hToken.symm.trans hValue)
    have hOther : ascii "id" ≠ ascii "name" := by decide
    by_cases hId : key = ascii "id" <;> by_cases hName : key = ascii "name" <;>
      simp [readMember, readPair, Candidate.stored, idField, nameField, hReads, hId, hName,
        hString.type_eq, hString.text_eq, jsonGetString, hOther, hOther.symm]
  | array pad items =>
    obtain ⟨⟨t', hToken, hArray, -⟩, -⟩ := h.array
    obtain rfl := Option.some.inj (hToken.symm.trans hValue)
    simp [readMember, readPair, Candidate.stored, idField, nameField, hArray]
  | object pad members =>
    obtain ⟨⟨t', hToken, hObject, -⟩, -⟩ := h.object
    obtain rfl := Option.some.inj (hToken.symm.trans hValue)
    simp [readMember, readPair, Candidate.stored, idField, nameField, hObject]

/-- **The members of a song.** The loop reads each of them, and nothing that is nested. -/
theorem scanFrom_eq (members : Members) {objEnd fuel : Nat} (h : MembersStand json ts i members)
    (hEnd : i + members.count = objEnd) (hFuel : members.size < fuel)
    (c : Candidate) :
    scanFrom json ts objEnd fuel i c.stored = ((memberList members).foldl readPair c).stored := by
  induction fuel generalizing members i c with
  | zero => omega
  | succ fuel ih =>
    cases members with
    | nil =>
      rw [scanFrom]
      split
      · rfl
      · rw [Members.count] at hEnd
        rw [if_pos (by omega)]
        rfl
    | cons before key behindKey beforeValue v behind more =>
      obtain ⟨⟨t, hToken, hKey⟩, hValue, hMore⟩ := h.cons
      obtain ⟨value, hValueToken⟩ := token_of_stands hValue
      rw [Members.count] at hEnd
      rw [Members.size] at hFuel
      rw [scanFrom, hToken]
      dsimp only
      rw [if_neg (by omega), hValueToken, Option.elim_some,
        passBelow_eq hValue hValueToken (by omega), readMember_eq hKey hValue hValueToken,
        ih more hMore (by omega) (by omega)]
      rfl

/-- What is read one after another is the last of each. -/
theorem foldl_readPair (l : List (Bytes × Value)) (c : Candidate) :
    l.foldl readPair c =
      ⟨(l.filterMap idField).getLastD c.id, (l.filterMap nameField).getLastD c.name⟩ := by
  induction l generalizing c with
  | nil => rfl
  | cons m l ih =>
    rw [List.foldl_cons, ih, readPair, List.filterMap_cons, List.filterMap_cons]
    cases idField m <;> cases nameField m <;>
      simp only [Option.getD_none, Option.getD_some, List.getLastD_cons]

end Walk

-- ---------------------------------------------------------------------------
-- The first one with the highest score
-- ---------------------------------------------------------------------------

section Best

variable {score : Candidate → Nat}

/-- What is kept of the songs so far. -/
def Keeps (score : Candidate → Nat) (cs : List Candidate) (best : Nat × Int) : Prop :=
  if cs = [] then best = (0, -1)
  else ∃ c, FirstBest score cs c ∧ 0 < c.id ∧ best = (c.id, (score c : Int))

theorem keeps_nil (score : Candidate → Nat) : Keeps score [] (0, -1) := by
  rw [Keeps, if_pos rfl]

/-- **A song more.** -/
theorem Keeps.step {cs : List Candidate} {best : Nat × Int} (h : Keeps score cs best)
    {c : Candidate} (hId : c.id ≠ 0) : Keeps score (cs ++ [c]) (keepBest score best c) := by
  rw [keepBest, if_neg hId, Keeps,
    if_neg (List.append_ne_nil_of_right_ne_nil cs (List.cons_ne_nil c []))]
  rw [Keeps] at h
  split at h
  · rename_i hNil
    subst hNil h
    exact ⟨c, ⟨[], [], rfl, by simp, by simp⟩, Nat.pos_of_ne_zero hId, by simp⟩
  · obtain ⟨b, ⟨front, behind, rfl, hFront, hBehind⟩, hPos, rfl⟩ := h
    by_cases hHigher : score b < score c
    · have hReplace : b.id = 0 ∨ (score b : Int) < score c := .inr (Int.ofNat_lt.2 hHigher)
      rw [if_pos hReplace]
      refine ⟨c, ⟨front ++ b :: behind, [], rfl, fun d hMem => ?_, by simp⟩,
        Nat.pos_of_ne_zero hId, rfl⟩
      rcases List.mem_append.1 hMem with hMem | hMem
      · exact (hFront d hMem).trans hHigher
      · rcases List.mem_cons.1 hMem with rfl | hMem
        · exact hHigher
        · exact Nat.lt_of_le_of_lt (hBehind d hMem) hHigher
    · have hNot : ¬(b.id = 0 ∨ (score b : Int) < score c) := by
        rintro (hZero | hLess)
        · omega
        · exact hHigher (Int.ofNat_lt.1 hLess)
      rw [if_neg hNot]
      refine ⟨b, ⟨front, behind ++ [c], by simp, hFront, fun d hMem => ?_⟩, hPos, rfl⟩
      rcases List.mem_append.1 hMem with hMem | hMem
      · exact hBehind d hMem
      · rw [List.mem_singleton.1 hMem]
        exact Nat.le_of_not_lt hHigher

theorem Keeps.selected {cs : List Candidate} {best : Nat × Int} (h : Keeps score cs best) :
    Selected score cs best.1 := by
  rw [Keeps] at h
  rw [Selected]
  split at h
  · rename_i hNil
    rw [if_pos hNil, h]
  · rename_i hSome
    rw [if_neg hSome]
    obtain ⟨c, hFirst, hPos, rfl⟩ := h
    exact ⟨c, hFirst, hPos, rfl⟩

end Best

-- ---------------------------------------------------------------------------
-- The songs
-- ---------------------------------------------------------------------------

section Songs

variable {json title : Bytes} {ts : List Token} {i : Nat}

theorem storedScore_stored (title : Bytes) (c : Candidate) :
    storedScore title c.stored = storedScore title c := by
  rw [storedScore, storedScore, Candidate.stored, List.take_take, Nat.min_self]

/-- What is kept does not depend on the part of a name that is not. -/
theorem keepBest_stored (best : Nat × Int) (c : Candidate) :
    keepBest (storedScore title) best c.stored = keepBest (storedScore title) best c := by
  rw [keepBest, keepBest, storedScore_stored, Candidate.stored]

theorem candidate_eq (members : Members) :
    (memberList members).foldl readPair ⟨0, []⟩ = candidateOf members := foldl_readPair _ _

/-- **A run over the songs.** -/
theorem songsFrom_selected (items : Items) (hFlat : noArrays items) {i : Nat}
    (h : ItemsStand json ts i items) {cs : List Candidate} {best : Nat × Int}
    (hKeeps : Keeps (storedScore title) cs best) :
    Selected (storedScore title) (cs ++ candidates items)
      (songsFrom json ts title items.size i best) := by
  cases items with
  | nil =>
    rw [candidates, List.append_nil]
    exact hKeeps.selected
  | cons before v behind more =>
    obtain ⟨hValue, hMore⟩ := h.cons
    rw [Items.size, songsFrom]
    cases v with
    | array pad items => cases hFlat
    | word w =>
      obtain ⟨t, hToken, hReads⟩ := hValue.word
      rw [hToken]
      dsimp only
      rw [if_pos (by rw [hReads.type_eq]; decide)]
      have hNext : ItemsStand json ts (i + 1) more := hMore
      exact songsFrom_selected more hFlat hNext hKeeps
    | string s =>
      obtain ⟨t, hToken, hReads⟩ := hValue.string
      rw [hToken]
      dsimp only
      rw [if_pos (by rw [hReads.type_eq]; decide)]
      have hNext : ItemsStand json ts (i + 1) more := hMore
      exact songsFrom_selected more hFlat hNext hKeeps
    | object pad members =>
      obtain ⟨⟨t, hToken, hType, -⟩, hMembers⟩ := hValue.object
      have hLt := hValue.lt
      rw [hToken]
      dsimp only
      rw [if_neg (by rw [hType]; decide), passBelow_eq hValue hToken (by omega)]
      rw [Value.count] at hLt hMore ⊢
      have hFuel := members.size_le_count
      have hScan : scanFrom json ts (i + 1 + members.count) ts.length (i + 1) ⟨0, []⟩ = _ :=
        scanFrom_eq members hMembers rfl (by omega) ⟨0, []⟩
      rw [candidate_eq, Nat.add_assoc, Nat.add_comm 1 members.count] at hScan
      rw [hScan, keepBest_stored]
      by_cases hId : (candidateOf members).id = 0
      · rw [candidates, if_pos hId, keepBest, if_pos hId]
        exact songsFrom_selected more hFlat hMore hKeeps
      · rw [candidates, if_neg hId, List.append_cons]
        exact songsFrom_selected more hFlat hMore (hKeeps.step hId)

/-- **The song that is chosen**, where no song of the array is an array: the first one with the
highest score, by the part of its name that is kept; or none, if none has an id. -/
theorem searchParseBest_selects (d : Json.Document) (rest title : Bytes) {si : Nat}
    (hLocated : songsIndex (d.bytes ++ rest) d.tokens = some si) {pad : Json.Blanks}
    {items : Items} (hStands : Stands (d.bytes ++ rest) d.tokens si (.array pad items))
    (hFlat : noArrays items) :
    Selected (storedScore title) (candidates items)
      (searchParseBest (d.bytes ++ rest) d.tokens title) := by
  obtain ⟨⟨t, hToken, -, hSize⟩, hItems⟩ := hStands.array
  have hFirst : ((d.tokens[si + 1]?).any fun t => t.type = .array) = true → items = .nil := by
    intro hArray
    cases items with
    | nil => rfl
    | cons before v behind more =>
      have hValue := hItems.cons.1
      cases v with
      | array pad items => cases hFlat
      | word w =>
        obtain ⟨t, hToken, hReads⟩ := hValue.word
        simp [hToken, hReads.type_eq] at hArray
      | string s =>
        obtain ⟨t, hToken, hReads⟩ := hValue.string
        simp [hToken, hReads.type_eq] at hArray
      | object pad members =>
        obtain ⟨⟨t, hToken, hType, -⟩, -⟩ := hValue.object
        simp [hToken, hType] at hArray
  rw [searchParseBest, hLocated]
  dsimp only
  rw [hToken, Option.elim_some, hSize]
  split
  · rename_i hArray
    obtain rfl := hFirst hArray
    exact (keeps_nil (storedScore title)).selected
  · exact songsFrom_selected items hFlat hItems (keeps_nil (storedScore title))

theorem FirstBest.le {score : Candidate → Nat} {cs : List Candidate} {c b : Candidate}
    (h : FirstBest score cs c) (hMem : b ∈ cs) : score b ≤ score c := by
  obtain ⟨front, behind, rfl, hFront, hBehind⟩ := h
  rcases List.mem_append.1 hMem with hMem | hMem
  · exact (hFront b hMem).le
  · rcases List.mem_cons.1 hMem with rfl | hMem
    · exact Nat.le_refl _
    · exact hBehind b hMem

theorem FirstBest.mem {score : Candidate → Nat} {cs : List Candidate} {c : Candidate}
    (h : FirstBest score cs c) : c ∈ cs := by
  obtain ⟨front, behind, rfl, -, -⟩ := h
  simp

end Songs

section Examples

/-- A key or a text without escapes. -/
def plainKey (s : String) (h : ∀ b ∈ ascii s, 0x20 ≤ b ∧ b ≠ 0x22 ∧ b ≠ 0x5C) : List Json.Piece :=
  plainPieces (ascii s) h

/-- `{"id":…,"name":…}` -/
def songObject (id : Json.Word) (name : List Json.Piece) : Value :=
  .object noPad
    (.cons noPad (plainKey "id" (List.all_iff_forall_prop.1 (by decide))) noPad noPad
      (.word id) noPad
    (.cons noPad (plainKey "name" (List.all_iff_forall_prop.1 (by decide))) noPad noPad
      (.string name) noPad .nil))

/-- `{"result":{"songs":[…]}}` -/
def searchResponse (items : Items) : Json.Document :=
  ⟨noPad, .object noPad (.cons noPad
    (plainKey "result" (List.all_iff_forall_prop.1 (by decide))) noPad noPad
    (.object noPad (.cons noPad
      (plainKey "songs" (List.all_iff_forall_prop.1 (by decide))) noPad noPad
      (.array noPad items) noPad .nil)) noPad .nil), noPad⟩

theorem searchResponse_stands (items : Items) :
    Stands ((searchResponse items).bytes ++ []) (searchResponse items).tokens 4
      (.array noPad items) :=
  (((searchResponse items).stands []).object.2.cons.2.1).object.2.cons.2.1

def aName (n : Nat) : List Json.Piece := List.replicate n (Json.Piece.plain 0x61 (by decide))

def wordMany : Json.Word := ⟨ascii "21", by decide, List.all_iff_forall_prop.1 (by decide)⟩

/-- A song whose name has one letter more than is kept, and one that just fits. -/
def longAndShort : Items :=
  .cons noPad (songObject wordOne (aName 64)) noPad
    (.cons noPad (songObject wordMany (aName 63)) noPad .nil)

/-- By another title neither is better, and the first one is chosen. -/
theorem longAndShort_first :
    Selected (storedScore (ascii "b")) (candidates longAndShort)
      (searchParseBest ((searchResponse longAndShort).bytes ++ [])
        (searchResponse longAndShort).tokens (ascii "b")) :=
  searchParseBest_selects (searchResponse longAndShort) [] (ascii "b") (by decide +kernel)
    (searchResponse_stands longAndShort) rfl

/-- By its whole name the second song is the better one. -/
theorem longAndShort_cut : ¬∀ (d : Json.Document) (rest title : Bytes) (si : Nat)
    (pad : Json.Blanks) (items : Items), songsIndex (d.bytes ++ rest) d.tokens = some si →
      Stands (d.bytes ++ rest) d.tokens si (.array pad items) →
        Selected (wholeScore title) (candidates items)
          (searchParseBest (d.bytes ++ rest) d.tokens title) := by
  intro hAll
  have hSelected := hAll (searchResponse longAndShort) [] (List.replicate 63 0x61) 4 noPad
    longAndShort (by decide +kernel) (searchResponse_stands longAndShort)
  have hFound : searchParseBest ((searchResponse longAndShort).bytes ++ [])
      (searchResponse longAndShort).tokens (List.replicate 63 0x61) = 1 := by decide +kernel
  have hCandidates : candidates longAndShort =
      [⟨1, List.replicate 64 0x61⟩, ⟨21, List.replicate 63 0x61⟩] := by decide +kernel
  rw [hFound, hCandidates, Selected, if_neg (List.cons_ne_nil _ _)] at hSelected
  obtain ⟨c, hFirst, -, hId⟩ := hSelected
  have hLe := hFirst.le (b := ⟨21, List.replicate 63 0x61⟩) (by simp)
  have hMem := hFirst.mem
  simp only [List.mem_cons, List.not_mem_nil, or_false] at hMem
  rcases hMem with rfl | rfl
  · revert hLe
    decide +kernel
  · cases hId

end Examples

end EspMiplay.Lyrics
