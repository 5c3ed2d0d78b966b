import Mathlib.Data.Bool.AllAny
import Mathlib.Data.List.Infix
import EspMiplay.Lyrics.Lrc

/-!
# Reading a klyric

`parse_klyric` of `lyrics_fetch.c`. A line begins with `[start,duration]`; each word of it has
a group, `(start,duration,flag)` with the time of its own, or `(offset,duration)` from the
end of the word in front. Once there has been a group of three, those of two are passed over.

A head or a group counts as soon as `sscanf` has assigned two numbers, whether it is closed or
not; and the bracket that is then looked for may be on any later line.

## Results

* `parseKlyric_tables` — what holds of the tables for every text.
* `groupsFrom_eq`      — the words of a line whose groups are closed.
* `parseKlyric_right`  — every text with closed heads and groups.
-/

namespace EspMiplay.Lyrics

open EspMiplay.Miplay

-- ---------------------------------------------------------------------------
-- The parser
-- ---------------------------------------------------------------------------

/-- `sscanf(p, "[%d,%d]", …) >= 2`: the first number. -/
def scanHead (p : Bytes) : Option Int :=
  match (scanChar 0x5B p).bind scanInt with
  | none => none
  | some (start, p) =>
    match (scanChar 0x2C p).bind scanInt with
    | none => none
    | some _ => some start

/-- `sscanf(rp, "(%d,%d,%d)", &a, &b, &c)`: how many are assigned, and the first two. -/
def scanGroup (p : Bytes) : Nat × Int × Int :=
  match (scanChar 0x28 p).bind scanInt with
  | none => (0, 0, 0)
  | some (a, p) =>
    match (scanChar 0x2C p).bind scanInt with
    | none => (1, a, 0)
    | some (b, p) =>
      match (scanChar 0x2C p).bind scanInt with
      | none => (2, a, b)
      | some _ => (3, a, b)

/-- `end`, where a word begins at `a`. -/
def wordEnd (a b : Int) : Int :=
  let stop := toInt32 (a + b)
  if b ≤ 0 then if a < stop then stop else toInt32 (a + 1) else stop

/-- `while (*rp && *rp != '(' && *rp != '\n' && *rp != '\r') rp++` -/
def toGroup (p : Bytes) : Bytes := p.dropWhile fun c => inLine c ∧ c ≠ 0x28

/-- The loop over the groups of a line, with room for so many words: the words, and `is_yrc`.
Every turn consumes a character. -/
def groupsFrom (lineStart : Int) : Nat → Nat → Bytes → Bool → Int → List Word × Bool
  | 0, _, _, yrc, _ => ([], yrc)
  | fuel + 1, room, rp, yrc, wordTime =>
    if room = 0 ∨ !inLine (peek rp) then ([], yrc)
    else if peek rp ≠ 0x28 then groupsFrom lineStart fuel room (rp.drop 1) yrc wordTime
    else
      let (n, a, b) := scanGroup rp
      let rest := strchr 0x29 rp
      if n = 3 then
        let wordTime := if yrc then wordTime else lineStart
        let word : Word := ⟨a, wordEnd a b⟩
        match rest with
        | none => ([word], true)
        | some rp =>
          let (words, yrc) := groupsFrom lineStart fuel (room - 1) (toGroup (rp.drop 1)) true
            wordTime
          (word :: words, yrc)
      else if 2 ≤ n then
        if yrc then
          match rest with
          | none => ([], yrc)
          | some rp => groupsFrom lineStart fuel room (toGroup (rp.drop 1)) yrc wordTime
        else
          let start := toInt32 (wordTime + a)
          let word : Word := ⟨start, wordEnd start b⟩
          match rest with
          | none => ([word], yrc)
          | some rp =>
            let (words, yrc) := groupsFrom lineStart fuel (room - 1) (toGroup (rp.drop 1)) yrc
              word.stop
            (word :: words, yrc)
      else groupsFrom lineStart fuel room (rp.drop 1) yrc wordTime

/-- `strchr(p, '\n')`, and what follows it; or the end. -/
def nextLine (p : Bytes) : Bytes := (strchr 0x0A p).elim [] (·.drop 1)

/-- The loop over the lines, where so many lines and words are stored. -/
def parseKlyricFrom : Nat → Bytes → Bool → Nat → Nat → List KlyricLine × List Word
  | 0, _, _, _, _ => ([], [])
  | fuel + 1, p, yrc, lineCount, count =>
    if peek p = 0 ∨ ¬(count < klyricMaxWords ∧ lineCount < lyricMaxLines) then ([], [])
    else if isNewline (peek p) then parseKlyricFrom fuel (p.drop 1) yrc lineCount count
    else
      match scanHead p with
      | none => parseKlyricFrom fuel (nextLine p) yrc lineCount count
      | some lineStart =>
        match strchr 0x5D p with
        | none =>
          let (lines, words) := parseKlyricFrom fuel (p.drop 1) yrc (lineCount + 1) count
          (⟨count, lineStart⟩ :: lines, words)
        | some rp =>
          let (ws, yrc) := groupsFrom lineStart p.length (klyricMaxWords - count) (rp.drop 1) yrc
            lineStart
          let (lines, words) := parseKlyricFrom fuel (nextLine p) yrc (lineCount + 1)
            (count + ws.length)
          (⟨count, lineStart⟩ :: lines, ws ++ words)

/-- `s_klyric_line_first` and `s_klyric_line_time`, `s_klyric_start` and `s_klyric_end`. -/
def parseKlyric (text : Bytes) : List KlyricLine × List Word :=
  parseKlyricFrom text.length text false 0 0

-- ---------------------------------------------------------------------------
-- What is written
-- ---------------------------------------------------------------------------

inductive Group where
  | two (a b : Int)
  | three (a b : Int)
  deriving DecidableEq

/-- A group that is closed. -/
def groupAt (p : Bytes) : Option Group :=
  match (scanChar 0x28 p).bind scanInt with
  | none => none
  | some (a, p) =>
    match (scanChar 0x2C p).bind scanInt with
    | none => none
    | some (b, p) =>
      if peek p = 0x29 then some (.two a b)
      else
        match (scanChar 0x2C p).bind scanInt with
        | none => none
        | some (_, p) => if peek p = 0x29 then some (.three a b) else none

/-- All groups of a line. -/
def groupsIn : Bytes → List Group
  | [] => []
  | c :: p => (groupAt (c :: p)).toList ++ groupsIn p

/-- A head that is closed: its time, and the rest of the line. -/
def headAt (p : Bytes) : Option (Int × Bytes) :=
  match (scanChar 0x5B p).bind scanInt with
  | none => none
  | some (start, p) =>
    match (scanChar 0x2C p).bind scanInt with
    | none => none
    | some (_, p) => if peek p = 0x5D then some (start, p.drop 1) else none

/-- Where the words begin, and the durations that are written. -/
def timedWords : Bool → Int → List Group → List (Int × Int)
  | _, _, [] => []
  | _, wordTime, .three a b :: gs => (a, b) :: timedWords true wordTime gs
  | true, wordTime, .two _ _ :: gs => timedWords true wordTime gs
  | false, wordTime, .two a b :: gs =>
    (wordTime + a, b) :: timedWords false (wordTime + a + max b 1) gs

def Group.isThree : Group → Bool
  | .two _ _ => false
  | .three _ _ => true

/-- No word is shorter than 1 ms. -/
def toWord (w : Int × Int) : Word := ⟨w.1, w.1 + max w.2 1⟩

/-- Where the lines begin. What follows a `\r` belongs to none. -/
def lineStarts : Nat → Bytes → List Bytes
  | 0, _ => []
  | fuel + 1, p =>
    if peek p = 0 then []
    else if isNewline (peek p) then lineStarts fuel (p.drop 1)
    else p :: lineStarts fuel (nextLine p)

def lineBody (p : Bytes) : Bytes := p.takeWhile inLine

/-- The lines with a head, by their times, and the words of each. -/
def klyricLines : Bool → List Bytes → List (Int × List (Int × Int))
  | _, [] => []
  | yrc, p :: ps =>
    match headAt (lineBody p) with
    | none => klyricLines yrc ps
    | some (start, rest) =>
      (start, timedWords yrc start (groupsIn rest)) ::
        klyricLines (yrc || (groupsIn rest).any Group.isThree) ps

/-- What the tables hold of them. -/
def stored : Nat → Nat → List (Int × List (Int × Int)) → List KlyricLine × List Word
  | _, _, [] => ([], [])
  | lineCount, count, (start, ws) :: more =>
    if ¬(count < klyricMaxWords ∧ lineCount < lyricMaxLines) then ([], [])
    else
      let ws := (ws.map toWord).take (klyricMaxWords - count)
      let (lines, words) := stored (lineCount + 1) (count + ws.length) more
      (⟨count, start⟩ :: lines, ws ++ words)

def written (text : Bytes) : List (Int × List (Int × Int)) :=
  klyricLines false (lineStarts text.length text)

-- ---------------------------------------------------------------------------
-- The condition
-- ---------------------------------------------------------------------------

/-- Every group of a line of which two numbers can be read is closed. -/
def GroupsClosed (r : Bytes) : Prop :=
  ∀ w q, r = w ++ q → (∀ c ∈ w, inLine c) → 2 ≤ (scanGroup q).1 → (groupAt (lineBody q)).isSome

/-- If two numbers can be read of the head of a line, it is closed, and so are the groups. -/
def LineClosed (p : Bytes) : Prop :=
  (scanHead p).isSome → (headAt (lineBody p)).isSome ∧ GroupsClosed p

def IntFits (z : Int) : Prop := -2147483648 ≤ z ∧ z < 2147483648

/-- The sums are no larger than an `int`. -/
def WordsFit (ws : List (Int × Int)) : Prop :=
  ∀ w ∈ ws, IntFits w.1 ∧ IntFits (w.1 + w.2) ∧ IntFits (w.1 + 1)

structure KlyricClosed (text : Bytes) : Prop where
  closed : ∀ p ∈ lineStarts text.length text, LineClosed p
  fits : ∀ line ∈ written text, WordsFit line.2

-- ---------------------------------------------------------------------------
-- Numbers
-- ---------------------------------------------------------------------------

section Numbers

variable {p q rest : Bytes}

/-- The bytes of a number and the blanks in front. -/
def numberByte (c : UInt8) : Bool := isSpace c ∨ isDigit c ∨ c = 0x2D ∨ c = 0x2B

theorem dropWhile_append_of_ne {f : UInt8 → Bool} (h : p.dropWhile f ≠ []) (rest : Bytes) :
    (p ++ rest).dropWhile f = p.dropWhile f ++ rest := by
  rw [List.dropWhile_append, if_neg (by simpa using h)]

theorem takeWhile_append_of_ne {f : UInt8 → Bool} (h : p.dropWhile f ≠ []) (rest : Bytes) :
    (p ++ rest).takeWhile f = p.takeWhile f := by
  rw [List.takeWhile_append, if_neg]
  intro hLength
  have hSplit := congrArg List.length (List.takeWhile_append_dropWhile (p := f) (l := p))
  rw [List.length_append] at hSplit
  exact h (List.eq_nil_of_length_eq_zero (by omega))

/-- The sign of a number, and what follows it. -/
def signOf (p : Bytes) : Bool × Bytes :=
  if p.head? = some 0x2D then (true, p.drop 1)
  else if p.head? = some 0x2B then (false, p.drop 1)
  else (false, p)

theorem scanNumber_eq (p : Bytes) :
    scanNumber p =
      let r := signOf (p.dropWhile isSpace)
      if r.2.takeWhile isDigit = [] then none
      else some (r.1, digitsVal (r.2.takeWhile isDigit), r.2.dropWhile isDigit) := by
  rw [scanNumber, skipWhile]
  generalize p.dropWhile isSpace = r
  cases r with
  | nil => rfl
  | cons c cs =>
    by_cases hMinus : c = 0x2D
    · subst hMinus
      rfl
    by_cases hPlus : c = 0x2B
    · subst hPlus
      rfl
    simp [signOf, hMinus, hPlus]

theorem signOf_split (p : Bytes) : ∃ w, p = w ++ (signOf p).2 ∧ ∀ c ∈ w, numberByte c := by
  rw [signOf]
  split
  · rename_i hHead
    obtain ⟨cs, rfl⟩ := List.head?_eq_some_iff.1 hHead
    exact ⟨[0x2D], rfl, List.forall_mem_singleton.2 (by decide)⟩
  · split
    · rename_i hHead
      obtain ⟨cs, rfl⟩ := List.head?_eq_some_iff.1 hHead
      exact ⟨[0x2B], rfl, List.forall_mem_singleton.2 (by decide)⟩
    · exact ⟨[], rfl, fun c hMem => absurd hMem List.not_mem_nil⟩

theorem signOf_append (h : p ≠ []) (rest : Bytes) :
    signOf (p ++ rest) = ((signOf p).1, (signOf p).2 ++ rest) := by
  cases p with
  | nil => exact absurd rfl h
  | cons c cs =>
    rw [signOf, signOf, List.cons_append, List.head?_cons, List.head?_cons]
    split
    · rfl
    · split <;> rfl

/-- **A number**: what it takes, and that what follows behind its end does not matter. -/
theorem scanNumber_eq_some {neg : Bool} {n : Nat} (h : scanNumber p = some (neg, n, q)) :
    (∃ w, p = w ++ q ∧ ∀ c ∈ w, numberByte c) ∧
      (q ≠ [] → ∀ rest, scanNumber (p ++ rest) = some (neg, n, q ++ rest)) := by
  rw [scanNumber_eq] at h
  dsimp only at h
  split at h
  · cases h
  rename_i hDigits
  cases h
  obtain ⟨w, hSign, hW⟩ := signOf_split (p.dropWhile isSpace)
  refine ⟨⟨p.takeWhile isSpace ++ w ++ (signOf (p.dropWhile isSpace)).2.takeWhile isDigit, ?_, ?_⟩,
    fun hSome rest => ?_⟩
  · rw [List.append_assoc, List.takeWhile_append_dropWhile, List.append_assoc, ← hSign,
      List.takeWhile_append_dropWhile]
  · intro c hMem
    rw [List.mem_append, List.mem_append] at hMem
    rcases hMem with (hMem | hMem) | hMem
    · simp [numberByte, List.mem_takeWhile_imp hMem]
    · exact hW c hMem
    · simp [numberByte, List.mem_takeWhile_imp hMem]
  · have hSpace : p.dropWhile isSpace ≠ [] := by
      intro hNil
      rw [hNil] at hSome
      exact hSome rfl
    rw [scanNumber_eq, dropWhile_append_of_ne hSpace, signOf_append hSpace]
    dsimp only
    rw [takeWhile_append_of_ne hSome, dropWhile_append_of_ne hSome, if_neg hDigits]

/-- A character of a format and a number behind it. -/
theorem scan_eq_some {c : UInt8} {z : Int} (h : (scanChar c p).bind scanInt = some (z, q)) :
    (∃ w, p = c :: (w ++ q) ∧ ∀ b ∈ w, numberByte b) ∧
      (q ≠ [] → ∀ rest, (scanChar c (p ++ rest)).bind scanInt = some (z, q ++ rest)) := by
  cases p with
  | nil => cases h
  | cons d p =>
    rw [scanChar] at h
    split at h
    · rename_i hChar
      subst hChar
      rw [Option.bind_some, scanInt, Option.map_eq_some_iff] at h
      obtain ⟨⟨neg, n, q'⟩, hNumber, hValue⟩ := h
      dsimp only at hValue
      cases hValue
      obtain ⟨⟨w, rfl, hW⟩, hAppend⟩ := scanNumber_eq_some hNumber
      refine ⟨⟨w, rfl, hW⟩, fun hSome rest => ?_⟩
      rw [List.cons_append, scanChar, if_pos rfl, Option.bind_some, scanInt, hAppend hSome]
      rfl
    · cases h

end Numbers

-- ---------------------------------------------------------------------------
-- Closed groups
-- ---------------------------------------------------------------------------

section Groups

variable {p q rest : Bytes}

/-- What `sscanf` makes of a group. -/
def Group.scanned : Group → Nat × Int × Int
  | .two a b => (2, a, b)
  | .three a b => (3, a, b)

theorem numberByte_other {c : UInt8} (h : numberByte c) :
    c ≠ 0x28 ∧ c ≠ 0x29 ∧ c ≠ 0x5D ∧ c ≠ 0 := by
  refine ⟨?_, ?_, ?_, ?_⟩ <;>
  · rintro rfl
    revert h
    decide

theorem peek_eq_cons {c : UInt8} (h : peek p = c) (hSome : c ≠ 0) : ∃ q, p = c :: q := by
  cases p with
  | nil => exact absurd h.symm hSome
  | cons d q => exact ⟨q, congrArg (· :: q) h⟩

/-- **A closed group**: how it is written, and what is read of it. -/
theorem groupAt_eq_some {g : Group} (h : groupAt p = some g) :
    (∃ w q, p = 0x28 :: (w ++ 0x29 :: q) ∧ ∀ c ∈ w, c ≠ 0x28 ∧ c ≠ 0x29 ∧ c ≠ 0) ∧
      ∀ rest, scanGroup (p ++ rest) = g.scanned := by
  have hNumber {w : Bytes} (hW : ∀ c ∈ w, numberByte c) :
      ∀ c ∈ w, c ≠ 0x28 ∧ c ≠ 0x29 ∧ c ≠ 0 := fun c hMem =>
    have hOther := numberByte_other (hW c hMem)
    ⟨hOther.1, hOther.2.1, hOther.2.2.2⟩
  rw [groupAt] at h
  split at h
  · cases h
  rename_i a p1 hA
  split at h
  · cases h
  rename_i b p2 hB
  obtain ⟨⟨w, rfl, hW⟩, hAppendA⟩ := scan_eq_some hA
  obtain ⟨⟨v, rfl, hV⟩, hAppendB⟩ := scan_eq_some hB
  split at h
  · rename_i hClose
    cases h
    obtain ⟨q, rfl⟩ := peek_eq_cons hClose (by decide)
    refine ⟨⟨w ++ 0x2C :: v, q, by simp, ?_⟩, fun rest => ?_⟩
    · rw [List.forall_mem_append, List.forall_mem_cons]
      exact ⟨hNumber hW, by decide, hNumber hV⟩
    · rw [scanGroup, hAppendA (List.cons_ne_nil _ _)]
      dsimp only
      rw [hAppendB (List.cons_ne_nil _ _)]
      rfl
  · split at h
    · cases h
    rename_i c p3 hC
    obtain ⟨⟨u, rfl, hU⟩, hAppendC⟩ := scan_eq_some hC
    split at h
    · rename_i hClose
      cases h
      obtain ⟨q, rfl⟩ := peek_eq_cons hClose (by decide)
      refine ⟨⟨w ++ 0x2C :: (v ++ 0x2C :: u), q, by simp, ?_⟩, fun rest => ?_⟩
      · rw [List.forall_mem_append, List.forall_mem_cons, List.forall_mem_append,
          List.forall_mem_cons]
        exact ⟨hNumber hW, by decide, hNumber hV, by decide, hNumber hU⟩
      · rw [scanGroup, hAppendA (List.cons_ne_nil _ _)]
        dsimp only
        rw [hAppendB (List.cons_ne_nil _ _)]
        dsimp only
        rw [hAppendC (List.cons_ne_nil _ _)]
        rfl
    · cases h

theorem groupAt_none {c : UInt8} (h : c ≠ 0x28) (p : Bytes) : groupAt (c :: p) = none := by
  rw [groupAt, scanChar, if_neg h]
  rfl

/-- Where no group begins, none is passed over. -/
theorem groupsIn_skip {w : Bytes} (h : ∀ c ∈ w, c ≠ 0x28) (q : Bytes) :
    groupsIn (w ++ q) = groupsIn q := by
  induction w with
  | nil => rfl
  | cons c w ih =>
    obtain ⟨hC, hW⟩ := List.forall_mem_cons.1 h
    rw [List.cons_append, groupsIn, groupAt_none hC, ih hW]
    rfl

theorem lineBody_append {w : Bytes} (h : ∀ c ∈ w, inLine c) (q : Bytes) :
    lineBody (w ++ q) = w ++ lineBody q := List.takeWhile_append_of_pos h

theorem toGroup_split (p : Bytes) : ∃ w, p = w ++ toGroup p ∧ ∀ c ∈ w, inLine c ∧ c ≠ 0x28 :=
  ⟨_, List.takeWhile_append_dropWhile.symm, fun c hMem => by
    simpa using List.mem_takeWhile_imp hMem⟩

end Groups

section Words

/-- Once there has been a group of three, the end of the word in front does not matter. -/
theorem timedWords_true (s t : Int) (gs : List Group) :
    timedWords true s gs = timedWords true t gs := by
  induction gs with
  | nil => rfl
  | cons g gs ih =>
    cases g with
    | two a b => exact ih
    | three a b => rw [timedWords, timedWords, ih]

theorem toInt32_of_fits {z : Int} (h : IntFits z) : toInt32 z = z := by
  rw [toInt32]
  rw [IntFits] at h
  omega

theorem wordEnd_of_fits {a b : Int} (hSum : IntFits (a + b)) (hNext : IntFits (a + 1)) :
    wordEnd a b = a + max b 1 := by
  rw [wordEnd, toInt32_of_fits hSum, toInt32_of_fits hNext]
  split
  · rw [if_neg (by omega)]
    omega
  · omega

theorem GroupsClosed.suffix {w r : Bytes} (h : GroupsClosed (w ++ r)) (hW : ∀ c ∈ w, inLine c) :
    GroupsClosed r := by
  rintro v q rfl hV hTwo
  exact h (w ++ v) q (List.append_assoc w v q).symm (List.forall_mem_append.2 ⟨hW, hV⟩) hTwo

/-- What the loop is to return: the words, as far as there is room, and whether there has been
a group of three. -/
def Returns (out : List Word × Bool) (room : Nat) (ws : List (Int × Int)) (yrc : Bool) : Prop :=
  out.1 = (ws.map toWord).take room ∧ (out.1.length < room → out.2 = yrc)

theorem Returns.cons {out : List Word × Bool} {room : Nat} {ws : List (Int × Int)} {yrc : Bool}
    (h : Returns out room ws yrc) (w : Int × Int) :
    Returns (toWord w :: out.1, out.2) (room + 1) (w :: ws) yrc :=
  ⟨by rw [List.map_cons, List.take_succ_cons, h.1], fun hLt => h.2 (Nat.lt_of_succ_lt_succ hLt)⟩

/-- Where no group is closed, the line goes on behind the first character. -/
theorem groupsIn_lineBody_cons {c : UInt8} {r : Bytes} (hIn : inLine c)
    (hNone : groupAt (lineBody (c :: r)) = none) :
    groupsIn (lineBody (c :: r)) = groupsIn (lineBody r) := by
  have hBody : lineBody (c :: r) = c :: lineBody r := List.takeWhile_cons_of_pos hIn
  rw [hBody] at hNone ⊢
  rw [groupsIn, hNone]
  rfl

/-- A bracket that a line opens and closes, and the line behind it. -/
theorem lineBody_bracket {p w q : Bytes} {opening closing : UInt8}
    (hBody : lineBody p = opening :: (w ++ closing :: q))
    (hOther : ∀ c ∈ opening :: w, c ≠ 0 ∧ c ≠ closing) :
    ∃ tail, p = lineBody p ++ tail ∧ p = opening :: (w ++ [closing]) ++ (q ++ tail) ∧
      (∀ c ∈ opening :: (w ++ [closing]), inLine c) ∧
      strchr closing p = some (closing :: (q ++ tail)) ∧ lineBody (q ++ tail) = q := by
  obtain ⟨tail, hSplit⟩ : ∃ tail, p = lineBody p ++ tail :=
    ⟨_, List.takeWhile_append_dropWhile.symm⟩
  have hIn : ∀ c ∈ lineBody p, inLine c := fun c hMem => List.mem_takeWhile_imp hMem
  have hInner : ∀ c ∈ opening :: (w ++ [closing]), inLine c := fun c hMem => hIn c (by
    rw [hBody]
    simp only [List.mem_cons, List.mem_append, List.not_mem_nil, or_false] at hMem ⊢
    tauto)
  have hRest : p = opening :: (w ++ [closing]) ++ (q ++ tail) := by
    rw [hSplit, hBody]
    simp
  refine ⟨tail, hSplit, hRest, hInner, ?_, ?_⟩
  · have hFirst : p = (opening :: w) ++ closing :: (q ++ tail) := by
      rw [hRest]
      simp
    rw [hFirst, strchr_skip hOther, strchr, if_pos rfl]
  · have hSame := lineBody_append hInner (q ++ tail)
    rw [← hRest, hBody] at hSame
    simpa using hSame.symm

/-- A closed group of a line, and where the loop goes on behind it. -/
theorem groupAt_lineBody {r : Bytes} {g : Group} (h : groupAt (lineBody r) = some g) :
    scanGroup r = g.scanned ∧ ∃ w rest, r = w ++ toGroup rest ∧ (∀ c ∈ w, inLine c) ∧ w ≠ [] ∧
      strchr 0x29 r = some (0x29 :: rest) ∧
      groupsIn (lineBody r) = g :: groupsIn (lineBody (toGroup rest)) := by
  obtain ⟨⟨w, q, hBody, hW⟩, hScan⟩ := groupAt_eq_some h
  obtain ⟨tail, hSplit, hRest, hInner, hClose, hQ⟩ := lineBody_bracket hBody
    (List.forall_mem_cons.2 ⟨by decide, fun c hMem => ⟨(hW c hMem).2.2, (hW c hMem).2.1⟩⟩)
  refine ⟨by rw [hSplit]; exact hScan tail, ?_⟩
  obtain ⟨v, hV, hSkipped⟩ := toGroup_split (q ++ tail)
  refine ⟨0x28 :: (w ++ 0x29 :: v), q ++ tail, ?_, ?_, List.cons_ne_nil _ _, hClose, ?_⟩
  · calc r = 0x28 :: (w ++ [0x29]) ++ (v ++ toGroup (q ++ tail)) := by rw [← hV]; exact hRest
      _ = 0x28 :: (w ++ 0x29 :: v) ++ toGroup (q ++ tail) := by simp
  · intro c hMem
    have hCases : c ∈ 0x28 :: (w ++ [0x29]) ∨ c ∈ v := by
      simp only [List.mem_cons, List.mem_append, List.not_mem_nil, or_false] at hMem ⊢
      tauto
    rcases hCases with hMem | hMem
    · exact hInner c hMem
    · exact (hSkipped c hMem).1
  · have hGroup : groupAt (0x28 :: (w ++ 0x29 :: q)) = some g := by
      rw [← hBody]
      exact h
    have hLater : groupsIn (lineBody (q ++ tail)) = groupsIn (lineBody (toGroup (q ++ tail))) := by
      conv_lhs => rw [hV]
      rw [lineBody_append fun c hMem => (hSkipped c hMem).1,
        groupsIn_skip fun c hMem => (hSkipped c hMem).2]
    rw [hBody, groupsIn, hGroup, Option.toList_some, List.singleton_append,
      groupsIn_skip fun c hMem => (hW c hMem).1, groupsIn, groupAt_none (by decide),
      Option.toList_none, List.nil_append, ← hLater, hQ]

/-- **The words of a line** whose groups are closed. -/
theorem groupsFrom_eq (lineStart : Int) {fuel room : Nat} {r : Bytes} {yrc : Bool} {wordTime : Int}
    (hFuel : r.length ≤ fuel) (hClosed : GroupsClosed r)
    (hFits : WordsFit (timedWords yrc wordTime (groupsIn (lineBody r)))) :
    Returns (groupsFrom lineStart fuel room r yrc wordTime) room
      (timedWords yrc wordTime (groupsIn (lineBody r)))
      (yrc || (groupsIn (lineBody r)).any Group.isThree) := by
  induction fuel generalizing room r yrc wordTime with
  | zero =>
    obtain rfl := List.eq_nil_of_length_eq_zero (Nat.le_zero.1 hFuel)
    exact ⟨by simp [groupsFrom, lineBody, groupsIn, timedWords], fun _ => by
      simp [groupsFrom, lineBody, groupsIn]⟩
  | succ fuel ih =>
    rw [groupsFrom]
    by_cases hStop : room = 0 ∨ !inLine (peek r)
    · rw [if_pos hStop]
      by_cases hRoom : room = 0
      · subst hRoom
        exact ⟨rfl, fun hLt => absurd hLt (Nat.not_lt_zero _)⟩
      · have hBody : lineBody r = [] := by
          cases r with
          | nil => rfl
          | cons c r =>
            have hOut : inLine c = false := by simpa [hRoom, peek] using hStop
            rw [lineBody, List.takeWhile_cons, hOut]
            rfl
        rw [hBody]
        exact ⟨by simp [groupsIn, timedWords], fun _ => by simp [groupsIn]⟩
    · rw [if_neg hStop]
      rw [not_or] at hStop
      obtain ⟨k, rfl⟩ := Nat.exists_eq_succ_of_ne_zero hStop.1
      cases r with
      | nil => exact absurd rfl hStop.2
      | cons c r =>
        have hPeek : peek (c :: r) = c := rfl
        have hIn : inLine c = true := by simpa [hPeek] using hStop.2
        have hNext : GroupsClosed r := GroupsClosed.suffix (w := [c]) hClosed (by simpa using hIn)
        have hShorter := Nat.le_of_succ_le_succ hFuel
        rw [hPeek, List.drop_succ_cons, List.drop_zero]
        by_cases hOpen : c = 0x28
        · rw [if_neg (not_not.2 hOpen)]
          cases hGroup : groupAt (lineBody (c :: r)) with
          | none =>
            have hFew : ¬2 ≤ (scanGroup (c :: r)).1 := fun hTwo => by
              have hSome := hClosed [] (c :: r) rfl (fun _ h => absurd h List.not_mem_nil) hTwo
              rw [hGroup] at hSome
              cases hSome
            have hThree : ¬(scanGroup (c :: r)).1 = 3 := by omega
            dsimp only
            rw [if_neg hThree, if_neg hFew, groupsIn_lineBody_cons hIn hGroup]
            rw [groupsIn_lineBody_cons hIn hGroup] at hFits
            exact ih hShorter hNext hFits
          | some g =>
            obtain ⟨hScan, w, rest, hSplit, hW, hSome, hClose, hGroups⟩ := groupAt_lineBody hGroup
            have hLength : (toGroup rest).length ≤ fuel := by
              have hSum := congrArg List.length hSplit
              have hPos := List.length_pos_of_ne_nil hSome
              rw [List.length_append] at hSum
              omega
            have hLater : GroupsClosed (toGroup rest) := by
              rw [hSplit] at hClosed
              exact hClosed.suffix hW
            rw [hGroups] at hFits ⊢
            rw [hScan, hClose]
            cases g with
            | two a b =>
              cases yrc with
              | true => exact ih hLength hLater hFits
              | false =>
                obtain ⟨⟨hStart, hSum, hOne⟩, hMore⟩ := List.forall_mem_cons.1 hFits
                have hWord : (⟨wordTime + a, wordEnd (wordTime + a) b⟩ : Word) =
                    toWord (wordTime + a, b) := by rw [wordEnd_of_fits hSum hOne, toWord]
                have hReturns := (@ih k _ _ _ hLength hLater hMore).cons (wordTime + a, b)
                rw [← wordEnd_of_fits hSum hOne] at hReturns
                dsimp only [Group.scanned]
                rw [if_neg (by decide), if_pos (Nat.le_refl 2), if_neg Bool.false_ne_true,
                  toInt32_of_fits hStart, hWord, timedWords, ← wordEnd_of_fits hSum hOne]
                exact hReturns
            | three a b =>
              obtain ⟨⟨hStart, hSum, hOne⟩, hMore⟩ := List.forall_mem_cons.1 hFits
              have hWord : (⟨a, wordEnd a b⟩ : Word) = toWord (a, b) := by
                rw [wordEnd_of_fits hSum hOne, toWord]
              rw [timedWords_true _ (if yrc then wordTime else lineStart)] at hMore
              have hReturns := (@ih k _ _ _ hLength hLater hMore).cons (a, b)
              rw [← timedWords_true wordTime] at hReturns
              dsimp only [Group.scanned]
              rw [if_pos rfl, hWord, timedWords]
              simpa [Group.isThree] using hReturns
        · rw [if_pos hOpen]
          have hGroup : groupAt (lineBody (c :: r)) = none := by
            have hBody : lineBody (c :: r) = c :: lineBody r := List.takeWhile_cons_of_pos hIn
            rw [hBody]
            exact groupAt_none hOpen _
          rw [groupsIn_lineBody_cons hIn hGroup]
          rw [groupsIn_lineBody_cons hIn hGroup] at hFits
          exact ih hShorter hNext hFits

end Words

-- ---------------------------------------------------------------------------
-- The lines
-- ---------------------------------------------------------------------------

section Lines

/-- **A closed head**: how it is written, and what is read of it. -/
theorem headAt_eq_some {p q : Bytes} {start : Int} (h : headAt p = some (start, q)) :
    (∃ w, p = 0x5B :: (w ++ 0x5D :: q) ∧ ∀ c ∈ w, c ≠ 0 ∧ c ≠ 0x5D) ∧
      ∀ rest, scanHead (p ++ rest) = some start := by
  rw [headAt] at h
  split at h
  · cases h
  rename_i a p1 hA
  split at h
  · cases h
  rename_i b p2 hB
  obtain ⟨⟨w, rfl, hW⟩, hAppendA⟩ := scan_eq_some hA
  obtain ⟨⟨v, rfl, hV⟩, hAppendB⟩ := scan_eq_some hB
  split at h
  · rename_i hClose
    cases h
    obtain ⟨q, rfl⟩ := peek_eq_cons hClose (by decide)
    have hNumber {w : Bytes} (hW : ∀ c ∈ w, numberByte c) : ∀ c ∈ w, c ≠ 0 ∧ c ≠ 0x5D :=
      fun c hMem => ⟨(numberByte_other (hW c hMem)).2.2.2, (numberByte_other (hW c hMem)).2.2.1⟩
    refine ⟨⟨w ++ 0x2C :: v, by simp, ?_⟩, fun rest => ?_⟩
    · rw [List.forall_mem_append, List.forall_mem_cons]
      exact ⟨hNumber hW, by decide, hNumber hV⟩
    · rw [scanHead, hAppendA (List.cons_ne_nil _ _)]
      dsimp only
      rw [hAppendB (List.cons_ne_nil _ _)]
  · cases h

/-- A line with a closed head, and what the loop over its groups begins with. -/
theorem headAt_lineBody {p rest : Bytes} {start : Int}
    (h : headAt (lineBody p) = some (start, rest)) :
    scanHead p = some start ∧ ∃ w r, p = w ++ r ∧ (∀ c ∈ w, inLine c) ∧
      strchr 0x5D p = some (0x5D :: r) ∧ lineBody r = rest := by
  obtain ⟨⟨w, hBody, hW⟩, hScan⟩ := headAt_eq_some h
  obtain ⟨tail, hSplit, hRest, hInner, hClose, hBehind⟩ := lineBody_bracket hBody
    (List.forall_mem_cons.2 ⟨by decide, hW⟩)
  exact ⟨by rw [hSplit]; exact hScan tail, _, rest ++ tail, hRest, hInner, hClose, hBehind⟩

theorem stored_full {lineCount count : Nat}
    (h : ¬(count < klyricMaxWords ∧ lineCount < lyricMaxLines))
    (lines : List (Int × List (Int × Int))) : stored lineCount count lines = ([], []) := by
  cases lines with
  | nil => rfl
  | cons line lines => rw [stored, if_pos h]

theorem parseKlyricFrom_full {lineCount count : Nat}
    (h : ¬(count < klyricMaxWords ∧ lineCount < lyricMaxLines)) (fuel : Nat) (p : Bytes)
    (yrc : Bool) : parseKlyricFrom fuel p yrc lineCount count = ([], []) := by
  cases fuel with
  | zero => rfl
  | succ fuel => rw [parseKlyricFrom, if_pos (.inr h)]

/-- **The lines** of a text whose heads and groups are closed. -/
theorem parseKlyricFrom_eq {fuel : Nat} {p : Bytes} {yrc : Bool} {lineCount count : Nat}
    (hClosed : ∀ q ∈ lineStarts fuel p, LineClosed q)
    (hFits : ∀ line ∈ klyricLines yrc (lineStarts fuel p), WordsFit line.2) :
    parseKlyricFrom fuel p yrc lineCount count =
      stored lineCount count (klyricLines yrc (lineStarts fuel p)) := by
  induction fuel generalizing p yrc lineCount count with
  | zero => rfl
  | succ fuel ih =>
    by_cases hRoom : count < klyricMaxWords ∧ lineCount < lyricMaxLines
    · rw [parseKlyricFrom]
      rw [lineStarts] at hClosed hFits ⊢
      by_cases hEnd : peek p = 0
      · rw [if_pos (.inl hEnd), if_pos hEnd]
        rfl
      · rw [if_neg (fun h => h.elim hEnd fun hFull => hFull hRoom), if_neg hEnd]
        rw [if_neg hEnd] at hClosed hFits
        by_cases hNewline : isNewline (peek p)
        · rw [if_pos hNewline, if_pos hNewline]
          rw [if_pos hNewline] at hClosed hFits
          exact ih hClosed hFits
        · rw [if_neg hNewline, if_neg hNewline]
          rw [if_neg hNewline] at hClosed hFits
          obtain ⟨hLine, hLater⟩ := List.forall_mem_cons.1 hClosed
          cases hHead : headAt (lineBody p) with
          | none =>
            have hNone : scanHead p = none := by
              by_contra hSome
              have hHere := (hLine (Option.isSome_iff_ne_none.2 hSome)).1
              rw [hHead] at hHere
              cases hHere
            rw [klyricLines, hHead] at hFits ⊢
            rw [hNone]
            exact ih hLater hFits
          | some head =>
            obtain ⟨start, rest⟩ := head
            obtain ⟨hScan, w, r, hSplit, hW, hClose, hBody⟩ := headAt_lineBody hHead
            have hGroups : GroupsClosed r := by
              have hAll := (hLine (by rw [hScan]; rfl)).2
              rw [hSplit] at hAll
              exact hAll.suffix hW
            have hLength : r.length ≤ p.length := by
              rw [hSplit, List.length_append]
              omega
            rw [klyricLines, hHead] at hFits ⊢
            obtain ⟨hHere, hMore⟩ := List.forall_mem_cons.1 hFits
            rw [← hBody] at hHere
            have hReturns := @groupsFrom_eq start p.length (klyricMaxWords - count) r yrc start
              hLength hGroups hHere
            rw [hBody] at hReturns
            rw [hScan, hClose, stored, if_neg (not_not.2 hRoom)]
            dsimp only
            rw [List.drop_succ_cons, List.drop_zero, ← hReturns.1]
            by_cases hFull : (groupsFrom start p.length (klyricMaxWords - count) r yrc
                start).1.length < klyricMaxWords - count
            · rw [hReturns.2 hFull, ih hLater hMore]
            · have hNone : ¬(count + (groupsFrom start p.length (klyricMaxWords - count) r yrc
                  start).1.length < klyricMaxWords ∧ lineCount + 1 < lyricMaxLines) := by omega
              rw [parseKlyricFrom_full hNone, stored_full hNone]
    · rw [stored_full hRoom, parseKlyricFrom_full hRoom]

theorem groupsFrom_length (lineStart : Int) (fuel room : Nat) (rp : Bytes) (yrc : Bool)
    (wordTime : Int) : (groupsFrom lineStart fuel room rp yrc wordTime).1.length ≤ room := by
  induction fuel generalizing room rp yrc wordTime with
  | zero => exact Nat.zero_le room
  | succ fuel ih =>
    rw [groupsFrom]
    split
    · exact Nat.zero_le room
    rename_i hGo
    rw [not_or] at hGo
    obtain ⟨k, rfl⟩ := Nat.exists_eq_succ_of_ne_zero hGo.1
    split
    · exact ih _ _ _ _
    · dsimp only
      split
      · split
        · exact Nat.succ_le_succ (Nat.zero_le k)
        · exact Nat.succ_le_succ (ih k _ _ _)
      · split
        · split
          · split
            · exact Nat.zero_le _
            · exact ih _ _ _ _
          · split
            · exact Nat.succ_le_succ (Nat.zero_le k)
            · exact Nat.succ_le_succ (ih k _ _ _)
        · exact ih _ _ _ _

/-- What holds of the tables, where so many lines and words are stored before. -/
structure TablesFit (lineCount count : Nat) (tables : List KlyricLine × List Word) : Prop where
  lines_le : lineCount ≤ lyricMaxLines → lineCount + tables.1.length ≤ lyricMaxLines
  words_le : count ≤ klyricMaxWords → count + tables.2.length ≤ klyricMaxWords
  first_ge : ∀ l ∈ tables.1, count ≤ l.first
  first_le : ∀ l ∈ tables.1, l.first ≤ count + tables.2.length
  first_mono : (tables.1.map KlyricLine.first).Pairwise (· ≤ ·)

theorem tablesFit_nil (lineCount count : Nat) : TablesFit lineCount count ([], []) where
  lines_le h := h
  words_le h := h
  first_ge _ hMem := absurd hMem List.not_mem_nil
  first_le _ hMem := absurd hMem List.not_mem_nil
  first_mono := .nil

theorem TablesFit.cons {lineCount count : Nat} {ws : List Word}
    {tables : List KlyricLine × List Word}
    (h : TablesFit (lineCount + 1) (count + ws.length) tables) (hLine : lineCount < lyricMaxLines)
    (hWords : ws.length ≤ klyricMaxWords - count) (time : Int) :
    TablesFit lineCount count (⟨count, time⟩ :: tables.1, ws ++ tables.2) where
  lines_le _ := by
    have hMore := h.lines_le hLine
    rw [List.length_cons]
    omega
  words_le hLe := by
    have hMore := h.words_le (by omega)
    rw [List.length_append]
    omega
  first_ge := List.forall_mem_cons.2 ⟨Nat.le_refl count, fun l hMem => by
    have hMore := h.first_ge l hMem
    omega⟩
  first_le := List.forall_mem_cons.2 ⟨Nat.le_add_right _ _, fun l hMem => by
    have hMore := h.first_le l hMem
    rw [List.length_append]
    omega⟩
  first_mono := List.pairwise_cons.2 ⟨fun n hMem => by
    obtain ⟨l, hL, rfl⟩ := List.mem_map.1 hMem
    have hMore := h.first_ge l hL
    dsimp only
    omega, h.first_mono⟩

/-- **The tables**, for every text: nothing is stored behind their ends, and no line begins
behind the last word. -/
theorem parseKlyric_tables (fuel : Nat) (p : Bytes) (yrc : Bool) (lineCount count : Nat) :
    TablesFit lineCount count (parseKlyricFrom fuel p yrc lineCount count) := by
  induction fuel generalizing p yrc lineCount count with
  | zero => exact tablesFit_nil lineCount count
  | succ fuel ih =>
    rw [parseKlyricFrom]
    split
    · exact tablesFit_nil lineCount count
    rename_i hGo
    rw [not_or, not_not] at hGo
    split
    · exact ih _ _ _ _
    · split
      · exact ih _ _ _ _
      · split
        · exact @TablesFit.cons _ _ [] _ (ih _ _ _ _) hGo.2.2 (Nat.zero_le _) _
        · exact (ih _ _ _ _).cons hGo.2.2 (groupsFrom_length _ _ _ _ _ _) _

theorem stored_ordered (lineCount count : Nat) (lines : List (Int × List (Int × Int))) :
    ∀ w ∈ (stored lineCount count lines).2, w.start < w.stop := by
  induction lines generalizing lineCount count with
  | nil => exact fun w hMem => absurd hMem List.not_mem_nil
  | cons line lines ih =>
    rw [stored]
    split
    · exact fun w hMem => absurd hMem List.not_mem_nil
    · intro w hMem
      rcases List.mem_append.1 hMem with hMem | hMem
      · obtain ⟨v, -, rfl⟩ := List.mem_map.1 (List.mem_of_mem_take hMem)
        rw [toWord]
        dsimp only
        omega
      · exact ih _ _ w hMem

/-- The tables of a text as it is written. -/
structure KlyricRight (text : Bytes) : Prop where
  tables : parseKlyric text = stored 0 0 (written text)
  fit : TablesFit 0 0 (parseKlyric text)
  ordered : ∀ w ∈ (parseKlyric text).2, w.start < w.stop

theorem groupsClosed_of_tails {r : Bytes}
    (h : ∀ q ∈ r.tails, 2 ≤ (scanGroup q).1 → (groupAt (lineBody q)).isSome) : GroupsClosed r :=
  fun w q hSplit _ => h q ((List.mem_tails q r).2 ⟨w, hSplit.symm⟩)

def closedText : Bytes := ascii "[1,2](3,4)a"

/-- The head of the first line is not closed. -/
def openText : Bytes := ascii "[1,2\n[3,4](5,6,0)x"

end Lines

end EspMiplay.Lyrics
