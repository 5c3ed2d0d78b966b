import Mathlib.Data.List.Infix
import EspMiplay.Lib.Json
import EspMiplay.Miplay.TextBounds
import EspMiplay.Lyrics.Lrc

/-!
# The lines of a Kuwo response

`kuwo_lrclist_to_lrc` of `lyrics_fetch.c` looks for `"time"`, and behind the value of that for
`"lineLyric"`, in the plain text; it does not know where an object ends. A line is made of
the two, unless the lyric is no string; then the search goes on behind it.

What is searched for are the places where one of the two names stands in quotes (`marks`).
A time waits until the next lyric, whatever object that is in (`run`).

## Results

* `kuwoLrclistToLrc_eq` — the output is the lines of the pairs, as far as there is room.
* `kuwoWrite_isPrefix`, `kuwoWrite_eq` — what fits.
* `kuwoPairsFrom_eq`    — the pairs of a text whose marks are all reached.
-/

namespace EspMiplay.Lyrics

open EspMiplay.Miplay

-- ---------------------------------------------------------------------------
-- The function
-- ---------------------------------------------------------------------------

def httpLyricBuf : Nat := 32768

def quotedLrclist : Bytes := ascii "\"lrclist\""

def quotedTime : Bytes := ascii "\"time\""

def quotedLineLyric : Bytes := ascii "\"lineLyric\""

/-- Behind the next `:`. -/
def behindColon (p : Bytes) : Option Bytes := (strchr 0x3A p).map (·.drop 1)

/-- `*p == ' ' || *p == '"'` -/
def spaceOrQuote (c : UInt8) : Bool := c = 0x20 ∨ c = 0x22

/-- `!*p || *p == '"' || *p == ',' || *p == '}'` -/
def endsTime (c : UInt8) : Bool := c = 0 ∨ c = 0x22 ∨ c = 0x2C ∨ c = 0x7D

/-- `time_s`, of what stands behind the colon. -/
def timeText (p : Bytes) : Bytes :=
  ((skipWhile spaceOrQuote p).takeWhile fun c => !endsTime c).take 15

/-- Where `p` stands when `time_s` has been read. -/
def timeRest (p : Bytes) : Bytes := (skipWhile spaceOrQuote p).drop (timeText p).length

/-- `line` with this much room, and where `lp` stands then. -/
def lineText : Nat → Bytes → Bytes × Bytes
  | 0, p => ([], p)
  | room + 1, p =>
    if peek p = 0 ∨ peek p = 0x22 then ([], p)
    else if peek p = 0x5C ∧ peek (p.drop 1) ≠ 0 then
      if peek (p.drop 1) = 0x6E ∨ peek (p.drop 1) = 0x72 then ([], p.drop 2)
      else
        let (text, rest) := lineText room (p.drop 2)
        (peek (p.drop 1) :: text, rest)
    else
      let (text, rest) := lineText room (p.drop 1)
      (peek p :: text, rest)

/-- `%02d` -/
def twoDigits (n : Nat) : Bytes := if n < 10 then 0x30 :: decimal n else decimal n

def kuwoLine (totalMs : Int) (line : Bytes) : Bytes :=
  let ms := (max 0 totalMs).toNat
  ascii "[" ++ twoDigits (ms / 60000) ++ ascii ":" ++ twoDigits (ms % 60000 / 1000) ++
    ascii "." ++ twoDigits (ms % 1000 / 10) ++ ascii "]" ++ line ++ ascii "\n"

/-- Behind the colon of the time. -/
def timePlace (time : Bytes) : Bytes := (behindColon time).getD []

/-- Behind the colon of the lyric and the spaces there. -/
def lyricPlace (lyric : Bytes) : Bytes :=
  skipWhile (fun c => c = 0x20) ((behindColon lyric).getD [])

/-- The next `"time"` and the `"lineLyric"` behind its value. -/
def nextTimeAndLyric (p : Bytes) : Option (Bytes × Bytes) := do
  let time ← strstr quotedTime p
  let value ← behindColon time
  let lyric ← strstr quotedLineLyric (timeRest value)
  let _ ← behindColon lyric
  some (time, lyric)

/-- `"[%02d:%02d.%02d]%s\n"` of a time and a lyric; `totalMs` is what `strtof` and the
rounding make of a text. -/
def lineOfPair (totalMs : Bytes → Int) (pair : Bytes × Bytes) : Bytes :=
  kuwoLine (totalMs (timeText (timePlace pair.1)))
    (lineText (lyricTextLen - 1) ((lyricPlace pair.2).drop 1)).1

/-- The loop: the text in `out`, and `oi`. -/
def kuwoFrom (totalMs : Bytes → Int) : Nat → Bytes → Bytes → Bytes × Nat
  | 0, out, _ => (out, out.length)
  | fuel + 1, out, p =>
    match nextTimeAndLyric p with
    | none => (out, out.length)
    | some (time, lyric) =>
      if peek (lyricPlace lyric) ≠ 0x22 then kuwoFrom totalMs fuel out (lyricPlace lyric)
      else
        let line := lineOfPair totalMs (time, lyric)
        let room := httpLyricBuf - out.length
        if room ≤ line.length then (out ++ line.take (room - 1), out.length)
        else if httpLyricBuf - (out ++ line).length < 64 then (out ++ line, (out ++ line).length)
        else
          kuwoFrom totalMs fuel (out ++ line)
            (lineText (lyricTextLen - 1) ((lyricPlace lyric).drop 1)).2

def kuwoLrclistToLrc (totalMs : Bytes → Int) (resp : Bytes) : Option Bytes := do
  let p ← strstr quotedLrclist resp
  let (out, oi) := kuwoFrom totalMs p.length [] p
  if oi = 0 then none else some out

-- ---------------------------------------------------------------------------
-- Pairs and lines
-- ---------------------------------------------------------------------------

/-- The places of the times and lyrics that lines are made of. -/
def kuwoPairsFrom : Nat → Bytes → List (Bytes × Bytes)
  | 0, _ => []
  | fuel + 1, p =>
    match nextTimeAndLyric p with
    | none => []
    | some (time, lyric) =>
      if peek (lyricPlace lyric) ≠ 0x22 then kuwoPairsFrom fuel (lyricPlace lyric)
      else
        (time, lyric) ::
          kuwoPairsFrom fuel (lineText (lyricTextLen - 1) ((lyricPlace lyric).drop 1)).2

def kuwoPairs (resp : Bytes) : List (Bytes × Bytes) :=
  (strstr quotedLrclist resp).elim [] fun p => kuwoPairsFrom p.length p

/-- As many of the lines as there is room for. -/
def kuwoWrite (out : Bytes) : List Bytes → Bytes × Nat
  | [] => (out, out.length)
  | line :: more =>
    let room := httpLyricBuf - out.length
    if room ≤ line.length then (out ++ line.take (room - 1), out.length)
    else if httpLyricBuf - (out ++ line).length < 64 then (out ++ line, (out ++ line).length)
    else kuwoWrite (out ++ line) more

/-- The text that is returned for these lines. -/
def kuwoWritten (lines : List Bytes) : Option Bytes :=
  if (kuwoWrite [] lines).2 = 0 then none else some (kuwoWrite [] lines).1

section Writing

variable (totalMs : Bytes → Int)

theorem kuwoFrom_eq (fuel : Nat) (out p : Bytes) :
    kuwoFrom totalMs fuel out p =
      kuwoWrite out ((kuwoPairsFrom fuel p).map (lineOfPair totalMs)) := by
  induction fuel generalizing out p with
  | zero => rfl
  | succ fuel ih =>
    rw [kuwoFrom, kuwoPairsFrom]
    cases nextTimeAndLyric p with
    | none => rfl
    | some pair =>
      obtain ⟨time, lyric⟩ := pair
      by_cases hString : peek (lyricPlace lyric) = 0x22
      · simp only [ne_eq, hString, not_true_eq_false, if_false, List.map_cons, kuwoWrite, ih]
      · simp only [ne_eq, hString, not_false_eq_true, if_true, ih]


theorem kuwoLrclistToLrc_eq (resp : Bytes) :
    kuwoLrclistToLrc totalMs resp =
      (strstr quotedLrclist resp).bind fun _ =>
        kuwoWritten ((kuwoPairs resp).map (lineOfPair totalMs)) := by
  rw [kuwoLrclistToLrc, kuwoPairs]
  cases strstr quotedLrclist resp with
  | none => rfl
  | some p =>
    simp only [Option.bind_some, Option.bind_eq_bind, Option.elim_some, kuwoFrom_eq, kuwoWritten]
    rfl

end Writing

theorem kuwoWrite_isPrefix (out : Bytes) (lines : List Bytes) :
    (kuwoWrite out lines).1 <+: out ++ lines.flatten := by
  induction lines generalizing out with
  | nil => simp [kuwoWrite]
  | cons line more ih =>
    rw [kuwoWrite, List.flatten_cons]
    split_ifs
    · exact (List.prefix_append_right_inj out).2
        ((List.take_prefix _ line).trans (List.prefix_append line _))
    · rw [← List.append_assoc]
      exact List.prefix_append _ _
    · rw [← List.append_assoc]
      exact ih (out ++ line)

/-- Every line is written where 64 bytes are left behind all of them. -/
theorem kuwoWrite_eq {out : Bytes} {lines : List Bytes}
    (h : (out ++ lines.flatten).length + 64 ≤ httpLyricBuf) :
    kuwoWrite out lines = (out ++ lines.flatten, (out ++ lines.flatten).length) := by
  induction lines generalizing out with
  | nil => simp [kuwoWrite]
  | cons line more ih =>
    rw [List.flatten_cons, ← List.append_assoc] at h ⊢
    have hLength := h
    simp only [List.length_append] at hLength
    rw [kuwoWrite]
    rw [if_neg (by omega), if_neg (by rw [List.length_append]; omega)]
    exact ih h

-- ---------------------------------------------------------------------------
-- The marks of a text
-- ---------------------------------------------------------------------------

def isTime (m : Bytes) : Bool := quotedTime.isPrefixOf m

def isLyric (m : Bytes) : Bool := quotedLineLyric.isPrefixOf m

/-- The lyric at this place is taken for a string. -/
def isRead (m : Bytes) : Bool := peek (lyricPlace m) = 0x22

/-- The places where one of the two names stands in quotes. -/
def marks (p : Bytes) : List Bytes := p.tails.filter fun m => isTime m || isLyric m

/-- Which times and lyrics are put together, with the time that waits. -/
def run : Option Bytes → List Bytes → List (Bytes × Bytes)
  | _, [] => []
  | none, m :: more => if isTime m then run (some m) more else run none more
  | some time, m :: more =>
    if isLyric m then if isRead m then (time, m) :: run none more else run none more
    else run (some time) more

/-- What is read at a mark leaves all the marks behind it. -/
structure MarkReached (m : Bytes) : Prop where
  colon : (behindColon m).isSome
  time : isTime m → marks (timeRest (timePlace m)) = (marks m).tail
  read : isLyric m → isRead m →
    marks (lineText (lyricTextLen - 1) ((lyricPlace m).drop 1)).2 = (marks m).tail
  passed : isLyric m → isRead m = false → marks (lyricPlace m) = (marks m).tail

section Places

variable {p v : Bytes}

theorem timeRest_suffix (p : Bytes) : timeRest p <:+ p :=
  (List.drop_suffix _ _).trans (List.dropWhile_suffix _)

theorem behindColon_suffix (h : behindColon p = some v) : v <:+ p ∧ v.length < p.length := by
  rw [behindColon, Option.map_eq_some_iff] at h
  obtain ⟨e, hColon, rfl⟩ := h
  obtain ⟨w, rest, rfl, rfl, -⟩ := strchr_eq_some hColon
  refine ⟨⟨w ++ [0x3A], by simp⟩, ?_⟩
  simp only [List.drop_succ_cons, List.drop_zero, List.length_append, List.length_cons]
  omega

theorem lyricPlace_suffix (m : Bytes) : lyricPlace m <:+ m := by
  rw [lyricPlace]
  cases h : behindColon m with
  | none => exact List.nil_suffix
  | some v => exact (List.dropWhile_suffix _).trans (behindColon_suffix h).1

theorem lineText_suffix (room : Nat) (p : Bytes) : (lineText room p).2 <:+ p := by
  induction room generalizing p with
  | zero => exact List.suffix_refl p
  | succ room ih =>
    rw [lineText]
    split_ifs
    · exact List.suffix_refl p
    · exact List.drop_suffix 2 p
    · exact (ih _).trans (List.drop_suffix 2 p)
    · exact (ih _).trans (List.drop_suffix 1 p)

end Places

section Marks

variable {p q m : Bytes}

theorem marks_cons (c : UInt8) (p : Bytes) :
    marks (c :: p) =
      if isTime (c :: p) || isLyric (c :: p) then (c :: p) :: marks p else marks p := by
  rw [marks, List.tails_cons, List.filter_cons, marks]

theorem mem_marks : m ∈ marks p ↔ m <:+ p ∧ (isTime m || isLyric m) := by
  rw [marks, List.mem_filter, List.mem_tails]

/-- The marks of what is left of a text. -/
theorem marks_suffix (h : q <:+ p) : marks q = (marks p).filter (·.length ≤ q.length) := by
  obtain ⟨w, rfl⟩ := h
  induction w with
  | nil =>
    rw [List.nil_append, eq_comm, List.filter_eq_self]
    intro m hMem
    exact decide_eq_true (mem_marks.1 hMem).1.length_le
  | cons c w ih =>
    rw [List.cons_append, marks_cons]
    split_ifs
    · rw [List.filter_cons_of_neg, ih]
      simp only [List.length_cons, List.length_append, decide_eq_true_eq]
      omega
    · exact ih

/-- The first place of a name, and the marks from there on. -/
theorem strstr_marks {needle : Bytes} (hNeedle : needle ≠ [])
    (hMark : ∀ m, needle.isPrefixOf m → (isTime m || isLyric m) = true) (hNul : 0 ∉ p) :
    (marks p).dropWhile (fun m => !needle.isPrefixOf m) =
      (strstr needle p).elim [] fun m => m :: (marks m).tail := by
  induction p with
  | nil => simp [strstr, hNeedle, marks, isTime, isLyric, quotedTime, quotedLineLyric, ascii]
  | cons c p ih =>
    obtain ⟨hFirst, hRest⟩ := not_or.1 (List.mem_cons.not.1 hNul)
    rw [strstr]
    split_ifs with hPrefix hHere
    · rw [marks_cons, if_pos (hMark _ hPrefix), List.dropWhile_cons_of_neg (by simp [hPrefix]),
        Option.elim_some, marks_cons, if_pos (hMark _ hPrefix), List.tail_cons]
    · exact absurd hHere.symm hFirst
    · rw [marks_cons, ← ih hRest]
      split_ifs
      · rw [List.dropWhile_cons_of_pos (by simp [hPrefix])]
      · rfl

theorem strstr_time (hNul : 0 ∉ p) : (marks p).dropWhile (fun m => !isTime m) =
    (strstr quotedTime p).elim [] fun m => m :: (marks m).tail :=
  strstr_marks (by decide) (fun m h => by rw [show isTime m = true from h, Bool.true_or]) hNul

theorem strstr_lyric (hNul : 0 ∉ p) : (marks p).dropWhile (fun m => !isLyric m) =
    (strstr quotedLineLyric p).elim [] fun m => m :: (marks m).tail :=
  strstr_marks (by decide) (fun m h => by rw [show isLyric m = true from h, Bool.or_true]) hNul

/-- A time is looked for where none waits. -/
theorem run_none (ms : List Bytes) : run none ms = run none (ms.dropWhile fun m => !isTime m) := by
  induction ms with
  | nil => rfl
  | cons m more ih =>
    cases hTime : isTime m with
    | true => rw [List.dropWhile_cons_of_neg (by simp [hTime])]
    | false => rw [List.dropWhile_cons_of_pos (by simp [hTime]), ← ih, run, hTime, if_neg (by simp)]

/-- A lyric is looked for where a time waits. -/
theorem run_some (time : Bytes) (ms : List Bytes) :
    run (some time) ms = run (some time) (ms.dropWhile fun m => !isLyric m) := by
  induction ms with
  | nil => rfl
  | cons m more ih =>
    cases hLyric : isLyric m with
    | true => rw [List.dropWhile_cons_of_neg (by simp [hLyric])]
    | false =>
      rw [List.dropWhile_cons_of_pos (by simp [hLyric]), ← ih, run, hLyric, if_neg (by simp)]

/-- The pairs are those of the marks. -/
theorem kuwoPairsFrom_eq {fuel : Nat} (hFuel : p.length ≤ fuel) (hNul : 0 ∉ p)
    (hMarks : ∀ m ∈ marks p, MarkReached m) :
    kuwoPairsFrom fuel p = run none (marks p) := by
  induction fuel generalizing p with
  | zero =>
    rw [List.eq_nil_of_length_eq_zero (Nat.le_zero.1 hFuel)]
    rfl
  | succ fuel ih =>
    rw [kuwoPairsFrom, nextTimeAndLyric, run_none, strstr_time hNul]
    cases hFound : strstr quotedTime p with
    | none => rfl
    | some time =>
      obtain ⟨hPrefix, hTimeIn⟩ := strstr_eq_some hFound
      have hTime : isTime time = true := List.isPrefixOf_iff_prefix.2 hPrefix
      have hReached := hMarks time (mem_marks.2 ⟨hTimeIn, by rw [hTime, Bool.true_or]⟩)
      obtain ⟨v, hColon⟩ := Option.isSome_iff_exists.1 hReached.colon
      have hBehind := hReached.time hTime
      rw [timePlace, hColon, Option.getD_some] at hBehind
      obtain ⟨hValue, hShorter⟩ := behindColon_suffix hColon
      have hRestIn := (timeRest_suffix v).trans (hValue.trans hTimeIn)
      rw [Option.elim_some, run, if_pos hTime, run_some, ← hBehind,
        strstr_lyric fun h => hNul (hRestIn.mem h)]
      simp only [Option.bind_eq_bind, Option.bind_some, hColon]
      cases hNext : strstr quotedLineLyric (timeRest v) with
      | none => rfl
      | some lyric =>
        obtain ⟨hPrefix, hLyricIn⟩ := strstr_eq_some hNext
        have hLyric : isLyric lyric = true := List.isPrefixOf_iff_prefix.2 hPrefix
        have hReached := hMarks lyric
          (mem_marks.2 ⟨hLyricIn.trans hRestIn, by rw [hLyric, Bool.or_true]⟩)
        obtain ⟨u, hColon⟩ := Option.isSome_iff_exists.1 hReached.colon
        -- what is left behind the lyric is shorter than the text
        have hGo {rest : Bytes} (hRest : rest <:+ lyric) :
            kuwoPairsFrom fuel rest = run none (marks rest) := by
          have hIn := hRest.trans (hLyricIn.trans hRestIn)
          have hLength := (hRest.trans (hLyricIn.trans (timeRest_suffix v))).length_le
          have hWhole := hTimeIn.length_le
          refine ih (by omega) (fun h => hNul (hIn.mem h)) fun m hMem => ?_
          obtain ⟨hSuffix, hName⟩ := mem_marks.1 hMem
          exact hMarks m (mem_marks.2 ⟨hSuffix.trans hIn, hName⟩)
        simp only [Option.bind_some, hColon, Option.elim_some]
        rw [run, if_pos hLyric]
        cases hRead : isRead lyric with
        | true =>
          have hQuote : peek (lyricPlace lyric) = 0x22 := by simpa [isRead] using hRead
          rw [if_neg (by simp [hQuote]), if_pos rfl, ← hReached.read hLyric hRead,
            hGo ((lineText_suffix _ _).trans
              ((List.drop_suffix 1 _).trans (lyricPlace_suffix lyric)))]
        | false =>
          have hOther : peek (lyricPlace lyric) ≠ 0x22 := by simpa [isRead] using hRead
          rw [if_pos hOther, if_neg (by simp), ← hReached.passed hLyric hRead,
            hGo (lyricPlace_suffix lyric)]

end Marks

end EspMiplay.Lyrics
