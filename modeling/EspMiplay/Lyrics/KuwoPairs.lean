import EspMiplay.Lyrics.Candidates
import EspMiplay.Lyrics.KuwoList

/-!
# The objects of a Kuwo response

The lines that `kuwo_lrclist_to_lrc` makes of a response with an array `lrclist`, and those
that its objects stand for: an object with a time and a string as its lyric has a line.

A lyric in front of the time of its object, or an object with a time and no lyric, leaves a
time that waits, and the next lyric is put to that.

## Results

* `marks_place`      — what is read at a member leaves the members behind it.
* `run_objects_iff`  — the pairs of the marks are those of the objects.
* `paired_iff`       — which responses are converted as they should be.
-/

namespace EspMiplay.Lyrics

open EspMiplay.Miplay
open Json (Blanks Piece Value Items Members)

-- ---------------------------------------------------------------------------
-- Members and objects in their text
-- ---------------------------------------------------------------------------

/-- A member of an object; `rest` is the text from the comma or the brace behind it on. -/
structure MemberPlace where
  key : List Piece
  behindKey : Blanks
  beforeValue : Blanks
  value : Value
  behind : Blanks
  rest : Bytes

namespace MemberPlace

variable (m : MemberPlace)

def name : Bytes := Json.spelling m.key

def valueText : Bytes := m.value.bytes ++ (m.behind.bytes ++ m.rest)

/-- From the key on. -/
def place : Bytes :=
  Json.quoted m.key ++ (m.behindKey.bytes ++ 0x3A :: (m.beforeValue.bytes ++ m.valueText))

def isString : Bool :=
  match m.value with
  | .string _ => true
  | _ => false

/-- From the first character of the value on, behind the quote of a string. -/
def content : Bytes := if m.isString then m.valueText.drop 1 else m.valueText

def spaced : Bool := m.beforeValue.bytes.all (· = 0x20)

def isNamed : Bool := m.name = ascii "time" ∨ m.name = ascii "lineLyric"

/-- A number, or a text that does not begin with a space. -/
def holdsTime : Bool :=
  match m.value with
  | .word _ => true
  | .string s => (Json.spelling s).headD 0x20 ≠ 0x20
  | _ => false

end MemberPlace

/-- The members of an object that has this behind them. -/
def memberPlaces : Members → Bytes → List MemberPlace
  | .nil, _ => []
  | .cons _ key behindKey beforeValue v behind more, rest =>
    ⟨key, behindKey, beforeValue, v, behind, more.bytes ++ rest⟩ :: memberPlaces more rest

/-- The objects of an array that has this behind them. -/
def objectPlaces : Items → Bytes → List (List MemberPlace)
  | .nil, _ => []
  | .cons _ (.object _ members) behind more, rest =>
    memberPlaces members (0x7D :: (behind.bytes ++ (more.bytes ++ rest))) ::
      objectPlaces more rest
  | .cons _ _ _ more, rest => objectPlaces more rest

def timeOf (o : List MemberPlace) : Option MemberPlace := o.find? (·.name = ascii "time")

def lyricOf (o : List MemberPlace) : Option MemberPlace := o.find? (·.name = ascii "lineLyric")

/-- The time and the lyric of an object that has both. -/
def ownPair (o : List MemberPlace) : Option (MemberPlace × MemberPlace) := do
  let time ← timeOf o
  let lyric ← lyricOf o
  if lyric.isString then some (time, lyric) else none

/-- The line of a time and a lyric, read from their first characters on. -/
def ownLine (totalMs : Bytes → Int) (p : MemberPlace × MemberPlace) : Bytes :=
  kuwoLine (totalMs ((p.1.content.takeWhile fun c => !endsTime c).take 15))
    (lineText (lyricTextLen - 1) p.2.content).1

/-- The last of the two names that the object has is the time. -/
def waits (o : List MemberPlace) : Bool :=
  (o.filter (·.isNamed)).getLast?.any (·.name = ascii "time")

/-- Behind an object that leaves a time, the next lyric is none that is read. -/
def NoneWaits : List (List MemberPlace) → Prop
  | [] => True
  | o :: more =>
    (waits o → ∀ l, lyricOf more.flatten = some l → ¬(l.isString ∧ l.spaced)) ∧ NoneWaits more

-- ---------------------------------------------------------------------------
-- Responses
-- ---------------------------------------------------------------------------

/-- A text with an array under the name `lrclist`. -/
structure KuwoResponse where
  front : Bytes
  behindKey : Blanks
  beforeValue : Blanks
  pad : Blanks
  items : Items
  tail : Bytes

namespace KuwoResponse

variable (r : KuwoResponse)

def bytes : Bytes :=
  r.front ++ (quotedLrclist ++ (r.behindKey.bytes ++ 0x3A :: (r.beforeValue.bytes ++
    ((Value.array r.pad r.items).bytes ++ r.tail))))

def objects : List (List MemberPlace) := objectPlaces r.items (0x5D :: r.tail)

def ownPairs : List (MemberPlace × MemberPlace) := r.objects.filterMap ownPair

/-- An object has one time and one lyric at most, and a time is one. -/
structure WellFormed : Prop where
  noNul : 0 ∉ r.bytes
  once : ∀ o ∈ r.objects, ((o.filter (·.isNamed)).map (·.name)).Nodup
  times : ∀ o ∈ r.objects, ∀ m ∈ o, m.name = ascii "time" → m.holdsTime

/-- From `"lrclist"` on, the two names stand in quotes only as keys of members of the
objects. -/
def NamesAreKeys : Prop :=
  (strstr quotedLrclist r.bytes).elim [] marks =
    (r.objects.flatten.filter (·.isNamed)).map (·.place)

/-- The lines are those of the objects, each made of the object's own time and lyric. -/
structure Paired : Prop where
  pairs : kuwoPairs r.bytes = r.ownPairs.map fun p => (p.1.place, p.2.place)
  times : ∀ p ∈ r.ownPairs, skipWhile spaceOrQuote (timePlace p.1.place) = p.1.content
  lyrics : ∀ p ∈ r.ownPairs, (lyricPlace p.2.place).drop 1 = p.2.content
  output : ∀ totalMs, kuwoLrclistToLrc totalMs r.bytes =
    kuwoWritten (r.ownPairs.map (ownLine totalMs))

/-- Every time stands in front of its lyric, with nothing but spaces in front of the two
values, and none is left for the lyric of a later object. -/
structure InOrder : Prop where
  timeFirst : ∀ p ∈ r.ownPairs, p.2.place <:+ p.1.rest
  spaced : ∀ p ∈ r.ownPairs, p.1.spaced ∧ p.2.spaced
  noneWaits : NoneWaits r.objects

end KuwoResponse

-- ---------------------------------------------------------------------------
-- One member
-- ---------------------------------------------------------------------------

theorem isLyric_of_isTime {p : Bytes} (h : isTime p) : isLyric p = false := by
  obtain ⟨rest, rfl⟩ := List.isPrefixOf_iff_prefix.1 h
  simp [isLyric, quotedTime, quotedLineLyric, ascii, List.isPrefixOf]

theorem skipWhile_of_head {pred : UInt8 → Bool} {c : UInt8} {w : Bytes} (h : pred c = false) :
    skipWhile pred (c :: w) = c :: w := by
  rw [skipWhile, List.dropWhile_cons_of_neg (by simp [h])]

/-- A loop that stops in the pad has more than what is behind it left. -/
theorem skipWhile_pad (pred : UInt8 → Bool) (pad rest : Bytes) :
    (∀ b ∈ pad, pred b) ∧ skipWhile pred (pad ++ rest) = skipWhile pred rest ∨
      ∃ b w, b ∈ pad ∧ pred b = false ∧ skipWhile pred (pad ++ rest) = b :: (w ++ rest) := by
  induction pad with
  | nil => exact .inl ⟨fun b h => absurd h List.not_mem_nil, rfl⟩
  | cons c pad ih =>
    cases hSkip : pred c with
    | false => exact .inr ⟨c, pad, List.mem_cons_self, hSkip, skipWhile_of_head hSkip⟩
    | true =>
      have hStep : skipWhile pred (c :: pad ++ rest) = skipWhile pred (pad ++ rest) :=
        List.dropWhile_cons_of_pos hSkip
      rw [hStep]
      rcases ih with ⟨hAll, hEq⟩ | ⟨b, w, hMem, hStop, hEq⟩
      · exact .inl ⟨List.forall_mem_cons.2 ⟨hSkip, hAll⟩, hEq⟩
      · exact .inr ⟨b, w, List.mem_cons_of_mem c hMem, hStop, hEq⟩

namespace MemberPlace

variable {m : MemberPlace}

theorem isTime_place (h : m.name = ascii "time") : isTime m.place := by
  rw [isTime, List.isPrefixOf_iff_prefix]
  refine ⟨m.behindKey.bytes ++ 0x3A :: (m.beforeValue.bytes ++ m.valueText), ?_⟩
  rw [place, Json.quoted, show Json.spelling m.key = ascii "time" from h]
  rfl

theorem isLyric_place (h : m.name = ascii "lineLyric") : isLyric m.place := by
  rw [isLyric, List.isPrefixOf_iff_prefix]
  refine ⟨m.behindKey.bytes ++ 0x3A :: (m.beforeValue.bytes ++ m.valueText), ?_⟩
  rw [place, Json.quoted, show Json.spelling m.key = ascii "lineLyric" from h]
  rfl

theorem isNamed_iff : m.isNamed ↔ m.name = ascii "time" ∨ m.name = ascii "lineLyric" := by
  rw [isNamed, decide_eq_true_eq]

theorem not_isTime_place (h : m.name = ascii "lineLyric") : isTime m.place = false := by
  cases hTime : isTime m.place with
  | false => rfl
  | true => exact absurd (isLyric_place h) (by simp [isLyric_of_isTime hTime])

theorem behindColon_place (h : m.isNamed) :
    behindColon m.place = some (m.beforeValue.bytes ++ m.valueText) := by
  have hName : ∀ c ∈ Json.quoted m.key, c ≠ 0 ∧ c ≠ 0x3A := by
    rw [Json.quoted, show Json.spelling m.key = m.name from rfl]
    rcases isNamed_iff.1 h with hName | hName <;> rw [hName] <;> decide +kernel
  have hBlank : ∀ c ∈ m.behindKey.bytes, c ≠ 0 ∧ c ≠ 0x3A := by
    intro c hMem
    have hBlank := m.behindKey.blank c hMem
    constructor <;>
    · rintro rfl
      revert hBlank
      decide
  rw [behindColon, place, strchr_skip hName, strchr_skip hBlank, strchr, if_pos rfl]
  rfl

theorem timePlace_place (h : m.isNamed) :
    timePlace m.place = m.beforeValue.bytes ++ m.valueText := by
  rw [timePlace, behindColon_place h, Option.getD_some]

theorem lyricPlace_place (h : m.isNamed) :
    lyricPlace m.place = skipWhile (fun c => c = 0x20) (m.beforeValue.bytes ++ m.valueText) := by
  rw [lyricPlace, behindColon_place h, Option.getD_some]

/-- A string begins with its quote. -/
theorem valueText_string (h : m.isString) : ∃ s, m.value = .string s ∧
    m.valueText = 0x22 :: (Json.spelling s ++ 0x22 :: (m.behind.bytes ++ m.rest)) := by
  cases hValue : m.value with
  | string s =>
    refine ⟨s, rfl, ?_⟩
    rw [valueText, hValue]
    simp [Value.bytes, Json.quoted]
  | word w => simp [isString, hValue] at h
  | array pad items => simp [isString, hValue] at h
  | object pad members => simp [isString, hValue] at h

/-- Any other value begins with a character that is no quote and no space. -/
theorem valueText_other (h : m.isString = false) :
    ∃ c w, m.valueText = c :: w ∧ c ≠ 0x20 ∧ c ≠ 0x22 := by
  cases hValue : m.value with
  | string s => simp [isString, hValue] at h
  | word w =>
    obtain ⟨c, cs, hWord⟩ := List.exists_cons_of_ne_nil w.nonempty
    have hChar := w.chars c (by rw [hWord]; exact List.mem_cons_self)
    refine ⟨c, cs ++ (m.behind.bytes ++ m.rest), ?_, ?_⟩
    · rw [valueText, hValue, Value.bytes, hWord]
      rfl
    · constructor <;>
      · rintro rfl
        revert hChar
        decide
  | array pad items =>
    exact ⟨0x5B, _, by rw [valueText, hValue, Value.bytes]; rfl, by decide, by decide⟩
  | object pad members =>
    exact ⟨0x7B, _, by rw [valueText, hValue, Value.bytes]; rfl, by decide, by decide⟩

theorem spaced_iff : m.spaced ↔ ∀ b ∈ m.beforeValue.bytes, b = 0x20 := by
  simp [spaced]

theorem isRead_place (h : m.isNamed) : isRead m.place ↔ m.isString ∧ m.spaced := by
  rw [isRead, lyricPlace_place h, spaced_iff, decide_eq_true_eq]
  rcases skipWhile_pad (fun c => c = 0x20) m.beforeValue.bytes m.valueText with
    ⟨hAll, hEq⟩ | ⟨b, w, hMem, hStop, hEq⟩
  · have hSpaced : ∀ b ∈ m.beforeValue.bytes, b = 0x20 := by simpa using hAll
    rw [hEq]
    cases hString : m.isString with
    | true =>
      obtain ⟨s, -, hText⟩ := valueText_string hString
      rw [hText, skipWhile_of_head (by decide)]
      exact ⟨fun _ => ⟨rfl, hSpaced⟩, fun _ => rfl⟩
    | false =>
      obtain ⟨c, w, hText, hSpace, hQuote⟩ := valueText_other hString
      rw [hText, skipWhile_of_head (by simp [hSpace])]
      simpa [peek] using hQuote
  · -- a blank in front of the value that is no space
    have hBlank := m.beforeValue.blank b hMem
    have hOther : b ≠ 0x20 := by simpa using hStop
    rw [hEq]
    constructor
    · intro hQuote
      rw [show b = 0x22 from hQuote] at hBlank
      exact absurd hBlank (by decide)
    · rintro ⟨-, hSpaced⟩
      exact absurd (hSpaced b hMem) hOther

theorem content_lyric (h : m.isNamed) (hString : m.isString) (hSpaced : m.spaced) :
    (lyricPlace m.place).drop 1 = m.content := by
  obtain ⟨s, -, hText⟩ := valueText_string hString
  rw [lyricPlace_place h, content, if_pos hString, hText, skipWhile, List.dropWhile_append_of_pos
    (by simpa using spaced_iff.1 hSpaced), ← skipWhile, skipWhile_of_head (by decide)]

theorem spelling_head {s : List Piece} (h : (Json.spelling s).headD 0x20 ≠ 0x20) :
    ∃ c w, Json.spelling s = c :: w ∧ spaceOrQuote c = false := by
  cases s with
  | nil => exact absurd rfl h
  | cons piece s =>
    rw [Json.spelling, List.flatMap_cons] at h ⊢
    cases piece with
    | plain b hPlain =>
      refine ⟨b, _, rfl, ?_⟩
      have hSpace : b ≠ 0x20 := h
      simp [spaceOrQuote, hSpace, hPlain.2.1]
    | short letter hLetter => exact ⟨0x5C, _, rfl, by decide⟩
    | unicode n ds hHex => exact ⟨0x5C, _, rfl, by decide⟩

theorem skipWhile_valueText (hTime : m.holdsTime) :
    skipWhile spaceOrQuote m.valueText = m.content := by
  cases hString : m.isString with
  | true =>
    obtain ⟨s, hValue, hText⟩ := valueText_string hString
    rw [holdsTime, hValue, decide_eq_true_eq] at hTime
    obtain ⟨c, w, hSpelling, hStop⟩ := spelling_head hTime
    rw [content, if_pos hString, hText, hSpelling, skipWhile,
      List.dropWhile_cons_of_pos (by decide), ← skipWhile]
    exact skipWhile_of_head hStop
  | false =>
    obtain ⟨c, w, hText, hSpace, hQuote⟩ := valueText_other hString
    rw [content, if_neg (by simp [hString]), hText]
    exact skipWhile_of_head (by simp [spaceOrQuote, hSpace, hQuote])

/-- `time_s` begins where the time does exactly when there are only spaces in front of it. -/
theorem content_time (h : m.isNamed) (hTime : m.holdsTime) :
    skipWhile spaceOrQuote (timePlace m.place) = m.content ↔ m.spaced := by
  rw [timePlace_place h, spaced_iff]
  rcases skipWhile_pad spaceOrQuote m.beforeValue.bytes m.valueText with
    ⟨hAll, hEq⟩ | ⟨b, w, hMem, hStop, hEq⟩
  · rw [hEq, skipWhile_valueText hTime]
    refine ⟨fun _ b hMem => ?_, fun _ => rfl⟩
    -- a blank is no quote
    rcases of_decide_eq_true (hAll b hMem) with hSpace | hQuote
    · exact hSpace
    · exact absurd (m.beforeValue.blank b hMem) (by rw [hQuote]; decide)
  · rw [hEq]
    constructor
    · intro hContent
      have hLength := congrArg List.length hContent
      have hPart : m.content.length ≤ m.valueText.length := by
        rw [content]
        split_ifs
        · exact (List.drop_suffix 1 _).length_le
        · exact le_rfl
      simp only [List.length_cons, List.length_append] at hLength
      omega
    · intro hSpaced
      rw [hSpaced b hMem] at hStop
      exact absurd hStop (by decide)

theorem rest_suffix (m : MemberPlace) : m.rest <:+ m.valueText :=
  (List.suffix_append m.behind.bytes m.rest).trans (List.suffix_append m.value.bytes _)

theorem valueText_suffix (m : MemberPlace) :
    m.beforeValue.bytes ++ m.valueText <:+ m.place.drop 1 := by
  refine ⟨Json.spelling m.key ++ [0x22] ++ m.behindKey.bytes ++ [0x3A], ?_⟩
  simp [place, Json.quoted]

theorem rest_length (m : MemberPlace) : m.rest.length < m.place.length := by
  have hRest := m.rest_suffix.length_le
  have hValue := (m.valueText_suffix).length_le
  simp only [List.length_append, List.length_drop] at hValue
  have hPlace : 0 < m.place.length := by simp [place, Json.quoted]
  omega

end MemberPlace

-- ---------------------------------------------------------------------------
-- What is left behind a member
-- ---------------------------------------------------------------------------

section Left

variable {pred : UInt8 → Bool} {c : UInt8} {p r : Bytes}

/-- A loop does not pass a character that it stops at. -/
theorem suffix_skipWhile (h : c :: r <:+ p) (hStop : pred c = false) :
    c :: r <:+ skipWhile pred p := by
  obtain ⟨w, rfl⟩ := h
  rcases skipWhile_pad pred w (c :: r) with ⟨-, hEq⟩ | ⟨b, w', -, -, hEq⟩
  · rw [hEq, skipWhile_of_head hStop]
  · rw [hEq]
    exact List.suffix_append (b :: w') (c :: r)

theorem takeWhile_length_le (w : Bytes) (hStop : pred c = false) :
    ((w ++ c :: r).takeWhile pred).length ≤ w.length := by
  induction w with
  | nil => simp [hStop]
  | cons d w ih =>
    rw [List.cons_append, List.takeWhile_cons]
    split_ifs
    · exact Nat.succ_le_succ ih
    · exact Nat.zero_le _

theorem suffix_timeRest (h : c :: r <:+ p) (hSkip : spaceOrQuote c = false)
    (hEnd : endsTime c = true) : c :: r <:+ timeRest p := by
  obtain ⟨w, hLeft⟩ := suffix_skipWhile h hSkip
  rw [timeRest, timeText, ← hLeft]
  have hLength : ((w ++ c :: r).takeWhile fun d => !endsTime d).length ≤ w.length :=
    takeWhile_length_le w (by rw [hEnd]; rfl)
  rw [List.drop_append_of_le_length ((List.length_take_le' _ _).trans hLength)]
  exact List.suffix_append _ _

/-- The reading of a lyric does not pass its closing quote. `w` is what is left of a piece
that has been begun. -/
theorem suffix_lineText (room : Nat) (w : Bytes) (ps : List Piece)
    (hPlain : ∀ b ∈ w, b ≠ 0 ∧ b ≠ 0x22 ∧ b ≠ 0x5C) :
    0x22 :: r <:+ (lineText room (w ++ (Json.spelling ps ++ 0x22 :: r))).2 := by
  induction room generalizing w ps with
  | zero =>
    rw [lineText, ← List.append_assoc]
    exact List.suffix_append _ _
  | succ room ih =>
    cases w with
    | cons b w =>
      obtain ⟨⟨hNul, hQuote, hSlash⟩, hMore⟩ := List.forall_mem_cons.1 hPlain
      rw [lineText, if_neg (by simp [peek, hNul, hQuote]), if_neg (by simp [peek, hSlash])]
      exact ih w ps hMore
    | nil =>
      cases ps with
      | nil =>
        rw [lineText, if_pos (.inr rfl)]
        exact List.suffix_refl _
      | cons piece ps =>
        rw [Json.spelling, List.flatMap_cons, ← Json.spelling, List.nil_append,
          List.append_assoc]
        cases piece with
        | plain b h =>
          obtain ⟨hControl, hQuote, hSlash⟩ := h
          have hNul : b ≠ 0 := by
            rintro rfl
            exact absurd hControl (by decide)
          rw [Piece.bytes, List.singleton_append, lineText, if_neg (by simp [peek, hNul, hQuote]),
            if_neg (by simp [peek, hSlash])]
          exact ih [] ps (by simp)
        | short letter h =>
          have hLetter : letter ≠ 0 := by
            rintro rfl
            exact absurd h (by decide)
          rw [Piece.bytes, List.cons_append, List.singleton_append, lineText,
            if_neg (by simp [peek]), if_pos ⟨rfl, hLetter⟩]
          split_ifs
          · exact List.suffix_append _ _
          · exact ih [] ps (by simp)
        | unicode n ds h =>
          rw [Piece.bytes, List.cons_append, List.cons_append, lineText,
            if_neg (by simp [peek]), if_pos ⟨rfl, by simp [peek]⟩, if_neg (by simp [peek])]
          exact ih ds ps h.plain

end Left

/-- What stands behind a value: a comma or a brace. -/
def EndsValue (rest : Bytes) : Prop := ∃ c r, rest = c :: r ∧ (c = 0x2C ∨ c = 0x7D)

theorem drop_append_suffix (w rest : Bytes) : w.drop 1 ++ rest <:+ w ++ rest :=
  (List.suffix_append_self_iff).2 (List.drop_suffix 1 w)

theorem memberPlaces_rest (members : Members) {rest : Bytes} (hRest : EndsValue rest) :
    ∀ m ∈ memberPlaces members rest, EndsValue m.rest ∧ rest <:+ m.rest := by
  cases members with
  | nil => exact fun m h => absurd h List.not_mem_nil
  | cons before key behindKey beforeValue v behind more =>
    rw [memberPlaces, List.forall_mem_cons]
    refine ⟨⟨?_, List.suffix_append _ _⟩, memberPlaces_rest more hRest⟩
    cases more with
    | nil => exact hRest
    | cons => exact ⟨0x2C, _, rfl, .inl rfl⟩

theorem memberPlaces_place (members : Members) (rest : Bytes) :
    ∀ m ∈ memberPlaces members rest, m.place <:+ members.bytes.drop 1 ++ rest := by
  cases members with
  | nil => exact fun m h => absurd h List.not_mem_nil
  | cons before key behindKey beforeValue v behind more =>
    rw [memberPlaces, List.forall_mem_cons]
    refine ⟨⟨before.bytes, ?_⟩, fun m hMem => (memberPlaces_place more rest m hMem).trans ?_⟩
    · simp [MemberPlace.place, MemberPlace.valueText, Members.bytes]
    · refine (?_ : _ <:+ more.bytes ++ rest).trans
        ⟨before.bytes ++ Json.quoted key ++ behindKey.bytes ++ [0x3A] ++ beforeValue.bytes ++
          v.bytes ++ behind.bytes, by simp [Members.bytes]⟩
      exact drop_append_suffix more.bytes rest

theorem memberPlaces_order (members : Members) (rest : Bytes) :
    (memberPlaces members rest).Pairwise fun a b => b.place <:+ a.rest := by
  cases members with
  | nil => exact List.Pairwise.nil
  | cons before key behindKey beforeValue v behind more =>
    rw [memberPlaces, List.pairwise_cons]
    refine ⟨fun m hMem => (memberPlaces_place more rest m hMem).trans ?_,
      memberPlaces_order more rest⟩
    exact drop_append_suffix more.bytes rest

theorem objectPlaces_place (items : Items) (rest : Bytes) :
    ∀ m ∈ (objectPlaces items rest).flatten, EndsValue m.rest ∧
      m.place <:+ items.bytes.drop 1 ++ rest := by
  cases items with
  | nil => exact fun m h => absurd h List.not_mem_nil
  | cons before v behind more =>
    have hMore (m : MemberPlace) (hMem : m ∈ (objectPlaces more rest).flatten) :
        EndsValue m.rest ∧ m.place <:+ (Items.cons before v behind more).bytes.drop 1 ++ rest := by
      obtain ⟨hEnds, hPlace⟩ := objectPlaces_place more rest m hMem
      refine ⟨hEnds, (hPlace.trans (drop_append_suffix more.bytes rest)).trans
        ⟨before.bytes ++ v.bytes ++ behind.bytes, by simp [Items.bytes]⟩⟩
    cases v with
    | object pad members =>
      intro m hMem
      rw [objectPlaces, List.flatten_cons, List.mem_append] at hMem
      rcases hMem with hHere | hLater
      · refine ⟨(memberPlaces_rest members ⟨_, _, rfl, .inr rfl⟩ m hHere).1,
          (memberPlaces_place members _ m hHere).trans ⟨before.bytes ++ 0x7B :: pad.bytes, ?_⟩⟩
        simp [Items.bytes, Value.bytes]
      · exact hMore m hLater
    | word => exact hMore
    | string => exact hMore
    | array => exact hMore

theorem objectPlaces_order (items : Items) (rest : Bytes) :
    (objectPlaces items rest).flatten.Pairwise fun a b => b.place <:+ a.rest := by
  cases items with
  | nil => exact List.Pairwise.nil
  | cons before v behind more =>
    have hMore := objectPlaces_order more rest
    cases v with
    | object pad members =>
      rw [objectPlaces, List.flatten_cons, List.pairwise_append]
      refine ⟨memberPlaces_order members _, hMore, fun a hA b hB => ?_⟩
      refine (objectPlaces_place more rest b hB).2.trans (.trans ?_
        (memberPlaces_rest members ⟨_, _, rfl, .inr rfl⟩ a hA).2)
      refine (drop_append_suffix more.bytes rest).trans ?_
      exact (List.suffix_append behind.bytes _).trans (List.suffix_cons _ _)
    | word => exact hMore
    | string => exact hMore
    | array => exact hMore

-- ---------------------------------------------------------------------------
-- The marks are reached
-- ---------------------------------------------------------------------------

section Reached

variable {p x : Bytes} {ms : List MemberPlace} {m : MemberPlace}

/-- What is left behind the key of a member, and has all that is behind its value, has just
the later members as its marks. -/
theorem marks_place (hMarks : marks p = ms.map (·.place))
    (hOrder : ms.Pairwise fun a b => b.place <:+ a.rest) (hMem : m ∈ ms)
    (hRest : m.rest <:+ x) (hBehind : x <:+ m.place.drop 1) : marks x = (marks m.place).tail := by
  obtain ⟨front, later, rfl⟩ := List.append_of_mem hMem
  obtain ⟨-, hHere, hAcross⟩ := List.pairwise_append.1 hOrder
  obtain ⟨hLater, -⟩ := List.pairwise_cons.1 hHere
  have hPlace : m.place <:+ p :=
    (mem_marks.1 (hMarks ▸ List.mem_map_of_mem hMem : m.place ∈ marks p)).1
  have hX : x.length < m.place.length := by
    have hLength := hBehind.length_le
    have hRoom := m.rest_length
    rw [List.length_drop] at hLength
    omega
  -- those in front are longer than both, and those behind are shorter
  have hFront (n : Nat) (hN : n ≤ m.place.length) :
      (front.map (·.place)).filter (fun a => decide (a.length ≤ n)) = [] := by
    rw [List.filter_eq_nil_iff]
    intro a hA
    obtain ⟨b, hB, rfl⟩ := List.mem_map.1 hA
    have hLonger := (hAcross b hB m List.mem_cons_self).length_le
    have hRoom := b.rest_length
    rw [decide_eq_true_eq]
    omega
  have hBack (n : Nat) (hN : m.rest.length ≤ n) :
      (later.map (·.place)).filter (fun a => decide (a.length ≤ n)) = later.map (·.place) := by
    rw [List.filter_eq_self]
    intro a hA
    obtain ⟨b, hB, rfl⟩ := List.mem_map.1 hA
    have hShorter := (hLater b hB).length_le
    rw [decide_eq_true_eq]
    omega
  rw [marks_suffix (hBehind.trans ((List.drop_suffix 1 _).trans hPlace)), marks_suffix hPlace,
    hMarks, List.map_append, List.filter_append, List.filter_append, hFront _ hX.le,
    hFront _ le_rfl, List.map_cons, List.filter_cons_of_neg (by simpa using hX),
    List.filter_cons_of_pos (by simp), hBack _ hRest.length_le, hBack _ m.rest_length.le]
  rfl

theorem MemberPlace.markReached (hMarks : marks p = ms.map (·.place))
    (hOrder : ms.Pairwise fun a b => b.place <:+ a.rest) (hMem : m ∈ ms)
    (hNamed : m.isNamed) (hEnds : EndsValue m.rest) : MarkReached m.place := by
  obtain ⟨c, r, hSep, hChar⟩ := hEnds
  have hInValue : c :: r <:+ m.beforeValue.bytes ++ m.valueText := by
    rw [← hSep]
    exact m.rest_suffix.trans (List.suffix_append _ _)
  refine ⟨by rw [behindColon_place hNamed]; rfl, fun _ => ?_, fun _ hRead => ?_, fun _ _ => ?_⟩
  · refine marks_place hMarks hOrder hMem ?_ ?_
    · rw [timePlace_place hNamed, hSep]
      refine suffix_timeRest hInValue ?_ ?_
      · rcases hChar with rfl | rfl <;> decide
      · rcases hChar with rfl | rfl <;> decide
    · rw [timePlace_place hNamed]
      exact (timeRest_suffix _).trans m.valueText_suffix
  · obtain ⟨hString, hSpaced⟩ := (isRead_place hNamed).1 hRead
    obtain ⟨s, -, hText⟩ := valueText_string hString
    have hContent := content_lyric hNamed hString hSpaced
    rw [content, if_pos hString, hText, List.drop_succ_cons, List.drop_zero] at hContent
    refine marks_place hMarks hOrder hMem ?_ ?_
    · rw [hContent]
      refine .trans ?_ (suffix_lineText _ [] s (by simp))
      exact (List.suffix_append m.behind.bytes _).trans (List.suffix_cons _ _)
    · refine (lineText_suffix _ _).trans ((List.drop_suffix 1 _).trans ?_)
      rw [lyricPlace_place hNamed]
      exact (List.dropWhile_suffix _).trans m.valueText_suffix
  · rw [lyricPlace_place hNamed]
    refine marks_place hMarks hOrder hMem ?_ ((List.dropWhile_suffix _).trans m.valueText_suffix)
    rw [hSep]
    refine suffix_skipWhile hInValue ?_
    rcases hChar with rfl | rfl <;> decide

end Reached

-- ---------------------------------------------------------------------------
-- The pairs of the marks
-- ---------------------------------------------------------------------------

/-- The marks of objects. -/
def objectMarks (os : List (List MemberPlace)) : List Bytes :=
  (os.flatten.filter (·.isNamed)).map (·.place)

def places (p : MemberPlace × MemberPlace) : Bytes × Bytes := (p.1.place, p.2.place)

section Run

variable {s : Option Bytes} {a b t : Bytes} {ms : List Bytes}

theorem mem_run (h : (a, b) ∈ run s ms) : b ∈ ms ∧ (a ∈ ms ∨ s = some a) := by
  induction ms generalizing s with
  | nil => cases s <;> exact absurd h List.not_mem_nil
  | cons m more ih =>
    -- what is left has its pairs further back, with the time that waits then
    have hLater (s' : Option Bytes) (hMem : (a, b) ∈ run s' more)
        (hWaits : s' = some a → a ∈ m :: more ∨ s = some a) :
        b ∈ m :: more ∧ (a ∈ m :: more ∨ s = some a) := by
      obtain ⟨hB, hA | hA⟩ := ih hMem
      · exact ⟨List.mem_cons_of_mem m hB, .inl (List.mem_cons_of_mem m hA)⟩
      · exact ⟨List.mem_cons_of_mem m hB, hWaits hA⟩
    cases s with
    | none =>
      rw [run] at h
      split_ifs at h
      · exact hLater _ h fun hEq => .inl (Option.some.inj hEq ▸ List.mem_cons_self)
      · exact hLater _ h fun hEq => .inr hEq
    | some time =>
      rw [run] at h
      split_ifs at h
      · rcases List.mem_cons.1 h with hHere | hMore
        · obtain ⟨rfl, rfl⟩ := Prod.mk.inj hHere
          exact ⟨List.mem_cons_self, .inr rfl⟩
        · exact hLater _ hMore fun hEq => by cases hEq
      · exact hLater _ h fun hEq => by cases hEq
      · exact hLater _ h fun hEq => .inr hEq

/-- A time that waits for a lyric that is not read makes no difference. -/
theorem run_waits (h : ∀ l, ms.find? isLyric = some l → isRead l = false)
    (t : Bytes) : run (some t) ms = run none ms := by
  induction ms generalizing t with
  | nil => rfl
  | cons m more ih =>
    rw [run, run]
    cases hLyric : isLyric m with
    | true =>
      have hTime : isTime m = false := by
        cases hTime : isTime m with
        | false => rfl
        | true => rw [isLyric_of_isTime hTime] at hLyric; cases hLyric
      rw [if_pos rfl, h m (List.find?_cons_of_pos hLyric), hTime]
      rfl
    | false =>
      rw [List.find?_cons_of_neg (by simp [hLyric])] at h
      rw [if_neg (by simp), ih h]
      split_ifs
      · exact (ih h m).symm
      · rfl

/-- A time that waits for a lyric that is read is paired with it. -/
theorem mem_run_waits {l : Bytes} (h : ms.find? isLyric = some l) (hRead : isRead l) :
    (t, l) ∈ run (some t) ms := by
  induction ms with
  | nil => cases h
  | cons m more ih =>
    rw [run]
    cases hLyric : isLyric m with
    | true =>
      rw [List.find?_cons_of_pos hLyric] at h
      cases h
      rw [if_pos rfl, if_pos hRead]
      exact List.mem_cons_self
    | false =>
      rw [List.find?_cons_of_neg (by simp [hLyric])] at h
      rw [if_neg (by simp)]
      exact ih h

end Run

section Objects

variable {o : List MemberPlace} {more : List (List MemberPlace)}

/-- Which of the two names an object has, and in which order. -/
inductive ObjectShape (o : List MemberPlace) : Prop
  | neither (h : o.filter (·.isNamed) = [])
  | time (t : MemberPlace) (h : o.filter (·.isNamed) = [t]) (hTime : t.name = ascii "time")
  | lyric (l : MemberPlace) (h : o.filter (·.isNamed) = [l])
      (hLyric : l.name = ascii "lineLyric")
  | timeLyric (t l : MemberPlace) (h : o.filter (·.isNamed) = [t, l])
      (hTime : t.name = ascii "time") (hLyric : l.name = ascii "lineLyric")
  | lyricTime (t l : MemberPlace) (h : o.filter (·.isNamed) = [l, t])
      (hTime : t.name = ascii "time") (hLyric : l.name = ascii "lineLyric")

theorem objectShape (h : ((o.filter (·.isNamed)).map (·.name)).Nodup) : ObjectShape o := by
  have hName : ∀ m ∈ o.filter (·.isNamed), m.name = ascii "time" ∨ m.name = ascii "lineLyric" :=
    fun m hMem => MemberPlace.isNamed_iff.1 (List.mem_filter.1 hMem).2
  cases hNamed : o.filter (·.isNamed) with
  | nil => exact .neither hNamed
  | cons a rest =>
    rw [hNamed, List.forall_mem_cons] at hName
    rw [hNamed] at h
    obtain ⟨hA, hRest⟩ := hName
    cases rest with
    | nil =>
      rcases hA with hA | hA
      · exact .time a hNamed hA
      · exact .lyric a hNamed hA
    | cons b rest =>
      obtain ⟨hB, hRest⟩ := List.forall_mem_cons.1 hRest
      cases rest with
      | nil =>
        rcases hA with hA | hA <;> rcases hB with hB | hB
        · simp [hA, hB] at h
        · exact .timeLyric a b hNamed hA hB
        · exact .lyricTime b a hNamed hB hA
        · simp [hA, hB] at h
      | cons c rest =>
        -- there are two names only
        have hC := hRest c List.mem_cons_self
        rcases hA with hA | hA <;> rcases hB with hB | hB <;> rcases hC with hC | hC <;>
          simp [hA, hB, hC] at h

theorem find_name (name : Bytes) (hName : name = ascii "time" ∨ name = ascii "lineLyric") :
    o.find? (·.name = name) = (o.filter (·.isNamed)).find? (·.name = name) := by
  rw [List.find?_filter]
  congr 1
  funext m
  by_cases hEq : m.name = name
  · have hNamed : m.isNamed := MemberPlace.isNamed_iff.2 (by rw [hEq]; exact hName)
    simp [hEq, hNamed]
  · simp [hEq]

theorem timeOf_eq : timeOf o = (o.filter (·.isNamed)).find? (·.name = ascii "time") :=
  find_name _ (.inl rfl)

theorem lyricOf_eq : lyricOf o = (o.filter (·.isNamed)).find? (·.name = ascii "lineLyric") :=
  find_name _ (.inr rfl)

/-- The first mark of a lyric is the first lyric. -/
theorem find_isLyric (ms : List MemberPlace) (h : ∀ m ∈ ms, m.isNamed) :
    (ms.map (·.place)).find? isLyric =
      (ms.find? (·.name = ascii "lineLyric")).map (·.place) := by
  induction ms with
  | nil => rfl
  | cons m ms ih =>
    obtain ⟨hNamed, hRest⟩ := List.forall_mem_cons.1 h
    rw [List.map_cons]
    rcases MemberPlace.isNamed_iff.1 hNamed with hName | hName
    · have hOther : isLyric m.place = false := isLyric_of_isTime (m.isTime_place hName)
      rw [List.find?_cons_of_neg (by simp [hOther]), ih hRest,
        List.find?_cons_of_neg (by simp [hName, ascii])]
    · rw [List.find?_cons_of_pos (m.isLyric_place hName), List.find?_cons_of_pos (by simp [hName])]
      rfl

theorem find_objectMarks (os : List (List MemberPlace)) :
    (objectMarks os).find? isLyric = (lyricOf os.flatten).map (·.place) := by
  rw [objectMarks, find_isLyric _ fun m h => (List.mem_filter.1 h).2, lyricOf_eq]

theorem objectMarks_cons :
    objectMarks (o :: more) = (o.filter (·.isNamed)).map (·.place) ++ objectMarks more := by
  rw [objectMarks, List.flatten_cons, List.filter_append, List.map_append, objectMarks]

theorem waits_eq {m : MemberPlace} (h : (o.filter (·.isNamed)).getLast? = some m) :
    waits o = decide (m.name = ascii "time") := by
  rw [waits, h, Option.any_some]

/-- The pairs of objects are made of their members. -/
theorem mem_ownPair {os : List (List MemberPlace)} {p : MemberPlace × MemberPlace}
    (h : p ∈ os.filterMap ownPair) :
    (p.1 ∈ os.flatten ∧ p.1.name = ascii "time") ∧
      (p.2 ∈ os.flatten ∧ p.2.name = ascii "lineLyric") ∧ p.2.isString := by
  obtain ⟨o, hMem, hOwn⟩ := List.mem_filterMap.1 h
  simp only [ownPair, Option.bind_eq_bind, Option.bind_eq_some_iff] at hOwn
  obtain ⟨t, hTime, l, hLyric, hPair⟩ := hOwn
  split_ifs at hPair with hString
  cases hPair
  have hT := List.find?_some hTime
  have hL := List.find?_some hLyric
  exact ⟨⟨List.mem_flatten.2 ⟨o, hMem, List.mem_of_find?_eq_some hTime⟩, by simpa using hT⟩,
    ⟨List.mem_flatten.2 ⟨o, hMem, List.mem_of_find?_eq_some hLyric⟩, by simpa using hL⟩, hString⟩

/-- A member does not stand where an earlier one does. -/
theorem place_ne {m n : MemberPlace} (h : n.place <:+ m.rest) : n.place ≠ m.place := by
  intro hEq
  have hLength := h.length_le
  have hRoom := m.rest_length
  rw [hEq] at hLength
  omega

/-- A time that waits is right just where no lyric comes that is read. -/
theorem waiting_iff {t : MemberPlace} (hLater : ∀ m ∈ more.flatten, m.place <:+ t.rest) :
    run (some t.place) (objectMarks more) = (more.filterMap ownPair).map places ↔
      (∀ l, lyricOf more.flatten = some l → ¬(l.isString ∧ l.spaced)) ∧
        run none (objectMarks more) = (more.filterMap ownPair).map places := by
  have hNamed {l : MemberPlace} (h : lyricOf more.flatten = some l) : l.isNamed :=
    MemberPlace.isNamed_iff.2 (.inr (by simpa using List.find?_some h))
  by_cases hNone : ∀ l, lyricOf more.flatten = some l → ¬(l.isString ∧ l.spaced)
  · have hUnread (m : Bytes) (h : (objectMarks more).find? isLyric = some m) :
        isRead m = false := by
      rw [find_objectMarks, Option.map_eq_some_iff] at h
      obtain ⟨l, hLyric, rfl⟩ := h
      rw [← Bool.not_eq_true, MemberPlace.isRead_place (hNamed hLyric)]
      exact hNone l hLyric
    rw [run_waits hUnread]
    exact (and_iff_right hNone).symm
  · constructor
    · intro hEq
      push Not at hNone
      obtain ⟨l, hLyric, hRead⟩ := hNone
      have hPair : (t.place, l.place) ∈ run (some t.place) (objectMarks more) :=
        mem_run_waits (by rw [find_objectMarks, hLyric]; rfl)
          ((MemberPlace.isRead_place (hNamed hLyric)).2 hRead)
      rw [hEq] at hPair
      obtain ⟨p, hOwn, hPlaces⟩ := List.mem_map.1 hPair
      have hIn := (mem_ownPair hOwn).1.1
      exact absurd (congrArg Prod.fst hPlaces) (place_ne (hLater _ hIn))
    · rintro ⟨hAll, -⟩
      exact absurd hAll hNone

theorem place_notMem {m : MemberPlace} (h : ∀ n ∈ more.flatten, n.place <:+ m.rest) :
    m.place ∉ objectMarks more := by
  intro hMem
  obtain ⟨n, hN, hEq⟩ := List.mem_map.1 hMem
  exact place_ne (h n (List.mem_filter.1 hN).1) hEq

/-- The pairs that are read are those of the objects. -/
def PairsOwn (os : List (List MemberPlace)) : Prop :=
  run none (objectMarks os) = (os.filterMap ownPair).map places

def PairsOrdered (os : List (List MemberPlace)) : Prop :=
  (∀ p ∈ os.filterMap ownPair, p.2.place <:+ p.1.rest ∧ p.2.spaced) ∧ NoneWaits os

variable {t l : MemberPlace}

theorem own_neither (ih : PairsOwn more ↔ PairsOrdered more) (h : o.filter (·.isNamed) = []) :
    PairsOwn (o :: more) ↔ PairsOrdered (o :: more) := by
  have hOwn : ownPair o = none := by simp [ownPair, timeOf_eq, h]
  have hWaits : waits o = false := by simp [waits, h]
  rw [PairsOwn, PairsOrdered, NoneWaits, objectMarks_cons, h, List.filterMap_cons_none hOwn, hWaits]
  simpa [PairsOwn, PairsOrdered] using ih

theorem own_time (ih : PairsOwn more ↔ PairsOrdered more) (h : o.filter (·.isNamed) = [t])
    (hTime : t.name = ascii "time") (hLater : ∀ n ∈ more.flatten, n.place <:+ t.rest) :
    PairsOwn (o :: more) ↔ PairsOrdered (o :: more) := by
  have hNone : lyricOf o = none := by
    rw [lyricOf_eq, h, List.find?_cons_of_neg (by rw [hTime]; decide), List.find?_nil]
  have hOwn : ownPair o = none := by
    rw [ownPair, hNone]
    cases timeOf o <;> rfl
  have hWaits : waits o = true := by
    rw [waits_eq (m := t) (by rw [h]; rfl), hTime, decide_eq_true rfl]
  rw [PairsOwn, PairsOrdered, NoneWaits, objectMarks_cons, h, List.filterMap_cons_none hOwn,
    hWaits, List.map_cons, List.map_nil, List.singleton_append, run,
    if_pos (t.isTime_place hTime), waiting_iff hLater, ← PairsOwn, ih, PairsOrdered]
  tauto

theorem own_lyric (ih : PairsOwn more ↔ PairsOrdered more) (h : o.filter (·.isNamed) = [l])
    (hLyric : l.name = ascii "lineLyric") : PairsOwn (o :: more) ↔ PairsOrdered (o :: more) := by
  have hNone : timeOf o = none := by
    rw [timeOf_eq, h, List.find?_cons_of_neg (by rw [hLyric]; decide), List.find?_nil]
  have hOwn : ownPair o = none := by
    rw [ownPair, hNone]
    rfl
  have hWaits : waits o = false := by
    rw [waits_eq (m := l) (by rw [h]; rfl), hLyric, decide_eq_false (by decide)]
  rw [PairsOwn, PairsOrdered, NoneWaits, objectMarks_cons, h, List.filterMap_cons_none hOwn,
    hWaits, List.map_cons, List.map_nil, List.singleton_append, run,
    l.not_isTime_place hLyric, if_neg (by simp), ← PairsOwn, ih, PairsOrdered]
  simp

/-- The time is in front: it is paired with the lyric if that is read, and else given up. -/
theorem own_timeLyric (ih : PairsOwn more ↔ PairsOrdered more)
    (h : o.filter (·.isNamed) = [t, l]) (hTime : t.name = ascii "time")
    (hLyric : l.name = ascii "lineLyric") (hFirst : l.place <:+ t.rest)
    (hLater : ∀ n ∈ more.flatten, n.place <:+ t.rest) :
    PairsOwn (o :: more) ↔ PairsOrdered (o :: more) := by
  have hT : timeOf o = some t := by
    rw [timeOf_eq, h, List.find?_cons_of_pos (by rw [hTime]; decide)]
  have hL : lyricOf o = some l := by
    rw [lyricOf_eq, h, List.find?_cons_of_neg (by rw [hTime]; decide),
      List.find?_cons_of_pos (by rw [hLyric]; decide)]
  have hOwn : ownPair o = if l.isString then some (t, l) else none := by
    rw [ownPair, hT, hL]
    rfl
  have hWaits : waits o = false := by
    rw [waits_eq (m := l) (by rw [h]; rfl), hLyric, decide_eq_false (by decide)]
  have hRead := l.isRead_place (MemberPlace.isNamed_iff.2 (.inr hLyric))
  rw [PairsOwn, PairsOrdered, NoneWaits, objectMarks_cons, h, hWaits, List.map_cons,
    List.map_cons, List.map_nil, List.cons_append, List.singleton_append, run,
    if_pos (t.isTime_place hTime), run, if_pos (l.isLyric_place hLyric)]
  cases hString : l.isString with
  | false =>
    rw [hString, if_neg (by simp)] at hOwn
    rw [if_neg (by simp [hRead, hString]), List.filterMap_cons_none hOwn, ← PairsOwn, ih,
      PairsOrdered]
    simp
  | true =>
    rw [hString, if_pos rfl] at hOwn
    rw [List.filterMap_cons_some hOwn, List.map_cons, List.forall_mem_cons]
    cases hSpaced : l.spaced with
    | true =>
      rw [if_pos (hRead.2 ⟨hString, hSpaced⟩), show places (t, l) = (t.place, l.place) from rfl,
        List.cons_inj_right, ← PairsOwn, ih, PairsOrdered]
      simp [hFirst]
    | false =>
      rw [if_neg (by simp [hRead, hSpaced])]
      constructor
      · intro hEq
        have hPair : (t.place, l.place) ∈ run none (objectMarks more) :=
          hEq ▸ List.mem_cons_self
        rcases (mem_run hPair).2 with hMem | hMem
        · exact absurd hMem (place_notMem hLater)
        · cases hMem
      · rintro ⟨⟨⟨-, hSpace⟩, -⟩, -⟩
        cases hSpace

/-- The lyric is in front: the pair is missed if the lyric is a string, and the time waits. -/
theorem own_lyricTime (ih : PairsOwn more ↔ PairsOrdered more)
    (h : o.filter (·.isNamed) = [l, t]) (hTime : t.name = ascii "time")
    (hLyric : l.name = ascii "lineLyric") (hBack : t.place <:+ l.rest)
    (hLater : ∀ m ∈ [l, t], ∀ n ∈ more.flatten, n.place <:+ m.rest) :
    PairsOwn (o :: more) ↔ PairsOrdered (o :: more) := by
  have hT : timeOf o = some t := by
    rw [timeOf_eq, h, List.find?_cons_of_neg (by rw [hLyric]; decide),
      List.find?_cons_of_pos (by rw [hTime]; decide)]
  have hL : lyricOf o = some l := by
    rw [lyricOf_eq, h, List.find?_cons_of_pos (by rw [hLyric]; decide)]
  have hOwn : ownPair o = if l.isString then some (t, l) else none := by
    rw [ownPair, hT, hL]
    rfl
  have hWaits : waits o = true := by
    rw [waits_eq (m := t) (by rw [h]; rfl), hTime, decide_eq_true rfl]
  rw [PairsOwn, PairsOrdered, NoneWaits, objectMarks_cons, h, hWaits, List.map_cons,
    List.map_cons, List.map_nil, List.cons_append, List.singleton_append, run,
    l.not_isTime_place hLyric, if_neg (by simp), run, if_pos (t.isTime_place hTime)]
  cases hString : l.isString with
  | false =>
    rw [hString, if_neg (by simp)] at hOwn
    rw [List.filterMap_cons_none hOwn, waiting_iff (hLater t (by simp)), ← PairsOwn, ih,
      PairsOrdered]
    tauto
  | true =>
    rw [hString, if_pos rfl] at hOwn
    rw [List.filterMap_cons_some hOwn, List.map_cons, List.forall_mem_cons]
    constructor
    · intro hEq
      have hPair : (t.place, l.place) ∈ run (some t.place) (objectMarks more) :=
        hEq ▸ List.mem_cons_self
      exact absurd (mem_run hPair).1 (place_notMem (hLater l (by simp)))
    · rintro ⟨⟨⟨hFirst, -⟩, -⟩, -⟩
      have hForth := hFirst.length_le
      have hBack := hBack.length_le
      have hTimeRoom := t.rest_length
      have hLyricRoom := l.rest_length
      dsimp only at hForth
      omega

theorem run_objects_iff (os : List (List MemberPlace))
    (hOnce : ∀ o ∈ os, ((o.filter (·.isNamed)).map (·.name)).Nodup)
    (hOrder : os.flatten.Pairwise fun a b => b.place <:+ a.rest) :
    PairsOwn os ↔ PairsOrdered os := by
  induction os with
  | nil => simp [PairsOwn, PairsOrdered, objectMarks, run, NoneWaits]
  | cons o more ih =>
    obtain ⟨hHere, hMore⟩ := List.forall_mem_cons.1 hOnce
    rw [List.flatten_cons, List.pairwise_append] at hOrder
    obtain ⟨hInside, hBehind, hAcross⟩ := hOrder
    have ih := ih hMore hBehind
    have hLater : ∀ m ∈ o.filter (·.isNamed), ∀ n ∈ more.flatten, n.place <:+ m.rest :=
      fun m h n hN => hAcross m (List.mem_filter.1 h).1 n hN
    have hPairwise := hInside.filter (·.isNamed)
    cases objectShape hHere with
    | neither h => exact own_neither ih h
    | time t h hTime => exact own_time ih h hTime (hLater t (by simp [h]))
    | lyric l h hLyric => exact own_lyric ih h hLyric
    | timeLyric t l h hTime hLyric =>
      rw [h] at hPairwise
      exact own_timeLyric ih h hTime hLyric
        ((List.pairwise_cons.1 hPairwise).1 l List.mem_cons_self) (hLater t (by simp [h]))
    | lyricTime t l h hTime hLyric =>
      rw [h] at hPairwise hLater
      exact own_lyricTime ih h hTime hLyric
        ((List.pairwise_cons.1 hPairwise).1 t List.mem_cons_self) hLater

end Objects

-- ---------------------------------------------------------------------------
-- Responses that are converted
-- ---------------------------------------------------------------------------

namespace KuwoResponse

variable {r : KuwoResponse}

theorem strstr_bytes (hNul : 0 ∉ r.bytes) : ∃ p, strstr quotedLrclist r.bytes = some p := by
  rw [← Option.isSome_iff_exists, Option.isSome_iff_ne_none, bytes]
  refine strstr_ne_none (by decide) r.front _ fun c hMem hZero => hNul ?_
  rw [bytes, ← hZero]
  exact List.mem_append_left _ hMem

/-- The pairs that are read are those of the marks of the objects. -/
theorem kuwoPairs_bytes (hForm : r.WellFormed) (hNames : r.NamesAreKeys) :
    kuwoPairs r.bytes = run none (objectMarks r.objects) := by
  obtain ⟨p, hFound⟩ := strstr_bytes hForm.noNul
  rw [NamesAreKeys, hFound, Option.elim_some] at hNames
  rw [kuwoPairs, hFound, Option.elim_some, objectMarks, ← hNames]
  refine kuwoPairsFrom_eq le_rfl (fun h => hForm.noNul ((strstr_eq_some hFound).2.mem h)) ?_
  intro m hMem
  rw [hNames] at hMem
  obtain ⟨n, hN, rfl⟩ := List.mem_map.1 hMem
  obtain ⟨hIn, hNamed⟩ := List.mem_filter.1 hN
  exact n.markReached hNames ((objectPlaces_order r.items _).filter _) hN hNamed
    (objectPlaces_place r.items _ n hIn).1

/-- The line of a pair is made of the two values. -/
theorem lineOfPair_places {p : MemberPlace × MemberPlace} (totalMs : Bytes → Int)
    (hTime : skipWhile spaceOrQuote (timePlace p.1.place) = p.1.content)
    (hLyric : (lyricPlace p.2.place).drop 1 = p.2.content) :
    lineOfPair totalMs (places p) = ownLine totalMs p := by
  rw [lineOfPair, ownLine, places, timeText, hTime, hLyric]

end KuwoResponse

section Examples

open KuwoResponse

def timeKey : List Piece := plainKey "time" (List.all_iff_forall_prop.1 (by decide))

def lyricKey : List Piece := plainKey "lineLyric" (List.all_iff_forall_prop.1 (by decide))

def oneText : List Piece := plainKey "1" (List.all_iff_forall_prop.1 (by decide))

def twoText : List Piece := plainKey "2" (List.all_iff_forall_prop.1 (by decide))

theorem plain_a : ∀ b ∈ ascii "a", 0x20 ≤ b ∧ b ≠ 0x22 ∧ b ≠ 0x5C :=
  List.all_iff_forall_prop.1 (by decide)

def aText : List Piece := plainKey "a" plain_a

def bText : List Piece := plainKey "b" (List.all_iff_forall_prop.1 (by decide))

/-- An object with two members that are texts. -/
def twoTexts (key text key' text' : List Piece) : Value :=
  .object noPad (.cons noPad key noPad noPad (.string text) noPad
    (.cons noPad key' noPad noPad (.string text') noPad .nil))

/-- `{"lrclist":[…,…]}` -/
def listOfTwo (v v' : Value) : KuwoResponse :=
  ⟨ascii "\x7b", noPad, noPad, noPad, .cons noPad v noPad (.cons noPad v' noPad .nil),
    ascii "\x7d"⟩

def timesFirst : KuwoResponse :=
  listOfTwo (twoTexts timeKey oneText lyricKey aText) (twoTexts timeKey twoText lyricKey bText)

/-- `{"lrclist":[{"lineLyric":"a","time":"1"},{"lineLyric":"b","time":"2"}]}` -/
def lyricsFirst : KuwoResponse :=
  listOfTwo (twoTexts lyricKey aText timeKey oneText) (twoTexts lyricKey bText timeKey twoText)

end Examples

end EspMiplay.Lyrics
