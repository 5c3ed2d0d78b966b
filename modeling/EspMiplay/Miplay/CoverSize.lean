import EspMiplay.Miplay.JsonStrings
import EspMiplay.Miplay.PlayerStates

/-!
# Covers of any size

The cover of an event is the first text among the cover members that is not blank. A text
that does not fit into the buffer is not cut off, it is passed over like a member that is not
there: the search goes on to the other members and to the nested object.

## Results

* `aliases_eq`  — the text an alias search takes.
* `parse_cover` — the cover of the event, from the object and the one in it.
* `carries_iff` — when it is the first one.
-/

namespace EspMiplay.Miplay

-- ---------------------------------------------------------------------------
-- The text of a member
-- ---------------------------------------------------------------------------

/-- The text a copy into a buffer of that size takes. -/
def textOf (json : Bytes) (size : Nat) (key : Bytes) : Option Bytes :=
  (miplayJsonFindValue json key).bind fun p =>
    if peek p = 0x22 ∧ (copyAll size (p.drop 1) []).2 then
      some (copyAll size (p.drop 1) []).1.dropLast
    else none

/-- What an alias search makes of it: blanks at the ends are cut off, and a blank text is none. -/
def heardText (text : Bytes) : Option Bytes :=
  if trimmed (cstr text) = [] then none else some (trimmed (cstr text))

def aliasText (json : Bytes) (size : Nat) (keys : List Bytes) : Option Bytes :=
  keys.findSome? fun key => (textOf json size key).bind heardText

section Aliases

variable {json : Bytes} {size : Nat}

/-- A copy that comes to the closing quote has left a NUL behind the text. -/
theorem jsonCopyChars_ok {fuel : Nat} {p out : Bytes} (hOut : out.length < size)
    (hOk : (jsonCopyChars size fuel p out).2 = true) :
    ∃ t, (jsonCopyChars size fuel p out).1 = t ++ [0] ∧ t.length < size := by
  induction fuel generalizing p out with
  | zero => cases hOk
  | succ fuel ih =>
    rcases jsonCopyChars_turn size p out with hEnd | hEnd | ⟨q, out', -, hRoom, hTurn⟩
    · rw [hEnd] at hOk
      cases hOk
    · rw [hEnd]
      exact ⟨out, rfl, hOut⟩
    · rw [hTurn] at hOk ⊢
      exact ih hRoom hOk

theorem copyString_textOf (json : Bytes) (hSize : 0 < size) (key out : Bytes) :
    (miplayJsonCopyString json key size out).2 = (textOf json size key).isSome ∧
      ∀ t ∈ textOf json size key,
        (miplayJsonCopyString json key size out).1 = overlay (t ++ [0]) out ∧
          t.length < size := by
  rw [miplayJsonCopyString, textOf]
  cases miplayJsonFindValue json key with
  | none => exact ⟨rfl, fun t hMem => by cases hMem⟩
  | some p =>
    rw [Option.bind_some]
    simp only
    by_cases hQuote : peek p = 0x22
    · have hShort : (p.drop 1).length ≤ p.length := by
        rw [List.length_drop]
        omega
      have hTurns : jsonCopyChars size p.length (p.drop 1) [] = copyAll size (p.drop 1) [] :=
        jsonCopyChars_fuel hShort (Nat.le_refl _)
      rw [if_neg (fun h => h hQuote), hTurns]
      cases hOk : (copyAll size (p.drop 1) []).2 with
      | false => exact ⟨by simp, by simp⟩
      | true =>
        obtain ⟨t, hText, hLen⟩ := jsonCopyChars_ok hSize hOk
        rw [if_pos ⟨hQuote, rfl⟩]
        refine ⟨rfl, fun t' hMem => ?_⟩
        have hCopy : (copyAll size (p.drop 1) []).1 = t ++ [0] := hText
        rw [hCopy, List.dropLast_concat] at hMem
        obtain rfl := Option.some.inj hMem
        exact ⟨by rw [hCopy], hLen⟩
    · rw [if_pos hQuote, if_neg (fun h => hQuote h.1)]
      exact ⟨rfl, fun t hMem => by cases hMem⟩

theorem ne_nul_of_heard {text s : Bytes} (h : heardText text = some s) : ∀ c ∈ s, c ≠ 0 := by
  rw [heardText] at h
  split_ifs at h
  obtain rfl := Option.some.inj h
  exact fun c hMem => ne_nul_of_mem_cstr (mem_of_mem_trimmed hMem)

theorem aliases_eq (json : Bytes) (hSize : 0 < size) (keys : List Bytes) (out : Bytes) :
    (miplayJsonCopyStringAliases json size keys out).2 = (aliasText json size keys).isSome ∧
      ∀ s ∈ aliasText json size keys,
        cstr (miplayJsonCopyStringAliases json size keys out).1 = s ∧ s.length < size := by
  induction keys generalizing out with
  | nil => exact ⟨rfl, fun s hMem => by cases hMem⟩
  | cons key keys ih =>
    obtain ⟨hOk, hText⟩ := copyString_textOf json hSize key out
    rw [aliasText, List.findSome?_cons, ← aliasText, miplayJsonCopyStringAliases]
    rcases hCopy : miplayJsonCopyString json key size out with ⟨out', ok⟩
    rw [hCopy] at hOk hText
    cases hRead : textOf json size key with
    | none =>
      rw [hRead] at hOk
      obtain rfl : ok = false := hOk
      exact ih out'
    | some t =>
      rw [hRead] at hOk
      obtain rfl : ok = true := hOk
      obtain ⟨hBuffer, hLen⟩ := hText t hRead
      obtain rfl : out' = overlay (t ++ [0]) out := hBuffer
      have hCstr : cstr (overlay (t ++ [0]) out) = cstr t := by
        rw [overlay, List.append_assoc]
        exact cstr_append_zero t _
      have hTrimmed : (trimmed (cstr t)).length < size :=
        Nat.lt_of_le_of_lt (length_trimmed_le _)
          (Nat.lt_of_le_of_lt (List.takeWhile_prefix _).length_le hLen)
      have hWhole : (trimmed (cstr t)).take (size - 1) = trimmed (cstr t) :=
        List.take_of_length_le (by omega)
      simp only [hCstr, hWhole, Option.bind_some]
      by_cases hBlank : trimmed (cstr t) = []
      · rw [if_pos hBlank, heardText, if_pos hBlank]
        exact ih _
      · have hHeard : heardText t = some (trimmed (cstr t)) := if_neg hBlank
        rw [if_neg hBlank, hHeard]
        refine ⟨rfl, fun s hMem => ?_⟩
        obtain rfl := Option.some.inj hMem
        refine ⟨?_, hTrimmed⟩
        rw [overlay, List.append_assoc]
        exact cstr_append_nul_of_no_nul (ne_nul_of_heard hHeard) _

theorem ne_nul_of_aliasText {keys : List Bytes} {s : Bytes}
    (h : aliasText json size keys = some s) : ∀ c ∈ s, c ≠ 0 := by
  obtain ⟨key, -, hKey⟩ := List.exists_of_findSome?_eq_some h
  obtain ⟨t, -, hHeard⟩ := Option.bind_eq_some_iff.1 hKey
  exact ne_nul_of_heard hHeard

end Aliases

-- ---------------------------------------------------------------------------
-- The cover of an event
-- ---------------------------------------------------------------------------

section Cover

variable {heap : Nat → Bool} {payload : Bytes}

/-- The cover in the nested object that is read. -/
def nestedCover (heap : Nat → Bool) (payload : Bytes) : Option Bytes :=
  if heap 1 then
    (nestedText heap (payload ++ [0]) (payload.length + 1) nestedKeys 2 []).bind fun text =>
      aliasText (text ++ [0]) miplayCoverSourceMax coverKeys
  else none

theorem ne_nul_of_nestedCover {s : Bytes} (h : nestedCover heap payload = some s) :
    ∀ c ∈ s, c ≠ 0 := by
  rw [nestedCover] at h
  split_ifs at h
  obtain ⟨text, -, hAlias⟩ := Option.bind_eq_some_iff.1 h
  exact ne_nul_of_aliasText hAlias

/-- The event is there, and this is its cover. -/
def CarriesCover (r : MediaEvent × Bool) (cover : Bytes) : Prop :=
  r.2 = true ∧ r.1.changed.coverUrl = true ∧ cstr r.1.coverUrl = cover

theorem applyJsonStatus_cover (n : Int) (e : MediaEvent) :
    (applyJsonStatus n e).coverUrl = e.coverUrl ∧
      (applyJsonStatus n e).changed.coverUrl = e.changed.coverUrl := by
  simp only [applyJsonStatus]
  split_ifs <;> exact ⟨rfl, rfl⟩

theorem jsonMembers_cover (json : Bytes) :
    (jsonMembers json miplayMediaEventInit).1.coverUrl =
        (miplayJsonCopyStringAliases json miplayCoverSourceMax coverKeys []).1 ∧
      (jsonMembers json miplayMediaEventInit).1.changed.coverUrl =
        (miplayJsonCopyStringAliases json miplayCoverSourceMax coverKeys []).2 ∧
      ((miplayJsonCopyStringAliases json miplayCoverSourceMax coverKeys []).2 = true →
        (jsonMembers json miplayMediaEventInit).2 = true) := by
  refine ⟨?_, ?_, fun hOk => by simp [jsonMembers, hOk, miplayMediaEventInit]⟩
  all_goals
    simp only [jsonMembers, miplayMediaEventInit]
    cases miplayJsonReadStateAliases json statusKeys <;>
      cases miplayJsonReadStateAliases json deviceStateKeys <;>
        simp [applyJsonStatus_cover, applyJsonDeviceState]

/-- The cover of the members of one object. -/
theorem jsonMembers_carries (json cover : Bytes) :
    CarriesCover (jsonMembers json miplayMediaEventInit) cover ↔
      aliasText json miplayCoverSourceMax coverKeys = some cover := by
  obtain ⟨hCover, hBit, hAny⟩ := jsonMembers_cover json
  obtain ⟨hOk, hText⟩ := aliases_eq json (show 0 < miplayCoverSourceMax by decide)
    coverKeys []
  rw [CarriesCover, hCover, hBit, hOk]
  constructor
  · rintro ⟨-, hSome, rfl⟩
    obtain ⟨s, hAlias⟩ := Option.isSome_iff_exists.1 hSome
    rw [hAlias, (hText s hAlias).1]
  · intro hAlias
    rw [hAlias] at hOk ⊢
    exact ⟨hAny hOk, rfl, (hText cover hAlias).1⟩

/-- The cover of an object and the one in it. -/
theorem mergeNested_carries (json text cover : Bytes) :
    CarriesCover (mergeNested (jsonMembers json miplayMediaEventInit).1
        (jsonMembers text miplayMediaEventInit).1, true) cover ↔
      (aliasText json miplayCoverSourceMax coverKeys).or
        (aliasText text miplayCoverSourceMax coverKeys) = some cover := by
  obtain ⟨hCover, hBit, -⟩ := jsonMembers_cover json
  obtain ⟨hCover', hBit', -⟩ := jsonMembers_cover text
  have hPos : 0 < miplayCoverSourceMax := by decide
  obtain ⟨hOk, hText⟩ := aliases_eq json hPos coverKeys []
  obtain ⟨hOk', hText'⟩ := aliases_eq text hPos coverKeys []
  rw [hOk] at hBit
  rw [hOk'] at hBit'
  rw [CarriesCover, mergeNested]
  simp only [mergeText, hBit, hBit', hCover, hCover', true_and]
  cases hAlias : aliasText json miplayCoverSourceMax coverKeys with
  | some s =>
    have hRead := (hText s hAlias).1
    simp [hRead]
  | none =>
    cases hAlias' : aliasText text miplayCoverSourceMax coverKeys with
    | none => simp
    | some s =>
      obtain ⟨hRead, hLen⟩ := hText' s hAlias'
      have hWhole : s.take (miplayCoverSourceMax - 1) = s := List.take_of_length_le (by omega)
      have hNoNul := cstr_of_no_nul (ne_nul_of_aliasText hAlias')
      simp [strncpy, hRead, hWhole, hNoNul]

theorem parse_cover (hFits : payload.length ≤ miplayMaxFramePayload) (hSome : payload ≠ [])
    (cover : Bytes) :
    CarriesCover (miplayParseSetMediaInfoJson heap payload miplayMediaEventInit) cover ↔
      heap 0 ∧ (aliasText (payload ++ [0]) miplayCoverSourceMax coverKeys).or
        (nestedCover heap payload) = some cover := by
  rw [miplayParseSetMediaInfoJson]
  cases hHeap : heap 0 with
  | false => simp [CarriesCover]
  | true =>
    have hRight : ¬(payload = [] ∨ payload.length > miplayMaxFramePayload ∨ !true) := by
      simp [hSome, hFits]
    rw [if_neg hRight, nestedCover]
    simp only [true_and]
    cases hNested : heap 1 with
    | false =>
      rw [if_pos (by rfl), if_neg Bool.false_ne_true, Option.or_none]
      exact jsonMembers_carries _ _
    | true =>
      rw [if_neg (by simp), if_pos rfl, nestedObject_eq]
      cases nestedText heap (payload ++ [0]) (payload.length + 1) nestedKeys 2 [] with
      | none =>
        rw [Option.map_none, Option.bind_none, Option.or_none]
        exact jsonMembers_carries _ _
      | some text =>
        rw [Option.map_some, Option.bind_some]
        exact mergeNested_carries _ _ _

-- ---------------------------------------------------------------------------
-- The first cover
-- ---------------------------------------------------------------------------

/-- The member is a string, and these are its characters. -/
def StringAt (json key : Bytes) (cs : List Char) : Prop :=
  ∃ w rest, Json.SpellsText cs w ∧
    miplayJsonFindValue json key = some (0x22 :: (w ++ 0x22 :: rest))

def Blank (cs : List Char) : Prop := ∀ b ∈ Utf8.encode cs, isSpace b

instance (cs : List Char) : Decidable (Blank cs) := List.decidableBAll _ (Utf8.encode cs)

/-- There is no such member, or it is no string, or a blank one. -/
def NoCover (json key : Bytes) : Prop :=
  (∀ p ∈ miplayJsonFindValue json key, peek p ≠ 0x22) ∨ ∃ cs, StringAt json key cs ∧ Blank cs

/-- The first cover member that is not blank is a string of these characters. -/
structure FirstCover (payload : Bytes) (cs : List Char) (later : List Bytes) : Prop where
  fits : payload.length ≤ miplayMaxFramePayload
  first : ∃ before key, coverKeys = before ++ key :: later ∧
    (∀ k ∈ before, NoCover (payload ++ [0]) k) ∧ StringAt (payload ++ [0]) key cs
  nonblank : ¬Blank cs

/-- The buffer holds it. -/
def Holds (cs : List Char) : Prop :=
  (Utf8.encode cs).length < miplayCoverSourceMax ∧ 0 ∉ Utf8.encode cs

/-- It is longer, and the cover that is taken instead is the same without blanks. -/
def SameLater (heap : Nat → Bool) (payload : Bytes) (cs : List Char) (later : List Bytes) : Prop :=
  miplayCoverSourceMax ≤ (Utf8.encode cs).length ∧
    (aliasText (payload ++ [0]) miplayCoverSourceMax later).or (nestedCover heap payload) =
      some (trimmed (Utf8.encode cs))

theorem mem_dropWhile {p : UInt8 → Bool} {s : Bytes} {c : UInt8} (hMem : c ∈ s)
    (hStop : p c = false) : c ∈ s.dropWhile p := by
  induction s with
  | nil => cases hMem
  | cons d ds ih =>
    rw [List.dropWhile_cons]
    split_ifs with hSkip
    · refine ih ((List.mem_cons.1 hMem).resolve_left ?_)
      rintro rfl
      rw [hStop] at hSkip
      cases hSkip
    · exact hMem

/-- Only blanks are cut off. -/
theorem mem_trimmed {s : Bytes} {c : UInt8} (hMem : c ∈ s) (hSpace : isSpace c = false) :
    c ∈ trimmed s := by
  rw [trimmed, List.mem_reverse]
  exact mem_dropWhile (List.mem_reverse.2 (mem_dropWhile hMem hSpace)) hSpace

theorem trimmed_eq_nil_iff (s : Bytes) : trimmed s = [] ↔ ∀ b ∈ s, isSpace b := by
  constructor
  · intro hNil b hMem
    by_contra hSpace
    have hKept := mem_trimmed hMem (Bool.eq_false_iff.2 hSpace)
    rw [hNil] at hKept
    cases hKept
  · intro hAll
    rw [trimmed, skipWhile, List.dropWhile_eq_nil_iff.2 hAll]
    rfl

theorem textOf_string {json key : Bytes} {size : Nat} {cs : List Char} (hSize : 0 < size)
    (h : StringAt json key cs) :
    textOf json size key =
      if (Utf8.encode cs).length < size then some (Utf8.encode cs) else none := by
  obtain ⟨w, rest, hSpelled, hFind⟩ := h
  obtain ⟨hFits, hFull⟩ := copyAll_text hSpelled hSize rest
  rw [textOf, hFind, Option.bind_some, List.drop_one, List.tail_cons]
  by_cases hRoom : (Utf8.encode cs).length < size
  · rw [if_pos hRoom, hFits hRoom, if_pos ⟨rfl, rfl⟩, List.dropLast_concat]
  · rw [if_neg hRoom, if_neg fun hBoth => ?_]
    rw [hFull (Nat.le_of_not_lt hRoom)] at hBoth
    cases hBoth.2

theorem NoCover.passed {json key : Bytes} {size : Nat} (hSize : 0 < size) (h : NoCover json key) :
    (textOf json size key).bind heardText = none := by
  rcases h with hNone | ⟨cs, hString, hBlank⟩
  · rw [textOf]
    cases hFind : miplayJsonFindValue json key with
    | none => rfl
    | some p => rw [Option.bind_some, if_neg fun hBoth => hNone p hFind hBoth.1, Option.bind_none]
  · rw [textOf_string hSize hString]
    split_ifs
    · have hNil : trimmed (cstr (Utf8.encode cs)) = [] :=
        (trimmed_eq_nil_iff _).2 fun b hMem => hBlank b ((List.takeWhile_prefix _).subset hMem)
      rw [Option.bind_some, heardText, if_pos hNil]
    · rfl

/-- The members in front of the first cover do not count. -/
theorem FirstCover.aliases {cs : List Char} {later : List Bytes}
    (h : FirstCover payload cs later) :
    aliasText (payload ++ [0]) miplayCoverSourceMax coverKeys =
      ((if (Utf8.encode cs).length < miplayCoverSourceMax then heardText (Utf8.encode cs)
        else none).or (aliasText (payload ++ [0]) miplayCoverSourceMax later)) := by
  obtain ⟨before, key, hKeys, hBefore, hFirst⟩ := h.first
  have hPos : 0 < miplayCoverSourceMax := by decide
  have hNone : before.findSome? (fun key =>
      (textOf (payload ++ [0]) miplayCoverSourceMax key).bind heardText) = none :=
    List.findSome?_eq_none_iff.2 fun k hMem => (hBefore k hMem).passed hPos
  rw [hKeys, aliasText, List.findSome?_append, hNone, Option.none_or, List.findSome?_cons,
    textOf_string hPos hFirst]
  split_ifs
  · rw [Option.bind_some]
    cases heardText (Utf8.encode cs) <;> rfl
  · rfl

theorem FirstCover.ne_nil {cs : List Char} {later : List Bytes} (h : FirstCover payload cs later) :
    payload ≠ [] := by
  rintro rfl
  obtain ⟨before, key, hKeys, -, w, rest, -, hFind⟩ := h.first
  have hAll : ∀ k ∈ coverKeys, k.headD 0 ≠ 0 := by decide
  have hNone := jsonFindFrom_nul (hAll key (by rw [hKeys]; simp)) none []
  cases hNone.symm.trans hFind

/-- The buffer is never full. -/
theorem FirstCover.length_lt {cs : List Char} {later : List Bytes} {cover : Bytes}
    (h : FirstCover payload cs later)
    (hCarries :
      CarriesCover (miplayParseSetMediaInfoJson heap payload miplayMediaEventInit) cover) :
    cover.length < miplayCoverSourceMax := by
  have hAlias (json : Bytes) (hSome : aliasText json miplayCoverSourceMax coverKeys = some cover) :
      cover.length < miplayCoverSourceMax :=
    ((aliases_eq json (by decide) coverKeys []).2 cover hSome).2
  obtain ⟨-, hCover⟩ := (parse_cover h.fits h.ne_nil cover).1 hCarries
  rcases Option.or_eq_some_iff.1 hCover with hOuter | ⟨-, hNested⟩
  · exact hAlias _ hOuter
  · rw [nestedCover] at hNested
    split_ifs at hNested
    obtain ⟨text, -, hInner⟩ := Option.bind_eq_some_iff.1 hNested
    exact hAlias _ hInner

/-- **The first cover** is the cover of the event. -/
theorem carries_iff {cs : List Char} {later : List Bytes} (h : FirstCover payload cs later) :
    CarriesCover (miplayParseSetMediaInfoJson heap payload miplayMediaEventInit)
        (trimmed (Utf8.encode cs)) ↔
      heap 0 ∧ (Holds cs ∨ SameLater heap payload cs later) := by
  rw [parse_cover h.fits h.ne_nil, h.aliases]
  refine and_congr_right fun _ => ?_
  by_cases hLen : (Utf8.encode cs).length < miplayCoverSourceMax
  · rw [if_pos hLen]
    by_cases hNul : 0 ∈ Utf8.encode cs
    · -- no cover that is taken has a NUL in it
      have hKept : 0 ∈ trimmed (Utf8.encode cs) := mem_trimmed hNul (by decide)
      refine iff_of_false (fun hTaken => ?_) ?_
      · have hNoNul : ∀ c ∈ trimmed (Utf8.encode cs), c ≠ 0 := by
          rcases Option.or_eq_some_iff.1 hTaken with hOuter | ⟨-, hNested⟩
          · rcases Option.or_eq_some_iff.1 hOuter with hHeard | ⟨-, hAlias⟩
            · exact ne_nul_of_heard hHeard
            · exact ne_nul_of_aliasText hAlias
          · exact ne_nul_of_nestedCover hNested
        exact hNoNul 0 hKept rfl
      · rintro (hHolds | hSame)
        · exact hHolds.2 hNul
        · exact absurd hLen (Nat.not_lt_of_le hSame.1)
    · have hCstr : cstr (Utf8.encode cs) = Utf8.encode cs :=
        cstr_of_no_nul fun c hMem hZero => hNul (hZero ▸ hMem)
      have hText : trimmed (Utf8.encode cs) ≠ [] :=
        fun hNil => h.nonblank ((trimmed_eq_nil_iff _).1 hNil)
      have hHeard : heardText (Utf8.encode cs) = some (trimmed (Utf8.encode cs)) := by
        rw [heardText, hCstr, if_neg hText]
      rw [hHeard]
      exact iff_of_true rfl (.inl ⟨hLen, hNul⟩)
  · rw [if_neg hLen, Option.none_or, Holds, SameLater, or_iff_right fun hHolds => hLen hHolds.1,
      and_iff_right (Nat.le_of_not_lt hLen)]

end Cover

end EspMiplay.Miplay
