import Mathlib.Data.Bool.AllAny
import EspMiplay.Lib.Json
import EspMiplay.Miplay.JsonForm
import EspMiplay.Miplay.TextBounds
import EspMiplay.Miplay.TsLocal

/-!
# Strings in JSON

`miplay_json_copy_string` once more, on the text up to its NUL and on a buffer of the size it
is told: a read behind the NUL or a write outside the buffer faults.

## Results

* `copyStringIn_eq` — neither happens, whatever the text is.
* `copies_text`     — a text is read back however it is written.
* `copyString_law`  — both.
-/

namespace EspMiplay.Miplay

-- ---------------------------------------------------------------------------
-- The code on its buffers
-- ---------------------------------------------------------------------------

/-- `*p` -/
def peekIn : Bytes → Access UInt8
  | [] => .error .readPastData
  | c :: _ => .ok c

/-- `p == json`, or else `p[-1]`. -/
def beforeIn (json p : Bytes) : Access (Option UInt8) :=
  if p.length = json.length then .ok none
  else some <$> readByte json (json.length - p.length - 1)

/-- `miplay_json_find_value` -/
def jsonFindIn (json key : Bytes) : Nat → Bytes → Access (Option Bytes)
  | 0, _ => .ok none
  | fuel + 1, p => do
    match ← strstrIn key p with
    | none => return none
    | some p =>
      let prev ← beforeIn json p
      let after ← skipIn jsonSpace (p.drop key.length)
      if atObjectKey prev ∧ peek after = 0x3A then
        let value ← skipIn jsonSpace (after.drop 1)
        return some value
      else jsonFindIn json key fuel (p.drop 1)

/-- Hexadecimal digits: the loop ends at the first character that is none. -/
def hexDigitsIn : Nat → Bytes → Nat → Access (Option Nat)
  | 0, _, n => .ok (some n)
  | k + 1, p, n => do
    let c ← peekIn p
    match miplayJsonHexDigit c with
    | none => return none
    | some digit => hexDigitsIn k (p.drop 1) (n * 16 + digit)

/-- A first half of a pair, and another escape behind it. -/
def pairFollowsIn (codepoint : Nat) (p : Bytes) : Access Bool :=
  if 0xD800 ≤ codepoint ∧ codepoint ≤ 0xDBFF then do
    let slash ← peekIn p
    if slash = 0x5C then
      let letter ← peekIn (p.drop 1)
      return letter = 0x75
    else return false
  else .ok false

def unicodeEscapeIn (p : Bytes) : Access (Option (Nat × Bytes)) := do
  match ← hexDigitsIn 4 p 0 with
  | none => return none
  | some codepoint =>
    let p := p.drop 4
    let pair ← pairFollowsIn codepoint p
    if pair then
      match ← hexDigitsIn 4 (p.drop 2) 0 with
      | none => return none
      | some low =>
        if low < 0xDC00 ∨ low > 0xDFFF then return none
        else return some (0x10000 + (codepoint - 0xD800) * 1024 + (low - 0xDC00), p.drop 6)
    else if 0xD800 ≤ codepoint ∧ codepoint ≤ 0xDFFF then return none
    else return some (codepoint, p)

/-- The buffer and the offset. -/
def appendCodepointIn (outSize : Nat) (out : Bytes) (offset codepoint : Nat) :
    Access (Option (Bytes × Nat)) :=
  match codepointBytes codepoint with
  | none => .ok none
  | some bytes =>
    if offset > outSize ∨ outSize - offset < bytes.length + 1 then .ok none
    else do
      let out ← writeSpan out offset bytes
      return some (out, offset + bytes.length)

/-- The loop: the cursor, the buffer and `n`. -/
def jsonCopyIn (outSize : Nat) : Nat → Bytes → Bytes → Nat → Access (Bytes × Bool)
  | 0, _, out, _ => .ok (out, false)
  | fuel + 1, p, out, n => do
    let c ← peekIn p
    if c = 0 then return (out, false)
    else if c = 0x22 then
      let out ← writeSpan out n [0]
      return (out, true)
    else if c ≠ 0x5C then
      if n + 1 ≥ outSize then return (out, false)
      else
        let out ← writeSpan out n [c]
        jsonCopyIn outSize fuel (p.drop 1) out (n + 1)
    else
      let p := p.drop 1
      let e ← peekIn p
      if e = 0 then return (out, false)
      else
        let p := p.drop 1
        if e = 0x75 then
          match ← unicodeEscapeIn p with
          | none => return (out, false)
          | some (codepoint, p) =>
            match ← appendCodepointIn outSize out n codepoint with
            | none => return (out, false)
            | some (out, n) => jsonCopyIn outSize fuel p out n
        else
          match shortEscape e with
          | none => return (out, false)
          | some b =>
            if n + 1 ≥ outSize then return (out, false)
            else
              let out ← writeSpan out n [b]
              jsonCopyIn outSize fuel p out (n + 1)

def miplayJsonCopyStringIn (fuel : Nat) (json key out : Bytes) (outSize : Nat) :
    Access (Bytes × Bool) := do
  if outSize = 0 then return (out, false)
  match ← jsonFindIn json key fuel json with
  | none => return (out, false)
  | some p =>
    let c ← peekIn p
    if c ≠ 0x22 then return (out, false)
    else jsonCopyIn outSize fuel (p.drop 1) out 0

-- ---------------------------------------------------------------------------
-- Inside
-- ---------------------------------------------------------------------------

/-- A text with its NUL. -/
def Terminated (p : Bytes) : Prop := ∃ s, p = s ++ [0] ∧ 0 ∉ s

namespace Terminated

variable {p : Bytes}

theorem ne_nil (h : Terminated p) : p ≠ [] := by
  obtain ⟨s, rfl, -⟩ := h
  simp

theorem tail {c : UInt8} {cs : Bytes} (h : Terminated (c :: cs)) (hMore : c ≠ 0) :
    Terminated cs := by
  obtain ⟨s, hText, hNul⟩ := h
  cases s with
  | nil => exact absurd (List.cons.inj hText).1 hMore
  | cons d ds =>
    exact ⟨ds, (List.cons.inj hText).2, fun hMem => hNul (List.mem_cons_of_mem d hMem)⟩

theorem zero_mem (h : Terminated p) : 0 ∈ p := by
  obtain ⟨s, rfl, -⟩ := h
  simp

/-- A part that ends where the text ends. -/
theorem suffix {q : Bytes} (h : Terminated p) (hSuffix : q <:+ p) (hSome : q ≠ []) :
    Terminated q := by
  obtain ⟨s, rfl, hNul⟩ := h
  obtain ⟨t, hText⟩ := hSuffix
  obtain ⟨front, last, rfl⟩ := (List.eq_nil_or_concat' q).resolve_left hSome
  rw [← List.append_assoc] at hText
  obtain ⟨rfl, hLast⟩ := List.append_inj' hText rfl
  refine ⟨front, by rw [(List.cons.inj hLast).1], fun hMem => hNul ?_⟩
  exact List.mem_append_right t hMem

end Terminated

theorem peekIn_eq {p : Bytes} (hSome : p ≠ []) : peekIn p = .ok (peek p) := by
  obtain ⟨c, cs, rfl⟩ := List.exists_cons_of_ne_nil hSome
  rfl

section Search

variable {key p : Bytes}

/-- The characters in front of what `strstr` finds are passed over. -/
theorem jsonFindFrom_strstr (hKey : key ≠ []) (prev : Option UInt8) :
    (strstr key p = none → jsonFindFrom key prev p = none) ∧
      ∀ q, strstr key p = some q → ∃ w, p = w ++ q ∧ key.isPrefixOf q ∧
        jsonFindFrom key prev p = jsonFindFrom key (w.getLast?.or prev) q := by
  induction p generalizing prev with
  | nil => exact ⟨fun _ => rfl, fun q hFound => by simp [strstr, hKey] at hFound⟩
  | cons c cs ih =>
    rw [strstr]
    by_cases hPrefix : key.isPrefixOf (c :: cs)
    · rw [if_pos hPrefix]
      refine ⟨fun hNone => (Option.some_ne_none _ hNone).elim, fun q hFound => ?_⟩
      obtain rfl := Option.some.inj hFound
      exact ⟨[], rfl, hPrefix, rfl⟩
    rw [if_neg hPrefix, jsonFindFrom, if_neg hPrefix]
    by_cases hNul : c = 0
    · rw [if_pos hNul, if_pos hNul]
      exact ⟨fun _ => rfl, fun q hFound => by cases hFound⟩
    rw [if_neg hNul, if_neg hNul]
    obtain ⟨hNone, hSome⟩ := ih (some c)
    refine ⟨hNone, fun q hFound => ?_⟩
    obtain ⟨w, rfl, hHere, hSame⟩ := hSome q hFound
    refine ⟨c :: w, rfl, hHere, hSame.trans ?_⟩
    rw [List.getLast?_cons]
    cases w.getLast? <;> rfl

theorem skipIn_terminated (hEnd : Terminated p) :
    skipIn jsonSpace p = .ok (skipWhile jsonSpace p) ∧ Terminated (skipWhile jsonSpace p) := by
  have hSome : skipWhile jsonSpace p ≠ [] := by
    intro hNil
    exact absurd (List.dropWhile_eq_nil_iff.1 hNil 0 hEnd.zero_mem) (by decide)
  exact ⟨skipIn_eq_ok.2 ⟨rfl, hSome⟩, hEnd.suffix (List.dropWhile_suffix _) hSome⟩

/-- The character before the cursor. -/
theorem beforeIn_eq (front q : Bytes) :
    beforeIn (front ++ q) q = .ok front.getLast? := by
  rw [beforeIn]
  cases hFront : front.getLast? with
  | none =>
    obtain rfl := List.getLast?_eq_none_iff.1 hFront
    exact if_pos rfl
  | some c =>
    have hSome : front ≠ [] := by
      rintro rfl
      cases hFront
    have hPos := List.length_pos_of_ne_nil hSome
    have hIndex : (front ++ q).length - q.length - 1 = front.length - 1 := by
      rw [List.length_append]
      omega
    have hByte : (front ++ q)[front.length - 1]? = some c := by
      rw [List.getElem?_append_left (by omega), ← List.getLast?_eq_getElem?, hFront]
    rw [if_neg (by rw [List.length_append]; omega), hIndex, readByte, hByte]
    rfl

/-- The search stays in the text. -/
theorem jsonFindIn_eq (hKey : key ≠ []) (hChars : 0 ∉ key) (fuel : Nat) (front : Bytes)
    (hEnd : Terminated p) (hFuel : p.length ≤ fuel) :
    jsonFindIn (front ++ p) key fuel p = .ok (jsonFindFrom key front.getLast? p) ∧
      ∀ q ∈ jsonFindFrom key front.getLast? p, Terminated q ∧ q.length ≤ p.length := by
  induction fuel generalizing front p with
  | zero => exact absurd (List.length_eq_zero_iff.1 (Nat.le_zero.1 hFuel)) hEnd.ne_nil
  | succ fuel ih =>
    have hSearch : strstrIn key p = .ok (strstr key p) :=
      (strstrIn_eq_ok hKey).2 ⟨rfl, .inr hEnd.zero_mem⟩
    obtain ⟨hNone, hSome⟩ := jsonFindFrom_strstr (p := p) hKey front.getLast?
    rw [jsonFindIn, hSearch, Access.ok_bind]
    cases hFound : strstr key p with
    | none =>
      rw [hNone hFound]
      exact ⟨rfl, fun q hMem => by cases hMem⟩
    | some q =>
      obtain ⟨w, rfl, hHere, hSame⟩ := hSome q hFound
      obtain ⟨r, rfl⟩ := List.isPrefixOf_iff_prefix.1 hHere
      obtain ⟨k, ks, rfl⟩ := List.exists_cons_of_ne_nil hKey
      have hFirst : k ≠ 0 := fun h => hChars (h ▸ List.mem_cons_self)
      have hMatch : Terminated (k :: ks ++ r) := hEnd.suffix (List.suffix_append w _) (by simp)
      have hBehind : Terminated r := by
        refine hMatch.suffix (List.suffix_append _ r) ?_
        rintro rfl
        have hZero := hMatch.zero_mem
        rw [List.append_nil] at hZero
        exact hChars hZero
      obtain ⟨hSkip, hAfter⟩ := skipIn_terminated hBehind
      have hBefore := beforeIn_eq (front ++ w) (k :: ks ++ r)
      rw [← List.append_assoc, hSame, ← List.getLast?_append]
      simp only [hBefore, Access.ok_bind, List.drop_left, hSkip]
      rw [List.cons_append, jsonFindFrom, ← List.cons_append, if_pos hHere]
      simp only [List.drop_left]
      by_cases hColon : atObjectKey (front ++ w).getLast? ∧ peek (skipWhile jsonSpace r) = 0x3A
      · rw [if_pos hColon, if_pos hColon]
        have hShort : (skipWhile jsonSpace r).length ≤ r.length :=
          (List.dropWhile_suffix _).length_le
        obtain ⟨c, cs, hForm⟩ := List.exists_cons_of_ne_nil hAfter.ne_nil
        rw [hForm] at hAfter hColon hShort ⊢
        have hChar : c = 0x3A := hColon.2
        have hMore : Terminated cs := hAfter.tail (by rw [hChar]; decide)
        obtain ⟨hValue, hRest⟩ := skipIn_terminated hMore
        rw [List.drop_one, List.tail_cons, hValue]
        refine ⟨rfl, fun q hMem => ?_⟩
        obtain rfl := Option.some.inj hMem
        have hLast : (skipWhile jsonSpace cs).length ≤ cs.length :=
          (List.dropWhile_suffix _).length_le
        refine ⟨hRest, ?_⟩
        simp only [List.length_append, List.length_cons] at hShort ⊢
        omega
      · rw [if_neg hColon, if_neg hColon]
        have hTail : Terminated (ks ++ r) := hMatch.tail hFirst
        have hShort : (ks ++ r).length ≤ fuel := by
          simp only [List.length_append, List.length_cons] at hFuel ⊢
          omega
        obtain ⟨hRest, hResult⟩ := ih (front ++ w ++ [k]) hTail hShort
        rw [List.getLast?_concat] at hRest hResult
        have hSplit : front ++ w ++ (k :: ks ++ r) = front ++ w ++ [k] ++ (ks ++ r) := by simp
        rw [hSplit]
        refine ⟨hRest, fun q hMem => ⟨(hResult q hMem).1, ?_⟩⟩
        have hLast := (hResult q hMem).2
        simp only [List.length_append, List.length_cons] at hLast ⊢
        omega

end Search

section Copy

variable {p : Bytes}

/-- The NUL is no digit, so the loop goes on inside the text only. -/
theorem digit_or_none (hEnd : Terminated p) :
    (∃ c cs, p = c :: cs ∧ miplayJsonHexDigit c = none) ∨
      ∃ c cs digit, p = c :: cs ∧ miplayJsonHexDigit c = some digit ∧ Terminated cs := by
  obtain ⟨c, cs, rfl⟩ := List.exists_cons_of_ne_nil hEnd.ne_nil
  cases hDigit : miplayJsonHexDigit c with
  | none => exact .inl ⟨c, cs, rfl, hDigit⟩
  | some digit =>
    refine .inr ⟨c, cs, digit, rfl, hDigit, hEnd.tail ?_⟩
    rintro rfl
    have hNone : miplayJsonHexDigit 0 = none := by decide
    cases hNone.symm.trans hDigit

theorem hexDigitsIn_eq (hEnd : Terminated p) :
    hexDigitsIn 4 p 0 = .ok (jsonHex4 p) ∧ ∀ n ∈ jsonHex4 p, Terminated (p.drop 4) := by
  have hPure (x : Option Nat) : (pure x : Access (Option Nat)) = .ok x := rfl
  rcases digit_or_none hEnd with ⟨a, p₁, rfl, hA⟩ | ⟨a, p₁, a', rfl, hA, hEnd₁⟩
  · simp [hexDigitsIn, peekIn, Access.ok_bind, jsonHex4, hA, hPure]
  rcases digit_or_none hEnd₁ with ⟨b, p₂, rfl, hB⟩ | ⟨b, p₂, b', rfl, hB, hEnd₂⟩
  · simp [hexDigitsIn, peekIn, Access.ok_bind, jsonHex4, hA, hB, hPure]
  rcases digit_or_none hEnd₂ with ⟨c, p₃, rfl, hC⟩ | ⟨c, p₃, c', rfl, hC, hEnd₃⟩
  · simp [hexDigitsIn, peekIn, Access.ok_bind, jsonHex4, hA, hB, hC, hPure]
  rcases digit_or_none hEnd₃ with ⟨d, p₄, rfl, hD⟩ | ⟨d, p₄, d', rfl, hD, hEnd₄⟩
  · simp [hexDigitsIn, peekIn, Access.ok_bind, jsonHex4, hA, hB, hC, hD, hPure]
  · simp [hexDigitsIn, peekIn, Access.ok_bind, jsonHex4, hA, hB, hC, hD, hEnd₄]

theorem behind_letter (hEnd : Terminated p) (hSlash : p.getD 0 0 = 0x5C)
    (hLetter : p.getD 1 0 = 0x75) : Terminated (p.drop 2) := by
  obtain ⟨c, cs, rfl⟩ := List.exists_cons_of_ne_nil hEnd.ne_nil
  have hMore : Terminated cs := hEnd.tail (by rw [show c = 0x5C from hSlash]; decide)
  obtain ⟨d, ds, rfl⟩ := List.exists_cons_of_ne_nil hMore.ne_nil
  exact hMore.tail (by rw [show d = 0x75 from hLetter]; decide)

theorem pairFollowsIn_eq (codepoint : Nat) (hEnd : Terminated p) :
    pairFollowsIn codepoint p =
      .ok (0xD800 ≤ codepoint ∧ codepoint ≤ 0xDBFF ∧ p.getD 0 0 = 0x5C ∧ p.getD 1 0 = 0x75) := by
  obtain ⟨c, cs, rfl⟩ := List.exists_cons_of_ne_nil hEnd.ne_nil
  rw [pairFollowsIn]
  by_cases hHigh : 0xD800 ≤ codepoint ∧ codepoint ≤ 0xDBFF
  · rw [if_pos hHigh]
    by_cases hSlash : c = 0x5C
    · have hMore : Terminated cs := hEnd.tail (by rw [hSlash]; decide)
      obtain ⟨d, ds, rfl⟩ := List.exists_cons_of_ne_nil hMore.ne_nil
      simp [peekIn, Access.ok_bind, hSlash, hHigh]
    · simp [peekIn, Access.ok_bind, hSlash]
      rfl
  · have hFalse : ¬(0xD800 ≤ codepoint ∧ codepoint ≤ 0xDBFF ∧ (c :: cs).getD 0 0 = 0x5C ∧
        (c :: cs).getD 1 0 = 0x75) := fun h => hHigh ⟨h.1, h.2.1⟩
    rw [if_neg hHigh, decide_eq_false hFalse]

theorem unicodeEscapeIn_eq (hEnd : Terminated p) :
    unicodeEscapeIn p = .ok (unicodeEscape p) ∧ ∀ r ∈ unicodeEscape p, Terminated r.2 := by
  obtain ⟨hDigits, hBehind⟩ := hexDigitsIn_eq hEnd
  rw [unicodeEscapeIn, hDigits, Access.ok_bind, unicodeEscape]
  cases hHigh : jsonHex4 p with
  | none => exact ⟨rfl, fun r hMem => by cases hMem⟩
  | some codepoint =>
    have hRest := hBehind codepoint hHigh
    simp only [pairFollowsIn_eq codepoint hRest, Access.ok_bind, Option.bind_eq_bind,
      Option.bind_some, decide_eq_true_eq]
    split_ifs with hPair hAlone
    · obtain ⟨hLow, hEndLow⟩ := hexDigitsIn_eq (behind_letter hRest hPair.2.2.1 hPair.2.2.2)
      rw [hLow, Access.ok_bind]
      cases hSecond : jsonHex4 ((p.drop 4).drop 2) with
      | none => exact ⟨rfl, fun r hMem => by cases hMem⟩
      | some low =>
        simp only [Option.bind_some]
        split_ifs with hBad
        · exact ⟨rfl, fun r hMem => by cases hMem⟩
        · refine ⟨rfl, fun r hMem => ?_⟩
          obtain rfl := Option.some.inj hMem
          have hLast := hEndLow low hSecond
          rw [List.drop_drop] at hLast
          exact hLast
    · exact ⟨rfl, fun r hMem => by cases hMem⟩
    · refine ⟨rfl, fun r hMem => ?_⟩
      obtain rfl := Option.some.inj hMem
      exact hRest

theorem writeSpan_overlay {out old bytes : Bytes} (hFits : out.length + bytes.length ≤ old.length) :
    writeSpan (overlay out old) out.length bytes = .ok (overlay (out ++ bytes) old) := by
  have hLen : (overlay out old).length = old.length := by
    rw [overlay, List.length_append, List.length_drop]
    omega
  rw [writeSpan, if_pos (by rw [hLen]; exact hFits), overlay, overlay, List.take_left,
    List.length_append, List.drop_append, List.drop_of_length_le (by omega), List.nil_append,
    Nat.add_sub_cancel_left, List.drop_drop]

theorem appendCodepointIn_eq {out old : Bytes} (hOut : out.length < old.length) (codepoint : Nat) :
    appendCodepointIn old.length (overlay out old) out.length codepoint =
      .ok ((miplayJsonAppendCodepoint old.length out codepoint).map fun out =>
        (overlay out old, out.length)) := by
  rw [appendCodepointIn, miplayJsonAppendCodepoint]
  cases codepointBytes codepoint with
  | none => rfl
  | some bytes =>
    simp only [Option.bind_eq_bind, Option.bind_some]
    by_cases hFull : out.length + bytes.length + 1 > old.length
    · rw [if_pos hFull, if_pos (by omega)]
      rfl
    · rw [if_neg hFull, if_neg (by omega), writeSpan_overlay (by omega)]
      simp

theorem appendCodepoint_length {outSize codepoint : Nat} {out out' : Bytes}
    (h : miplayJsonAppendCodepoint outSize out codepoint = some out') : out'.length < outSize := by
  rw [miplayJsonAppendCodepoint] at h
  obtain ⟨bytes, -, h⟩ := Option.bind_eq_some_iff.1 h
  split_ifs at h with hFull
  obtain rfl := Option.some.inj h
  rw [List.length_append]
  omega

/-- The loop stays in both. -/
theorem jsonCopyIn_eq {out old : Bytes} (fuel : Nat) (hEnd : Terminated p)
    (hOut : out.length < old.length) :
    jsonCopyIn old.length fuel p (overlay out old) out.length =
      .ok (overlay (jsonCopyChars old.length fuel p out).1 old,
        (jsonCopyChars old.length fuel p out).2) := by
  induction fuel generalizing p out with
  | zero => rfl
  | succ fuel ih =>
    obtain ⟨c, cs, rfl⟩ := List.exists_cons_of_ne_nil hEnd.ne_nil
    have hOne (b : UInt8) : writeSpan (overlay out old) out.length [b] =
        .ok (overlay (out ++ [b]) old) := writeSpan_overlay hOut
    have hStep (b : UInt8) {q : Bytes} (hNext : Terminated q)
        (hRoom : ¬out.length + 1 ≥ old.length) :
        (writeSpan (overlay out old) out.length [b] >>= fun buf =>
          jsonCopyIn old.length fuel q buf (out.length + 1)) =
          .ok (overlay (jsonCopyChars old.length fuel q (out ++ [b])).1 old,
            (jsonCopyChars old.length fuel q (out ++ [b])).2) := by
      have hLen : (out ++ [b]).length = out.length + 1 := List.length_append
      rw [hOne, Access.ok_bind, ← hLen, ih hNext (by omega)]
    rw [jsonCopyIn, peekIn, Access.ok_bind, jsonCopyChars.eq_def]
    simp only
    by_cases hNul : c = 0
    · rw [if_pos hNul, if_pos hNul]
      rfl
    rw [if_neg hNul, if_neg hNul]
    have hMore := hEnd.tail hNul
    by_cases hQuote : c = 0x22
    · rw [if_pos hQuote, if_pos hQuote, hOne]
      rfl
    rw [if_neg hQuote, if_neg hQuote]
    by_cases hSlash : c ≠ 0x5C
    · rw [if_pos hSlash, if_pos hSlash]
      by_cases hFull : out.length + 1 ≥ old.length
      · rw [if_pos hFull, if_pos hFull]
        rfl
      · rw [if_neg hFull, if_neg hFull]
        exact hStep c hMore hFull
    rw [if_neg hSlash, if_neg hSlash, List.drop_one, List.tail_cons]
    obtain ⟨e, es, rfl⟩ := List.exists_cons_of_ne_nil hMore.ne_nil
    rw [peekIn, Access.ok_bind]
    simp only
    by_cases hLast : e = 0
    · have hNone : shortEscape e = none := by
        rw [hLast]
        decide
      rw [if_pos hLast, if_neg (by rw [hLast]; decide), hNone]
      rfl
    rw [if_neg hLast, List.drop_one, List.tail_cons]
    have hNext := hMore.tail hLast
    by_cases hLetter : e = 0x75
    · obtain ⟨hEscape, hBehind⟩ := unicodeEscapeIn_eq hNext
      rw [if_pos hLetter, if_pos hLetter, hEscape, Access.ok_bind]
      cases hRead : unicodeEscape es with
      | none => rfl
      | some r =>
        obtain ⟨codepoint, q⟩ := r
        simp only [appendCodepointIn_eq hOut, Access.ok_bind]
        cases hAppend : miplayJsonAppendCodepoint old.length out codepoint with
        | none => rfl
        | some out' => exact ih (hBehind _ hRead) (appendCodepoint_length hAppend)
    · rw [if_neg hLetter, if_neg hLetter]
      cases shortEscape e with
      | none => rfl
      | some b =>
        simp only
        by_cases hFull : out.length + 1 ≥ old.length
        · rw [if_pos hFull, if_pos hFull]
          rfl
        · rw [if_neg hFull, if_neg hFull]
          exact hStep b hNext hFull

theorem unicodeEscape_length {codepoint : Nat} {q : Bytes}
    (h : unicodeEscape p = some (codepoint, q)) : q.length ≤ p.length := by
  rw [unicodeEscape] at h
  obtain ⟨high, -, h⟩ := Option.bind_eq_some_iff.1 h
  simp only at h
  split_ifs at h
  · obtain ⟨low, -, h⟩ := Option.bind_eq_some_iff.1 h
    split_ifs at h
    obtain ⟨-, rfl⟩ := Prod.mk.inj (Option.some.inj h)
    simp only [List.length_drop]
    omega
  · obtain ⟨-, rfl⟩ := Prod.mk.inj (Option.some.inj h)
    rw [List.length_drop]
    omega

/-- One turn: it is over, with a NUL behind the text or without, or it goes on behind a
character that fits. -/
theorem jsonCopyChars_turn (size : Nat) (p out : Bytes) :
    (∀ fuel, jsonCopyChars size (fuel + 1) p out = (out, false)) ∨
    (∀ fuel, jsonCopyChars size (fuel + 1) p out = (out ++ [0], true)) ∨
    ∃ q out', q.length < p.length ∧ out'.length < size ∧
      ∀ fuel, jsonCopyChars size (fuel + 1) p out = jsonCopyChars size fuel q out' := by
  have hByte (b : UInt8) {q : Bytes} (hLess : q.length < p.length)
      (hTurn : ∀ fuel, jsonCopyChars size (fuel + 1) p out =
        if out.length + 1 ≥ size then (out, false) else jsonCopyChars size fuel q (out ++ [b])) :
      (∀ fuel, jsonCopyChars size (fuel + 1) p out = (out, false)) ∨
      (∀ fuel, jsonCopyChars size (fuel + 1) p out = (out ++ [0], true)) ∨
      ∃ q out', q.length < p.length ∧ out'.length < size ∧
        ∀ fuel, jsonCopyChars size (fuel + 1) p out = jsonCopyChars size fuel q out' := by
    by_cases hFull : out.length + 1 ≥ size
    · exact .inl fun fuel => by rw [hTurn, if_pos hFull]
    · refine .inr (.inr ⟨q, out ++ [b], hLess, ?_, fun fuel => by rw [hTurn, if_neg hFull]⟩)
      rw [List.length_append, List.length_singleton]
      omega
  cases p with
  | nil => exact .inl fun _ => rfl
  | cons c cs =>
    have hTurn (fuel : Nat) := jsonCopyChars.eq_def size (fuel + 1) (c :: cs) out
    by_cases hNul : c = 0
    · simp only [if_pos hNul] at hTurn
      exact .inl hTurn
    by_cases hQuote : c = 0x22
    · simp only [if_neg hNul, if_pos hQuote] at hTurn
      exact .inr (.inl hTurn)
    by_cases hSlash : c ≠ 0x5C
    · simp only [if_neg hNul, if_neg hQuote, if_pos hSlash] at hTurn
      exact hByte c (Nat.lt_succ_self _) hTurn
    simp only [if_neg hNul, if_neg hQuote, if_neg hSlash] at hTurn
    cases cs with
    | nil => exact .inl hTurn
    | cons e es =>
      by_cases hLetter : e = 0x75
      · simp only [if_pos hLetter] at hTurn
        cases hRead : unicodeEscape es with
        | none =>
          simp only [hRead] at hTurn
          exact .inl hTurn
        | some r =>
          simp only [hRead] at hTurn
          have hLess : r.2.length ≤ es.length := unicodeEscape_length hRead
          cases hAppend : miplayJsonAppendCodepoint size out r.1 with
          | none =>
            simp only [hAppend] at hTurn
            exact .inl hTurn
          | some out' =>
            simp only [hAppend] at hTurn
            refine .inr (.inr ⟨r.2, out', ?_, appendCodepoint_length hAppend, hTurn⟩)
            simp only [List.length_cons]
            omega
      · simp only [if_neg hLetter] at hTurn
        cases hShort : shortEscape e with
        | none =>
          simp only [hShort] at hTurn
          exact .inl hTurn
        | some b =>
          simp only [hShort] at hTurn
          exact hByte b (by simp only [List.length_cons]; omega) hTurn

/-- The turns are enough: each takes a character. -/
theorem jsonCopyChars_fuel {size fuel fuel' : Nat} {out : Bytes} (hFuel : p.length ≤ fuel)
    (hFuel' : p.length ≤ fuel') :
    jsonCopyChars size fuel p out = jsonCopyChars size fuel' p out := by
  have hNil (n : Nat) (out : Bytes) : jsonCopyChars size n [] out = (out, false) := by
    cases n <;> rfl
  induction fuel generalizing fuel' p out with
  | zero => rw [List.length_eq_zero_iff.1 (Nat.le_zero.1 hFuel), hNil, hNil]
  | succ fuel ih =>
    cases fuel' with
    | zero => rw [List.length_eq_zero_iff.1 (Nat.le_zero.1 hFuel'), hNil, hNil]
    | succ fuel' =>
      rcases jsonCopyChars_turn size p out with hEnd | hEnd | ⟨q, out', hLess, -, hTurn⟩
      · rw [hEnd, hEnd]
      · rw [hEnd, hEnd]
      · rw [hTurn, hTurn]
        exact ih (by omega) (by omega)

/-- **The function stays in both**, and computes what it does on its own. -/
theorem copyStringIn_eq {text key : Bytes} (out : Bytes) (hText : 0 ∉ text) (hKey : key ≠ [])
    (hChars : 0 ∉ key) {fuel : Nat} (hFuel : text.length < fuel) :
    miplayJsonCopyStringIn fuel (text ++ [0]) key out out.length =
      .ok (if out.length = 0 then (out, false)
        else miplayJsonCopyString (text ++ [0]) key out.length out) := by
  rw [miplayJsonCopyStringIn]
  by_cases hSize : out.length = 0
  · rw [if_pos hSize, if_pos hSize]
    rfl
  rw [if_neg hSize, if_neg hSize]
  have hEnd : Terminated (text ++ [0]) := ⟨text, rfl, hText⟩
  have hLen : (text ++ [0]).length ≤ fuel := by
    rw [List.length_append]
    exact hFuel
  obtain ⟨hFind, hFound⟩ := jsonFindIn_eq hKey hChars fuel [] hEnd hLen
  rw [List.nil_append, List.getLast?_nil] at hFind
  rw [hFind, Access.ok_bind, miplayJsonCopyString, miplayJsonFindValue]
  cases hValue : jsonFindFrom key none (text ++ [0]) with
  | none => rfl
  | some p =>
    obtain ⟨hRest, hShort⟩ := hFound p hValue
    simp only [peekIn_eq hRest.ne_nil, Access.ok_bind]
    by_cases hQuote : peek p ≠ 0x22
    · rw [if_pos hQuote, if_pos hQuote]
      rfl
    · rw [if_neg hQuote, if_neg hQuote]
      obtain ⟨c, cs, rfl⟩ := List.exists_cons_of_ne_nil hRest.ne_nil
      have hChar : c = 0x22 := Classical.not_not.1 hQuote
      have hMore : Terminated cs := hRest.tail (by rw [hChar]; decide)
      have hPos : ([] : Bytes).length < out.length := Nat.pos_of_ne_zero hSize
      rw [List.length_cons] at hShort
      have hCopy := jsonCopyIn_eq fuel hMore hPos
      have hTurns : jsonCopyChars out.length fuel cs [] =
          jsonCopyChars out.length (c :: cs).length cs [] :=
        jsonCopyChars_fuel (by omega) (Nat.le_succ _)
      rw [hTurns] at hCopy
      exact hCopy

end Copy

-- ---------------------------------------------------------------------------
-- What is copied
-- ---------------------------------------------------------------------------

section Spelled

variable {size : Nat} {w w' bs bs' : Bytes}

/-- The loop with as many turns as there are characters. -/
def copyAll (size : Nat) (p out : Bytes) : Bytes × Bool := jsonCopyChars size p.length p out

/-- In the text `w` stands for the bytes `bs`. -/
def Copies (size : Nat) (w bs : Bytes) : Prop :=
  ∀ rest out, out.length < size →
    (out.length + bs.length < size →
      copyAll size (w ++ rest) out = copyAll size rest (out ++ bs)) ∧
    (size ≤ out.length + bs.length → (copyAll size (w ++ rest) out).2 = false)

theorem Copies.nil : Copies size [] [] := by
  refine fun rest out hOut => ⟨fun _ => by rw [List.nil_append, List.append_nil], fun hFull => ?_⟩
  rw [List.length_nil] at hFull
  omega

theorem Copies.append (h : Copies size w bs) (h' : Copies size w' bs') :
    Copies size (w ++ w') (bs ++ bs') := by
  intro rest out hOut
  rw [List.append_assoc, List.length_append]
  obtain ⟨hFits, hFull⟩ := h (w' ++ rest) out hOut
  by_cases hFirst : out.length + bs.length < size
  · have hLen : (out ++ bs).length = out.length + bs.length := List.length_append
    obtain ⟨hFits', hFull'⟩ := h' rest (out ++ bs) (by omega)
    rw [hFits hFirst, ← List.append_assoc]
    exact ⟨fun hBoth => hFits' (by omega), fun hBoth => hFull' (by omega)⟩
  · exact ⟨fun hBoth => by omega, fun _ => hFull (by omega)⟩

theorem copies_plain {b : UInt8} (hNul : b ≠ 0) (hQuote : b ≠ 0x22) (hSlash : b ≠ 0x5C) :
    Copies size [b] [b] := by
  intro rest out hOut
  have hStep : copyAll size (b :: rest) out =
      if out.length + 1 ≥ size then (out, false) else copyAll size rest (out ++ [b]) := by
    rw [copyAll, List.length_cons, jsonCopyChars.eq_def]
    simp only
    rw [if_neg hNul, if_neg hQuote, if_pos hSlash]
    rfl
  rw [List.singleton_append, hStep, List.length_singleton]
  constructor
  · intro hFits
    rw [if_neg (by omega)]
  · intro hFull
    rw [if_pos hFull]

theorem copies_short {letter b : UInt8} (hShort : shortEscape letter = some b)
    (hLetter : letter ≠ 0x75) : Copies size [0x5C, letter] [b] := by
  intro rest out hOut
  have hStep : copyAll size (0x5C :: letter :: rest) out =
      if out.length + 1 ≥ size then (out, false) else copyAll size rest (out ++ [b]) := by
    rw [copyAll, List.length_cons, jsonCopyChars.eq_def]
    simp only
    rw [if_neg (by decide), if_neg (by decide), if_neg (fun h => h rfl), if_neg hLetter, hShort]
    have hRest : rest.length ≤ (letter :: rest).length := Nat.le_succ _
    simp only
    rw [jsonCopyChars_fuel hRest (Nat.le_refl _)]
    rfl
  rw [List.cons_append, List.singleton_append, hStep, List.length_singleton]
  constructor
  · intro hFits
    rw [if_neg (by omega)]
  · intro hFull
    rw [if_pos hFull]

/-- An escape with digits that stands for these bytes. -/
theorem copies_unicode {codepoint : Nat} (hBytes : codepointBytes codepoint = some bs)
    (hEscape : ∀ rest, unicodeEscape (w ++ rest) = some (codepoint, rest)) :
    Copies size (0x5C :: 0x75 :: w) bs := by
  intro rest out hOut
  have hRest : rest.length ≤ (0x75 :: (w ++ rest)).length := by
    rw [List.length_cons, List.length_append]
    omega
  have hStep : copyAll size (0x5C :: 0x75 :: (w ++ rest)) out =
      if out.length + bs.length + 1 > size then (out, false)
      else copyAll size rest (out ++ bs) := by
    rw [copyAll, List.length_cons, jsonCopyChars.eq_def]
    simp only
    rw [if_neg (by decide), if_neg (by decide), if_neg (fun h => h rfl), if_pos trivial, hEscape]
    simp only [miplayJsonAppendCodepoint, hBytes, Option.bind_eq_bind, Option.bind_some]
    split_ifs
    · rfl
    · exact jsonCopyChars_fuel hRest (Nat.le_refl _)
  rw [List.cons_append, List.cons_append, hStep]
  constructor
  · intro hFits
    rw [if_neg (by omega)]
  · intro hFull
    rw [if_pos (by omega)]

theorem hexDigit_value {v : Nat} {b : UInt8} (h : Json.HexDigit v b) :
    miplayJsonHexDigit b = some v := by
  rw [miplayJsonHexDigit]
  simp only [UInt8.le_iff_toNat_le, UInt8.reduceToNat]
  rcases h with ⟨hSmall, hVal⟩ | ⟨hLow, hHigh, hVal | hVal⟩
  · rw [if_pos (by omega)]
    exact congrArg some (by omega)
  · rw [if_neg (by omega), if_pos (by omega)]
    exact congrArg some (by omega)
  · rw [if_neg (by omega), if_neg (by omega), if_pos (by omega)]
    exact congrArg some (by omega)

theorem hex4_value {n : Nat} {ds : Bytes} (h : Json.Hex4 n ds) (rest : Bytes) :
    jsonHex4 (ds ++ rest) = some n ∧ (ds ++ rest).drop 4 = rest := by
  obtain ⟨a, b, c, d, a', b', c', d', rfl, hA, hB, hC, hD, rfl⟩ := h
  simp [jsonHex4, hexDigit_value hA, hexDigit_value hB, hexDigit_value hC, hexDigit_value hD]

theorem ofNat_toNat_eq {a : UInt8} {n : Nat} (h : a.toNat = n) : UInt8.ofNat n = a := by
  rw [← h, UInt8.ofNat_toNat]

/-- The encoder writes UTF-8. -/
theorem codepointBytes_char (c : Char) :
    codepointBytes c.toNat = some (String.utf8EncodeChar c) := by
  have hMax := Utf8.toNat_lt c
  rw [codepointBytes]
  by_cases hOne : c.toNat < 0x80
  · obtain ⟨a, hEncode, hA⟩ := Utf8.encodeChar_one hOne
    rw [if_pos hOne, hEncode, ofNat_toNat_eq hA]
  rw [if_neg hOne]
  by_cases hTwo : c.toNat < 0x800
  · obtain ⟨a, b, hEncode, hA, hB⟩ := Utf8.encodeChar_two (Nat.le_of_not_lt hOne) hTwo
    rw [if_pos hTwo, hEncode, ofNat_toNat_eq (hA.trans (Nat.add_comm _ _)),
      ofNat_toNat_eq (hB.trans (Nat.add_comm _ _))]
  rw [if_neg hTwo]
  by_cases hThree : c.toNat < 0x10000
  · obtain ⟨a, b, d, hEncode, hA, hB, hD⟩ :=
      Utf8.encodeChar_three (Nat.le_of_not_lt hTwo) hThree
    rw [if_pos hThree, hEncode, ofNat_toNat_eq (hA.trans (Nat.add_comm _ _)),
      ofNat_toNat_eq (hB.trans (Nat.add_comm _ _)), ofNat_toNat_eq (hD.trans (Nat.add_comm _ _))]
  · obtain ⟨a, b, d, e, hEncode, hA, hB, hD, hE⟩ := Utf8.encodeChar_four (Nat.le_of_not_lt hThree)
    rw [if_neg hThree, if_pos (by omega), hEncode, ofNat_toNat_eq (hA.trans (Nat.add_comm _ _)),
      ofNat_toNat_eq (hB.trans (Nat.add_comm _ _)), ofNat_toNat_eq (hD.trans (Nat.add_comm _ _)),
      ofNat_toNat_eq (hE.trans (Nat.add_comm _ _))]

theorem copies_raw {bs : Bytes} (hPlain : ∀ b ∈ bs, b ≠ 0 ∧ b ≠ 0x22 ∧ b ≠ 0x5C) :
    Copies size bs bs := by
  induction bs with
  | nil => exact Copies.nil
  | cons b bs ih =>
    obtain ⟨⟨hNul, hQuote, hSlash⟩, hTail⟩ := List.forall_mem_cons.1 hPlain
    exact (copies_plain hNul hQuote hSlash).append (ih hTail)

/-- No character is a surrogate. -/
theorem not_surrogate (c : Char) : ¬(0xD800 ≤ c.toNat ∧ c.toNat ≤ 0xDFFF) := by
  have hValid : c.toNat.isValidChar := c.valid
  rcases hValid with h | h <;> omega

theorem unicodeEscape_single {c : Char} {ds : Bytes} (h : Json.Hex4 c.toNat ds) (rest : Bytes) :
    unicodeEscape (ds ++ rest) = some (c.toNat, rest) := by
  obtain ⟨hValue, hBehind⟩ := hex4_value h rest
  have hNo := not_surrogate c
  have hPair : ¬(0xD800 ≤ c.toNat ∧ c.toNat ≤ 0xDBFF ∧ rest.getD 0 0 = 0x5C ∧
      rest.getD 1 0 = 0x75) := fun h => hNo ⟨h.1, Nat.le_trans h.2.1 (by decide)⟩
  rw [unicodeEscape, hValue]
  simp only [Option.bind_eq_bind, Option.bind_some, hBehind]
  rw [if_neg hPair, if_neg hNo]

theorem unicodeEscape_pair {high low : Nat} {hi lo : Bytes} (hHigh : Json.Hex4 high hi)
    (hLow : Json.Hex4 low lo) (hFirst : 0xD800 ≤ high ∧ high ≤ 0xDBFF)
    (hSecond : 0xDC00 ≤ low ∧ low ≤ 0xDFFF) (rest : Bytes) :
    unicodeEscape (hi ++ 0x5C :: 0x75 :: lo ++ rest) =
      some (0x10000 + (high - 0xD800) * 1024 + (low - 0xDC00), rest) := by
  obtain ⟨hValue, hBehind⟩ := hex4_value hHigh (0x5C :: 0x75 :: (lo ++ rest))
  obtain ⟨hValue', hBehind'⟩ := hex4_value hLow rest
  have hText : hi ++ 0x5C :: 0x75 :: lo ++ rest = hi ++ 0x5C :: 0x75 :: (lo ++ rest) := by simp
  have hDrop : (0x5C :: 0x75 :: (lo ++ rest)).drop 2 = lo ++ rest := rfl
  have hDrop' : (0x5C :: 0x75 :: (lo ++ rest)).drop 6 = rest := hBehind'
  have hNo : ¬(low < 0xDC00 ∨ low > 0xDFFF) := by omega
  rw [hText, unicodeEscape, hValue, Option.bind_eq_bind, Option.bind_some, hBehind,
    if_pos ⟨hFirst.1, hFirst.2, rfl, rfl⟩, hDrop, hValue', Option.bind_some,
    if_neg hNo, hDrop']

/-- **A character**, however it is written. -/
theorem copies_char {c : Char} (h : Json.Spells c w) : Copies size w (String.utf8EncodeChar c) := by
  cases h with
  | raw hControl hQuote hSlash =>
    exact copies_raw (Json.raw_plain hControl hQuote hSlash)
  | @short letter b hEscape =>
    have hAll : ∀ e ∈ Json.shortEscapes, shortEscape e.1 = some e.2 ∧ e.1 ≠ 0x75 ∧
        String.utf8EncodeChar (Char.ofNat e.2.toNat) = [e.2] :=
      List.all_iff_forall_prop.1 (by decide)
    obtain ⟨hShort, hLetter, hEncode⟩ := hAll _ hEscape
    rw [hEncode]
    exact copies_short hShort hLetter
  | unicode hDigits => exact copies_unicode (codepointBytes_char c) (unicodeEscape_single hDigits)
  | pair hBig hHigh hLow =>
    have hMax := Utf8.toNat_lt c
    have hNumber : 0x10000 + (0xD800 + (c.toNat - 0x10000) / 0x400 - 0xD800) * 1024 +
        (0xDC00 + (c.toNat - 0x10000) % 0x400 - 0xDC00) = c.toNat := by omega
    refine copies_unicode (codepointBytes_char c) fun rest => ?_
    rw [unicodeEscape_pair hHigh hLow (by omega) (by omega), hNumber]

/-- **A text**, however it is written. -/
theorem copies_text (size : Nat) {cs : List Char} (h : Json.SpellsText cs w) :
    Copies size w (Utf8.encode cs) := by
  induction h with
  | nil => exact Copies.nil
  | cons hChar hText ih =>
    rw [Utf8.encode_cons]
    exact (copies_char hChar).append ih

/-- Up to the closing quote. -/
theorem copyAll_text {cs : List Char} (h : Json.SpellsText cs w) (hSize : 0 < size) (rest : Bytes) :
    ((Utf8.encode cs).length < size →
      copyAll size (w ++ 0x22 :: rest) [] = (Utf8.encode cs ++ [0], true)) ∧
    (size ≤ (Utf8.encode cs).length → (copyAll size (w ++ 0x22 :: rest) []).2 = false) := by
  obtain ⟨hFits, hFull⟩ := copies_text size h (0x22 :: rest) [] hSize
  rw [List.length_nil, Nat.zero_add, List.nil_append] at hFits
  rw [List.length_nil, Nat.zero_add] at hFull
  refine ⟨fun hRoom => (hFits hRoom).trans ?_, hFull⟩
  rw [copyAll, List.length_cons, jsonCopyChars.eq_def]
  rfl

end Spelled

/-- What is promised of a text `json` and a buffer `out`. -/
structure CopyLaw (fuel : Nat) (json key out : Bytes) : Prop where
  /-- Every access is inside. -/
  inside : ∃ r, miplayJsonCopyStringIn fuel json key out out.length = .ok r
  /-- A string that fits is there with its NUL. -/
  fits : ∀ cs w rest, Json.SpellsText cs w →
    miplayJsonFindValue json key = some (0x22 :: (w ++ 0x22 :: rest)) →
    (Utf8.encode cs).length + 1 ≤ out.length →
    miplayJsonCopyStringIn fuel json key out out.length =
      .ok (Utf8.encode cs ++ 0 :: out.drop ((Utf8.encode cs).length + 1), true)
  /-- A longer one is refused. -/
  refused : ∀ cs w rest, Json.SpellsText cs w →
    miplayJsonFindValue json key = some (0x22 :: (w ++ 0x22 :: rest)) →
    out.length < (Utf8.encode cs).length + 1 →
    ∃ out', miplayJsonCopyStringIn fuel json key out out.length = .ok (out', false)

/-- The copy of a string that was found. -/
theorem copyString_found {json key q out : Bytes}
    (hFind : miplayJsonFindValue json key = some (0x22 :: q)) (size : Nat) :
    miplayJsonCopyString json key size out =
      (overlay (copyAll size q []).1 out, (copyAll size q []).2) := by
  have hTurns : jsonCopyChars size (0x22 :: q).length q [] = copyAll size q [] :=
    jsonCopyChars_fuel (Nat.le_succ _) (Nat.le_refl _)
  rw [miplayJsonCopyString, hFind]
  simp only
  rw [if_neg (fun h => h rfl), List.drop_one, List.tail_cons, hTurns]

/-- **Every text, key and buffer.** -/
theorem copyString_law (text key out : Bytes) (hText : 0 ∉ text) (hKey : key ≠ [])
    (hChars : 0 ∉ key) (fuel : Nat) (hFuel : text.length < fuel) :
    CopyLaw fuel (text ++ [0]) key out := by
  have hRun := copyStringIn_eq out hText hKey hChars hFuel
  refine ⟨⟨_, hRun⟩, fun cs w rest hSpelled hFind hFits => ?_,
    fun cs w rest hSpelled hFind hLong => ?_⟩
  · have hSize : 0 < out.length := by omega
    have hCopy := (copyAll_text hSpelled hSize rest).1 (by omega)
    have hLen : (Utf8.encode cs ++ [(0 : UInt8)]).length = (Utf8.encode cs).length + 1 :=
      List.length_append
    rw [hRun, if_neg (Nat.ne_of_gt hSize), copyString_found hFind, hCopy, overlay, hLen,
      List.append_assoc]
    rfl
  · rw [hRun]
    by_cases hSize : out.length = 0
    · rw [if_pos hSize]
      exact ⟨out, rfl⟩
    · have hCopy := (copyAll_text hSpelled (Nat.pos_of_ne_zero hSize) rest).2 (by omega)
      rw [if_neg hSize, copyString_found hFind, hCopy]
      exact ⟨_, rfl⟩

/-- `{"a":"\u00E9\uD83d\uDe00\n"}` -/
def escapedText : Bytes := ascii "\x7b\"a\":\"\\u00E9\\uD83d\\uDe00\\n\"\x7d"

theorem escapedText_copied :
    miplayJsonCopyStringIn 64 (escapedText ++ [0]) (quote (ascii "a")) (List.replicate 9 0) 9 =
      .ok ([0xC3, 0xA9, 0xF0, 0x9F, 0x98, 0x80, 0x0A, 0, 0], true) := by
  have hLaw := copyString_law escapedText (quote (ascii "a")) (List.replicate 9 0) (by decide)
    (by decide) (by decide) 64 (by decide)
  have hFirst : Json.Spells (Char.ofNat 0xE9) (ascii "\\u00E9") :=
    .unicode ⟨0, 0, 14, 9, 0x30, 0x30, 0x45, 0x39, by decide⟩
  have hSecond : Json.Spells (Char.ofNat 0x1F600) (ascii "\\uD83d\\uDe00") :=
    @Json.Spells.pair _ (ascii "D83d") (ascii "De00") (by decide)
      ⟨13, 8, 3, 13, 0x44, 0x38, 0x33, 0x64, by decide⟩
      ⟨13, 14, 0, 0, 0x44, 0x65, 0x30, 0x30, by decide⟩
  have hThird : Json.Spells (Char.ofNat (0x0A : UInt8).toNat) [0x5C, 0x6E] := .short (by decide)
  exact hLaw.fits _ _ (ascii "\x7d" ++ [0]) (.cons hFirst (.cons hSecond (.cons hThird .nil)))
    (by decide +kernel) (by decide +kernel)

end EspMiplay.Miplay
