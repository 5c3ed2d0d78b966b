import EspMiplay.Miplay.MediaDecoders
import EspMiplay.Miplay.OpackFields
import EspMiplay.Miplay.TextBounds

/-!
# Reading OPack in place

The OPack readers once more, over the bytes of the payload with a cursor: a read behind the
payload faults. The event is the caller's; `miplay_parse_media_info_ex` and
`miplay_parse_media_state_payload` fill one of their own and copy it when all went well,
`miplay_parse_notify_payload` applies every field to the caller's at once.

Each loop has as many turns as it is given; a field takes three bytes, so that more turns
than bytes change nothing.

## Results

* `opackFieldsAt_eq`  — the loop stays inside, and is the loop over a list.
* `infoExAt_eq`, `notifyAt_eq` — so are the readers.
* `opackScan_row`     — the loop ends at the first place that is no field.
* `opackLaw_iff`      — every payload.
-/

namespace EspMiplay.Miplay

-- ---------------------------------------------------------------------------
-- The readers
-- ---------------------------------------------------------------------------

section Readers

variable (data : Bytes) (len : Nat)

def opackReadLabelAt (offset labelSize : Nat) : Access (Option (Bytes × Nat)) :=
  if len ≤ offset then .ok none
  else do
    let labelLen ← readByte data offset
    let offset := offset + 1
    if labelLen.toNat = 0 ∨ labelLen.toNat > len - offset then return none
    let label ← readSpan data offset (min labelLen.toNat (labelSize - 1))
    return some (cstr label, offset + labelLen.toNat)

/-- `opack_u32_be(data + offset)` -/
def opackU32BeAt (offset : Nat) : Access Nat := do
  let word ← readSpan data offset 4
  return opackU32Be word

def opackReadValueAt (offset : Nat) : Access (Option (OpackValue × Nat)) :=
  if len ≤ offset then .ok none
  else do
    let t ← readByte data offset
    let offset := offset + 1
    if t = 0x03 then
      if len ≤ offset then return none
      let b ← readByte data offset
      return some (.integer b.toNat, offset + 1)
    else if t = 0x06 ∨ t = 0x07 then
      if len - offset < 4 then return none
      let n ← opackU32BeAt data offset
      return some (.integer n, offset + 4)
    else if t = 0x09 then
      if len - offset < 8 then return none
      let word ← readSpan data offset 8
      return some (.integer (opackU64Be word), offset + 8)
    else if t = 0x14 then
      if len - offset < 4 then return none
      let n ← opackU32BeAt data offset
      let offset := offset + 4
      if n > len - offset then return none
      let text ← readSpan data offset (min n (miplayCoverSourceMax - 1))
      return some (.string (cstr text), offset + n)
    else if t = 0x16 then
      if len - offset < 4 then return none
      let n ← opackU32BeAt data offset
      let offset := offset + 4
      if n > len - offset then return none
      return some (.object, offset + n)
    else return none

/-- The loop over the fields: the event, whether some field was known, and whether all
were read. -/
def opackFieldsAt : Nat → Nat → MediaEvent → Bool → Access (MediaEvent × Bool × Bool)
  | 0, offset, e, seen => .ok (e, seen, len ≤ offset)
  | fuel + 1, offset, e, seen =>
    if len ≤ offset then .ok (e, seen, true)
    else do
      match ← opackReadLabelAt data len offset 64 with
      | none => return (e, seen, false)
      | some (name, offset) =>
        match ← opackReadValueAt data len offset with
        | none => return (e, seen, false)
        | some (v, offset) =>
          match miplayApplyMediaField name v e with
          | some e => opackFieldsAt fuel offset e true
          | none => opackFieldsAt fuel offset e seen

end Readers

section Parsers

variable (fuel : Nat) (heap : Nat → Bool) (payload : Bytes) (event : MediaEvent)

def miplayParseMediaInfoExAt : Access (MediaEvent × Bool) := do
  match ← opackReadLabelAt payload payload.length 0 32 with
  | none => return (event, false)
  | some (root, offset) =>
    if root ≠ ascii "mediaInfoEx" ∨ payload.length - offset < 1 then return (event, false)
    let t ← readByte payload offset
    let offset := offset + 1
    if t ≠ 0x16 ∨ payload.length - offset < 4 then return (event, false)
    let objectLen ← opackU32BeAt payload offset
    let offset := offset + 4
    if objectLen > payload.length - offset then return (event, false)
    if !heap 0 ∨ !heap 1 then return (event, false)
    let objectEnd := offset + objectLen
    let (parsed, _, all) ← opackFieldsAt payload objectEnd fuel offset miplayMediaEventInit false
    if all && parsed.changed.any then return (parsed, true) else return (event, false)

def miplayParseNotifyPayloadAt : Access (MediaEvent × Bool) :=
  if payload = [] then .ok (event, false)
  else do
    let (event, ok) ← miplayParseMediaInfoExAt fuel heap payload event
    if ok then return (event, true)
    match ← opackReadLabelAt payload payload.length 0 32 with
    | none => return (event, false)
    | some (root, offset) =>
      if !heap 2 then return (event, false)
      match ← opackReadValueAt payload payload.length offset with
      | none => return (event, false)
      | some (v, offset) =>
        let first := miplayApplyMediaField root v event
        let (event, recognized, all) ←
          opackFieldsAt payload payload.length fuel offset (first.getD event) first.isSome
        return (event, all && recognized && event.changed.any)

/-- A bare state; a refused one leaves the event as it is. -/
def scalarStateOn (word : Nat) (event : MediaEvent) : MediaEvent × Bool :=
  let state := opackIntegerToInt word
  let player := miplayWireStateToPlayer state
  if player = .unknown then (event, false)
  else
    ({ event with deviceState := state, playerState := player,
                  changed := { deviceState := true, playerState := true } }, true)

def miplayParseMediaStatePayloadAt : Access (MediaEvent × Bool) :=
  if payload = [] ∨ !heap 0 then .ok (event, false)
  else do
    let (parsed, ok) ←
      miplayParseNotifyPayloadAt fuel (fun n => heap (1 + n)) payload miplayMediaEventInit
    if ok then return (parsed, true)
    let (parsed, ok) :=
      miplayParseSetMediaInfoJson (fun n => heap (4 + n)) payload miplayMediaEventInit
    if ok then return (parsed, true)
    if payload.length = 4 then
      let word ← opackU32BeAt payload 0
      return scalarStateOn word event
    if payload.length = 5 then
      let lead ← readByte payload 0
      if lead = 0 then
        let word ← opackU32BeAt payload 1
        return scalarStateOn word event
    return (event, false)

end Parsers

-- ---------------------------------------------------------------------------
-- Inside
-- ---------------------------------------------------------------------------

section Inside

variable {data : Bytes} {len offset n size : Nat}

/-- What lies between the cursor and the end. -/
def window (data : Bytes) (len offset : Nat) : Bytes := (data.take len).drop offset

theorem window_length (hLen : len ≤ data.length) (offset : Nat) :
    (window data len offset).length = len - offset := by
  rw [window, List.length_drop, List.length_take, Nat.min_eq_left hLen]

theorem window_drop : (window data len offset).drop n = window data len (offset + n) :=
  List.drop_drop

theorem window_nil (hEnd : len ≤ offset) : window data len offset = [] :=
  List.drop_eq_nil_of_le (Nat.le_trans (List.length_take_le _ _) hEnd)

theorem window_all : window data data.length 0 = data := by
  rw [window, List.take_length, List.drop_zero]

theorem readByte_window (hMore : offset < len) (hLen : len ≤ data.length) :
    ∃ b, readByte data offset = .ok b ∧
      window data len offset = b :: window data len (offset + 1) := by
  have hLt : offset < data.length := Nat.lt_of_lt_of_le hMore hLen
  have hTake : offset < (data.take len).length := by
    rw [List.length_take]
    omega
  refine ⟨data[offset], ?_, ?_⟩
  · rw [readByte, List.getElem?_eq_getElem hLt]
  · rw [window, List.drop_eq_getElem_cons hTake, List.getElem_take, window]

theorem readSpan_window (hFits : n ≤ len - offset) (hStart : offset ≤ len)
    (hLen : len ≤ data.length) :
    readSpan data offset n = .ok ((window data len offset).take n) := by
  have hInside : offset + n ≤ data.length := by omega
  have hTake : ((data.take len).drop offset).take n = (data.drop offset).take n := by
    rw [List.drop_take, List.take_take, Nat.min_eq_left hFits]
  rw [readSpan, if_pos hInside, window, hTake]

theorem opackU32BeAt_window (hFits : 4 ≤ len - offset) (hStart : offset ≤ len)
    (hLen : len ≤ data.length) :
    opackU32BeAt data offset = .ok (opackU32Be (window data len offset)) := by
  have hWindow := window_length hLen offset
  have hFour : ((window data len offset).take 4).length = 4 := by
    rw [List.length_take]
    omega
  rw [opackU32BeAt, readSpan_window hFits hStart hLen,
    ← List.take_append_drop 4 (window data len offset), opackU32Be_append hFour,
    List.take_append_drop]
  rfl

/-- A reader with a cursor is one that goes along a list. -/
def ReadsAs {α : Type} (data : Bytes) (len offset : Nat) (r : Access (Option (α × Nat)))
    (p : Option (α × Bytes)) : Prop :=
  ∃ found, r = .ok found ∧ p = found.map (fun x => (x.1, window data len x.2)) ∧
    ∀ x ∈ found, offset < x.2 ∧ x.2 ≤ len

theorem readsAs_none {α : Type} : ReadsAs (α := α) data len offset (.ok none) none :=
  ⟨none, rfl, rfl, by simp⟩

theorem readsAs_some {α : Type} {a : α} (hMore : offset < n) (hEnd : n ≤ len) {p : Bytes}
    (hRest : p = window data len n) :
    ReadsAs data len offset (.ok (some (a, n))) (some (a, p)) :=
  ⟨some (a, n), rfl, by rw [hRest]; rfl, by rintro x ⟨rfl⟩; exact ⟨hMore, hEnd⟩⟩

theorem opackReadLabelAt_follows (hLen : len ≤ data.length) (offset size : Nat) :
    ReadsAs data len offset (opackReadLabelAt data len offset size)
      (opackReadLabel size (window data len offset)) := by
  rw [opackReadLabelAt]
  by_cases hEnd : len ≤ offset
  · rw [if_pos hEnd, window_nil hEnd]
    exact readsAs_none
  obtain ⟨b, hRead, hWindow⟩ := readByte_window (Nat.lt_of_not_le hEnd) hLen
  have hRest := window_length hLen (offset + 1)
  rw [if_neg hEnd, hRead, hWindow, opackReadLabel, hRest]
  by_cases hBad : b.toNat = 0 ∨ b.toNat > len - (offset + 1)
  · rw [if_pos hBad]
    show ReadsAs _ _ _ (ite _ _ _) _
    rw [if_pos hBad]
    exact readsAs_none
  · rw [if_neg hBad]
    show ReadsAs _ _ _ (ite _ _ _) _
    rw [if_neg hBad, readSpan_window (by omega) (by omega) hLen]
    exact readsAs_some (by omega) (by omega) window_drop

/-- A number, or a length, in four bytes behind the type. -/
theorem opackReadValueAt_follows (hLen : len ≤ data.length) (offset : Nat) :
    ReadsAs data len offset (opackReadValueAt data len offset)
      (opackReadValue miplayCoverSourceMax (window data len offset)) := by
  rw [opackReadValueAt]
  by_cases hEnd : len ≤ offset
  · rw [if_pos hEnd, window_nil hEnd]
    exact readsAs_none
  obtain ⟨t, hRead, hWindow⟩ := readByte_window (Nat.lt_of_not_le hEnd) hLen
  have hRest := window_length hLen (offset + 1)
  have hBehind := window_length hLen (offset + 1 + 4)
  rw [if_neg hEnd, hRead, hWindow, opackReadValue.eq_def]
  show ReadsAs _ _ _ (ite _ _ _) (ite _ _ _)
  by_cases hByte : t = 0x03
  · rw [if_pos hByte, if_pos hByte]
    show ReadsAs _ _ _ (ite _ _ _) _
    by_cases hOne : len ≤ offset + 1
    · rw [if_pos hOne, window_nil hOne]
      exact readsAs_none
    · obtain ⟨b, hRead, hWindow⟩ := readByte_window (Nat.lt_of_not_le hOne) hLen
      rw [if_neg hOne, hRead, hWindow]
      exact readsAs_some (by omega) (by omega) rfl
  rw [if_neg hByte, if_neg hByte]
  by_cases hWord : t = 0x06 ∨ t = 0x07
  · rw [if_pos hWord, if_pos hWord, hRest]
    show ReadsAs _ _ _ (ite _ _ _) _
    by_cases hFour : len - (offset + 1) < 4
    · rw [if_pos hFour, if_pos hFour]
      exact readsAs_none
    · rw [if_neg hFour, if_neg hFour, opackU32BeAt_window (by omega) (by omega) hLen]
      exact readsAs_some (by omega) (by omega) window_drop
  rw [if_neg hWord, if_neg hWord]
  by_cases hLong : t = 0x09
  · rw [if_pos hLong, if_pos hLong, hRest]
    show ReadsAs _ _ _ (ite _ _ _) _
    by_cases hEight : len - (offset + 1) < 8
    · rw [if_pos hEight, if_pos hEight]
      exact readsAs_none
    · have hTake : ((window data len (offset + 1)).take 8).length = 8 := by
        rw [List.length_take]
        omega
      have hU64 : opackU64Be (window data len (offset + 1)) =
          opackU64Be ((window data len (offset + 1)).take 8) := by
        rw [← opackU64Be_append hTake ((window data len (offset + 1)).drop 8),
          List.take_append_drop]
      rw [if_neg hEight, if_neg hEight, readSpan_window (by omega) (by omega) hLen, hU64]
      exact readsAs_some (by omega) (by omega) window_drop
  rw [if_neg hLong, if_neg hLong]
  by_cases hString : t = 0x14
  · rw [if_pos hString, if_pos hString, hRest]
    show ReadsAs _ _ _ (ite _ _ _) _
    by_cases hFour : len - (offset + 1) < 4
    · rw [if_pos hFour, if_pos hFour]
      exact readsAs_none
    rw [if_neg hFour, if_neg hFour, opackU32BeAt_window (by omega) (by omega) hLen]
    show ReadsAs _ _ _ (ite _ _ _) (ite _ _ _)
    rw [window_drop, hBehind]
    by_cases hLong : opackU32Be (window data len (offset + 1)) > len - (offset + 1 + 4)
    · rw [if_pos hLong, if_pos hLong]
      exact readsAs_none
    · rw [if_neg hLong, if_neg hLong, readSpan_window (by omega) (by omega) hLen]
      exact readsAs_some (by omega) (by omega) window_drop
  rw [if_neg hString, if_neg hString]
  by_cases hObject : t = 0x16
  · rw [if_pos hObject, if_pos hObject, hRest]
    show ReadsAs _ _ _ (ite _ _ _) _
    by_cases hFour : len - (offset + 1) < 4
    · rw [if_pos hFour, if_pos hFour]
      exact readsAs_none
    rw [if_neg hFour, if_neg hFour, opackU32BeAt_window (by omega) (by omega) hLen]
    show ReadsAs _ _ _ (ite _ _ _) (ite _ _ _)
    rw [window_drop, hBehind]
    by_cases hLong : opackU32Be (window data len (offset + 1)) > len - (offset + 1 + 4)
    · rw [if_pos hLong, if_pos hLong]
      exact readsAs_none
    · rw [if_neg hLong, if_neg hLong]
      exact readsAs_some (by omega) (by omega) window_drop
  rw [if_neg hObject, if_neg hObject]
  exact readsAs_none

end Inside

-- ---------------------------------------------------------------------------
-- The loop
-- ---------------------------------------------------------------------------

/-- The loop over a list of bytes. -/
def opackScan : Nat → Bytes → MediaEvent → Bool → MediaEvent × Bool × Bool
  | _, [], e, seen => (e, seen, true)
  | 0, _ :: _, e, seen => (e, seen, false)
  | fuel + 1, c :: cs, e, seen =>
    match opackReadLabel 64 (c :: cs) with
    | none => (e, seen, false)
    | some (name, rest) =>
      match opackReadValue miplayCoverSourceMax rest with
      | none => (e, seen, false)
      | some (v, rest) =>
        match miplayApplyMediaField name v e with
        | some e => opackScan fuel rest e true
        | none => opackScan fuel rest e seen

theorem opackScan_nil (fuel : Nat) (e : MediaEvent) (seen : Bool) :
    opackScan fuel [] e seen = (e, seen, true) := by
  cases fuel <;> rfl

/-- The loop stays inside, and is the loop over what lies in the window. -/
theorem opackFieldsAt_eq {data : Bytes} {len : Nat} (hLen : len ≤ data.length) (fuel offset : Nat)
    (e : MediaEvent) (seen : Bool) :
    opackFieldsAt data len fuel offset e seen =
      .ok (opackScan fuel (window data len offset) e seen) := by
  induction fuel generalizing offset e seen with
  | zero =>
    rw [opackFieldsAt]
    by_cases hEnd : len ≤ offset
    · rw [window_nil hEnd, opackScan_nil, decide_eq_true hEnd]
    · obtain ⟨b, -, hWindow⟩ := readByte_window (Nat.lt_of_not_le hEnd) hLen
      rw [hWindow, opackScan, decide_eq_false hEnd]
  | succ fuel ih =>
    rw [opackFieldsAt]
    by_cases hEnd : len ≤ offset
    · rw [if_pos hEnd, window_nil hEnd, opackScan_nil]
    obtain ⟨b, -, hWindow⟩ := readByte_window (Nat.lt_of_not_le hEnd) hLen
    obtain ⟨label, hLabelAt, hLabel, -⟩ := opackReadLabelAt_follows hLen offset 64
    rw [if_neg hEnd, hLabelAt, hWindow, opackScan, ← hWindow, hLabel]
    obtain _ | ⟨name, offset'⟩ := label
    · rfl
    obtain ⟨value, hValueAt, hValue, -⟩ := opackReadValueAt_follows hLen offset'
    simp only [Access.ok_bind, hValueAt, Option.map_some, hValue]
    obtain _ | ⟨v, offset''⟩ := value
    · rfl
    simp only [Option.map_some]
    cases miplayApplyMediaField name v e with
    | none => exact ih offset'' e seen
    | some e' => exact ih offset'' e' true

/-- Something that is not the beginning of a field. -/
def Malformed (rest : Bytes) : Prop :=
  rest ≠ [] ∧ ∀ (f : RawField) (tail : Bytes), rest ≠ f.bytes ++ tail

theorem Malformed.read {rest : Bytes} (h : Malformed rest) (size : Nat) :
    opackReadLabel size rest = none ∨ ∃ name rest', opackReadLabel size rest = some (name, rest') ∧
      opackReadValue miplayCoverSourceMax rest' = none := by
  cases hLabel : opackReadLabel size rest with
  | none => exact .inl rfl
  | some found =>
    obtain ⟨name, rest'⟩ := found
    refine .inr ⟨name, rest', rfl, ?_⟩
    cases hValue : opackReadValue miplayCoverSourceMax rest' with
    | none => rfl
    | some found =>
      obtain ⟨v, tail⟩ := found
      obtain ⟨l, hText, -⟩ := opackReadLabel_iff.1 hLabel
      obtain ⟨r, hRest, -⟩ := opackReadValue_iff.1 hValue
      exact absurd (by rw [hText, hRest, RawField.bytes, List.append_assoc]) (h.2 ⟨l, r⟩ tail)

/-- Any bytes are a row of fields up to their end, or to the first place that is no field. -/
theorem split_row (p : Bytes) :
    ∃ fs rest, p = rowBytes fs ++ rest ∧ (rest = [] ∨ Malformed rest) := by
  induction hLen : p.length using Nat.strong_induction_on generalizing p with
  | _ n ih =>
    by_cases hNil : p = []
    · exact ⟨[], [], by rw [hNil]; rfl, .inl rfl⟩
    by_cases hField : ∃ (f : RawField) (tail : Bytes), p = f.bytes ++ tail
    · obtain ⟨f, tail, rfl⟩ := hField
      have hShorter : tail.length < n := by
        have hOne : 1 ≤ f.label.bytes.length := Nat.succ_le_succ (Nat.zero_le _)
        rw [RawField.bytes, List.length_append, List.length_append] at hLen
        omega
      obtain ⟨fs, rest, hTail, hEnd⟩ := ih _ hShorter tail rfl
      exact ⟨f :: fs, rest, by rw [rowBytes, List.flatMap_cons, hTail, List.append_assoc, rowBytes],
        hEnd⟩
    · exact ⟨[], p, rfl, .inr ⟨hNil, fun f tail hSplit => hField ⟨f, tail, hSplit⟩⟩⟩

/-- The loop ends there. -/
theorem opackScan_row {rest : Bytes} (hEnd : rest = [] ∨ Malformed rest) (fs : List RawField)
    {fuel : Nat} (e : MediaEvent) (seen : Bool) (hFuel : fs.length ≤ fuel) :
    opackScan fuel (rowBytes fs ++ rest) e seen =
      ((fs.map RawField.read).foldl applyField e,
        seen || fs.any (fun f => (fieldOf f.read).isSome), decide (rest = [])) := by
  induction fs generalizing fuel e seen with
  | nil =>
    rw [rowBytes, List.flatMap_nil, List.nil_append]
    rcases hEnd with rfl | hBad
    · rw [opackScan_nil]
      simp
    obtain ⟨c, cs, hCons⟩ := List.exists_cons_of_ne_nil hBad.1
    have hRead := hBad.read 64
    rw [hCons] at hRead ⊢
    cases fuel with
    | zero => simp [opackScan]
    | succ fuel =>
      rcases hRead with hLabel | ⟨name, rest', hLabel, hValue⟩
      · simp [opackScan, hLabel]
      · simp [opackScan, hLabel, hValue]
  | cons f fs ih =>
    obtain ⟨fuel, rfl⟩ : ∃ n, fuel = n + 1 := Nat.exists_eq_succ_of_ne_zero (by
      rw [List.length_cons] at hFuel
      omega)
    have hLabel := opackReadLabel_raw f.label 64 (f.value.bytes ++ (rowBytes fs ++ rest))
    have hValue := opackReadValue_raw f.value (rowBytes fs ++ rest)
    have hApply := applyField_eq (f.label.read 64) f.value.read e
    have hNext := fun e seen => ih e seen (Nat.le_of_succ_le_succ hFuel)
    have hRow : rowBytes (f :: fs) ++ rest =
        f.label.bytes ++ (f.value.bytes ++ (rowBytes fs ++ rest)) := by
      rw [rowBytes_cons, List.append_assoc, List.append_assoc]
    obtain ⟨c, cs, hCons⟩ : ∃ c cs,
        f.label.bytes ++ (f.value.bytes ++ (rowBytes fs ++ rest)) = c :: cs := ⟨_, _, rfl⟩
    rw [hRow, hCons]
    rw [hCons] at hLabel
    cases hField : fieldOf (f.label.read 64, f.value.read) with
    | none =>
      rw [hField, Option.map_none] at hApply
      simp [opackScan, hLabel, hValue, hApply, hNext, applyField, RawField.read, hField]
    | some g =>
      rw [hField, Option.map_some] at hApply
      simp [opackScan, hLabel, hValue, hApply, hNext, applyField, RawField.read, hField]

/-- More turns than bytes change nothing. -/
theorem opackScan_fuel {fuel : Nat} {p : Bytes} (hFuel : p.length ≤ fuel) (e : MediaEvent)
    (seen : Bool) : opackScan fuel p e seen = opackScan p.length p e seen := by
  obtain ⟨fs, rest, hRow, hEnd⟩ := split_row p
  have hLen : fs.length ≤ p.length := by
    have hLe := length_le_rowBytes fs
    rw [hRow, List.length_append]
    omega
  rw [hRow, opackScan_row hEnd fs e seen (Nat.le_trans hLen hFuel),
    opackScan_row hEnd fs e seen (by rw [← hRow]; exact hLen)]

theorem opackFields_scan (fuel : Nat) (p : Bytes) (e : MediaEvent) (seen : Bool) :
    opackFields fuel p e seen =
      if (opackScan fuel p e seen).2.2 then
        some ((opackScan fuel p e seen).1, (opackScan fuel p e seen).2.1)
      else none := by
  induction fuel generalizing p e seen with
  | zero => cases p <;> rfl
  | succ fuel ih =>
    obtain _ | ⟨c, cs⟩ := p
    · rfl
    cases hLabel : opackReadLabel 64 (c :: cs) with
    | none => simp [opackFields, opackScan, hLabel]
    | some found =>
      obtain ⟨name, rest⟩ := found
      cases hValue : opackReadValue miplayCoverSourceMax rest with
      | none => simp [opackFields, opackScan, hLabel, hValue]
      | some found =>
        obtain ⟨v, rest'⟩ := found
        cases hApply : miplayApplyMediaField name v e with
        | none => simp [opackFields, opackScan, hLabel, hValue, hApply, ih]
        | some e' => simp [opackFields, opackScan, hLabel, hValue, hApply, ih]

-- ---------------------------------------------------------------------------
-- The object
-- ---------------------------------------------------------------------------

section Object

variable {fuel : Nat} {heap : Nat → Bool} {payload : Bytes}

/-- The event it leaves, and the return value. -/
def outcome (event : MediaEvent) (r : Option MediaEvent) : MediaEvent × Bool :=
  r.elim (event, false) fun e => (e, true)

/-- The reader stays inside, and is the reader over a list. -/
theorem infoExAt_eq (hFuel : payload.length ≤ fuel) (heap : Nat → Bool) (event : MediaEvent) :
    miplayParseMediaInfoExAt fuel heap payload event =
      .ok (outcome event (miplayParseMediaInfoEx heap payload)) := by
  have hLen := Nat.le_refl payload.length
  obtain ⟨label, hLabelAt, hLabel, hBounds⟩ := opackReadLabelAt_follows hLen 0 32
  rw [window_all] at hLabel
  rw [miplayParseMediaInfoExAt, hLabelAt, miplayParseMediaInfoEx, hLabel]
  obtain _ | ⟨root, offset⟩ := label
  · rfl
  obtain ⟨-, hOffset⟩ := hBounds _ rfl
  simp only [Access.ok_bind, Option.map_some, Option.bind_eq_bind, Option.bind_some]
  by_cases hRoot : root ≠ ascii "mediaInfoEx"
  · rw [if_pos (.inl hRoot), if_pos hRoot]
    rfl
  rw [if_neg hRoot]
  by_cases hMore : payload.length - offset < 1
  · have hNil : window payload payload.length offset = [] := window_nil (by omega)
    rw [if_pos (.inr hMore), hNil]
    rfl
  have hHere : offset < payload.length := by omega
  obtain ⟨t, hRead, hWindow⟩ := readByte_window hHere hLen
  have hRest := window_length hLen (offset + 1)
  have hBehind := window_length hLen (offset + 1 + 4)
  rw [if_neg (not_or.2 ⟨hRoot, hMore⟩), hRead, hWindow]
  simp only [Access.ok_bind, hRest, window_drop, hBehind]
  by_cases hObject : t ≠ 0x16 ∨ payload.length - (offset + 1) < 4
  · rw [if_pos hObject, if_pos hObject]
    rfl
  obtain ⟨-, hFour⟩ := not_or.1 hObject
  rw [if_neg hObject, if_neg hObject, opackU32BeAt_window (by omega) (by omega) hLen]
  simp only [Access.ok_bind]
  by_cases hLong :
      opackU32Be (window payload payload.length (offset + 1)) > payload.length - (offset + 1 + 4)
  · rw [if_pos hLong, if_pos (.inl hLong)]
    rfl
  by_cases hHeap : !heap 0 ∨ !heap 1
  · rw [if_neg hLong, if_pos hHeap, if_pos (.inr hHeap)]
    rfl
  generalize hN : opackU32Be (window payload payload.length (offset + 1)) = n at hLong
  have hEnd : offset + 1 + 4 + n ≤ payload.length := by omega
  -- the window of the object
  have hTake : window payload (offset + 1 + 4 + n) (offset + 1 + 4) =
      (window payload payload.length (offset + 1 + 4)).take n := by
    rw [window, window, List.take_length, List.drop_take, Nat.add_sub_cancel_left]
  have hSize : ((window payload payload.length (offset + 1 + 4)).take n).length = n := by
    rw [List.length_take, hBehind]
    omega
  have hMany : ((window payload payload.length (offset + 1 + 4)).take n).length ≤ fuel := by
    omega
  have hScan := opackScan_fuel hMany miplayMediaEventInit false
  rw [hSize] at hScan
  rw [if_neg hLong, if_neg hHeap, if_neg (not_or.2 ⟨hLong, hHeap⟩), opackFieldsAt_eq hEnd, hTake,
    hScan, opackFields_scan]
  obtain ⟨e, seen, all⟩ := opackScan n
    ((window payload payload.length (offset + 1 + 4)).take n) miplayMediaEventInit false
  cases all with
  | false => rfl
  | true => cases hAny : e.changed.any <;> simp [Access.ok_bind, hAny, outcome] <;> rfl

/-- The bytes begin with a `mediaInfoEx` object whose length is taken up by these fields. -/
def IsInfoEx (payload : Bytes) (fs : List RawField) : Prop :=
  ∃ (root : RawLabel) (object : Sized) (tail : Bytes),
    payload = root.bytes ++ 0x16 :: (object.bytes ++ tail) ∧
      root.read 32 = ascii "mediaInfoEx" ∧ object.content = rowBytes fs

def Known (f : RawField) : Prop := (fieldOf f.read).isSome

theorem rowEvent_changed (fs : List RawField) :
    (eventOf (fs.map RawField.read)).changed.any ↔ ∃ f ∈ fs, Known f := by
  rw [eventOf_changed]
  simp [Known]

theorem infoEx_of_row {fs : List RawField} (hForm : IsInfoEx payload fs) (hEvent : heap 0)
    (hText : heap 1) :
    miplayParseMediaInfoEx heap payload =
      if (eventOf (fs.map RawField.read)).changed.any then some (eventOf (fs.map RawField.read))
      else none := by
  obtain ⟨root, object, tail, rfl, hRoot, hRow⟩ := hForm
  obtain ⟨hFour, hLen, hDrop, hMore⟩ := opackReadValue_sized (s := object) tail
  have hMany : fs.length ≤ object.content.length := by
    rw [hRow]
    exact length_le_rowBytes fs
  have hFields := opackFields_row fs miplayMediaEventInit false hMany
  have hTake : (object.content ++ tail).take object.content.length = rowBytes fs := by
    rw [List.take_left, hRow]
  rw [miplayParseMediaInfoEx, opackReadLabel_raw, hRoot]
  simp [-List.length_append, -List.length_drop, hFour, hLen, hDrop, hMore, hEvent, hText, hTake,
    hFields, foldl_applyField]

/-- **A payload is accepted** exactly if it begins with an object in which some field is
known, and then the event holds the last value of each. -/
theorem infoEx_eq_some_iff {e : MediaEvent} :
    miplayParseMediaInfoEx heap payload = some e ↔
      heap 0 ∧ heap 1 ∧ ∃ fs, IsInfoEx payload fs ∧ (∃ f ∈ fs, Known f) ∧
        e = eventOf (fs.map RawField.read) := by
  constructor
  · intro h
    -- what has been read on the way is the form
    obtain ⟨hEvent, hText, fs, hForm⟩ : heap 0 ∧ heap 1 ∧ ∃ fs, IsInfoEx payload fs := by
      rw [miplayParseMediaInfoEx] at h
      obtain ⟨⟨name, rest⟩, hLabel, h⟩ := Option.bind_eq_some_iff.1 h
      obtain ⟨root, hPayload, hName⟩ := opackReadLabel_iff.1 hLabel
      simp only at h
      by_cases hRoot : name ≠ ascii "mediaInfoEx"
      · rw [if_pos hRoot] at h
        cases h
      rw [if_neg hRoot] at h
      obtain _ | ⟨t, cs⟩ := rest
      · cases h
      simp only at h
      by_cases hObject : t ≠ 0x16 ∨ cs.length < 4
      · rw [if_pos hObject] at h
        cases h
      rw [if_neg hObject] at h
      by_cases hBad : opackU32Be cs > (cs.drop 4).length ∨ !heap 0 ∨ !heap 1
      · rw [if_pos hBad] at h
        cases h
      rw [if_neg hBad] at h
      obtain ⟨hType, hFour⟩ := not_or.1 hObject
      obtain ⟨hLen, hHeap⟩ := not_or.1 hBad
      obtain ⟨hEvent, hText⟩ := not_or.1 hHeap
      obtain ⟨object, hBytes, hContent⟩ := sized_of hFour hLen
      obtain ⟨⟨e', seen⟩, hFields, -⟩ := Option.bind_eq_some_iff.1 h
      obtain ⟨fs, hRow⟩ := opackFields_inv hFields
      refine ⟨by simpa using hEvent, by simpa using hText, fs, root, object,
        (cs.drop 4).drop (opackU32Be cs), ?_, ?_, ?_⟩
      · rw [hPayload, ← hBytes, Classical.not_not.1 hType]
      · rw [← hName, Classical.not_not.1 hRoot]
      · rw [hContent, hRow]
    rw [infoEx_of_row hForm hEvent hText] at h
    split_ifs at h with hAny
    exact ⟨hEvent, hText, fs, hForm, (rowEvent_changed fs).1 hAny, (Option.some.inj h).symm⟩
  · rintro ⟨hEvent, hText, fs, hForm, hKnown, rfl⟩
    rw [infoEx_of_row hForm hEvent hText, if_pos ((rowEvent_changed fs).2 hKnown)]

end Object

-- ---------------------------------------------------------------------------
-- Notify payloads
-- ---------------------------------------------------------------------------

section Notify

variable {fuel : Nat} {heap : Nat → Bool} {payload rest : Bytes} {fs : List RawField}

theorem cstr_take (n : Nat) (p : Bytes) : cstr (p.take n) = (cstr p).take n := by
  induction p generalizing n with
  | nil => simp [cstr]
  | cons c cs ih =>
    cases n with
    | zero => rfl
    | succ n =>
      rw [List.take_succ_cons, cstr, cstr, List.takeWhile_cons, List.takeWhile_cons]
      split_ifs
      · rw [List.take_succ_cons]
        exact congrArg (c :: ·) (ih n)
      · rfl

theorem take_eq_iff {n : Nat} {s name : Bytes} (hShort : name.length < n) :
    s.take n = name ↔ s = name := by
  constructor
  · rintro rfl
    rw [List.length_take] at hShort
    exact (List.take_of_length_le (by omega)).symm
  · rintro rfl
    exact List.take_of_length_le (by omega)

theorem heard_short (f : MediaField) : ∀ name ∈ f.heard, name.length < 31 := by
  cases f <;> decide +kernel

/-- A field is known by its name. -/
theorem fieldOf_congr {a b : Bytes} (h : ∀ f : MediaField, ∀ name ∈ f.heard, a = name ↔ b = name)
    (v : OpackValue) : fieldOf (a, v) = fieldOf (b, v) := by
  have hHeard (f : MediaField) : a ∈ f.heard ↔ b ∈ f.heard := by
    constructor
    · intro hMem
      rw [(h f _ hMem).1 rfl]
      exact hMem
    · intro hMem
      rw [(h f _ hMem).2 rfl]
      exact hMem
  simp only [fieldOf, hHeard]

/-- No name is so long that the smaller buffer makes a difference. -/
theorem fieldOf_root (l : RawLabel) (v : OpackValue) :
    fieldOf (l.read 32, v) = fieldOf (l.read 64, v) := by
  refine fieldOf_congr (fun f name hMem => ?_) v
  have hShort := heard_short f name hMem
  rw [RawLabel.read, RawLabel.read, cstr_take, cstr_take, take_eq_iff hShort,
    take_eq_iff (Nat.lt_trans hShort (by decide))]

theorem applyField_root (l : RawLabel) (v : OpackValue) (e : MediaEvent) :
    miplayApplyMediaField (l.read 32) v e = miplayApplyMediaField (l.read 64) v e := by
  rw [applyField_eq, applyField_eq, fieldOf_root]

/-- What is left of the payload behind the cursor. -/
theorem window_of_append {p q : Bytes} {offset : Nat} (hEnd : offset ≤ (p ++ q).length)
    (hSplit : window (p ++ q) (p ++ q).length offset = q) : offset = p.length := by
  have hLen := congrArg List.length hSplit
  rw [window_length (Nat.le_refl _) offset, List.length_append] at hLen
  rw [List.length_append] at hEnd
  omega

/-- **A notify payload** that is no `mediaInfoEx` object: its fields are applied to the
event up to the first place that is no field. -/
theorem notifyAt_row (hFuel : payload.length ≤ fuel) (hRow : payload = rowBytes fs ++ rest)
    (hEnd : rest = [] ∨ Malformed rest) (hRefused : miplayParseMediaInfoEx heap payload = none)
    (event : MediaEvent) :
    miplayParseNotifyPayloadAt fuel heap payload event =
      .ok (if heap 2 then
        ((fs.map RawField.read).foldl applyField event,
          decide (rest = []) && fs.any (fun f => (fieldOf f.read).isSome) &&
            ((fs.map RawField.read).foldl applyField event).changed.any)
      else (event, false)) := by
  have hLen := Nat.le_refl payload.length
  rw [miplayParseNotifyPayloadAt]
  by_cases hNil : payload = []
  · have hNone : fs = [] := by
      have hLe := length_le_rowBytes fs
      have hZero := congrArg List.length (hRow.symm.trans hNil)
      rw [List.length_append, List.length_nil] at hZero
      exact List.length_eq_zero_iff.1 (by omega)
    rw [if_pos hNil, hNone]
    simp
  obtain ⟨label, hLabelAt, hLabel, hBounds⟩ := opackReadLabelAt_follows hLen 0 32
  rw [window_all] at hLabel
  rw [if_neg hNil, infoExAt_eq hFuel, hRefused]
  simp only [Access.ok_bind, outcome, Option.elim_none, Bool.false_eq_true, if_false, hLabelAt]
  obtain _ | ⟨f, fs⟩ := fs
  · -- the payload does not begin with a field
    have hBad : Malformed payload := by
      rw [hRow, rowBytes, List.flatMap_nil, List.nil_append]
      refine hEnd.resolve_left fun hRest => hNil ?_
      rw [hRow, hRest]
      rfl
    obtain hNone | ⟨name, rest', hSome, hNoValue⟩ := hBad.read 32
    · rw [hLabel, Option.map_eq_none_iff] at hNone
      rw [hNone]
      simp
      rfl
    · obtain ⟨⟨root, offset⟩, hRoot, hFound⟩ := Option.map_eq_some_iff.1 (hLabel.symm.trans hSome)
      obtain ⟨value, hValueAt, hValue, -⟩ := opackReadValueAt_follows hLen offset
      obtain ⟨-, rfl⟩ := Prod.mk.inj hFound
      rw [hNoValue] at hValue
      rw [hRoot]
      simp only
      cases heap 2
      · rfl
      · rw [hValueAt, Option.map_eq_none_iff.1 hValue.symm]
        simp [Access.ok_bind]
        rfl
  · have hFirst : payload = f.label.bytes ++ (f.value.bytes ++ (rowBytes fs ++ rest)) := by
      rw [hRow, rowBytes_cons, List.append_assoc, List.append_assoc]
    have hLabelRaw := opackReadLabel_raw f.label 32 (f.value.bytes ++ (rowBytes fs ++ rest))
    rw [← hFirst] at hLabelRaw
    obtain ⟨⟨root, offset⟩, hRoot, hFound⟩ :=
      Option.map_eq_some_iff.1 (hLabel.symm.trans hLabelRaw)
    obtain ⟨hName, hWindow⟩ := Prod.mk.inj hFound
    simp only at hName hWindow
    obtain ⟨value, hValueAt, hValue, -⟩ := opackReadValueAt_follows hLen offset
    rw [hWindow, opackReadValue_raw] at hValue
    obtain ⟨⟨v, offset'⟩, hFoundValue, hFound⟩ := Option.map_eq_some_iff.1 hValue.symm
    obtain ⟨hRead, hWindow'⟩ := Prod.mk.inj hFound
    simp only at hRead hWindow'
    have hTurns : fs.length ≤ fuel := by
      have hLe := length_le_rowBytes fs
      rw [hFirst, List.length_append, List.length_append, List.length_append] at hFuel
      omega
    rw [hRoot]
    simp only
    cases heap 2
    · rfl
    · rw [hValueAt, hFoundValue, hName, hRead]
      simp only [Bool.not_true, Bool.false_eq_true, if_false, if_true, Access.ok_bind,
        opackFieldsAt_eq hLen, hWindow', applyField_root, opackScan_row hEnd fs _ _ hTurns]
      have hSeen : (miplayApplyMediaField (f.label.read 64) f.value.read event).isSome =
          (fieldOf f.read).isSome := by
        rw [applyField_eq, Option.isSome_map]
        rfl
      rw [hSeen, List.any_cons]
      rfl

theorem notify_row (hRow : payload = rowBytes fs ++ rest) (hEnd : rest = [] ∨ Malformed rest)
    (hRefused : miplayParseMediaInfoEx heap payload = none) (event : MediaEvent) :
    miplayParseNotifyPayload heap payload event =
      if heap 2 && (decide (rest = []) && fs.any (fun f => (fieldOf f.read).isSome) &&
          ((fs.map RawField.read).foldl applyField event).changed.any) then
        some ((fs.map RawField.read).foldl applyField event)
      else none := by
  rw [miplayParseNotifyPayload, hRefused]
  obtain _ | ⟨f, fs⟩ := fs
  · rw [rowBytes, List.flatMap_nil, List.nil_append] at hRow
    rw [List.any_nil, Bool.and_false, Bool.false_and, Bool.and_false,
      if_neg Bool.false_ne_true]
    rcases hEnd with hNil | hBad
    · rw [if_pos (hRow.trans hNil)]
    rw [if_neg (by rw [hRow]; exact hBad.1), hRow]
    obtain hNone | ⟨name, rest', hSome, hNoValue⟩ := hBad.read 32
    · simp [hNone]
    · cases heap 2 <;> simp [hSome, hNoValue]
  · have hFirst : payload = f.label.bytes ++ (f.value.bytes ++ (rowBytes fs ++ rest)) := by
      rw [hRow, rowBytes_cons, List.append_assoc, List.append_assoc]
    have hNil : payload ≠ [] := by
      rw [hFirst]
      exact List.cons_ne_nil _ _
    have hTurns : fs.length ≤ (rowBytes fs ++ rest).length := by
      have hLe := length_le_rowBytes fs
      rw [List.length_append]
      omega
    have hFields (e : MediaEvent) (seen : Bool) := opackFields_scan (rowBytes fs ++ rest).length
      (rowBytes fs ++ rest) e seen
    have hSeen : (miplayApplyMediaField (f.label.read 64) f.value.read event).isSome =
        (fieldOf f.read).isSome := by
      rw [applyField_eq, Option.isSome_map]
      rfl
    have hApply : (miplayApplyMediaField (f.label.read 64) f.value.read event).getD event =
        applyField event f.read := rfl
    simp only [opackScan_row hEnd fs _ _ hTurns] at hFields
    rw [if_neg hNil, hFirst, opackReadLabel_raw]
    simp only [Option.bind_eq_bind, Option.bind_some, opackReadValue_raw, applyField_root, hFields,
      hSeen, hApply]
    cases heap 2
    · rfl
    by_cases hAll : rest = []
    · simp [hAll, RawField.read]
    · simp [hAll]

/-- The reader stays inside, and is the reader over a list. -/
theorem notifyAt_eq (hFuel : payload.length ≤ fuel) (heap : Nat → Bool) (event : MediaEvent) :
    ∃ r, miplayParseNotifyPayloadAt fuel heap payload event = .ok r ∧
      miplayParseNotifyPayload heap payload event = if r.2 then some r.1 else none := by
  cases hInfo : miplayParseMediaInfoEx heap payload with
  | some e =>
    have hNil : payload ≠ [] := by
      rintro rfl
      cases hInfo
    refine ⟨(e, true), ?_, ?_⟩
    · rw [miplayParseNotifyPayloadAt, if_neg hNil, infoExAt_eq hFuel, hInfo]
      rfl
    · rw [miplayParseNotifyPayload, if_neg hNil, hInfo]
      rfl
  | none =>
    obtain ⟨fs, rest, hRow, hEnd⟩ := split_row payload
    refine ⟨_, notifyAt_row hFuel hRow hEnd hInfo event, ?_⟩
    rw [notify_row hRow hEnd hInfo event]
    cases heap 2
    · rfl
    · simp

theorem scalarStateOn_eq (p : Bytes) (event : MediaEvent) :
    scalarStateOn (opackU32Be p) event = outcome event (scalarState p event) := by
  rw [scalarStateOn, scalarState]
  split_ifs
  · rfl
  · rfl

/-- The reader stays inside, and is the reader over a list. -/
theorem stateAt_eq (hFuel : payload.length ≤ fuel) (heap : Nat → Bool) (event : MediaEvent) :
    miplayParseMediaStatePayloadAt fuel heap payload event =
      .ok (outcome event (miplayParseMediaStatePayload heap payload event)) := by
  have hLen := Nat.le_refl payload.length
  rw [miplayParseMediaStatePayloadAt, miplayParseMediaStatePayload]
  by_cases hNone : payload = [] ∨ !heap 0
  · rw [if_pos hNone, if_pos hNone]
    rfl
  obtain ⟨⟨e, ok⟩, hNotifyAt, hNotify⟩ :=
    notifyAt_eq hFuel (fun n => heap (1 + n)) miplayMediaEventInit
  rw [if_neg hNone, if_neg hNone, hNotifyAt, hNotify, Access.ok_bind]
  cases ok with
  | true => rfl
  | false =>
    obtain ⟨e', ok⟩ := miplayParseSetMediaInfoJson (fun n => heap (4 + n)) payload
      miplayMediaEventInit
    cases ok with
    | true => rfl
    | false =>
      simp only [Bool.false_eq_true, if_false]
      have hWord (offset : Nat) (hFits : offset + 4 ≤ payload.length) :
          opackU32BeAt payload offset = .ok (opackU32Be (window payload payload.length offset)) :=
        opackU32BeAt_window (by omega) (by omega) hLen
      by_cases hFour : payload.length = 4
      · rw [if_pos hFour, if_pos hFour, hWord 0 (by omega), window_all,
          Access.ok_bind, scalarStateOn_eq]
        rfl
      rw [if_neg hFour, if_neg hFour]
      by_cases hFive : payload.length = 5
      · have hHere : 0 < payload.length := by omega
        obtain ⟨b, hRead, hWindow⟩ := readByte_window hHere hLen
        have hLead : payload.getD 0 0 = b := by
          rw [window_all] at hWindow
          rw [hWindow]
          rfl
        rw [if_pos hFive, hRead, Access.ok_bind, hLead]
        by_cases hZero : b = 0
        · have hDrop : window payload payload.length 1 = payload.drop 1 := by
            rw [window, List.take_length]
          rw [if_pos hZero, if_pos ⟨hFive, hZero⟩, hWord 1 (by omega), hDrop,
            Access.ok_bind, scalarStateOn_eq]
          rfl
        · rw [if_neg hZero, if_neg fun h => hZero h.2]
          rfl
      · rw [if_neg hFive, if_neg fun h => hFive h.1]
        rfl

-- ---------------------------------------------------------------------------
-- The law
-- ---------------------------------------------------------------------------

/-- The three readers keep to the payload, and leave the event of their caller as it is
when they refuse one. A `mediaInfoEx` payload is accepted exactly if it is one, and tells
the last value of each field. -/
structure OpackLaw (heap : Nat → Bool) (payload : Bytes) : Prop where
  infoEx : ∀ fuel event, payload.length ≤ fuel →
    ∃ r, miplayParseMediaInfoExAt fuel heap payload event = .ok r ∧
      (r.2 = true ↔ heap 0 ∧ heap 1 ∧ ∃ fs, IsInfoEx payload fs ∧ ∃ f ∈ fs, Known f) ∧
      (r.2 = true → ∀ fs, IsInfoEx payload fs → r.1 = eventOf (fs.map RawField.read)) ∧
      (r.2 = false → r.1 = event)
  notify : ∀ fuel event, payload.length ≤ fuel →
    ∃ r, miplayParseNotifyPayloadAt fuel heap payload event = .ok r ∧ (r.2 = false → r.1 = event)
  mediaState : ∀ fuel event, payload.length ≤ fuel →
    ∃ r, miplayParseMediaStatePayloadAt fuel heap payload event = .ok r ∧
      (r.2 = false → r.1 = event)

/-- A known field, and somewhere behind it a place that is no field. -/
def KnownThenMalformed (payload : Bytes) : Prop :=
  ∃ fs rest, payload = rowBytes fs ++ rest ∧ Malformed rest ∧ ∃ f ∈ fs, Known f

theorem outcome_refused {event : MediaEvent} {r : Option MediaEvent}
    (h : (outcome event r).2 = false) : (outcome event r).1 = event := by
  cases r with
  | none => rfl
  | some e => cases h

theorem infoEx_law (hFuel : payload.length ≤ fuel) (event : MediaEvent) :
    ∃ r, miplayParseMediaInfoExAt fuel heap payload event = .ok r ∧
      (r.2 = true ↔ heap 0 ∧ heap 1 ∧ ∃ fs, IsInfoEx payload fs ∧ ∃ f ∈ fs, Known f) ∧
      (r.2 = true → ∀ fs, IsInfoEx payload fs → r.1 = eventOf (fs.map RawField.read)) ∧
      (r.2 = false → r.1 = event) := by
  refine ⟨_, infoExAt_eq hFuel heap event, ?_, ?_, outcome_refused⟩
  · cases hInfo : miplayParseMediaInfoEx heap payload with
    | none =>
      refine iff_of_false Bool.false_ne_true ?_
      rintro ⟨hEvent, hText, fs, hForm, hKnown⟩
      cases hInfo.symm.trans (infoEx_eq_some_iff.2 ⟨hEvent, hText, fs, hForm, hKnown, rfl⟩)
    | some e =>
      obtain ⟨hEvent, hText, fs, hForm, hKnown, -⟩ := infoEx_eq_some_iff.1 hInfo
      exact iff_of_true rfl ⟨hEvent, hText, fs, hForm, hKnown⟩
  · intro hAccepted fs hForm
    cases hInfo : miplayParseMediaInfoEx heap payload with
    | none =>
      rw [hInfo] at hAccepted
      cases hAccepted
    | some e =>
      obtain ⟨hEvent, hText, -⟩ := infoEx_eq_some_iff.1 hInfo
      rw [infoEx_of_row hForm hEvent hText] at hInfo
      split_ifs at hInfo
      exact (Option.some.inj hInfo).symm

theorem applyField_unknown {x : Bytes × OpackValue} (hUnknown : (fieldOf x).isSome = false)
    (e : MediaEvent) : applyField e x = e := by
  have hNone : fieldOf (x.1, x.2) = none := by simpa using hUnknown
  rw [applyField, applyField_eq, hNone]
  rfl

/-- Without a known field the event stays as it is. -/
theorem foldl_unknown (hUnknown : ¬∃ f ∈ fs, Known f) (event : MediaEvent) :
    (fs.map RawField.read).foldl applyField event = event := by
  induction fs with
  | nil => rfl
  | cons f fs ih =>
    have hFirst : (fieldOf f.read).isSome = false := by
      by_contra hKnown
      exact hUnknown ⟨f, List.mem_cons_self, Bool.eq_true_of_not_eq_false hKnown⟩
    rw [List.map_cons, List.foldl_cons, applyField_unknown hFirst]
    exact ih fun ⟨g, hMem, hKnown⟩ => hUnknown ⟨g, List.mem_cons_of_mem f hMem, hKnown⟩

theorem setField_changed (e : MediaEvent) (f : MediaField) (v : OpackValue) :
    (setField e f v).changed.any := by
  cases f <;> simp [setField, MediaFields.setDevice, Changed.any]

theorem applyField_changed {e : MediaEvent} {x : Bytes × OpackValue}
    (h : e.changed.any ∨ (fieldOf x).isSome) : (applyField e x).changed.any := by
  rw [applyField, applyField_eq]
  cases hField : fieldOf (x.1, x.2) with
  | none =>
    refine h.resolve_right fun hSome => ?_
    have hNone : fieldOf x = none := hField
    rw [hNone] at hSome
    cases hSome
  | some f => exact setField_changed e f x.2

theorem foldl_changed (event : MediaEvent) (h : event.changed.any ∨ ∃ f ∈ fs, Known f) :
    ((fs.map RawField.read).foldl applyField event).changed.any := by
  induction fs generalizing event with
  | nil =>
    refine h.resolve_right ?_
    rintro ⟨f, hMem, -⟩
    cases hMem
  | cons f fs ih =>
    rw [List.map_cons, List.foldl_cons]
    refine ih _ ?_
    rcases h with hEvent | ⟨g, hMem, hKnown⟩
    · exact .inl (applyField_changed (.inl hEvent))
    · rcases List.mem_cons.1 hMem with rfl | hMem
      · exact .inl (applyField_changed (.inr hKnown))
      · exact .inr ⟨g, hMem, hKnown⟩

/-- **Every payload.** The law holds of it exactly if it is accepted as an object, or there
is no memory for its texts, or no known field stands in front of a malformed place. -/
theorem opackLaw_iff (heap : Nat → Bool) (payload : Bytes) :
    OpackLaw heap payload ↔
      (heap 0 ∧ heap 1 ∧ ∃ fs, IsInfoEx payload fs ∧ ∃ f ∈ fs, Known f) ∨ heap 2 = false ∨
        ¬KnownThenMalformed payload := by
  constructor
  · intro hLaw
    by_contra hNot
    obtain ⟨hRefused, hNot⟩ := not_or.1 hNot
    obtain ⟨hHeap, hBad⟩ := not_or.1 hNot
    obtain ⟨fs, rest, hRow, hRest, hKnown⟩ := Classical.not_not.1 hBad
    have hInfo : miplayParseMediaInfoEx heap payload = none := by
      cases hInfo : miplayParseMediaInfoEx heap payload with
      | none => rfl
      | some e =>
        obtain ⟨hEvent, hText, fs, hForm, hKnown, -⟩ := infoEx_eq_some_iff.1 hInfo
        exact absurd ⟨hEvent, hText, fs, hForm, hKnown⟩ hRefused
    obtain ⟨r, hRun, hKept⟩ := hLaw.notify payload.length miplayMediaEventInit (Nat.le_refl _)
    rw [notifyAt_row (Nat.le_refl _) hRow (.inr hRest) hInfo,
      if_pos (Bool.eq_true_of_not_eq_false hHeap), decide_eq_false hRest.1, Bool.false_and,
      Bool.false_and] at hRun
    obtain rfl := Except.ok.inj hRun
    have hEvent : (fs.map RawField.read).foldl applyField miplayMediaEventInit =
        miplayMediaEventInit := hKept rfl
    have hChanged := foldl_changed miplayMediaEventInit (.inr hKnown)
    rw [hEvent] at hChanged
    cases hChanged
  · intro hRight
    refine ⟨fun fuel event hFuel => infoEx_law hFuel event, fun fuel event hFuel => ?_,
      fun fuel event hFuel => ⟨_, stateAt_eq hFuel heap event, outcome_refused⟩⟩
    cases hInfo : miplayParseMediaInfoEx heap payload with
    | some e =>
      have hNil : payload ≠ [] := by
        rintro rfl
        cases hInfo
      refine ⟨(e, true), ?_, fun h => by cases h⟩
      rw [miplayParseNotifyPayloadAt, if_neg hNil, infoExAt_eq hFuel, hInfo]
      rfl
    | none =>
      obtain ⟨fs, rest, hRow, hEnd⟩ := split_row payload
      refine ⟨_, notifyAt_row hFuel hRow hEnd hInfo event, ?_⟩
      cases hHeap : heap 2 with
      | false => exact fun _ => rfl
      | true =>
        rw [if_pos rfl]
        intro hFalse
        refine foldl_unknown ?_ event
        intro hKnown
        have hChanged := foldl_changed event (.inr hKnown)
        have hAny : fs.any (fun f => (fieldOf f.read).isSome) = true := by
          obtain ⟨f, hMem, hField⟩ := hKnown
          exact List.any_eq_true.2 ⟨f, hMem, hField⟩
        rcases hEnd with hNil | hBad
        · simp [hNil, hAny, hChanged] at hFalse
        · rcases hRight with ⟨hEvent, hText, fs', hForm, hKnown'⟩ | hNone | hFine
          · cases hInfo.symm.trans
              (infoEx_eq_some_iff.2 ⟨hEvent, hText, fs', hForm, hKnown', rfl⟩)
          · cases hNone.symm.trans hHeap
          · exact hFine ⟨fs, rest, hRow, hBad, hKnown⟩

end Notify

/-- A title, and behind it a single byte. -/
def titleThenStray : Bytes :=
  opackLabel (ascii "mTitle") ++ [0x14, 0, 0, 0, 1, 0x61] ++ [0xFF]

/-- The title is in the event although the payload is refused. -/
theorem notify_keeps_title :
    ¬∀ payload : Bytes, OpackLaw (fun _ => true) payload := by
  intro hAll
  obtain ⟨r, hRun, hKept⟩ := (hAll titleThenStray).notify 20 miplayMediaEventInit (by decide)
  have hTitle : miplayParseNotifyPayloadAt 20 (fun _ => true) titleThenStray
      miplayMediaEventInit =
      .ok ({ miplayMediaEventInit with title := [0x61], changed := { title := true } }, false) := by
    decide +kernel
  rw [hTitle] at hRun
  obtain rfl := Except.ok.inj hRun
  exact absurd (hKept rfl) (by decide +kernel)

end EspMiplay.Miplay
