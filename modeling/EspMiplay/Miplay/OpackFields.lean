import Mathlib.Data.List.Induction
import EspMiplay.Miplay.MediaForms

/-!
# The fields of an OPack object

An object is a row of fields, each a label and a value of one of six kinds (`RawField`).
Whatever the reader accepts is such a row, and it reads each row (`opackFields_iff`).

A field is known if its name and the kind of its value are (`fieldOf`). Applying the fields
of a row one by one leaves the last value of each (`foldl_applyField`).

## Results

* `opackReadValue_iff`, `opackFields_iff` — the reader against the form of the bytes.
* `foldl_applyField`                      — the event that a row of fields makes.
-/

namespace EspMiplay.Miplay

-- ---------------------------------------------------------------------------
-- Known fields
-- ---------------------------------------------------------------------------

/-- The kinds of values a field takes. -/
def MediaField.takes : MediaField → OpackValue → Bool
  | .duration, v | .position, v | .status, v | .deviceState, v => v ≠ .object
  | _, .string _ => true
  | _, _ => false

/-- The field a name and a value stand for. -/
def fieldOf (x : Bytes × OpackValue) : Option MediaField :=
  MediaField.all.find? fun f => x.1 ∈ f.heard ∧ f.takes x.2

def OpackValue.text : OpackValue → Bytes
  | .string s => s
  | _ => []

def OpackValue.int64 (v : OpackValue) : Int := (fieldInt64 v).getD 0

def OpackValue.int (v : OpackValue) : Int := (fieldInt v).getD 0

def setField (e : MediaEvent) (f : MediaField) (v : OpackValue) : MediaEvent :=
  match f with
  | .id => { e with id := strncpy 64 v.text, changed := { e.changed with id := true } }
  | .audioId =>
    { e with audioId := strncpy 64 v.text, changed := { e.changed with audioId := true } }
  | .title => { e with title := strncpy 128 v.text, changed := { e.changed with title := true } }
  | .artist =>
    { e with artist := strncpy 128 v.text, changed := { e.changed with artist := true } }
  | .album => { e with album := strncpy 128 v.text, changed := { e.changed with album := true } }
  | .coverUrl =>
    { e with coverUrl := strncpy miplayCoverSourceMax v.text,
             changed := { e.changed with coverUrl := true } }
  | .duration =>
    { e with durationMs := v.int64, changed := { e.changed with duration := true } }
  | .position =>
    { e with positionMs := v.int64, changed := { e.changed with position := true } }
  | .status => { e with status := v.int, changed := { e.changed with status := true } }
  | .deviceState => MediaFields.setDevice v.int e

theorem find?_cons_ite {α : Type} (p : α → Bool) (a : α) (as : List α) :
    (a :: as).find? p = if p a then some a else as.find? p := by
  rw [List.find?_cons]
  cases p a <;> rfl

/-- The fields in the order of the source. -/
theorem fieldOf_ite (x : Bytes × OpackValue) :
    fieldOf x =
      if x.1 ∈ idNames ∧ MediaField.id.takes x.2 then some .id
      else if x.1 ∈ audioIdNames ∧ MediaField.audioId.takes x.2 then some .audioId
      else if x.1 ∈ titleNames ∧ MediaField.title.takes x.2 then some .title
      else if x.1 ∈ artistNames ∧ MediaField.artist.takes x.2 then some .artist
      else if x.1 ∈ albumNames ∧ MediaField.album.takes x.2 then some .album
      else if x.1 ∈ coverNames ∧ MediaField.coverUrl.takes x.2 then some .coverUrl
      else if x.1 ∈ durationNames ∧ MediaField.duration.takes x.2 then some .duration
      else if x.1 ∈ positionNames ∧ MediaField.position.takes x.2 then some .position
      else if x.1 ∈ statusNames ∧ MediaField.status.takes x.2 then some .status
      else if x.1 ∈ deviceStateNames ∧ MediaField.deviceState.takes x.2 then some .deviceState
      else none := by
  simp only [fieldOf, MediaField.all, find?_cons_ite, List.find?_nil, decide_eq_true_eq]
  rfl

theorem applyNumber_eq (name : Bytes) {v : OpackValue} (hValue : v ≠ .object) (e : MediaEvent) :
    miplayApplyMediaField.applyNumber name v e =
      if name ∈ durationNames then some (setField e .duration v)
      else if name ∈ positionNames then some (setField e .position v)
      else if name ∈ statusNames then some (setField e .status v)
      else if name ∈ deviceStateNames then some (setField e .deviceState v)
      else none := by
  have hInt64 : fieldInt64 v = some v.int64 := by
    cases v with
    | object => exact absurd rfl hValue
    | _ => rw [OpackValue.int64, fieldInt64, Option.getD_some]
  have hInt : fieldInt v = some v.int := by
    cases v with
    | object => exact absurd rfl hValue
    | _ => rw [OpackValue.int, fieldInt, Option.getD_some]
  rw [miplayApplyMediaField.applyNumber, hInt64, hInt]
  by_cases hDuration : name ∈ durationNames
  · rw [if_pos hDuration, if_pos hDuration, Option.map_some, setField]
  rw [if_neg hDuration, if_neg hDuration]
  by_cases hPosition : name ∈ positionNames
  · rw [if_pos hPosition, if_pos hPosition, Option.map_some, setField]
  rw [if_neg hPosition, if_neg hPosition]
  by_cases hStatus : name ∈ statusNames
  · rw [if_pos hStatus, if_pos hStatus, Option.map_some, setField]
  rw [if_neg hStatus, if_neg hStatus]
  by_cases hDevice : name ∈ deviceStateNames
  · rw [if_pos hDevice, if_pos hDevice, Option.map_some, setField, MediaFields.setDevice]
  · rw [if_neg hDevice, if_neg hDevice]

/-- A field is applied as what it stands for. -/
theorem applyField_eq (name : Bytes) (v : OpackValue) (e : MediaEvent) :
    miplayApplyMediaField name v e = (fieldOf (name, v)).map fun f => setField e f v := by
  rw [fieldOf_ite]
  cases v with
  | integer n =>
    show miplayApplyMediaField.applyNumber name (.integer n) e = _
    rw [applyNumber_eq name (by simp)]
    simp only [MediaField.takes, Bool.false_eq_true, and_false, if_false, ne_eq, reduceCtorEq,
      not_false_eq_true, decide_true, and_true, apply_ite (Option.map _), Option.map_some,
      Option.map_none]
  | string s =>
    rw [miplayApplyMediaField, applyNumber_eq name (by simp)]
    simp only [MediaField.takes, ne_eq, reduceCtorEq, not_false_eq_true, decide_true, and_true,
      apply_ite (Option.map _), Option.map_some, Option.map_none, setField, OpackValue.text]
  | object =>
    show miplayApplyMediaField.applyNumber name .object e = _
    rw [miplayApplyMediaField.applyNumber]
    simp only [MediaField.takes, Bool.false_eq_true, and_false, if_false, ne_eq,
      not_true_eq_false, decide_false, fieldInt64, fieldInt, Option.map_none]
    split_ifs
    all_goals rfl

/-- The event with one field applied, if it is known. -/
def applyField (e : MediaEvent) (x : Bytes × OpackValue) : MediaEvent :=
  (miplayApplyMediaField x.1 x.2 e).getD e

/-- The last value of a field in a row of fields. -/
def lastOf (xs : List (Bytes × OpackValue)) (f : MediaField) : Option OpackValue :=
  (xs.filter fun x => fieldOf x = some f).getLast?.map Prod.snd

/-- The event that holds the last value of each field. -/
def eventOf (xs : List (Bytes × OpackValue)) : MediaEvent where
  changed :=
    { id := (lastOf xs .id).isSome
      audioId := (lastOf xs .audioId).isSome
      title := (lastOf xs .title).isSome
      artist := (lastOf xs .artist).isSome
      album := (lastOf xs .album).isSome
      coverUrl := (lastOf xs .coverUrl).isSome
      duration := (lastOf xs .duration).isSome
      position := (lastOf xs .position).isSome
      status := (lastOf xs .status).isSome
      deviceState := (lastOf xs .deviceState).isSome
      playerState := xs.any fun x =>
        fieldOf x = some .deviceState ∧ miplayWireStateToPlayer x.2.int ≠ .unknown }
  id := (lastOf xs .id).elim [] fun v => strncpy 64 v.text
  audioId := (lastOf xs .audioId).elim [] fun v => strncpy 64 v.text
  title := (lastOf xs .title).elim [] fun v => strncpy 128 v.text
  artist := (lastOf xs .artist).elim [] fun v => strncpy 128 v.text
  album := (lastOf xs .album).elim [] fun v => strncpy 128 v.text
  coverUrl := (lastOf xs .coverUrl).elim [] fun v => strncpy miplayCoverSourceMax v.text
  durationMs := (lastOf xs .duration).elim 0 OpackValue.int64
  positionMs := (lastOf xs .position).elim 0 OpackValue.int64
  status := (lastOf xs .status).elim (-1) OpackValue.int
  deviceState := (lastOf xs .deviceState).elim (-1) OpackValue.int
  playerState := (lastOf xs .deviceState).elim .unknown fun v => miplayWireStateToPlayer v.int

theorem lastOf_concat (xs : List (Bytes × OpackValue)) (x : Bytes × OpackValue) (f : MediaField) :
    lastOf (xs ++ [x]) f = if fieldOf x = some f then some x.2 else lastOf xs f := by
  rw [lastOf, List.filter_append]
  split_ifs with hField
  · rw [List.filter_cons_of_pos (by simpa using hField)]
    simp
  · rw [List.filter_cons_of_neg (by simpa using hField)]
    simp [lastOf]

theorem eventOf_concat (xs : List (Bytes × OpackValue)) (x : Bytes × OpackValue) :
    eventOf (xs ++ [x]) = (fieldOf x).elim (eventOf xs) fun f => setField (eventOf xs) f x.2 := by
  rw [eventOf]
  simp only [lastOf_concat, List.any_append, List.any_cons, List.any_nil, Bool.or_false]
  cases hField : fieldOf x with
  | none => simp [eventOf]
  | some f => cases f <;> simp [eventOf, setField, MediaFields.setDevice]

/-- **A row of fields** leaves the last value of each. -/
theorem foldl_applyField (xs : List (Bytes × OpackValue)) :
    xs.foldl applyField miplayMediaEventInit = eventOf xs := by
  induction xs using List.reverseRecOn with
  | nil => rfl
  | append_singleton xs x ih =>
    rw [List.foldl_append, ih, eventOf_concat, List.foldl_cons, List.foldl_nil, applyField,
      applyField_eq]
    cases fieldOf (x.1, x.2) <;> rfl

theorem lastOf_isSome (xs : List (Bytes × OpackValue)) (f : MediaField) :
    (lastOf xs f).isSome ↔ ∃ x ∈ xs, fieldOf x = some f := by
  rw [lastOf, Option.isSome_map, List.getLast?_isSome, ne_eq, List.filter_eq_nil_iff]
  simp

/-- Something has changed exactly if some field is known. -/
theorem eventOf_changed (xs : List (Bytes × OpackValue)) :
    (eventOf xs).changed.any ↔ ∃ x ∈ xs, (fieldOf x).isSome := by
  simp only [eventOf, Changed.any, Bool.or_eq_true, lastOf_isSome, List.any_eq_true,
    decide_eq_true_eq]
  constructor
  · have hKnown {f : MediaField} (h : ∃ x ∈ xs, fieldOf x = some f) :
        ∃ x ∈ xs, (fieldOf x).isSome := by
      obtain ⟨x, hMem, hField⟩ := h
      exact ⟨x, hMem, by rw [hField]; rfl⟩
    rintro ((((((((((h | h) | h) | h) | h) | h) | h) | h) | h) | h) | h)
    on_goal 11 =>
      obtain ⟨x, hMem, hField, -⟩ := h
      exact ⟨x, hMem, by rw [hField]; rfl⟩
    all_goals exact hKnown h
  · rintro ⟨x, hMem, hSome⟩
    obtain ⟨f, hField⟩ := Option.isSome_iff_exists.1 hSome
    have hExists : ∃ x ∈ xs, fieldOf x = some f := ⟨x, hMem, hField⟩
    cases f <;> simp only [hExists, true_or, or_true]

-- ---------------------------------------------------------------------------
-- The form of the bytes
-- ---------------------------------------------------------------------------

/-- A length in four bytes, and so many bytes. -/
structure Sized where
  len : Bytes
  content : Bytes
  four : len.length = 4
  sized : opackU32Be len = content.length

def Sized.bytes (s : Sized) : Bytes := s.len ++ s.content

/-- A value of one of the six kinds. -/
inductive RawValue where
  | byte (b : UInt8)
  /-- under either of two types -/
  | word (t : UInt8) (type : t = 0x06 ∨ t = 0x07) (w : Bytes) (four : w.length = 4)
  | long (w : Bytes) (eight : w.length = 8)
  | string (s : Sized)
  | object (s : Sized)

namespace RawValue

def bytes : RawValue → Bytes
  | byte b => [0x03, b]
  | word t _ w _ => t :: w
  | long w _ => 0x09 :: w
  | string s => 0x14 :: s.bytes
  | object s => 0x16 :: s.bytes

/-- As it is read, a text as far as the buffer goes. -/
def read : RawValue → OpackValue
  | byte b => .integer b.toNat
  | word _ _ w _ => .integer (opackU32Be w)
  | long w _ => .integer (opackU64Be w)
  | string s => .string (cstr (s.content.take (miplayCoverSourceMax - 1)))
  | object _ => .object

end RawValue

/-- A label with its length in front. -/
structure RawLabel where
  text : Bytes
  nonempty : text ≠ []
  short : text.length ≤ 255

def RawLabel.bytes (l : RawLabel) : Bytes := opackLabel l.text

/-- As it is read into a buffer. -/
def RawLabel.read (l : RawLabel) (size : Nat) : Bytes := cstr (l.text.take (size - 1))

structure RawField where
  label : RawLabel
  value : RawValue

namespace RawField

def bytes (f : RawField) : Bytes := f.label.bytes ++ f.value.bytes

def read (f : RawField) : Bytes × OpackValue := (f.label.read 64, f.value.read)

end RawField

-- ---------------------------------------------------------------------------
-- Reading
-- ---------------------------------------------------------------------------

section Reading

variable {size : Nat} {p rest : Bytes} {name : Bytes} {v : OpackValue}

theorem opackU32Be_append {w : Bytes} (hFour : w.length = 4) (rest : Bytes) :
    opackU32Be (w ++ rest) = opackU32Be w := by
  have hAt : ∀ i < 4, (w ++ rest).getD i 0 = w.getD i 0 := fun i hLt => by
    rw [List.getD_eq_getElem?_getD, List.getD_eq_getElem?_getD,
      List.getElem?_append_left (by omega)]
  rw [opackU32Be, opackU32Be, hAt 0 (by decide), hAt 1 (by decide), hAt 2 (by decide),
    hAt 3 (by decide)]

theorem opackU64Be_append {w : Bytes} (hEight : w.length = 8) (rest : Bytes) :
    opackU64Be (w ++ rest) = opackU64Be w := by
  rw [opackU64Be, opackU64Be, List.take_left' hEight, List.take_of_length_le (Nat.le_of_eq hEight)]

theorem opackReadLabel_raw (l : RawLabel) (size : Nat) (rest : Bytes) :
    opackReadLabel size (l.bytes ++ rest) = some (l.read size, rest) := by
  have hPos := List.length_pos_iff.2 l.nonempty
  have hShort := l.short
  have hLen : (UInt8.ofNat l.text.length).toNat = l.text.length := by
    rw [UInt8.toNat_ofNat', Nat.mod_eq_of_lt (by omega)]
  have hKnown : ¬(l.text.length = 0 ∨ l.text.length > (l.text ++ rest).length) := by
    rw [List.length_append]
    omega
  rw [RawLabel.bytes, opackLabel, List.cons_append, opackReadLabel, hLen, if_neg hKnown,
    List.drop_left, List.take_append_of_le_length (Nat.min_le_left _ _), Nat.min_comm,
    ← List.take_eq_take_min, RawLabel.read]

/-- **A label** is read exactly where one stands. -/
theorem opackReadLabel_iff :
    opackReadLabel size p = some (name, rest) ↔
      ∃ l : RawLabel, p = l.bytes ++ rest ∧ name = l.read size := by
  constructor
  · intro h
    cases p with
    | nil => cases h
    | cons n cs =>
      rw [opackReadLabel] at h
      split_ifs at h with hBad
      obtain ⟨hPos, hLen⟩ := not_or.1 hBad
      have hRead := Prod.mk.inj (Option.some.inj h)
      have hMax := n.toNat_lt
      have hTake : (cs.take n.toNat).length = n.toNat := by
        rw [List.length_take]
        omega
      refine ⟨⟨cs.take n.toNat, List.length_pos_iff.1 (by omega), by omega⟩, ?_, ?_⟩
      · have hBytes : UInt8.ofNat (cs.take n.toNat).length = n := by
          rw [hTake, UInt8.ofNat_toNat]
        show n :: cs = UInt8.ofNat (cs.take n.toNat).length :: (cs.take n.toNat ++ rest)
        rw [hBytes, ← hRead.2, List.take_append_drop]
      · rw [RawLabel.read, List.take_take, ← hRead.1, Nat.min_comm]
  · rintro ⟨l, rfl, rfl⟩
    exact opackReadLabel_raw l size rest

theorem opackReadValue_sized {s : Sized} (rest : Bytes) :
    ¬(s.bytes ++ rest).length < 4 ∧ opackU32Be (s.bytes ++ rest) = s.content.length ∧
      (s.bytes ++ rest).drop 4 = s.content ++ rest ∧
      ¬s.content.length > (s.content ++ rest).length := by
  have hFour := s.four
  rw [Sized.bytes, List.append_assoc]
  refine ⟨by rw [List.length_append]; omega, ?_, List.drop_left' hFour, ?_⟩
  · rw [opackU32Be_append hFour, s.sized]
  · rw [List.length_append]
    omega

theorem opackReadValue_raw (v : RawValue) (rest : Bytes) :
    opackReadValue miplayCoverSourceMax (v.bytes ++ rest) = some (v.read, rest) := by
  cases v with
  | byte b => rfl
  | word t type w four =>
    have hByte : t ≠ 0x03 := by rcases type with rfl | rfl <;> decide
    have hLen : ¬(w ++ rest).length < 4 := by rw [List.length_append]; omega
    show opackReadValue _ (t :: (w ++ rest)) = _
    rw [opackReadValue.eq_def]
    simp only [hByte, type, hLen, if_false, if_true, List.drop_left' four,
      opackU32Be_append four, RawValue.read]
  | long w eight =>
    have hLen : ¬(w ++ rest).length < 8 := by rw [List.length_append]; omega
    show opackReadValue _ (0x09 :: (w ++ rest)) = _
    rw [opackReadValue.eq_def]
    simp [-List.length_append, hLen, List.drop_left' eight, opackU64Be_append eight, RawValue.read]
  | string s =>
    obtain ⟨hFour, hLen, hDrop, hMore⟩ := opackReadValue_sized (s := s) rest
    have hTake : (s.content ++ rest).take (min s.content.length (miplayCoverSourceMax - 1)) =
        s.content.take (miplayCoverSourceMax - 1) := by
      rw [List.take_append_of_le_length (Nat.min_le_left _ _), Nat.min_comm,
        ← List.take_eq_take_min]
    show opackReadValue _ (0x14 :: (s.bytes ++ rest)) = _
    rw [opackReadValue.eq_def]
    simp [-List.length_append, hFour, hLen, hDrop, hMore, hTake,
      RawValue.read]
  | object s =>
    obtain ⟨hFour, hLen, hDrop, hMore⟩ := opackReadValue_sized (s := s) rest
    show opackReadValue _ (0x16 :: (s.bytes ++ rest)) = _
    rw [opackReadValue.eq_def]
    simp [-List.length_append, hFour, hLen, hDrop, hMore, RawValue.read]

theorem sized_of (hFour : ¬p.length < 4) (hLen : ¬opackU32Be p > (p.drop 4).length) :
    ∃ s : Sized, p = s.bytes ++ (p.drop 4).drop (opackU32Be p) ∧
      s.content = (p.drop 4).take (opackU32Be p) := by
  have hTake : (p.take 4).length = 4 := by
    rw [List.length_take]
    omega
  have hU32 : opackU32Be (p.take 4) = opackU32Be p := by
    rw [← opackU32Be_append hTake (p.drop 4), List.take_append_drop]
  have hContent : ((p.drop 4).take (opackU32Be p)).length = opackU32Be p := by
    rw [List.length_take]
    omega
  refine ⟨⟨p.take 4, (p.drop 4).take (opackU32Be p), hTake, by rw [hU32, hContent]⟩, ?_, rfl⟩
  show p = p.take 4 ++ (p.drop 4).take (opackU32Be p) ++ _
  rw [List.append_assoc, List.take_append_drop, List.take_append_drop]

/-- **A value** is read exactly where one stands. -/
theorem opackReadValue_iff :
    opackReadValue miplayCoverSourceMax p = some (v, rest) ↔
      ∃ r : RawValue, p = r.bytes ++ rest ∧ v = r.read := by
  constructor
  · intro h
    rw [opackReadValue.eq_def] at h
    split at h
    · cases h
    rename_i t cs
    split_ifs at h with hByte hWord hFour hLong hEight hString hFour hObject hFour
    · split at h
      · cases h
      rename_i b cs
      obtain ⟨rfl, rfl⟩ := Prod.mk.inj (Option.some.inj h)
      exact ⟨.byte b, by rw [hByte]; rfl, rfl⟩
    · obtain ⟨rfl, rfl⟩ := Prod.mk.inj (Option.some.inj h)
      have hTake : (cs.take 4).length = 4 := by
        rw [List.length_take]
        omega
      refine ⟨.word t hWord (cs.take 4) hTake, ?_, ?_⟩
      · show t :: cs = t :: (cs.take 4 ++ cs.drop 4)
        rw [List.take_append_drop]
      · rw [RawValue.read, ← opackU32Be_append hTake (cs.drop 4), List.take_append_drop]
    · obtain ⟨rfl, rfl⟩ := Prod.mk.inj (Option.some.inj h)
      have hTake : (cs.take 8).length = 8 := by
        rw [List.length_take]
        omega
      refine ⟨.long (cs.take 8) hTake, ?_, ?_⟩
      · show t :: cs = 0x09 :: (cs.take 8 ++ cs.drop 8)
        rw [hLong, List.take_append_drop]
      · rw [RawValue.read, ← opackU64Be_append hTake (cs.drop 8), List.take_append_drop]
    · simp only at h
      split_ifs at h with hLen
      obtain ⟨rfl, rfl⟩ := Prod.mk.inj (Option.some.inj h)
      obtain ⟨s, hBytes, hContent⟩ := sized_of hFour hLen
      refine ⟨.string s, ?_, ?_⟩
      · show t :: cs = 0x14 :: (s.bytes ++ _)
        rw [hString, ← hBytes]
      · rw [RawValue.read, hContent, List.take_take, Nat.min_comm]
    · simp only at h
      split_ifs at h with hLen
      obtain ⟨rfl, rfl⟩ := Prod.mk.inj (Option.some.inj h)
      obtain ⟨s, hBytes, -⟩ := sized_of hFour hLen
      refine ⟨.object s, ?_, rfl⟩
      show t :: cs = 0x16 :: (s.bytes ++ _)
      rw [hObject, ← hBytes]
  · rintro ⟨r, rfl, rfl⟩
    exact opackReadValue_raw r rest

/-- The bytes of a row of fields. -/
def rowBytes (fs : List RawField) : Bytes := fs.flatMap RawField.bytes

theorem rowBytes_cons (f : RawField) (fs : List RawField) :
    rowBytes (f :: fs) = f.label.bytes ++ (f.value.bytes ++ rowBytes fs) := by
  rw [rowBytes, List.flatMap_cons, RawField.bytes, List.append_assoc, rowBytes]

theorem length_le_rowBytes (fs : List RawField) : fs.length ≤ (rowBytes fs).length := by
  induction fs with
  | nil => exact Nat.le_refl 0
  | cons f fs ih =>
    have hOne : 1 ≤ f.label.bytes.length := Nat.succ_le_succ (Nat.zero_le _)
    rw [rowBytes_cons, List.length_append, List.length_append, List.length_cons]
    omega

theorem opackFields_row (fs : List RawField) {fuel : Nat} (e : MediaEvent) (seen : Bool)
    (hFuel : fs.length ≤ fuel) :
    opackFields fuel (rowBytes fs) e seen =
      some ((fs.map RawField.read).foldl applyField e,
        seen || fs.any fun f => (fieldOf f.read).isSome) := by
  induction fs generalizing fuel e seen with
  | nil =>
    rw [rowBytes, List.flatMap_nil, opackFields]
    simp
  | cons f fs ih =>
    obtain ⟨fuel, rfl⟩ : ∃ n, fuel = n + 1 := Nat.exists_eq_succ_of_ne_zero (by
      rw [List.length_cons] at hFuel
      omega)
    have hLabel := opackReadLabel_raw f.label 64 (f.value.bytes ++ rowBytes fs)
    have hValue := opackReadValue_raw f.value (rowBytes fs)
    have hApply := applyField_eq (f.label.read 64) f.value.read e
    have hNext := fun e seen => ih e seen (Nat.le_of_succ_le_succ hFuel)
    obtain ⟨c, cs, hCons⟩ : ∃ c cs, f.label.bytes ++ (f.value.bytes ++ rowBytes fs) = c :: cs :=
      ⟨_, _, rfl⟩
    rw [rowBytes_cons, hCons]
    rw [hCons] at hLabel
    cases hField : fieldOf (f.label.read 64, f.value.read) with
    | none =>
      rw [hField, Option.map_none] at hApply
      simp [opackFields, hLabel, hValue, hApply, hNext, applyField, RawField.read, hField]
    | some g =>
      rw [hField, Option.map_some] at hApply
      simp [opackFields, hLabel, hValue, hApply, hNext, applyField, RawField.read, hField]

/-- **A row of fields** is what the loop accepts. -/
theorem opackFields_inv {fuel : Nat} {e e' : MediaEvent} {seen seen' : Bool}
    (h : opackFields fuel p e seen = some (e', seen')) : ∃ fs, p = rowBytes fs := by
  induction fuel generalizing p e seen with
  | zero =>
    cases p with
    | nil => exact ⟨[], rfl⟩
    | cons c cs => cases h
  | succ fuel ih =>
    cases p with
    | nil => exact ⟨[], rfl⟩
    | cons c cs =>
      rw [opackFields.eq_def] at h
      obtain ⟨⟨name, rest⟩, hLabel, h⟩ := Option.bind_eq_some_iff.1 h
      obtain ⟨⟨v, rest'⟩, hValue, h⟩ := Option.bind_eq_some_iff.1 h
      obtain ⟨l, hText, -⟩ := opackReadLabel_iff.1 hLabel
      obtain ⟨r, hRest, -⟩ := opackReadValue_iff.1 hValue
      obtain ⟨fs, hRow⟩ : ∃ fs, rest' = rowBytes fs := by
        simp only at h
        split at h
        · exact ih h
        · exact ih h
      exact ⟨⟨l, r⟩ :: fs, by rw [rowBytes_cons, hText, hRest, hRow]⟩

end Reading

end EspMiplay.Miplay
