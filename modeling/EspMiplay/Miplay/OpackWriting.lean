import EspMiplay.Miplay.OpackReader

/-!
# Writing OPack

`opack_write_label` and `opack_write_string_field` append to a buffer of a given capacity.
The label's space check subtracts in `size_t`: on a full buffer `capacity - *offset - 1`
wraps, and the label is written behind the end.

A string field checks once more behind its label, so that it fails then; but its label has
been written. The fields that do succeed are read back as they were written.

## Results

* `writeStringField_eq_some` — a field that succeeds is inside, and has the form of one.
* `parse_wrapFields`         — an object of string fields is read back.
* `opackWrites_iff`          — every buffer, name and value.
-/

namespace EspMiplay.Miplay

-- ---------------------------------------------------------------------------
-- Objects of string fields
-- ---------------------------------------------------------------------------

/-- Two C strings. -/
structure StringField where
  name : Bytes
  value : Bytes
  name_plain : 0 ∉ name
  value_plain : 0 ∉ value

/-- As it is read back, a value as far as the reader's buffer goes. -/
def StringField.read (f : StringField) : Bytes × OpackValue :=
  (f.name, .string (f.value.take (miplayCoverSourceMax - 1)))

def writeFields (capacity : Nat) (data : Bytes) (fs : List StringField) : Option Bytes :=
  fs.foldlM (fun data f => opackWriteStringField capacity data f.name f.value) data

/-- String fields in an object, as `miplay_build_media_info_ex` wraps its one. -/
def wrapFields (capacity : Nat) (fs : List StringField) : Option Bytes := do
  if capacity < 32 then none
  let data ← opackWriteLabel capacity [] (ascii "mediaInfoEx")
  if data.length > capacity - 1 - 4 then none
  -- the length is filled in behind the fields
  let start := data ++ [0x16, 0, 0, 0, 0]
  let written ← writeFields capacity start fs
  let object := written.drop start.length
  some (data ++ 0x16 :: putBe32 (UInt32.ofNat object.length) ++ object)

/-- A buffer, as far as it is written. -/
structure WriteBuffer where
  capacity : UInt32
  written : Bytes
  fits : written.length ≤ capacity.toNat

/-- What succeeds stays in the buffer, and an object of string fields is read back. -/
structure OpackWrites (b : WriteBuffer) (name value : Bytes) : Prop where
  label : ∀ out ∈ opackWriteLabel b.capacity.toNat b.written name,
    b.written <+: out ∧ out.length ≤ b.capacity.toNat
  field : ∀ out ∈ opackWriteStringField b.capacity.toNat b.written name value,
    b.written <+: out ∧ out.length ≤ b.capacity.toNat
  decoded : ∀ fs, ∀ out ∈ wrapFields b.capacity.toNat fs,
    out.length ≤ b.capacity.toNat ∧
      miplayParseMediaInfoEx (fun _ => true) out =
        if fs.any (fun f => (fieldOf f.read).isSome) then some (eventOf (fs.map StringField.read))
        else none

-- ---------------------------------------------------------------------------
-- Labels and fields
-- ---------------------------------------------------------------------------

section Write

variable {capacity : Nat} {data name value out : Bytes}

theorem writeLabel_eq_some (h : opackWriteLabel capacity data name = some out) :
    name ≠ [] ∧ name.length ≤ 255 ∧ out = data ++ opackLabel name := by
  rw [opackWriteLabel] at h
  split_ifs at h with hBad
  obtain ⟨hEmpty, hBad⟩ := not_or.1 hBad
  obtain ⟨hLong, -⟩ := not_or.1 hBad
  exact ⟨List.length_pos_iff.1 (Nat.pos_of_ne_zero hEmpty), Nat.le_of_not_lt hLong,
    (Option.some.inj h).symm⟩

/-- Where there is a byte left, the check is right. -/
theorem writeLabel_inside (hCapacity : capacity < 4294967296) (hRoom : data.length < capacity)
    (h : opackWriteLabel capacity data name = some out) : out.length ≤ capacity := by
  obtain ⟨-, -, hOut⟩ := writeLabel_eq_some h
  rw [opackWriteLabel] at h
  split_ifs at h with hBad
  have hFits : ¬name.length > sizeSub (capacity - data.length) 1 := fun hLong =>
    hBad (.inr (.inr (.inr hLong)))
  unfold sizeSub at hFits
  rw [hOut, List.length_append, opackLabel, List.length_cons]
  omega

/-- What has room behind it is written. -/
theorem writeLabel_fits (hCapacity : capacity < 4294967296) (hNonempty : 1 ≤ name.length)
    (hShort : name.length ≤ 255) (hRoom : data.length + 1 + name.length ≤ capacity) :
    opackWriteLabel capacity data name = some (data ++ opackLabel name) := by
  rw [opackWriteLabel, if_neg]
  unfold sizeSub
  omega

/-- Where there is none, it lets every label pass. -/
theorem writeLabel_full (hFull : data.length = capacity) (hNonempty : 1 ≤ name.length)
    (hShort : name.length ≤ 255) :
    opackWriteLabel capacity data name = some (data ++ opackLabel name) := by
  have hWrapped : sizeSub (capacity - data.length) 1 = 4294967295 := by
    rw [hFull, Nat.sub_self]
    rfl
  rw [opackWriteLabel, if_neg]
  rw [hWrapped]
  omega

theorem writeStringField_form (h : opackWriteStringField capacity data name value = some out) :
    name ≠ [] ∧ name.length ≤ 255 ∧ out.length ≤ capacity ∧
      out = data ++ (opackLabel name ++
        0x14 :: (putBe32 (UInt32.ofNat value.length) ++ value)) := by
  obtain ⟨labelled, hLabel, h⟩ := Option.bind_eq_some_iff.1 h
  obtain ⟨hNonempty, hShort, rfl⟩ := writeLabel_eq_some hLabel
  split_ifs at h with hBad
  obtain ⟨hOver, hBad⟩ := not_or.1 hBad
  obtain ⟨hFive, hLong⟩ := not_or.1 hBad
  have hOut := (Option.some.inj h).symm
  refine ⟨hNonempty, hShort, ?_, by rw [hOut]; simp⟩
  have hFour : (putBe32 (UInt32.ofNat value.length)).length = 4 := rfl
  rw [hOut, List.length_append, List.length_append, List.length_cons, hFour]
  omega

theorem writeStringField_fits (hCapacity : capacity < 4294967296) (hNonempty : 1 ≤ name.length)
    (hShort : name.length ≤ 255)
    (hRoom : data.length + 1 + name.length + 5 + value.length ≤ capacity) :
    opackWriteStringField capacity data name value = some (data ++ opackLabel name ++
      0x14 :: putBe32 (UInt32.ofNat value.length) ++ value) := by
  have hLen : (data ++ opackLabel name).length = data.length + 1 + name.length := by
    rw [List.length_append, opackLabel, List.length_cons]
    omega
  rw [opackWriteStringField, writeLabel_fits hCapacity hNonempty hShort (by omega)]
  simp only [Option.bind_eq_bind, Option.bind_some, hLen]
  rw [if_neg (by omega)]

/-- **A field that succeeds** has the form of one. -/
theorem writeStringField_eq_some (hCapacity : capacity < 4294967296) (hName : 0 ∉ name)
    (hValue : 0 ∉ value) (h : opackWriteStringField capacity data name value = some out) :
    out.length ≤ capacity ∧ ∃ f : RawField, out = data ++ f.bytes ∧
      f.read = (name.take 63, .string (value.take (miplayCoverSourceMax - 1))) := by
  obtain ⟨hNonempty, hShort, hFits, hOut⟩ := writeStringField_form h
  have hSize : (UInt32.ofNat value.length).toNat = value.length := by
    have hLen : value.length ≤ out.length := by
      rw [hOut, List.length_append, List.length_append, List.length_cons, List.length_append]
      omega
    rw [UInt32.toNat_ofNat', Nat.mod_eq_of_lt (by omega)]
  have hPlain {p : Bytes} {n : Nat} (hNul : 0 ∉ p) : cstr (p.take n) = p.take n :=
    cstr_of_no_nul fun c hMem => by
      rintro rfl
      exact hNul (List.mem_of_mem_take hMem)
  have hLen : opackU32Be (putBe32 (UInt32.ofNat value.length)) = value.length := by
    have hWord := opackU32Be_putBe32 (UInt32.ofNat value.length) []
    rwa [List.append_nil, hSize] at hWord
  refine ⟨hFits, ⟨⟨name, hNonempty, hShort⟩,
    .string ⟨putBe32 (UInt32.ofNat value.length), value, rfl, hLen⟩⟩, hOut, ?_⟩
  rw [RawField.read, RawLabel.read, RawValue.read, hPlain hName, hPlain hValue]

end Write

-- ---------------------------------------------------------------------------
-- Objects
-- ---------------------------------------------------------------------------

section Object

variable {capacity : Nat} {data out : Bytes} {fs : List StringField}

/-- The fields that have been written, with their names cut as the reader cuts them. -/
theorem writeFields_eq_some (hCapacity : capacity < 4294967296) (hFits : data.length ≤ capacity)
    (h : writeFields capacity data fs = some out) :
    out.length ≤ capacity ∧ ∃ row, out = data ++ rowBytes row ∧
      row.map RawField.read = fs.map fun f => (f.name.take 63, f.read.2) := by
  induction fs generalizing data with
  | nil =>
    obtain rfl := Option.some.inj h
    exact ⟨hFits, [], (List.append_nil data).symm, rfl⟩
  | cons f fs ih =>
    rw [writeFields, List.foldlM_cons] at h
    obtain ⟨mid, hField, hRest⟩ := Option.bind_eq_some_iff.1 h
    obtain ⟨hMid, g, rfl, hRead⟩ :=
      writeStringField_eq_some hCapacity f.name_plain f.value_plain hField
    obtain ⟨hOut, row, rfl, hRow⟩ := ih hMid hRest
    refine ⟨hOut, g :: row, ?_, ?_⟩
    · rw [rowBytes_cons, RawField.bytes, List.append_assoc, List.append_assoc]
    · rw [List.map_cons, List.map_cons, hRead, hRow, StringField.read]

/-- No name is so long that the cut makes a difference. -/
theorem fieldOf_cut (name : Bytes) (v : OpackValue) :
    fieldOf (name.take 63, v) = fieldOf (name, v) :=
  fieldOf_congr (fun f known hMem =>
    take_eq_iff (Nat.lt_trans (heard_short f known hMem) (by decide))) v

theorem eventOf_cut (fs : List StringField) :
    eventOf (fs.map fun f => (f.name.take 63, f.read.2)) = eventOf (fs.map StringField.read) := by
  have hField (e : MediaEvent) (f : StringField) :
      applyField e (f.name.take 63, f.read.2) = applyField e f.read := by
    rw [applyField, applyField, applyField_eq, applyField_eq, fieldOf_cut]
    rfl
  rw [← foldl_applyField, ← foldl_applyField, List.foldl_map, List.foldl_map]
  simp only [hField]

theorem isSome_cut (fs : List StringField) {row : List RawField}
    (hRow : row.map RawField.read = fs.map fun f => (f.name.take 63, f.read.2)) :
    (∃ f ∈ row, Known f) ↔ fs.any (fun f => (fieldOf f.read).isSome) = true := by
  have hRead : (∃ f ∈ row, Known f) ↔ ∃ x ∈ row.map RawField.read, (fieldOf x).isSome := by
    simp [Known]
  rw [hRead, hRow, List.any_eq_true]
  simp only [List.mem_map, exists_exists_and_eq_and, fieldOf_cut]
  rfl

/-- **An object of string fields** is read back. -/
theorem parse_wrapFields (hCapacity : capacity < 4294967296)
    (h : wrapFields capacity fs = some out) :
    out.length ≤ capacity ∧ miplayParseMediaInfoEx (fun _ => true) out =
      if fs.any (fun f => (fieldOf f.read).isSome) then some (eventOf (fs.map StringField.read))
      else none := by
  rw [wrapFields] at h
  by_cases hSmall : capacity < 32
  · rw [if_pos hSmall] at h
    cases h
  rw [if_neg hSmall] at h
  obtain ⟨data, hLabel, h⟩ := Option.bind_eq_some_iff.1 h
  by_cases hLong : data.length > capacity - 1 - 4
  · rw [if_pos hLong] at h
    cases h
  rw [if_neg hLong] at h
  obtain ⟨written, hFields, h⟩ := Option.bind_eq_some_iff.1 h
  obtain ⟨hNonempty, hShort, rfl⟩ := writeLabel_eq_some hLabel
  rw [List.nil_append] at hFields h hLong
  obtain ⟨hFits, row, rfl, hRow⟩ := writeFields_eq_some hCapacity (by
    rw [List.length_append]
    show _ + 5 ≤ _
    omega) hFields
  rw [List.drop_left] at h
  have hOut := (Option.some.inj h).symm
  have hFour : (putBe32 (UInt32.ofNat (rowBytes row).length)).length = 4 := rfl
  rw [List.length_append, List.length_append] at hFits
  have hSize : (UInt32.ofNat (rowBytes row).length).toNat = (rowBytes row).length := by
    rw [UInt32.toNat_ofNat', Nat.mod_eq_of_lt (by omega)]
  have hLen : opackU32Be (putBe32 (UInt32.ofNat (rowBytes row).length)) =
      (rowBytes row).length := by
    have hWord := opackU32Be_putBe32 (UInt32.ofNat (rowBytes row).length) []
    rwa [List.append_nil, hSize] at hWord
  have hRoot : cstr ((ascii "mediaInfoEx").take 31) = ascii "mediaInfoEx" := by decide +kernel
  have hForm : IsInfoEx out row := by
    refine ⟨⟨_, hNonempty, hShort⟩, ⟨_, rowBytes row, hFour, hLen⟩, [], ?_, hRoot, rfl⟩
    rw [hOut, List.append_nil]
    simp [RawLabel.bytes, Sized.bytes]
  refine ⟨?_, ?_⟩
  · rw [hOut, List.length_append, List.length_append, List.length_cons, hFour]
    have hFive : [(0x16 : UInt8), 0, 0, 0, 0].length = 5 := rfl
    omega
  · rw [infoEx_of_row hForm rfl rfl, hRow, eventOf_cut]
    have hChanged := rowEvent_changed row
    rw [hRow, eventOf_cut, isSome_cut fs hRow] at hChanged
    simp only [hChanged]

/-- `mTitle: ""` -/
def emptyTitle : StringField where
  name := ascii "mTitle"
  value := []
  name_plain := by decide
  value_plain := by decide

/-- What `miplay_build_media_info_ex` writes is such an object. -/
theorem miplayBuildMediaInfoEx_eq (hCapacity : capacity < 4294967296) :
    miplayBuildMediaInfoEx capacity = wrapFields capacity [emptyTitle] := by
  rw [miplayBuildMediaInfoEx, wrapFields]
  by_cases hSmall : capacity < 32
  · rw [if_pos hSmall, if_pos hSmall, Option.bind_eq_bind, Option.bind_none, Option.bind_eq_bind,
      Option.bind_none]
  have hRoot : (ascii "mediaInfoEx").length = 11 := rfl
  have hTitle : (ascii "mTitle").length = 6 := rfl
  have hLabel : opackWriteLabel capacity [] (ascii "mediaInfoEx") =
      some ([] ++ opackLabel (ascii "mediaInfoEx")) :=
    writeLabel_fits hCapacity (by decide) (by decide)
      (by simp only [List.length_nil, hRoot]; omega)
  have hLen : ([] ++ opackLabel (ascii "mediaInfoEx")).length = 12 := rfl
  have hRoom : ([] : Bytes).length + 1 + (ascii "mTitle").length + 5 + ([] : Bytes).length ≤
      capacity - 12 - 5 := by
    simp only [List.length_nil, hTitle]
    omega
  have hAlone := writeStringField_fits (by omega) (by decide) (by decide) hRoom
  have hMore : ([] ++ opackLabel (ascii "mediaInfoEx") ++ [0x16, 0, 0, 0, 0]).length + 1 +
      (ascii "mTitle").length + 5 + ([] : Bytes).length ≤ capacity := by
    rw [List.length_append, hLen]
    simp only [List.length_nil, List.length_cons, hTitle]
    omega
  have hBehind := writeStringField_fits hCapacity (by decide) (by decide) hMore
  have hFields (data : Bytes) : writeFields capacity data [emptyTitle] =
      opackWriteStringField capacity data (ascii "mTitle") [] := by
    rw [writeFields, List.foldlM_cons]
    exact bind_pure _
  have hRoom : ¬12 > capacity - 1 - 4 := by omega
  rw [if_neg hSmall, if_neg hSmall]
  simp only [Option.bind_eq_bind, Option.bind_some, hLabel, hLen, hFields]
  rw [if_neg hRoom, if_neg hRoom, hAlone, hBehind]
  have hDrop (start object : Bytes) : (start ++ ([0x16, 0, 0, 0, 0] ++ object)).drop
      (start ++ [0x16, 0, 0, 0, 0]).length = object := by
    rw [← List.append_assoc, List.drop_left]
  simp only [Option.bind_some, List.append_assoc, List.nil_append, hDrop]

end Object

/-- **Every buffer, every name and value.** The writers keep to the buffer exactly unless a
label that can be written meets a full one. -/
theorem opackWrites_iff (b : WriteBuffer) (name value : Bytes) :
    OpackWrites b name value ↔
      ¬(b.written.length = b.capacity.toNat ∧ 1 ≤ name.length ∧ name.length ≤ 255) := by
  have hCapacity := b.capacity.toNat_lt
  have hFits := b.fits
  constructor
  · rintro hWrites ⟨hFull, hNonempty, hShort⟩
    obtain ⟨-, hInside⟩ := hWrites.label _ (writeLabel_full hFull hNonempty hShort)
    rw [List.length_append, opackLabel, List.length_cons] at hInside
    omega
  · intro hRoom
    refine ⟨fun out hOut => ?_, fun out hOut => ?_, fun fs out hOut => ?_⟩
    · obtain ⟨hNonempty, hShort, hForm⟩ := writeLabel_eq_some hOut
      have hPos := List.length_pos_iff.2 hNonempty
      refine ⟨⟨_, hForm.symm⟩, writeLabel_inside hCapacity ?_ hOut⟩
      refine Nat.lt_of_le_of_ne hFits fun hFull => hRoom ⟨hFull, hPos, hShort⟩
    · obtain ⟨-, -, hInside, hForm⟩ := writeStringField_form hOut
      exact ⟨⟨_, hForm.symm⟩, hInside⟩
    · exact parse_wrapFields hCapacity hOut

/-- A full buffer of four bytes. -/
def fullBuffer : WriteBuffer where
  capacity := 4
  written := [0, 0, 0, 0]
  fits := by decide

/-- A label of one character is written behind it. -/
theorem label_behind_buffer : ¬∀ b name value, OpackWrites b name value := by
  intro hAll
  obtain ⟨-, hInside⟩ := (hAll fullBuffer (ascii "a") []).label _ rfl
  exact absurd hInside (by decide)

end EspMiplay.Miplay
