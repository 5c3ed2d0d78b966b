import EspMiplay.Lib.JsonWalk
import EspMiplay.Miplay.JsonForm
import EspMiplay.Miplay.TextBounds
import EspMiplay.Miplay.TsLocal

/-!
# The list of networks

`http_handle_scan` writes the networks that were found into a buffer of 2048 bytes as a JSON
array. An entry is begun while there are more than 80 bytes left; with the name escaped it may
need more than that, and the closing bracket and the NUL behind it are written without a look
at the room.

`listText` is what the list of some networks is, and it is written entry by entry.

## Results

* `httpHandleScan_eq` — what is in the buffer, or the NUL behind its end.
-/

namespace EspMiplay.Wifi

open EspMiplay.Miplay (Bytes Access ascii cstr cstr_append_zero cstr_eq_self jsonNumber
  jsonNumber_plain writeSpan)

-- ---------------------------------------------------------------------------
-- The handler
-- ---------------------------------------------------------------------------

/-- `wifi_ap_record_t` -/
structure ApRecord where
  ssid : Bytes
  rssi : Int8
  size : ssid.length ≤ 32
  noNul : 0 ∉ ssid

def capacity : Nat := 2048

/-- `snprintf` into what is left of the buffer -/
def snprintfAt (buf : Bytes) (used : Nat) (text : Bytes) : Access Bytes :=
  if capacity - used = 0 then .ok buf
  else writeSpan buf used (text.take (capacity - used - 1) ++ [0])

/-- The loop of `json_append_string` -/
def appendChars : Bytes → Bytes → Nat → Access (Bytes × Nat)
  | [], buf, used => return (← writeSpan buf used [0], used)
  | c :: src, buf, used =>
    if used + 1 < capacity then do
      if (c = 0x22 ∨ c = 0x5C) ∧ used + 2 < capacity then
        let buf ← writeSpan buf used [0x5C]
        let buf ← writeSpan buf (used + 1) [c]
        appendChars src buf (used + 2)
      else
        let buf ← writeSpan buf used [c]
        appendChars src buf (used + 1)
    else return (← writeSpan buf used [0], used)

def jsonAppendString (buf : Bytes) (used : Nat) (src : Bytes) : Access (Bytes × Nat) :=
  if capacity ≤ used then .ok (buf, used) else appendChars src buf used

def opening : Bytes := ascii "\x7b\"ssid\":\""

def closing (rssi : Int8) : Bytes := ascii "\",\"rssi\":" ++ (jsonNumber rssi.toInt ++ ascii "\x7d")

/-- `if (i) json[used++] = ','` -/
def commaAt (i : Nat) (buf : Bytes) (used : Nat) : Access (Bytes × Nat) :=
  if i = 0 then .ok (buf, used) else return (← writeSpan buf used [0x2C], used + 1)

/-- The loop over the records, from the `i`-th on -/
def scanLoop (i : Nat) : List ApRecord → Bytes → Nat → Access (Bytes × Nat)
  | [], buf, used => .ok (buf, used)
  | r :: records, buf, used =>
    if used + 80 < capacity then do
      let (buf, used) ← commaAt i buf used
      let buf ← snprintfAt buf used opening
      if capacity - used ≤ opening.length then return (buf, used)
      let (buf, used) ← jsonAppendString buf (used + opening.length) r.ssid
      let buf ← snprintfAt buf used (closing r.rssi)
      if capacity - used ≤ (closing r.rssi).length then return (buf, used)
      scanLoop (i + 1) records buf (used + (closing r.rssi).length)
    else .ok (buf, used)

/-- `http_handle_scan`: the string that is sent -/
def httpHandleScan (records : List ApRecord) : Access Bytes := do
  let buf ← writeSpan (List.replicate capacity 0) 0 [0x5B]
  let (buf, used) ← scanLoop 0 records buf 1
  let buf ← writeSpan buf used [0x5D]
  let buf ← writeSpan buf (used + 1) [0]
  return cstr buf

-- ---------------------------------------------------------------------------
-- The texts
-- ---------------------------------------------------------------------------

def escaped (s : Bytes) : Bytes :=
  s.flatMap fun c => if c = 0x22 ∨ c = 0x5C then [0x5C, c] else [c]

/-- An entry as far as it is written before its end is tried -/
def entryStart (before : List ApRecord) (r : ApRecord) : Bytes :=
  (if before = [] then [] else [0x2C]) ++ (opening ++ escaped r.ssid)

def entryText (before : List ApRecord) (r : ApRecord) : Bytes :=
  entryStart before r ++ closing r.rssi

/-- The entries of `rest` behind those of `before` -/
def entriesText (before : List ApRecord) : List ApRecord → Bytes
  | [] => []
  | r :: rest => entryText before r ++ entriesText (before ++ [r]) rest

/-- The list without its closing bracket -/
def listText (records : List ApRecord) : Bytes := 0x5B :: entriesText [] records

/-- What is written of `rest` behind the list of `before` -/
def written (before : List ApRecord) : List ApRecord → Bytes
  | [] => listText before
  | r :: rest =>
    if (listText before).length + 80 < capacity then
      if (listText (before ++ [r])).length < capacity then written (before ++ [r]) rest
      else listText before ++ entryStart before r
    else listText before

section Texts

variable {before rest : List ApRecord} {r : ApRecord}

theorem entriesText_append (before first rest : List ApRecord) :
    entriesText before (first ++ rest) =
      entriesText before first ++ entriesText (before ++ first) rest := by
  induction first generalizing before with
  | nil => rw [List.nil_append, List.append_nil, entriesText, List.nil_append]
  | cons r first ih =>
    rw [List.cons_append, entriesText, ih, entriesText, List.append_assoc, List.append_assoc]
    rfl

theorem listText_snoc (before : List ApRecord) (r : ApRecord) :
    listText (before ++ [r]) = listText before ++ (entryStart before r ++ closing r.rssi) := by
  rw [listText, entriesText_append, List.nil_append, entriesText, entriesText, List.append_nil]
  rfl

theorem length_escaped_le (s : Bytes) : (escaped s).length ≤ 2 * s.length := by
  induction s with
  | nil => exact Nat.le_refl 0
  | cons c s ih =>
    rw [escaped, List.flatMap_cons, List.length_append, ← escaped, List.length_cons]
    split_ifs <;> simp only [List.length_cons, List.length_nil] <;> omega

/-- The name fits in any case: there is no entry that is not begun whole. -/
theorem length_entryStart_le (before : List ApRecord) (r : ApRecord) :
    (entryStart before r).length ≤ 74 := by
  have hName := length_escaped_le r.ssid
  have hSize := r.size
  have hOpening : opening.length = 9 := by decide
  rw [entryStart, List.length_append, List.length_append]
  split_ifs <;> simp only [List.length_cons, List.length_nil] <;> omega

theorem noNul_escaped {s : Bytes} (h : 0 ∉ s) : 0 ∉ escaped s := by
  intro hMem
  obtain ⟨c, hChar, hIn⟩ := List.mem_flatMap.1 hMem
  split_ifs at hIn
  · simp only [List.mem_cons, List.not_mem_nil, or_false] at hIn
    obtain hSlash | rfl := hIn
    · cases hSlash
    · exact h hChar
  · obtain rfl := List.mem_singleton.1 hIn
    exact h hChar

theorem closing_plain (rssi : Int8) : ∀ b ∈ closing rssi, b ≠ 0 := by
  intro b hMem
  rw [closing, List.mem_append, List.mem_append] at hMem
  have hStart : ∀ b ∈ ascii "\",\"rssi\":", b ≠ 0 := by decide +kernel
  have hEnd : ∀ b ∈ ascii "\x7d", b ≠ 0 := by decide +kernel
  obtain hMem | hMem | hMem := hMem
  · exact hStart b hMem
  · have hNumber := jsonNumber_plain hMem
    exact hNumber.2.2
  · exact hEnd b hMem

theorem noNul_entryStart (before : List ApRecord) (r : ApRecord) :
    ∀ c ∈ entryStart before r, c ≠ 0 := by
  intro c hMem
  rw [entryStart, List.mem_append, List.mem_append] at hMem
  have hOpening : ∀ b ∈ opening, b ≠ 0 := by decide +kernel
  obtain hComma | hOpen | hName := hMem
  · split_ifs at hComma
    · cases hComma
    · obtain rfl := List.mem_singleton.1 hComma
      decide
  · exact hOpening c hOpen
  · rintro rfl
    exact noNul_escaped r.noNul hName

end Texts

-- ---------------------------------------------------------------------------
-- What is in the buffer
-- ---------------------------------------------------------------------------

/-- The buffer begins with what was written. -/
def Holds (buf out : Bytes) : Prop := buf.length = capacity ∧ out <+: buf

section Buffer

variable {buf out data s : Bytes} {before rest : List ApRecord} {r : ApRecord}

theorem Holds.write (h : Holds buf out) (data : Bytes)
    (hRoom : out.length + data.length ≤ capacity) :
    ∃ after, writeSpan buf out.length data = .ok after ∧ Holds after (out ++ data) := by
  obtain ⟨hLen, behind, rfl⟩ := h
  rw [List.length_append] at hLen
  refine ⟨_, if_pos (by rw [List.length_append]; omega), ?_, ?_⟩
  · rw [List.length_append, List.length_append, List.length_take, List.length_drop,
      List.length_append]
    omega
  · rw [List.take_left]
    exact List.prefix_append _ _

theorem Holds.front (h : Holds buf (out ++ data)) : Holds buf out :=
  ⟨h.1, (List.prefix_append out data).trans h.2⟩

theorem Holds.snprintf (h : Holds buf out) (hRoom : out.length < capacity) (text : Bytes) :
    ∃ after, snprintfAt buf out.length text = .ok after ∧ Holds after out ∧
      (out.length + text.length < capacity → Holds after (out ++ text)) := by
  have hSize : (text.take (capacity - out.length - 1)).length ≤ capacity - out.length - 1 :=
    List.length_take_le _ _
  obtain ⟨after, hAfter, hHolds⟩ := h.write (text.take (capacity - out.length - 1) ++ [0])
    (by rw [List.length_append, List.length_singleton]; omega)
  refine ⟨after, ?_, hHolds.front, fun hFits => ?_⟩
  · rw [snprintfAt, if_neg (by omega), hAfter]
  · rw [List.take_of_length_le (by omega), ← List.append_assoc] at hHolds
    exact hHolds.front

theorem Holds.appendChars (h : Holds buf out)
    (hRoom : out.length + (escaped s).length + 1 < capacity) :
    ∃ after, Wifi.appendChars s buf out.length = .ok (after, (out ++ escaped s).length) ∧
      Holds after (out ++ escaped s) := by
  induction s generalizing buf out with
  | nil =>
    obtain ⟨after, hAfter, hHolds⟩ := h.write [0] (by
      rw [List.length_singleton]
      omega)
    rw [Wifi.appendChars, hAfter]
    refine ⟨after, ?_, ?_⟩
    · rw [escaped, List.flatMap_nil, List.append_nil]
      rfl
    · rw [escaped, List.flatMap_nil, List.append_nil]
      exact hHolds.front
  | cons c s ih =>
    by_cases hEscape : c = 0x22 ∨ c = 0x5C
    · have hText : escaped (c :: s) = [0x5C] ++ ([c] ++ escaped s) := by
        rw [escaped, List.flatMap_cons, if_pos hEscape]
        rfl
      rw [hText] at hRoom ⊢
      simp only [List.length_append, List.length_singleton] at hRoom
      obtain ⟨first, hFirst, hHoldsFirst⟩ := h.write [0x5C] (by
        rw [List.length_singleton]
        omega)
      obtain ⟨second, hSecond, hHoldsSecond⟩ := hHoldsFirst.write [c] (by
        rw [List.length_append, List.length_singleton, List.length_singleton]
        omega)
      obtain ⟨after, hAfter, hHolds⟩ := ih hHoldsSecond (by
        rw [List.length_append, List.length_append, List.length_singleton, List.length_singleton]
        omega)
      rw [List.length_append, List.length_singleton] at hSecond
      rw [Wifi.appendChars, if_pos (by omega), if_pos ⟨hEscape, by omega⟩, hFirst, Access.ok_bind,
        hSecond, Access.ok_bind]
      have hLen : (out ++ [0x5C] ++ [c]).length = out.length + 2 := by
        rw [List.length_append, List.length_append, List.length_singleton, List.length_singleton]
      rw [hLen, List.append_assoc, List.append_assoc] at hAfter
      rw [List.append_assoc, List.append_assoc] at hHolds
      exact ⟨after, hAfter, hHolds⟩
    · have hText : escaped (c :: s) = [c] ++ escaped s := by
        rw [escaped, List.flatMap_cons, if_neg hEscape]
        rfl
      rw [hText] at hRoom ⊢
      simp only [List.length_append, List.length_singleton] at hRoom
      obtain ⟨first, hFirst, hHoldsFirst⟩ := h.write [c] (by
        rw [List.length_singleton]
        omega)
      obtain ⟨after, hAfter, hHolds⟩ := ih hHoldsFirst (by
        rw [List.length_append, List.length_singleton]
        omega)
      rw [Wifi.appendChars, if_pos (by omega), if_neg (fun h => hEscape h.1), hFirst,
        Access.ok_bind]
      rw [List.length_append, List.length_singleton, List.append_assoc] at hAfter
      rw [List.append_assoc] at hHolds
      exact ⟨after, hAfter, hHolds⟩

/-- The start of an entry, with the comma in front of it. -/
theorem Holds.commaAt (h : Holds buf (listText before))
    (hRoom : (listText before).length + 80 < capacity) :
    ∃ after, Wifi.commaAt before.length buf (listText before).length =
        .ok (after, (listText before ++ if before = [] then [] else [0x2C]).length) ∧
      Holds after (listText before ++ if before = [] then [] else [0x2C]) := by
  by_cases hFirst : before = []
  · rw [if_pos hFirst, List.append_nil, Wifi.commaAt, if_pos (by rw [hFirst, List.length_nil])]
    exact ⟨buf, rfl, h⟩
  · obtain ⟨after, hAfter, hHolds⟩ := h.write [0x2C] (by
      rw [List.length_singleton]
      omega)
    have hLater : before.length ≠ 0 := fun hNil => hFirst (List.length_eq_zero_iff.1 hNil)
    rw [if_neg hFirst, Wifi.commaAt, if_neg hLater, hAfter]
    exact ⟨after, by rw [List.length_append]; rfl, hHolds⟩

theorem length_written (before rest : List ApRecord)
    (hRoom : (listText before).length < capacity) : (written before rest).length < capacity := by
  induction rest generalizing before with
  | nil => exact hRoom
  | cons r rest ih =>
    have hStart := length_entryStart_le before r
    rw [written]
    split_ifs with hBegun hFits
    · exact ih _ hFits
    · rw [List.length_append]
      omega
    · exact hRoom

/-- **The loop** writes the list, entry by entry. -/
theorem scanLoop_eq (h : Holds buf (listText before))
    (hRoom : (listText before).length < capacity) :
    ∃ after, scanLoop before.length rest buf (listText before).length =
      .ok (after, (written before rest).length) ∧ Holds after (written before rest) := by
  induction rest generalizing before buf with
  | nil => exact ⟨buf, rfl, h⟩
  | cons r rest ih =>
    rw [scanLoop, written]
    by_cases hBegun : (listText before).length + 80 < capacity
    · rw [if_pos hBegun, if_pos hBegun]
      have hStart := length_entryStart_le before r
      rw [entryStart, List.length_append, List.length_append] at hStart
      obtain ⟨comma, hComma, hHoldsComma⟩ := h.commaAt hBegun
      rw [hComma, Access.ok_bind]
      have hSep := @List.length_append _ (listText before)
        (if before = [] then [] else [0x2C])
      generalize hOut : listText before ++ (if before = [] then [] else [0x2C]) = out
        at hHoldsComma hSep
      obtain ⟨opened, hOpened, -, hHoldsOpened⟩ := hHoldsComma.snprintf (by omega) opening
      have hHoldsOpened := hHoldsOpened (by omega)
      have hOutLen := @List.length_append _ out opening
      simp only [hOpened, Access.ok_bind]
      rw [if_neg (by omega), jsonAppendString, if_neg (by omega), ← hOutLen]
      obtain ⟨named, hNamed, hHoldsNamed⟩ := hHoldsOpened.appendChars (s := r.ssid) (by omega)
      rw [hNamed, Access.ok_bind]
      have hText : listText before ++ entryStart before r = out ++ opening ++ escaped r.ssid := by
        rw [entryStart, ← List.append_assoc, hOut, ← List.append_assoc]
      have hWhole : listText (before ++ [r]) =
          out ++ opening ++ escaped r.ssid ++ closing r.rssi := by
        rw [listText_snoc, ← List.append_assoc, hText]
      have hNameLen := @List.length_append _ (out ++ opening) (escaped r.ssid)
      have hWholeLen := @List.length_append _ (out ++ opening ++ escaped r.ssid)
        (closing r.rssi)
      obtain ⟨closed, hClosed, hHoldsStart, hHoldsClosed⟩ :=
        hHoldsNamed.snprintf (by omega) (closing r.rssi)
      simp only [hClosed, Access.ok_bind]
      by_cases hFits : (listText (before ++ [r])).length < capacity
      · rw [hWhole] at hFits
        have hNext := @ih closed (before ++ [r])
          (by rw [hWhole]; exact hHoldsClosed (by omega)) (by rw [hWhole]; exact hFits)
        rw [List.length_append, List.length_singleton, hWhole, hWholeLen] at hNext
        rw [if_neg (by omega), if_pos (by rw [hWhole]; exact hFits)]
        exact hNext
      · rw [if_neg hFits]
        rw [hWhole] at hFits
        rw [if_pos (by omega), hText]
        exact ⟨closed, rfl, hHoldsStart⟩
    · rw [if_neg hBegun, if_neg hBegun]
      exact ⟨buf, rfl, h⟩

theorem noNul_listText (records : List ApRecord) : ∀ c ∈ listText records, c ≠ 0 := by
  have hEntries (before : List ApRecord) : ∀ c ∈ entriesText before records, c ≠ 0 := by
    induction records generalizing before with
    | nil => exact List.forall_mem_nil _
    | cons r rest ih =>
      intro c hMem
      obtain hEntry | hRest := List.mem_append.1 hMem
      · obtain hStart | hEnd := List.mem_append.1 hEntry
        · exact noNul_entryStart before r c hStart
        · exact closing_plain r.rssi c hEnd
      · exact ih _ c hRest
  exact List.forall_mem_cons.2 ⟨by decide, hEntries []⟩

theorem noNul_written (before rest : List ApRecord) : ∀ c ∈ written before rest, c ≠ 0 := by
  induction rest generalizing before with
  | nil => exact noNul_listText before
  | cons r rest ih =>
    rw [written]
    split_ifs
    · exact ih _
    · intro c hMem
      obtain hList | hStart := List.mem_append.1 hMem
      · exact noNul_listText before c hList
      · exact noNul_entryStart before r c hStart
    · exact noNul_listText before

/-- **The handler**: the list and its bracket, where the NUL behind them is in the buffer. -/
theorem httpHandleScan_eq (records : List ApRecord) : httpHandleScan records =
    if (written [] records).length + 1 < capacity then .ok (written [] records ++ [0x5D])
    else .error .writePastOut := by
  have hEmpty : Holds (List.replicate capacity 0) [] :=
    ⟨List.length_replicate, List.nil_prefix⟩
  obtain ⟨start, hStart, hHoldsStart⟩ := hEmpty.write [0x5B] (by decide)
  obtain ⟨after, hLoop, hHolds⟩ := @scanLoop_eq start [] records hHoldsStart
    (by decide)
  have hLen := length_written [] records (by decide)
  obtain ⟨closed, hClosed, hHoldsClosed⟩ := hHolds.write [0x5D] (by
    rw [List.length_singleton]
    omega)
  rw [List.length_nil] at hStart
  have hLoop : scanLoop 0 records start 1 = .ok (after, (written [] records).length) := hLoop
  simp only [httpHandleScan, hStart, hLoop, hClosed, Access.ok_bind]
  have hEnd : (written [] records ++ [0x5D]).length = (written [] records).length + 1 := by
    rw [List.length_append, List.length_singleton]
  split_ifs with hRoom
  · obtain ⟨last, hLast, -, behind, rfl⟩ := hHoldsClosed.write [0] (by
      rw [List.length_singleton, hEnd]
      omega)
    rw [hEnd] at hLast
    rw [hLast, Access.ok_bind, List.append_assoc _ [0], List.singleton_append, cstr_append_zero,
      cstr_eq_self]
    · rfl
    · exact List.forall_mem_append.2 ⟨noNul_written [] records, by decide +kernel⟩
  · have hShort := hHoldsClosed.1
    rw [writeSpan, if_neg (by rw [List.length_singleton, hShort]; omega)]
    rfl

end Buffer

end EspMiplay.Wifi
