import EspMiplay.Wifi.ScanReply

/-!
# The list of networks, read

What `http_handle_scan` sends is a JSON array of as many networks as were begun, if each of
them was written to its end. An entry that does not fit is left without its end, in the middle
of a string; and a control character in a name goes into the string as it is.

`Roomy` and `Sound` follow the entries as long as they are begun.

## Results

* `exists_document` — a list of names without control characters is a JSON text.
* `sound_of_walk`   — and a JSON text is no other.
* `replies_iff`     — when the reply is a list of the first networks.
* `scan_limits`     — a network too many, one with a long name, and one with a tab.
-/

namespace EspMiplay.Wifi

open EspMiplay.Miplay (Bytes ascii decimal isDigit isDigit_decimal isDigit_plain jsonNumber
  jsonNumber_ne_nil jsonNumber_plain)
open Json (Piece Spells SpellsText walk walk_append walk_cons walk_escape walk_outside walk_sign
  walk_trans)

-- ---------------------------------------------------------------------------
-- The reply
-- ---------------------------------------------------------------------------

def IsUtf8 (s : Bytes) : Prop := ∃ cs, Utf8.encode cs = s

/-- An object with the name and the strength of a network -/
def Describes (v : Json.Value) (r : ApRecord) : Prop :=
  ∃ pad members s w, v = .object pad members ∧
    members.pairs = [(ascii "ssid", .string s), (ascii "rssi", .word w)] ∧
    (∃ cs, Utf8.encode cs = r.ssid ∧ SpellsText cs (Json.spelling s)) ∧
    w.bytes = jsonNumber r.rssi.toInt

/-- An array of these networks, in their order -/
def Lists (d : Json.Document) (records : List ApRecord) : Prop :=
  ∃ pad items, d.value = .array pad items ∧ List.Forall₂ Describes items.values records

/-- The buffer is not left, and where the names are texts the first networks are listed. -/
def Replies (records : List ApRecord) : Prop :=
  ∃ reply, httpHandleScan records = .ok reply ∧
    ((∀ r ∈ records, IsUtf8 r.ssid) → ∃ n d, Json.Document.bytes d = reply ∧
      Lists d (records.take n))

def NoControl (s : Bytes) : Prop := ∀ b ∈ s, ¬b < 0x20

/-- No entry that is begun ends one byte before the end of the buffer. -/
def Roomy (before : List ApRecord) : List ApRecord → Prop
  | [] => True
  | r :: rest => (listText before).length + 80 < capacity →
      (listText (before ++ [r])).length + 1 ≠ capacity ∧
        ((listText (before ++ [r])).length < capacity → Roomy (before ++ [r]) rest)

/-- Each entry that is begun fits, and has no control character. -/
def Sound (before : List ApRecord) : List ApRecord → Prop
  | [] => True
  | r :: rest => (listText before).length + 80 < capacity →
      (listText (before ++ [r])).length + 1 < capacity ∧ NoControl r.ssid ∧
        Sound (before ++ [r]) rest

-- ---------------------------------------------------------------------------
-- A text of JSON
-- ---------------------------------------------------------------------------

section Text

variable {s : Bytes} {c : Char} {cs : List Char} {r : ApRecord} {records : List ApRecord}

/-- The names between the quotes -/
theorem exists_pieces (h : NoControl s) : ∃ ps, Json.spelling ps = escaped s := by
  induction s with
  | nil => exact ⟨[], rfl⟩
  | cons b s ih =>
    obtain ⟨hFirst, hRest⟩ := List.forall_mem_cons.1 h
    obtain ⟨ps, hPieces⟩ := ih hRest
    rw [escaped, List.flatMap_cons, ← escaped, ← hPieces]
    by_cases hEscape : b = 0x22 ∨ b = 0x5C
    · have hLetter : b ∈ Json.shortEscapes.map Prod.fst := by
        obtain rfl | rfl := hEscape <;> decide
      exact ⟨.short b hLetter :: ps, by rw [if_pos hEscape]; rfl⟩
    · obtain ⟨hQuote, hSlash⟩ := not_or.1 hEscape
      exact ⟨.plain b ⟨UInt8.not_lt.1 hFirst, hQuote, hSlash⟩ :: ps, by rw [if_neg hEscape]; rfl⟩

theorem escaped_append (s t : Bytes) : escaped (s ++ t) = escaped s ++ escaped t :=
  List.flatMap_append

theorem escaped_plain (h : ∀ b ∈ s, b ≠ 0x22 ∧ b ≠ 0x5C) : escaped s = s := by
  induction s with
  | nil => rfl
  | cons b s ih =>
    obtain ⟨⟨hQuote, hSlash⟩, hRest⟩ := List.forall_mem_cons.1 h
    rw [escaped, List.flatMap_cons, if_neg (not_or.2 ⟨hQuote, hSlash⟩), ← escaped, ih hRest]
    rfl

/-- A character with its backslash, or as it is. -/
theorem spells_escaped (h : NoControl (String.utf8EncodeChar c)) :
    Spells c (escaped (String.utf8EncodeChar c)) := by
  have hAscii {n : Nat} (hChar : c.toNat = n) (hSmall : n < 0x80) :
      ∃ b : UInt8, String.utf8EncodeChar c = [b] ∧ b.toNat = n := by
    obtain ⟨b, hBytes, hByte⟩ := Utf8.encodeChar_one (hChar.trans_lt hSmall)
    exact ⟨b, hBytes, hByte.trans hChar⟩
  have hShort (letter : UInt8) (hMem : (letter, letter) ∈ Json.shortEscapes)
      (hChar : c.toNat = letter.toNat) (hSmall : letter.toNat < 0x80)
      (hEscape : letter = 0x22 ∨ letter = 0x5C) :
      Spells c (escaped (String.utf8EncodeChar c)) := by
    obtain ⟨b, hBytes, hByte⟩ := hAscii hChar hSmall
    obtain rfl := UInt8.toNat_inj.1 hByte
    have hSame : c = Char.ofNat b.toNat := by rw [← hChar, Char.ofNat_toNat]
    have hSpells := Spells.short hMem
    rw [← hSame] at hSpells
    rw [hBytes, escaped, List.flatMap_cons, if_pos hEscape]
    exact hSpells
  by_cases hQuote : c.toNat = 0x22
  · exact hShort 0x22 (by decide) hQuote (by decide) (.inl rfl)
  by_cases hSlash : c.toNat = 0x5C
  · exact hShort 0x5C (by decide) hSlash (by decide) (.inr rfl)
  have hControl : 0x20 ≤ c.toNat := by
    by_contra hLow
    obtain ⟨b, hBytes, hByte⟩ := hAscii (n := c.toNat) rfl (by omega)
    rw [hBytes] at h
    refine h b (List.mem_singleton_self b) (UInt8.lt_iff_toNat_lt.2 ?_)
    rw [hByte]
    exact Nat.lt_of_not_le hLow
  rw [escaped_plain fun b hMem => (Json.raw_plain hControl hQuote hSlash b hMem).2]
  exact .raw hControl hQuote hSlash

theorem spellsText_escaped (h : NoControl (Utf8.encode cs)) :
    SpellsText cs (escaped (Utf8.encode cs)) := by
  induction cs with
  | nil => exact .nil
  | cons c cs ih =>
    rw [Utf8.encode_cons] at h ⊢
    rw [escaped_append]
    exact .cons (spells_escaped fun b hMem => h b (List.mem_append_left _ hMem))
      (ih fun b hMem => h b (List.mem_append_right _ hMem))

theorem wordByte_jsonNumber {n : Int} : ∀ b ∈ jsonNumber n, Json.wordByte b := by
  have hDigits : ∀ b ∈ decimal n.natAbs, Json.wordByte b := by
    intro b hMem
    have hDigit := isDigit_decimal hMem
    simp only [isDigit, decide_eq_true_eq] at hDigit
    simp only [Json.wordByte, decide_eq_true_eq]
    exact .inl hDigit
  intro b hMem
  rw [jsonNumber] at hMem
  split_ifs at hMem
  · obtain rfl | hMem := List.mem_cons.1 hMem
    · decide
    · exact hDigits b hMem
  · exact hDigits b hMem

/-- An entry without the comma -/
def plainEntry (r : ApRecord) : Bytes := opening ++ (escaped r.ssid ++ closing r.rssi)

/-- An entry is an object. -/
theorem exists_object (hUtf8 : IsUtf8 r.ssid) (h : NoControl r.ssid) :
    ∃ v : Json.Value, v.bytes = plainEntry r ∧ Describes v r := by
  obtain ⟨cs, hText⟩ := hUtf8
  obtain ⟨name, hName⟩ := exists_pieces h
  obtain ⟨ssid, hSsid⟩ := exists_pieces (s := ascii "ssid") (by unfold NoControl; decide +kernel)
  obtain ⟨rssi, hRssi⟩ := exists_pieces (s := ascii "rssi") (by unfold NoControl; decide +kernel)
  have hSsid : Json.spelling ssid = ascii "ssid" := hSsid.trans (escaped_plain (by decide +kernel))
  have hRssi : Json.spelling rssi = ascii "rssi" := hRssi.trans (escaped_plain (by decide +kernel))
  let none : Json.Blanks := ⟨[], List.forall_mem_nil _⟩
  let number : Json.Word := ⟨_, jsonNumber_ne_nil r.rssi.toInt, wordByte_jsonNumber⟩
  refine ⟨.object none (.cons none ssid none none (.string name) none
    (.cons none rssi none none (.word number) none .nil)), ?_, none, _, name, number, rfl, ?_,
    ⟨cs, hText, ?_⟩, rfl⟩
  · simp only [Json.Value.bytes, Json.Members.bytes, Json.quoted, hSsid, hRssi, hName,
      List.append_assoc, none, number, List.nil_append, List.drop_one, List.tail_cons,
      List.append_nil, List.cons_append, plainEntry, closing]
    rfl
  · simp only [Json.Members.pairs, hSsid, hRssi]
  · rw [hName, ← hText]
    exact spellsText_escaped (by rw [hText]; exact h)

/-- The entries with a comma in front of each -/
theorem exists_items (hUtf8 : ∀ r ∈ records, IsUtf8 r.ssid)
    (h : ∀ r ∈ records, NoControl r.ssid) :
    ∃ items : Json.Items, items.bytes = records.flatMap (fun r => 0x2C :: plainEntry r) ∧
      List.Forall₂ Describes items.values records := by
  induction records with
  | nil => exact ⟨.nil, rfl, .nil⟩
  | cons r records ih =>
    obtain ⟨hUtf8First, hUtf8Rest⟩ := List.forall_mem_cons.1 hUtf8
    obtain ⟨hFirst, hRest⟩ := List.forall_mem_cons.1 h
    obtain ⟨v, hBytes, hDescribes⟩ := exists_object hUtf8First hFirst
    obtain ⟨more, hMore, hAll⟩ := ih hUtf8Rest hRest
    -- the writer puts no blanks anywhere
    let none : Json.Blanks := ⟨[], List.forall_mem_nil _⟩
    refine ⟨.cons none v none more, ?_, .cons hDescribes hAll⟩
    simp only [Json.Items.bytes, none, List.nil_append, List.append_nil, hBytes, hMore,
      List.flatMap_cons, List.cons_append]

theorem entriesText_later {before : List ApRecord} (hBefore : before ≠ [])
    (records : List ApRecord) :
    entriesText before records = records.flatMap (fun r => 0x2C :: plainEntry r) := by
  induction records generalizing before with
  | nil => rfl
  | cons r records ih =>
    rw [entriesText, ih (List.append_ne_nil_of_right_ne_nil _ (List.cons_ne_nil r [])), entryText,
      entryStart, if_neg hBefore, List.flatMap_cons, plainEntry]
    simp only [List.append_assoc, List.cons_append, List.nil_append]

theorem entriesText_first (records : List ApRecord) :
    entriesText [] records = (records.flatMap fun r => 0x2C :: plainEntry r).drop 1 := by
  cases records with
  | nil => rfl
  | cons r records =>
    rw [entriesText, List.nil_append, entriesText_later (List.cons_ne_nil r []), entryText,
      entryStart, if_pos rfl, List.flatMap_cons, plainEntry]
    simp only [List.append_assoc, List.cons_append, List.nil_append, List.drop_one,
      List.tail_cons]

/-- **A list** of names without control characters is a JSON text. -/
theorem exists_document (hUtf8 : ∀ r ∈ records, IsUtf8 r.ssid)
    (h : ∀ r ∈ records, NoControl r.ssid) :
    ∃ d, Json.Document.bytes d = listText records ++ [0x5D] ∧ Lists d records := by
  obtain ⟨items, hBytes, hValues⟩ := exists_items hUtf8 h
  let none : Json.Blanks := ⟨[], List.forall_mem_nil _⟩
  refine ⟨⟨none, .array none items, none⟩, ?_, none, items, rfl, hValues⟩
  simp only [Json.Document.bytes, Json.Value.bytes, none, List.nil_append, List.append_nil,
    hBytes, listText, entriesText_first, List.cons_append]

end Text

-- ---------------------------------------------------------------------------
-- A text that is none
-- ---------------------------------------------------------------------------

section Walk

variable {s p : Bytes} {before rest records : List ApRecord} {r : ApRecord}

theorem walk_escaped (h : NoControl s) : walk .inside (escaped s) = some .inside := by
  obtain ⟨ps, hPieces⟩ := exists_pieces h
  rw [← hPieces, Json.walk_spelling]

/-- A control character ends the walk. -/
theorem noControl_of_walk (h : walk .inside (escaped s) ≠ none) : NoControl s := by
  induction s with
  | nil => exact List.forall_mem_nil _
  | cons b s ih =>
    rw [escaped, List.flatMap_cons, ← escaped] at h
    by_cases hEscape : b = 0x22 ∨ b = 0x5C
    -- a quote or a backslash stands behind a backslash, and is no control character
    · have hFirst : ¬b < 0x20 := by
        obtain rfl | rfl := hEscape <;> decide
      rw [if_pos hEscape, List.cons_append, List.singleton_append, walk_escape hFirst] at h
      exact List.forall_mem_cons.2 ⟨hFirst, ih h⟩
    · obtain ⟨hQuote, hSlash⟩ := not_or.1 hEscape
      rw [if_neg hEscape, List.singleton_append, walk_cons, Json.Place.step] at h
      split_ifs at h with hFirst
      · exact absurd rfl h
      · exact List.forall_mem_cons.2 ⟨hFirst, ih h⟩

theorem walk_entryStart_eq (before : List ApRecord) (r : ApRecord) :
    walk .outside (entryStart before r) = walk .inside (escaped r.ssid) := by
  have hOpening : walk .outside opening = some .inside := by decide
  have hComma : walk .outside (if before = [] then [] else [0x2C]) = some .outside := by
    split_ifs <;> rfl
  rw [entryStart, walk_trans hComma, walk_trans hOpening]

theorem walk_closing (rssi : Int8) : walk .inside (closing rssi) = some .outside := by
  have hStart : walk .inside (ascii "\",\"rssi\":") = some .outside := by decide
  have hNumber : walk .outside (jsonNumber rssi.toInt) = some .outside :=
    walk_outside fun b hMem => (jsonNumber_plain hMem).2.1
  rw [closing, walk_trans hStart, walk_trans hNumber]
  rfl

theorem walk_listText (h : ∀ r ∈ records, NoControl r.ssid) :
    walk .outside (listText records) = some .outside := by
  induction records using List.reverseRecOn with
  | nil => rfl
  | append_singleton records r ih =>
    obtain ⟨hRecords, hLast⟩ := List.forall_mem_append.1 h
    have hName := walk_escaped (hLast r (List.mem_singleton_self r))
    rw [listText_snoc, walk_trans (ih hRecords), walk_append, walk_entryStart_eq, hName,
      Option.bind_some, walk_closing]

theorem listText_written (before rest : List ApRecord) :
    listText before <+: written before rest := by
  induction rest generalizing before with
  | nil => exact List.prefix_refl _
  | cons r rest ih =>
    rw [written]
    split_ifs
    · refine List.IsPrefix.trans ?_ (ih _)
      rw [listText_snoc]
      exact List.prefix_append _ _
    · exact List.prefix_append _ _
    · exact List.prefix_refl _

/-- An entry that is begun is there up to the end of its name. -/
theorem entryStart_written (r : ApRecord) (rest : List ApRecord)
    (hBegun : (listText before).length + 80 < capacity) :
    listText before ++ entryStart before r <+: written before (r :: rest) := by
  rw [written, if_pos hBegun]
  split_ifs
  · refine List.IsPrefix.trans ?_ (listText_written _ _)
    rw [listText_snoc, ← List.append_assoc]
    exact List.prefix_append _ _
  · exact List.prefix_refl _

/-- **A JSON text** has no entry without its end, and no control character in a name. -/
theorem sound_of_walk (hBefore : ∀ r ∈ before, NoControl r.ssid) (hRoomy : Roomy before rest)
    (h : walk .outside (written before rest ++ [0x5D]) = some .outside) : Sound before rest := by
  induction rest generalizing before with
  | nil => trivial
  | cons r rest ih =>
    intro hBegun
    obtain ⟨hExact, hNext⟩ := hRoomy hBegun
    have hName : NoControl r.ssid := by
      obtain ⟨behind, hBehind⟩ := entryStart_written r rest hBegun
      rw [← hBehind, List.append_assoc, List.append_assoc, walk_trans (walk_listText hBefore),
        walk_append, walk_entryStart_eq] at h
      refine noControl_of_walk fun hNone => ?_
      rw [hNone] at h
      cases h
    rw [written, if_pos hBegun] at h
    by_cases hFits : (listText (before ++ [r])).length < capacity
    · rw [if_pos hFits] at h
      refine ⟨by omega, hName, ih ?_ (hNext hFits) h⟩
      exact List.forall_mem_append.2 ⟨hBefore, List.forall_mem_singleton.2 hName⟩
    · -- the bracket is in the string
      rw [if_neg hFits, List.append_assoc, walk_trans (walk_listText hBefore), walk_append,
        walk_entryStart_eq, walk_escaped hName] at h
      cases h

end Walk

-- ---------------------------------------------------------------------------
-- When the reply is the list
-- ---------------------------------------------------------------------------

section Main

variable {before rest records : List ApRecord}

theorem roomy_iff (hBefore : (listText before).length + 1 < capacity) :
    Roomy before rest ↔ (written before rest).length + 1 < capacity := by
  induction rest generalizing before with
  | nil => exact iff_of_true trivial hBefore
  | cons r rest ih =>
    have hStart := length_entryStart_le before r
    rw [Roomy, written]
    by_cases hBegun : (listText before).length + 80 < capacity
    · rw [if_pos hBegun]
      by_cases hFits : (listText (before ++ [r])).length < capacity
      · rw [if_pos hFits]
        by_cases hExact : (listText (before ++ [r])).length + 1 = capacity
        · -- the last entry, and the bracket takes the last byte
          have hPrefix := (listText_written (before ++ [r]) rest).length_le
          exact iff_of_false (fun h => (h hBegun).1 hExact) (by omega)
        · rw [← ih (by omega)]
          exact ⟨fun h => (h hBegun).2 hFits, fun h _ => ⟨hExact, fun _ => h⟩⟩
      · rw [if_neg hFits, List.length_append]
        exact iff_of_true (fun _ => ⟨by omega, fun h => absurd h hFits⟩) (by omega)
    · rw [if_neg hBegun]
      exact iff_of_true (fun h => absurd h hBegun) hBefore

/-- Where each entry that is begun is sound, it is a list of the first ones. -/
theorem exists_take (h : Sound before rest) : ∃ n, written before rest =
    listText (before ++ rest.take n) ∧ ∀ r ∈ rest.take n, NoControl r.ssid := by
  induction rest generalizing before with
  | nil => exact ⟨0, by rw [List.take_nil, List.append_nil]; rfl, List.forall_mem_nil _⟩
  | cons r rest ih =>
    rw [written]
    by_cases hBegun : (listText before).length + 80 < capacity
    · obtain ⟨hFits, hName, hRest⟩ := h hBegun
      obtain ⟨n, hWritten, hNames⟩ := ih hRest
      rw [if_pos hBegun, if_pos (by omega), hWritten, List.append_assoc, List.singleton_append]
      exact ⟨n + 1, rfl, List.forall_mem_cons.2 ⟨hName, hNames⟩⟩
    · rw [if_neg hBegun]
      exact ⟨0, by rw [List.take_zero, List.append_nil], List.forall_mem_nil _⟩

theorem roomy_of_replies (h : Replies records) : Roomy [] records := by
  obtain ⟨reply, hReply, -⟩ := h
  rw [httpHandleScan_eq] at hReply
  split_ifs at hReply with hRoom
  exact (roomy_iff (by decide)).2 hRoom

theorem sound_of_replies (h : Replies records) (hUtf8 : ∀ r ∈ records, IsUtf8 r.ssid) :
    Sound [] records := by
  have hRoomy := roomy_of_replies h
  obtain ⟨reply, hReply, hDocument⟩ := h
  obtain ⟨n, d, hBytes, -⟩ := hDocument hUtf8
  rw [httpHandleScan_eq, if_pos ((roomy_iff (by decide)).1 hRoomy)] at hReply
  have hWalk := d.walk_bytes
  rw [hBytes, ← Except.ok.inj hReply] at hWalk
  exact sound_of_walk (List.forall_mem_nil _) hRoomy hWalk

/-- **The reply to a scan** is a list of the first networks exactly when no entry leaves the
buffer without room, and, for names that are texts, each entry that is begun fits and has no
control character. -/
theorem replies_iff (records : List ApRecord) : Replies records ↔
    Roomy [] records ∧ ((∀ r ∈ records, IsUtf8 r.ssid) → Sound [] records) := by
  refine ⟨fun h => ⟨roomy_of_replies h, sound_of_replies h⟩, fun ⟨hRoomy, hSound⟩ => ?_⟩
  refine ⟨_, (httpHandleScan_eq records).trans (if_pos ((roomy_iff (by decide)).1 hRoomy)),
    fun hUtf8 => ?_⟩
  obtain ⟨n, hWritten, hNames⟩ := exists_take (hSound hUtf8)
  obtain ⟨d, hBytes, hLists⟩ := exists_document
    (fun r hMem => hUtf8 r (List.mem_of_mem_take hMem)) hNames
  rw [List.nil_append] at hWritten
  exact ⟨n, d, by rw [hBytes, hWritten], hLists⟩

/-- A network by the length of its name -/
def lettersNetwork (n : Fin 33) : ApRecord where
  ssid := List.replicate n 0x61
  rssi := -45
  size := by
    rw [List.length_replicate]
    omega
  noNul h := by cases List.eq_of_mem_replicate h

/-- One with quotes in its name -/
def quotesNetwork : ApRecord where
  ssid := List.replicate 25 0x22 ++ List.replicate 7 0x61
  rssi := -45
  size := by decide
  noNul := by decide

def tabNetwork : ApRecord where
  ssid := ascii "tab\there"
  rssi := -45
  size := by decide
  noNul := by decide

/-- 35 names of 32 letters, one of 19, and the one with quotes -/
def crowd : List ApRecord :=
  List.replicate 35 (lettersNetwork 32) ++ [lettersNetwork 19, quotesNetwork]

/-- One more name of 32 letters, and 1 dB -/
def largerCrowd : List ApRecord :=
  List.replicate 35 (lettersNetwork 32) ++ [lettersNetwork 19, { quotesNetwork with rssi := -100 }]

theorem isUtf8_ascii {s : Bytes} (h : ∀ b ∈ s, b < 0x80) : IsUtf8 s := by
  induction s with
  | nil => exact ⟨[], rfl⟩
  | cons b s ih =>
    obtain ⟨hFirst, hRest⟩ := List.forall_mem_cons.1 h
    obtain ⟨cs, hText⟩ := ih hRest
    have hSmall : b.toNat < 0x80 := UInt8.lt_iff_toNat_lt.1 hFirst
    have hValid : b.toNat.isValidChar := .inl (by omega)
    have hChar : (Char.ofNat b.toNat).toNat = b.toNat := by
      rw [Char.ofNat, dif_pos hValid]
      rfl
    obtain ⟨c, hBytes, hByte⟩ := Utf8.encodeChar_one (hChar.trans_lt hSmall)
    obtain rfl := UInt8.toNat_inj.1 (hByte.trans hChar)
    exact ⟨Char.ofNat c.toNat :: cs, by rw [Utf8.encode_cons, hBytes, hText]; rfl⟩

/-- **Three replies** that are not the list: a NUL behind the buffer, an entry without its end,
and a tab in a string. -/
theorem scan_limits : ¬Replies crowd ∧ ¬Replies largerCrowd ∧ ¬Replies [tabNetwork] := by
  refine ⟨fun h => ?_, fun h => ?_, fun h => ?_⟩
  · have hRoom := (roomy_iff (by decide)).1 (roomy_of_replies h)
    have hFull : (written [] crowd).length + 1 = capacity := by decide +kernel
    omega
  · have hUtf8 : ∀ r ∈ largerCrowd, IsUtf8 r.ssid := by
      have hAscii : ∀ r ∈ largerCrowd, ∀ b ∈ r.ssid, b < 0x80 := by decide +kernel
      exact fun r hMem => isUtf8_ascii (hAscii r hMem)
    obtain ⟨n, hWritten, hNames⟩ := exists_take (sound_of_replies h hUtf8)
    have hList : walk .outside (listText (largerCrowd.take n)) = some .outside :=
      walk_listText hNames
    have hInside : walk .outside (written [] largerCrowd) = some .inside := by decide +kernel
    rw [List.nil_append] at hWritten
    rw [← hWritten, hInside] at hList
    cases hList
  · have hUtf8 : ∀ r ∈ [tabNetwork], IsUtf8 r.ssid :=
      List.forall_mem_singleton.2 (isUtf8_ascii (by decide +kernel))
    obtain ⟨-, hName, -⟩ := sound_of_replies h hUtf8 (by decide)
    exact hName 0x09 (by decide) (by decide)

end Main

end EspMiplay.Wifi
