import EspMiplay.Miplay.RtspReader

/-!
# RTSP framing

A stream of RTSP messages and interleaved frames (`RtspStream`), as `recv` cuts
it. The reader ought to return the messages, one by one, with their headers and
bodies. It goes by what is in the buffer, and so it matters where the cuts are:

- behind headers without a Content-Length, whatever does not show a message start is
  taken for a body (an interleaved frame, or a method of which the last letters
  are still to come);
- a buffer that a `recv` fills to the last byte is not looked at any more.

## Results

* `rtspFindHeaderValue_lines` — the Content-Length among the header lines.
* `callsTrack`                — the calls behind one `recv`, by induction on the stream.
* `rtspReturns_iff`           — the rest of a stream, by induction on the `recv`s.
* `returned_iff`              — the messages are returned exactly when the reader
  knows their start lines and every `recv` leaves the buffer `Legible`.
* `method_swallowed`          — a cut within a method.
-/

namespace EspMiplay.Miplay

/-! ## Messages and interleaved frames -/

/-- A character of a line. -/
def isText (c : UInt8) : Bool := c ≠ 0 ∧ c ≠ 0x0D ∧ c ≠ 0x0A

/-- The value, if the line is a Content-Length. -/
def lengthValue (line : Bytes) : Option Bytes :=
  if eqIgnoreCase (line.take 14) (ascii "Content-Length") then
    let colon := skipWhile isBlank (line.drop 14)
    if peek colon = 0x3A then some (colon.drop 1) else none
  else none

/-- The value is this number in decimal, with blanks around it. -/
def Numeral (value : Bytes) (n : Nat) : Prop :=
  (skipWhile isBlank value).takeWhile isDigit ≠ [] ∧
    ((skipWhile isBlank value).dropWhile isDigit).all isBlank ∧
    digitsVal ((skipWhile isBlank value).takeWhile isDigit) = n

instance (value : Bytes) (n : Nat) : Decidable (Numeral value n) :=
  inferInstanceAs (Decidable (_ ∧ _ ∧ _))

/-- A message: its Content-Length is that of its body, and without one there is no
body. -/
structure RtspMessage where
  startLine : Bytes
  /-- the header lines, folded ones included -/
  lines : List Bytes
  body : Bytes
  hStart : startLine ≠ [] ∧ ∀ c ∈ startLine, isText c
  hLines : ∀ line ∈ lines, line ≠ [] ∧ ∀ c ∈ line, isText c
  hLength : ∀ line ∈ lines, ∀ value ∈ lengthValue line, Numeral value body.length
  hBody : (∀ line ∈ lines, lengthValue line = none) → body = []

namespace RtspMessage

def headers (m : RtspMessage) : Bytes :=
  (m.startLine :: m.lines).flatMap (· ++ crlf) ++ crlf

def bytes (m : RtspMessage) : Bytes := m.headers ++ m.body

/-- The message has a Content-Length. -/
def Sized (m : RtspMessage) : Prop := ∃ line ∈ m.lines, lengthValue line ≠ none

instance (m : RtspMessage) : Decidable m.Sized :=
  inferInstanceAs (Decidable (∃ line ∈ m.lines, lengthValue line ≠ none))

end RtspMessage

/-- What lies behind headers without a Content-Length shows where the next message
begins: there is nothing yet, or its start. -/
def ShowsStart (t : Bytes) : Prop := t = [] ∨ rtspIsMessageStart t

instance (t : Bytes) : Decidable (ShowsStart t) := inferInstanceAs (Decidable (_ ∨ _))

/-- An interleaved frame. -/
structure InterleavedFrame where
  channel : UInt8
  payload : Bytes
  hPayload : payload.length < 65536

def InterleavedFrame.bytes (f : InterleavedFrame) : Bytes :=
  [0x24, f.channel] ++ putBe16 (UInt16.ofNat f.payload.length) ++ f.payload

inductive RtspItem where
  | message (m : RtspMessage)
  | frame (f : InterleavedFrame)

namespace RtspItem

def bytes : RtspItem → Bytes
  | message m => m.bytes
  | frame f => f.bytes

/-- What a call of `rtsp_read_msg` ought to return for it. -/
def returned : RtspItem → Option (Bytes × Bytes)
  | message m => some (m.headers, m.body)
  | frame _ => none

end RtspItem

/-! ## Lines -/

theorem ne_of_isText {c : UInt8} (h : isText c) : c ≠ 0 ∧ c ≠ 0x0D := by
  simp only [isText, decide_eq_true_eq] at h
  exact ⟨h.1, h.2.1⟩

theorem strstr_crlf_text {line : Bytes} (hLine : ∀ c ∈ line, isText c) (rest : Bytes) :
    strstr crlf (line ++ (crlf ++ rest)) = some (crlf ++ rest) := by
  rw [crlf, strstr_skip fun c hc => ne_of_isText (hLine c hc)]
  rfl

theorem rtspLine_text {line : Bytes} (hLine : ∀ c ∈ line, isText c) (rest : Bytes) :
    rtspLine (line ++ (crlf ++ rest)) = some (line, rest) := by
  rw [rtspLine, strstr_crlf_text hLine]
  simp [crlf]

/-- The headers end where the last line does. -/
theorem strstr_blank_line {line : Bytes} {lines : List Bytes} (hText : ∀ l ∈ line :: lines,
    l ≠ [] ∧ ∀ c ∈ l, isText c) :
    strstr (crlf ++ crlf) ((line :: lines).flatMap (· ++ crlf) ++ crlf) = some (crlf ++ crlf) := by
  induction lines generalizing line with
  | nil =>
    have hLine := (hText line (by simp)).2
    have hSkip : strstr (crlf ++ crlf) (line ++ (crlf ++ crlf)) =
        strstr (crlf ++ crlf) (crlf ++ crlf) :=
      strstr_skip (fun c hc => ne_of_isText (hLine c hc)) _
    simp only [List.flatMap_cons, List.flatMap_nil, List.append_nil, List.append_assoc]
    exact hSkip
  | cons next lines ih =>
    obtain ⟨hLine, hTail⟩ := List.forall_mem_cons.1 hText
    obtain ⟨hNe, hNext⟩ := hTail next (by simp)
    have hSkip (rest : Bytes) : strstr (crlf ++ crlf) (line ++ rest) = strstr (crlf ++ crlf) rest :=
      strstr_skip (fun c hc => ne_of_isText (hLine.2 c hc)) rest
    rw [List.flatMap_cons, List.append_assoc, List.append_assoc]
    refine (hSkip _).trans ?_
    -- the CRLF behind the line is followed by a character of the next one
    have hFirst : strstr (crlf ++ crlf) (crlf ++ ((next :: lines).flatMap (· ++ crlf) ++ crlf)) =
        strstr (crlf ++ crlf) ((next :: lines).flatMap (· ++ crlf) ++ crlf) := by
      cases next with
      | nil => exact absurd rfl hNe
      | cons c cs =>
        have hc := (ne_of_isText (hNext c (by simp))).2
        simp [crlf, strstr, List.isPrefixOf, hc.symm]
    exact hFirst.trans (ih hTail)

/-! ## Content-Length -/

/-- One line of `rtsp_find_header_value`. -/
theorem rtspFindHeaderValue_line {line : Bytes} (hNe : line ≠ []) (hText : ∀ c ∈ line, isText c)
    (fuel : Nat) (rest : Bytes) :
    rtspFindHeaderValue (ascii "Content-Length") (fuel + 1) (line ++ (crlf ++ rest)) =
      (lengthValue line).elim (rtspFindHeaderValue (ascii "Content-Length") fuel rest)
        fun value => some (skipWhile isBlank value ++ crlf ++ rest) := by
  rw [rtspFindHeaderValue, rtspLine_text hText]
  have hName : (ascii "Content-Length").length = 14 := rfl
  simp only [hNe, if_false, hName, lengthValue]
  by_cases hEq : eqIgnoreCase (line.take 14) (ascii "Content-Length")
  · by_cases hLong : line.length > 14
    · simp only [hLong, hEq, and_self, if_true]
      split_ifs <;> rfl
    · -- nothing is left of the line for a colon
      have hDrop : line.drop 14 = [] := List.drop_eq_nil_of_le (by omega)
      have hNoColon : peek (skipWhile isBlank ([] : Bytes)) ≠ 0x3A := by decide
      simp [hLong, hEq, hDrop, hNoColon]
  · simp [hEq]

/-- Lines without a Content-Length are passed over; the first one with it counts. -/
theorem rtspFindHeaderValue_lines {lines : List Bytes}
    (hText : ∀ line ∈ lines, line ≠ [] ∧ ∀ c ∈ line, isText c) {fuel : Nat}
    (hFuel : lines.length < fuel) :
    ((∀ line ∈ lines, lengthValue line = none) ∧
        rtspFindHeaderValue (ascii "Content-Length") fuel (lines.flatMap (· ++ crlf) ++ crlf) =
          none) ∨
      ∃ line ∈ lines, ∃ value rest, lengthValue line = some value ∧
        rtspFindHeaderValue (ascii "Content-Length") fuel (lines.flatMap (· ++ crlf) ++ crlf) =
          some (skipWhile isBlank value ++ crlf ++ rest) := by
  induction lines generalizing fuel with
  | nil =>
    obtain ⟨fuel, rfl⟩ := Nat.exists_eq_succ_of_ne_zero hFuel.ne'
    exact .inl ⟨by simp, rfl⟩
  | cons line lines ih =>
    obtain ⟨fuel, rfl⟩ := Nat.exists_eq_succ_of_ne_zero (Nat.ne_zero_of_lt hFuel)
    obtain ⟨⟨hNe, hLine⟩, hTail⟩ := List.forall_mem_cons.1 hText
    have hStep := rtspFindHeaderValue_line hNe hLine fuel (lines.flatMap (· ++ crlf) ++ crlf)
    have hBytes : (line :: lines).flatMap (· ++ crlf) ++ crlf =
        line ++ (crlf ++ (lines.flatMap (· ++ crlf) ++ crlf)) := by simp
    rw [hBytes, hStep]
    cases hValue : lengthValue line with
    | some value => exact .inr ⟨line, by simp, value, _, hValue, rfl⟩
    | none =>
      simp only [Option.elim_none]
      obtain ⟨hNone, hFind⟩ | ⟨l, hMem, value, rest, hSome, hFind⟩ :=
        ih hTail (Nat.lt_of_succ_lt_succ hFuel)
      · exact .inl ⟨List.forall_mem_cons.2 ⟨hValue, hNone⟩, hFind⟩
      · exact .inr ⟨l, List.mem_cons_of_mem _ hMem, value, rest, hSome, hFind⟩

/-- `atoi` of a numeral. -/
theorem atoi_numeral {value : Bytes} {n : Nat} (h : Numeral value n) (rest : Bytes) :
    atoi (skipWhile isBlank value ++ crlf ++ rest) = min (n : Int) 2147483647 := by
  obtain ⟨hDigits, -, hVal⟩ := h
  generalize skipWhile isBlank value = w at hDigits hVal
  cases w with
  | nil => exact absurd rfl hDigits
  | cons d ds =>
    have hDigit : isDigit d := by
      by_contra hNot
      exact hDigits (List.takeWhile_cons_of_neg hNot)
    -- the CRLF ends the digits, if nothing else does
    have hTake : (d :: ds ++ crlf ++ rest).takeWhile isDigit = (d :: ds).takeWhile isDigit := by
      have hCrlf : (crlf ++ rest).takeWhile isDigit = [] :=
        List.takeWhile_cons_of_neg (by decide)
      rw [List.append_assoc, List.takeWhile_append, hCrlf, List.append_nil]
      split_ifs with hAll
      · exact ((List.takeWhile_prefix isDigit).eq_of_length hAll).symm
      · rfl
    have hOther : isSpace d = false ∧ d ≠ 0x2D ∧ d ≠ 0x2B := by
      simp only [isDigit, decide_eq_true_eq, UInt8.le_iff_toNat_le] at hDigit
      simp only [isSpace, decide_eq_false_iff_not, UInt8.le_iff_toNat_le, ← UInt8.toNat_inj, ne_eq]
      simp at hDigit ⊢
      omega
    obtain ⟨hSpace, hMinus, hPlus⟩ := hOther
    have hScan : scanNumber (d :: ds ++ crlf ++ rest) =
        some (false, digitsVal ((d :: ds).takeWhile isDigit),
          (d :: ds ++ crlf ++ rest).dropWhile isDigit) := by
      have hSkip : skipWhile isSpace (d :: ds ++ crlf ++ rest) = d :: ds ++ crlf ++ rest := by
        simp [skipWhile, hSpace]
      rw [scanNumber, hSkip]
      simp only [List.cons_append] at hTake ⊢
      split
      next h => exact absurd (List.cons.inj h).1 hMinus
      next h => exact absurd (List.cons.inj h).1 hPlus
      next => simp only [hTake, hDigits, if_false]
    rw [atoi, hScan, hVal]
    simp

namespace RtspMessage

variable {m : RtspMessage}

/-- The start line is one the reader knows. -/
def Known (m : RtspMessage) : Prop := rtspIsMessageStart m.startLine

instance (m : RtspMessage) : Decidable m.Known := inferInstanceAs (Decidable (_ = true))

theorem all_text (m : RtspMessage) :
    ∀ line ∈ m.startLine :: m.lines, line ≠ [] ∧ ∀ c ∈ line, isText c :=
  List.forall_mem_cons.2 ⟨m.hStart, m.hLines⟩

/-- A known start line is no Content-Length. -/
theorem Known.lengthValue_eq (h : m.Known) : lengthValue m.startLine = none := by
  obtain ⟨c, cs, hStart, -, hLower⟩ := rtspIsMessageStart_cons h
  have hNe : eqIgnoreCase (m.startLine.take 14) (ascii "Content-Length") = false := by
    rw [hStart, eqIgnoreCase, List.take_succ_cons, List.map_cons]
    have hName : (ascii "Content-Length").map toLower =
        0x63 :: ((ascii "Content-Length").map toLower).tail := by decide
    rw [hName]
    simp [hLower]
  rw [lengthValue, hNe]
  rfl

theorem length_lines_lt (m : RtspMessage) : (m.startLine :: m.lines).length < m.headers.length := by
  have hLines (lines : List Bytes) : lines.length ≤ (lines.flatMap (· ++ crlf)).length := by
    induction lines with
    | nil => exact le_refl _
    | cons line lines ih =>
      simp only [List.flatMap_cons, List.length_append, List.length_cons, crlf, List.length_nil]
      simp only [crlf] at ih
      omega
  have := hLines (m.startLine :: m.lines)
  rw [headers, List.length_append]
  simp only [crlf, List.length_cons, List.length_nil] at this ⊢
  omega

/-- `rtsp_find_header_value` on the headers: nothing without a Content-Length, else
the length of the body. -/
theorem Known.header (h : m.Known) :
    (¬m.Sized ∧ rtspHeader "Content-Length" m.headers = none) ∨
      m.Sized ∧ ∃ v, rtspHeader "Content-Length" m.headers = some v ∧
        atoi v = min (m.body.length : Int) 2147483647 := by
  obtain ⟨hNone, hFind⟩ | ⟨line, hMem, value, rest, hSome, hFind⟩ :=
    rtspFindHeaderValue_lines m.all_text m.length_lines_lt
  · refine .inl ⟨?_, hFind⟩
    rintro ⟨line, hMem, hNe⟩
    exact hNe (hNone line (List.mem_cons_of_mem _ hMem))
  · have hLine : line ∈ m.lines := by
      rcases List.mem_cons.1 hMem with rfl | hLine
      · rw [h.lengthValue_eq] at hSome
        cases hSome
      · exact hLine
    refine .inr ⟨⟨line, hLine, by simp [hSome]⟩, _, hFind, ?_⟩
    exact atoi_numeral (m.hLength line hLine value hSome) rest

/-! ## One message in front -/

theorem scanHeaders (m : RtspMessage) (t : Bytes) :
    rtspScanHeaders (m.headers ++ t) = rtspTakeMessage (m.headers ++ t) m.headers.length := by
  have hFound := strstr_append (strstr_blank_line m.all_text) t
  have hLen : (m.headers ++ t).length - (crlf ++ crlf ++ t).length + 4 = m.headers.length := by
    simp [headers, crlf]
    omega
  rw [rtspScanHeaders, headers, hFound, ← headers]
  simp only [hLen]

/-- Headers that have not all arrived are waited for. -/
theorem scanHeaders_short {p q r : Bytes} (h : p ++ q = m.headers ++ r)
    (hp : p.length < m.headers.length) : rtspScanHeaders p = .more p false := by
  obtain ⟨-, hMore⟩ | ⟨front, rest, rfl, hFound, -⟩ := rtspScanHeaders_cases p
  · exact hMore
  · -- an end found in `p` would be that of the headers
    have hWhole := strstr_append (strstr_blank_line m.all_text) r
    rw [← headers, ← h, strstr_append hFound q] at hWhole
    have hEnd := congrArg List.length (Option.some.inj hWhole)
    have hAll := congrArg List.length h
    simp only [List.length_append] at hEnd hAll hp
    omega

theorem Known.take_sized (h : m.Known) (hSized : m.Sized) (t : Bytes) :
    rtspTakeMessage (m.headers ++ t) m.headers.length =
      if m.bytes.length < rtspBufSize then
        if t.length < m.body.length then .more (m.headers ++ t) true
        else .message m.headers (t.take m.body.length) (t.drop m.body.length)
      else .fail (m.headers ++ t) true := by
  obtain ⟨hNot, -⟩ | ⟨-, v, hHeader, hAtoi⟩ := h.header
  · exact absurd hSized hNot
  have hContent : rtspContentLen (m.headers ++ t) m.headers.length =
      min (m.body.length : Int) 2147483647 := by
    rw [rtspContentLen, List.take_left, hHeader]
    exact hAtoi
  have hBuf : rtspBufSize = 2048 := rfl
  have hBytes : m.bytes.length = m.headers.length + m.body.length := List.length_append
  simp only [rtspTakeMessage, hContent]
  by_cases hFits : m.bytes.length < rtspBufSize
  · have hMin : min (m.body.length : Int) 2147483647 = m.body.length := by omega
    have hHdr : ¬m.headers.length ≥ rtspBufSize := by omega
    have hNeg : ¬((m.body.length : Int) < 0 ∨ m.headers.length + m.body.length ≥ rtspBufSize) := by
      omega
    have hCopy : (t.take m.body.length).take (rtspBufSize - 1) = t.take m.body.length := by
      rw [List.take_take, Nat.min_eq_right (by omega)]
    rw [hMin, if_neg hHdr, Int.toNat_natCast, if_neg hNeg, if_pos hFits, List.length_append,
      Nat.add_sub_cancel_left, List.take_left, ← List.drop_drop, List.drop_left, hCopy]
  · rw [if_neg hFits]
    split_ifs with hHdr hNeg
    · rfl
    · rfl
    all_goals omega

end RtspMessage

theorem rtspFindBehindCrlf_le {p : Bytes} {i n : Nat} (h : rtspFindBehindCrlf p i = some n) :
    n ≤ i + p.length := by
  induction p generalizing i with
  | nil => cases h
  | cons c cs ih =>
    rw [rtspFindBehindCrlf] at h
    split_ifs at h with hFound
    · obtain rfl := Option.some.inj h
      rw [Bool.and_eq_true, List.isPrefixOf_iff_prefix] at hFound
      have := hFound.1.length_le
      simp only [crlf, List.length_cons, List.length_nil] at this ⊢
      omega
    · have := ih h
      simp only [List.length_cons]
      omega

namespace RtspMessage

variable {m : RtspMessage}

theorem Known.take_unsized (h : m.Known) (hSized : ¬m.Sized) {t : Bytes}
    (hRoom : (m.headers ++ t).length < rtspBufSize - 1) :
    (ShowsStart t →
      rtspTakeMessage (m.headers ++ t) m.headers.length = .message m.headers [] t) ∧
    (¬ShowsStart t → ∃ body rest, body ≠ [] ∧
      rtspTakeMessage (m.headers ++ t) m.headers.length = .message m.headers body rest) := by
  obtain ⟨-, hHeader⟩ | ⟨hIs, -⟩ := h.header
  case inr => exact absurd hIs hSized
  have hLen : (m.headers ++ t).length = m.headers.length + t.length := List.length_append
  have hHdr : ¬m.headers.length ≥ rtspBufSize := by omega
  constructor
  · intro hShows
    have hContent : rtspContentLen (m.headers ++ t) m.headers.length = 0 := by
      rw [rtspContentLen, List.take_left, hHeader, List.drop_left]
      exact if_pos hShows
    have hFits : ¬((0 : Int) < 0 ∨ m.headers.length + (0 : Int).toNat ≥ rtspBufSize) := by
      simp only [lt_irrefl, false_or, Int.toNat_zero, Nat.add_zero]
      omega
    simp only [rtspTakeMessage, hContent, if_neg hHdr, if_neg hFits]
    simp
  · intro hShows
    -- some of what is there is taken for a body
    obtain ⟨k, hk, hkLen, hContent⟩ : ∃ k, 0 < k ∧ k ≤ t.length ∧
        rtspContentLen (m.headers ++ t) m.headers.length = k := by
      have hNil : t ≠ [] := fun hNil => hShows (.inl hNil)
      have hNilLen := List.length_pos_iff.2 hNil
      have hNot : ¬(t = [] ∨ rtspIsMessageStart t) := hShows
      simp only [rtspContentLen, List.take_left, hHeader, List.drop_left, if_neg hNot]
      cases hFind : rtspFindMessageStart t with
      | none => exact ⟨t.length, hNilLen, le_refl _, rfl⟩
      | some n =>
        by_cases hn : n > 0
        · refine ⟨n, hn, ?_, by simp [hn]⟩
          rw [rtspFindMessageStart, if_neg fun hStart => hShows (.inr hStart)] at hFind
          simpa using rtspFindBehindCrlf_le hFind
        · exact ⟨t.length, hNilLen, le_refl _, by simp [hn]⟩
    have hFits : ¬((k : Int) < 0 ∨ m.headers.length + k ≥ rtspBufSize) := by omega
    have hThere : ¬(m.headers ++ t).length - m.headers.length < k := by omega
    refine ⟨(t.take k).take (rtspBufSize - 1), t.drop k, ?_, ?_⟩
    · have hPos : 0 < ((t.take k).take (rtspBufSize - 1)).length := by
        simp only [List.length_take, rtspBufSize]
        omega
      exact List.ne_nil_of_length_pos hPos
    · simp only [rtspTakeMessage, hContent, if_neg hHdr, Int.toNat_natCast, if_neg hFits,
        if_neg hThere]
      rw [List.take_left, ← List.drop_drop, List.drop_left]

end RtspMessage

/-! ## Frames in front -/

theorem InterleavedFrame.length_bytes (f : InterleavedFrame) :
    f.bytes.length = 4 + f.payload.length := by
  simp [bytes]
  omega

theorem putBe16_toNat (v : UInt16) :
    (v >>> 8).toUInt8.toNat * 256 + v.toUInt8.toNat = v.toNat := by
  have hv := v.toNat_lt
  simp only [UInt16.toNat_toUInt8, UInt16.toNat_shiftRight, Nat.shiftRight_eq_div_pow]
  simp
  omega

/-- The length field, once it is there. -/
theorem InterleavedFrame.length_field {f : InterleavedFrame} {p q r : Bytes}
    (h : p ++ q = f.bytes ++ r) (hp : 4 ≤ p.length) :
    peek p = 0x24 ∧ (p.getD 2 0).toNat * 256 + (p.getD 3 0).toNat = f.payload.length := by
  obtain ⟨a, b, c, d, t, rfl⟩ : ∃ a b c d t, p = a :: b :: c :: d :: t := by
    match p, hp with
    | a :: b :: c :: d :: t, _ => exact ⟨a, b, c, d, t, rfl⟩
  simp only [bytes, putBe16, List.cons_append, List.nil_append, List.cons.injEq] at h
  obtain ⟨rfl, -, rfl, rfl, -⟩ := h
  refine ⟨rfl, ?_⟩
  have hLen := putBe16_toNat (UInt16.ofNat f.payload.length)
  rw [UInt16.toNat_ofNat', Nat.mod_eq_of_lt f.hPayload] at hLen
  exact hLen

/-- A complete frame is skipped. -/
theorem skipInterleaved_frame (f : InterleavedFrame) (p : Bytes) (fuel : Nat) :
    rtspSkipInterleaved (fuel + 1) (f.bytes ++ p) = rtspSkipInterleaved fuel p := by
  have hLen := f.length_bytes
  have hLong : (f.bytes ++ p).length ≥ 4 := by
    rw [List.length_append]
    omega
  obtain ⟨hDollar, hField⟩ := f.length_field (List.append_assoc _ p []) hLong
  have hThere : ¬(f.bytes ++ p).length < f.bytes.length := by
    rw [List.length_append]
    omega
  rw [rtspSkipInterleaved, if_pos ⟨hLong, hDollar⟩]
  simp only [hField, ← hLen, if_neg hThere, List.drop_left]

/-- A frame that has not all arrived is not. -/
theorem skipInterleaved_short {f : InterleavedFrame} {p q r : Bytes} (h : p ++ q = f.bytes ++ r)
    (hp : p.length < f.bytes.length) (fuel : Nat) : rtspSkipInterleaved fuel p = p := by
  cases fuel with
  | zero => rfl
  | succ fuel =>
    rw [rtspSkipInterleaved]
    split_ifs with hFront
    · obtain ⟨-, hField⟩ := f.length_field h hFront.1
      simp only [hField, ← f.length_bytes, if_pos hp]
    · rfl

/-! ## The stream -/

/-- The bytes of a stream. -/
def streamBytes (items : List RtspItem) : Bytes := items.flatMap RtspItem.bytes

/-- The messages of a stream, as they ought to be returned. -/
def messages (items : List RtspItem) : List (Bytes × Bytes) := items.filterMap RtspItem.returned

/-- The items not complete in the first bytes of a stream, and what is there of them. -/
def unread : List RtspItem → Bytes → List RtspItem × Bytes
  | [], p => ([], p)
  | item :: items, p =>
    if item.bytes.length ≤ p.length then unread items (p.drop item.bytes.length)
    else (item :: items, p)

/-- The messages complete in the first bytes of a stream. -/
def complete : List RtspItem → Bytes → List (Bytes × Bytes)
  | [], _ => []
  | item :: items, p =>
    if item.bytes.length ≤ p.length then
      item.returned.toList ++ complete items (p.drop item.bytes.length)
    else []

/-- The first item is a message whose body is waited for. -/
def InBody : List RtspItem → Bytes → Prop
  | .message m :: _, p => m.Sized ∧ m.headers.length ≤ p.length
  | _, _ => False

instance : (items : List RtspItem) → (p : Bytes) → Decidable (InBody items p)
  | .message m :: _, p => inferInstanceAs (Decidable (m.Sized ∧ m.headers.length ≤ p.length))
  | .frame _ :: _, _ => isFalse id
  | [], _ => isFalse id

/-- Once its headers are there, a message with a Content-Length is no larger than the
buffer, and behind one without it is nothing yet, or the start of the next message. -/
def RtspItem.Clear (p : Bytes) : RtspItem → Prop
  | .message m =>
    m.headers.length ≤ p.length →
      if m.Sized then m.bytes.length < rtspBufSize else ShowsStart (p.drop m.headers.length)
  | .frame _ => True

/-- So it is for every item that has come to the front of the buffer. -/
def Clear : List RtspItem → Bytes → Prop
  | [], _ => True
  | item :: items, p =>
    item.Clear p ∧ (item.bytes.length ≤ p.length → Clear items (p.drop item.bytes.length))

/-! ## What is in front of the buffer -/

/-- Every frame is four bytes long at least. -/
theorem rtspSkipInterleaved_fuel {fuel fuel' : Nat} {p : Bytes} (h : p.length ≤ fuel)
    (h' : p.length ≤ fuel') : rtspSkipInterleaved fuel p = rtspSkipInterleaved fuel' p := by
  induction fuel generalizing fuel' p with
  | zero =>
    obtain rfl : p = [] := List.length_eq_zero_iff.1 (by omega)
    exact (rtspSkipInterleaved_of_ne fuel' (by decide)).symm
  | succ fuel ih =>
    cases fuel' with
    | zero =>
      obtain rfl : p = [] := List.length_eq_zero_iff.1 (by omega)
      exact rtspSkipInterleaved_of_ne _ (by decide)
    | succ fuel' =>
      rw [rtspSkipInterleaved, rtspSkipInterleaved]
      split_ifs with hFrame
      · dsimp only
        split_ifs
        · rfl
        · exact ih (by rw [List.length_drop]; omega) (by rw [List.length_drop]; omega)
      · rfl

/-- Text holds no CRLF. -/
theorem rtspLeftover_text {p : Bytes} (hText : ∀ c ∈ p, isText c) : rtspLeftover p = none := by
  have hLine : strstr crlf p = none := by
    have hSkip : strstr crlf (p ++ []) = strstr crlf [] :=
      strstr_skip (fun c hc => ne_of_isText (hText c hc)) []
    rwa [List.append_nil] at hSkip
  have hBehind (i : Nat) : rtspFindBehindCrlf p i = none := by
    clear hLine
    induction p generalizing i with
    | nil => rfl
    | cons c cs ih =>
      obtain ⟨hc, hTail⟩ := List.forall_mem_cons.1 hText
      have hNe := (ne_of_isText hc).2
      rw [rtspFindBehindCrlf, ih hTail]
      simp [crlf, List.isPrefixOf, hNe.symm]
  rw [rtspLeftover]
  by_cases hJunk : p ≠ [] ∧ rtspIsMessageStart p = false
  · rw [if_pos hJunk, rtspFindMessageStart, hJunk.2, if_neg (by decide), hBehind, hLine]
    rfl
  · rw [if_neg hJunk]

/-- A message of which the start line has arrived, or less, is no leftover. -/
theorem RtspMessage.Known.leftover {m : RtspMessage} (h : m.Known) {p r s : Bytes}
    (hp : p ++ r = m.startLine ++ s) : rtspLeftover p = none := by
  rcases List.append_eq_append_iff.1 hp with ⟨t, hStart, -⟩ | ⟨t, rfl, -⟩
  · refine rtspLeftover_text fun c hc => m.hStart.2 c ?_
    rw [hStart]
    exact List.mem_append_left t hc
  · have hIs := rtspIsMessageStart_append h t
    rw [rtspLeftover, if_neg fun hJunk => by rw [hIs] at hJunk; exact absurd hJunk.2 (by decide)]

/-- The first character of a message begins no frame. -/
theorem RtspMessage.Known.peek_ne {m : RtspMessage} (h : m.Known) {p r s : Bytes}
    (hp : p ++ r = m.startLine ++ s) : peek p ≠ 0x24 := by
  obtain ⟨c, cs, hStart, hDollar, -⟩ := rtspIsMessageStart_cons h
  cases p with
  | nil => decide
  | cons d ds =>
    rw [hStart] at hp
    obtain rfl := (List.cons.inj hp).1
    exact hDollar

/-- What is in front of a stream has arrived in full. -/
theorem front_arrived {p r front rest : Bytes} (h : p ++ r = front ++ rest)
    (hLen : front.length ≤ p.length) : ∃ t, p = front ++ t ∧ t ++ r = rest := by
  rcases List.append_eq_append_iff.1 h with ⟨t, rfl, rfl⟩ | ⟨t, rfl, rfl⟩
  · obtain rfl : t = [] := by
      rw [List.length_append] at hLen
      exact List.length_eq_zero_iff.1 (by omega)
    exact ⟨[], by simp, rfl⟩
  · exact ⟨t, rfl, rfl⟩

/-- The messages are ones the reader knows. -/
def AllKnown (items : List RtspItem) : Prop := ∀ m, RtspItem.message m ∈ items → m.Known

theorem messages_split (m : RtspMessage) (items : List RtspItem) :
    streamBytes (.message m :: items) =
      m.startLine ++
        (crlf ++ (m.lines.flatMap (· ++ crlf) ++ crlf) ++ m.body ++ streamBytes items) := by
  simp [streamBytes, RtspItem.bytes, RtspMessage.bytes, RtspMessage.headers]

/-- Behind the complete frames there are no leftovers. -/
theorem leftover_skipped {items : List RtspItem} (hKnown : AllKnown items) {p r : Bytes}
    (hp : p ++ r = streamBytes items) (fuel : Nat) (hFuel : p.length ≤ fuel) :
    peek (rtspSkipInterleaved fuel p) = 0x24 ∨ rtspLeftover (rtspSkipInterleaved fuel p) = none := by
  induction items generalizing p fuel with
  | nil =>
    obtain rfl : p = [] := (List.append_eq_nil_iff.1 hp).1
    rw [rtspSkipInterleaved_of_ne _ (by decide)]
    exact .inr rfl
  | cons item items ih =>
    cases item with
    | message m =>
      have hm := hKnown m (by simp)
      rw [messages_split] at hp
      rw [rtspSkipInterleaved_of_ne _ (hm.peek_ne hp)]
      exact .inr (hm.leftover hp)
    | frame f =>
      have hp' : p ++ r = f.bytes ++ streamBytes items := hp
      have hTail : AllKnown items := fun m hm => hKnown m (List.mem_cons_of_mem _ hm)
      by_cases hLen : f.bytes.length ≤ p.length
      · obtain ⟨t, rfl, ht⟩ := front_arrived hp' hLen
        have hFrame := f.length_bytes
        obtain ⟨fuel, rfl⟩ : ∃ n, fuel = n + 1 := by
          refine ⟨fuel - 1, ?_⟩
          omega
        rw [skipInterleaved_frame]
        refine ih hTail ht fuel ?_
        rw [List.length_append] at hFuel
        omega
      · rw [skipInterleaved_short hp' (by omega)]
        cases p with
        | nil => exact .inr rfl
        | cons c cs =>
          left
          exact (List.cons.inj hp').1

/-- The scan of a buffer short of full goes to what is behind the frames. -/
theorem rtspResume_eq {items : List RtspItem} (hKnown : AllKnown items) {p r : Bytes}
    (hp : p ++ r = streamBytes items) (hRoom : p.length < rtspBufSize - 1) :
    rtspResume false p =
      if peek (rtspSkipInterleaved p.length p) = 0x24 then
        .more (rtspSkipInterleaved p.length p) false
      else rtspScanHeaders (rtspSkipInterleaved p.length p) := by
  have hLeft := leftover_skipped hKnown hp p.length (le_refl _)
  rw [rtspResume, if_neg (by decide), rtspScan_succ _ hRoom]
  by_cases hDollar : peek (rtspSkipInterleaved p.length p) = 0x24
  · rw [if_pos hDollar, if_pos hDollar]
  · rw [if_neg hDollar, if_neg hDollar, hLeft.resolve_left hDollar, Option.elim_none]

/-! ## The calls behind one `recv` -/

theorem rtspReturns_failing (vs : List Recv) : rtspReturns .failing vs = [] := by
  induction vs with
  | nil => rfl
  | cons v vs ih => exact ih

/-- The reader where it ought to be: on the first item that is not complete. -/
def readerAt (items : List RtspItem) (p : Bytes) : RtspReader := .waiting p (decide (InBody items p))

/-- What calls on the buffer `p` come to. If all is clear they return what is complete,
and the reader is where it ought to be; if not, it does not recover. -/
def FollowsItems (items : List RtspItem) (p : Bytes) (out : List (Bytes × Bytes) × RtspReader) : Prop :=
  (Clear items p ∧ out = (complete items p, readerAt (unread items p).1 (unread items p).2)) ∨
    ¬Clear items p ∧ ∀ vs, out.1 ++ rtspReturns out.2 vs ≠ messages items

/-- An item that is not complete is waited for. -/
theorem tracks_wait {item : RtspItem} {items : List RtspItem} {p : Bytes} {inBody : Bool}
    (hShort : p.length < item.bytes.length) (hClear : item.Clear p)
    (hBody : inBody = decide (InBody (item :: items) p)) :
    FollowsItems (item :: items) p ([], .waiting p inBody) := by
  have hNot : ¬item.bytes.length ≤ p.length := by omega
  refine .inl ⟨⟨hClear, fun h => absurd h hNot⟩, ?_⟩
  rw [complete, unread, if_neg hNot, if_neg hNot, hBody]
  rfl

/-- A complete item is done with, and the rest decides. -/
theorem tracks_next {item : RtspItem} {items : List RtspItem} {t : Bytes}
    {out : List (Bytes × Bytes) × RtspReader} (hClear : item.Clear (item.bytes ++ t))
    (h : FollowsItems items t out) :
    FollowsItems (item :: items) (item.bytes ++ t) (item.returned.toList ++ out.1, out.2) := by
  have hThere : item.bytes.length ≤ (item.bytes ++ t).length := by
    rw [List.length_append]
    omega
  have hMessages : messages (item :: items) = item.returned.toList ++ messages items := by
    cases hRet : item.returned <;> simp [messages, hRet]
  rcases h with ⟨hRest, rfl⟩ | ⟨hRest, hNever⟩
  · left
    rw [Clear, complete, unread, if_pos hThere, if_pos hThere, List.drop_left]
    exact ⟨⟨hClear, fun _ => hRest⟩, rfl⟩
  · right
    rw [Clear, List.drop_left, hMessages]
    refine ⟨fun h => hRest (h.2 hThere), fun vs h => hNever vs ?_⟩
    rw [List.append_assoc] at h
    exact List.append_cancel_left h

/-- Calls on a buffer short of full. -/
def CallsTrack (items : List RtspItem) : Prop :=
  ∀ fuel p r, p ++ r = streamBytes items → p.length < fuel → p.length < rtspBufSize - 1 →
    FollowsItems items p (rtspCalls fuel false p)

/-- A message whose headers are there. -/
theorem tracks_message {m : RtspMessage} {items : List RtspItem} (hm : m.Known)
    (hRest : CallsTrack items) {inBody : Bool} {t r : Bytes} {fuel : Nat}
    (hResume : rtspResume inBody (m.headers ++ t) =
      rtspTakeMessage (m.headers ++ t) m.headers.length)
    (hRoom : (m.headers ++ t).length < rtspBufSize - 1 ∨
      m.Sized ∧ (m.headers ++ t).length ≤ rtspBufSize - 1)
    (hBytes : t ++ r = m.body ++ streamBytes items) (hFuel : (m.headers ++ t).length ≤ fuel) :
    FollowsItems (.message m :: items) (m.headers ++ t) (rtspCalls (fuel + 1) inBody (m.headers ++ t)) := by
  have hHeaders : 0 < m.headers.length := Nat.zero_lt_of_lt m.length_lines_lt
  have hThere : m.headers.length ≤ (m.headers ++ t).length := by
    rw [List.length_append]
    omega
  have hLen : (m.headers ++ t).length = m.headers.length + t.length := List.length_append
  have hTotal : m.bytes.length = m.headers.length + m.body.length := List.length_append
  by_cases hSized : m.Sized
  · have hTake := hm.take_sized hSized t
    have hClear : (RtspItem.message m).Clear (m.headers ++ t) ↔ m.bytes.length < rtspBufSize := by
      simp [RtspItem.Clear, hSized]
    by_cases hFits : m.bytes.length < rtspBufSize
    · rw [if_pos hFits] at hTake
      by_cases hBody : t.length < m.body.length
      · rw [if_pos hBody] at hTake
        rw [rtspCalls, hResume, hTake]
        refine tracks_wait ?_ (hClear.2 hFits) ?_
        · show (m.headers ++ t).length < m.bytes.length
          omega
        · exact (decide_eq_true (⟨hSized, hThere⟩ : InBody (.message m :: items) _)).symm
      · rw [if_neg hBody] at hTake
        obtain ⟨t, rfl, ht⟩ := front_arrived hBytes (by omega)
        rw [List.take_left, List.drop_left] at hTake
        have hSplit : m.headers ++ (m.body ++ t) = m.bytes ++ t := by
          rw [RtspMessage.bytes, List.append_assoc]
        have hLen' : (m.body ++ t).length = m.body.length + t.length := List.length_append
        have hNext := hRest fuel t r ht (by omega) (by omega)
        rw [rtspCalls, hResume, hTake, hSplit]
        rw [hSplit] at hClear
        exact tracks_next (hClear.2 hFits : (RtspItem.message m).Clear _) hNext
    · rw [if_neg hFits] at hTake
      rw [rtspCalls, hResume, hTake]
      refine .inr ⟨fun h => hFits (hClear.1 h.1), fun vs h => ?_⟩
      rw [rtspReturns_failing] at h
      simp [messages, RtspItem.returned] at h
  · have hNone : m.body = [] := by
      refine m.hBody fun line hLine => ?_
      by_contra hNe
      exact hSized ⟨line, hLine, hNe⟩
    have hSplit : m.headers ++ t = m.bytes ++ t := by rw [RtspMessage.bytes, hNone, List.append_nil]
    have hRoom : (m.headers ++ t).length < rtspBufSize - 1 :=
      hRoom.resolve_right fun h => hSized h.1
    have hClear : (RtspItem.message m).Clear (m.headers ++ t) ↔ ShowsStart t := by
      simp [RtspItem.Clear, hSized]
    obtain ⟨hTake, hSwallow⟩ := hm.take_unsized hSized hRoom
    by_cases hShows : ShowsStart t
    · rw [hNone, List.nil_append] at hBytes
      have hNext := hRest fuel t r hBytes (by omega) (by omega)
      rw [rtspCalls, hResume, hTake hShows, hSplit]
      rw [hSplit] at hClear
      have hReturned : (RtspItem.message m).returned.toList = [(m.headers, [])] := by
        rw [← hNone]
        rfl
      have h : FollowsItems (.message m :: items) (m.bytes ++ t) _ :=
        tracks_next (hClear.2 hShows) hNext
      rwa [hReturned] at h
    · obtain ⟨body, rest, hBody, hTaken⟩ := hSwallow hShows
      rw [rtspCalls, hResume, hTaken]
      refine .inr ⟨fun h => hShows (hClear.1 h.1), fun vs h => ?_⟩
      -- the message is returned with a body it does not have
      have hFirst : (m.headers, body) = (m.headers, m.body) := (List.cons.inj h).1
      rw [hNone] at hFirst
      exact hBody (Prod.mk.inj hFirst).2

/-- Calls on a buffer short of full, whatever the stream. -/
theorem callsTrack {items : List RtspItem} (hKnown : AllKnown items) : CallsTrack items := by
  induction items with
  | nil =>
    intro fuel p r hp hFuel hRoom
    obtain rfl : p = [] := (List.append_eq_nil_iff.1 hp).1
    obtain ⟨fuel, rfl⟩ := Nat.exists_eq_succ_of_ne_zero hFuel.ne'
    exact .inl ⟨trivial, rfl⟩
  | cons item items ih =>
    intro fuel p r hp hFuel hRoom
    obtain ⟨fuel, rfl⟩ := Nat.exists_eq_succ_of_ne_zero (Nat.ne_zero_of_lt hFuel)
    have hTail : AllKnown items := fun m hm => hKnown m (List.mem_cons_of_mem _ hm)
    have hResume := rtspResume_eq hKnown hp hRoom
    cases item with
    | message m =>
      have hm := hKnown m (by simp)
      have hStart := messages_split m items
      rw [rtspSkipInterleaved_of_ne _ (hm.peek_ne (hp.trans hStart)),
        if_neg (hm.peek_ne (hp.trans hStart))] at hResume
      have hp' : p ++ r = m.headers ++ (m.body ++ streamBytes items) := by
        rw [hp, ← List.append_assoc]
        rfl
      by_cases hThere : m.headers.length ≤ p.length
      · obtain ⟨t, rfl, ht⟩ := front_arrived hp' hThere
        exact tracks_message hm (ih hTail) (hResume.trans (m.scanHeaders t)) (.inl hRoom) ht
          (by omega)
      · rw [rtspCalls, hResume, RtspMessage.scanHeaders_short hp' (by omega)]
        refine tracks_wait ?_ (fun h => absurd h hThere) ?_
        · show p.length < (m.headers ++ m.body).length
          rw [List.length_append]
          omega
        · exact (decide_eq_false fun h : InBody (.message m :: items) p => hThere h.2).symm
    | frame f =>
      have hp' : p ++ r = f.bytes ++ streamBytes items := hp
      by_cases hThere : f.bytes.length ≤ p.length
      · obtain ⟨t, rfl, ht⟩ := front_arrived hp' hThere
        -- the scan goes on behind the frame
        have hLen : (f.bytes ++ t).length = f.bytes.length + t.length := List.length_append
        have hFrame := f.length_bytes
        have hSame : rtspResume false (f.bytes ++ t) = rtspResume false t := by
          have hSkip : rtspSkipInterleaved (f.bytes ++ t).length (f.bytes ++ t) =
              rtspSkipInterleaved t.length t := by
            rw [rtspSkipInterleaved_fuel (le_refl _) (Nat.le_succ _), skipInterleaved_frame]
            exact rtspSkipInterleaved_fuel (by omega) (le_refl _)
          rw [hResume, rtspResume_eq hTail ht (by omega), hSkip]
        have hNext := ih hTail (fuel + 1) t r ht (by omega) (by omega)
        rw [rtspCalls, hSame, ← rtspCalls]
        exact tracks_next (trivial : (RtspItem.frame f).Clear _) hNext
      · have hWait : rtspResume false p = .more p false := by
          rw [skipInterleaved_short hp' (by omega)] at hResume
          rw [hResume]
          cases p with
          | nil => rfl
          | cons c cs => exact if_pos (List.cons.inj hp').1
        rw [rtspCalls, hWait]
        exact tracks_wait (Nat.lt_of_not_le hThere) trivial rfl

/-! ## What stays behind -/

theorem messages_eq_nil {items : List RtspItem} (h : messages items = []) {m : RtspMessage} :
    RtspItem.message m ∉ items := by
  intro hm
  have := List.filterMap_eq_nil_iff.1 h _ hm
  cases this

theorem unread_suffix (items : List RtspItem) (p : Bytes) : (unread items p).1 <:+ items := by
  induction items generalizing p with
  | nil => exact List.suffix_refl _
  | cons item items ih =>
    rw [unread]
    split_ifs
    · exact (ih _).trans (List.suffix_cons item items)
    · exact List.suffix_refl _

theorem length_unread_le (items : List RtspItem) (p : Bytes) :
    (unread items p).2.length ≤ p.length := by
  induction items generalizing p with
  | nil => exact le_refl _
  | cons item items ih =>
    rw [unread]
    split_ifs
    · refine (ih _).trans ?_
      rw [List.length_drop]
      omega
    · exact le_refl _

theorem unread_unread (items : List RtspItem) (p : Bytes) :
    unread (unread items p).1 (unread items p).2 = unread items p := by
  induction items generalizing p with
  | nil => rfl
  | cons item items ih =>
    by_cases h : item.bytes.length ≤ p.length
    · have hUnread : unread (item :: items) p = unread items (p.drop item.bytes.length) := by
        rw [unread, if_pos h]
      rw [hUnread]
      exact ih _
    · have hUnread : unread (item :: items) p = (item :: items, p) := by rw [unread, if_neg h]
      rw [hUnread]
      exact hUnread

theorem clear_unread {items : List RtspItem} {p : Bytes} (h : Clear items p) :
    Clear (unread items p).1 (unread items p).2 := by
  induction items generalizing p with
  | nil => trivial
  | cons item items ih =>
    rw [unread]
    split_ifs with hThere
    · exact ih (h.2 hThere)
    · exact h

theorem unread_bytes {items : List RtspItem} {p r : Bytes} (h : p ++ r = streamBytes items) :
    (unread items p).2 ++ r = streamBytes (unread items p).1 := by
  induction items generalizing p with
  | nil => exact h
  | cons item items ih =>
    rw [unread]
    split_ifs with hThere
    · have hFront : p ++ r = item.bytes ++ streamBytes items := h
      obtain ⟨t, rfl, ht⟩ := front_arrived hFront hThere
      rw [List.drop_left]
      exact ih ht
    · exact h

/-- A message is either complete or still to be read. -/
theorem messages_eq (items : List RtspItem) (p : Bytes) :
    messages items = complete items p ++ messages (unread items p).1 := by
  induction items generalizing p with
  | nil => rfl
  | cons item items ih =>
    rw [complete, unread]
    split_ifs with hThere
    · rw [List.append_assoc, ← ih]
      cases hRet : item.returned <;> simp [messages, hRet]
    · rfl

theorem complete_of_unread {items : List RtspItem} {p : Bytes} (h : unread items p = (items, p)) :
    complete items p = [] := by
  have hSplit := messages_eq items p
  rw [h] at hSplit
  exact List.self_eq_append_left.1 hSplit

/-! ## Streams -/

/-- What `recv` has brought can be read: there is room left in the buffer (or it was a
body that was waited for, or no message is to come), and what has come to the front is
clear. -/
def Legible : List RtspItem → Bytes → List Recv → Prop
  | _, _, [] => True
  | items, part, .timeout :: vs => Legible items part vs
  | items, part, .data bytes :: vs =>
    (messages items = [] ∨ InBody items part ∨ (part ++ bytes).length < rtspBufSize - 1) ∧
      Clear items (part ++ bytes) ∧
      Legible (unread items (part ++ bytes)).1 (unread items (part ++ bytes)).2 vs

/-- Without messages there is nothing to be read. -/
theorem legible_of_no_messages {items : List RtspItem} (h : messages items = []) (part : Bytes)
    (vs : List Recv) : Legible items part vs := by
  induction vs generalizing items part with
  | nil => trivial
  | cons v vs ih =>
    cases v with
    | timeout => exact ih h part
    | data bytes =>
      have hClear (p : Bytes) : Clear items p := by
        clear ih
        induction items generalizing p with
        | nil => trivial
        | cons item items ihItems =>
          cases item with
          | message m => exact absurd (List.mem_cons_self) (messages_eq_nil h)
          | frame f => exact ⟨trivial, fun _ => ihItems h _⟩
      have hRest : messages (unread items (part ++ bytes)).1 = [] := by
        have hSplit := messages_eq items (part ++ bytes)
        rw [h] at hSplit
        exact (List.append_eq_nil_iff.1 hSplit.symm).2
      exact ⟨.inl h, hClear _, ih hRest _⟩

/-- Calls where a body was waited for. -/
theorem callsTrack_inBody {items : List RtspItem} {part c r : Bytes} (hKnown : AllKnown items)
    (hBody : InBody items part) (hp : part ++ c ++ r = streamBytes items)
    (hFits : (part ++ c).length ≤ rtspBufSize - 1) :
    FollowsItems items (part ++ c) (rtspCalls ((part ++ c).length + 1) true (part ++ c)) := by
  match items, hBody with
  | .message m :: items, ⟨hSized, hThere⟩ =>
    have hTail : AllKnown items := fun m hm => hKnown m (List.mem_cons_of_mem _ hm)
    have hp' : part ++ (c ++ r) = m.headers ++ (m.body ++ streamBytes items) := by
      rw [← List.append_assoc, hp, ← List.append_assoc]
      rfl
    obtain ⟨t, rfl, ht⟩ := front_arrived hp' hThere
    rw [List.append_assoc] at hFits ⊢
    refine tracks_message (r := r) (hKnown m (by simp)) (callsTrack hTail) (m.scanHeaders (t ++ c))
      (.inr ⟨hSized, hFits⟩) ?_ (le_refl _)
    rw [List.append_assoc]
    exact ht

/-- What is there of an item that has come to the front and is waited for leaves room. -/
theorem length_unread_lt {items : List RtspItem} {part c : Bytes} (hClear : Clear items (part ++ c))
    (hFits : (part ++ c).length ≤ rtspBufSize - 1)
    (hRoom : InBody items part ∨ (part ++ c).length < rtspBufSize - 1) :
    (unread items (part ++ c)).2.length < rtspBufSize - 1 := by
  rcases hRoom with hBody | hRoom
  · match items, hBody with
    | .message m :: items, ⟨hSized, hThere⟩ =>
      have hLen : part.length + c.length = (part ++ c).length := List.length_append.symm
      have hHeaders : 0 < m.headers.length := Nat.zero_lt_of_lt m.length_lines_lt
      have hTotal : m.bytes.length = m.headers.length + m.body.length := List.length_append
      have hLarge : m.bytes.length < rtspBufSize := by
        have := hClear.1 (by omega)
        rwa [if_pos hSized] at this
      by_cases hAll : m.bytes.length ≤ (part ++ c).length
      · have hUnread : unread (.message m :: items) (part ++ c) =
            unread items ((part ++ c).drop m.bytes.length) := if_pos hAll
        have hLe := length_unread_le items ((part ++ c).drop m.bytes.length)
        rw [List.length_drop] at hLe
        rw [hUnread]
        omega
      · have hUnread : unread (.message m :: items) (part ++ c) = (.message m :: items, part ++ c) :=
          if_neg hAll
        rw [hUnread]
        simp only [rtspBufSize] at hLarge ⊢
        omega
  · exact (length_unread_le _ _).trans_lt hRoom

/-! ## Nothing has arrived -/

theorem RtspItem.bytes_pos (item : RtspItem) : 0 < item.bytes.length := by
  cases item with
  | message m =>
    have hHeaders : 0 < m.headers.length := Nat.zero_lt_of_lt m.length_lines_lt
    have hTotal : m.bytes.length = m.headers.length + m.body.length := List.length_append
    show 0 < m.bytes.length
    omega
  | frame f =>
    have hFrame := f.length_bytes
    show 0 < f.bytes.length
    omega

theorem not_inBody_nil (items : List RtspItem) : ¬InBody items [] := by
  match items with
  | [] => exact id
  | .frame f :: _ => exact id
  | .message m :: _ =>
    rintro ⟨-, hThere⟩
    exact absurd hThere (Nat.not_le.2 (Nat.zero_lt_of_lt m.length_lines_lt))

theorem unread_nil (items : List RtspItem) : unread items [] = (items, []) := by
  cases items with
  | nil => rfl
  | cons item items => exact if_neg (Nat.not_le.2 item.bytes_pos)

theorem clear_nil (items : List RtspItem) : Clear items [] := by
  cases items with
  | nil => trivial
  | cons item items =>
    refine ⟨?_, fun h => absurd h (Nat.not_le.2 item.bytes_pos)⟩
    cases item with
    | message m => exact fun h => absurd h (Nat.not_le.2 (Nat.zero_lt_of_lt m.length_lines_lt))
    | frame f => trivial

/-- From a reader on the first item that is not complete, the rest of the stream. -/
theorem rtspReturns_iff {items : List RtspItem} {part : Bytes} {vs : List Recv}
    (hKnown : AllKnown items) (hBytes : part ++ vs.flatMap Recv.bytes = streamBytes items)
    (hUnread : unread items part = (items, part)) (hClear : Clear items part)
    (hPart : part.length < rtspBufSize - 1) (hFits : (readerAt items part).Fits vs) :
    rtspReturns (readerAt items part) vs = messages items ↔ Legible items part vs := by
  induction vs generalizing items part with
  | nil =>
    -- all has arrived, so nothing is incomplete
    rw [List.flatMap_nil, List.append_nil] at hBytes
    cases items with
    | nil => exact iff_of_true rfl trivial
    | cons item items =>
      have hThere : item.bytes.length ≤ part.length := by
        rw [hBytes, streamBytes, List.flatMap_cons, List.length_append]
        omega
      have hLess := (unread_suffix items (part.drop item.bytes.length)).length_le
      rw [unread, if_pos hThere] at hUnread
      rw [hUnread, List.length_cons] at hLess
      omega
  | cons v vs ih =>
    cases v with
    | timeout =>
      obtain ⟨-, hFits⟩ := hFits
      have hTracks := callsTrack hKnown (part.length + 1) part _ hBytes (Nat.lt_succ_self _) hPart
      obtain ⟨-, hOut⟩ := hTracks.resolve_right fun h => h.1 hClear
      rw [complete_of_unread hUnread, hUnread] at hOut
      have hAfter : (readerAt items part).after .timeout = ([], readerAt items part) := hOut
      have hFits' : ((readerAt items part).after .timeout).2.Fits vs := hFits
      rw [hAfter] at hFits'
      rw [rtspReturns, hAfter]
      exact ih hKnown hBytes hUnread hClear hPart hFits'
    | data bytes =>
      obtain ⟨hLen, hFits⟩ := hFits
      have hSplit : part ++ bytes ++ vs.flatMap Recv.bytes = streamBytes items := by
        rw [← hBytes, List.append_assoc]
        rfl
      have hLen' : (part ++ bytes).length ≤ rtspBufSize - 1 := by
        rw [List.length_append]
        exact hLen
      -- with room for it, what has come decides, and then the rest of the stream
      have hNext (hRoom : InBody items part ∨ (part ++ bytes).length < rtspBufSize - 1)
          (hTracks : FollowsItems items (part ++ bytes) ((readerAt items part).after (.data bytes))) :
          rtspReturns (readerAt items part) (.data bytes :: vs) = messages items ↔
            Legible items part (.data bytes :: vs) := by
        rcases hTracks with ⟨hClear', hOut⟩ | ⟨hNot, hNever⟩
        · have hFits' : ((readerAt items part).after (.data bytes)).2.Fits vs := hFits
          rw [hOut] at hFits'
          have hRest := ih
            (fun m hm => hKnown m ((unread_suffix items (part ++ bytes)).subset hm))
            (unread_bytes hSplit) (unread_unread items (part ++ bytes)) (clear_unread hClear')
            (length_unread_lt hClear' hLen' hRoom) hFits'
          rw [rtspReturns, hOut, messages_eq items (part ++ bytes), List.append_cancel_left_eq, hRest]
          exact ⟨fun h => ⟨.inr hRoom, hClear', h⟩, fun h => h.2.2⟩
        · exact iff_of_false (hNever vs) fun h => hNot h.2.1
      by_cases hBody : InBody items part
      · refine hNext (.inl hBody) ?_
        have hFlag : readerAt items part = .waiting part true := by
          rw [readerAt, decide_eq_true hBody]
        rw [hFlag]
        exact callsTrack_inBody hKnown hBody hSplit hLen'
      have hFlag : readerAt items part = .waiting part false := by
        rw [readerAt, decide_eq_false hBody]
      by_cases hRoom : (part ++ bytes).length < rtspBufSize - 1
      · refine hNext (.inr hRoom) ?_
        rw [hFlag]
        exact callsTrack hKnown _ _ _ hSplit (Nat.lt_succ_self _) hRoom
      · -- the buffer is full, and the reader fails
        have hFull : rtspResume false (part ++ bytes) = .fail (part ++ bytes) false := by
          rw [rtspResume, if_neg (by decide), rtspScan, if_pos (by omega)]
        have hAfter : (readerAt items part).after (.data bytes) = ([], .failing) := by
          rw [hFlag, RtspReader.after, rtspCalls, hFull]
        rw [rtspReturns, hAfter, rtspReturns_failing]
        by_cases hNone : messages items = []
        · exact iff_of_true hNone.symm (legible_of_no_messages hNone _ _)
        · exact iff_of_false (fun h => hNone h.symm) fun h =>
            h.1.elim hNone fun h => h.elim hBody hRoom

/-- A stream of messages and frames, none larger than the buffer, as `recv` delivers
it. -/
structure RtspStream where
  items : List RtspItem
  recvs : List Recv
  hSize : ∀ item ∈ items, item.bytes.length ≤ rtspBufSize
  hWhole : recvs.flatMap Recv.bytes = streamBytes items
  hFits : (RtspReader.waiting [] false).Fits recvs

namespace RtspStream

/-- What the successful calls of `rtsp_read_msg` return. -/
def returned (s : RtspStream) : List (Bytes × Bytes) := rtspReturns (.waiting [] false) s.recvs

theorem known_of_returned {s : RtspStream} (h : s.returned = messages s.items) :
    AllKnown s.items := by
  intro m hm
  have hMem : (m.headers, m.body) ∈ s.returned := by
    rw [h]
    exact List.mem_filterMap.2 ⟨_, hm, rfl⟩
  have hStart := rtspReturns_start s.recvs (fun _ h => by cases h) _ hMem
  refine rtspIsMessageStart_of_append_cr (r := 0x0A :: (m.lines.flatMap (· ++ crlf) ++ crlf)) ?_
  simpa [RtspMessage.headers, crlf] using hStart

/-- **Framing.** The messages of a stream are returned, in order, with their headers and
bodies, if and only if the reader knows their start lines and the cuts leave the
stream legible. -/
theorem returned_iff (s : RtspStream) :
    s.returned = messages s.items ↔ AllKnown s.items ∧ Legible s.items [] s.recvs := by
  have hStart : RtspReader.waiting [] false = readerAt s.items [] := by
    rw [readerAt, decide_eq_false (not_inBody_nil s.items)]
  have hIff (hKnown : AllKnown s.items) :
      s.returned = messages s.items ↔ Legible s.items [] s.recvs := by
    rw [returned, hStart]
    exact rtspReturns_iff hKnown s.hWhole (unread_nil s.items) (clear_nil s.items) (by decide)
      (hStart ▸ s.hFits)
  exact ⟨fun h => ⟨known_of_returned h, (hIff (known_of_returned h)).1 h⟩,
    fun h => (hIff h.1).2 h.2⟩

/-- An OPTIONS and a PLAY; the first `recv` ends within the method of the latter. -/
def cutMethod : RtspStream where
  items :=
    [.message
      { startLine := ascii "OPTIONS * RTSP/1.0", lines := [ascii "CSeq: 1"], body := []
        hStart := by decide +kernel, hLines := by decide +kernel, hLength := by decide, hBody := fun _ => rfl },
      .message
      { startLine := ascii "PLAY rtsp://a RTSP/1.0", lines := [ascii "CSeq: 2"], body := []
        hStart := by decide +kernel, hLines := by decide +kernel, hLength := by decide, hBody := fun _ => rfl }]
  recvs :=
    [.data (ascii "OPTIONS * RTSP/1.0\r\nCSeq: 1\r\n\r\nPL"),
      .data (ascii "AY rtsp://a RTSP/1.0\r\nCSeq: 2\r\n\r\n")]
  hSize := by decide
  hWhole := by decide
  hFits := by decide +kernel

/-- The two letters are taken for a body, and the rest of the PLAY is dropped. -/
theorem method_swallowed : ¬∀ s : RtspStream, s.returned = messages s.items := by
  intro hAll
  have hSame := hAll cutMethod
  revert hSame
  decide +kernel

end RtspStream

end EspMiplay.Miplay
