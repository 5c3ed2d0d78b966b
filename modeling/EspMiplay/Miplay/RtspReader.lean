import EspMiplay.Miplay.RtspMessage

/-!
# Reading RTSP messages off a connection

`rtsp_read_msg` is called again after every message, and after every timeout:
what a call leaves in the buffer is there for the next one. `rtspReturns` is
what all these calls return, for any sequence of `recv` results.

A call that fails without a `recv` leaves the buffer as it found it, so the next
one fails as well (`rtspScan_fails_again`): the reader never recovers.

## Results

* `rtspScan_succ`          — one turn of the loop of `rtsp_read_msg`.
* `rtspScan_fails_again`   — why `RtspReader.failing` has no way out.
* `rtspReturns_start`      — no header is handed out but one that begins like a
  message.
-/

namespace EspMiplay.Miplay

/-- What `recv` on the RTSP socket comes back with. -/
inductive Recv where
  | data (bytes : Bytes)
  /-- EAGAIN -/
  | timeout

def Recv.bytes : Recv → Bytes
  | .data bytes => bytes
  | .timeout => []

/-- Where the calls stand between two results of `recv`. -/
inductive RtspReader where
  /-- blocked in `recv`, for a body or not -/
  | waiting (buf : Bytes) (inBody : Bool)
  /-- every call returns -1 without a `recv` -/
  | failing

/-- Calls up to the next `recv`, and the messages they return. -/
def rtspCalls : Nat → Bool → Bytes → List (Bytes × Bytes) × RtspReader
  | 0, inBody, p => ([], .waiting p inBody)
  | fuel + 1, inBody, p =>
    match rtspResume inBody p with
    | .more buf inBody => ([], .waiting buf inBody)
    | .message headers body rest =>
      let next := rtspCalls fuel false rest
      ((headers, body) :: next.1, next.2)
    | .fail _ _ => ([], .failing)

/-- The calls behind one result of `recv`. Data is put behind what is there; a
timeout ends the call, and the next one starts from the front. -/
def RtspReader.after : RtspReader → Recv → List (Bytes × Bytes) × RtspReader
  | .failing, _ => ([], .failing)
  | .waiting buf inBody, .data bytes =>
    rtspCalls ((buf ++ bytes).length + 1) inBody (buf ++ bytes)
  | .waiting buf _, .timeout => rtspCalls (buf.length + 1) false buf

/-- The messages returned, in order, until the results of `recv` are used up. -/
def rtspReturns : RtspReader → List Recv → List (Bytes × Bytes)
  | _, [] => []
  | r, v :: vs => (r.after v).1 ++ rtspReturns (r.after v).2 vs

/-- No `recv` delivers more than there is room for in front of the final NUL. -/
def RtspReader.Fits : RtspReader → List Recv → Prop
  | _, [] => True
  | .failing, _ => True
  | .waiting buf inBody, v :: vs =>
    buf.length + v.bytes.length ≤ rtspBufSize - 1 ∧
      Fits (RtspReader.after (.waiting buf inBody) v).2 vs

instance decidableFits : (r : RtspReader) → (vs : List Recv) → Decidable (r.Fits vs)
  | .failing, [] | .waiting _ _, [] | .failing, _ :: _ => isTrue trivial
  | .waiting buf inBody, v :: vs =>
    have := decidableFits ((RtspReader.waiting buf inBody).after v).2 vs
    inferInstanceAs (Decidable (_ ∧ _))

/-! ## Start lines -/

/-- What a message may begin with. -/
def rtspStarts : List Bytes := ascii "RTSP/1." :: rtspMethods

theorem rtspIsMessageStart_iff (p : Bytes) :
    rtspIsMessageStart p ↔ ∃ start ∈ rtspStarts, start <+: p := by
  simp [rtspIsMessageStart, rtspStarts, List.isPrefixOf_iff_prefix]

theorem rtspIsMessageStart_append {p : Bytes} (h : rtspIsMessageStart p) (r : Bytes) :
    rtspIsMessageStart (p ++ r) := by
  obtain ⟨start, hMem, hPrefix⟩ := (rtspIsMessageStart_iff p).1 h
  exact (rtspIsMessageStart_iff _).2 ⟨start, hMem, hPrefix.trans (List.prefix_append p r)⟩

/-- A start line is known by what is in front of its CR. -/
theorem rtspIsMessageStart_of_append_cr {p r : Bytes} (h : rtspIsMessageStart (p ++ 0x0D :: r)) :
    rtspIsMessageStart p := by
  obtain ⟨start, hMem, hPrefix⟩ := (rtspIsMessageStart_iff _).1 h
  refine (rtspIsMessageStart_iff p).2 ⟨start, hMem, ?_⟩
  have hCr : ∀ s ∈ rtspStarts, (0x0D : UInt8) ∉ s := by decide
  -- a longer prefix would contain the CR
  refine List.prefix_of_prefix_length_le hPrefix (List.prefix_append p _) ?_
  by_contra hLong
  have hWith : p ++ [0x0D] <+: start := by
    refine List.prefix_of_prefix_length_le ⟨r, by simp⟩ hPrefix ?_
    simp only [List.length_append, List.length_singleton]
    omega
  exact hCr start hMem (hWith.subset (by simp))

theorem rtspIsMessageStart_cons {p : Bytes} (h : rtspIsMessageStart p) :
    ∃ c cs, p = c :: cs ∧ c ≠ 0x24 ∧ toLower c ≠ 0x63 := by
  obtain ⟨start, hMem, t, rfl⟩ := (rtspIsMessageStart_iff p).1 h
  have hFirst : ∀ s ∈ rtspStarts, s ≠ [] ∧ s.headD 0 ≠ 0x24 ∧ toLower (s.headD 0) ≠ 0x63 := by
    decide
  obtain ⟨hNe, hDollar, hLower⟩ := hFirst start hMem
  cases start with
  | nil => exact absurd rfl hNe
  | cons c cs => exact ⟨c, cs ++ t, rfl, hDollar, hLower⟩

/-! ## The headers -/

theorem rtspTakeMessage_eq_message {p headers body rest : Bytes} {hdrLen : Nat}
    (h : rtspTakeMessage p hdrLen = .message headers body rest) : headers = p.take hdrLen := by
  simp only [rtspTakeMessage] at h
  split_ifs at h
  obtain ⟨rfl, -, -⟩ := RtspScan.message.inj h
  rfl

theorem rtspTakeMessage_eq_more {p buf : Bytes} {hdrLen : Nat} {inBody : Bool}
    (h : rtspTakeMessage p hdrLen = .more buf inBody) : buf = p := by
  simp only [rtspTakeMessage] at h
  split_ifs at h
  exact (RtspScan.more.inj h).1.symm

theorem rtspTakeMessage_eq_fail {p buf : Bytes} {hdrLen : Nat} {setsErrno : Bool}
    (h : rtspTakeMessage p hdrLen = .fail buf setsErrno) : buf = p := by
  simp only [rtspTakeMessage] at h
  split_ifs at h
  all_goals exact (RtspScan.fail.inj h).1.symm

/-- Where the headers end, or nowhere. -/
theorem rtspScanHeaders_cases (p : Bytes) :
    (strstr (crlf ++ crlf) p = none ∧ rtspScanHeaders p = .more p false) ∨
      ∃ front rest, p = front ++ crlf ++ crlf ++ rest ∧
        strstr (crlf ++ crlf) p = some (crlf ++ crlf ++ rest) ∧
        rtspScanHeaders p = rtspTakeMessage p (front.length + 4) := by
  cases h : strstr (crlf ++ crlf) p with
  | none => exact .inl ⟨rfl, by rw [rtspScanHeaders, h]⟩
  | some e =>
    obtain ⟨⟨rest, rfl⟩, front, hFront⟩ := strstr_eq_some h
    refine .inr ⟨front, rest, by rw [← hFront]; simp, rfl, ?_⟩
    have hLen : p.length - (crlf ++ crlf ++ rest).length + 4 = front.length + 4 := by
      rw [← hFront, List.length_append]
      omega
    rw [rtspScanHeaders, h, ← hLen]

theorem rtspScanHeaders_eq_fail {p buf : Bytes} {setsErrno : Bool}
    (h : rtspScanHeaders p = .fail buf setsErrno) : buf = p := by
  obtain ⟨-, hMore⟩ | ⟨front, rest, -, -, hTake⟩ := rtspScanHeaders_cases p
  · rw [hMore] at h
    cases h
  · exact rtspTakeMessage_eq_fail (hTake ▸ h)

/-! ## The leftovers -/

/-- What dropping leftovers leaves, if there are any. -/
def rtspLeftover (p : Bytes) : Option Bytes :=
  if p ≠ [] ∧ rtspIsMessageStart p = false then
    match rtspFindMessageStart p with
    | some n => if n > 0 then some (p.drop n) else none
    | none => if (strstr crlf p).isSome then some [] else none
  else none

/-- One turn of the loop, unless the buffer is full. -/
theorem rtspScan_succ (n : Nat) {p : Bytes} (hRoom : p.length < rtspBufSize - 1) :
    rtspScan (n + 1) p =
      if peek (rtspSkipInterleaved p.length p) = 0x24 then
        .more (rtspSkipInterleaved p.length p) false
      else
        (rtspLeftover (rtspSkipInterleaved p.length p)).elim
          (rtspScanHeaders (rtspSkipInterleaved p.length p)) (rtspScan n) := by
  rw [rtspScan, if_neg (by omega)]
  generalize rtspSkipInterleaved p.length p = q
  dsimp only
  by_cases hDollar : peek q = 0x24
  · rw [if_pos hDollar, if_pos hDollar]
  rw [if_neg hDollar, if_neg hDollar, rtspLeftover]
  by_cases hJunk : q ≠ [] ∧ rtspIsMessageStart q = false
  · rw [if_pos hJunk, if_pos hJunk]
    cases rtspFindMessageStart q with
    | some k =>
      by_cases hk : k > 0
      · simp [hk]
      · simp [hk]
    | none =>
      by_cases hLine : (strstr crlf q).isSome
      · simp [hJunk, hLine]
      · simp [hLine]
  · rw [if_neg hJunk, if_neg hJunk]
    simp [hJunk]

theorem rtspLeftover_eq_none {p : Bytes} (h : rtspLeftover p = none) :
    p = [] ∨ rtspIsMessageStart p ∨ strstr crlf p = none ∨ rtspFindMessageStart p = some 0 := by
  rw [rtspLeftover] at h
  by_cases hJunk : p ≠ [] ∧ rtspIsMessageStart p = false
  · rw [if_pos hJunk] at h
    cases hFind : rtspFindMessageStart p with
    | some n => simp_all
    | none => simp_all
  · by_cases hNil : p = []
    · exact .inl hNil
    · exact .inr (.inl (by simpa [hNil] using hJunk))

/-- A message start behind a CRLF is not in front. -/
theorem rtspFindBehindCrlf_gt {p : Bytes} {i n : Nat} (h : rtspFindBehindCrlf p i = some n) :
    i < n := by
  induction p generalizing i with
  | nil => cases h
  | cons c cs ih =>
    rw [rtspFindBehindCrlf] at h
    split_ifs at h
    · obtain rfl := Option.some.inj h
      omega
    · have := ih h
      omega

theorem rtspFindMessageStart_zero {p : Bytes} (h : rtspFindMessageStart p = some 0) :
    rtspIsMessageStart p := by
  rw [rtspFindMessageStart] at h
  split_ifs at h with hStart
  · exact hStart
  · exact absurd (rtspFindBehindCrlf_gt h) (Nat.lt_irrefl 0)

/-! ## A failing reader -/

theorem length_rtspSkipInterleaved_le (fuel : Nat) (p : Bytes) :
    (rtspSkipInterleaved fuel p).length ≤ p.length := by
  induction fuel generalizing p with
  | zero => exact le_refl _
  | succ fuel ih =>
    rw [rtspSkipInterleaved]
    split_ifs
    · dsimp only
      split_ifs
      · exact le_refl _
      · refine (ih _).trans ?_
        rw [List.length_drop]
        omega
    · exact le_refl _

theorem rtspSkipInterleaved_of_ne (fuel : Nat) {p : Bytes} (h : peek p ≠ 0x24) :
    rtspSkipInterleaved fuel p = p := by
  cases fuel with
  | zero => rfl
  | succ fuel => rw [rtspSkipInterleaved, if_neg fun hFrame => h hFrame.2]

/-- **No way out.** A call that fails by itself leaves a buffer on which the next one
fails too. -/
theorem rtspScan_fails_again {n : Nat} {p buf : Bytes} {setsErrno : Bool}
    (h : rtspScan n p = .fail buf setsErrno) (m : Nat) :
    rtspScan (m + 1) buf = .fail buf setsErrno := by
  induction n generalizing p with
  | zero => cases h
  | succ n ih =>
    by_cases hRoom : p.length < rtspBufSize - 1
    · have hq := (length_rtspSkipInterleaved_le p.length p).trans_lt hRoom
      rw [rtspScan_succ n hRoom] at h
      generalize rtspSkipInterleaved p.length p = q at h hq
      split_ifs at h with hDollar
      cases hLeft : rtspLeftover q with
      | some q' =>
        rw [hLeft] at h
        exact ih h
      | none =>
        rw [hLeft] at h
        obtain rfl := rtspScanHeaders_eq_fail h
        rw [rtspScan_succ m hq, rtspSkipInterleaved_of_ne _ hDollar, if_neg hDollar, hLeft]
        exact h
    · have hFull : rtspScan (n + 1) p = .fail p false := by
        rw [rtspScan, if_pos (by omega)]
      obtain ⟨rfl, rfl⟩ := RtspScan.fail.inj (hFull.symm.trans h)
      rw [rtspScan, if_pos (by omega)]

/-! ## What is handed out -/

/-- What waits for its body or is handed out begins like a message. -/
def RtspScan.Starts : RtspScan → Prop
  | .more buf inBody => inBody = true → rtspIsMessageStart buf
  | .message headers _ _ => rtspIsMessageStart headers
  | .fail _ _ => True

theorem rtspScanHeaders_starts {p : Bytes}
    (hStart : rtspIsMessageStart p ∨ strstr (crlf ++ crlf) p = none) :
    (rtspScanHeaders p).Starts := by
  obtain ⟨-, hMore⟩ | ⟨front, tail, hp, hFound, hTake⟩ := rtspScanHeaders_cases p
  · rw [hMore]
    exact fun h => absurd h (by decide)
  have hStart : rtspIsMessageStart p := by
    rcases hStart with hStart | hNone
    · exact hStart
    · rw [hNone] at hFound
      cases hFound
  rw [hTake]
  cases hScan : rtspTakeMessage p (front.length + 4) with
  | more buf inBody =>
    obtain rfl := rtspTakeMessage_eq_more hScan
    exact fun _ => hStart
  | fail buf setsErrno => trivial
  | message headers body rest =>
    obtain rfl := rtspTakeMessage_eq_message hScan
    subst hp
    have hFront : rtspIsMessageStart front := by
      refine rtspIsMessageStart_of_append_cr (r := 0x0A :: crlf ++ tail) ?_
      simpa [crlf] using hStart
    have hHeaders : (front ++ crlf ++ crlf ++ tail).take (front.length + 4) =
        front ++ (crlf ++ crlf) := by
      simp [crlf, List.take_append]
    rw [RtspScan.Starts, hHeaders]
    exact rtspIsMessageStart_append hFront _

theorem rtspScan_starts (n : Nat) (p : Bytes) : (rtspScan n p).Starts := by
  induction n generalizing p with
  | zero => exact fun h => absurd h (by decide)
  | succ n ih =>
    by_cases hRoom : p.length < rtspBufSize - 1
    · rw [rtspScan_succ n hRoom]
      generalize rtspSkipInterleaved p.length p = q
      split_ifs
      · exact fun h => absurd h (by decide)
      · cases hLeft : rtspLeftover q with
        | some q' => exact ih q'
        | none =>
          refine rtspScanHeaders_starts ?_
          rcases rtspLeftover_eq_none hLeft with rfl | hStart | hNone | hZero
          · exact .inr rfl
          · exact .inl hStart
          · exact .inr (strstr_append_eq_none hNone)
          · exact .inl (rtspFindMessageStart_zero hZero)
    · rw [rtspScan, if_pos (by omega)]
      trivial

theorem rtspCalls_starts (fuel : Nat) {inBody : Bool} {p : Bytes}
    (hp : inBody = true → rtspIsMessageStart p) :
    (∀ m ∈ (rtspCalls fuel inBody p).1, rtspIsMessageStart m.1) ∧
      ∀ buf, (rtspCalls fuel inBody p).2 = .waiting buf true → rtspIsMessageStart buf := by
  induction fuel generalizing inBody p with
  | zero =>
    refine ⟨by simp [rtspCalls], fun buf h => ?_⟩
    obtain ⟨rfl, rfl⟩ := RtspReader.waiting.inj h
    exact hp rfl
  | succ fuel ih =>
    have hScan : (rtspResume inBody p).Starts := by
      cases inBody with
      | false => exact rtspScan_starts _ _
      | true => exact rtspScanHeaders_starts (.inl (hp rfl))
    rw [rtspCalls]
    cases hResume : rtspResume inBody p with
    | more buf inBody' =>
      rw [hResume] at hScan
      refine ⟨by simp, fun buf' h => ?_⟩
      obtain ⟨rfl, rfl⟩ := RtspReader.waiting.inj h
      exact hScan rfl
    | fail => exact ⟨by simp, fun _ h => by cases h⟩
    | message headers body rest =>
      rw [hResume] at hScan
      have hNone : false = true → rtspIsMessageStart rest := fun h => absurd h (by decide)
      obtain ⟨hOut, hBuf⟩ := ih hNone
      exact ⟨List.forall_mem_cons.2 ⟨hScan, hOut⟩, hBuf⟩

/-- **Start lines.** Every header handed out begins like a message. -/
theorem rtspReturns_start {r : RtspReader} (vs : List Recv)
    (hr : ∀ buf, r = .waiting buf true → rtspIsMessageStart buf) :
    ∀ m ∈ rtspReturns r vs, rtspIsMessageStart m.1 := by
  induction vs generalizing r with
  | nil => simp [rtspReturns]
  | cons v vs ih =>
    have hAfter : (∀ m ∈ (r.after v).1, rtspIsMessageStart m.1) ∧
        ∀ buf, (r.after v).2 = .waiting buf true → rtspIsMessageStart buf := by
      cases r with
      | failing => exact ⟨by simp [RtspReader.after], fun _ h => by cases h⟩
      | waiting buf inBody =>
        cases v with
        | timeout => exact rtspCalls_starts _ (fun h => by cases h)
        | data bytes =>
          refine rtspCalls_starts _ ?_
          rintro rfl
          exact rtspIsMessageStart_append (hr buf rfl) bytes
    intro m hm
    rcases List.mem_append.1 hm with hm | hm
    · exact hAfter.1 m hm
    · exact ih hAfter.2 m hm

end EspMiplay.Miplay
