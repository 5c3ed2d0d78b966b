import EspMiplay.Miplay.Effects
import EspMiplay.Miplay.Envelope
import EspMiplay.Miplay.TextBounds

/-!
# Keys and challenges in a payload

SetMirrorKey, SafetyAuth and SafetyAuthAck look for their fields with the string
functions, in a decrypted payload that ends where the phone ended it.

- `setMirrorKeyReads`, `safetyAuthReads` and `safetyAuthAckReads` are the
  handlers' parsers, access by access, over the payload alone.
- A payload without a NUL carries `strstr` past its end as soon as one of the
  three names of SetMirrorKey is not there, and a value without its closing
  quote every `strchr`. SafetyAuth logs four bytes of any payload.
- SetMirrorKey takes the first colon behind the first occurrence of a name, and
  sixteen bytes behind the quotes and blanks that follow it, whatever they are.

## Results

* `handleSetMirrorKey_keys`, `handleSafetyAuth_answer`, `peerAck_of_reads` — a
  parser that stays inside reads what the handler computes with.
* `keyIn_inValue_iff` — when what is installed is the field's own value.
* `keyParsing_iff`    — when the three of them stay inside, and SetMirrorKey
  installs nothing but complete values.
-/

namespace EspMiplay.Miplay

-- ---------------------------------------------------------------------------
-- The parsers
-- ---------------------------------------------------------------------------

/-- The quoted string behind a member name. -/
def quotedIn (maxLen : Nat) (p : Bytes) : Access Bytes := do
  let q ← skipIn isSeparator p
  if peek q ≠ 0x22 then return []
  match ← strchrIn 0x22 (q.drop 1) with
  | none => return []
  | some e =>
    if (q.drop 1).length - e.length ≤ maxLen then
      readSpan (q.drop 1) 0 ((q.drop 1).length - e.length)
    else return []

/-- The challenge; the first four bytes go to the log. -/
def safetyAuthReads (p : Bytes) : Access Bytes := do
  let _ ← readByte p 0
  let _ ← readByte p 1
  let _ ← readByte p 2
  let _ ← readByte p 3
  match memmem (ascii "\"authMsg\"") p with
  | some am => quotedIn 32 (am.drop 9)
  | none => return []

/-- The `authMsgAck` inside the envelope; `none` when the envelope is malformed. -/
def safetyAuthAckReads (p : Bytes) : Access (Option Bytes) := do
  let tagLen ← readByte p 0
  if tagLen ≠ 3 ∨ p.length < 9 then return none
  let jsonLen ← readByte p 8
  if jsonLen.toNat > p.length - 9 then return none
  match ← strstrIn (ascii "\"authMsgAck\"") (p.drop 9) with
  -- the search goes on behind `json_len`
  | some am => return some (← quotedIn 64 (am.drop 13))
  | none => return some []

def streamKeyName : Bytes := ascii "\"streamKey\""
def streamIvName : Bytes := ascii "\"streamIV\""
def mirrorAuthKeyName : Bytes := ascii "\"authKey\""

/-- Behind a colon: quotes and blanks are skipped, and sixteen bytes copied. -/
def keyIn (colon : Bytes) : Access Bytes := do
  let text ← skipIn isKeyPadding (colon.drop 1)
  let _ ← readSpan text 0 16
  return text

/-- Where the bytes that SetMirrorKey installs are copied from. -/
structure MirrorKeys where
  /-- key and IV, both or none -/
  stream : Option (Bytes × Bytes)
  auth : Option Bytes

def streamKeysIn (sk siv : Option Bytes) : Access (Option (Bytes × Bytes)) :=
  match sk, siv with
  | some sk, some siv => do
    let sk ← strchrIn 0x3A sk
    let siv ← strchrIn 0x3A siv
    match sk, siv with
    | some sk, some siv => do
      let key ← keyIn sk
      let iv ← keyIn siv
      return some (key, iv)
    | _, _ => return none
  | _, _ => return none

def mirrorAuthKeyIn (ak : Option Bytes) : Access (Option Bytes) :=
  match ak with
  | some ak => do
    match ← strchrIn 0x3A ak with
    | some ak => return some (← keyIn ak)
    | none => return none
  | none => return none

def setMirrorKeyReads (p : Bytes) : Access MirrorKeys := do
  let sk ← strstrIn streamKeyName p
  let siv ← strstrIn streamIvName p
  let ak ← strstrIn mirrorAuthKeyName p
  let stream ← streamKeysIn sk siv
  let auth ← mirrorAuthKeyIn ak
  return ⟨stream, auth⟩

/-- The keys afterwards: what is not found stays as it was. -/
def MirrorKeys.install (found : MirrorKeys) (keys : StreamKeys) : StreamKeys where
  key := (found.stream.map fun s => Block.ofBytes s.1).getD keys.key
  iv := (found.stream.map fun s => Block.ofBytes s.2).getD keys.iv
  has := keys.has || found.stream.isSome
  authKey := (found.auth.map fun text => text.take 16 ++ [0]).getD keys.authKey
  hasAuth := keys.hasAuth || found.auth.isSome

-- ---------------------------------------------------------------------------
-- Quoted values
-- ---------------------------------------------------------------------------

/-- What is behind a member name lets `quotedIn` stop. -/
def Closed (q : Bytes) : Prop :=
  ∃ b c rest, q = b ++ c :: rest ∧ (∀ d ∈ b, isSeparator d = true) ∧ isSeparator c = false ∧
    (c = 0x22 → 0x22 ∈ rest ∨ 0 ∈ rest)

/-- `memcpy` of what has been measured does not fault. -/
theorem readSpan_zero {p : Bytes} {n : Nat} (h : n ≤ p.length) :
    readSpan p 0 n = .ok (p.take n) := by
  rw [readSpan, if_pos (by omega), List.drop_zero]

/-- From the character the separators end at. -/
theorem quotedIn_skipped {maxLen : Nat} {p cs : Bytes} {c : UInt8}
    (hSkip : skipIn isSeparator p = .ok (c :: cs)) :
    quotedIn maxLen p =
      if c ≠ 0x22 then .ok []
      else
        strchrIn 0x22 cs >>= fun e =>
          .ok ((e.map fun e =>
            if cs.length - e.length ≤ maxLen then cs.take (cs.length - e.length) else []).getD
              []) := by
  rw [quotedIn, hSkip]
  show (if c ≠ 0x22 then (Except.ok [] : Access Bytes) else _) = _
  split_ifs with hQuote
  · rfl
  · refine congrArg (strchrIn 0x22 cs >>= ·) (funext fun e => ?_)
    cases e with
    | none => rfl
    | some e =>
      show (if cs.length - e.length ≤ maxLen then readSpan cs 0 (cs.length - e.length)
        else (Except.ok [] : Access Bytes)) = .ok (if _ then _ else _)
      split_ifs with hRoom
      · exact readSpan_zero (Nat.sub_le _ _)
      · rfl

theorem quotedIn_unskipped {maxLen : Nat} {p v : Bytes} (h : quotedIn maxLen p = .ok v) :
    ∃ c cs, skipIn isSeparator p = .ok (c :: cs) := by
  obtain ⟨q, hSkip, -⟩ := Access.bind_eq_ok.1 h
  obtain ⟨c, cs, rfl⟩ := List.exists_cons_of_ne_nil (skipIn_eq_ok.1 hSkip).2
  exact ⟨c, cs, hSkip⟩

/-- The length that is allowed plays no part in how far is read. -/
theorem quotedIn_ok_iff (maxLen : Nat) (p : Bytes) :
    (∃ v, quotedIn maxLen p = .ok v) ↔ Closed p := by
  constructor
  · rintro ⟨v, h⟩
    obtain ⟨c, cs, hSkip⟩ := quotedIn_unskipped h
    obtain ⟨b, rfl, hSkipped, hStop⟩ := skipIn_eq_cons.1 hSkip
    refine ⟨b, c, cs, rfl, hSkipped, hStop, fun hQuote => ?_⟩
    rw [quotedIn_skipped hSkip, if_neg (not_not_intro hQuote)] at h
    obtain ⟨e, hClose, -⟩ := Access.bind_eq_ok.1 h
    exact (strchrIn_eq_ok.1 hClose).2
  · rintro ⟨b, c, rest, rfl, hSkipped, hStop, hClose⟩
    rw [quotedIn_skipped (skipIn_eq_cons.2 ⟨b, rfl, hSkipped, hStop⟩)]
    split_ifs with hQuote
    · exact ⟨_, rfl⟩
    · exact ⟨_, Access.bind_eq_ok.2
        ⟨_, strchrIn_eq_ok.2 ⟨rfl, hClose (not_not.1 hQuote)⟩, rfl⟩⟩

/-- A value read inside the payload is the one the handler reads. -/
theorem quotedIn_append {maxLen : Nat} {p v : Bytes} (h : quotedIn maxLen p = .ok v)
    (behind : Bytes) : quotedValue maxLen (p ++ behind) = v := by
  obtain ⟨c, cs, hSkip⟩ := quotedIn_unskipped h
  rw [quotedIn_skipped hSkip] at h
  rw [quotedValue, skipIn_append hSkip]
  simp only [List.cons_append, peek, List.headD_cons, List.drop_succ_cons, List.drop_zero]
  split_ifs at h ⊢ with hQuote
  · cases h
    rfl
  · obtain ⟨e, hClose, hValue⟩ := Access.bind_eq_ok.1 h
    rw [strchrIn_append hClose]
    obtain rfl := Except.ok.inj hValue
    cases e with
    | none => rfl
    | some e =>
      obtain ⟨w, rest, rfl, rfl, -⟩ := strchr_eq_some (strchrIn_eq_ok.1 hClose).1
      simp

-- ---------------------------------------------------------------------------
-- SafetyAuth
-- ---------------------------------------------------------------------------

theorem readByte_ok_iff {p : Bytes} {i : Nat} : (∃ b, readByte p i = .ok b) ↔ i < p.length := by
  constructor
  · rintro ⟨b, h⟩
    by_contra hPast
    rw [readByte, List.getElem?_eq_none (Nat.not_lt.1 hPast)] at h
    cases h
  · intro hInside
    exact ⟨p[i], by rw [readByte, List.getElem?_eq_getElem hInside]⟩

def authMsgName : Bytes := ascii "\"authMsg\""

/-- There are four bytes to log, and the member is closed if there is one. -/
def SafetyAuthWhole (p : Bytes) : Prop :=
  4 ≤ p.length ∧ ∀ am, memmem authMsgName p = some am → Closed (am.drop 9)

theorem safetyAuthReads_ok_iff (p : Bytes) :
    (∃ msg, safetyAuthReads p = .ok msg) ↔ SafetyAuthWhole p := by
  constructor
  · rintro ⟨msg, h⟩
    obtain ⟨-, -, h⟩ := Access.bind_eq_ok.1 h
    obtain ⟨-, -, h⟩ := Access.bind_eq_ok.1 h
    obtain ⟨-, -, h⟩ := Access.bind_eq_ok.1 h
    obtain ⟨b₃, hLog, h⟩ := Access.bind_eq_ok.1 h
    refine ⟨readByte_ok_iff.1 ⟨_, hLog⟩, fun am hFound => ?_⟩
    rw [authMsgName] at hFound
    rw [hFound] at h
    exact (quotedIn_ok_iff 32 _).1 ⟨msg, h⟩
  · rintro ⟨hLog, hClosed⟩
    obtain ⟨b₀, h₀⟩ := readByte_ok_iff.2 (by omega : 0 < p.length)
    obtain ⟨b₁, h₁⟩ := readByte_ok_iff.2 (by omega : 1 < p.length)
    obtain ⟨b₂, h₂⟩ := readByte_ok_iff.2 (by omega : 2 < p.length)
    obtain ⟨b₃, h₃⟩ := readByte_ok_iff.2 (by omega : 3 < p.length)
    rw [safetyAuthReads, h₀, h₁, h₂, h₃, ← authMsgName]
    cases hFound : memmem authMsgName p with
    | none => exact ⟨[], rfl⟩
    | some am => exact (quotedIn_ok_iff 32 _).2 (hClosed am hFound)

/-- The answer that is prepared for a challenge. -/
def Handler.answering (env : Env) (f : Frame) (h : Handler) (authKey msg : Bytes) : Handler :=
  { h with
    pendingAckHex := hexToLower (hmacSha256 env (authKey.take 32) (cstr msg))
    pendingAckSeq := f.seq
    pendingAckValid := true }

/-- The handler answers the challenge that was read inside the payload. -/
theorem handleSafetyAuth_answer {env : Env} {f : Frame} {h : Handler} {p msg : Bytes} {w : World}
    (hPlain : f.decrypted = some p) (hReads : safetyAuthReads p = .ok msg) :
    ((handleSafetyAuth env f h).run w).1 = h.answering env f w.regs.authKey msg := by
  obtain ⟨-, -, hReads⟩ := Access.bind_eq_ok.1 hReads
  obtain ⟨-, -, hReads⟩ := Access.bind_eq_ok.1 hReads
  obtain ⟨-, -, hReads⟩ := Access.bind_eq_ok.1 hReads
  obtain ⟨-, -, hReads⟩ := Access.bind_eq_ok.1 hReads
  rw [handleSafetyAuth, hPlain]
  dsimp only
  cases hFound : memmem (ascii "\"authMsg\"") p with
  | none =>
    rw [hFound] at hReads
    obtain rfl := Except.ok.inj hReads
    rfl
  | some am =>
    rw [hFound] at hReads
    dsimp only at hReads ⊢
    rw [quotedIn_append hReads f.behind]
    rfl

-- ---------------------------------------------------------------------------
-- SafetyAuthAck
-- ---------------------------------------------------------------------------

def authMsgAckName : Bytes := ascii "\"authMsgAck\""

/-- There is a byte to read, and in an envelope the search ends, at a member that
is closed or at a NUL. -/
def SafetyAuthAckWhole (p : Bytes) : Prop :=
  p ≠ [] ∧
    ((safetyEnvelopeSplit p).isSome →
      ((strstr authMsgAckName (p.drop 9)).isSome ∨ 0 ∈ p.drop 9) ∧
        ∀ am, strstr authMsgAckName (p.drop 9) = some am → Closed (am.drop 13))

/-- The parser behind the envelope. -/
def peerAckIn (json : Bytes) : Access (Option Bytes) :=
  strstrIn authMsgAckName json >>= fun am =>
    am.elim (.ok (some [])) fun am => quotedIn 64 (am.drop 13) >>= fun v => .ok (some v)

theorem safetyAuthAckReads_eq {p : Bytes} (hSome : p ≠ []) :
    safetyAuthAckReads p =
      if (safetyEnvelopeSplit p).isSome then peerAckIn (p.drop 9) else .ok none := by
  obtain ⟨c, cs, rfl⟩ := List.exists_cons_of_ne_nil hSome
  rw [safetyAuthAckReads, safetyEnvelopeSplit]
  show (if c ≠ 3 ∨ (c :: cs).length < 9 then (Except.ok none : Access (Option Bytes))
    else readByte (c :: cs) 8 >>= _) = _
  rw [List.getD_cons_zero]
  by_cases hHead : c ≠ 3 ∨ (c :: cs).length < 9
  · rw [if_pos hHead, if_pos hHead]
    rfl
  · have hLong : 8 < (c :: cs).length := Nat.lt_of_not_le (fun h => hHead (.inr (by omega)))
    have hRead : readByte (c :: cs) 8 = .ok ((c :: cs).getD 8 0) := by
      rw [readByte, List.getD_eq_getElem?_getD, List.getElem?_eq_getElem hLong]
      rfl
    rw [if_neg hHead, if_neg hHead, hRead]
    by_cases hShort : ((c :: cs).getD 8 0).toNat > (c :: cs).length - 9
    · rw [if_pos hShort]
      show (if _ then (Except.ok none : Access (Option Bytes)) else _) = _
      rw [if_pos hShort]
      rfl
    · rw [if_neg hShort]
      show (if _ then (Except.ok none : Access (Option Bytes)) else _) = _
      rw [if_neg hShort]
      refine congrArg (strstrIn authMsgAckName _ >>= ·) (funext fun am => ?_)
      cases am with
      | none => rfl
      | some am => rfl

theorem peerAckIn_ok_iff (json : Bytes) :
    (∃ ack, peerAckIn json = .ok ack) ↔
      ((strstr authMsgAckName json).isSome ∨ 0 ∈ json) ∧
        ∀ am, strstr authMsgAckName json = some am → Closed (am.drop 13) := by
  constructor
  · rintro ⟨ack, h⟩
    obtain ⟨found, hSearch, h⟩ := Access.bind_eq_ok.1 h
    obtain ⟨rfl, hEnd⟩ := (strstrIn_eq_ok (by decide)).1 hSearch
    refine ⟨hEnd, fun am hFound => ?_⟩
    rw [hFound] at h
    obtain ⟨v, hValue, -⟩ := Access.bind_eq_ok.1 h
    exact (quotedIn_ok_iff 64 _).1 ⟨v, hValue⟩
  · rintro ⟨hEnd, hClosed⟩
    rw [peerAckIn, (strstrIn_eq_ok (by decide)).2 ⟨rfl, hEnd⟩]
    cases hFound : strstr authMsgAckName json with
    | none => exact ⟨_, rfl⟩
    | some am =>
      obtain ⟨v, hValue⟩ := (quotedIn_ok_iff 64 _).2 (hClosed am hFound)
      refine ⟨some v, ?_⟩
      show quotedIn 64 (am.drop 13) >>= _ = _
      exact Access.bind_eq_ok.2 ⟨v, hValue, rfl⟩

theorem safetyAuthAckReads_ok_iff (p : Bytes) :
    (∃ ack, safetyAuthAckReads p = .ok ack) ↔ SafetyAuthAckWhole p := by
  by_cases hSome : p ≠ []
  · rw [safetyAuthAckReads_eq hSome, SafetyAuthAckWhole, and_iff_right hSome]
    split_ifs with hEnvelope
    · rw [peerAckIn_ok_iff, forall_prop_of_true hEnvelope]
    · exact iff_of_true ⟨none, rfl⟩ fun h => absurd h hEnvelope
  · obtain rfl := not_not.1 hSome
    refine iff_of_false ?_ fun h => h.1 rfl
    rintro ⟨ack, h⟩
    cases h

theorem safetyEnvelopeSplit_isSome {p : Bytes} (h : (safetyEnvelopeSplit p).isSome = true) :
    ¬(p.getD 0 0 ≠ 3 ∨ p.length < 9) ∧ ¬(p.getD 8 0).toNat > p.length - 9 := by
  rw [safetyEnvelopeSplit] at h
  dsimp only at h
  split_ifs at h with hHead hShort
  · cases h
  · cases h
  · exact ⟨hHead, hShort⟩

/-- The ack that the handler compares is the one read inside the payload. -/
theorem peerAck_of_reads {p : Bytes} {ack : Option Bytes} (h : safetyAuthAckReads p = .ok ack)
    (behind : Bytes) : peerAck p behind = ack := by
  have hSome : p ≠ [] := ((safetyAuthAckReads_ok_iff p).1 ⟨ack, h⟩).1
  rw [safetyAuthAckReads_eq hSome] at h
  obtain ⟨c, cs, rfl⟩ := List.exists_cons_of_ne_nil hSome
  split_ifs at h with hEnvelope
  · obtain ⟨hHead, hShort⟩ := safetyEnvelopeSplit_isSome hEnvelope
    obtain ⟨found, hSearch, h⟩ := Access.bind_eq_ok.1 h
    have hAgain : strstr (ascii "\"authMsgAck\"") ((c :: cs).drop 9 ++ behind) =
        found.map (· ++ behind) :=
      strstrIn_append (by decide) (by decide) hSearch
    rw [peerAck, List.cons_append, List.getD_cons_zero]
    rw [List.getD_cons_zero] at hHead
    rw [if_neg hHead, if_neg hShort, hAgain]
    cases found with
    | none => exact Except.ok.inj h
    | some am =>
      obtain ⟨v, hValue, hAck⟩ := Access.bind_eq_ok.1 h
      -- the extra byte of the offset is a byte of the payload
      have hInside : 13 ≤ am.length := by
        obtain ⟨b, d, rest, hRest, -⟩ := (quotedIn_ok_iff 64 _).1 ⟨v, hValue⟩
        have hLen := congrArg List.length hRest
        rw [List.length_drop, List.length_append, List.length_cons] at hLen
        omega
      show some (quotedValue 64 ((am ++ behind).drop 13)) = ack
      rw [List.drop_append_of_le_length hInside, quotedIn_append hValue behind]
      exact Except.ok.inj hAck
  · obtain rfl := Except.ok.inj h
    rw [← peerAck_isSome (c :: cs) behind] at hEnvelope
    exact Option.not_isSome_iff_eq_none.1 hEnvelope

-- ---------------------------------------------------------------------------
-- SetMirrorKey: a value of its own
-- ---------------------------------------------------------------------------

/-- At `s` stands a member with a quoted value of at least sixteen characters behind
its leading blanks; `text` is where these end. The loops pass no other white space than
blanks behind the colon. -/
def IsMember (name s text : Bytes) : Prop :=
  ∃ b₁ b₂ b₃ v rest,
    s = name ++ b₁ ++ 0x3A :: (b₂ ++ 0x22 :: (b₃ ++ text)) ∧ text = v ++ 0x22 :: rest ∧
      (∀ c ∈ b₁, jsonSpace c = true) ∧ (∀ c ∈ b₂ ++ b₃, c = 0x20) ∧
      (∀ c ∈ v, c ≠ 0x22 ∧ c ≠ 0) ∧ 16 ≤ v.length

/-- `text` is the value of a member of the payload. -/
def InValue (name p text : Bytes) : Prop := ∃ front s, p = front ++ s ∧ IsMember name s text

/-- The member that the first occurrence of the name leads to, over the first colon behind
it, is one of that name and has a complete value. -/
def Whole (name m : Bytes) : Prop :=
  ∃ w s text, m = w ++ s ∧ 0x3A ∉ w ∧ IsMember name s text ∧ peek text ≠ 0x20

theorem keyIn_eq_ok {colon text : Bytes} :
    keyIn colon = .ok text ↔ skipIn isKeyPadding (colon.drop 1) = .ok text ∧ 16 ≤ text.length := by
  constructor
  · intro h
    obtain ⟨q, hSkip, h⟩ := Access.bind_eq_ok.1 h
    obtain ⟨copied, hCopy, h⟩ := Access.bind_eq_ok.1 h
    obtain rfl := Except.ok.inj h
    refine ⟨hSkip, ?_⟩
    rw [readSpan] at hCopy
    split_ifs at hCopy with hRoom
    omega
  · rintro ⟨hSkip, hRoom⟩
    exact Access.bind_eq_ok.2 ⟨text, hSkip, Access.bind_eq_ok.2 ⟨_, readSpan_zero hRoom, rfl⟩⟩

theorem isKeyPadding_iff {c : UInt8} : isKeyPadding c = true ↔ c = 0x20 ∨ c = 0x22 := by
  rw [isKeyPadding, decide_eq_true_eq]

/-- **The value.** What is copied behind the first colon is the value of the field exactly
when the member found is whole. -/
theorem keyIn_inValue_iff {name p m colon : Bytes} (hColonFree : 0x3A ∉ name)
    (hFound : strstr name p = some m) (hColon : strchr 0x3A m = some colon) :
    (∃ text, keyIn colon = .ok text ∧ InValue name p text) ↔ Whole name m := by
  obtain ⟨-, hSuffix⟩ := strstr_eq_some hFound
  constructor
  · rintro ⟨text, hText, front, s, rfl, hMember⟩
    obtain ⟨w, r, rfl, rfl, hFirst⟩ := strchr_eq_some hColon
    obtain ⟨b₁, b₂, b₃, v, rest, hShape, -⟩ := id hMember
    obtain ⟨hSkip, -⟩ := keyIn_eq_ok.1 hText
    obtain ⟨c, cs, rfl⟩ := List.exists_cons_of_ne_nil (skipIn_eq_ok.1 hSkip).2
    obtain ⟨pad, hPad, hSkipped, hStop⟩ := skipIn_eq_cons.1 hSkip
    -- the member is not in front of the first occurrence of its name
    obtain ⟨w', hBehind⟩ : s <:+ w ++ 0x3A :: r := by
      refine List.suffix_of_suffix_length_le (List.suffix_append front s) hSuffix ?_
      rw [List.append_assoc] at hShape
      rw [hShape]
      exact strstr_first hFound (by rw [hShape])
    -- and the colon that is found is its colon: none is skipped behind it
    have hSplit : w ++ 0x3A :: pad = w' ++ (name ++ b₁) ++ 0x3A :: (b₂ ++ 0x22 :: b₃) := by
      refine (List.append_left_inj (c :: cs)).1 ?_
      rw [List.drop_succ_cons, List.drop_zero] at hPad
      rw [hPad, hShape] at hBehind
      simpa using hBehind.symm
    have hNoColon : 0x3A ∉ pad := fun hMem => absurd (hSkipped _ hMem) (by decide)
    obtain ⟨rfl, -, -⟩ := (List.append_cons_inj_of_notMem hFirst hNoColon).1 hSplit
    refine ⟨w', s, c :: cs, hBehind.symm, ?_, hMember, ?_⟩
    · exact fun hMem => hFirst (List.mem_append_left _ hMem)
    · rintro rfl
      cases hStop
  · rintro ⟨w, s, text, rfl, hFirst, hMember, hHead⟩
    obtain ⟨b₁, b₂, b₃, v, rest, rfl, rfl, hSpaces, hBlanks, hChars, hLong⟩ := id hMember
    have hFront : 0x3A ∉ w ++ (name ++ b₁) := by
      rw [List.mem_append, List.mem_append]
      rintro (hMem | hMem | hMem)
      · exact hFirst hMem
      · exact hColonFree hMem
      · exact absurd (hSpaces _ hMem) (by decide)
    rw [← List.append_assoc w] at hColon
    obtain rfl := strchr_first hColon hFront
    obtain ⟨c, v, rfl⟩ := List.exists_cons_of_length_pos (by omega : 0 < v.length)
    have hStop : isKeyPadding c = false := by
      rw [Bool.eq_false_iff, ne_eq, isKeyPadding_iff, not_or]
      exact ⟨hHead, (hChars c List.mem_cons_self).1⟩
    have hSkipped : ∀ d ∈ b₂ ++ 0x22 :: b₃, isKeyPadding d = true := by
      intro d hMem
      rw [isKeyPadding_iff]
      rcases List.mem_append.1 hMem with hMem | hMem
      · exact .inl (hBlanks d (List.mem_append_left _ hMem))
      · rcases List.mem_cons.1 hMem with hQuote | hMem
        · exact .inr hQuote
        · exact .inl (hBlanks d (List.mem_append_right _ hMem))
    refine ⟨c :: v ++ 0x22 :: rest, keyIn_eq_ok.2 ⟨?_, ?_⟩, ?_⟩
    · refine skipIn_eq_cons.2 ⟨b₂ ++ 0x22 :: b₃, ?_, hSkipped, hStop⟩
      simp
    · rw [List.length_append]
      omega
    · obtain ⟨front, rfl⟩ := hSuffix
      exact ⟨front ++ w, _, (List.append_assoc ..).symm, hMember⟩

/-- A short value takes its closing quote along, and what follows it. -/
example : keyIn (ascii ":\"short\",\"streamIV\":") = .ok (ascii "short\",\"streamIV\":") := by
  rfl

-- ---------------------------------------------------------------------------
-- SetMirrorKey: what is installed
-- ---------------------------------------------------------------------------

/-- Nothing but complete values of the fields. -/
structure MirrorKeys.Complete (found : MirrorKeys) (p : Bytes) : Prop where
  stream : ∀ key iv, found.stream = some (key, iv) →
    InValue streamKeyName p key ∧ InValue streamIvName p iv
  auth : ∀ key, found.auth = some key → InValue mirrorAuthKeyName p key

/-- The search for the colon ends. -/
def Ended (m : Bytes) : Prop := 0x3A ∈ m ∨ 0 ∈ m

/-- Every search ends, and what has a colon is whole. -/
structure MirrorKeyWhole (p : Bytes) : Prop where
  searched : ∀ name ∈ [streamKeyName, streamIvName, mirrorAuthKeyName],
    (strstr name p).isSome ∨ 0 ∈ p
  stream : ∀ sk siv, strstr streamKeyName p = some sk → strstr streamIvName p = some siv →
    Ended sk ∧ Ended siv ∧ ((strchr 0x3A sk).isSome → (strchr 0x3A siv).isSome →
      Whole streamKeyName sk ∧ Whole streamIvName siv)
  auth : ∀ ak, strstr mirrorAuthKeyName p = some ak →
    Ended ak ∧ ((strchr 0x3A ak).isSome → Whole mirrorAuthKeyName ak)

section Fields

variable {p sk siv ak : Bytes}

/-- Both members at once: with one of the two colons missing nothing is installed. -/
theorem streamKeysIn_iff (hSk : strstr streamKeyName p = some sk)
    (hSiv : strstr streamIvName p = some siv) :
    (∃ stream, streamKeysIn (some sk) (some siv) = .ok stream ∧ ∀ key iv,
        stream = some (key, iv) → InValue streamKeyName p key ∧ InValue streamIvName p iv) ↔
      Ended sk ∧ Ended siv ∧ ((strchr 0x3A sk).isSome → (strchr 0x3A siv).isSome →
        Whole streamKeyName sk ∧ Whole streamIvName siv) := by
  constructor
  · rintro ⟨stream, h, hValues⟩
    obtain ⟨c, hC, h⟩ := Access.bind_eq_ok.1 h
    obtain ⟨c', hC', h⟩ := Access.bind_eq_ok.1 h
    obtain ⟨hC, hEnd⟩ := strchrIn_eq_ok.1 hC
    obtain ⟨hC', hEnd'⟩ := strchrIn_eq_ok.1 hC'
    refine ⟨hEnd, hEnd', fun hSome hSome' => ?_⟩
    rw [hC] at hSome
    rw [hC'] at hSome'
    obtain ⟨c, rfl⟩ := Option.isSome_iff_exists.1 hSome
    obtain ⟨c', rfl⟩ := Option.isSome_iff_exists.1 hSome'
    obtain ⟨key, hKey, h⟩ := Access.bind_eq_ok.1 h
    obtain ⟨iv, hIv, h⟩ := Access.bind_eq_ok.1 h
    obtain ⟨hInKey, hInIv⟩ := hValues key iv (Except.ok.inj h).symm
    exact ⟨(keyIn_inValue_iff (by decide) hSk hC).1 ⟨key, hKey, hInKey⟩,
      (keyIn_inValue_iff (by decide) hSiv hC').1 ⟨iv, hIv, hInIv⟩⟩
  · rintro ⟨hEnd, hEnd', hWhole⟩
    rw [streamKeysIn, strchrIn_eq_ok.2 ⟨rfl, hEnd⟩, strchrIn_eq_ok.2 ⟨rfl, hEnd'⟩]
    -- `strchr` looks for both colons before either is used
    cases hC : strchr 0x3A sk with
    | none => exact ⟨none, rfl, fun _ _ h => by cases h⟩
    | some c =>
      cases hC' : strchr 0x3A siv with
      | none => exact ⟨none, rfl, fun _ _ h => by cases h⟩
      | some c' =>
        obtain ⟨hWholeKey, hWholeIv⟩ := hWhole (by rw [hC]; rfl) (by rw [hC']; rfl)
        obtain ⟨key, hKey, hInKey⟩ := (keyIn_inValue_iff (by decide) hSk hC).2 hWholeKey
        obtain ⟨iv, hIv, hInIv⟩ := (keyIn_inValue_iff (by decide) hSiv hC').2 hWholeIv
        refine ⟨some (key, iv), ?_, ?_⟩
        · show keyIn c >>= _ = _
          exact Access.bind_eq_ok.2 ⟨key, hKey, Access.bind_eq_ok.2 ⟨iv, hIv, rfl⟩⟩
        · intro key' iv' h
          cases h
          exact ⟨hInKey, hInIv⟩

theorem mirrorAuthKeyIn_iff (hAk : strstr mirrorAuthKeyName p = some ak) :
    (∃ auth, mirrorAuthKeyIn (some ak) = .ok auth ∧ ∀ key,
        auth = some key → InValue mirrorAuthKeyName p key) ↔
      Ended ak ∧ ((strchr 0x3A ak).isSome → Whole mirrorAuthKeyName ak) := by
  constructor
  · rintro ⟨auth, h, hValue⟩
    obtain ⟨c, hC, h⟩ := Access.bind_eq_ok.1 h
    obtain ⟨hC, hEnd⟩ := strchrIn_eq_ok.1 hC
    refine ⟨hEnd, fun hSome => ?_⟩
    rw [hC] at hSome
    obtain ⟨c, rfl⟩ := Option.isSome_iff_exists.1 hSome
    obtain ⟨key, hKey, h⟩ := Access.bind_eq_ok.1 h
    exact (keyIn_inValue_iff (by decide) hAk hC).1
      ⟨key, hKey, hValue key (Except.ok.inj h).symm⟩
  · rintro ⟨hEnd, hWhole⟩
    rw [mirrorAuthKeyIn, strchrIn_eq_ok.2 ⟨rfl, hEnd⟩]
    cases hC : strchr 0x3A ak with
    | none => exact ⟨none, rfl, fun _ h => by cases h⟩
    | some c =>
      obtain ⟨key, hKey, hIn⟩ := (keyIn_inValue_iff (by decide) hAk hC).2
        (hWhole (by rw [hC]; rfl))
      refine ⟨some key, ?_, ?_⟩
      · show keyIn c >>= _ = _
        exact Access.bind_eq_ok.2 ⟨key, hKey, rfl⟩
      · intro key' h
        cases h
        exact hIn

end Fields

/-- The reads of SetMirrorKey, one by one. -/
theorem setMirrorKeyReads_eq_ok {p : Bytes} {found : MirrorKeys} :
    setMirrorKeyReads p = .ok found ↔
      ∃ sk siv ak, strstrIn streamKeyName p = .ok sk ∧ strstrIn streamIvName p = .ok siv ∧
        strstrIn mirrorAuthKeyName p = .ok ak ∧ streamKeysIn sk siv = .ok found.stream ∧
          mirrorAuthKeyIn ak = .ok found.auth := by
  constructor
  · intro h
    obtain ⟨sk, hSk, h⟩ := Access.bind_eq_ok.1 h
    obtain ⟨siv, hSiv, h⟩ := Access.bind_eq_ok.1 h
    obtain ⟨ak, hAk, h⟩ := Access.bind_eq_ok.1 h
    obtain ⟨stream, hStream, h⟩ := Access.bind_eq_ok.1 h
    obtain ⟨auth, hAuth, h⟩ := Access.bind_eq_ok.1 h
    obtain rfl := Except.ok.inj h
    exact ⟨sk, siv, ak, hSk, hSiv, hAk, hStream, hAuth⟩
  · rintro ⟨sk, siv, ak, hSk, hSiv, hAk, hStream, hAuth⟩
    rw [setMirrorKeyReads, hSk, hSiv, hAk]
    show streamKeysIn sk siv >>= _ = _
    exact Access.bind_eq_ok.2 ⟨_, hStream, Access.bind_eq_ok.2 ⟨_, hAuth, rfl⟩⟩

theorem setMirrorKeyReads_iff (p : Bytes) :
    (∃ found, setMirrorKeyReads p = .ok found ∧ found.Complete p) ↔ MirrorKeyWhole p := by
  constructor
  · rintro ⟨found, h, hComplete⟩
    obtain ⟨sk, siv, ak, hSk, hSiv, hAk, hStream, hAuth⟩ := setMirrorKeyReads_eq_ok.1 h
    obtain ⟨rfl, hEndSk⟩ := (strstrIn_eq_ok (by decide)).1 hSk
    obtain ⟨rfl, hEndSiv⟩ := (strstrIn_eq_ok (by decide)).1 hSiv
    obtain ⟨rfl, hEndAk⟩ := (strstrIn_eq_ok (by decide)).1 hAk
    constructor
    · intro name hName
      rcases List.mem_cons.1 hName with rfl | hName
      · exact hEndSk
      · rcases List.mem_cons.1 hName with rfl | hName
        · exact hEndSiv
        · exact List.mem_singleton.1 hName ▸ hEndAk
    · intro sk siv hFoundSk hFoundSiv
      rw [hFoundSk, hFoundSiv] at hStream
      exact (streamKeysIn_iff hFoundSk hFoundSiv).1 ⟨_, hStream, hComplete.stream⟩
    · intro ak hFoundAk
      rw [hFoundAk] at hAuth
      exact (mirrorAuthKeyIn_iff hFoundAk).1 ⟨_, hAuth, hComplete.auth⟩
  · intro hWhole
    have hSearch {name : Bytes} (hName : name ∈ [streamKeyName, streamIvName, mirrorAuthKeyName])
        (hText : name ≠ []) : strstrIn name p = .ok (strstr name p) :=
      (strstrIn_eq_ok hText).2 ⟨rfl, hWhole.searched name hName⟩
    obtain ⟨stream, hStream, hKeys⟩ : ∃ stream,
        streamKeysIn (strstr streamKeyName p) (strstr streamIvName p) = .ok stream ∧
          ∀ key iv, stream = some (key, iv) →
            InValue streamKeyName p key ∧ InValue streamIvName p iv := by
      cases hSk : strstr streamKeyName p with
      | none => exact ⟨none, rfl, fun _ _ h => by cases h⟩
      | some sk =>
        cases hSiv : strstr streamIvName p with
        | none => exact ⟨none, rfl, fun _ _ h => by cases h⟩
        | some siv => exact (streamKeysIn_iff hSk hSiv).2 (hWhole.stream sk siv hSk hSiv)
    obtain ⟨auth, hAuth, hKey⟩ : ∃ auth, mirrorAuthKeyIn (strstr mirrorAuthKeyName p) = .ok auth ∧
        ∀ key, auth = some key → InValue mirrorAuthKeyName p key := by
      cases hAk : strstr mirrorAuthKeyName p with
      | none => exact ⟨none, rfl, fun _ h => by cases h⟩
      | some ak => exact (mirrorAuthKeyIn_iff hAk).2 (hWhole.auth ak hAk)
    refine ⟨⟨stream, auth⟩, setMirrorKeyReads_eq_ok.2 ⟨_, _, _, ?_, ?_, ?_, hStream, hAuth⟩,
      ⟨hKeys, hKey⟩⟩
    · exact hSearch (by simp) (by decide)
    · exact hSearch (by simp) (by decide)
    · exact hSearch (by simp) (by decide)

-- ---------------------------------------------------------------------------
-- SetMirrorKey: the handler
-- ---------------------------------------------------------------------------

section Handler

variable {p m behind : Bytes}

theorem keyText_append {colon text : Bytes} (hColon : strchrIn 0x3A m = .ok (some colon))
    (hText : keyIn colon = .ok text) : keyText (m ++ behind) = some (text ++ behind) := by
  obtain ⟨w, rest, -, rfl, -⟩ := strchr_eq_some (strchrIn_eq_ok.1 hColon).1
  rw [keyText, strchrIn_append hColon]
  exact congrArg some (skipIn_append (keyIn_eq_ok.1 hText).1)

theorem keyText_append_none (hColon : strchrIn 0x3A m = .ok none) :
    keyText (m ++ behind) = none := by
  rw [keyText, strchrIn_append hColon]
  rfl

theorem found_append {name : Bytes} {found : Option Bytes} (hName : name ≠ []) (hText : 0 ∉ name)
    (h : strstrIn name p = .ok found) (behind : Bytes) :
    (strstr name (p ++ behind)).bind keyText = found.bind fun m => keyText (m ++ behind) := by
  rw [strstrIn_append hName hText h]
  cases found with
  | none => rfl
  | some m => rfl

/-- Key and IV are found in the memory as in the payload alone. -/
theorem streamKeys_append {sk siv : Option Bytes} {stream : Option (Bytes × Bytes)}
    (h : streamKeysIn sk siv = .ok stream) (behind : Bytes) :
    (stream = none ∧ ((sk.bind fun m => keyText (m ++ behind)) = none ∨
        (siv.bind fun m => keyText (m ++ behind)) = none)) ∨
      ∃ key iv, stream = some (key, iv) ∧ 16 ≤ key.length ∧ 16 ≤ iv.length ∧
        (sk.bind fun m => keyText (m ++ behind)) = some (key ++ behind) ∧
        (siv.bind fun m => keyText (m ++ behind)) = some (iv ++ behind) := by
  cases sk with
  | none => exact .inl ⟨(Except.ok.inj h).symm, .inl rfl⟩
  | some sk =>
    cases siv with
    | none => exact .inl ⟨(Except.ok.inj h).symm, .inr rfl⟩
    | some siv =>
      obtain ⟨c, hC, h⟩ := Access.bind_eq_ok.1 h
      obtain ⟨c', hC', h⟩ := Access.bind_eq_ok.1 h
      cases c with
      | none => exact .inl ⟨(Except.ok.inj h).symm, .inl (keyText_append_none hC)⟩
      | some c =>
        cases c' with
        | none => exact .inl ⟨(Except.ok.inj h).symm, .inr (keyText_append_none hC')⟩
        | some c' =>
          obtain ⟨key, hKey, h⟩ := Access.bind_eq_ok.1 h
          obtain ⟨iv, hIv, h⟩ := Access.bind_eq_ok.1 h
          exact .inr ⟨key, iv, (Except.ok.inj h).symm, (keyIn_eq_ok.1 hKey).2,
            (keyIn_eq_ok.1 hIv).2, keyText_append hC hKey, keyText_append hC' hIv⟩

theorem mirrorAuthKey_append {ak auth : Option Bytes} (h : mirrorAuthKeyIn ak = .ok auth)
    (behind : Bytes) :
    (ak.bind fun m => keyText (m ++ behind)) = auth.map (· ++ behind) ∧
      ∀ key, auth = some key → 16 ≤ key.length := by
  cases ak with
  | none =>
    obtain rfl := Except.ok.inj h
    exact ⟨rfl, fun _ h => by cases h⟩
  | some ak =>
    obtain ⟨c, hC, h⟩ := Access.bind_eq_ok.1 h
    cases c with
    | none =>
      obtain rfl := Except.ok.inj h
      exact ⟨keyText_append_none hC, fun _ h => by cases h⟩
    | some c =>
      obtain ⟨key, hKey, h⟩ := Access.bind_eq_ok.1 h
      obtain rfl := Except.ok.inj h
      refine ⟨keyText_append hC hKey, fun key' h => ?_⟩
      cases h
      exact (keyIn_eq_ok.1 hKey).2

/-- The keys are the same. -/
structure SameKeys (w w' : World) : Prop where
  keys : w'.keys = w.keys

instance : IsPreorder World SameKeys where
  refl _ := ⟨rfl⟩
  trans _ _ _ h h' := ⟨h'.keys.trans h.keys⟩

/-- Answering leaves the keys alone. -/
theorem ack_keys (env : Env) (i : Slot) (f : Frame) (cmd : UInt16) (body : Bytes) (w : World) :
    (w.after (ack env i f cmd body)).keys = w.keys := by
  have hSend : SendRules env (.ctl i) i f.sock SameKeys :=
    .of_log (fun _ _ => ⟨rfl⟩) (fun _ _ _ => ⟨rfl⟩) (fun _ _ _ _ _ => ⟨rfl⟩) (fun _ => ⟨rfl⟩)
  exact (ack_does hSend cmd body w).keys

/-- The handler installs what was read inside the payload. -/
theorem handleSetMirrorKey_keys {env : Env} {i : Slot} {f : Frame} {found : MirrorKeys} (w : World)
    (hReads : setMirrorKeyReads f.payload = .ok found) :
    (w.after (handleSetMirrorKey env i f)).keys = found.install w.keys := by
  obtain ⟨sk, siv, ak, hSk, hSiv, hAk, hStream, hAuth⟩ := setMirrorKeyReads_eq_ok.1 hReads
  obtain ⟨hAuthText, hAuthLong⟩ := mirrorAuthKey_append hAuth f.behind
  rw [← found_append (by decide) (by decide) hAk] at hAuthText
  have hStreamText := streamKeys_append hStream f.behind
  rw [← found_append (by decide) (by decide) hSk, ← found_append (by decide) (by decide) hSiv]
    at hStreamText
  have hAckKeys := ack_keys env i f 0x006D [0]
  rw [streamKeyName, streamIvName] at hStreamText
  rw [mirrorAuthKeyName] at hAuthText
  rw [handleSetMirrorKey, Frame.mem]
  dsimp only
  rw [hAuthText]
  -- key and IV are installed together, and the auth key by itself
  split
  · rename_i key' iv' hKey' hIv'
    obtain ⟨key, iv, hSome, hKey, hIv, rfl, rfl⟩ : ∃ key iv, found.stream = some (key, iv) ∧
        16 ≤ key.length ∧ 16 ≤ iv.length ∧ key' = key ++ f.behind ∧ iv' = iv ++ f.behind := by
      rw [hKey', hIv'] at hStreamText
      rcases hStreamText with ⟨-, hNone | hNone⟩ | ⟨key, iv, hSome, hKey, hIv, hText, hText'⟩
      · cases hNone
      · cases hNone
      · exact ⟨key, iv, hSome, hKey, hIv, Option.some.inj hText, Option.some.inj hText'⟩
    cases hFoundAuth : found.auth with
    | none =>
      refine (hAckKeys _).trans ?_
      simp [MirrorKeys.install, hFoundAuth, hSome, Block.ofBytes_append_right _ hKey,
        Block.ofBytes_append_right _ hIv]
    | some auth =>
      refine (hAckKeys _).trans ?_
      simp [MirrorKeys.install, hFoundAuth, hSome, Block.ofBytes_append_right _ hKey,
        Block.ofBytes_append_right _ hIv, List.take_append_of_le_length (hAuthLong auth hFoundAuth)]
  · rename_i hNot
    have hNone : found.stream = none := by
      rcases hStreamText with ⟨hNone, -⟩ | ⟨key, iv, -, -, -, hText, hText'⟩
      · exact hNone
      · exact (hNot _ _ hText hText').elim
    cases hFoundAuth : found.auth with
    | none =>
      refine (hAckKeys _).trans ?_
      simp [MirrorKeys.install, hFoundAuth, hNone]
    | some auth =>
      refine (hAckKeys _).trans ?_
      simp [MirrorKeys.install, hFoundAuth, hNone,
        List.take_append_of_le_length (hAuthLong auth hFoundAuth)]

end Handler

-- ---------------------------------------------------------------------------
-- The three handlers
-- ---------------------------------------------------------------------------

/-- SetMirrorKey stays inside the payload; it installs complete values of the fields, and
the keys of a field it does not find stay. -/
def MirrorKeyInside (p : Bytes) : Prop :=
  ∃ found, (setMirrorKeyReads p = .ok found ∧ found.Complete p) ∧
    ∀ env i (f : Frame) (w : World), f.payload = p →
      (w.after (handleSetMirrorKey env i f)).keys = found.install w.keys

/-- SafetyAuth stays inside the payload, and answers what it has read there. -/
def SafetyAuthInside (p : Bytes) : Prop :=
  ∃ msg, safetyAuthReads p = .ok msg ∧
    ∀ env (f : Frame) h (w : World), f.decrypted = some p →
      ((handleSafetyAuth env f h).run w).1 = h.answering env f w.regs.authKey msg

/-- So does SafetyAuthAck with what it compares. -/
def SafetyAuthAckInside (p : Bytes) : Prop :=
  ∃ ack, safetyAuthAckReads p = .ok ack ∧ ∀ behind, peerAck p behind = ack

/-- **Key and challenge parsing.** The handlers stay inside a payload, and SetMirrorKey
installs nothing but complete values, exactly when every search ends in it and every member
that is found is whole. -/
theorem keyParsing_iff (p : Bytes) :
    (MirrorKeyInside p ↔ MirrorKeyWhole p) ∧ (SafetyAuthInside p ↔ SafetyAuthWhole p) ∧
      (SafetyAuthAckInside p ↔ SafetyAuthAckWhole p) := by
  refine ⟨?_, ?_, ?_⟩
  · rw [← setMirrorKeyReads_iff]
    constructor
    · rintro ⟨found, hReads, -⟩
      exact ⟨found, hReads⟩
    · rintro ⟨found, hReads⟩
      refine ⟨found, hReads, ?_⟩
      rintro env i f w rfl
      exact handleSetMirrorKey_keys w hReads.1
  · rw [← safetyAuthReads_ok_iff]
    constructor
    · rintro ⟨msg, hReads, -⟩
      exact ⟨msg, hReads⟩
    · rintro ⟨msg, hReads⟩
      exact ⟨msg, hReads, fun env f h w hPlain => handleSafetyAuth_answer hPlain hReads⟩
  · rw [← safetyAuthAckReads_ok_iff]
    constructor
    · rintro ⟨ack, hReads, -⟩
      exact ⟨ack, hReads⟩
    · rintro ⟨ack, hReads⟩
      exact ⟨ack, hReads, peerAck_of_reads hReads⟩

/-- Key and IV as they should be, and no `authKey`. -/
def keysWithoutAuth : Bytes :=
  ascii "\x7b\"streamKey\":\"0123456789abcdef\",\"streamIV\":\"fedcba9876543210\"\x7d"

/-- The search for `authKey` leaves a payload that has none. -/
theorem keyParsing_overruns :
    ¬∀ p : Bytes, MirrorKeyInside p ∧ SafetyAuthInside p ∧ SafetyAuthAckInside p := by
  intro hAll
  obtain ⟨found, ⟨hReads, -⟩, -⟩ := (hAll keysWithoutAuth).1
  -- neither the name nor a NUL is there to stop `strstr`
  obtain ⟨_, _, ak, -, -, hAk, -⟩ := setMirrorKeyReads_eq_ok.1 hReads
  obtain ⟨hSearch, hEnd⟩ := (strstrIn_eq_ok (by decide)).1 hAk
  rw [← hSearch] at hEnd
  revert hEnd
  decide +kernel

end EspMiplay.Miplay
