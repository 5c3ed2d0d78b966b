import EspMiplay.Miplay.JsonLookup
import EspMiplay.Miplay.TextBounds
import EspMiplay.Wifi.Provision

/-!
# Credentials, from the portal to the next boot

The portal posts a network as JSON. `json_get_string` looks for the quoted key anywhere in the
text, for the next colon, and takes the string behind it: a backslash there keeps the character
behind it, `n`, `r` and `t` apart. What it finds goes through the targets (33 and 65 bytes), the
configuration the connect task makes (32 and 64, both with a NUL), the flash, and the
configuration that `wifi_init` loads at the next boot, for which it sets a threshold of its own.

## Results

* `json_get_eq`     — what the reader makes of a string it finds.
* `codes_text`      — which spellings it reads as JSON has them.
* `survives_iff`    — which networks get through, where the reader finds them.
* `open_network`    — one without a password does not.
-/

namespace EspMiplay.Wifi

open EspMiplay.Miplay (Bytes ascii cstr cstr_eq_self jsonSpace noBlanks peek quote skipWhile
  skip_blanks strchr strchr_skip strncpy strstr)

-- ---------------------------------------------------------------------------
-- The reader
-- ---------------------------------------------------------------------------

/-- What `json_get_string` makes of the character behind a backslash -/
def unescape (value : UInt8) : UInt8 :=
  if value = 0x6E then 0x0A else if value = 0x72 then 0x0D else if value = 0x74 then 0x09
  else value

def push (size : Nat) (out : Bytes) (value : UInt8) : Bytes :=
  if out.length + 1 < size then out ++ [value] else out

/-- The loop of `json_get_string`, behind the opening quote -/
def getChars (size : Nat) : Bytes → Bytes → Option Bytes
  | [], _ => none
  | c :: p, out =>
    if c = 0 then none
    else if c = 0x22 then some out
    else if c = 0x5C then
      match p with
      | [] => none
      | value :: p => if value = 0 then none else getChars size p (push size out (unescape value))
    else getChars size p (push size out c)

def jsonGetString (json key : Bytes) (size : Nat) : Option Bytes :=
  (strstr key json).bind fun p => (strchr 0x3A p).bind fun p =>
    let p := skipWhile jsonSpace (p.drop 1)
    if peek p = 0x22 then getChars size (p.drop 1) [] else none

/-- `http_handle_connect`, up to `start_sta_connect` -/
def postConnect (body : Bytes) : Option Credentials :=
  if body.length = 0 ∨ 256 ≤ body.length then none
  else
    match jsonGetString body (quote (ascii "ssid")) 33 with
    | none => none
    | some ssid =>
      if peek ssid = 0 then none
      else some ⟨ssid, (jsonGetString body (quote (ascii "password")) 65).getD []⟩

-- ---------------------------------------------------------------------------
-- The configurations
-- ---------------------------------------------------------------------------

inductive AuthMode where
  | open
  | wpa2Psk
  deriving DecidableEq

/-- `wifi_config_t`, with the fields as texts -/
structure StaConfig where
  ssid : Bytes
  password : Bytes
  authmode : AuthMode
  deriving DecidableEq

namespace Station

variable (s : Station)

/-- The configuration of `sta_connect_task` -/
def joinConfig : StaConfig :=
  ⟨s.taskConfig.ssid, s.taskConfig.password,
    if peek s.target.password ≠ 0 then .wpa2Psk else .open⟩

/-- The configuration of `wifi_init`, with CONFIG_WIFI_SSID and CONFIG_WIFI_PASSWORD -/
def wifiInitConfig (luck : Luck) (built : Credentials) : StaConfig :=
  match s.loadStaConfig luck with
  | some c => ⟨c.ssid, c.password, .wpa2Psk⟩
  | none => ⟨strncpy 32 built.ssid, strncpy 64 built.password, .wpa2Psk⟩

end Station

/-- The configuration is for this network, and admits it. -/
structure StaConfig.IsFor (c : StaConfig) (ssid password : Bytes) : Prop where
  name : c.ssid = ssid
  key : c.password = password
  admits : password = [] → c.authmode = .open

-- ---------------------------------------------------------------------------
-- What is posted
-- ---------------------------------------------------------------------------

/-- A member with this key is a string spelled so. -/
def HasString : Json.Members → List Char → Bytes → Prop
  | .nil, _, _ => False
  | .cons _ key _ _ v _ more, name, w =>
    (Json.SpellsText name (Json.spelling key) ∧ ∃ ps, v = .string ps ∧ Json.spelling ps = w) ∨
      HasString more name w

/-- A network, and a text of JSON that has it as two of its members. -/
structure Posting where
  ssid : List Char
  password : List Char
  doc : Json.Document
  pad : Json.Blanks
  members : Json.Members
  object : doc.value = .object pad members
  ssidText : Bytes
  passwordText : Bytes
  ssidMember : HasString members "ssid".toList ssidText
  passwordMember : HasString members "password".toList passwordText
  ssidSpelled : Json.SpellsText ssid ssidText
  passwordSpelled : Json.SpellsText password passwordText
  ssidNul : 0 ∉ Utf8.encode ssid
  passwordNul : 0 ∉ Utf8.encode password
  size : doc.bytes.length < 256
  ssidSize : 1 ≤ (Utf8.encode ssid).length ∧ (Utf8.encode ssid).length ≤ 32
  passwordSize : (Utf8.encode password).length = 0 ∨
    8 ≤ (Utf8.encode password).length ∧ (Utf8.encode password).length ≤ 64

/-- The connect request that is begun joins this network, and when it has been saved, so does the
next boot. -/
def Survives (body ssid password : Bytes) : Prop :=
  ∃ c, postConnect body = some c ∧ ∀ (s s' : Station) (luck : Luck),
    s.startStaConnect luck c.ssid c.password = (s', false) → s'.request = s.request + 1 →
      s'.joinConfig.IsFor ssid password ∧ ∀ (luck : Luck) (saved : Station),
        s'.saveCredentials luck s'.target = (saved, true) →
          ∀ (luck : Luck) (built : Credentials), luck.loadConfig = true →
            (saved.wifiInitConfig luck built).IsFor ssid password

def Posting.Survives (p : Posting) : Prop :=
  Wifi.Survives p.doc.bytes (Utf8.encode p.ssid) (Utf8.encode p.password)

/-- Behind the first quoted key, and the first colon behind it, stands this string. -/
def Finds (text key w : Bytes) : Prop :=
  ∃ mid rest : Bytes, ∃ blanks : Json.Blanks,
    strstr (quote key) text =
      some (quote key ++ (mid ++ 0x3A :: (blanks.bytes ++ 0x22 :: (w ++ 0x22 :: rest)))) ∧
    0x3A ∉ mid ∧ 0 ∉ mid

structure Posting.Found (p : Posting) : Prop where
  ssid : Finds p.doc.bytes (ascii "ssid") p.ssidText
  password : Finds p.doc.bytes (ascii "password") p.passwordText

/-- The escapes the reader knows -/
def knownEscapes : List (UInt8 × UInt8) :=
  [(0x22, 0x22), (0x5C, 0x5C), (0x2F, 0x2F), (0x6E, 0x0A), (0x72, 0x0D), (0x74, 0x09)]

/-- The text is written with no other escape. -/
inductive SpellsKnown : List Char → Bytes → Prop
  | nil : SpellsKnown [] []
  | raw {c : Char} {cs : List Char} {ws : Bytes} (hControl : 0x20 ≤ c.toNat)
      (hQuote : c.toNat ≠ 0x22) (hSlash : c.toNat ≠ 0x5C) (hs : SpellsKnown cs ws) :
      SpellsKnown (c :: cs) (String.utf8EncodeChar c ++ ws)
  | short {letter b : UInt8} {cs : List Char} {ws : Bytes} (h : (letter, b) ∈ knownEscapes)
      (hs : SpellsKnown cs ws) : SpellsKnown (Char.ofNat b.toNat :: cs) ([0x5C, letter] ++ ws)

/-- The network fits the configurations, and is not an open one. -/
structure Posting.Fits (p : Posting) : Prop where
  ssidKnown : SpellsKnown p.ssid p.ssidText
  passwordKnown : SpellsKnown p.password p.passwordText
  ssidSize : (Utf8.encode p.ssid).length ≤ 31
  closed : p.password ≠ []
  passwordSize : (Utf8.encode p.password).length ≤ 63

-- ---------------------------------------------------------------------------
-- What the reader reads
-- ---------------------------------------------------------------------------

section Reader

variable {w w' bs bs' : Bytes}

/-- In the text `w` is read as the bytes `bs`. -/
def Codes (w bs : Bytes) : Prop :=
  ∀ (size : Nat) (out rest : Bytes),
    getChars size (w ++ rest) out = getChars size rest (bs.foldl (push size) out)

theorem Codes.nil : Codes [] [] := fun _ _ _ => rfl

theorem Codes.append (h : Codes w bs) (h' : Codes w' bs') : Codes (w ++ w') (bs ++ bs') := by
  intro size out rest
  rw [List.append_assoc, h, h', List.foldl_append]

theorem codes_raw (hPlain : ∀ b ∈ bs, b ≠ 0 ∧ b ≠ 0x22 ∧ b ≠ 0x5C) : Codes bs bs := by
  induction bs with
  | nil => exact .nil
  | cons b bs ih =>
    obtain ⟨⟨hNul, hQuote, hSlash⟩, hTail⟩ := List.forall_mem_cons.1 hPlain
    have hOne : Codes [b] [b] := by
      intro size out rest
      rw [List.singleton_append, getChars.eq_def]
      simp only
      rw [if_neg hNul, if_neg hQuote, if_neg hSlash]
      rfl
    exact hOne.append (ih hTail)

theorem codes_escape {letter : UInt8} (hNul : letter ≠ 0) :
    Codes [0x5C, letter] [unescape letter] := by
  intro size out rest
  rw [List.cons_append, List.singleton_append, getChars.eq_def]
  simp only [if_true]
  rw [if_neg (by decide), if_neg (by decide), if_neg hNul]
  rfl

/-- An escape with digits: the reader keeps the `u` and the digits. -/
theorem codes_digits {n : Nat} {ds : Bytes} (h : Json.Hex4 n ds) :
    Codes (0x5C :: 0x75 :: ds) (0x75 :: ds) ∧ 0 ∉ 0x75 :: ds ∧ (0x75 :: ds).length = 5 := by
  have hPlain := h.plain
  have hLetter : Codes [0x5C, 0x75] [unescape 0x75] := codes_escape (by decide)
  refine ⟨hLetter.append (codes_raw hPlain), ?_, ?_⟩
  · rw [List.mem_cons, not_or]
    exact ⟨by decide, fun hMem => (hPlain 0 hMem).1 rfl⟩
  · rw [List.length_cons, h.length_eq]

/-- The buffer takes what there is room for. -/
theorem foldl_push {size : Nat} {out : Bytes} (hOut : out.length ≤ size - 1) (bs : Bytes) :
    bs.foldl (push size) out = (out ++ bs).take (size - 1) := by
  induction bs generalizing out with
  | nil => rw [List.append_nil, List.take_of_length_le hOut, List.foldl_nil]
  | cons b bs ih =>
    rw [List.foldl_cons, push]
    split_ifs with hRoom
    · rw [ih (by rw [List.length_append, List.length_singleton]; omega), List.append_assoc,
        List.singleton_append]
    · have hFull : out.length = size - 1 := by omega
      rw [ih hOut, ← hFull, List.take_left, List.take_left]

/-- **A character**: what is read is no shorter than the character, and is the character only where
it is written in a way the reader knows. -/
theorem codes_char {c : Char} (h : Json.Spells c w) : ∃ bs, Codes w bs ∧ 0 ∉ bs ∧
    (String.utf8EncodeChar c).length ≤ bs.length ∧
    (bs = String.utf8EncodeChar c →
      ∀ cs ws, SpellsKnown cs ws → SpellsKnown (c :: cs) (w ++ ws)) := by
  have hSize : (String.utf8EncodeChar c).length ≤ 4 := by
    rw [String.length_utf8EncodeChar]
    exact Char.utf8Size_le_four c
  cases h with
  | raw hControl hQuote hSlash =>
    have hPlain := Json.raw_plain hControl hQuote hSlash
    exact ⟨_, codes_raw hPlain, fun hMem => (hPlain 0 hMem).1 rfl, Nat.le_refl _,
      fun _ cs ws hs => .raw hControl hQuote hSlash hs⟩
  | @short letter b hEscape =>
    have hAll : ∀ e ∈ Json.shortEscapes, e.1 ≠ 0 ∧ unescape e.1 ≠ 0 ∧
        String.utf8EncodeChar (Char.ofNat e.2.toNat) = [e.2] ∧
        (unescape e.1 = e.2 → e ∈ knownEscapes) :=
      List.all_iff_forall_prop.1 (by decide)
    obtain ⟨hNul, hByte, hEncode, hKnown⟩ := hAll _ hEscape
    rw [hEncode]
    refine ⟨_, codes_escape hNul, fun hMem => hByte (List.mem_singleton.1 hMem).symm,
      Nat.le_refl _, fun hSame cs ws hs => .short (hKnown (List.cons.inj hSame).1) hs⟩
  | @unicode _ ds hDigits =>
    -- five bytes are read, and no character has more than four
    obtain ⟨hCodes, hNul, hLen⟩ := codes_digits hDigits
    refine ⟨_, hCodes, hNul, by omega, fun hSame => ?_⟩
    rw [← hSame] at hSize
    omega
  | @pair _ hi lo hBig hHigh hLow =>
    -- a pair of surrogates is two escapes, and so ten bytes
    obtain ⟨hCodes, hNul, hLen⟩ := codes_digits hHigh
    obtain ⟨hCodes', hNul', hLen'⟩ := codes_digits hLow
    have hBoth : (0x75 :: hi ++ 0x75 :: lo).length = 10 := by
      rw [List.length_append, hLen, hLen']
    refine ⟨_, hCodes.append hCodes', ?_, by omega, fun hSame => ?_⟩
    · rw [List.mem_append, not_or]
      exact ⟨hNul, hNul'⟩
    · rw [← hSame] at hSize
      omega

/-- **A text** -/
theorem codes_text {cs : List Char} (h : Json.SpellsText cs w) : ∃ bs, Codes w bs ∧ 0 ∉ bs ∧
    (Utf8.encode cs).length ≤ bs.length ∧ (bs = Utf8.encode cs → SpellsKnown cs w) := by
  induction h with
  | nil => exact ⟨[], .nil, List.not_mem_nil, Nat.le_refl _, fun _ => .nil⟩
  | cons hChar hText ih =>
    obtain ⟨bs, hCodes, hNul, hLen, hKnown⟩ := codes_char hChar
    obtain ⟨bs', hCodes', hNul', hLen', hKnown'⟩ := ih
    rw [Utf8.encode_cons]
    refine ⟨bs ++ bs', hCodes.append hCodes', ?_, ?_, fun hSame => ?_⟩
    · rw [List.mem_append, not_or]
      exact ⟨hNul, hNul'⟩
    · rw [List.length_append, List.length_append]
      omega
    · -- neither part is shorter than its own, so that both have the same length
      have hTotal := congrArg List.length hSame
      rw [List.length_append, List.length_append] at hTotal
      obtain ⟨hFirst, hRest⟩ := List.append_inj hSame (by omega)
      exact hKnown hFirst _ _ (hKnown' hRest)

theorem codes_known {cs : List Char} (h : SpellsKnown cs w) : Codes w (Utf8.encode cs) := by
  induction h with
  | nil => exact .nil
  | raw hControl hQuote hSlash hs ih =>
    rw [Utf8.encode_cons]
    exact (codes_raw (Json.raw_plain hControl hQuote hSlash)).append ih
  | @short letter b _ _ hEscape hs ih =>
    have hAll : ∀ e ∈ knownEscapes, e.1 ≠ 0 ∧
        String.utf8EncodeChar (Char.ofNat e.2.toNat) = [unescape e.1] :=
      List.all_iff_forall_prop.1 (by decide)
    obtain ⟨hNul, hEncode⟩ := hAll _ hEscape
    rw [Utf8.encode_cons, hEncode]
    exact (codes_escape hNul).append ih

/-- **`json_get_string`** at a string it finds -/
theorem json_get_eq {text key : Bytes} {size : Nat} (hFinds : Finds text key w)
    (hCodes : Codes w bs) (hKey : ∀ c ∈ quote key, c ≠ 0 ∧ c ≠ 0x3A) :
    jsonGetString text (quote key) size = some (bs.take (size - 1)) := by
  obtain ⟨mid, rest, blanks, hFind, hColon, hNul⟩ := hFinds
  have hMid : ∀ c ∈ mid, c ≠ 0 ∧ c ≠ 0x3A := by
    intro c hMem
    refine ⟨?_, ?_⟩
    · rintro rfl
      exact hNul hMem
    · rintro rfl
      exact hColon hMem
  have hPushed : bs.foldl (push size) [] = bs.take (size - 1) := by
    rw [foldl_push (Nat.zero_le _), List.nil_append]
  have hSkip : skipWhile jsonSpace (blanks.bytes ++ 0x22 :: (w ++ 0x22 :: rest)) =
      0x22 :: (w ++ 0x22 :: rest) := by
    rw [skip_blanks]
    rfl
  have hClosed (out : Bytes) : getChars size (0x22 :: rest) out = some out := by
    rw [getChars.eq_def]
    rfl
  rw [jsonGetString, hFind, Option.bind_some, strchr_skip hKey, strchr_skip hMid, strchr,
    if_pos rfl, Option.bind_some]
  simp only [List.drop_succ_cons, List.drop_zero, hSkip]
  rw [if_pos (by rfl), hCodes, hClosed, hPushed]

end Reader

-- ---------------------------------------------------------------------------
-- The way of a network
-- ---------------------------------------------------------------------------

section Way

variable {s s' : Station} {luck : Luck} {c : Credentials}

/-- The target of a connect request that is begun -/
theorem target_of_begun {ssid password : Bytes} {left : Bool}
    (hStart : s.startStaConnect luck ssid password = (s', left))
    (hBegun : s'.request = s.request + 1) :
    s'.target = ⟨strncpy 33 ssid, strncpy 65 password⟩ := by
  have hSame : s'.request ≠ s.request := by omega
  rw [Station.startStaConnect] at hStart
  by_cases hBusy : peek ssid = 0 ∨ s.task.isSome
  · rw [if_pos hBusy] at hStart
    rw [← (Prod.mk.inj hStart).1] at hSame
    exact absurd rfl hSame
  · rw [if_neg hBusy] at hStart
    cases hSession : s.ensureConnectSession luck with
    | none =>
      rw [hSession] at hStart
      rw [← (Prod.mk.inj hStart).1] at hSame
      refine absurd ?_ hSame
      split_ifs <;> rfl
    | some t =>
      rw [hSession] at hStart
      simp only at hStart
      split_ifs at hStart
      · rw [← (Prod.mk.inj hStart).1]
      · rw [← (Prod.mk.inj hStart).1]
      · rw [← (Prod.mk.inj hStart).1]

/-- What is stored by a save that succeeds -/
theorem saved_eq {saved : Station} (h : s.saveCredentials luck c = (saved, true)) :
    saved.nvsSsid = some c.ssid ∧ saved.nvsPassword = some c.password := by
  rw [Station.saveCredentials] at h
  split_ifs at h
  · cases (Prod.mk.inj h).2
  · cases (Prod.mk.inj h).2
  · rw [← (Prod.mk.inj h).1]
    exact ⟨rfl, rfl⟩

/-- A network that fits the buffers is loaded at the next boot. -/
theorem wifiInitConfig_eq (hSsid : s.nvsSsid = some c.ssid)
    (hPassword : s.nvsPassword = some c.password) (hLoad : luck.loadConfig = true)
    (built : Credentials) :
    s.wifiInitConfig luck built =
      if c.ssid.length < 32 ∧ c.password.length < 64 then ⟨c.ssid, c.password, .wpa2Psk⟩
      else ⟨strncpy 32 built.ssid, strncpy 64 built.password, .wpa2Psk⟩ := by
  rw [Station.wifiInitConfig, Station.loadStaConfig, hSsid, hPassword, hLoad]
  simp only [Option.mem_some_iff, forall_eq', Option.getD_some, true_and]
  split_ifs <;> rfl

/-- The configurations of a target whose texts have no NUL -/
theorem joinConfig_eq (hTarget : s.target = c) (hSsid : 0 ∉ c.ssid) (hPassword : 0 ∉ c.password) :
    s.joinConfig = ⟨c.ssid.take 31, c.password.take 63,
      if c.password = [] then .open else .wpa2Psk⟩ := by
  have hEmpty : peek c.password ≠ 0 ↔ c.password ≠ [] := by
    cases hText : c.password with
    | nil => simp [peek]
    | cons b bs =>
      rw [hText, List.mem_cons, not_or] at hPassword
      exact iff_of_true (Ne.symm hPassword.1) (List.cons_ne_nil _ _)
  have hSsidText : cstr c.ssid = c.ssid :=
    cstr_eq_self fun b hMem => ne_of_mem_of_not_mem hMem hSsid
  have hPasswordText : cstr c.password = c.password :=
    cstr_eq_self fun b hMem => ne_of_mem_of_not_mem hMem hPassword
  rw [Station.joinConfig, Station.taskConfig, hTarget, strncpy, strncpy, hSsidText, hPasswordText]
  by_cases hNone : c.password = []
  · rw [if_neg (by rw [hEmpty]; exact fun h => h hNone), if_pos hNone]
  · rw [if_pos (hEmpty.2 hNone), if_neg hNone]

/-- A connect request that is begun, in a speaker that has just booted -/
def idle : Station := .boot ⟨[], []⟩ none none

theorem begun (hSsid : peek c.ssid ≠ 0) : ∃ s',
    idle.startStaConnect Station.allWell c.ssid c.password = (s', false) ∧
      s'.request = idle.request + 1 := by
  rw [Station.startStaConnect, if_neg (by rw [not_or]; exact ⟨hSsid, by decide⟩)]
  exact ⟨_, rfl, rfl⟩

end Way

-- ---------------------------------------------------------------------------
-- Which networks get through
-- ---------------------------------------------------------------------------

section Survival

variable {p : Posting} {bs bs' : Bytes}

theorem Finds.text_ne_nil {text key w : Bytes} (h : Finds text key w) : text ≠ [] := by
  rintro rfl
  obtain ⟨mid, rest, blanks, hFind, -⟩ := h
  cases hFind

/-- What the handler finds, as far as its buffers go -/
theorem postConnect_eq (hFound : p.Found) (hSsid : Codes p.ssidText bs)
    (hPassword : Codes p.passwordText bs') (hNul : 0 ∉ bs) (hSome : bs ≠ []) :
    postConnect p.doc.bytes = some ⟨bs.take 32, bs'.take 64⟩ := by
  have hBody : ¬(p.doc.bytes.length = 0 ∨ 256 ≤ p.doc.bytes.length) := by
    have hText := List.length_pos_iff.2 hFound.ssid.text_ne_nil
    have hSize := p.size
    omega
  have hFirst : peek (bs.take 32) ≠ 0 := by
    cases bs with
    | nil => exact absurd rfl hSome
    | cons b bs =>
      rw [List.mem_cons, not_or] at hNul
      exact Ne.symm hNul.1
  rw [postConnect, if_neg hBody, json_get_eq hFound.ssid hSsid (by decide +kernel),
    json_get_eq hFound.password hPassword (by decide +kernel)]
  simp only [Nat.add_one_sub_one, Option.getD_some]
  rw [if_neg hFirst]

theorem postConnect_first {body : Bytes} {c : Credentials} (h : postConnect body = some c) :
    peek c.ssid ≠ 0 := by
  rw [postConnect] at h
  split_ifs at h
  cases hSsid : jsonGetString body (quote (ascii "ssid")) 33 with
  | none =>
    rw [hSsid] at h
    cases h
  | some ssid =>
    rw [hSsid] at h
    simp only at h
    split_ifs at h with hNone
    rw [← Option.some.inj h]
    exact hNone

/-- The texts that are read get through where they are those of the network, and fit the buffers of
the configuration with a NUL. -/
theorem survives_read (hFound : p.Found) (hSsid : Codes p.ssidText bs)
    (hPassword : Codes p.passwordText bs') (hNul : 0 ∉ bs) (hNul' : 0 ∉ bs') (hSome : bs ≠ []) :
    p.Survives ↔ (bs = Utf8.encode p.ssid ∧ bs.length ≤ 31) ∧
      bs' = Utf8.encode p.password ∧ bs'.length ≤ 63 ∧ bs' ≠ [] := by
  have hPosted := postConnect_eq hFound hSsid hPassword hNul hSome
  generalize hA : bs.take 32 = a at hPosted
  generalize hB : bs'.take 64 = b at hPosted
  have hNulA : 0 ∉ a := fun hMem => hNul (List.mem_of_mem_take (hA ▸ hMem))
  have hNulB : 0 ∉ b := fun hMem => hNul' (List.mem_of_mem_take (hB ▸ hMem))
  have hTarget : (⟨strncpy 33 a, strncpy 65 b⟩ : Credentials) = ⟨a, b⟩ := by
    rw [strncpy, strncpy, cstr_eq_self fun c hMem => ne_of_mem_of_not_mem hMem hNulA,
      cstr_eq_self fun c hMem => ne_of_mem_of_not_mem hMem hNulB, ← hA, ← hB, List.take_take,
      List.take_take, Nat.min_self, Nat.min_self]
  constructor
  · rintro ⟨c, hAccepted, hAll⟩
    obtain rfl := Option.some.inj (hAccepted.symm.trans hPosted)
    obtain ⟨s', hStart, hBegun⟩ := begun (c := ⟨a, b⟩) (postConnect_first hPosted)
    have hAt := (target_of_begun hStart hBegun).trans hTarget
    -- the request is saved, and the speaker boots with no network built in
    have hSaved : s'.saveCredentials Station.allWell s'.target =
      ({ s' with nvsSsid := some s'.target.ssid, nvsPassword := some s'.target.password }, true) :=
        rfl
    obtain ⟨hName, hKey, hAdmits⟩ :=
      (hAll _ s' _ hStart hBegun).2 _ _ hSaved Station.allWell ⟨[], []⟩ rfl
    rw [wifiInitConfig_eq rfl rfl rfl, hAt] at hName hKey hAdmits
    split_ifs at hName hKey hAdmits with hFits
    -- what is read fits, so none of the buffers has cut it
    · have hFits : a.length < 32 ∧ b.length < 64 := hFits
      have hWhole : bs = a := by
        have hLen := congrArg List.length hA
        rw [List.length_take] at hLen
        rw [← hA, List.take_of_length_le]
        omega
      have hWhole' : bs' = b := by
        have hLen := congrArg List.length hB
        rw [List.length_take] at hLen
        rw [← hB, List.take_of_length_le]
        omega
      rw [hWhole, hWhole']
      refine ⟨⟨hName, by omega⟩, hKey, by omega, fun hEmpty => ?_⟩
      cases hAdmits (hKey.symm.trans hEmpty)
    -- else the network that is built in is loaded, and its name is empty here
    · have hLen := p.ssidSize.1
      rw [← hName] at hLen
      cases hLen
  · rintro ⟨⟨rfl, hShort⟩, hSame, hShort', hClosed⟩
    refine ⟨_, hPosted, fun s s' luck hStart hBegun => ?_⟩
    have hAt := (target_of_begun hStart hBegun).trans hTarget
    rw [List.take_of_length_le (by omega)] at hA hB
    have hNone : b ≠ [] := by
      rw [← hB]
      exact hClosed
    have hOpen : Utf8.encode p.password ≠ [] := by
      rw [← hSame]
      exact hClosed
    refine ⟨?_, fun luck saved hSave luck' built hLoad => ?_⟩
    · rw [joinConfig_eq hAt hNulA hNulB]
      refine ⟨?_, ?_, fun hEmpty => absurd hEmpty hOpen⟩
      · rw [← hA]
        exact List.take_of_length_le hShort
      · rw [← hB, List.take_of_length_le hShort']
        exact hSame
    · obtain ⟨hSsidSaved, hPasswordSaved⟩ := saved_eq hSave
      rw [wifiInitConfig_eq hSsidSaved hPasswordSaved hLoad, hAt, if_pos]
      · exact ⟨hA.symm, hB.symm.trans hSame, fun hEmpty => absurd hEmpty hOpen⟩
      · show a.length < 32 ∧ b.length < 64
        rw [← hA, ← hB]
        exact ⟨by omega, by omega⟩

/-- **Which networks get through**, where the reader finds the two members: those it can read, with
a password, whose texts leave room for a NUL in the configuration. -/
theorem survives_iff (hFound : p.Found) : p.Survives ↔ p.Fits := by
  obtain ⟨bs, hCodes, hNul, hLen, hKnown⟩ := codes_text p.ssidSpelled
  obtain ⟨bs', hCodes', hNul', -, hKnown'⟩ := codes_text p.passwordSpelled
  have hSome : bs ≠ [] := List.length_pos_iff.1 (Nat.lt_of_lt_of_le p.ssidSize.1 hLen)
  constructor
  · intro hSurvives
    obtain ⟨⟨hSame, hShort⟩, hSame', hShort', hClosed⟩ :=
      (survives_read hFound hCodes hCodes' hNul hNul' hSome).1 hSurvives
    rw [hSame] at hShort
    rw [hSame'] at hShort' hClosed
    refine ⟨hKnown hSame, hKnown' hSame', hShort, fun hNone => hClosed ?_, hShort'⟩
    rw [hNone]
    rfl
  · rintro ⟨hSsid, hPassword, hShort, hClosed, hShort'⟩
    have hSsidSome := List.length_pos_iff.1 p.ssidSize.1
    refine (survives_read hFound (codes_known hSsid) (codes_known hPassword) p.ssidNul p.passwordNul
      hSsidSome).2 ⟨⟨rfl, hShort⟩, rfl, hShort', fun hNone => hClosed ?_⟩
    cases hText : p.password with
    | nil => rfl
    | cons c cs =>
      have hPos := Utf8.encodeChar_pos c
      rw [hText, Utf8.encode_cons] at hNone
      rw [(List.append_eq_nil_iff.1 hNone).1] at hPos
      cases hPos

end Survival

section Examples

/-- A text that needs no escape, piece by piece -/
def plainText (s : Bytes) (h : ∀ b ∈ s, 0x20 ≤ b ∧ b ≠ 0x22 ∧ b ≠ 0x5C) : List Json.Piece :=
  s.pmap Json.Piece.plain h

theorem spelling_plainText (s : Bytes) (h : ∀ b ∈ s, 0x20 ≤ b ∧ b ≠ 0x22 ∧ b ≠ 0x5C) :
    Json.spelling (plainText s h) = s := by
  induction s with
  | nil => rfl
  | cons b s ih =>
    have hTail := ih fun c hMem => h c (List.mem_cons_of_mem b hMem)
    exact congrArg (b :: ·) hTail

/-- `{"ssid":"home","password":…}` -/
def homeMembers (password : Bytes) (h : ∀ b ∈ password, 0x20 ≤ b ∧ b ≠ 0x22 ∧ b ≠ 0x5C) :
    Json.Members :=
  .cons noBlanks (plainText (ascii "ssid") (List.all_iff_forall_prop.1 (by decide))) noBlanks
    noBlanks (.string (plainText (ascii "home") (List.all_iff_forall_prop.1 (by decide)))) noBlanks
    (.cons noBlanks (plainText (ascii "password") (List.all_iff_forall_prop.1 (by decide))) noBlanks
      noBlanks (.string (plainText password h)) noBlanks .nil)

theorem home_bytes (password : Bytes) (h : ∀ b ∈ password, 0x20 ≤ b ∧ b ≠ 0x22 ∧ b ≠ 0x5C) :
    (⟨noBlanks, .object noBlanks (homeMembers password h), noBlanks⟩ : Json.Document).bytes =
      ascii "\x7b\"ssid\":\"home\",\"password\":\"" ++ (password ++ [0x22, 0x7D]) := by
  simp only [Json.Document.bytes, Json.Value.bytes, homeMembers, Json.Members.bytes, Json.quoted,
    spelling_plainText, noBlanks, List.nil_append, List.append_nil]
  show ascii "\x7b\"ssid\":\"home\",\"password\":\"" ++ (password ++ [0x22] ++ [0x7D]) = _
  rw [List.append_assoc password]
  rfl

theorem spells_ascii {cs : List Char} {s : Bytes}
    (hPlain : ∀ c ∈ cs, 0x20 ≤ c.toNat ∧ c.toNat ≠ 0x22 ∧ c.toNat ≠ 0x5C)
    (hBytes : Utf8.encode cs = s) : Json.SpellsText cs s := by
  rw [← hBytes]
  exact Json.spellsText_raw hPlain

/-- The network `home` with this password -/
def home (password : List Char) (h : ∀ b ∈ Utf8.encode password, 0x20 ≤ b ∧ b ≠ 0x22 ∧ b ≠ 0x5C)
    (hPlain : ∀ c ∈ password, 0x20 ≤ c.toNat ∧ c.toNat ≠ 0x22 ∧ c.toNat ≠ 0x5C)
    (hSize : (Utf8.encode password).length = 0 ∨
      8 ≤ (Utf8.encode password).length ∧ (Utf8.encode password).length ≤ 64) : Posting where
  ssid := "home".toList
  password := password
  doc := ⟨noBlanks, .object noBlanks (homeMembers (Utf8.encode password) h), noBlanks⟩
  pad := noBlanks
  members := homeMembers (Utf8.encode password) h
  object := rfl
  ssidText := ascii "home"
  passwordText := Utf8.encode password
  ssidMember := .inl ⟨by
    rw [spelling_plainText]
    exact spells_ascii (List.all_iff_forall_prop.1 (by decide)) (by decide),
    _, rfl, spelling_plainText _ _⟩
  passwordMember := .inr (.inl ⟨by
    rw [spelling_plainText]
    exact spells_ascii (List.all_iff_forall_prop.1 (by decide)) (by decide),
    _, rfl, spelling_plainText _ _⟩)
  ssidSpelled := spells_ascii (List.all_iff_forall_prop.1 (by decide)) (by decide)
  passwordSpelled := Json.spellsText_raw hPlain
  ssidNul := by decide +kernel
  passwordNul := fun hMem => by
    have hLow := (h 0 hMem).1
    revert hLow
    decide
  size := by
    have hFront : (ascii "\x7b\"ssid\":\"home\",\"password\":\"").length = 27 := by decide +kernel
    have hBehind : ([0x22, 0x7D] : Bytes).length = 2 := rfl
    rw [home_bytes, List.length_append, List.length_append, hFront, hBehind]
    omega
  ssidSize := by decide +kernel
  passwordSize := hSize

theorem home_found {password : List Char} (h hPlain hSize) :
    (home password h hPlain hSize).Found := by
  refine ⟨⟨[], ascii ",\"password\":\"" ++ (Utf8.encode password ++ [0x22, 0x7D]), noBlanks, ?_,
    List.not_mem_nil, List.not_mem_nil⟩,
    ⟨[], [0x7D], noBlanks, ?_, List.not_mem_nil, List.not_mem_nil⟩⟩
  · rw [home, home_bytes]
    rfl
  · rw [home, home_bytes]
    rfl

theorem spellsKnown_raw {cs : List Char}
    (h : ∀ c ∈ cs, 0x20 ≤ c.toNat ∧ c.toNat ≠ 0x22 ∧ c.toNat ≠ 0x5C) :
    SpellsKnown cs (Utf8.encode cs) := by
  induction cs with
  | nil => exact .nil
  | cons c cs ih =>
    obtain ⟨⟨hControl, hQuote, hSlash⟩, hTail⟩ := List.forall_mem_cons.1 h
    rw [Utf8.encode_cons]
    exact .raw hControl hQuote hSlash (ih hTail)

def closedHome : Posting :=
  home "opensesame".toList (List.all_iff_forall_prop.1 (by decide))
    (List.all_iff_forall_prop.1 (by decide)) (.inr (by decide +kernel))

theorem closedHome_survives : closedHome.Survives :=
  (survives_iff (p := closedHome) (home_found _ _ _)).2
    ⟨spellsKnown_raw (List.all_iff_forall_prop.1 (by decide)),
      spellsKnown_raw (List.all_iff_forall_prop.1 (by decide)), by decide +kernel,
      List.cons_ne_nil _ _, by decide +kernel⟩

/-- A network without a password -/
def openHome : Posting := home [] (List.forall_mem_nil _) (List.forall_mem_nil _) (.inl rfl)

/-- The next boot wants WPA2 of it. -/
theorem open_network : ¬∀ p : Posting, p.Survives := by
  intro hAll
  have hFound : openHome.Found := home_found _ _ _
  have hRead : Codes (ascii "home") (ascii "home") :=
    codes_raw (List.all_iff_forall_prop.1 (by decide))
  have hNul : 0 ∉ ascii "home" := by decide
  obtain ⟨-, -, -, hClosed⟩ :=
    (survives_read hFound hRead Codes.nil hNul List.not_mem_nil (List.cons_ne_nil _ _)).1
      (hAll openHome)
  exact hClosed rfl

end Examples

end EspMiplay.Wifi
