import Mathlib.Data.Bool.AllAny
import EspMiplay.Lib.Base64
import EspMiplay.Miplay.CoverSize

/-!
# Covers inside a text

A cover in SetMediaInfo is an address, or the image itself in Base64. The buffer for it in an
event is to be as large as a frame can be, as the comment on `MIPLAY_COVER_SOURCE_MAX` says;
it is as large as a frame once was. `decode_base64_cover` takes what the buffer holds.

## Results

* `decodeBase64Cover_iff` — which images are decoded.
* `coverKept_iff`         — when no cover is lost.
-/

namespace EspMiplay.Dlna

open EspMiplay.Miplay

/-- `strncasecmp(s, word, strlen(word)) == 0`, for a word in lower case. -/
def startsNoCase (word s : Bytes) : Bool := ((cstr s).take word.length).map toLower = word

/-- What stands behind the comma of a data URI, and any other text that is no address. -/
def encodedPart (source : Bytes) : Option Bytes :=
  if startsNoCase (ascii "data:") source then
    match strchr 0x2C source with
    | none => none
    | some comma =>
      if strstr (ascii ";base64") source = none then none else some (comma.drop 1)
  else if startsNoCase (ascii "http://") source ∨ startsNoCase (ascii "https://") source ∨
      startsNoCase (ascii "file://") source then none
  else some source

/-- `decode_base64_cover`, with `mbedtls_base64_decode` and whether there is memory. -/
def decodeBase64Cover (base64Decode : Nat → Bytes → Option Bytes) (heap : Bool)
    (source : Bytes) : Option Bytes := do
  let encoded := cstr (← encodedPart source)
  if encoded.length < 8 ∨ encoded.length > miplayCoverSourceMax then none
  else
    let capacity := encoded.length * 3 / 4 + 4
    if !heap then none
    else
      let decoded ← base64Decode capacity encoded
      if decoded.length < 4 then none else some decoded

/-- An image in Base64, alone or in a data URI. -/
def IsBase64Cover (image source : Bytes) : Prop :=
  4 ≤ image.length ∧ (source = Base64.encode image ∨ ∃ scheme head,
    source = scheme ++ (head ++ (ascii ";base64," ++ Base64.encode image)) ∧
      scheme.map toLower = ascii "data:" ∧ ∀ c ∈ head, c ≠ 0x2C ∧ c ≠ 0)

section Decode

variable {image source : Bytes}

theorem encode_plain (image : Bytes) : ∀ c ∈ Base64.encode image, c ≠ 0 ∧ c ≠ 0x3A := by
  intro c hMem
  have hChar := Base64.encode_chars image c hMem
  constructor
  all_goals
    rintro rfl
    exact absurd hChar (by decide)

theorem toLower_colon {c : UInt8} (h : toLower c = 0x3A) : c = 0x3A := by
  have hAll : ∀ n : Fin 256, toLower (UInt8.ofNat n) = 0x3A → UInt8.ofNat n = 0x3A := by
    decide +kernel
  have hOne := hAll ⟨c.toNat, c.toNat_lt⟩
  rw [UInt8.ofNat_toNat] at hOne
  exact hOne h

/-- An address has a colon. -/
theorem colon_of_startsNoCase {word s : Bytes} (h : startsNoCase word s) (hColon : 0x3A ∈ word) :
    0x3A ∈ s := by
  have hWord : ((cstr s).take word.length).map toLower = word := of_decide_eq_true h
  rw [← hWord] at hColon
  obtain ⟨c, hMem, hLower⟩ := List.mem_map.1 hColon
  obtain rfl := toLower_colon hLower
  exact (List.takeWhile_prefix _).subset (List.mem_of_mem_take hMem)

theorem encodedPart_raw (image : Bytes) :
    encodedPart (Base64.encode image) = some (Base64.encode image) := by
  have hNone (word : Bytes) (hColon : 0x3A ∈ word) :
      ¬startsNoCase word (Base64.encode image) := fun h =>
    (encode_plain image _ (colon_of_startsNoCase h hColon)).2 rfl
  rw [encodedPart, if_neg (hNone _ (by decide)), if_neg]
  rintro (h | h | h)
  all_goals exact hNone _ (by decide) h

theorem encodedPart_cover (h : IsBase64Cover image source) :
    encodedPart source = some (Base64.encode image) := by
  obtain ⟨-, rfl | ⟨scheme, head, rfl, hScheme, hHead⟩⟩ := h
  · exact encodedPart_raw image
  have hLen : scheme.length = 5 := by
    have hLower := congrArg List.length hScheme
    rw [List.length_map] at hLower
    exact hLower
  have hSchemeChars : ∀ c ∈ scheme, c ≠ 0 ∧ c ≠ 0x2C := by
    intro c hMem
    have hLower : toLower c ∈ ascii "data:" := by
      rw [← hScheme]
      exact List.mem_map_of_mem hMem
    constructor
    all_goals
      rintro rfl
      exact absurd hLower (by decide)
  have hFront : ∀ c ∈ scheme ++ head, c ≠ 0 ∧ c ≠ 0x2C := by
    intro c hMem
    rcases List.mem_append.1 hMem with hIn | hIn
    · exact hSchemeChars c hIn
    · exact (hHead c hIn).symm
  have hCstr : cstr (scheme ++ (head ++ (ascii ";base64," ++ Base64.encode image))) =
      scheme ++ (head ++ (ascii ";base64," ++ Base64.encode image)) := by
    refine cstr_of_no_nul fun c hMem => ?_
    rw [← List.append_assoc] at hMem
    rcases List.mem_append.1 hMem with hIn | hBehind
    · exact (hFront c hIn).1
    rcases List.mem_append.1 hBehind with hIn | hIn
    · have hAll : ∀ c ∈ ascii ";base64,", c ≠ 0 := List.all_iff_forall_prop.1 (by decide)
      exact hAll c hIn
    · exact (encode_plain image c hIn).1
  have hData : startsNoCase (ascii "data:")
      (scheme ++ (head ++ (ascii ";base64," ++ Base64.encode image))) := by
    have hFive : (ascii "data:").length = scheme.length := hLen.symm
    rw [startsNoCase, hCstr, hFive, List.take_left, hScheme]
    exact decide_eq_true rfl
  have hComma : strchr 0x2C (scheme ++ (head ++ (ascii ";base64," ++ Base64.encode image))) =
      some (0x2C :: Base64.encode image) := by
    rw [← List.append_assoc, strchr_skip hFront]
    rfl
  have hBase64 : strstr (ascii ";base64")
      (scheme ++ (head ++ (ascii ";base64," ++ Base64.encode image))) ≠ none := by
    rw [← List.append_assoc]
    exact strstr_ne_none (by decide) _ (0x2C :: Base64.encode image) fun c hMem =>
      (hFront c hMem).1
  rw [encodedPart, if_pos hData, hComma]
  simp only
  rw [if_neg hBase64]
  rfl

/-- **Images** are decoded up to the size of the buffer. -/
theorem decodeBase64Cover_iff {base64Decode : Nat → Bytes → Option Bytes}
    (hDecode : ∀ capacity image, image.length ≤ capacity →
      base64Decode capacity (Base64.encode image) = some image)
    (h : IsBase64Cover image source) :
    decodeBase64Cover base64Decode true source = some image ↔
      (Base64.encode image).length ≤ miplayCoverSourceMax := by
  have hImage := h.1
  have hLen := Base64.length_encode image
  have hCstr : cstr (Base64.encode image) = Base64.encode image :=
    cstr_of_no_nul fun c hMem => (encode_plain image c hMem).1
  rw [decodeBase64Cover, encodedPart_cover h]
  simp only [Option.bind_eq_bind, Option.bind_some, hCstr]
  by_cases hLong : (Base64.encode image).length ≤ miplayCoverSourceMax
  · have hRange : ¬((Base64.encode image).length < 8 ∨
        (Base64.encode image).length > miplayCoverSourceMax) := by omega
    have hCapacity : image.length ≤ (Base64.encode image).length * 3 / 4 + 4 := by omega
    have hFour : ¬image.length < 4 := by omega
    rw [if_neg hRange, hDecode _ _ hCapacity]
    simp [hFour, hLong]
  · rw [if_pos (.inr (Nat.lt_of_not_le hLong))]
    exact iff_of_false (by simp) hLong

theorem IsBase64Cover.length_le (h : IsBase64Cover image source) :
    (Base64.encode image).length ≤ source.length := by
  obtain ⟨-, rfl | ⟨scheme, head, rfl, -, -⟩⟩ := h
  · exact Nat.le_refl _
  · simp only [List.length_append]
    omega

end Decode

/-- The cover is in the event, and if it is an image it can be decoded. -/
structure CoverKept (base64Decode : Nat → Bytes → Option Bytes) (heap : Nat → Bool)
    (payload : Bytes) (cs : List Char) : Prop where
  carried : CarriesCover (miplayParseSetMediaInfoJson heap payload miplayMediaEventInit)
    (trimmed (Utf8.encode cs))
  decoded : ∀ image, IsBase64Cover image (trimmed (Utf8.encode cs)) →
    decodeBase64Cover base64Decode true (trimmed (Utf8.encode cs)) = some image

/-- **Every payload** with a cover. -/
theorem coverKept_iff (base64Decode : Nat → Bytes → Option Bytes)
    (hDecode : ∀ capacity image, image.length ≤ capacity →
      base64Decode capacity (Base64.encode image) = some image)
    (heap : Nat → Bool) (payload : Bytes) (cs : List Char) (later : List Bytes)
    (h : FirstCover payload cs later) :
    CoverKept base64Decode heap payload cs ↔
      heap 0 ∧ (Holds cs ∨ SameLater heap payload cs later) := by
  rw [← carries_iff h]
  refine ⟨CoverKept.carried, fun hCarried => ⟨hCarried, fun image hImage => ?_⟩⟩
  -- what the event can hold is not too long for the decoder
  have hShort := h.length_lt hCarried
  rw [decodeBase64Cover_iff hDecode hImage]
  have hPart := hImage.length_le
  omega

def pngPayload : Bytes := ascii "\x7b\"mCoverUrl\":\"iVBORw0KGgo=\"\x7d"

def pngText : List Char := "iVBORw0KGgo=".toList

/-- A decoder that fills no more than it is given. -/
def boundedDecode (capacity : Nat) (text : Bytes) : Option Bytes :=
  (Base64.decode text).filter fun image => image.length ≤ capacity

theorem boundedDecode_encode (capacity : Nat) (image : Bytes) (hFits : image.length ≤ capacity) :
    boundedDecode capacity (Base64.encode image) = some image := by
  rw [boundedDecode, Base64.decode_encode]
  simp [hFits]

theorem pngCover_kept :
    CoverKept boundedDecode (fun _ => true) pngPayload pngText := by
  have hSpelled : Json.SpellsText pngText (Utf8.encode pngText) :=
    Json.spellsText_raw (List.all_iff_forall_prop.1 (by decide +kernel))
  have hFirst : FirstCover pngPayload pngText coverKeys.tail :=
    ⟨by decide, ⟨[], quoted "mCoverUrl", rfl, by simp, _, ascii "\x7d" ++ [0], hSpelled,
      by decide +kernel⟩, by decide +kernel⟩
  exact (coverKept_iff boundedDecode boundedDecode_encode (fun _ => true) pngPayload pngText
    coverKeys.tail hFirst).2 ⟨rfl, .inl ⟨by decide +kernel, by decide +kernel⟩⟩

/-- As many letters as there are bytes in the buffer. -/
def longText : List Char := List.replicate miplayCoverSourceMax 'A'

def longPayload : Bytes := ascii "\x7b\"mCoverUrl\":\"" ++ (Utf8.encode longText ++ ascii "\"\x7d")

theorem encode_longText : Utf8.encode longText = List.replicate miplayCoverSourceMax 0x41 := by
  rw [longText]
  generalize miplayCoverSourceMax = n
  induction n with
  | zero => rfl
  | succ n ih => rw [List.replicate_succ, Utf8.encode_cons, ih]; rfl

theorem longPayload_first : FirstCover longPayload longText coverKeys.tail := by
  have hMem {c : Char} (h : c ∈ longText) : c = 'A' := List.eq_of_mem_replicate h
  refine ⟨?_, ⟨[], quoted "mCoverUrl", rfl, by simp, Utf8.encode longText, ascii "\x7d" ++ [0],
    Json.spellsText_raw fun c h => ?_, ?_⟩, fun hBlank => ?_⟩
  · rw [longPayload, encode_longText, List.length_append, List.length_append,
      List.length_replicate]
    decide
  · rw [hMem h]
    decide
  · rw [longPayload, List.append_assoc, List.append_assoc]
    rfl
  · have hIn : 0x41 ∈ Utf8.encode longText := by
      rw [encode_longText]
      exact List.mem_replicate.2 ⟨by decide, rfl⟩
    exact absurd (hBlank 0x41 hIn) (by decide)

theorem trimmed_longText : trimmed (Utf8.encode longText) = Utf8.encode longText := by
  have hSpace : ¬isSpace 0x41 := by decide
  rw [encode_longText, trimmed, skipWhile, List.dropWhile_replicate, if_neg hSpace,
    List.reverse_replicate, List.dropWhile_replicate, if_neg hSpace, List.reverse_replicate]

/-- It is passed over. -/
theorem longCover_lost : ¬∀ payload cs later, FirstCover payload cs later →
    CoverKept boundedDecode (fun _ => true) payload cs := by
  intro hAll
  have hShort := longPayload_first.length_lt (hAll _ _ _ longPayload_first).carried
  rw [trimmed_longText, encode_longText, List.length_replicate] at hShort
  exact Nat.lt_irrefl _ hShort

end EspMiplay.Dlna
