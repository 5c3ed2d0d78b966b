import EspMiplay.Dlna.Handover
import EspMiplay.Dlna.TitleText

/-!
# The URL of the stream

An URI stays as it was received, with the references of XML in it, up to `_do_play`: there
`&amp;` is undone, in one pass and into a buffer that is one byte shorter than the one it was
received in. The other references reach the HTTP pipeline as they are.

## Results

* `doPlayUri_render` — the loop, reference by reference.
* `handed_iff`       — when the pipeline gets the URL that was meant.
* `number_kept`      — an ampersand by its number.
-/

namespace EspMiplay.Dlna

open EspMiplay.Miplay (Bytes ascii cstr peek)

-- ---------------------------------------------------------------------------
-- From the request to the pipeline
-- ---------------------------------------------------------------------------

def ampRef : Bytes := ascii "amp"

/-- The loop of `_do_play`, with so many bytes left -/
def decodeAmp : Nat → Bytes → Bytes
  | 0, _ => []
  | _ + 1, [] => []
  | room + 1, c :: p =>
    if c = 0 then []
    else if (ascii "&amp;").isPrefixOf (c :: p) then 0x26 :: decodeAmp room (p.drop 4)
    else c :: decodeAmp room p

/-- What `_do_play` hands to the pipeline: `char decoded_uri[2048]`, up to two bytes -/
def doPlayUri (uri : Bytes) : Bytes := decodeAmp 2046 uri

/-- The two ways in which an URI becomes the current one -/
inductive Route where
  | current
  | next

def Route.tag : Route → Bytes
  | .current => ascii "CurrentURI"
  | .next => ascii "NextURI"

/-- `char uri[2048]`, or `next_uri[2048]`, and `xml_get` -/
def Route.uri (route : Route) (body : Bytes) : Bytes :=
  cstr (xmlGet body route.tag (List.replicate 2048 0)).2

/-- The handler, and for a next URI its promotion -/
def Route.arrive (route : Route) (p : Player) (task : Task) (luck : Luck) (body : Bytes)
    (metadata : Option Bytes) : Player :=
  match route with
  | .current => p.request luck (.setUri (route.uri body) metadata)
  | .next =>
    (p.request luck (.setNextUri (route.uri body) (metadata.getD []))).promoteNext task luck

/-- What is played of the current track -/
def handed (p : Player) : Option Bytes := p.trackUri.map doPlayUri

/-- The text between the tags that `xml_get` finds -/
def argumentText (body tag : Bytes) : Option Bytes :=
  (xmlOpen body tag).bind fun op => (xmlClose op tag).map fun q => op.take (op.length - q.length)

-- ---------------------------------------------------------------------------
-- References
-- ---------------------------------------------------------------------------

/-- What the loop makes of an item -/
def undone : Xml.Item → Bytes
  | .byte c => [c]
  | .ref body => if body = ampRef then [0x26] else 0x26 :: body ++ [0x3B]

section References

variable {body w rest : Bytes} {c : Char} {t : List Xml.Item} {i : Xml.Item}

theorem hexDigit_lt {d : UInt8} {n : Nat} (h : Xml.hexDigit d = some n) : n < 16 := by
  unfold Xml.hexDigit at h
  split_ifs at h <;> obtain rfl := Option.some.inj h <;> omega

theorem decDigit_lt {d : UInt8} {n : Nat} (h : Xml.decDigit d = some n) : n < 10 := by
  unfold Xml.decDigit at h
  split_ifs at h
  obtain rfl := Option.some.inj h
  omega

/-- Even its body is not shorter than the character it means. -/
theorem refChar_size (h : Xml.refChar body = some c) : c.utf8Size ≤ body.length := by
  have hOne (hAscii : c.toNat < 0x80) : c.utf8Size = 1 := by
    rw [Char.utf8Size, if_pos]
    exact Nat.le_of_lt_succ hAscii
  have hFour := c.utf8Size_le_four
  obtain ⟨hName, hAscii⟩ | ⟨d, ds, rfl, hNumber⟩ | ⟨d, ds, rfl, hNumber⟩ := Xml.refChar_cases h
  · rw [hOne hAscii]
    simp only [List.mem_cons, List.not_mem_nil, or_false] at hName
    obtain rfl | rfl | rfl | rfl | rfl := hName <;> decide +kernel
  · rw [List.length_cons, List.length_cons, List.length_cons]
    cases ds with
    | cons e ds =>
      rw [List.length_cons]
      omega
    | nil =>
      obtain ⟨n, hDigit, hEnd⟩ := Option.bind_eq_some_iff.1 hNumber
      have hValue := Option.some.inj hEnd
      have hSmall := hexDigit_lt hDigit
      rw [hOne (by omega)]
      omega
  · rw [List.length_cons, List.length_cons]
    cases ds with
    | nil =>
      obtain ⟨n, hDigit, hEnd⟩ := Option.bind_eq_some_iff.1 hNumber
      have hValue := Option.some.inj hEnd
      have hSmall := decDigit_lt hDigit
      rw [hOne (by omega)]
      omega
    | cons e ds =>
      cases ds with
      | cons f ds =>
        rw [List.length_cons, List.length_cons]
        omega
      | nil =>
        obtain ⟨m, hFirst, hRest⟩ := Option.bind_eq_some_iff.1 hNumber
        obtain ⟨n, hSecond, hEnd⟩ := Option.bind_eq_some_iff.1 hRest
        have hValue := Option.some.inj hEnd
        have hTens := decDigit_lt hFirst
        have hOnes := decDigit_lt hSecond
        rw [hOne (by omega)]
        omega

theorem ampRef_isPrefixOf {d : UInt8} {p : Bytes} :
    (ascii "&amp;").isPrefixOf (d :: p) ↔ d = 0x26 ∧ ampRef ++ [0x3B] <+: p := by
  rw [List.isPrefixOf_iff_prefix]
  change 0x26 :: (ampRef ++ [0x3B]) <+: d :: p ↔ _
  rw [List.cons_prefix_cons, eq_comm]

/-- Without an ampersand nothing changes. -/
theorem decodeAmp_copy (h : ∀ d ∈ w, d ≠ 0 ∧ d ≠ 0x26) (room : Nat) (rest : Bytes) :
    decodeAmp room (w ++ rest) = w.take room ++ decodeAmp (room - w.length) rest := by
  induction w generalizing room with
  | nil => simp
  | cons d w ih =>
    obtain ⟨⟨hNul, hAmp⟩, hRest⟩ := List.forall_mem_cons.1 h
    cases room with
    | zero => simp [decodeAmp]
    | succ room =>
      have hNot : ¬(ascii "&amp;").isPrefixOf (d :: (w ++ rest)) := by
        intro hPrefix
        exact hAmp (ampRef_isPrefixOf.1 hPrefix).1
      rw [List.cons_append, decodeAmp, if_neg hNul, if_neg hNot, ih hRest, List.take_succ_cons,
        List.length_cons, Nat.add_sub_add_right, List.cons_append]

theorem decodeAmp_item (h : i.Ok .text) (room : Nat) (rest : Bytes) :
    decodeAmp room (i.render ++ rest) =
      (undone i).take room ++ decodeAmp (room - (undone i).length) rest := by
  cases i with
  | byte d =>
    refine decodeAmp_copy (fun e hMem => ?_) room rest
    obtain rfl := List.mem_singleton.1 hMem
    exact ⟨h.2.2, h.2.1⟩
  | ref body =>
    obtain ⟨c, hChar⟩ := Option.isSome_iff_exists.1 h
    have hEnd : (0x3B : UInt8) ∉ body := Xml.refChar_not_mem hChar (by decide)
    rw [Xml.Item.render, List.cons_append, List.cons_append, undone, List.cons_append]
    cases room with
    | zero => simp [decodeAmp]
    | succ room =>
      by_cases hAmp : body = ampRef
      · have hThis : (ascii "&amp;").isPrefixOf (0x26 :: (body ++ [0x3B] ++ rest)) := by
          rw [ampRef_isPrefixOf, hAmp]
          exact ⟨rfl, List.prefix_append _ _⟩
        rw [decodeAmp, if_neg (by decide), if_pos hThis, if_pos hAmp, hAmp, List.take_succ_cons,
          List.take_nil, List.length_singleton, Nat.add_sub_cancel]
        rfl
      · have hNot : ¬(ascii "&amp;").isPrefixOf (0x26 :: (body ++ [0x3B] ++ rest)) := by
          intro hPrefix
          obtain ⟨-, behind, hSame⟩ := ampRef_isPrefixOf.1 hPrefix
          rw [List.append_assoc, List.append_assoc] at hSame
          exact hAmp (Xml.stop_unique (by decide) hEnd hSame).1.symm
        -- behind its ampersand the reference is copied
        have hPlain : ∀ d ∈ body ++ [0x3B], d ≠ 0 ∧ d ≠ 0x26 := by
          refine List.forall_mem_append.2 ⟨fun d hMem => ?_, by decide +kernel⟩
          constructor <;> rintro rfl <;>
            exact Xml.refChar_not_mem hChar (by decide) hMem
        rw [decodeAmp, if_neg (by decide), if_neg hNot, if_neg hAmp, decodeAmp_copy hPlain,
          List.take_succ_cons, List.length_cons, Nat.add_sub_add_right, List.cons_append]

/-- **The loop**, reference by reference, up to the end of the buffer -/
theorem doPlayUri_render (h : Xml.Ok .text t) :
    doPlayUri (Xml.render t) = (t.flatMap undone).take 2046 := by
  rw [doPlayUri]
  generalize 2046 = room
  induction t generalizing room with
  | nil => cases room <;> rfl
  | cons i t ih =>
    obtain ⟨hFirst, hRest⟩ := List.forall_mem_cons.1 h
    rw [Xml.render_cons, decodeAmp_item hFirst, ih hRest, List.flatMap_cons, List.take_append]

/-- Every reference is `&amp;`. -/
def AmpOnly (t : List Xml.Item) : Prop := ∀ body, .ref body ∈ t → body = ampRef

theorem length_undone (h : Xml.Ok .text t) :
    (t.flatMap undone).length ≤ (Xml.render t).length := by
  induction t with
  | nil => exact Nat.le_refl 0
  | cons i t ih =>
    rw [List.flatMap_cons, Xml.render_cons, List.length_append, List.length_append]
    have hRest := ih (List.forall_mem_cons.1 h).2
    have hFirst : (undone i).length ≤ i.render.length := by
      cases i with
      | byte d => exact Nat.le_refl 1
      | ref body =>
        rw [undone]
        split_ifs
        · exact Nat.succ_le_succ (Nat.zero_le _)
        · exact Nat.le_refl _
    omega

/-- Any other reference leaves two bytes or more too many. -/
theorem decode_gap (h : Xml.Ok .text t) :
    (Xml.decode .text t).length ≤ (t.flatMap undone).length ∧
      (¬AmpOnly t → (Xml.decode .text t).length + 2 ≤ (t.flatMap undone).length) := by
  induction t with
  | nil => exact ⟨Nat.le_refl 0, fun hNot => absurd (fun _ hMem => by cases hMem) hNot⟩
  | cons i t ih =>
    obtain ⟨hFirst, hRest⟩ := List.forall_mem_cons.1 h
    obtain ⟨hLe, hGap⟩ := ih hRest
    rw [Xml.decode_cons, List.flatMap_cons, List.length_append, List.length_append]
    cases i with
    | byte d =>
      have hSame : (Xml.Item.decode .text (.byte d)).length = (undone (.byte d)).length := rfl
      refine ⟨by omega, fun hNot => ?_⟩
      have hLater := hGap fun hAmp => hNot fun body hMem => by
        obtain hHere | hThere := List.mem_cons.1 hMem
        · cases hHere
        · exact hAmp body hThere
      omega
    | ref body =>
      obtain ⟨c, hChar⟩ := Option.isSome_iff_exists.1 hFirst
      have hSize := refChar_size hChar
      have hDecode : (Xml.Item.decode .text (.ref body)).length = c.utf8Size := by
        rw [Xml.Item.decode, hChar, Option.map_some, Option.getD_some,
          String.length_utf8EncodeChar]
      by_cases hAmp : body = ampRef
      · have hOne : (undone (.ref body)).length = 1 := by rw [undone, if_pos hAmp]; rfl
        have hChar' : c.utf8Size = 1 := by
          have hThis : Xml.refChar ampRef = some '&' := rfl
          rw [hAmp, hThis] at hChar
          cases hChar
          rfl
        refine ⟨by omega, fun hNot => ?_⟩
        have hLater := hGap fun hOthers => hNot fun other hMem => by
          obtain hHere | hThere := List.mem_cons.1 hMem
          · cases hHere
            exact hAmp
          · exact hOthers other hThere
        omega
      · have hLong : (undone (.ref body)).length = body.length + 2 := by
          rw [undone, if_neg hAmp, List.length_append, List.length_cons]
          rfl
        exact ⟨by omega, fun _ => by omega⟩

theorem decode_ampOnly (h : AmpOnly t) : Xml.decode .text t = t.flatMap undone := by
  induction t with
  | nil => rfl
  | cons i t ih =>
    have hRest := ih fun body hMem => h body (List.mem_cons_of_mem _ hMem)
    rw [Xml.decode_cons, List.flatMap_cons, hRest]
    congr 1
    cases i with
    | byte d => rfl
    | ref body =>
      obtain rfl := h body List.mem_cons_self
      decide +kernel

/-- The URL is handed over exactly when only `&amp;` is in its text, and it is not longer than
the buffer allows. -/
theorem doPlayUri_eq_iff (h : Xml.Ok .text t) (hSize : (Xml.render t).length ≤ 2047) :
    doPlayUri (Xml.render t) = Xml.decode .text t ↔
      AmpOnly t ∧ (Xml.decode .text t).length ≤ 2046 := by
  rw [doPlayUri_render h]
  constructor
  · intro hSame
    have hLen := congrArg List.length hSame
    have hAll := length_undone h
    obtain ⟨-, hGap⟩ := decode_gap h
    rw [List.length_take] at hLen
    refine ⟨?_, by omega⟩
    by_contra hNot
    -- the buffer cuts one byte at most, and another reference leaves two too many
    have hTwo := hGap hNot
    omega
  · rintro ⟨hAmp, hFits⟩
    rw [decode_ampOnly hAmp] at hFits ⊢
    exact List.take_of_length_le hFits

end References

-- ---------------------------------------------------------------------------
-- The two ways
-- ---------------------------------------------------------------------------

section Routes

variable {route : Route} {body raw : Bytes} {t : List Xml.Item}

/-- What `xml_get` finds is taken over whole. -/
theorem Route.uri_eq (hFound : argumentText body route.tag = some raw) (hNul : ∀ c ∈ raw, c ≠ 0)
    (hSize : raw.length ≤ 2047) : route.uri body = raw := by
  obtain ⟨op, hOpen, hRest⟩ := Option.bind_eq_some_iff.1 hFound
  obtain ⟨q, hClose, rfl⟩ := Option.map_eq_some_iff.1 hRest
  have hStored := @cstr_stored (List.replicate 2048 0) _ hNul (by
    rw [List.length_replicate]
    omega)
  simp only [Route.uri, xmlGet, hOpen, hClose]
  exact hStored

/-- It becomes the current track. -/
theorem Route.trackUri_arrive (p : Player) (task : Task) (luck : Luck) (metadata : Option Bytes)
    (hUri : route.uri body = raw) (hSome : peek raw ≠ 0)
    (hPlays : route = .current → isVideoUri raw = false) :
    (route.arrive p task luck body metadata).trackUri = some raw := by
  cases route with
  | next =>
    rw [Route.arrive, hUri, Player.promoteNext, Speaker.trackUri_doPlay]
    rfl
  | current =>
    have hNoVideo : ¬isVideoUri raw = true := by
      rw [hPlays rfl]
      exact Bool.false_ne_true
    rw [Route.arrive, hUri, Player.request, if_pos hSome, Player.setAvTransportUri]
    obtain ⟨dur, pos, saved, id, title, artist, hMetadata⟩ := Player.cbSetMetadata_eq
      ({ p with uri := raw, metadata := metadata.getD p.metadata }.cbSetUri raw)
      (metadata.getD p.metadata)
    rw [hMetadata, Player.cbSetUri, if_neg hNoVideo]

theorem nonzero_render (h : Xml.Ok .text t) : ∀ c ∈ Xml.render t, c ≠ 0 :=
  fun c hMem => (clean_render h c hMem).1

/-- **The URL of the stream** is handed over exactly when it is written with `&amp;` only and
has one byte less than the buffer that took it. -/
theorem handed_iff (p : Player) (task : Task) (luck : Luck) (metadata : Option Bytes)
    (hOk : Xml.Ok .text t) (hUrl : t ≠ []) (hSize : (Xml.render t).length ≤ 2047)
    (hFound : argumentText body route.tag = some (Xml.render t))
    (hPlays : route = .current → isVideoUri (Xml.render t) = false) :
    handed (route.arrive p task luck body metadata) = some (Xml.decode .text t) ↔
      AmpOnly t ∧ (Xml.decode .text t).length ≤ 2046 := by
  have hNul := nonzero_render hOk
  have hUri := Route.uri_eq hFound hNul hSize
  have hSome : peek (Xml.render t) ≠ 0 := by
    cases hText : Xml.render t with
    | nil =>
      obtain ⟨i, t, rfl⟩ := List.exists_cons_of_ne_nil hUrl
      rw [Xml.render_cons] at hText
      exact absurd (List.append_eq_nil_iff.1 hText).1 i.render_ne_nil
    | cons c text => exact hNul c (by rw [hText]; exact List.mem_cons_self)
  rw [handed, Route.trackUri_arrive p task luck metadata hUri hSome hPlays, Option.map_some,
    Option.some.injEq, doPlayUri_eq_iff hOk hSize]

/-- A signed URL, with an ampersand by its name and by its number -/
def signedUrl (amp : Bytes) : List Xml.Item :=
  (ascii "http://cdn/a.mp3?k=1").map .byte ++ (.ref amp :: (ascii "t=2").map .byte)

def signedBody (amp : Bytes) : Bytes :=
  ascii "<s:Body><u:SetAVTransportURI><CurrentURI>" ++ (Xml.render (signedUrl amp) ++
    ascii "</CurrentURI></u:SetAVTransportURI></s:Body>")

theorem signed_found : argumentText (signedBody ampRef) Route.current.tag =
      some (Xml.render (signedUrl ampRef)) ∧
    argumentText (signedBody (ascii "#38")) Route.current.tag =
      some (Xml.render (signedUrl (ascii "#38"))) := by
  decide +kernel

theorem signed_handed :
    handed (Route.current.arrive (.boot 0) .soap ⟨true, false⟩ (signedBody ampRef) none) =
        some (Xml.decode .text (signedUrl ampRef)) ↔
      AmpOnly (signedUrl ampRef) ∧ (Xml.decode .text (signedUrl ampRef)).length ≤ 2046 :=
  handed_iff (.boot 0) .soap ⟨true, false⟩ none (by decide +kernel) (List.cons_ne_nil _ _)
    (by decide +kernel) signed_found.1 fun _ => by decide +kernel

/-- By its number, the ampersand stays a reference. -/
theorem number_kept : ¬∀ (route : Route) (p : Player) (task : Task) (luck : Luck)
    (metadata : Option Bytes) (body : Bytes) (t : List Xml.Item), Xml.Ok .text t → t ≠ [] →
      (Xml.render t).length ≤ 2047 →
        argumentText body route.tag = some (Xml.render t) →
          (route = .current → isVideoUri (Xml.render t) = false) →
            handed (route.arrive p task luck body metadata) = some (Xml.decode .text t) := by
  intro hAll
  have hOk : Xml.Ok .text (signedUrl (ascii "#38")) := by decide +kernel
  have hSize : (Xml.render (signedUrl (ascii "#38"))).length ≤ 2047 := by decide +kernel
  have hAudio : isVideoUri (Xml.render (signedUrl (ascii "#38"))) = false := by decide +kernel
  have hHanded := hAll .current (.boot 0) .soap ⟨true, false⟩ none (signedBody (ascii "#38"))
    (signedUrl (ascii "#38")) hOk (List.cons_ne_nil _ _) hSize signed_found.2 fun _ => hAudio
  have hUri := Route.uri_eq signed_found.2 (nonzero_render hOk) hSize
  rw [handed, Route.trackUri_arrive _ _ _ _ hUri (by decide +kernel) fun _ => hAudio,
    Option.map_some, Option.some.injEq, doPlayUri_eq_iff hOk hSize] at hHanded
  have hName := hHanded.1 (ascii "#38") (by decide +kernel)
  revert hName
  decide +kernel

end Routes

end EspMiplay.Dlna
