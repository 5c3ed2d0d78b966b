import Mathlib
import EspMiplay.Dlna.LastChange
import EspMiplay.Dlna.SoapControl
import EspMiplay.Dlna.StreamUrl
import EspMiplay.Lib.XmlTree

/-!
# What is shown of a track

`SetAVTransportURI` and `SetNextAVTransportURI` keep the text of an URI and of its metadata as
they stand in the request, cut to the size of a buffer. `GetPositionInfo` and `GetMediaInfo` write
these texts between two tags again. A cut inside a reference, or inside a character of several
bytes, is in both responses.

## Results

* `Route.shown_eq`        — which part of the texts a response shows.
* `sendPositionInfo_room` — a response is not cut itself, and `sendMediaInfo_room` for the other.
* `echoed_iff`            — when the responses are documents that show what was received.
* `cut_inside`            — an URI whose last reference is cut.
-/

namespace EspMiplay.Dlna

open EspMiplay.Miplay (Bytes ascii cstr cstr_append_zero cstr_eq_self decimalPadded isDigit
  isDigit_decimal peek strchr strchr_skip strstr strstr_skip)
open Xml (Item IsText IsChars CutsClean)

-- ---------------------------------------------------------------------------
-- The texts that are kept
-- ---------------------------------------------------------------------------

def Route.metadataTag : Route → Bytes
  | .current => ascii "CurrentURIMetaData"
  | .next => ascii "NextURIMetaData"

/-- `s_metadata[16384]`, or `next_meta[2048]`, without the NUL -/
def Route.metadataLimit : Route → Nat
  | .current => 16383
  | .next => 2047

/-- The metadata behind `xml_get`, which writes into `s_metadata` itself or into an empty buffer -/
def Route.metadata (route : Route) (body sMetadata : Bytes) : Bytes :=
  match route with
  | .current => cstr (xmlGet body route.metadataTag sMetadata).2
  | .next => cstr (xmlGet body route.metadataTag (List.replicate 2048 0)).2

/-- The promotion of the next track, with the second attempt of `_do_play` where it is made -/
def Player.promotion (p : Player) (task : Task) (luck again : Luck) : Player :=
  let q := p.promoteNext task luck
  if q.sleepers.length = p.sleepers.length then q
  else q.wake again task (.retry (p.nextUri.getD []) 0 (.next p.nextMetadata))

/-- The player when the track of the request is the current one -/
def Route.shown (route : Route) (p : Player) (task : Task) (luck again : Luck)
    (body sMetadata : Bytes) : Player :=
  let uri := route.uri body
  let metadata := route.metadata body sMetadata
  match route with
  | .current => p.request luck (.setUri uri (some metadata))
  | .next => (p.request luck (.setNextUri uri metadata)).promotion task luck again

-- ---------------------------------------------------------------------------
-- The responses
-- ---------------------------------------------------------------------------

/-- One line of the formats -/
def infoLine (l : Bytes × Bytes) : Bytes :=
  0x3C :: (l.1 ++ (0x3E :: (l.2 ++ (0x3C :: 0x2F :: (l.1 ++ [0x3E])))))

/-- The envelope of the formats is the one of `soap_response`. -/
def infoText (action : Bytes) (lines : List (Bytes × Bytes)) : Bytes :=
  soapText (ascii "AVTransport") action (lines.flatMap infoLine)

def positionLines (dur posMs : Int) (uri metadata : Bytes) : List (Bytes × Bytes) :=
  let rel := fmtTime (posMs.tdiv 1000)
  [(ascii "Track", ascii "1"),
    (ascii "TrackDuration", fmtTime dur),
    (ascii "TrackMetaData", metadata),
    (ascii "TrackURI", uri),
    (ascii "RelTime", rel),
    (ascii "AbsTime", rel),
    (ascii "RelCount", ascii "0"),
    (ascii "AbsCount", ascii "0")]

/-- `send_position_info`, with what its callbacks return for the times -/
def sendPositionInfo (p : Player) (dur posMs : Int) : Bytes :=
  infoText (ascii "GetPositionInfo") (positionLines dur posMs (p.trackUri.getD []) p.metadata)

def mediaLines (dur : Int) (uri metadata : Bytes) : List (Bytes × Bytes) :=
  [(ascii "NrTracks", ascii "1"),
    (ascii "MediaDuration", fmtTime dur),
    (ascii "CurrentURI", uri),
    (ascii "CurrentURIMetaData", metadata),
    (ascii "NextURI", []),
    (ascii "NextURIMetaData", []),
    (ascii "PlayMedium", ascii "NONE"),
    (ascii "RecordMedium", ascii "NOT_IMPLEMENTED"),
    (ascii "WriteStatus", ascii "NOT_IMPLEMENTED")]

/-- `send_media_info` -/
def sendMediaInfo (p : Player) (dur : Int) : Bytes :=
  infoText (ascii "GetMediaInfo") (mediaLines dur (p.trackUri.getD []) p.metadata)

-- ---------------------------------------------------------------------------
-- What they are to say
-- ---------------------------------------------------------------------------

/-- A text of a well-formed request -/
structure Received (t : List Item) : Prop extends IsText t where
  chars : IsChars (Xml.render t)

/-- The name of the response -/
def infoName (action : Bytes) : Bytes := ascii "u:" ++ (action ++ ascii "Response")

def infoPath (action name : Bytes) : List Bytes :=
  [ascii "s:Envelope", ascii "s:Body", infoName action, name]

/-- The text there means what was received, or where it was cut the beginning of it. -/
def Echoed (root : Xml.Content) (path : List Bytes) (limit : Nat) (t : List Item) : Prop :=
  ∃ u, root.find path = some (.text u) ∧ Xml.decode .text u <+: Xml.decode .text t ∧
    ((Xml.render t).length ≤ limit → Xml.decode .text u = Xml.decode .text t)

/-- A response is a document, and shows the URI and the metadata that were received. -/
def Echoes (route : Route) (response action uriName metadataName : Bytes)
    (uri metadata : List Item) : Prop :=
  ∃ root, Xml.IsDocument response root ∧ Echoed root (infoPath action uriName) 2047 uri ∧
    Echoed root (infoPath action metadataName) route.metadataLimit metadata

/-- Both responses do, at any time of the track. -/
def EchoesTrack (route : Route) (p : Player) (uri metadata : List Item) : Prop :=
  ∀ dur posMs,
    Echoes route (sendPositionInfo p dur posMs) (ascii "GetPositionInfo") (ascii "TrackURI")
        (ascii "TrackMetaData") uri metadata ∧
      Echoes route (sendMediaInfo p dur) (ascii "GetMediaInfo") (ascii "CurrentURI")
        (ascii "CurrentURIMetaData") uri metadata

/-- A request for a track that can be played, with both texts where `xml_get` looks -/
structure Route.Request (route : Route) (body : Bytes) (uri metadata : List Item) : Prop where
  size : body.length ≤ 32768
  uriText : Received uri
  metadataText : Received metadata
  uriFound : argumentText body route.tag = some (Xml.render uri)
  metadataFound : argumentText body route.metadataTag = some (Xml.render metadata)
  someUri : uri ≠ []
  audio : route = .current → isVideoUri ((Xml.render uri).take 2047) = false

-- ---------------------------------------------------------------------------
-- What is kept
-- ---------------------------------------------------------------------------

section Kept

variable {route : Route} {body raw : Bytes} {uri metadata : List Item}

/-- A text is cut to the buffer. -/
theorem cstr_store {out t : Bytes} (hNul : ∀ c ∈ t, c ≠ 0) :
    cstr (store out t).2 = t.take (out.length - 1) :=
  (cstr_append_zero _ _).trans (cstr_eq_self fun c hMem => hNul c (List.mem_of_mem_take hMem))

theorem xmlGet_found {tag : Bytes} (out : Bytes) (hFound : argumentText body tag = some raw)
    (hNul : ∀ c ∈ raw, c ≠ 0) : cstr (xmlGet body tag out).2 = raw.take (out.length - 1) := by
  obtain ⟨op, hOpen, hRest⟩ := Option.bind_eq_some_iff.1 hFound
  obtain ⟨q, hClose, rfl⟩ := Option.map_eq_some_iff.1 hRest
  simp only [xmlGet, hOpen, hClose]
  exact cstr_store hNul

/-- `_do_play` on the way to `custom_dlna_update_uri`: it gets there, or waits. -/
theorem Player.doPlay_next (p : Player) (task : Task) (luck : Luck) (uri metadata : Option Bytes) :
    (p.doPlay task luck uri 0 (.next metadata)).sleepers = p.sleepers ∧
        (p.doPlay task luck uri 0 (.next metadata)).metadata = metadata.getD [] ∨
      (p.doPlay task luck uri 0 (.next metadata)).sleepers.length = p.sleepers.length + 1 := by
  cases uri with
  | none => exact .inl ⟨rfl, rfl⟩
  | some uri =>
    simp only [Player.doPlay]
    split_ifs with hRuns
    · exact .inl ⟨rfl, rfl⟩
    · exact .inr List.length_append

/-- The second attempt always gets there. -/
theorem Player.retry_next (p : Player) (task : Task) (luck : Luck) (uri : Bytes)
    (metadata : Option Bytes) :
    (p.wake luck task (.retry uri 0 (.next metadata))).trackUri = p.trackUri ∧
      (p.wake luck task (.retry uri 0 (.next metadata))).metadata = metadata.getD [] := by
  simp only [Player.wake, Player.retryPlay]
  split_ifs with hRuns
  · exact ⟨rfl, rfl⟩
  · exact ⟨rfl, rfl⟩

theorem Player.promotion_eq (p : Player) (task : Task) (luck again : Luck) :
    (p.promotion task luck again).trackUri = p.nextUri ∧
      (p.promotion task luck again).metadata = p.nextMetadata.getD [] := by
  have hTrack : (p.promoteNext task luck).trackUri = p.nextUri := by
    rw [Player.promoteNext, Speaker.trackUri_doPlay]
  obtain ⟨hAwake, hText⟩ | hAsleep := Player.doPlay_next
    { p with
      trackUri := p.nextUri
      nextUri := none
      nextMetadata := none
      promoted := if p.nextUri.isSome then p.nexts :: p.promoted else p.promoted }
    task luck p.nextUri p.nextMetadata
  · have hSame : (p.promoteNext task luck).sleepers.length = p.sleepers.length :=
      congrArg List.length hAwake
    rw [Player.promotion, if_pos hSame]
    exact ⟨hTrack, hText⟩
  · have hOther : (p.promoteNext task luck).sleepers.length ≠ p.sleepers.length := by
      intro hSame
      exact absurd (hAsleep.symm.trans hSame) (Nat.succ_ne_self _)
    rw [Player.promotion, if_neg hOther]
    -- the sleep is the one of the second attempt
    obtain ⟨hKept, hText⟩ := Player.retry_next (p.promoteNext task luck) task again
      (p.nextUri.getD []) p.nextMetadata
    exact ⟨hKept.trans hTrack, hText⟩

/-- A text that has an item has a byte, also where it is cut. -/
theorem peek_take (h : Xml.Ok .text uri) (hSome : uri ≠ []) (n : Nat) :
    peek ((Xml.render uri).take (n + 1)) ≠ 0 := by
  have hNul := nonzero_render h
  cases hText : Xml.render uri with
  | nil =>
    obtain ⟨i, t, rfl⟩ := List.exists_cons_of_ne_nil hSome
    rw [Xml.render_cons] at hText
    exact absurd (List.append_eq_nil_iff.1 hText).1 i.render_ne_nil
  | cons c text => exact hNul c (by rw [hText]; exact List.mem_cons_self)

/-- **What is shown** of a request: each text up to the end of its buffer -/
theorem Route.shown_eq (h : route.Request body uri metadata) (p : Player) (task : Task)
    (luck again : Luck) {sMetadata : Bytes} (hBuffer : sMetadata.length = 16384) :
    (route.shown p task luck again body sMetadata).trackUri =
        some ((Xml.render uri).take 2047) ∧
      (route.shown p task luck again body sMetadata).metadata =
        (Xml.render metadata).take route.metadataLimit := by
  have hUri : route.uri body = (Xml.render uri).take 2047 := by
    have hGet := xmlGet_found (List.replicate 2048 0) h.uriFound (nonzero_render h.uriText.ok)
    rwa [List.length_replicate] at hGet
  have hMetadata : route.metadata body sMetadata =
      (Xml.render metadata).take route.metadataLimit := by
    have hNul := nonzero_render h.metadataText.ok
    cases route with
    | current =>
      have hGet := xmlGet_found sMetadata h.metadataFound hNul
      rwa [hBuffer] at hGet
    | next =>
      have hGet := xmlGet_found (List.replicate 2048 0) h.metadataFound hNul
      rwa [List.length_replicate] at hGet
  have hSome : peek ((Xml.render uri).take 2047) ≠ 0 := peek_take h.uriText.ok h.someUri 2046
  cases route with
  | current =>
    have hNoVideo : ¬isVideoUri ((Xml.render uri).take 2047) = true := by
      rw [h.audio rfl]
      exact Bool.false_ne_true
    simp only [Route.shown, Player.request]
    rw [hUri, if_pos hSome, hMetadata, Player.setAvTransportUri]
    obtain ⟨dur, pos, saved, id, title, artist, hCallback⟩ := Player.cbSetMetadata_eq
      ({ p with uri := (Xml.render uri).take 2047
                metadata := (Xml.render metadata).take Route.current.metadataLimit }.cbSetUri
        ((Xml.render uri).take 2047)) ((Xml.render metadata).take Route.current.metadataLimit)
    simp only [Option.getD_some]
    rw [hCallback, Player.cbSetUri, if_neg hNoVideo]
    exact ⟨rfl, rfl⟩
  | next =>
    obtain ⟨hTrack, hText⟩ := Player.promotion_eq
      (p.request luck (.setNextUri (Route.next.uri body) (Route.next.metadata body sMetadata)))
      task luck again
    exact ⟨hTrack.trans (congrArg some hUri), hText.trans hMetadata⟩

end Kept

-- ---------------------------------------------------------------------------
-- The responses as documents
-- ---------------------------------------------------------------------------

def soapAttr (name value : String) : Xml.Attr := ⟨ascii name, (ascii value).map .byte⟩

/-- The elements around the lines -/
def envelope (action : Bytes) (inside : Xml.Content) : Xml.Content :=
  .element [] (ascii "s:Envelope")
    [soapAttr "xmlns:s" "http://schemas.xmlsoap.org/soap/envelope/",
      soapAttr "s:encodingStyle" "http://schemas.xmlsoap.org/soap/encoding/"]
    (.element [] (ascii "s:Body") []
      (.element [] (infoName action)
        [soapAttr "xmlns:u" "urn:schemas-upnp-org:service:AVTransport:1"] inside (.text []))
      (.text []))
    (.text [])

/-- What `soap_response` writes in front of the parameters, and behind them -/
def soapOpening (action : Bytes) : Bytes :=
  ascii "<?xml version=\"1.0\" encoding=\"utf-8\"?>" ++
    (ascii "<s:Envelope xmlns:s=\"http://schemas.xmlsoap.org/soap/envelope/\"" ++
    (ascii " s:encodingStyle=\"http://schemas.xmlsoap.org/soap/encoding/\">" ++
    (ascii "<s:Body><u:" ++ (action ++
    (ascii "Response xmlns:u=\"urn:schemas-upnp-org:service:" ++
    (ascii "AVTransport" ++ ascii ":1\">"))))))

def soapClosing (action : Bytes) : Bytes :=
  ascii "</u:" ++ (action ++ ascii "Response></s:Body></s:Envelope>")

/-- A line whose text may stand between tags -/
def LineOk (l : Bytes × Bytes) : Prop :=
  Xml.isName l.1 ∧ ∃ t, IsText t ∧ IsChars (Xml.render t) ∧ Xml.render t = l.2

section Documents

variable {action : Bytes} {lines : List (Bytes × Bytes)} {l : Bytes × Bytes}
  {fs : List (Bytes × List Item)}

/-- The characters of a literal, without going through its bytes -/
theorem ascii_ofList (cs : List Char) :
    ascii (String.ofList cs) = cs.map fun c => c.toNat.toUInt8 := by
  rw [ascii, String.toList_ofList]

theorem length_ascii (cs : List Char) : (ascii (String.ofList cs)).length = cs.length := by
  rw [ascii_ofList, List.length_map]

theorem isPrintable_name {n : Bytes} (h : Xml.isName n) : ∀ c ∈ n, Xml.isPrintable c := by
  have hByte {c : UInt8} (hc : Xml.isNameByte c) : Xml.isPrintable c := by
    simp only [Xml.isNameByte, Xml.isNameStart, Bool.or_eq_true, Bool.and_eq_true,
      decide_eq_true_eq, UInt8.le_iff_toNat_le, ← UInt8.toNat_inj] at hc
    simp only [Xml.isPrintable, Bool.and_eq_true, decide_eq_true_eq]
    simp only [UInt8.toNat_ofNat] at hc
    omega
  cases n with
  | nil => exact List.forall_mem_nil _
  | cons c n =>
    rw [Xml.isName, Bool.and_eq_true, List.all_eq_true] at h
    refine List.forall_mem_cons.2 ⟨hByte ?_, fun d hMem => hByte (h.2 d hMem)⟩
    rw [Xml.isNameByte, h.1, Bool.true_or, Bool.true_or, Bool.true_or]

theorem render_fields (fs : List (Bytes × List Item)) :
    (Xml.Content.fields fs).render = (fs.map fun f => (f.1, Xml.render f.2)).flatMap infoLine := by
  induction fs with
  | nil => rfl
  | cons f fs ih =>
    rw [Xml.Content.fields, Xml.Content.render, ih, List.map_cons, List.flatMap_cons, infoLine]
    simp [Xml.Content.render]

theorem infoText_parts (action : Bytes) (lines : List (Bytes × Bytes)) :
    infoText action lines =
      soapOpening action ++ (lines.flatMap infoLine ++ soapClosing action) := by
  simp only [infoText, soapText, soapOpening, soapClosing, List.append_assoc]

/-- The text of a response, as the elements are written -/
theorem infoText_eq (action : Bytes) (fs : List (Bytes × List Item)) :
    infoText action (fs.map fun f => (f.1, Xml.render f.2)) =
      Xml.declaration ++ (envelope action (Xml.Content.fields fs)).render := by
  generalize hOuter : [soapAttr "xmlns:s" "http://schemas.xmlsoap.org/soap/envelope/",
    soapAttr "s:encodingStyle" "http://schemas.xmlsoap.org/soap/encoding/"] = outer
  generalize hInner : [soapAttr "xmlns:u" "urn:schemas-upnp-org:service:AVTransport:1"] = inner
  -- the formats in one piece up to each name, and the tags they are made of
  have hHead : ascii "<?xml version=\"1.0\" encoding=\"utf-8\"?>" ++
      (ascii "<s:Envelope xmlns:s=\"http://schemas.xmlsoap.org/soap/envelope/\"" ++
      (ascii " s:encodingStyle=\"http://schemas.xmlsoap.org/soap/encoding/\">" ++
      ascii "<s:Body><u:")) =
    Xml.declaration ++ 0x3C :: (ascii "s:Envelope" ++ (outer.flatMap Xml.Attr.render ++
      0x3E :: 0x3C :: (ascii "s:Body" ++ 0x3E :: 0x3C :: ascii "u:"))) := by
    rw [← hOuter]
    simp only [soapAttr, Xml.Attr.render, Xml.render_bytes, List.flatMap_cons, List.flatMap_nil]
    repeat rw [ascii_ofList]
    rfl
  have hMiddle : ascii "Response xmlns:u=\"urn:schemas-upnp-org:service:" ++
      (ascii "AVTransport" ++ ascii ":1\">") =
    ascii "Response" ++ (inner.flatMap Xml.Attr.render ++ [0x3E]) := by
    rw [← hInner]
    simp only [soapAttr, Xml.Attr.render, Xml.render_bytes, List.flatMap_cons, List.flatMap_nil]
    repeat rw [ascii_ofList]
    rfl
  have hClose : ascii "</u:" = 0x3C :: 0x2F :: ascii "u:" := by
    rw [ascii_ofList, ascii_ofList]
    rfl
  have hTail : ascii "Response></s:Body></s:Envelope>" =
    ascii "Response" ++ 0x3E :: 0x3C :: 0x2F :: (ascii "s:Body" ++
      0x3E :: 0x3C :: 0x2F :: (ascii "s:Envelope" ++ [0x3E])) := by
    repeat rw [ascii_ofList]
    rfl
  have hOpening : soapOpening action = Xml.declaration ++ 0x3C :: (ascii "s:Envelope" ++
      (outer.flatMap Xml.Attr.render ++ 0x3E :: 0x3C :: (ascii "s:Body" ++ 0x3E :: 0x3C ::
      (infoName action ++ (inner.flatMap Xml.Attr.render ++ [0x3E]))))) := by
    have hParts : soapOpening action = (ascii "<?xml version=\"1.0\" encoding=\"utf-8\"?>" ++
        (ascii "<s:Envelope xmlns:s=\"http://schemas.xmlsoap.org/soap/envelope/\"" ++
        (ascii " s:encodingStyle=\"http://schemas.xmlsoap.org/soap/encoding/\">" ++
        ascii "<s:Body><u:"))) ++ (action ++
        (ascii "Response xmlns:u=\"urn:schemas-upnp-org:service:" ++
        (ascii "AVTransport" ++ ascii ":1\">"))) := by
      simp only [soapOpening, List.append_assoc]
    rw [hParts, hHead, hMiddle]
    simp only [infoName, List.append_assoc, List.cons_append]
  rw [infoText_parts, ← render_fields, hOpening, soapClosing, hClose, hTail]
  simp only [envelope, hOuter, hInner, Xml.Content.render, infoName, Xml.render_nil,
    List.nil_append, List.append_assoc, List.cons_append, List.flatMap_nil]

theorem exists_fields (h : ∀ l ∈ lines, LineOk l) :
    ∃ fs : List (Bytes × List Item), fs.map (fun f => (f.1, Xml.render f.2)) = lines ∧
      ∀ f ∈ fs, Xml.isName f.1 ∧ IsText f.2 ∧ IsChars (Xml.render f.2) := by
  induction lines with
  | nil => exact ⟨[], rfl, List.forall_mem_nil _⟩
  | cons l lines ih =>
    obtain ⟨⟨hName, t, hText, hChars, hRender⟩, hRest⟩ := List.forall_mem_cons.1 h
    obtain ⟨fs, rfl, hFs⟩ := ih hRest
    refine ⟨(l.1, t) :: fs, ?_, List.forall_mem_cons.2 ⟨⟨hName, hText, hChars⟩, hFs⟩⟩
    rw [List.map_cons, hRender]

theorem isChars_infoLine (h : LineOk l) : IsChars (infoLine l) := by
  obtain ⟨hName, t, -, hChars, hRender⟩ := h
  rw [hRender] at hChars
  have hTag := Xml.isChars_printable (isPrintable_name hName)
  have hOpen : IsChars [0x3C] := Xml.isChars_printable (by simp [Xml.isPrintable])
  have hClose : IsChars [0x3E] := Xml.isChars_printable (by simp [Xml.isPrintable])
  have hEnd : IsChars [0x3C, 0x2F] := Xml.isChars_printable (by simp [Xml.isPrintable])
  exact hOpen.append (hTag.append (hClose.append (hChars.append (hEnd.append
    (hTag.append hClose)))))

theorem isChars_infoText (hAction : ∀ c ∈ action, Xml.isPrintable c) (h : ∀ l ∈ lines, LineOk l) :
    IsChars (infoText action lines) := by
  have hLines : IsChars (lines.flatMap infoLine) := by
    induction lines with
    | nil => exact ⟨[], List.forall_mem_nil _, rfl⟩
    | cons l lines ih =>
      obtain ⟨hFirst, hRest⟩ := List.forall_mem_cons.1 h
      exact (isChars_infoLine hFirst).append (ih hRest)
  have hName := Xml.isChars_printable hAction
  have hConst (s : String) (hAll : (ascii s).all Xml.isPrintable) : IsChars (ascii s) :=
    Xml.isChars_printable (List.all_eq_true.1 hAll)
  have hOpening : IsChars (soapOpening action) := by
    refine (hConst _ ?_).append ((hConst _ ?_).append ((hConst _ ?_).append ((hConst _ ?_).append
      (hName.append ((hConst _ ?_).append ((hConst _ ?_).append (hConst _ ?_)))))))
    all_goals
      rw [ascii_ofList]
      decide
  have hClosing : IsChars (soapClosing action) := by
    refine (hConst _ ?_).append (hName.append (hConst _ ?_))
    all_goals
      rw [ascii_ofList]
      decide
  rw [infoText_parts]
  exact hOpening.append (hLines.append hClosing)

/-- Around a text are two tags. -/
theorem infoText_split (action : Bytes) (hMem : l ∈ lines) :
    ∃ pre post, infoText action lines = pre ++ 0x3E :: (l.2 ++ 0x3C :: post) := by
  obtain ⟨front, behind, rfl⟩ := List.append_of_mem hMem
  refine ⟨soapOpening action ++ (front.flatMap infoLine ++ 0x3C :: l.1),
    0x2F :: (l.1 ++ [0x3E]) ++ (behind.flatMap infoLine ++ soapClosing action), ?_⟩
  rw [infoText_parts, List.flatMap_append, List.flatMap_cons, infoLine]
  simp only [List.append_assoc, List.cons_append]

theorem length_infoLine (l : Bytes × Bytes) :
    (infoLine l).length = 2 * l.1.length + (l.2.length + 5) := by
  simp only [infoLine, List.length_cons, List.length_append, List.length_nil]
  omega

theorem length_infoText (action : Bytes) (lines : List (Bytes × Bytes)) :
    (infoText action lines).length ≤
      320 + 2 * action.length + (lines.map fun l => (infoLine l).length).sum := by
  simp only [infoText_parts, soapOpening, soapClosing, List.length_append, List.length_flatMap]
  repeat rw [length_ascii]
  simp only [List.length_cons, List.length_nil, Nat.reduceAdd]
  omega

/-- The buffer has room for the response, where `fmt_time` has written 15 bytes at most. -/
theorem sendPositionInfo_room (p : Player) (dur posMs : Int)
    (hTime : (fmtTime (posMs.tdiv 1000)).length ≤ 15) :
    (sendPositionInfo p dur posMs).length < 1024 + (p.trackUri.getD []).length +
      p.metadata.length + (fmtTime (posMs.tdiv 1000)).length + (fmtTime dur).length := by
  refine (length_infoText _ _).trans_lt ?_
  simp only [positionLines, List.map_cons, List.map_nil, List.sum_cons, List.sum_nil,
    length_infoLine]
  repeat rw [length_ascii]
  simp only [List.length_cons, List.length_nil, Nat.reduceAdd]
  omega

theorem sendMediaInfo_room (p : Player) (dur : Int) :
    (sendMediaInfo p dur).length <
      1024 + (p.trackUri.getD []).length + p.metadata.length + (fmtTime dur).length := by
  refine (length_infoText _ _).trans_lt ?_
  simp only [mediaLines, List.map_cons, List.map_nil, List.sum_cons, List.sum_nil, length_infoLine]
  repeat rw [length_ascii]
  simp only [List.length_cons, List.length_nil, Nat.reduceAdd]
  omega

theorem envelope_ok (hAction : Xml.isName (infoName action)) {inside : Xml.Content}
    (h : inside.Ok) : (envelope action inside).Ok := by
  have hNil : (Xml.Content.text []).Ok := Xml.isText_nil
  have hAttr (name value : String) (hName : Xml.isName (ascii name))
      (hValue : (ascii value).all fun c => Xml.isPlain c ∧ c ∉ Xml.Mode.attr.stops) :
      (soapAttr name value).Ok := by
    refine ⟨hName, Xml.ok_plain fun c hMem => of_decide_eq_true (List.all_eq_true.1 hValue c hMem),
      fun body hMem => ?_⟩
    obtain ⟨c, -, hByte⟩ := List.mem_map.1 hMem
    cases hByte
  refine ⟨⟨Xml.isText_nil, ?_, ?_, ?_⟩, ⟨⟨Xml.isText_nil, ?_, List.forall_mem_nil _,
    List.nodup_nil⟩, ⟨⟨Xml.isText_nil, hAction, ?_, List.nodup_singleton _⟩, h, hNil⟩, hNil⟩, hNil⟩
  · rw [ascii_ofList]
    decide
  · refine List.forall_mem_cons.2 ⟨hAttr _ _ ?_ ?_, List.forall_mem_singleton.2 (hAttr _ _ ?_ ?_)⟩
    all_goals
      rw [ascii_ofList]
      decide
  · rw [List.map_cons, List.map_singleton, soapAttr, soapAttr, ascii_ofList, ascii_ofList]
    decide
  · rw [ascii_ofList]
    decide
  · refine List.forall_mem_singleton.2 (hAttr _ _ ?_ ?_)
    all_goals
      rw [ascii_ofList]
      decide

theorem find_envelope (action n : Bytes) (inside : Xml.Content) :
    (envelope action inside).find (infoPath action n) = inside.child n := by
  simp only [envelope, infoPath, Xml.Content.find, Xml.Content.child, if_true, Option.bind_some]
  cases inside.child n <;> rfl

/-- **A response is a document**, in which each line is an element with its text. -/
theorem infoText_document (hName : Xml.isName (infoName action))
    (hAction : ∀ c ∈ action, Xml.isPrintable c) (hLines : ∀ l ∈ lines, LineOk l)
    (hNodup : (lines.map Prod.fst).Nodup) :
    ∃ root, Xml.IsDocument (infoText action lines) root ∧ ∀ l ∈ lines, ∃ u, IsText u ∧
      Xml.render u = l.2 ∧ root.find (infoPath action l.1) = some (.text u) := by
  obtain ⟨fs, hFs, hTexts⟩ := exists_fields hLines
  have hFields : (Xml.Content.fields fs).Ok := Xml.Content.fields_ok fun f hMem =>
    ⟨(hTexts f hMem).1, (hTexts f hMem).2.1⟩
  have hNames : (fs.map Prod.fst).Nodup := by
    rw [← hFs, List.map_map] at hNodup
    exact hNodup
  refine ⟨envelope action (Xml.Content.fields fs), ⟨?_, envelope_ok hName hFields, ⟨_, _, _, rfl⟩,
    isChars_infoText hAction hLines⟩, fun l hMem => ?_⟩
  · rw [← hFs]
    exact infoText_eq action fs
  · rw [← hFs] at hMem
    obtain ⟨f, hF, rfl⟩ := List.mem_map.1 hMem
    refine ⟨f.2, (hTexts f hF).2.1, rfl, ?_⟩
    rw [find_envelope]
    exact Xml.Content.child_fields hF hNames

end Documents

-- ---------------------------------------------------------------------------
-- The lines
-- ---------------------------------------------------------------------------

section Lines

variable {n w : Bytes} {uri metadata : Bytes}

theorem lineOk_plain (hName : Xml.isName n) (h : ∀ c ∈ w, Xml.isPlain c) : LineOk (n, w) := by
  refine ⟨hName, w.map .byte, Xml.isText_plain h, ?_, Xml.render_bytes w⟩
  rw [Xml.render_bytes]
  exact Xml.isChars_plain h

theorem isPlain_digit {c : UInt8} (h : isDigit c) : Xml.isPlain c := by
  rw [isDigit, decide_eq_true_eq, UInt8.le_iff_toNat_le, UInt8.le_iff_toNat_le] at h
  simp only [UInt8.toNat_ofNat] at h
  simp only [Xml.isPlain, Xml.isPrintable, Bool.and_eq_true, decide_eq_true_eq, List.mem_cons,
    List.not_mem_nil, or_false, ← UInt8.toNat_inj, UInt8.toNat_ofNat]
  omega

theorem fmtTime_plain (sec : Int) : ∀ c ∈ fmtTime sec, Xml.isPlain c := by
  have hPadded (width n : Nat) : ∀ c ∈ decimalPadded width n, Xml.isPlain c := by
    refine List.forall_mem_append.2 ⟨fun c hMem => ?_, fun c hMem => ?_⟩
    · rw [List.eq_of_mem_replicate hMem]
      decide
    · exact isPlain_digit (isDigit_decimal hMem)
  have hColon : ∀ c ∈ ascii ":", Xml.isPlain c :=
    List.all_eq_true.1 (by rw [ascii_ofList]; decide)
  have hTwo := hPadded 2
  exact List.forall_mem_append.2 ⟨List.forall_mem_append.2 ⟨List.forall_mem_append.2
    ⟨List.forall_mem_append.2 ⟨hTwo _, hColon⟩, hTwo _⟩, hColon⟩, hTwo _⟩

theorem positionLines_ok (dur posMs : Int) (hUri : LineOk (ascii "TrackURI", uri))
    (hMetadata : LineOk (ascii "TrackMetaData", metadata)) :
    ∀ l ∈ positionLines dur posMs uri metadata, LineOk l := by
  have hConst (name text : String) (hName : Xml.isName (ascii name))
      (hText : (ascii text).all Xml.isPlain) : LineOk (ascii name, ascii text) :=
    lineOk_plain hName (List.all_eq_true.1 hText)
  have hTime (name : String) (sec : Int) (hName : Xml.isName (ascii name)) :
      LineOk (ascii name, fmtTime sec) :=
    lineOk_plain hName (fmtTime_plain sec)
  simp only [positionLines, List.forall_mem_cons]
  refine ⟨hConst _ _ ?_ ?_, hTime _ _ ?_, hMetadata, hUri, hTime _ _ ?_, hTime _ _ ?_,
    hConst _ _ ?_ ?_, hConst _ _ ?_ ?_, List.forall_mem_nil _⟩
  all_goals
    rw [ascii_ofList]
    decide

theorem mediaLines_ok (dur : Int) (hUri : LineOk (ascii "CurrentURI", uri))
    (hMetadata : LineOk (ascii "CurrentURIMetaData", metadata)) :
    ∀ l ∈ mediaLines dur uri metadata, LineOk l := by
  have hConst (name text : String) (hName : Xml.isName (ascii name))
      (hText : (ascii text).all Xml.isPlain) : LineOk (ascii name, ascii text) :=
    lineOk_plain hName (List.all_eq_true.1 hText)
  have hNone (name : String) (hName : Xml.isName (ascii name)) : LineOk (ascii name, []) :=
    lineOk_plain hName (List.forall_mem_nil _)
  simp only [mediaLines, List.forall_mem_cons]
  refine ⟨hConst _ _ ?_ ?_, lineOk_plain ?_ (fmtTime_plain dur), hUri, hMetadata, hNone _ ?_,
    hNone _ ?_, hConst _ _ ?_ ?_, hConst _ _ ?_ ?_, hConst _ _ ?_ ?_, List.forall_mem_nil _⟩
  all_goals
    rw [ascii_ofList]
    decide

end Lines

-- ---------------------------------------------------------------------------
-- The echo
-- ---------------------------------------------------------------------------

section Echo

variable {route : Route} {body sMetadata : Bytes} {uri metadata : List Item} {p : Player}
  {action : Bytes} {lines : List (Bytes × Bytes)} {t : List Item} {n : Nat}

theorem lineOk_cut (name : Bytes) (hName : Xml.isName name) (ht : IsText t) (h : CutsClean n t) :
    LineOk (name, (Xml.render t).take n) := by
  obtain ⟨k, hCut⟩ := h.item
  refine ⟨hName, t.take k, ht.take k, ?_, hCut.symm⟩
  rw [← hCut]
  exact h.char

/-- The text of a line that was cut cleanly says the beginning of what was received. -/
theorem echoed_cut {root : Xml.Content} {path : List Bytes} {u : List Item} (ht : IsText t)
    (h : CutsClean n t) (hu : IsText u) (hRender : Xml.render u = (Xml.render t).take n)
    (hFind : root.find path = some (.text u)) : Echoed root path n t := by
  obtain ⟨k, hCut⟩ := h.item
  have hSame : u = t.take k :=
    Xml.render_injective hu.ok (ht.take k).ok (hRender.trans hCut)
  refine ⟨u, hFind, ?_, fun hFits => ?_⟩
  · rw [hSame]
    exact Xml.prefix_decode_take .text k t
  · rw [List.take_of_length_le hFits] at hRender
    rw [Xml.render_injective hu.ok ht.ok hRender]

/-- A line of a document was cut cleanly. -/
theorem cutsClean_line {root : Xml.Content} (name : Bytes) (ht : IsText t)
    (h : Xml.IsDocument (infoText action lines) root)
    (hMem : (name, (Xml.render t).take n) ∈ lines) : CutsClean n t := by
  obtain ⟨pre, post, hDoc⟩ := infoText_split action hMem
  exact h.cutsClean ht.ok hDoc

theorem echoes_infoText {uriName metadataName : Bytes} (hu : IsText uri) (hm : IsText metadata)
    (hUri : CutsClean 2047 uri) (hMetadata : CutsClean route.metadataLimit metadata)
    (hName : Xml.isName (infoName action)) (hAction : ∀ c ∈ action, Xml.isPrintable c)
    (hLines : ∀ l ∈ lines, LineOk l) (hNodup : (lines.map Prod.fst).Nodup)
    (hUriLine : (uriName, (Xml.render uri).take 2047) ∈ lines)
    (hMetadataLine : (metadataName, (Xml.render metadata).take route.metadataLimit) ∈ lines) :
    Echoes route (infoText action lines) action uriName metadataName uri metadata := by
  obtain ⟨root, hRoot, hFind⟩ := infoText_document hName hAction hLines hNodup
  obtain ⟨u, hText, hRender, hAt⟩ := hFind _ hUriLine
  obtain ⟨v, hText', hRender', hAt'⟩ := hFind _ hMetadataLine
  exact ⟨root, hRoot, echoed_cut hu hUri hText hRender hAt,
    echoed_cut hm hMetadata hText' hRender' hAt'⟩

/-- Where both texts are shown up to the ends of their buffers -/
theorem echoesTrack_iff (hu : IsText uri) (hm : IsText metadata)
    (hUri : p.trackUri = some ((Xml.render uri).take 2047))
    (hMetadata : p.metadata = (Xml.render metadata).take route.metadataLimit) :
    EchoesTrack route p uri metadata ↔
      CutsClean 2047 uri ∧ CutsClean route.metadataLimit metadata := by
  constructor
  -- both texts are in the first response already
  · intro hEchoes
    obtain ⟨⟨root, hRoot, -⟩, -⟩ := hEchoes 0 0
    rw [sendPositionInfo, hUri, hMetadata, Option.getD_some] at hRoot
    constructor
    · exact cutsClean_line (ascii "TrackURI") hu hRoot (by simp [positionLines])
    · exact cutsClean_line (ascii "TrackMetaData") hm hRoot (by simp [positionLines])
  -- what is left of the texts is made of whole items, so the lines are elements
  · rintro ⟨hCutUri, hCutMetadata⟩ dur posMs
    rw [sendPositionInfo, sendMediaInfo, hUri, hMetadata, Option.getD_some]
    constructor
    · refine echoes_infoText hu hm hCutUri hCutMetadata ?_ (List.all_eq_true.1 ?_) ?_ ?_
        (by simp [positionLines]) (by simp [positionLines])
      · rw [infoName, ascii_ofList, ascii_ofList, ascii_ofList]
        decide
      · rw [ascii_ofList]
        decide
      · refine positionLines_ok dur posMs (lineOk_cut _ ?_ hu hCutUri)
          (lineOk_cut _ ?_ hm hCutMetadata)
        all_goals
          rw [ascii_ofList]
          decide
      · show ([ascii "Track", ascii "TrackDuration", ascii "TrackMetaData", ascii "TrackURI",
          ascii "RelTime", ascii "AbsTime", ascii "RelCount", ascii "AbsCount"] : List Bytes).Nodup
        repeat rw [ascii_ofList]
        decide
    · refine echoes_infoText hu hm hCutUri hCutMetadata ?_ (List.all_eq_true.1 ?_) ?_ ?_
        (by simp [mediaLines]) (by simp [mediaLines])
      · rw [infoName, ascii_ofList, ascii_ofList, ascii_ofList]
        decide
      · rw [ascii_ofList]
        decide
      · refine mediaLines_ok dur (lineOk_cut _ ?_ hu hCutUri) (lineOk_cut _ ?_ hm hCutMetadata)
        all_goals
          rw [ascii_ofList]
          decide
      · show ([ascii "NrTracks", ascii "MediaDuration", ascii "CurrentURI",
          ascii "CurrentURIMetaData", ascii "NextURI", ascii "NextURIMetaData",
          ascii "PlayMedium", ascii "RecordMedium", ascii "WriteStatus"] : List Bytes).Nodup
        repeat rw [ascii_ofList]
        decide

/-- The tags of a request for the next track, up to its arguments -/
def nextOpening : List Bytes :=
  [ascii "s:Envelope xmlns:s=\"http://schemas.xmlsoap.org/soap/envelope/\">",
    ascii "s:Body>",
    ascii "u:SetNextAVTransportURI xmlns:u=\"urn:schemas-upnp-org:service:AVTransport:1\">",
    ascii "InstanceID>0",
    ascii "/InstanceID>"]

def nextBody (uri metadata : List Item) : Bytes :=
  tagged (nextOpening ++ (withU Route.next.tag ++ 0x3E :: Xml.render uri) ::
    (0x2F :: (withU Route.next.tag ++ [0x3E])) ::
    (withU Route.next.metadataTag ++ 0x3E :: Xml.render metadata) ::
    (0x2F :: (withU Route.next.metadataTag ++ [0x3E])) ::
    [ascii "/u:SetNextAVTransportURI>", ascii "/s:Body>", ascii "/s:Envelope>"])

/-- Between its tags an argument with the prefix is found, if no tag in front of it is the same. -/
theorem argument_tagged {tag : Bytes} {front behind : List Bytes} (hTag : tag.length ≤ 75)
    (hName : IsName tag) (ht : Xml.Ok .text t)
    (hFront : ∀ w ∈ front, Clean w ∧ ¬withU tag ++ [0x3E] <+: w) :
    argumentText (tagged (front ++ (withU tag ++ 0x3E :: Xml.render t) ::
      (0x2F :: (withU tag ++ [0x3E])) :: behind)) tag = some (Xml.render t) := by
  have hQName := qname_withU hName
  have hClean := clean_of_qname hQName
  generalize hThere : tagged ((0x2F :: (withU tag ++ [0x3E])) :: behind) = there
  -- the first search of the first pass
  have hNeedle : (0x3C : UInt8) ∉ withU tag ++ [0x3E] := by
    intro hMem
    obtain hInName | hLast := List.mem_append.1 hMem
    · exact (hClean _ hInName).2 rfl
    · exact absurd (List.mem_singleton.1 hLast) (by decide)
  have hStart : strstr (0x3C :: (withU tag ++ [0x3E])) (tagged (front ++
      (withU tag ++ 0x3E :: Xml.render t) :: (0x2F :: (withU tag ++ [0x3E])) :: behind)) =
        some (0x3C :: (withU tag ++ 0x3E :: Xml.render t) ++ there) := by
    rw [strstr_tagged hNeedle (fun w hMem => (hFront w hMem).1) fun w hMem => (hFront w hMem).2,
      strstr_tagged_some ⟨Xml.render t, by rw [List.append_assoc]; rfl⟩, ← hThere]
    rfl
  have hAngle : strchr 0x3E (0x3C :: (withU tag ++ 0x3E :: Xml.render t) ++ there) =
      some (0x3E :: (Xml.render t ++ there)) := by
    have hSkip : ∀ c ∈ 0x3C :: withU tag, c ≠ 0 ∧ c ≠ 0x3E := by
      refine List.forall_mem_cons.2 ⟨by decide, fun c hMem => ⟨(hClean c hMem).1, ?_⟩⟩
      rintro rfl
      exact absurd (hQName _ hMem) (by decide)
    rw [← List.cons_append, List.append_assoc, strchr_skip hSkip, List.cons_append, strchr,
      if_pos rfl]
  have hOpen : xmlOpen (tagged (front ++ (withU tag ++ 0x3E :: Xml.render t) ::
      (0x2F :: (withU tag ++ [0x3E])) :: behind)) tag = some (Xml.render t ++ there) := by
    simp only [xmlOpen, xmlOpening, needle_u hTag, hStart, Option.bind_some, hAngle,
      Option.map_some, List.drop_succ_cons, List.drop_zero]
  have hClose : xmlClose (Xml.render t ++ there) tag = some there := by
    rw [xmlClose, needle_end_u hTag, strstr_skip (clean_render ht), ← hThere,
      strstr_tagged_some (List.cons_prefix_cons.2 ⟨rfl, List.prefix_append _ _⟩)]
  rw [argumentText, hOpen, Option.bind_some, hClose, Option.map_some, List.length_append,
    Nat.add_sub_cancel, List.take_left]

theorem nextOpening_clean : ∀ w ∈ nextOpening,
    Clean w ∧ ¬withU Route.next.tag ++ [0x3E] <+: w ∧
      ¬withU Route.next.metadataTag ++ [0x3E] <+: w := by
  simp only [nextOpening, List.forall_mem_cons, Route.tag, Route.metadataTag]
  refine ⟨?_, ?_, ?_, ?_, ?_, List.forall_mem_nil _⟩
  all_goals
    repeat rw [ascii_ofList]
    decide

theorem nextTag_isName : IsName Route.next.tag where
  ne_nil := by decide
  bytes := List.all_eq_true.1 (by rw [Route.tag, ascii_ofList]; decide)

theorem nextMetadataTag_isName : IsName Route.next.metadataTag where
  ne_nil := by decide
  bytes := List.all_eq_true.1 (by rw [Route.metadataTag, ascii_ofList]; decide)

theorem nextBody_found (hu : Xml.Ok .text uri) (hm : Xml.Ok .text metadata) :
    argumentText (nextBody uri metadata) Route.next.tag = some (Xml.render uri) ∧
      argumentText (nextBody uri metadata) Route.next.metadataTag = some (Xml.render metadata) := by
  constructor
  · refine argument_tagged (by decide) nextTag_isName hu fun w hMem => ?_
    obtain ⟨hClean, hOther, -⟩ := nextOpening_clean w hMem
    exact ⟨hClean, hOther⟩
  · have hBody : nextBody uri metadata = tagged ((nextOpening ++
        [withU Route.next.tag ++ 0x3E :: Xml.render uri,
          0x2F :: (withU Route.next.tag ++ [0x3E])]) ++
        (withU Route.next.metadataTag ++ 0x3E :: Xml.render metadata) ::
        (0x2F :: (withU Route.next.metadataTag ++ [0x3E])) ::
        [ascii "/u:SetNextAVTransportURI>", ascii "/s:Body>", ascii "/s:Envelope>"]) := by
      rw [List.append_assoc]
      rfl
    rw [hBody]
    have hTag := clean_of_qname (qname_withU nextTag_isName)
    refine argument_tagged (by decide) nextMetadataTag_isName hm
      (List.forall_mem_append.2 ⟨fun w hMem => ?_, List.forall_mem_cons.2 ⟨⟨?_, fun hPrefix => ?_⟩,
        List.forall_mem_singleton.2 ⟨?_, fun hPrefix => ?_⟩⟩⟩)
    · obtain ⟨hClean, -, hOther⟩ := nextOpening_clean w hMem
      exact ⟨hClean, hOther⟩
    · exact hTag.append (Clean.cons (by decide) (clean_render hu))
    · -- the name of the other argument goes on where this one ends
      have hOwn : withU Route.next.tag ++ [0x3E] <+:
          withU Route.next.tag ++ 0x3E :: Xml.render uri :=
        ⟨Xml.render uri, by rw [List.append_assoc]; rfl⟩
      have hBoth := List.prefix_of_prefix_length_le hOwn hPrefix (by decide)
      rw [Route.tag, Route.metadataTag, ascii_ofList, ascii_ofList] at hBoth
      exact absurd hBoth (by decide)
    · exact Clean.cons (by decide) (hTag.append (Clean.cons (by decide) (List.forall_mem_nil _)))
    · exact absurd (List.cons_prefix_cons.1 hPrefix).1 (by decide)

theorem length_nextBody (uri metadata : List Item) :
    (nextBody uri metadata).length ≤
      400 + (Xml.render uri).length + (Xml.render metadata).length := by
  simp only [nextBody, nextOpening, tagged, withU, Route.tag, Route.metadataTag, List.cons_append,
    List.nil_append, List.flatMap_cons, List.flatMap_nil, List.length_append, List.length_cons,
    List.length_nil]
  repeat rw [length_ascii]
  simp only [List.length_cons, List.length_nil, Nat.reduceAdd]
  omega

/-- An URL of 2046 bytes, and an ampersand at its end -/
def longUrl : Bytes := ascii "http://h/" ++ List.replicate 2037 0x61

def longUri : List Item := longUrl.map .byte ++ (.ref ampRef :: ([] : Bytes).map .byte)

theorem render_amp (v w : Bytes) :
    Xml.render (v.map .byte ++ (.ref ampRef :: w.map .byte)) = v ++ (ascii "&amp;" ++ w) := by
  rw [Xml.render_append, Xml.render_cons, Xml.render_bytes, Xml.render_bytes]
  rfl

/-- A plain text with an ampersand in it -/
theorem received_amp {v w : Bytes} (hv : ∀ c ∈ v, Xml.isPlain c) (hw : ∀ c ∈ w, Xml.isPlain c) :
    Received (v.map .byte ++ (.ref ampRef :: w.map .byte)) := by
  have hRender := render_amp v w
  refine ⟨⟨?_, fun body hMem c hChar => ?_, fun hEnd => ?_⟩, ?_⟩
  · refine (Xml.isText_plain hv).ok.append (List.forall_mem_cons.2 ⟨?_, (Xml.isText_plain hw).ok⟩)
    exact rfl
  · have hThis : Xml.refChar ampRef = some '&' := rfl
    have hAmp : body = ampRef := by simpa using hMem
    rw [hAmp, hThis] at hChar
    obtain rfl := Option.some.inj hChar
    exact .inr (.inr (.inr (by decide)))
  · rw [hRender] at hEnd
    obtain hFirst | hRest := List.mem_append.1 (hEnd.subset List.mem_cons_self)
    · exact absurd (hv _ hFirst) (by decide)
    obtain hAmp | hLast := List.mem_append.1 hRest
    · rw [ascii_ofList] at hAmp
      exact absurd hAmp (by decide)
    · exact absurd (hw _ hLast) (by decide)
  · have hAmp : IsChars (ascii "&amp;") :=
      Xml.isChars_printable (List.all_eq_true.1 (by rw [ascii_ofList]; decide))
    rw [hRender]
    exact (Xml.isChars_plain hv).append (hAmp.append (Xml.isChars_plain hw))

theorem longUrl_plain : ∀ c ∈ longUrl, Xml.isPlain c := by
  refine List.forall_mem_append.2 ⟨List.all_eq_true.1 ?_, fun c hMem => ?_⟩
  · rw [ascii_ofList]
    decide
  · rw [List.eq_of_mem_replicate hMem]
    decide

theorem length_longUrl : longUrl.length = 2046 := by
  rw [longUrl, List.length_append, List.length_replicate]
  rfl

theorem length_render_longUri : (Xml.render longUri).length = 2051 := by
  rw [longUri, render_amp, List.length_append, length_longUrl, List.append_nil, length_ascii]
  rfl

theorem longUri_request : Route.next.Request (nextBody longUri []) longUri [] where
  size := by
    have hLength := length_nextBody longUri []
    rw [length_render_longUri] at hLength
    exact hLength.trans (by decide)
  uriText := received_amp longUrl_plain (List.forall_mem_nil _)
  metadataText := ⟨Xml.isText_nil, ⟨[], List.forall_mem_nil _, rfl⟩⟩
  uriFound := (nextBody_found (received_amp longUrl_plain (List.forall_mem_nil _)).ok
    (List.forall_mem_nil _)).1
  metadataFound := (nextBody_found (received_amp longUrl_plain (List.forall_mem_nil _)).ok
    (List.forall_mem_nil _)).2
  someUri := List.append_ne_nil_of_right_ne_nil _ (List.cons_ne_nil _ _)
  audio hCurrent := by cases hCurrent

/-- The ampersand is the last byte that is kept. -/
theorem longUri_inside : ¬CutsClean 2047 longUri := by
  intro hClean
  obtain ⟨k, hCut⟩ := hClean.item
  have hUrl := length_longUrl
  have hRender := length_render_longUri
  have hLen := congrArg List.length hCut
  rw [List.length_take, hRender] at hLen
  obtain hFew | hAll := Nat.lt_or_ge 2046 k
  · -- with the reference there are four bytes more
    have hWhole : longUri.take k = longUri := by
      refine List.take_of_length_le ?_
      rw [longUri, List.length_append, List.length_map, hUrl]
      exact hFew
    rw [hWhole, hRender] at hLen
    omega
  · have hBytes : longUri.take k = (longUrl.take k).map .byte := by
      rw [longUri, List.take_append_of_le_length (by rw [List.length_map, hUrl]; exact hAll),
        List.map_take]
    rw [hBytes, Xml.render_bytes, List.length_take, hUrl] at hLen
    omega

/-- A text that the buffer has room for -/
theorem cutsClean_short (h : Received t) (hFits : (Xml.render t).length ≤ n) : CutsClean n t where
  item := ⟨t.length, by rw [List.take_of_length_le hFits, List.take_length]⟩
  char := by
    rw [List.take_of_length_le hFits]
    exact h.chars

/-- A text with an ampersand -/
def duet : List Item := (ascii "Tom ").map .byte ++ (.ref ampRef :: (ascii " Jerry").map .byte)

theorem duet_received : Received duet := by
  refine received_amp (List.all_eq_true.1 ?_) (List.all_eq_true.1 ?_)
  all_goals
    rw [ascii_ofList]
    decide

theorem signedUrl_received : Received (signedUrl ampRef) := by
  refine received_amp (List.all_eq_true.1 ?_) (List.all_eq_true.1 ?_)
  all_goals
    rw [ascii_ofList]
    decide

theorem length_render_duet : (Xml.render duet).length = 15 := by
  rw [duet, render_amp, List.length_append, List.length_append, length_ascii, length_ascii,
    length_ascii]
  rfl

theorem length_render_signedUrl : (Xml.render (signedUrl ampRef)).length = 28 := by
  rw [signedUrl, render_amp, List.length_append, List.length_append, length_ascii, length_ascii,
    length_ascii]
  rfl

theorem duet_request : Route.next.Request (nextBody (signedUrl ampRef) duet) (signedUrl ampRef)
    duet where
  size := by
    have hLength := length_nextBody (signedUrl ampRef) duet
    rw [length_render_signedUrl, length_render_duet] at hLength
    exact hLength.trans (by decide)
  uriText := signedUrl_received
  metadataText := duet_received
  uriFound := (nextBody_found signedUrl_received.ok duet_received.ok).1
  metadataFound := (nextBody_found signedUrl_received.ok duet_received.ok).2
  someUri := List.append_ne_nil_of_right_ne_nil _ (List.cons_ne_nil _ _)
  audio hCurrent := by cases hCurrent

end Echo

end EspMiplay.Dlna
