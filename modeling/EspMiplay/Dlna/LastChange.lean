import EspMiplay.Dlna.Eventing
import EspMiplay.Lib.Xml
import EspMiplay.Miplay.Auth
import EspMiplay.Miplay.JsonForm

/-!
# The text of a LastChange event

`custom_dlna_notify_transport_state` writes the whole notification in one `snprintf`. The
Event document is the text of the LastChange element, so what stands in its attributes is
escaped twice: once for the attribute, once for the element. URI and metadata are kept as
they stood in the request, escaped once, and are put in as they are.

## Results

* `notifyOk_iff` — a notification is right where each value can stand in an attribute
  without being escaped there.
* `notify_iff`   — for QQ: the URI and the metadata have no ampersand, no quote, no `<`
  and no tab or line end.
-/

namespace EspMiplay.Dlna

open EspMiplay.Miplay (Bytes ascii decimalPadded decimal isDigit_decimal isDigit)
open Xml (Decodes Mode)

-- ---------------------------------------------------------------------------
-- The notification
-- ---------------------------------------------------------------------------

/-- `music_source_t` -/
inductive MusicSource where
  | netease
  | qq
  | speaker
  | kugou
  | kuwo
  | bilibili
  | ximalaya
  | apple
  | spotify
  deriving DecidableEq

/-- What `xml_get` took from a request, and what the control point means by it. -/
structure Stored where
  raw : Bytes
  plain : Bytes
  escaped : Decodes .text raw plain

structure Event where
  state : PlayState
  durationSec : Int
  positionSec : Int
  uri : Stored
  metadata : Stored
  nextUri : Stored
  nextMetadata : Stored

/-- `fmt_time` -/
def fmtTime (sec : Int) : Bytes :=
  let sec := if sec < 0 then 0 else sec.toNat
  decimalPadded 2 (sec / 3600) ++ ascii ":" ++ decimalPadded 2 (sec / 60 % 60) ++ ascii ":" ++
    decimalPadded 2 (sec % 60)

/-- One line of the format: the attribute, what is written for it, and what it is to say
where it describes the track. -/
structure EventField where
  name : String
  raw : Bytes
  plain : Bytes
  describes : Bool

def EventField.constant (name : String) (value : Bytes) : EventField := ⟨name, value, value, false⟩

def Stored.field (s : Stored) (name : String) : EventField := ⟨name, s.raw, s.plain, true⟩

/-- The URI of the track after this one, which does not describe this one. -/
def Stored.next (s : Stored) (name : String) : EventField := ⟨name, s.raw, s.plain, false⟩

def Event.fields (e : Event) : MusicSource → List EventField
  | .qq =>
    [.constant "TransportState" (stateStr e.state),
      .constant "TransportStatus" (ascii "OK"),
      .constant "TransportPlaySpeed" (ascii "1"),
      .constant "NumberOfTracks" (ascii "1"),
      .constant "CurrentTrack" (ascii "1"),
      .constant "CurrentTrackDuration" (fmtTime e.durationSec),
      .constant "CurrentMediaDuration" (fmtTime e.durationSec),
      e.metadata.field "CurrentTrackMetaData",
      e.uri.field "CurrentTrackURI",
      e.uri.field "AVTransportURI",
      e.metadata.field "AVTransportURIMetaData",
      e.nextUri.next "NextAVTransportURI",
      e.nextMetadata.field "NextAVTransportURIMetaData",
      .constant "RelativeTimePosition" (fmtTime e.positionSec),
      .constant "AbsoluteTimePosition" (fmtTime e.positionSec),
      .constant "CurrentTransportActions" (ascii "PLAY,STOP,PAUSE,SEEK")]
  | _ => [.constant "TransportState" (stateStr e.state)]

def EventField.written (f : EventField) : Bytes :=
  ascii "&lt;" ++ ascii f.name ++ ascii " val=&quot;" ++ f.raw ++ ascii "&quot;/&gt;"

def notifyHead : Bytes :=
  ascii "<?xml version=\"1.0\" " ++ ascii "encoding=\"utf-8\"?>" ++
    ascii "<e:propertyset " ++ ascii "xmlns:e=\"urn:schemas-upnp" ++ ascii "-org:event-1-0\">" ++
    ascii "<e:property>" ++ ascii "<LastChange>"

def notifyTail : Bytes :=
  ascii "</LastChange>" ++ ascii "</e:property>" ++ ascii "</e:propertyset>"

/-- The text of the LastChange element -/
def lastChangeText (fields : List EventField) : Bytes :=
  ascii "&lt;Event xmlns=&quot;" ++ ascii "urn:schemas-upnp-org:" ++ ascii "metadata-1-0/AVT/" ++
    ascii "&quot;&gt;" ++ ascii "&lt;InstanceID " ++ ascii "val=&quot;0&quot;&gt;" ++
    fields.flatMap EventField.written ++ ascii "&lt;/InstanceID&gt;" ++ ascii "&lt;/Event&gt;"

/-- What `custom_dlna_notify_transport_state` sends, where it fits into `buf_size` bytes -/
def customDlnaNotifyTransportState (source : MusicSource) (e : Event) : Option Bytes :=
  let body := notifyHead ++ lastChangeText (e.fields source) ++ notifyTail
  if body.length < 2048 + e.metadata.raw.length * 4 then some body else none

-- ---------------------------------------------------------------------------
-- The Event document
-- ---------------------------------------------------------------------------

/-- An empty element of the document, with the value as it stands between the quotes. -/
def element (name : String) (value : Bytes) : Bytes :=
  ascii "<" ++ ascii name ++ ascii " val=\"" ++ value ++ ascii "\"/>"

def elements (values : List (String × Bytes)) : Bytes := values.flatMap fun v => element v.1 v.2

def eventDoc (values : List (String × Bytes)) : Bytes :=
  ascii "<Event xmlns=\"" ++ ascii "urn:schemas-upnp-org:" ++ ascii "metadata-1-0/AVT/" ++
    ascii "\">" ++ ascii "<InstanceID " ++ ascii "val=\"0\">" ++ elements values ++
    ascii "</InstanceID>" ++ ascii "</Event>"

/-- The value is the text of an attribute, and a describing one says what it is to say. -/
def EventField.Right (f : EventField) (value : String × Bytes) : Prop :=
  value.1 = f.name ∧ ∃ means, Decodes .attr value.2 means ∧ (f.describes → means = f.plain)

/-- The body is a property set whose LastChange text is an Event document with these fields. -/
def NotifyOk (fields : List EventField) (body : Bytes) : Prop :=
  ∃ text doc values, body = notifyHead ++ text ++ notifyTail ∧ Decodes .text text doc ∧
    doc = eventDoc values ∧ List.Forall₂ EventField.Right fields values

-- ---------------------------------------------------------------------------
-- What the body says
-- ---------------------------------------------------------------------------

/-- Both levels of escaping undone, the field is an element with the value that is meant. -/
theorem EventField.written_decodes {f : EventField}
    (hName : Decodes .text (ascii f.name) (ascii f.name))
    (hRaw : Decodes .text f.raw f.plain) : Decodes .text f.written (element f.name f.plain) := by
  have hOpen : Decodes .text (ascii "&lt;") (ascii "<") := ⟨[.ref (ascii "lt")], by decide⟩
  have hVal : Decodes .text (ascii " val=&quot;") (ascii " val=\"") :=
    ⟨(ascii " val=").map .byte ++ [.ref (ascii "quot")], by decide⟩
  have hClose : Decodes .text (ascii "&quot;/&gt;") (ascii "\"/>") :=
    ⟨[.ref (ascii "quot"), .byte 0x2F, .ref (ascii "gt")], by decide⟩
  exact (((hOpen.append hName).append hVal).append hRaw).append hClose

/-- The name and the value of a field as the document is to have them -/
def EventField.said (f : EventField) : String × Bytes := (f.name, f.plain)

def EventField.Written (f : EventField) : Prop :=
  Decodes .text (ascii f.name) (ascii f.name) ∧ Decodes .text f.raw f.plain

theorem fields_decode {fields : List EventField} (h : ∀ f ∈ fields, f.Written) :
    Decodes .text (fields.flatMap EventField.written) (elements (fields.map EventField.said)) := by
  induction fields with
  | nil => exact Decodes.nil
  | cons f fields ih =>
    obtain ⟨⟨hName, hRaw⟩, hRest⟩ := List.forall_mem_cons.1 h
    rw [List.flatMap_cons, List.map_cons, elements, List.flatMap_cons]
    exact (EventField.written_decodes hName hRaw).append (ih hRest)

theorem lastChangeText_decodes {fields : List EventField} (h : ∀ f ∈ fields, f.Written) :
    Decodes .text (lastChangeText fields) (eventDoc (fields.map EventField.said)) := by
  have hEvent : Decodes .text (ascii "&lt;Event xmlns=&quot;") (ascii "<Event xmlns=\"") :=
    ⟨.ref (ascii "lt") :: ((ascii "Event xmlns=").map .byte ++ [.ref (ascii "quot")]),
      by decide +kernel⟩
  have hOrg : Decodes .text (ascii "urn:schemas-upnp-org:") (ascii "urn:schemas-upnp-org:") :=
    ⟨(ascii "urn:schemas-upnp-org:").map .byte, by decide +kernel⟩
  have hAvt : Decodes .text (ascii "metadata-1-0/AVT/") (ascii "metadata-1-0/AVT/") :=
    ⟨(ascii "metadata-1-0/AVT/").map .byte, by decide +kernel⟩
  have hClose : Decodes .text (ascii "&quot;&gt;") (ascii "\">") :=
    ⟨[.ref (ascii "quot"), .ref (ascii "gt")], by decide +kernel⟩
  have hInstance : Decodes .text (ascii "&lt;InstanceID ") (ascii "<InstanceID ") :=
    ⟨.ref (ascii "lt") :: (ascii "InstanceID ").map .byte, by decide +kernel⟩
  have hZero : Decodes .text (ascii "val=&quot;0&quot;&gt;") (ascii "val=\"0\">") :=
    ⟨(ascii "val=").map .byte ++
      [.ref (ascii "quot"), .byte 0x30, .ref (ascii "quot"), .ref (ascii "gt")], by decide +kernel⟩
  have hEndInstance : Decodes .text (ascii "&lt;/InstanceID&gt;") (ascii "</InstanceID>") :=
    ⟨.ref (ascii "lt") :: ((ascii "/InstanceID").map .byte ++ [.ref (ascii "gt")]),
      by decide +kernel⟩
  have hEndEvent : Decodes .text (ascii "&lt;/Event&gt;") (ascii "</Event>") :=
    ⟨.ref (ascii "lt") :: ((ascii "/Event").map .byte ++ [.ref (ascii "gt")]), by decide +kernel⟩
  have hHead := ((hEvent.append hOrg).append hAvt).append hClose
  exact ((((hHead.append hInstance).append hZero).append (fields_decode h)).append
    hEndInstance).append hEndEvent

-- ---------------------------------------------------------------------------
-- Reading a document
-- ---------------------------------------------------------------------------

theorem elements_cons (v : String × Bytes) (values : List (String × Bytes)) :
    elements (v :: values) = (ascii "<" ++ ascii v.1 ++ ascii " val=\"") ++
      (v.2 ++ 0x22 :: (ascii "/>" ++ elements values)) := by
  have hQuote : ascii "\"/>" = 0x22 :: ascii "/>" := rfl
  simp only [elements, List.flatMap_cons, element, hQuote, List.append_assoc, List.cons_append]

theorem element_quotes (name : String) (value : Bytes) :
    (element name value).count 0x22 = (element name []).count 0x22 + value.count 0x22 := by
  simp only [element, List.count_append, List.append_nil]
  omega

/-- Documents with the same names differ in the quotes of the values. -/
theorem elements_quotes (values : List (String × Bytes)) :
    (elements values).count 0x22 =
      ((values.map Prod.fst).flatMap fun name => element name []).count 0x22 +
        (values.flatMap Prod.snd).count 0x22 := by
  induction values with
  | nil => rfl
  | cons v values ih =>
    rw [elements, List.flatMap_cons, List.count_append, element_quotes, ← elements, ih,
      List.map_cons, List.flatMap_cons, List.flatMap_cons, List.count_append, List.count_append]
    omega

/-- An element ends at the first quote behind that of the value. -/
theorem elements_injective {v w : List (String × Bytes)} (hNames : v.map Prod.fst = w.map Prod.fst)
    (hv : ∀ x ∈ v, 0x22 ∉ x.2) (h : elements v = elements w) : v = w := by
  -- the documents have the same quotes, and those of `v` are not in its values
  have hQuotes : (w.flatMap Prod.snd).count 0x22 = 0 := by
    have hNone : (v.flatMap Prod.snd).count 0x22 = 0 := by
      rw [List.count_eq_zero, List.mem_flatMap]
      rintro ⟨x, hx, hMem⟩
      exact hv x hx hMem
    have hCounts := elements_quotes v
    rw [h, elements_quotes w, hNames, hNone] at hCounts
    omega
  have hw : ∀ x ∈ w, 0x22 ∉ x.2 := fun x hx hMem =>
    List.count_eq_zero.1 hQuotes (List.mem_flatMap.2 ⟨x, hx, hMem⟩)
  clear hQuotes
  induction v generalizing w with
  | nil => exact (List.map_eq_nil_iff.1 hNames.symm).symm
  | cons x v ih =>
    obtain ⟨y, w, rfl⟩ : ∃ y w', w = y :: w' := by
      cases w with
      | nil => cases hNames
      | cons y w => exact ⟨y, w, rfl⟩
    obtain ⟨hName, hNames'⟩ := List.cons.inj hNames
    obtain ⟨hx, hv'⟩ := List.forall_mem_cons.1 hv
    obtain ⟨hy, hw'⟩ := List.forall_mem_cons.1 hw
    rw [elements_cons, elements_cons, hName] at h
    obtain ⟨hValue, hRest⟩ := Xml.stop_unique hx hy (List.append_cancel_left h)
    rw [Prod.ext hName hValue, ih hNames' hv' (List.append_cancel_left hRest) hw']

-- ---------------------------------------------------------------------------
-- Notifications that say what is meant
-- ---------------------------------------------------------------------------

theorem names_of_right {fields : List EventField} {values : List (String × Bytes)}
    (h : List.Forall₂ EventField.Right fields values) :
    values.map Prod.fst = (fields.map EventField.said).map Prod.fst ∧ ∀ v ∈ values, 0x22 ∉ v.2 := by
  induction h with
  | nil => simp
  | cons hRight _ ih =>
    obtain ⟨hName, means, hValue, -⟩ := hRight
    rw [List.map_cons, List.map_cons, List.map_cons, hName, ih.1, List.forall_mem_cons]
    exact ⟨rfl, hValue.not_mem (by decide) (by decide) (by decide) (by decide), ih.2⟩

/-- The value that is meant can be the text of the attribute. -/
def EventField.Bare (f : EventField) : Prop :=
  ∃ means, Decodes .attr f.plain means ∧ (f.describes → means = f.plain)

/-- **Right notifications.** What is meant arrives unescaped between the quotes, so it has to
be the text of an attribute as it is. -/
theorem notifyOk_iff {fields : List EventField} (hWritten : ∀ f ∈ fields, f.Written) :
    NotifyOk fields (notifyHead ++ lastChangeText fields ++ notifyTail) ↔
      ∀ f ∈ fields, f.Bare := by
  have hText := lastChangeText_decodes hWritten
  constructor
  · rintro ⟨text, doc, values, hBody, hDecodes, rfl, hRight⟩
    -- the document that is read is the one that was meant, byte by byte
    obtain rfl : lastChangeText fields = text :=
      List.append_cancel_left (List.append_cancel_right hBody)
    have hDocs := hText.unique hDecodes
    simp only [eventDoc, List.append_cancel_left_eq, List.append_cancel_right_eq] at hDocs
    obtain ⟨hNames, hUnquoted⟩ := names_of_right hRight
    obtain rfl := elements_injective hNames hUnquoted hDocs.symm
    rw [List.forall₂_map_right_iff, List.forall₂_same] at hRight
    exact fun f hf => (hRight f hf).2
  · intro hBare
    refine ⟨_, _, fields.map EventField.said, rfl, hText, rfl, ?_⟩
    rw [List.forall₂_map_right_iff, List.forall₂_same]
    exact fun f hf => ⟨rfl, hBare f hf⟩

-- ---------------------------------------------------------------------------
-- QQ
-- ---------------------------------------------------------------------------

/-- Nothing in it has a meaning of its own between quotes, or is read as a space there. -/
def Harmless (v : Bytes) : Prop := ∀ c ∈ v, c ∉ ([0x26, 0x3C, 0x22, 0x09, 0x0A, 0x0D, 0] : Bytes)

instance (v : Bytes) : Decidable (Harmless v) := List.decidableBAll _ v

theorem decodes_attr_iff {v : Bytes} : Decodes .attr v v ↔ Harmless v := by
  rw [Xml.decodes_self_iff]
  refine forall₂_congr fun c _ => ?_
  -- tabs and line ends stand there, but are read as spaces
  by_cases hBlank : c = 0x09 ∨ c = 0x0A ∨ c = 0x0D
  · rcases hBlank with rfl | rfl | rfl <;> decide
  · have hRead : Mode.attr.read c = c := if_neg hBlank
    rw [not_or, not_or] at hBlank
    simp only [Mode.attr, List.mem_cons, List.not_mem_nil, not_or, not_false_eq_true, and_true,
      hBlank.1, hBlank.2.1, hBlank.2.2, true_and] at hRead ⊢
    tauto

theorem Harmless.text {v : Bytes} (h : Harmless v) : Decodes .text v v := by
  refine Xml.decodes_self_iff.2 fun c hc => ⟨?_, rfl⟩
  have hByte := h c hc
  simp only [List.mem_cons, List.not_mem_nil, not_or, not_false_eq_true, and_true] at hByte
  obtain ⟨hAmp, hLt, -, -, -, -, hNul⟩ := hByte
  exact ⟨by simpa [Mode.text] using hLt, hAmp, hNul⟩

theorem Harmless.append {v w : Bytes} (hv : Harmless v) (hw : Harmless w) : Harmless (v ++ w) :=
  List.forall_mem_append.2 ⟨hv, hw⟩

theorem decimalPadded_harmless (width n : Nat) : Harmless (decimalPadded width n) := by
  have hDigit {c : UInt8} (h : isDigit c) :
      c ∉ ([0x26, 0x3C, 0x22, 0x09, 0x0A, 0x0D, 0] : Bytes) := by
    intro hMem
    simp only [List.mem_cons, List.not_mem_nil, or_false] at hMem
    rcases hMem with rfl | rfl | rfl | rfl | rfl | rfl | rfl <;> exact absurd h (by decide)
  refine Harmless.append ?_ fun c hc => hDigit (isDigit_decimal hc)
  intro c hc
  rw [List.eq_of_mem_replicate hc]
  decide

theorem fmtTime_harmless (sec : Int) : Harmless (fmtTime sec) := by
  have hColon : Harmless (ascii ":") := by decide +kernel
  have hTwo := decimalPadded_harmless 2
  exact ((((hTwo _).append hColon).append (hTwo _)).append hColon).append (hTwo _)

theorem stateStr_harmless (s : PlayState) : Harmless (stateStr s) := by
  cases s <;> decide +kernel

/-- The lines of the format that are no text of a request -/
theorem EventField.constant_right {name : String} {value : Bytes} (hName : Harmless (ascii name))
    (hValue : Harmless value) :
    (EventField.constant name value).Written ∧ (EventField.constant name value).Bare :=
  ⟨⟨hName.text, hValue.text⟩, value, decodes_attr_iff.2 hValue, fun _ => rfl⟩

theorem Stored.field_written (s : Stored) {name : String} (hName : Harmless (ascii name)) :
    (s.field name).Written :=
  ⟨hName.text, s.escaped⟩

theorem Stored.next_written (s : Stored) {name : String} (hName : Harmless (ascii name)) :
    (s.next name).Written :=
  ⟨hName.text, s.escaped⟩

theorem Stored.field_bare {s : Stored} {name : String} :
    (s.field name).Bare ↔ Harmless s.plain := by
  rw [← decodes_attr_iff]
  constructor
  · rintro ⟨means, hMeans, hSame⟩
    rw [hSame rfl] at hMeans
    exact hMeans
  · exact fun h => ⟨s.plain, h, fun _ => rfl⟩

/-- The condition on the requests -/
def Event.Plain (e : Event) : Prop :=
  Harmless e.uri.plain ∧ Harmless e.metadata.plain ∧ Harmless e.nextMetadata.plain ∧
    ∃ means, Decodes .attr e.nextUri.plain means

theorem Event.fields_written (e : Event) : ∀ f ∈ e.fields .qq, f.Written := by
  have hTime := fmtTime_harmless
  simp only [Event.fields, List.forall_mem_cons]
  have hConst {name : String} {value : Bytes} (hName : Harmless (ascii name))
      (hValue : Harmless value) := (EventField.constant_right hName hValue).1
  refine ⟨hConst ?_ (stateStr_harmless _), hConst ?_ ?_, hConst ?_ ?_, hConst ?_ ?_, hConst ?_ ?_,
    hConst ?_ (hTime _), hConst ?_ (hTime _), e.metadata.field_written ?_, e.uri.field_written ?_,
    e.uri.field_written ?_, e.metadata.field_written ?_, e.nextUri.next_written ?_,
    e.nextMetadata.field_written ?_, hConst ?_ (hTime _), hConst ?_ (hTime _), hConst ?_ ?_,
    List.forall_mem_nil _⟩
  all_goals decide +kernel

theorem Event.fields_bare (e : Event) : (∀ f ∈ e.fields .qq, f.Bare) ↔ e.Plain := by
  have hTime := fmtTime_harmless
  simp only [Event.fields, List.forall_mem_cons]
  constructor
  · rintro ⟨-, -, -, -, -, -, -, hMetadata, hUri, -, -, hNextUri, hNextMetadata, -⟩
    obtain ⟨means, hMeans, -⟩ := hNextUri
    exact ⟨Stored.field_bare.1 hUri, Stored.field_bare.1 hMetadata,
      Stored.field_bare.1 hNextMetadata, means, hMeans⟩
  · rintro ⟨hUri, hMetadata, hNextMetadata, means, hMeans⟩
    have hConst {name : String} {value : Bytes} (hName : Harmless (ascii name))
        (hValue : Harmless value) := (EventField.constant_right hName hValue).2
    refine ⟨hConst ?_ (stateStr_harmless _), hConst ?_ ?_, hConst ?_ ?_, hConst ?_ ?_,
      hConst ?_ ?_, hConst ?_ (hTime _), hConst ?_ (hTime _), Stored.field_bare.2 hMetadata,
      Stored.field_bare.2 hUri, Stored.field_bare.2 hUri, Stored.field_bare.2 hMetadata,
      ⟨means, hMeans, fun h => Bool.noConfusion h⟩, Stored.field_bare.2 hNextMetadata,
      hConst ?_ (hTime _), hConst ?_ (hTime _), hConst ?_ ?_, List.forall_mem_nil _⟩
    all_goals decide +kernel

/-- **LastChange.** The values are escaped once where two levels read them: the event is right
exactly where the URI and the metadata need no escaping between quotes. -/
theorem notify_iff (e : Event) {body : Bytes}
    (h : customDlnaNotifyTransportState .qq e = some body) :
    NotifyOk (e.fields .qq) body ↔ e.Plain := by
  rw [customDlnaNotifyTransportState] at h
  split_ifs at h
  obtain rfl := Option.some.inj h
  rw [notifyOk_iff e.fields_written]
  exact e.fields_bare

theorem sent_of_fits (e : Event)
    (h : (notifyHead ++ lastChangeText (e.fields .qq) ++ notifyTail).length <
      2048 + e.metadata.raw.length * 4) :
    customDlnaNotifyTransportState .qq e =
      some (notifyHead ++ lastChangeText (e.fields .qq) ++ notifyTail) :=
  if_pos h

/-- A text that needs no escaping -/
def Stored.ofHarmless {v : Bytes} (h : Harmless v) : Stored := ⟨v, v, h.text⟩

def stopped (uri : Stored) : Event where
  state := .stopped
  durationSec := 0
  positionSec := 0
  uri := uri
  metadata := .ofHarmless (by decide +kernel : Harmless [])
  nextUri := .ofHarmless (by decide +kernel : Harmless [])
  nextMetadata := .ofHarmless (by decide +kernel : Harmless [])

def plainUri : Stored := .ofHarmless (by decide +kernel : Harmless (ascii "http://a/1.mp3"))

theorem plainUri_notified :
    ∃ body, customDlnaNotifyTransportState .qq (stopped plainUri) = some body ∧
      NotifyOk ((stopped plainUri).fields .qq) body := by
  have hSent := sent_of_fits (stopped plainUri) (by decide +kernel)
  exact ⟨_, hSent, (notify_iff (stopped plainUri) hSent).2
    ⟨by decide +kernel, by decide +kernel, by decide +kernel, [], Decodes.nil⟩⟩

/-- `http://a/?x=1&y=2`, as a request has it -/
def queryUri : Stored where
  raw := ascii "http://a/?x=1&amp;y=2"
  plain := ascii "http://a/?x=1&y=2"
  escaped := ⟨(ascii "http://a/?x=1").map .byte ++ .ref (ascii "amp") :: (ascii "y=2").map .byte,
    by decide +kernel⟩

/-- The ampersand of a URI stands bare between the quotes. -/
theorem queryUri_misread :
    ∃ body, customDlnaNotifyTransportState .qq (stopped queryUri) = some body ∧
      ¬NotifyOk ((stopped queryUri).fields .qq) body := by
  refine ⟨_, sent_of_fits (stopped queryUri) (by decide +kernel), ?_⟩
  rw [notifyOk_iff (stopped queryUri).fields_written, Event.fields_bare]
  exact fun hPlain => absurd hPlain.1 (by decide +kernel)

end EspMiplay.Dlna
