import EspMiplay.Lib.Dns
import EspMiplay.Miplay.TextBounds
import EspMiplay.Miplay.TsLocal

/-!
# The name server of the portal

Every name leads to the portal: `dns_task` answers whatever it is asked with its own address.
The packet goes back as it came, with an A record behind it and an answer count of 1.

What stands behind the question of the query (an OPT record of EDNS, as a rule) stays in front
of that record, so the decoder takes it for the answer.

## Results

* `dnsPacket_ok`    — every access is inside what was received, or inside the buffer.
* `decode_reply`    — what a decoder reads.
* `answers_iff`     — the answer is the first record behind the question.
* `edns_unanswered` — a query with EDNS.
-/

namespace EspMiplay.Wifi

open EspMiplay.Miplay (Bytes ascii Access readByte writeSpan)

-- ---------------------------------------------------------------------------
-- The packet handling
-- ---------------------------------------------------------------------------

/-- `packet[512]` -/
structure Packet where
  bytes : Bytes
  size : bytes.length = 512

/-- The cursor at the root of the name, or at `end` -/
def nameEnd (received : Bytes) (cursor : Nat) : Access Nat :=
  if h : cursor < received.length then do
    let len ← readByte received cursor
    if len = 0 then return cursor
    else if 63 < len.toNat ∨ received.length ≤ cursor + len.toNat + 1 then return received.length
    else nameEnd received (cursor + (len.toNat + 1))
  else return cursor
termination_by received.length - cursor

def portalAddress : Bytes := [192, 168, 4, 1]

/-- The sixteen bytes of `answer` -/
def answerRecord : Bytes :=
  [0xC0, 0x0C, 0x00, 0x01, 0x00, 0x01, 0x00, 0x00, 0x00, 0x1E, 0x00, 0x04] ++ portalAddress

/-- One turn of the loop in `dns_task`: what is sent back. `recvfrom` cuts a long datagram. -/
def dnsPacket (packet : Packet) (datagram : Bytes) : Access (Option Bytes) := do
  let received := datagram.take 512
  let bytes := received ++ packet.bytes.drop received.length
  if received.length < 12 then return none
  if 512 - 16 < received.length then return none
  let cursor ← nameEnd received 12
  if received.length < cursor + 5 then return none
  let bytes ← writeSpan bytes received.length answerRecord
  let bytes ← writeSpan bytes 2 [0x81, 0x80]
  let bytes ← writeSpan bytes 6 [0x00, 0x01]
  return some (bytes.take (received.length + 16))

-- ---------------------------------------------------------------------------
-- Any datagram
-- ---------------------------------------------------------------------------

section Bounds

variable {received buf data : Bytes} {cursor off : Nat}

theorem readByte_inside (h : cursor < received.length) :
    readByte received cursor = .ok received[cursor] := by
  rw [readByte, List.getElem?_eq_getElem h]

/-- The walk ends, and reads only what was received. -/
theorem nameEnd_ok (received : Bytes) (cursor : Nat) :
    ∃ last, nameEnd received cursor = .ok last := by
  induction cursor using nameEnd.induct received with
  | case1 cursor hInside ih =>
    rw [nameEnd, dif_pos hInside, readByte_inside hInside, Access.ok_bind]
    split_ifs with hRoot hStop
    · exact ⟨_, rfl⟩
    · exact ⟨_, rfl⟩
    · exact ih _ hStop
  | case2 cursor hEnd =>
    rw [nameEnd, dif_neg hEnd]
    exact ⟨_, rfl⟩

theorem writeSpan_inside (data : Bytes) (h : off + data.length ≤ buf.length) :
    ∃ after, writeSpan buf off data = .ok after ∧ after.length = buf.length := by
  refine ⟨_, if_pos h, ?_⟩
  rw [List.length_append, List.length_append, List.length_take, List.length_drop]
  omega

/-- **No access** of the packet handling faults, whatever is received. -/
theorem dnsPacket_ok (packet : Packet) (datagram : Bytes) :
    ∃ reply, dnsPacket packet datagram = .ok reply := by
  have hReceived : (datagram.take 512).length ≤ 512 := by
    rw [List.length_take]
    omega
  generalize hEq : datagram.take 512 = received at hReceived
  simp only [dnsPacket, hEq]
  split_ifs with hShort hLong
  · exact ⟨_, rfl⟩
  · exact ⟨_, rfl⟩
  obtain ⟨cursor, hCursor⟩ := nameEnd_ok received 12
  rw [hCursor, Access.ok_bind]
  split_ifs with hTail
  · exact ⟨_, rfl⟩
  have hSize : (received ++ packet.bytes.drop received.length).length = 512 := by
    rw [List.length_append, List.length_drop, packet.size]
    omega
  obtain ⟨first, hFirst, hFirstLen⟩ := writeSpan_inside answerRecord
    (show received.length + 16 ≤ (received ++ packet.bytes.drop received.length).length by omega)
  obtain ⟨second, hSecond, hSecondLen⟩ := writeSpan_inside [0x81, 0x80]
    (show 2 + 2 ≤ first.length by omega)
  obtain ⟨third, hThird, -⟩ := writeSpan_inside [0x00, 0x01]
    (show 6 + 2 ≤ second.length by omega)
  rw [hFirst, Access.ok_bind, hSecond, Access.ok_bind, hThird]
  exact ⟨_, rfl⟩

end Bounds

-- ---------------------------------------------------------------------------
-- A query
-- ---------------------------------------------------------------------------

def dnsHeader (id flags ancount nscount arcount : UInt16) : Bytes :=
  Dns.putU16 id.toNat ++ (Dns.putU16 flags.toNat ++ (Dns.putU16 1 ++
    (Dns.putU16 ancount.toNat ++ (Dns.putU16 nscount.toNat ++ Dns.putU16 arcount.toNat))))

/-- An A/IN question -/
def question (name : Dns.Name) : Bytes := Dns.putName name ++ (Dns.putU16 1 ++ Dns.putU16 1)

/-- A well-formed query with one A/IN question: the records behind it are read whatever the
header is, as no name leads into it. -/
structure Query where
  id : UInt16
  flags : UInt16
  name : Dns.Name
  nscount : UInt16
  arcount : UInt16
  tail : Bytes
  records : List Dns.Record
  labels : ∀ label ∈ name, Dns.IsLabel label
  reads : ∀ header : Bytes, header.length = 12 →
    Dns.readMany (Dns.readRecord (header ++ (question name ++ tail)))
      (nscount.toNat + arcount.toNat) tail = some (records, [])
  size : 12 + ((question name).length + tail.length) ≤ 496

def Query.bytes (q : Query) : Bytes :=
  dnsHeader q.id q.flags 0 q.nscount q.arcount ++ (question q.name ++ q.tail)

/-- What is sent back -/
def Query.reply (q : Query) : Bytes :=
  dnsHeader q.id 0x8180 1 q.nscount q.arcount ++ (question q.name ++ (q.tail ++ answerRecord))

/-- The A record behind the query -/
def Query.answer (q : Query) : Dns.Record := ⟨q.name, 1, 1, 30, .a portalAddress⟩

section Handling

variable {front rest : Bytes} {name : Dns.Name} (q : Query)

@[simp] theorem length_dnsHeader (id flags ancount nscount arcount : UInt16) :
    (dnsHeader id flags ancount nscount arcount).length = 12 := rfl

theorem length_question (name : Dns.Name) :
    (question name).length = (Dns.putLabels name).length + 5 := by
  rw [question, Dns.putName, List.length_append, List.length_append]
  rfl

theorem length_le_putLabels (name : Dns.Name) : name.length ≤ (Dns.putLabels name).length := by
  induction name with
  | nil => exact Nat.le_refl 0
  | cons label name ih =>
    rw [Dns.putLabels, List.flatMap_cons, List.length_append, List.length_cons, Dns.putLabel,
      List.length_cons, ← Dns.putLabels]
    omega

theorem Query.length_bytes : q.bytes.length = 12 + ((question q.name).length + q.tail.length) := by
  rw [Query.bytes, List.length_append, List.length_append, length_dnsHeader]

/-- The walk over the labels ends at the root. -/
theorem nameEnd_labels (front : Bytes) (hLabels : ∀ label ∈ name, Dns.IsLabel label)
    (hRest : 4 ≤ rest.length) :
    nameEnd (front ++ (Dns.putName name ++ rest)) front.length =
      .ok (front.length + (Dns.putLabels name).length) := by
  induction name generalizing front with
  | nil =>
    have hRoot : (front ++ (Dns.putName [] ++ rest))[front.length]? = some 0 := by
      rw [List.getElem?_append_right (Nat.le_refl _), Nat.sub_self]
      rfl
    rw [nameEnd, dif_pos (List.getElem?_eq_some_iff.1 hRoot).1, readByte, hRoot, Access.ok_bind,
      if_pos rfl]
    rfl
  | cons label name ih =>
    obtain ⟨⟨hPos, hLe⟩, hName⟩ := List.forall_mem_cons.1 hLabels
    have hText : front ++ (Dns.putName (label :: name) ++ rest) =
        (front ++ Dns.putLabel label) ++ (Dns.putName name ++ rest) := by
      simp only [Dns.putName, Dns.putLabels, List.flatMap_cons, List.append_assoc]
    have hLen : (UInt8.ofNat label.length).toNat = label.length := by
      rw [UInt8.toNat_ofNat']
      omega
    have hRead : (front ++ (Dns.putName (label :: name) ++ rest))[front.length]? =
        some (UInt8.ofNat label.length) := by
      rw [List.getElem?_append_right (Nat.le_refl _), Nat.sub_self]
      rfl
    have hZero : UInt8.ofNat label.length ≠ 0 := by
      intro hEq
      rw [hEq, UInt8.toNat_zero] at hLen
      omega
    have hFront : (front ++ Dns.putLabel label).length = front.length + (label.length + 1) := by
      rw [List.length_append]
      rfl
    rw [nameEnd, dif_pos (List.getElem?_eq_some_iff.1 hRead).1, readByte, hRead, Access.ok_bind,
      if_neg hZero, hLen, if_neg, hText, ← hFront, ih _ hName, hFront]
    · have hCons : (Dns.putLabels (label :: name)).length =
          label.length + 1 + (Dns.putLabels name).length := by
        rw [Dns.putLabels, List.flatMap_cons, List.length_append]
        rfl
      rw [hCons]
      congr 1
      omega
    · -- the root and the rest of the question are behind the label
      rw [hText, List.length_append, hFront, List.length_append, Dns.putName, List.length_append,
        List.length_singleton]
      omega

theorem take_append_exact {m : Nat} {xs ys : Bytes} (h : xs.length = m) :
    (xs ++ ys).take m = xs := by
  rw [← h, List.take_left]

/-- **The reply**: a record behind the packet, and two fields of the header. -/
theorem dnsPacket_query (packet : Packet) : dnsPacket packet q.bytes = .ok (some q.reply) := by
  have hSize := q.size
  have hLen := q.length_bytes
  have hQuestion := length_question q.name
  have hWhole : q.bytes.take 512 = q.bytes := List.take_of_length_le (by omega)
  have hEnd : nameEnd q.bytes 12 = .ok (12 + (Dns.putLabels q.name).length) := by
    have hRest : 4 ≤ ((Dns.putU16 1 ++ Dns.putU16 1) ++ q.tail).length := by
      rw [List.length_append]
      exact Nat.le_add_right 4 _
    have hWalk := nameEnd_labels (dnsHeader q.id q.flags 0 q.nscount q.arcount) q.labels
      hRest
    rw [length_dnsHeader] at hWalk
    rw [Query.bytes, question, List.append_assoc]
    exact hWalk
  generalize hStale : packet.bytes.drop q.bytes.length = stale
  have hRoom : q.bytes.length + stale.length = 512 := by
    rw [← hStale, List.length_drop, packet.size]
    omega
  have hAnswer : writeSpan (q.bytes ++ stale) q.bytes.length answerRecord =
      .ok (q.bytes ++ answerRecord ++ stale.drop 16) := by
    have hFits : q.bytes.length + answerRecord.length ≤ (q.bytes ++ stale).length := by
      rw [List.length_append]
      change _ + 16 ≤ _
      omega
    rw [writeSpan, if_pos hFits, List.take_left, List.drop_append,
      List.drop_of_length_le (by omega), List.nil_append, Nat.add_sub_cancel_left]
    rfl
  have hHeader : ∃ flags ancount, writeSpan (q.bytes ++ answerRecord ++ stale.drop 16) 2
      [0x81, 0x80] = .ok flags ∧ writeSpan flags 6 [0x00, 0x01] = .ok ancount ∧
        ancount = q.reply ++ stale.drop 16 := by
    refine ⟨_, _, rfl, rfl, ?_⟩
    simp only [Query.bytes, Query.reply, List.append_assoc]
    rfl
  obtain ⟨flags, ancount, hFlags, hCount, hReply⟩ := hHeader
  have hReplyLen : q.reply.length = q.bytes.length + 16 := by
    rw [hLen, Query.reply, List.length_append, List.length_append, List.length_append,
      length_dnsHeader, ← Nat.add_assoc, ← Nat.add_assoc, ← Nat.add_assoc]
    rfl
  simp only [dnsPacket, hWhole, hStale]
  rw [if_neg (by omega), if_neg (by omega), hEnd, Access.ok_bind, if_neg (by omega), hAnswer,
    Access.ok_bind, hFlags, Access.ok_bind, hCount, Access.ok_bind, hReply,
    take_append_exact hReplyLen]
  rfl

end Handling

-- ---------------------------------------------------------------------------
-- Read by a decoder
-- ---------------------------------------------------------------------------

/-- The ID and the question are those of the query, and the one answer is an A record of the
name with the address of the portal. -/
def Answered (q : Query) (reply : Bytes) : Prop :=
  ∃ message ttl, Dns.decode reply = some message ∧ message.id = q.id.toNat ∧
    message.questions = [⟨q.name, 1, 1⟩] ∧
    message.answers = [⟨q.name, 1, 1, ttl, .a portalAddress⟩]

/-- Nothing is behind the question, or first what the reply says. -/
def Query.Bare (q : Query) : Prop :=
  ∀ record ∈ q.records.head?, ∃ ttl, record = ⟨q.name, 1, 1, ttl, .a portalAddress⟩

section Decode

variable {id flags ancount nscount arcount : UInt16} {name : Dns.Name} {body rest : Bytes}
  {records : List Dns.Record} (q : Query)

/-- One question, and all records in one go -/
theorem decode_records (hLabels : ∀ label ∈ name, Dns.IsLabel label)
    (hRecords : Dns.readMany (Dns.readRecord
      (dnsHeader id flags ancount nscount arcount ++ (question name ++ body)))
      (ancount.toNat + (nscount.toNat + arcount.toNat)) body = some (records, [])) :
    Dns.decode (dnsHeader id flags ancount nscount arcount ++ (question name ++ body)) =
      some ⟨id.toNat, flags.toNat, [⟨name, 1, 1⟩], records.take ancount.toNat,
        (records.drop ancount.toNat).take nscount.toNat,
        (records.drop ancount.toNat).drop nscount.toNat⟩ := by
  obtain ⟨left, hAnswers, hOthers⟩ := Dns.readMany_add hRecords
  obtain ⟨right, hAuthorities, hAdditionals⟩ := Dns.readMany_add hOthers
  generalize hMsg : dnsHeader id flags ancount nscount arcount ++ (question name ++ body) = msg
    at hAnswers hAuthorities hAdditionals
  have hSteps : name.length < msg.length := by
    have hNames := length_le_putLabels name
    rw [← hMsg, List.length_append, List.length_append, length_dnsHeader, length_question]
    omega
  have hQuestion : Dns.readQuestion msg (question name ++ body) = some (⟨name, 1, 1⟩, body) := by
    rw [question, List.append_assoc, List.append_assoc, Dns.readQuestion,
      Dns.readName_name hLabels hSteps]
    simp only [Option.bind_eq_bind, Option.bind_some, Dns.readU16_putU16]
    rfl
  have hWords (v : UInt16) (p : Bytes) :
      Dns.readU16 (Dns.putU16 v.toNat ++ p) = some (v.toNat, p) := by
    rw [Dns.readU16_putU16, Nat.mod_eq_of_lt v.toNat_lt]
  have hQuestions : Dns.readMany (Dns.readQuestion msg) 1 (question name ++ body) =
      some ([⟨name, 1, 1⟩], body) := by
    rw [Dns.readMany_cons hQuestion]
    rfl
  have hId : Dns.readU16 msg = some (id.toNat, Dns.putU16 flags.toNat ++ (Dns.putU16 1 ++
      (Dns.putU16 ancount.toNat ++ (Dns.putU16 nscount.toNat ++ (Dns.putU16 arcount.toNat ++
        (question name ++ body)))))) := by
    rw [← hMsg, ← hWords]
    rfl
  rw [Dns.decode, hId]
  simp only [Option.bind_eq_bind, Option.bind_some, hWords, Dns.readU16_putU16, Nat.reduceMod,
    hQuestions, hAnswers, hAuthorities, hAdditionals, if_true]

/-- So a query is what it says. -/
theorem Query.decode_bytes : Dns.decode q.bytes =
    some ⟨q.id.toNat, q.flags.toNat, [⟨q.name, 1, 1⟩], [], q.records.take q.nscount.toNat,
      q.records.drop q.nscount.toNat⟩ := by
  have hRecords := q.reads (dnsHeader q.id q.flags 0 q.nscount q.arcount) rfl
  rw [← Nat.zero_add (q.nscount.toNat + q.arcount.toNat)] at hRecords
  exact decode_records q.labels hRecords

/-- The record behind the packet is read there. -/
theorem readRecord_answer {header : Bytes} (tail : Bytes) (hHeader : header.length = 12)
    (hLabels : ∀ label ∈ name, Dns.IsLabel label) (hSteps : name.length + 1 <
      (header ++ (question name ++ tail)).length) :
    Dns.readRecord (header ++ (question name ++ tail)) answerRecord =
      some (⟨name, 1, 1, 30, .a portalAddress⟩, []) := by
  generalize hMsg : header ++ (question name ++ tail) = msg at hSteps
  have hName : msg.drop 12 = Dns.putName name ++ (Dns.putU16 1 ++ Dns.putU16 1 ++ tail) := by
    rw [← hMsg, ← hHeader, List.drop_left, question, List.append_assoc]
  obtain ⟨fuel, hFuel⟩ := Nat.exists_eq_add_of_lt hSteps
  have hOwner : Dns.readName msg msg.length (Dns.putPointer 12 ++
      (Dns.putRecord 1 1 30 portalAddress ++ [])) =
        some (name, Dns.putRecord 1 1 30 portalAddress ++ []) := by
    rw [hFuel, Dns.readName_pointer (by decide), hName,
      Dns.readName_name hLabels (by omega), Option.map_some]
  exact Dns.readRecord_record (by decide) (by decide) (by decide) (by decide) hOwner rfl

/-- **What is read**: the records of the query, and the A record behind them; the first of
all these is the answer. -/
theorem decode_reply : Dns.decode q.reply =
    some ⟨q.id.toNat, 0x8180, [⟨q.name, 1, 1⟩], (q.records ++ [q.answer]).take 1,
      ((q.records ++ [q.answer]).drop 1).take q.nscount.toNat,
      ((q.records ++ [q.answer]).drop 1).drop q.nscount.toNat⟩ := by
  have hHeader := length_dnsHeader q.id 0x8180 1 q.nscount q.arcount
  generalize hEq : dnsHeader q.id 0x8180 1 q.nscount q.arcount = header at hHeader
  have hQuery := Dns.readMany_append (fun _ _ _ h => Dns.readRecord_append h answerRecord
    answerRecord) (q.reads header hHeader)
  have hLast := readRecord_answer (q.tail ++ answerRecord) hHeader q.labels (by
    have hNames := length_le_putLabels q.name
    rw [List.length_append, List.length_append, length_question, hHeader]
    omega)
  rw [List.nil_append, List.append_assoc, List.append_assoc] at hQuery
  have hAll := Dns.readMany_snoc hQuery hLast
  rw [Nat.add_comm, ← hEq] at hAll
  exact decode_records q.labels hAll

end Decode

-- ---------------------------------------------------------------------------
-- The answer
-- ---------------------------------------------------------------------------

/-- What is sent back for a query is the answer to it. -/
def Answers (packet : Packet) (q : Query) : Prop :=
  ∃ reply, dnsPacket packet q.bytes = .ok (some reply) ∧ Answered q reply

theorem answers_iff_head (packet : Packet) (q : Query) : Answers packet q ↔
    ∃ ttl, (q.records ++ [q.answer]).take 1 = [⟨q.name, 1, 1, ttl, .a portalAddress⟩] := by
  constructor
  · rintro ⟨reply, hReply, message, ttl, hDecode, -, -, hAnswers⟩
    rw [dnsPacket_query] at hReply
    cases hReply
    rw [decode_reply] at hDecode
    cases hDecode
    exact ⟨ttl, hAnswers⟩
  · rintro ⟨ttl, hFirst⟩
    exact ⟨q.reply, dnsPacket_query q packet, _, ttl, decode_reply q, rfl, rfl, hFirst⟩

/-- **The portal's name server** stays in its buffers whatever is received, and answers a query
exactly when the question is the last of it, or such a record comes next anyway. -/
theorem answers_iff (packet : Packet) :
    (∀ datagram : Bytes, ∃ reply, dnsPacket packet datagram = .ok reply) ∧
      ∀ q : Query, Answers packet q ↔ q.Bare := by
  refine ⟨dnsPacket_ok packet, fun q => ?_⟩
  rw [answers_iff_head, Query.Bare]
  cases q.records with
  | nil => simp [Query.answer]
  | cons record records => simp

/-- The OPT record of EDNS: the root, and the size of a datagram in place of the class -/
def optRecord : Bytes := [0] ++ (Dns.putRecord 41 1232 0 [] ++ [])

theorem readRecord_opt (msg : Bytes) (h : 0 < msg.length) :
    Dns.readRecord msg optRecord = some (⟨[], 41, 1232, 0, .other []⟩, []) := by
  obtain ⟨fuel, hFuel⟩ := Nat.exists_eq_add_of_lt h
  refine Dns.readRecord_record (by decide) (by decide) (by decide) (by decide) ?_ rfl
  rw [hFuel]
  exact Dns.readName_root msg _ _

/-- `captive.apple.com`, asked by a resolver with EDNS -/
def ednsQuery : Query where
  id := 0x2A17
  flags := 0x0100
  name := [ascii "captive", ascii "apple", ascii "com"]
  nscount := 0
  arcount := 1
  tail := optRecord
  records := [⟨[], 41, 1232, 0, .other []⟩]
  labels := by decide
  reads := by
    intro header hHeader
    refine (Dns.readMany_cons (readRecord_opt _ ?_)).trans rfl
    rw [List.length_append, hHeader]
    omega
  size := by decide

/-- The OPT record is read as the answer. -/
theorem edns_unanswered : ¬∀ (packet : Packet) (q : Query), Answers packet q := by
  intro hAll
  obtain ⟨ttl, hFirst⟩ := (answers_iff_head ⟨_, List.length_replicate⟩ ednsQuery).1
    (hAll ⟨List.replicate 512 0, List.length_replicate⟩ ednsQuery)
  cases congrArg Dns.Record.type (List.cons.inj hFirst).1

end EspMiplay.Wifi
