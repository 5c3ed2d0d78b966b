import EspMiplay.Miplay.Announce

/-!
# The announcement, decoded

A strict decoder reads the four records of the packet. The owners of SRV and TXT are pointers
into the data of the PTR record, and that one goes on with a pointer to the service name; the
owner of A is a pointer into the data of SRV.

The length of a record has sixteen bits, so this ends with a TXT record of 65536 bytes.

## Results

* `layout_packet`         — what stands where the pointers point.
* `buildMdnsAnnounce_law` — what is read.
* `announces_limits`      — what cannot be said.
-/

namespace EspMiplay.Miplay

-- ---------------------------------------------------------------------------
-- Names
-- ---------------------------------------------------------------------------

/-- The packet with these bytes for strings. -/
def announcePacket (service : Dns.Name) (inst : Bytes) (port : UInt16) (host strings : Bytes)
    (ip : UInt32) : Bytes :=
  pushHeader ++ (ptrRecord service inst ++ (srvRecord service port host ++
    (txtRecord service strings ++ aRecord service inst ip)))

/-- The names are where the pointers point. -/
structure Layout (service : Dns.Name) (inst host msg : Bytes) : Prop where
  at_service : ∃ rest, msg.drop 12 = Dns.putName service ++ rest
  at_inst : ∃ rest, msg.drop (instOffset service) =
    Dns.putLabel inst ++ (Dns.putPointer 12 ++ rest)
  at_host : ∃ rest, msg.drop (hostOffset service inst) = Dns.putName [host, localLabel] ++ rest
  steps : service.length + 5 ≤ msg.length

section Decode

variable {service : Dns.Name} {inst host strings msg p : Bytes} {port : UInt16} {ip : UInt32}
  {fuel : Nat}

theorem length_le_putName (labels : Dns.Name) : labels.length < (Dns.putName labels).length := by
  rw [Dns.putName, List.length_append, List.length_singleton, Nat.lt_succ_iff]
  induction labels with
  | nil => exact Nat.le_refl 0
  | cons label labels ih =>
    rw [Dns.putLabels, List.flatMap_cons, List.length_append, List.length_cons, Dns.putLabel,
      List.length_cons, ← Dns.putLabels]
    omega

theorem drop_front {front tail : Bytes} {n : Nat} (hMsg : msg = front ++ tail)
    (hLen : front.length = n) : msg.drop n = tail := by
  rw [hMsg, ← hLen, List.drop_left]

theorem layout_packet (service : Dns.Name) (inst : Bytes) (port : UInt16) (host strings : Bytes)
    (ip : UInt32) :
    Layout service inst host (announcePacket service inst port host strings ip) where
  at_service := by
    refine ⟨Dns.putRecord 12 0x8001 120 (Dns.putLabel inst ++ Dns.putPointer 12) ++
      (srvRecord service port host ++ (txtRecord service strings ++ aRecord service inst ip)), ?_⟩
    rw [announcePacket, ptrRecord, List.append_assoc]
    exact drop_front rfl rfl
  at_inst := by
    refine ⟨srvRecord service port host ++ (txtRecord service strings ++
      aRecord service inst ip), ?_⟩
    have hFront : (pushHeader ++ (Dns.putName service ++ (Dns.putU16 12 ++ (Dns.putU16 0x8001 ++
        (Dns.putU32 120 ++ Dns.putU16 (Dns.putLabel inst ++ Dns.putPointer 12).length))))).length =
          instOffset service := by
      simp only [List.length_append, Dns.length_putU16, Dns.length_putU32, instOffset]
      change 12 + _ = _
      omega
    refine drop_front ?_ hFront
    simp only [announcePacket, ptrRecord, Dns.putRecord, List.append_assoc]
  at_host := by
    refine ⟨txtRecord service strings ++ aRecord service inst ip, ?_⟩
    have hFront : (pushHeader ++ (ptrRecord service inst ++ (Dns.putPointer (instOffset service) ++
        (Dns.putU16 33 ++ (Dns.putU16 0x8001 ++ (Dns.putU32 120 ++
          (Dns.putU16 (Dns.putU16 0 ++ (Dns.putU16 0 ++ (Dns.putU16 port.toNat ++
            Dns.putName [host, localLabel]))).length ++ (Dns.putU16 0 ++ (Dns.putU16 0 ++
              Dns.putU16 port.toNat))))))))).length = hostOffset service inst := by
      simp only [List.length_append, length_ptrRecord, Dns.putPointer, Dns.length_putU16,
        Dns.length_putU32, hostOffset, instOffset]
      change 12 + _ = _
      omega
    refine drop_front ?_ hFront
    simp only [announcePacket, srvRecord, Dns.putRecord, List.append_assoc]
  steps := by
    have hName := length_le_putName service
    rw [announcePacket, List.length_append, List.length_append, length_ptrRecord]
    change _ ≤ 12 + _
    omega

/-- The names in the data, and the pointers of the owners. -/
theorem readName_inst (hService : ∀ label ∈ service, Dns.IsLabel label) (hInst : Dns.IsLabel inst)
    (h : Layout service inst host msg) (hFuel : service.length + 2 < fuel) (p : Bytes) :
    Dns.readName msg fuel (Dns.putLabel inst ++ (Dns.putPointer 12 ++ p)) =
      some (inst :: service, p) := by
  obtain ⟨more, rfl⟩ := Nat.exists_eq_add_of_lt hFuel
  obtain ⟨rest, hAt⟩ := h.at_service
  rw [show service.length + 2 + more + 1 = service.length + more + 1 + 1 + 1 by omega,
    Dns.readName_label hInst, Dns.readName_pointer (by decide), hAt,
    Dns.readName_name hService (by omega)]
  rfl

theorem readName_instPointer (hNames : ServiceNames service inst host)
    (h : Layout service inst host msg) (hFuel : service.length + 3 < fuel) (p : Bytes) :
    Dns.readName msg fuel (Dns.putPointer (instOffset service) ++ p) =
      some (inst :: service, p) := by
  have hLength := hNames.service_length
  obtain ⟨more, rfl⟩ := Nat.exists_eq_add_of_lt hFuel
  obtain ⟨rest, hAt⟩ := h.at_inst
  rw [Dns.readName_pointer (by rw [instOffset]; omega), hAt,
    readName_inst hNames.service_labels hNames.inst_label h (by omega)]
  rfl

theorem localLabel_isLabel : Dns.IsLabel localLabel := by decide

theorem ServiceNames.host_labels (h : ServiceNames service inst host) :
    ∀ label ∈ [host, localLabel], Dns.IsLabel label := by
  simp only [List.forall_mem_cons]
  exact ⟨h.host_label, localLabel_isLabel, by simp⟩

theorem readName_hostPointer (hNames : ServiceNames service inst host)
    (h : Layout service inst host msg) (hFuel : 3 < fuel) (p : Bytes) :
    Dns.readName msg fuel (Dns.putPointer (hostOffset service inst) ++ p) =
      some ([host, localLabel], p) := by
  have hLength := hNames.service_length
  have hInst := hNames.inst_label.2
  obtain ⟨more, rfl⟩ := Nat.exists_eq_add_of_lt hFuel
  obtain ⟨rest, hAt⟩ := h.at_host
  rw [Dns.readName_pointer (by rw [hostOffset, instOffset]; omega), hAt,
    Dns.readName_name hNames.host_labels (by rw [List.length_cons, List.length_singleton]; omega)]
  rfl

end Decode

-- ---------------------------------------------------------------------------
-- The records
-- ---------------------------------------------------------------------------

/-- The records, as they are meant. -/
def announcement (service : Dns.Name) (inst : Bytes) (port : UInt16) (host : Bytes)
    (strings : List Bytes) (ip : UInt32) : Dns.Message where
  id := 0
  flags := 0x8400
  questions := []
  answers := [⟨service, 12, 0x8001, 120, .ptr (inst :: service)⟩]
  authorities := []
  additionals := [
    ⟨inst :: service, 33, 0x8001, 120, .srv 0 0 port.toNat [host, localLabel]⟩,
    ⟨inst :: service, 16, 0x8001, 120, .txt strings⟩,
    ⟨[host, localLabel], 1, 0x8001, 120, .a (ipOctets ip)⟩]

section Records

variable {service : Dns.Name} {inst host strings msg body p q : Bytes} {port : UInt16}
  {ip : UInt32} {first second third fourth : Dns.Record} {message : Dns.Message}

theorem readRecord_ptr (hNames : ServiceNames service inst host)
    (h : Layout service inst host msg) (p : Bytes) :
    Dns.readRecord msg (ptrRecord service inst ++ p) =
      some (⟨service, 12, 0x8001, 120, .ptr (inst :: service)⟩, p) := by
  have hSteps := h.steps
  have hInst := hNames.inst_label.2
  have hTarget := readName_inst hNames.service_labels hNames.inst_label h
    (show service.length + 2 < msg.length by omega) []
  rw [List.append_nil] at hTarget
  rw [ptrRecord, List.append_assoc]
  refine Dns.readRecord_record (by decide) (by decide) (by decide) ?_
    (Dns.readName_name hNames.service_labels (by omega) _ _) ?_
  · rw [List.length_append]
    change inst.length + 1 + 2 < _
    omega
  · rw [Dns.readData, if_neg (by decide), if_pos rfl, Dns.readTarget_eq hTarget]
    rfl

theorem readRecord_srv (hNames : ServiceNames service inst host)
    (h : Layout service inst host msg) (port : UInt16) (p : Bytes) :
    Dns.readRecord msg (srvRecord service port host ++ p) =
      some (⟨inst :: service, 33, 0x8001, 120, .srv 0 0 port.toNat [host, localLabel]⟩, p) := by
  have hSteps := h.steps
  have hHost := hNames.host_label.2
  have hTarget := Dns.readName_name hNames.host_labels
    (show [host, localLabel].length < msg.length by
      rw [List.length_cons, List.length_singleton]
      omega) msg []
  rw [List.append_nil] at hTarget
  rw [srvRecord, List.append_assoc]
  refine Dns.readRecord_record (by decide) (by decide) (by decide) ?_
    (readName_instPointer hNames h (by omega) _) ?_
  · rw [length_srvData]
    omega
  · rw [Dns.readData, if_neg (by decide), if_neg (by decide), if_neg (by decide), if_pos rfl]
    simp only [Dns.readU16_putU16, Option.bind_eq_bind, Option.bind_some,
      Dns.readTarget_eq hTarget, Nat.mod_eq_of_lt port.toNat_lt]
    rfl

theorem readRecord_txt (hNames : ServiceNames service inst host)
    (h : Layout service inst host msg) {strings : List Bytes}
    (hStrings : ∀ s ∈ strings, s.length < 256)
    (hLen : (strings.flatMap Dns.putString).length < 65536) (p : Bytes) :
    Dns.readRecord msg (txtRecord service (strings.flatMap Dns.putString) ++ p) =
      some (⟨inst :: service, 16, 0x8001, 120, .txt strings⟩, p) := by
  have hSteps := h.steps
  rw [txtRecord, List.append_assoc]
  refine Dns.readRecord_record (by decide) (by decide) (by decide) hLen
    (readName_instPointer hNames h (by omega) _) ?_
  rw [Dns.readData, if_neg (by decide), if_neg (by decide), if_pos rfl,
    Dns.readStrings_encode hStrings (Dns.length_le_flatMap_putString strings)]
  rfl

/-- 65536 bytes have the length 0. -/
theorem readRecord_txt_overflow (hNames : ServiceNames service inst host)
    (h : Layout service inst host msg) (hLen : strings.length % 65536 = 0) (p : Bytes) :
    Dns.readRecord msg (txtRecord service strings ++ p) =
      some (⟨inst :: service, 16, 0x8001, 120, .txt []⟩, strings ++ p) := by
  have hSteps := h.steps
  rw [txtRecord, List.append_assoc, Dns.readRecord_eq (by decide) (by decide) (by decide)
    (readName_instPointer hNames h (by omega) _), hLen]
  rfl

theorem readRecord_a (hNames : ServiceNames service inst host) (h : Layout service inst host msg)
    (ip : UInt32) :
    Dns.readRecord msg (aRecord service inst ip) =
      some (⟨[host, localLabel], 1, 0x8001, 120, .a (ipOctets ip)⟩, []) := by
  have hSteps := h.steps
  have hLen : (ipOctets ip).length < 65536 := by
    change 4 < 65536
    decide
  have hOwner := readName_hostPointer hNames h (show 3 < msg.length by omega)
    (Dns.putRecord 1 0x8001 120 (ipOctets ip) ++ [])
  have hData : Dns.readData msg 1 (ipOctets ip) = some (.a (ipOctets ip)) := rfl
  have hRecord := Dns.readRecord_record (by decide) (by decide) (by decide) hLen hOwner hData
  rw [List.append_nil] at hRecord
  exact hRecord

/-- The header announces one answer and three additional records. -/
theorem decode_header (body : Bytes) :
    Dns.decode (pushHeader ++ body) =
      (Dns.readMany (Dns.readRecord (pushHeader ++ body)) 1 body).bind fun answers =>
        (Dns.readMany (Dns.readRecord (pushHeader ++ body)) 3 answers.2).bind fun additionals =>
          if additionals.2 = [] then
            some ⟨0, 0x8400, [], answers.1, [], additionals.1⟩
          else none := by
  have hHeader : pushHeader ++ body = Dns.putU16 0 ++ (Dns.putU16 0x8400 ++ (Dns.putU16 0 ++
      (Dns.putU16 1 ++ (Dns.putU16 0 ++ (Dns.putU16 3 ++ body))))) := rfl
  generalize hMsg : pushHeader ++ body = msg
  rw [Dns.decode]
  have hFirst : Dns.readU16 msg = some (0, Dns.putU16 0x8400 ++ (Dns.putU16 0 ++
      (Dns.putU16 1 ++ (Dns.putU16 0 ++ (Dns.putU16 3 ++ body))))) := by
    rw [← hMsg, hHeader, Dns.readU16_putU16]
  simp only [hFirst, Option.bind_eq_bind, Option.bind_some, Dns.readU16_putU16, Dns.readMany]

/-- So these are the message. -/
theorem decode_records {p1 p2 p3 : Bytes} (hMsg : msg = pushHeader ++ body)
    (hFirst : Dns.readRecord msg body = some (first, p1))
    (hSecond : Dns.readRecord msg p1 = some (second, p2))
    (hThird : Dns.readRecord msg p2 = some (third, p3))
    (hFourth : Dns.readRecord msg p3 = some (fourth, [])) :
    Dns.decode msg = some ⟨0, 0x8400, [], [first], [], [second, third, fourth]⟩ := by
  rw [hMsg] at hFirst hSecond hThird hFourth ⊢
  rw [decode_header]
  simp only [Dns.readMany, hFirst, hSecond, hThird, hFourth, Option.bind_eq_bind,
    Option.bind_some, Option.pure_def, if_true]

/-- In any case the third record is what is read there. -/
theorem third_of_decode {p1 p2 p3 : Bytes} (hMsg : msg = pushHeader ++ body)
    (hFirst : Dns.readRecord msg body = some (first, p1))
    (hSecond : Dns.readRecord msg p1 = some (second, p2))
    (hThird : Dns.readRecord msg p2 = some (third, p3)) (h : Dns.decode msg = some message) :
    ∃ last, message.additionals = [second, third, last] := by
  rw [hMsg] at hFirst hSecond hThird h
  rw [decode_header] at h
  simp only [Dns.readMany, hFirst, hSecond, hThird, Option.bind_eq_bind, Option.bind_some,
    Option.pure_def] at h
  cases hFourth : Dns.readRecord (pushHeader ++ body) p3 with
  | none =>
    rw [hFourth] at h
    cases h
  | some fourth =>
    simp only [hFourth, Option.bind_some] at h
    split_ifs at h
    cases h
    exact ⟨fourth.1, rfl⟩

end Records

-- ---------------------------------------------------------------------------
-- The packet
-- ---------------------------------------------------------------------------

/-- The packet is not too long, and a decoder reads the records with as many strings as leave
so many bytes. -/
def Announces (reserve : Nat) (pSize : UInt32) (service : Dns.Name) (inst : Bytes)
    (port : UInt16) (host : Bytes) (items : List TxtItem) (ip : UInt32) : Prop :=
  (buildMdnsAnnounce pSize (Dns.putName service) inst port host items ip).length ≤ pSize.toNat ∧
    ∃ n, Longest (pSize.toNat - reserve) (txtStart service inst host) items n ∧
      Dns.decode (buildMdnsAnnounce pSize (Dns.putName service) inst port host items ip) =
        some (announcement service inst port host (txtStrings items n) ip)

section Law

variable {items : List TxtItem} {n : Nat}

theorem txtBytes_all (items : List TxtItem) (n : Nat) :
    (txtBytes items n).length ≤ (txtBytes items items.length).length := by
  have hSplit : txtStrings items items.length =
      txtStrings items n ++ (items.drop n).map TxtItem.entry := by
    rw [txtStrings, txtStrings, ← List.map_append, List.take_append_drop, List.take_length]
  rw [txtBytes, txtBytes, hSplit, List.flatMap_append, List.length_append]
  exact Nat.le_add_right ..

theorem length_announcePacket (service : Dns.Name) (inst : Bytes) (port : UInt16)
    (host strings : Bytes) (ip : UInt32) :
    (announcePacket service inst port host strings ip).length =
      txtStart service inst host + strings.length + 16 := by
  have hLast : (aRecord service inst ip).length = 16 := by
    rw [aRecord, List.length_append, length_putRecord]
    rfl
  rw [announcePacket, List.length_append, List.length_append, List.length_append,
    List.length_append, length_ptrRecord, length_srvRecord, length_txtRecord, hLast, txtStart,
    hostOffset, instOffset]
  change 12 + _ = _
  omega

/-- **The announcement**, for a packet of any size a datagram can have. -/
theorem buildMdnsAnnounce_law (pSize : UInt32) (service : Dns.Name) (inst : Bytes)
    (port : UInt16) (host : Bytes) (items : List TxtItem) (ip : UInt32)
    (h : ServiceNames service inst host) (hItems : ∀ item ∈ items, item.entry.length ≤ 255)
    (hSize : 512 ≤ pSize.toNat)
    (hTotal : pSize.toNat ≤ 65535 ∨ (txtBytes items items.length).length ≤ 65535) :
    Announces 64 pSize service inst port host items ip := by
  obtain ⟨n, hLongest, hPacket⟩ := buildMdnsAnnounce_eq h hItems hSize port ip
  have hFits := hLongest.fits
  have hAll := txtBytes_all items n
  rw [TxtFits] at hFits
  have hLen : (txtBytes items n).length < 65536 := by omega
  have hStrings : ∀ s ∈ txtStrings items n, s.length < 256 := by
    intro s hMem
    obtain ⟨item, hItem, rfl⟩ := List.mem_map.1 hMem
    exact Nat.lt_succ_of_le (hItems item (List.mem_of_mem_take hItem))
  rw [← announcePacket] at hPacket
  have hLayout := layout_packet service inst port host (txtBytes items n) ip
  rw [Announces, hPacket]
  refine ⟨?_, n, hLongest, decode_records rfl (readRecord_ptr h hLayout _)
    (readRecord_srv h hLayout port _) (readRecord_txt h hLayout hStrings hLen _)
    (readRecord_a h hLayout ip)⟩
  rw [length_announcePacket]
  omega

/-- The service of the receiver, under the id of a device. -/
def lyraService : Dns.Name := [ascii "_lyra-mdns", ascii "_udp", localLabel]

def lyraDevice : Bytes := ascii "0A1B2C3D"

theorem lyra_names : ServiceNames lyraService lyraDevice lyraDevice :=
  ⟨by decide, by decide, by decide, by decide⟩

def lyraTxt : List TxtItem := [⟨ascii "MediumType", some (ascii "8192")⟩, ⟨ascii "CH", none⟩]

theorem lyra_announces :
    Announces 64 768 lyraService lyraDevice 5353 lyraDevice lyraTxt 0x0101A8C0 :=
  buildMdnsAnnounce_law 768 lyraService lyraDevice 5353 lyraDevice lyraTxt 0x0101A8C0 lyra_names
    (by decide) (by decide) (.inl (by decide))

/-- As long as an entry may be. -/
def longItem : TxtItem := ⟨List.replicate 254 0x6B, none⟩

theorem length_longItem : longItem.entry.length = 255 := by
  rw [length_entry, longItem, List.length_replicate]
  rfl

theorem length_longBytes (k n : Nat) (hLe : n ≤ k) :
    (txtBytes (List.replicate k longItem) n).length = 256 * n := by
  rw [txtBytes, txtStrings, List.take_replicate, Nat.min_eq_left hLe, List.map_replicate]
  clear hLe
  induction n with
  | zero => rfl
  | succ n ih =>
    rw [List.replicate_succ, List.flatMap_cons, List.length_append, ih, length_putString,
      length_longItem]
    omega

/-- The length of the TXT record has sixteen bits. -/
theorem not_announces_long :
    ¬Announces 64 131072 lyraService lyraDevice 5353 lyraDevice (List.replicate 256 longItem)
      0 := by
  rintro ⟨-, n, hLongest, hDecode⟩
  have hItems : ∀ item ∈ List.replicate 256 longItem, item.entry.length ≤ 255 := by
    intro item hMem
    rw [List.eq_of_mem_replicate hMem, length_longItem]
  have hSize : 512 ≤ (131072 : UInt32).toNat := by decide
  have hStart : txtStart lyraService lyraDevice lyraDevice ≤ 200 := by decide
  -- all of them are written
  have hAll {k : Nat} (h : Longest ((131072 : UInt32).toNat - 64)
      (txtStart lyraService lyraDevice lyraDevice) (List.replicate 256 longItem) k) : k = 256 := by
    have hLe := h.prefix_le
    rw [List.length_replicate] at hLe
    have hMost := h.last 256 (by rw [List.length_replicate]) (by
      rw [TxtFits, length_longBytes _ _ (Nat.le_refl _)]
      exact Nat.le_trans (Nat.add_le_add_right hStart _) (by decide))
    exact Nat.le_antisymm hLe hMost
  obtain ⟨k, hWritten, hPacket⟩ := buildMdnsAnnounce_eq lyra_names hItems hSize 5353 0
  obtain rfl := hAll hLongest
  obtain rfl := hAll hWritten
  rw [← announcePacket] at hPacket
  have hLayout := layout_packet lyraService lyraDevice 5353 lyraDevice
    (txtBytes (List.replicate 256 longItem) 256) 0
  rw [hPacket] at hDecode
  obtain ⟨last, hThird⟩ := third_of_decode rfl (readRecord_ptr lyra_names hLayout _)
    (readRecord_srv lyra_names hLayout 5353 _)
    (readRecord_txt_overflow lyra_names hLayout (by
      rw [length_longBytes _ _ (Nat.le_refl _)]) _) hDecode
  obtain ⟨hRecord, -⟩ := List.cons.inj (List.cons.inj hThird).2
  have hStrings := Dns.RData.txt.inj (congrArg Dns.Record.data hRecord)
  have hNone := congrArg List.length hStrings
  rw [txtStrings, List.length_map, List.length_take, List.length_replicate, Nat.min_self] at hNone
  cases hNone

/-- An empty label ends the name. -/
theorem not_announces_empty : ¬Announces 64 512 lyraService [] 5353 lyraDevice [] 0 := by
  rintro ⟨-, n, -, hDecode⟩
  have hNone : Dns.decode (buildMdnsAnnounce 512 (Dns.putName lyraService) [] 5353 lyraDevice []
      0) = none := by decide +kernel
  rw [hNone] at hDecode
  cases hDecode

/-- Two entries that fit a packet of 512 bytes, but do not leave 64. -/
def closeTxt : List TxtItem := List.replicate 2 ⟨List.replicate 184 0x6B, none⟩

theorem not_announces_close :
    ¬Announces 16 512 lyraService lyraDevice 5353 lyraDevice closeTxt 0 := by
  rintro ⟨-, n, hLongest, hDecode⟩
  have hOne : Dns.decode (buildMdnsAnnounce 512 (Dns.putName lyraService) lyraDevice 5353
      lyraDevice closeTxt 0) =
        some (announcement lyraService lyraDevice 5353 lyraDevice (txtStrings closeTxt 1) 0) := by
    decide +kernel
  have hBoth : n = 2 := Nat.le_antisymm hLongest.prefix_le
    (hLongest.last 2 (by decide) (of_decide_eq_true (by decide +kernel)))
  rw [hOne, hBoth] at hDecode
  have hMessage := Option.some.inj hDecode
  obtain ⟨hRecord, -⟩ := List.cons.inj (List.cons.inj (congrArg Dns.Message.additionals
    hMessage)).2
  have hStrings := Dns.RData.txt.inj (congrArg Dns.Record.data hRecord)
  cases congrArg List.length hStrings

/-- **Limits**: the length of the TXT record has sixteen bits, a label is not empty, and the
strings do not take all the room. -/
theorem announces_limits :
    (¬∀ (pSize : UInt32) (items : List TxtItem), 512 ≤ pSize.toNat →
      (∀ item ∈ items, item.entry.length ≤ 255) →
        Announces 64 pSize lyraService lyraDevice 5353 lyraDevice items 0) ∧
    (¬∀ inst : Bytes, inst.length ≤ 63 →
      Announces 64 512 lyraService inst 5353 lyraDevice [] 0) ∧
    ¬∀ items : List TxtItem, (∀ item ∈ items, item.entry.length ≤ 255) →
      Announces 16 512 lyraService lyraDevice 5353 lyraDevice items 0 := by
  refine ⟨fun hAll => not_announces_long (hAll _ _ (by decide) ?_), fun hAll =>
    not_announces_empty (hAll _ (by decide)), fun hAll => not_announces_close (hAll _ ?_)⟩
  · intro item hMem
    rw [List.eq_of_mem_replicate hMem, length_longItem]
  · intro item hMem
    rw [List.eq_of_mem_replicate hMem, length_entry, List.length_replicate]
    decide

end Law

end EspMiplay.Miplay
