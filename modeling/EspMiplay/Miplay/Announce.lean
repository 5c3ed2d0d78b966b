import EspMiplay.Lib.Dns
import EspMiplay.Miplay.Bytes

/-!
# The mDNS announcement

`build_mdns_announce` writes one packet: a PTR record in the answers, and SRV, TXT and A in
the additional records. The names of a record that stood in the packet before are pointers to
where they stood, the lengths of the SRV and the TXT record are filled in afterwards, and of
the TXT strings those are written that leave 64 bytes.

## Results

* `pushTxt_longest`      — the strings that are written.
* `buildMdnsAnnounce_eq` — the packet, with every length in its place.
-/

namespace EspMiplay.Miplay

-- ---------------------------------------------------------------------------
-- The packet
-- ---------------------------------------------------------------------------

/-- `dns_push_u16`: `p` is what has been written, and `o` its length. -/
def dnsPushU16 (p : Bytes) (v : UInt16) : Bytes := p ++ putBe16 v

/-- `dns_push_u32` -/
def dnsPushU32 (p : Bytes) (v : UInt32) : Bytes := p ++ putBe32 v

/-- `dns_push_label` -/
def dnsPushLabel (p label : Bytes) : Bytes :=
  let len := if label.length > 63 then 63 else label.length
  p ++ UInt8.ofNat len :: label.take len

/-- `dns_push_ptr` -/
def dnsPushPtr (p : Bytes) (offset : UInt16) : Bytes :=
  p ++ putBe16 (0xC000 ||| (offset &&& 0x3FFF))

/-- Type, class and TTL are alike in all four records but for the type. -/
def dnsPushHead (p : Bytes) (type : UInt16) : Bytes :=
  dnsPushU32 (dnsPushU16 (dnsPushU16 p type) 0x8001) 120

/-- A length is filled in. -/
def patchU16 (p : Bytes) (pos : Nat) (v : UInt16) : Bytes :=
  (p.set pos (v >>> 8).toUInt8).set (pos + 1) v.toUInt8

/-- `mdns_txt_item_t` -/
structure TxtItem where
  key : Bytes
  value : Option Bytes

/-- `key=value` -/
def TxtItem.entry (item : TxtItem) : Bytes := item.key ++ 0x3D :: item.value.getD []

/-- The loop over the strings. -/
def pushTxt (pSize : UInt32) : List TxtItem → Bytes → Bytes
  | [], p => p
  | item :: items, p =>
    let slen := UInt8.ofNat (item.key.length + 1 + (item.value.getD []).length)
    if p.length + 1 + slen.toNat > (pSize - 64).toNat then p
    else pushTxt pSize items (p ++ slen :: item.entry)

def pushHeader : Bytes :=
  dnsPushU16 (dnsPushU16 (dnsPushU16 (dnsPushU16 (dnsPushU16 (dnsPushU16 [] 0) 0x8400) 0) 1) 0) 3

/-- The PTR record, and where the name of the instance stands. -/
def pushPtrRecord (p svcQname inst : Bytes) : Bytes × UInt16 :=
  let svcOff := UInt16.ofNat p.length
  let p := dnsPushHead (p ++ svcQname) 12
  let p := dnsPushU16 p (UInt16.ofNat (inst.length + 3))
  (dnsPushPtr (dnsPushLabel p inst) svcOff, UInt16.ofNat p.length)

/-- The SRV record, and where the name of the host stands. -/
def pushSrvRecord (p : Bytes) (instOff port : UInt16) (deviceId : Bytes) : Bytes × UInt16 :=
  let p := dnsPushHead (dnsPushPtr p instOff) 33
  let srvLenPos := p.length
  let p := dnsPushU16 p 0
  let srvStart := p.length
  let p := dnsPushU16 (dnsPushU16 (dnsPushU16 p 0) 0) port
  let hostOff := UInt16.ofNat p.length
  let p := dnsPushLabel p deviceId ++ (0x05 :: ascii "local") ++ [0x00]
  (patchU16 p srvLenPos (UInt16.ofNat (p.length - srvStart)), hostOff)

def pushTxtRecord (pSize : UInt32) (p : Bytes) (instOff : UInt16) (txt : List TxtItem) : Bytes :=
  let p := dnsPushHead (dnsPushPtr p instOff) 16
  let txtRdlenPos := p.length
  let p := dnsPushU16 p 0
  let txtRdlenStart := p.length
  let p := pushTxt pSize txt p
  patchU16 p txtRdlenPos (UInt16.ofNat (p.length - txtRdlenStart))

def pushARecord (p : Bytes) (hostOff : UInt16) (ip : UInt32) : Bytes :=
  let p := dnsPushU16 (dnsPushHead (dnsPushPtr p hostOff) 1) 4
  p ++ [(ip &&& 0xFF).toUInt8, ((ip >>> 8) &&& 0xFF).toUInt8, ((ip >>> 16) &&& 0xFF).toUInt8,
    ((ip >>> 24) &&& 0xFF).toUInt8]

/-- `build_mdns_announce`, with `s_device_id`. -/
def buildMdnsAnnounce (pSize : UInt32) (svcQname inst : Bytes) (port : UInt16) (deviceId : Bytes)
    (txt : List TxtItem) (ip : UInt32) : Bytes :=
  let ptr := pushPtrRecord pushHeader svcQname inst
  let srv := pushSrvRecord ptr.1 ptr.2 port deviceId
  pushARecord (pushTxtRecord pSize srv.1 ptr.2 txt) srv.2 ip

-- ---------------------------------------------------------------------------
-- In the terms of the format
-- ---------------------------------------------------------------------------

section Push

variable {p a c label : Bytes}

theorem putBe16_eq (v : UInt16) : putBe16 v = Dns.putU16 v.toNat := by
  have hHigh : (v >>> 8).toUInt8 = UInt8.ofNat (v.toNat / 256) := by
    rw [← UInt8.toNat_inj, UInt16.toNat_toUInt8, UInt16.toNat_shiftRight, UInt8.toNat_ofNat']
    exact congrArg (· % 256) (Nat.shiftRight_eq_div_pow _ 8)
  have hLow : v.toUInt8 = UInt8.ofNat v.toNat := by
    rw [← UInt8.toNat_inj, UInt16.toNat_toUInt8, UInt8.toNat_ofNat']
  rw [putBe16, Dns.putU16, hHigh, hLow]

theorem toUInt8_shiftRight (v : UInt32) (k : UInt32) (hk : k.toNat < 32) :
    (v >>> k).toUInt8 = UInt8.ofNat (v.toNat / 2 ^ k.toNat) := by
  rw [← UInt8.toNat_inj, UInt32.toNat_toUInt8, UInt32.toNat_shiftRight, UInt8.toNat_ofNat',
    Nat.mod_eq_of_lt hk, Nat.shiftRight_eq_div_pow]

theorem putBe32_eq (v : UInt32) : putBe32 v = Dns.putU32 v.toNat := by
  have hLow : v.toUInt8 = UInt8.ofNat v.toNat := by
    rw [← UInt8.toNat_inj, UInt32.toNat_toUInt8, UInt8.toNat_ofNat']
  have hMid : UInt8.ofNat (v.toNat / 65536) = UInt8.ofNat (v.toNat / 2 ^ 16) := rfl
  have hTop : v.toNat / 65536 / 256 = v.toNat / 2 ^ 24 := by omega
  rw [putBe32, Dns.putU32, Dns.putU16, Dns.putU16, toUInt8_shiftRight v 24 (by decide),
    toUInt8_shiftRight v 16 (by decide), toUInt8_shiftRight v 8 (by decide), hLow, hTop]
  rfl

theorem dnsPushLabel_eq (h : label.length ≤ 63) (p : Bytes) :
    dnsPushLabel p label = p ++ Dns.putLabel label := by
  rw [dnsPushLabel, if_neg (Nat.not_lt_of_le h), List.take_length, Dns.putLabel]

theorem dnsPushPtr_eq {offset : Nat} (h : offset < 0x4000) (p : Bytes) :
    dnsPushPtr p (UInt16.ofNat offset) = p ++ Dns.putPointer offset := by
  have hOffset : (UInt16.ofNat offset).toNat = offset := by
    rw [UInt16.toNat_ofNat']
    omega
  have hAnd : offset &&& 0x3FFF = offset := by
    rw [show 0x3FFF = 2 ^ 14 - 1 by rfl, Nat.and_two_pow_sub_one_eq_mod]
    exact Nat.mod_eq_of_lt h
  have hOr : 0xC000 ||| offset = 0xC000 + offset :=
    (Nat.two_pow_add_eq_or_of_lt (i := 14) h 3).symm
  rw [dnsPushPtr, putBe16_eq, UInt16.toNat_or, UInt16.toNat_and, hOffset]
  change p ++ Dns.putU16 (0xC000 ||| (offset &&& 0x3FFF)) = _
  rw [hAnd, hOr, Dns.putPointer]

theorem patchU16_eq (a c : Bytes) (w v : UInt16) :
    patchU16 (a ++ (putBe16 w ++ c)) a.length v = a ++ (putBe16 v ++ c) := by
  rw [patchU16, putBe16, putBe16, List.set_append_right _ _ (Nat.le_refl _),
    List.set_append_right _ _ (Nat.le_add_right _ 1), Nat.sub_self, Nat.add_sub_cancel_left]
  rfl

theorem dnsPushHead_eq (p : Bytes) (type : UInt16) (rdata : Bytes) :
    dnsPushHead p type ++ (Dns.putU16 rdata.length ++ rdata) =
      p ++ Dns.putRecord type.toNat 0x8001 120 rdata := by
  rw [dnsPushHead, dnsPushU16, dnsPushU16, dnsPushU32, putBe16_eq, putBe16_eq, putBe32_eq,
    Dns.putRecord]
  simp only [List.append_assoc]
  rfl

end Push

-- ---------------------------------------------------------------------------
-- The strings that are written
-- ---------------------------------------------------------------------------

/-- The first `n` strings. -/
def txtStrings (items : List TxtItem) (n : Nat) : List Bytes :=
  (items.take n).map TxtItem.entry

def txtBytes (items : List TxtItem) (n : Nat) : Bytes := (txtStrings items n).flatMap Dns.putString

/-- So many strings, from there on, end in front of the limit. -/
def TxtFits (limit start : Nat) (items : List TxtItem) (n : Nat) : Prop :=
  start + (txtBytes items n).length ≤ limit

instance (limit start : Nat) (items : List TxtItem) (n : Nat) :
    Decidable (TxtFits limit start items n) := inferInstanceAs (Decidable (_ ≤ _))

/-- No longer prefix fits. -/
structure Longest (limit start : Nat) (items : List TxtItem) (n : Nat) : Prop where
  prefix_le : n ≤ items.length
  fits : TxtFits limit start items n
  last : ∀ m ≤ items.length, TxtFits limit start items m → m ≤ n

section Txt

variable {items : List TxtItem} {item : TxtItem} {p : Bytes}

theorem txtBytes_cons (item : TxtItem) (items : List TxtItem) (n : Nat) :
    txtBytes (item :: items) (n + 1) = Dns.putString item.entry ++ txtBytes items n := rfl

theorem length_putString (s : Bytes) : (Dns.putString s).length = 1 + s.length :=
  Nat.add_comm ..

theorem length_entry (item : TxtItem) :
    item.entry.length = item.key.length + 1 + (item.value.getD []).length := by
  rw [TxtItem.entry, List.length_append, List.length_cons]
  omega

theorem pushTxt_longest (pSize : UInt32) (hItems : ∀ item ∈ items, item.entry.length ≤ 255)
    (hStart : p.length ≤ (pSize - 64).toNat) :
    ∃ n, Longest (pSize - 64).toNat p.length items n ∧
      pushTxt pSize items p = p ++ txtBytes items n := by
  induction items generalizing p with
  | nil => exact ⟨0, ⟨Nat.le_refl 0, hStart, fun m hLe _ => hLe⟩, (List.append_nil p).symm⟩
  | cons item items ih =>
    obtain ⟨hItem, hRest⟩ := List.forall_mem_cons.1 hItems
    have hLen : (UInt8.ofNat (item.key.length + 1 + (item.value.getD []).length)).toNat =
        item.entry.length := by
      rw [← length_entry, UInt8.toNat_ofNat']
      omega
    have hFirst (n : Nat) : (txtBytes (item :: items) (n + 1)).length =
        1 + item.entry.length + (txtBytes items n).length := by
      rw [txtBytes_cons, List.length_append, length_putString]
    rw [pushTxt]
    simp only [hLen]
    by_cases hFull : p.length + 1 + item.entry.length > (pSize - 64).toNat
    · rw [if_pos hFull]
      refine ⟨0, ⟨Nat.zero_le _, hStart, fun m _ hFits => ?_⟩, (List.append_nil p).symm⟩
      cases m with
      | zero => exact Nat.le_refl 0
      | succ m =>
        rw [TxtFits, hFirst] at hFits
        omega
    · have hNext : (p ++ Dns.putString item.entry).length = p.length + (1 + item.entry.length) := by
        rw [List.length_append, length_putString]
      obtain ⟨n, ⟨hLe, hFits, hLast⟩, hPush⟩ := ih hRest (p := p ++ Dns.putString item.entry)
        (by omega)
      have hString : UInt8.ofNat (item.key.length + 1 + (item.value.getD []).length) ::
          item.entry = Dns.putString item.entry := by rw [Dns.putString, length_entry]
      rw [if_neg hFull, hString, hPush]
      refine ⟨n + 1, ⟨Nat.succ_le_succ hLe, ?_, fun m hm hMore => ?_⟩, ?_⟩
      · rw [TxtFits, hNext] at hFits
        rw [TxtFits, hFirst]
        omega
      · cases m with
        | zero => exact Nat.zero_le _
        | succ m =>
          refine Nat.succ_le_succ (hLast m (Nat.le_of_succ_le_succ hm) ?_)
          rw [TxtFits, hFirst] at hMore
          rw [TxtFits, hNext]
          omega
      · rw [txtBytes_cons, List.append_assoc]

end Txt

-- ---------------------------------------------------------------------------
-- The records
-- ---------------------------------------------------------------------------

/-- A service name, with an instance and a host. -/
structure ServiceNames (service : Dns.Name) (inst host : Bytes) : Prop where
  service_labels : ∀ label ∈ service, Dns.IsLabel label
  service_length : (Dns.putName service).length ≤ 255
  inst_label : Dns.IsLabel inst
  host_label : Dns.IsLabel host

def localLabel : Bytes := ascii "local"

/-- The name of the instance stands in the data of the PTR record. -/
def instOffset (service : Dns.Name) : Nat := (Dns.putName service).length + 22

/-- The name of the host stands in the data of the SRV record. -/
def hostOffset (service : Dns.Name) (inst : Bytes) : Nat :=
  instOffset service + inst.length + 21

/-- Where the strings begin. -/
def txtStart (service : Dns.Name) (inst host : Bytes) : Nat :=
  hostOffset service inst + host.length + 20

def ptrRecord (service : Dns.Name) (inst : Bytes) : Bytes :=
  Dns.putName service ++
    Dns.putRecord 12 0x8001 120 (Dns.putLabel inst ++ Dns.putPointer 12)

def srvRecord (service : Dns.Name) (port : UInt16) (host : Bytes) : Bytes :=
  Dns.putPointer (instOffset service) ++
    Dns.putRecord 33 0x8001 120 (Dns.putU16 0 ++ (Dns.putU16 0 ++ (Dns.putU16 port.toNat ++
      Dns.putName [host, localLabel])))

def txtRecord (service : Dns.Name) (strings : Bytes) : Bytes :=
  Dns.putPointer (instOffset service) ++ Dns.putRecord 16 0x8001 120 strings

/-- In the order of the address. -/
def ipOctets (ip : UInt32) : Bytes :=
  (List.range 4).map fun i => UInt8.ofNat (ip.toNat / 256 ^ i)

def aRecord (service : Dns.Name) (inst : Bytes) (ip : UInt32) : Bytes :=
  Dns.putPointer (hostOffset service inst) ++ Dns.putRecord 1 0x8001 120 (ipOctets ip)

section Records

variable {service : Dns.Name} {inst host p : Bytes} {port : UInt16} {pSize : UInt32}
  {items : List TxtItem}

@[simp] theorem length_putRecord (type cls ttl : Nat) (rdata : Bytes) :
    (Dns.putRecord type cls ttl rdata).length = rdata.length + 10 := by
  simp only [Dns.putRecord, List.length_append, Dns.length_putU16, Dns.length_putU32]
  omega

theorem length_head (p : Bytes) (type : UInt16) : (dnsPushHead p type).length = p.length + 8 := by
  simp only [dnsPushHead, dnsPushU16, dnsPushU32, List.length_append, length_putBe16,
    length_putBe32]

theorem putU16_ofNat (n : Nat) : putBe16 (UInt16.ofNat n) = Dns.putU16 n := by
  have hHigh : UInt8.ofNat (n % 65536 / 256) = UInt8.ofNat (n / 256) := by
    rw [← UInt8.toNat_inj, UInt8.toNat_ofNat', UInt8.toNat_ofNat']
    omega
  have hLow : UInt8.ofNat (n % 65536) = UInt8.ofNat n := by
    rw [← UInt8.toNat_inj, UInt8.toNat_ofNat', UInt8.toNat_ofNat']
    omega
  rw [putBe16_eq, UInt16.toNat_ofNat', Dns.putU16, Dns.putU16]
  exact congrArg₂ (fun a b => [a, b]) hHigh hLow

theorem dnsPushU16_eq (p : Bytes) (n : Nat) :
    dnsPushU16 p (UInt16.ofNat n) = p ++ Dns.putU16 n := by
  rw [dnsPushU16, putU16_ofNat]

theorem pushPtrRecord_eq (service : Dns.Name) (hInst : inst.length ≤ 63) :
    pushPtrRecord pushHeader (Dns.putName service) inst =
      (pushHeader ++ ptrRecord service inst, UInt16.ofNat (instOffset service)) := by
  have hRdata : (Dns.putLabel inst ++ Dns.putPointer 12).length = inst.length + 3 := by
    rw [List.length_append]
    rfl
  have hHead := dnsPushHead_eq (pushHeader ++ Dns.putName service) 12
    (Dns.putLabel inst ++ Dns.putPointer 12)
  have hSvc : pushHeader.length = 12 := rfl
  have hOff : (dnsPushHead (pushHeader ++ Dns.putName service) 12).length =
      (Dns.putName service).length + 20 := by
    rw [length_head, List.length_append, hSvc]
    omega
  rw [hRdata] at hHead
  rw [pushPtrRecord]
  simp only [dnsPushLabel_eq hInst, dnsPushU16_eq, hSvc,
    dnsPushPtr_eq (show 12 < 0x4000 by decide)]
  refine Prod.ext ?_ ?_
  · rw [List.append_assoc, List.append_assoc, hHead, List.append_assoc, ptrRecord]
    rfl
  · rw [List.length_append, hOff, Dns.length_putU16, instOffset]

theorem length_srvData (port : UInt16) (host : Bytes) :
    (Dns.putU16 0 ++ (Dns.putU16 0 ++ (Dns.putU16 port.toNat ++
      Dns.putName [host, localLabel]))).length = host.length + 14 := by
  have hName : (Dns.putName [host, localLabel]).length = host.length + 8 := by
    simp only [Dns.putName, Dns.putLabels, Dns.putLabel, List.flatMap_cons, List.flatMap_nil,
      List.length_append, List.length_cons, List.length_nil]
    rw [show localLabel.length = 5 by rfl]
  rw [List.length_append, List.length_append, List.length_append, hName, Dns.length_putU16,
    Dns.length_putU16]
  omega

theorem pushSrvRecord_eq (hOff : instOffset service < 0x4000) (hHost : host.length ≤ 63)
    (p : Bytes) (port : UInt16) :
    pushSrvRecord p (UInt16.ofNat (instOffset service)) port host =
      (p ++ srvRecord service port host, UInt16.ofNat (p.length + 18)) := by
  rw [pushSrvRecord]
  simp only [dnsPushPtr_eq hOff, dnsPushLabel_eq hHost]
  have hHead := dnsPushHead_eq (p ++ Dns.putPointer (instOffset service)) 33
    (Dns.putU16 0 ++ (Dns.putU16 0 ++ (Dns.putU16 port.toNat ++
      Dns.putName [host, localLabel])))
  have hLen : (dnsPushHead (p ++ Dns.putPointer (instOffset service)) 33).length =
      p.length + 10 := by
    rw [length_head, List.length_append]
    rfl
  have hLocal : Dns.putLabel host ++ (0x05 :: ascii "local" ++ [0x00]) =
      Dns.putName [host, localLabel] := by
    rw [Dns.putName, Dns.putLabels, List.flatMap_cons, List.flatMap_cons, List.flatMap_nil,
      List.append_nil, List.append_assoc]
    rfl
  set head := dnsPushHead (p ++ Dns.putPointer (instOffset service)) 33
  have hPort : dnsPushU16 (dnsPushU16 (dnsPushU16 (dnsPushU16 head 0) 0) 0) port =
      head ++ (putBe16 0 ++ (Dns.putU16 0 ++ (Dns.putU16 0 ++ Dns.putU16 port.toNat))) := by
    simp only [dnsPushU16, List.append_assoc, putBe16_eq]
    rfl
  have hBuffer : dnsPushU16 (dnsPushU16 (dnsPushU16 (dnsPushU16 head 0) 0) 0) port ++
      Dns.putLabel host ++ (0x05 :: ascii "local") ++ [0x00] =
        head ++ (putBe16 0 ++ (Dns.putU16 0 ++ (Dns.putU16 0 ++ (Dns.putU16 port.toNat ++
          Dns.putName [host, localLabel])))) := by
    rw [hPort, List.append_assoc, List.append_assoc _ (Dns.putLabel host), hLocal]
    simp only [List.append_assoc]
  refine Prod.ext ?_ ?_
  · have hPatch : (head ++ (putBe16 0 ++ (Dns.putU16 0 ++ (Dns.putU16 0 ++
        (Dns.putU16 port.toNat ++ Dns.putName [host, localLabel]))))).length -
          (dnsPushU16 head 0).length = (Dns.putU16 0 ++ (Dns.putU16 0 ++
            (Dns.putU16 port.toNat ++ Dns.putName [host, localLabel]))).length := by
      rw [dnsPushU16, ← List.append_assoc head, List.length_append, Nat.add_sub_cancel_left]
    simp only [hBuffer, hPatch]
    rw [patchU16_eq, putU16_ofNat, hHead, List.append_assoc, srvRecord]
    rfl
  · simp only [hPort, List.length_append, hLen, length_putBe16, Dns.length_putU16]

theorem pushTxtRecord_eq (pSize : UInt32) (hOff : instOffset service < 0x4000)
    (hItems : ∀ item ∈ items, item.entry.length ≤ 255)
    (hStart : p.length + 12 ≤ (pSize - 64).toNat) :
    ∃ n, Longest (pSize - 64).toNat (p.length + 12) items n ∧
      pushTxtRecord pSize p (UInt16.ofNat (instOffset service)) items =
        p ++ txtRecord service (txtBytes items n) := by
  have hLen : (dnsPushU16 (dnsPushHead (p ++ Dns.putPointer (instOffset service)) 16) 0).length =
      p.length + 12 := by
    rw [dnsPushU16, List.length_append, length_head, List.length_append]
    rfl
  obtain ⟨n, hLongest, hPush⟩ := pushTxt_longest pSize hItems
    (p := dnsPushU16 (dnsPushHead (p ++ Dns.putPointer (instOffset service)) 16) 0)
    (by rw [hLen]; exact hStart)
  rw [hLen] at hLongest
  refine ⟨n, hLongest, ?_⟩
  have hHead := dnsPushHead_eq (p ++ Dns.putPointer (instOffset service)) 16 (txtBytes items n)
  rw [pushTxtRecord]
  simp only [dnsPushPtr_eq hOff, hPush]
  rw [List.length_append, Nat.add_sub_cancel_left, dnsPushU16, List.append_assoc, patchU16_eq,
    putU16_ofNat, hHead, List.append_assoc, txtRecord]
  rfl

theorem octet_eq (ip k : UInt32) (hk : k.toNat < 32) :
    ((ip >>> k) &&& 0xFF).toUInt8 = UInt8.ofNat (ip.toNat / 2 ^ k.toNat) := by
  have hMask (n : Nat) : n &&& 255 = n % 256 := Nat.and_two_pow_sub_one_eq_mod n 8
  rw [← UInt8.toNat_inj, UInt32.toNat_toUInt8, UInt32.toNat_and, UInt32.toNat_shiftRight,
    UInt8.toNat_ofNat', Nat.mod_eq_of_lt hk, Nat.shiftRight_eq_div_pow]
  change (_ &&& 255) % 256 = _
  rw [hMask, Nat.mod_mod]

theorem pushARecord_eq (hOff : hostOffset service inst < 0x4000) (p : Bytes) (ip : UInt32) :
    pushARecord p (UInt16.ofNat (hostOffset service inst)) ip = p ++ aRecord service inst ip := by
  have hOctets : [(ip &&& 0xFF).toUInt8, ((ip >>> 8) &&& 0xFF).toUInt8,
      ((ip >>> 16) &&& 0xFF).toUInt8, ((ip >>> 24) &&& 0xFF).toUInt8] = ipOctets ip := by
    have hFirst : ip = ip >>> 0 := (UInt32.shiftRight_zero).symm
    have hLow := octet_eq ip 0 (by decide)
    rw [← hFirst] at hLow
    rw [hLow, octet_eq ip 8 (by decide), octet_eq ip 16 (by decide), octet_eq ip 24 (by decide)]
    rfl
  have hHead := dnsPushHead_eq (p ++ Dns.putPointer (hostOffset service inst)) 1 (ipOctets ip)
  rw [pushARecord]
  simp only [dnsPushPtr_eq hOff, hOctets]
  rw [dnsPushU16, List.append_assoc, putBe16_eq]
  refine hHead.trans ?_
  rw [List.append_assoc, aRecord]
  rfl

theorem length_ptrRecord (service : Dns.Name) (inst : Bytes) :
    (ptrRecord service inst).length = (Dns.putName service).length + inst.length + 13 := by
  rw [ptrRecord, List.length_append, length_putRecord, List.length_append]
  change (Dns.putName service).length + ((inst.length + 1) + 2 + 10) = _
  omega

theorem length_srvRecord (service : Dns.Name) (port : UInt16) (host : Bytes) :
    (srvRecord service port host).length = host.length + 26 := by
  rw [srvRecord, List.length_append, length_putRecord, length_srvData]
  change 2 + (host.length + 14 + 10) = _
  omega

theorem length_txtRecord (service : Dns.Name) (strings : Bytes) :
    (txtRecord service strings).length = strings.length + 12 := by
  rw [txtRecord, List.length_append, length_putRecord]
  change 2 + (strings.length + 10) = _
  omega

/-- **The packet**, with the strings that fit. -/
theorem buildMdnsAnnounce_eq (h : ServiceNames service inst host)
    (hItems : ∀ item ∈ items, item.entry.length ≤ 255) (hSize : 512 ≤ pSize.toNat)
    (port : UInt16) (ip : UInt32) :
    ∃ n, Longest (pSize.toNat - 64) (txtStart service inst host) items n ∧
      buildMdnsAnnounce pSize (Dns.putName service) inst port host items ip =
        pushHeader ++ (ptrRecord service inst ++ (srvRecord service port host ++
          (txtRecord service (txtBytes items n) ++ aRecord service inst ip))) := by
  have hService := h.service_length
  obtain ⟨-, hInst⟩ := h.inst_label
  obtain ⟨-, hHost⟩ := h.host_label
  have hLimit : (pSize - 64).toNat = pSize.toNat - 64 :=
    UInt32.toNat_sub_of_le pSize 64 (UInt32.le_iff_toNat_le.2 (Nat.le_trans (by decide) hSize))
  have hInstOff : instOffset service < 0x4000 := by
    rw [instOffset]
    omega
  have hHostOff : hostOffset service inst < 0x4000 := by
    rw [hostOffset, instOffset]
    omega
  have hFront : (pushHeader ++ ptrRecord service inst).length + 18 = hostOffset service inst := by
    rw [List.length_append, length_ptrRecord, hostOffset, instOffset]
    change 12 + _ + 18 = _
    omega
  have hStart : (pushHeader ++ ptrRecord service inst ++ srvRecord service port host).length + 12 =
      txtStart service inst host := by
    rw [List.length_append, length_srvRecord, txtStart, ← hFront]
    omega
  obtain ⟨n, hLongest, hTxt⟩ := pushTxtRecord_eq pSize hInstOff hItems
    (p := pushHeader ++ ptrRecord service inst ++ srvRecord service port host) (by
      rw [hStart, hLimit, txtStart, hostOffset, instOffset]
      omega)
  rw [hLimit, hStart] at hLongest
  refine ⟨n, hLongest, ?_⟩
  rw [buildMdnsAnnounce, pushPtrRecord_eq service hInst]
  simp only [pushSrvRecord_eq hInstOff hHost, hFront]
  rw [hTxt, pushARecord_eq hHostOff]
  simp only [List.append_assoc]

end Records

end EspMiplay.Miplay
