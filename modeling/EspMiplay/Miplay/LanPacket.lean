import EspMiplay.Miplay.AnnounceDecoded
import EspMiplay.Miplay.JsonForm

/-!
# The packet for port 5355

`build_lan_packet` writes the announcement that goes to everyone, and the reply to a query. Both
have the records of the mDNS announcement, but the PTR record is of the shared class, the TTL is
another one, and the only string of the TXT record is a text of JSON.

## Results

* `decode_lanPacket`   — what a strict decoder reads, whatever the id.
* `buildLanPacket_law` — what `build_lan_packet` writes is read so, and it fits its buffer.
-/

namespace EspMiplay.Miplay

-- ---------------------------------------------------------------------------
-- The functions
-- ---------------------------------------------------------------------------

/-- `s_mac`, `s_inst_name`, `s_idhash`, and the address of `get_my_ipv4` -/
structure LanIdentity where
  mac : Fin 6 → UInt8
  inst : Bytes
  inst_label : Dns.IsLabel inst
  inst_le : inst.length ≤ 47
  idhash : Bytes
  idhash_length : idhash.length = 4
  ip : UInt32

/-- `s_service_qname` -/
def serviceQname : Bytes :=
  (0x0B :: ascii "_miplay_lan") ++ (0x04 :: ascii "_tcp") ++ (0x05 :: ascii "local") ++ [0x00]

def miplayControlPort : UInt16 := 8899

def hexUpper (n : UInt8) : UInt8 := if n < 10 then 0x30 + n else 0x41 + (n - 10)

/-- `%02X` -/
def hexByte (b : UInt8) : Bytes := [hexUpper (b >>> 4), hexUpper (b &&& 0x0F)]

/-- `s_lan_hostname` -/
def LanIdentity.hostname (d : LanIdentity) : Bytes :=
  ascii "miplay-" ++ (hexByte (d.mac 3) ++ (hexByte (d.mac 4) ++ hexByte (d.mac 5)))

/-- `idhash_lan`. The fourth of the characters gives way to the NUL. -/
def LanIdentity.idhashLan (d : LanIdentity) : Bytes :=
  (d.idhash.take 3).map fun c => if c = 0x2B then 0x2D else if c = 0x2F then 0x5F else c

/-- `stable_id` -/
def LanIdentity.stableId (d : LanIdentity) : UInt32 :=
  (((d.mac 2).toUInt32 <<< 24) ||| ((d.mac 3).toUInt32 <<< 16) ||| ((d.mac 4).toUInt32 <<< 8) |||
    (d.mac 5).toUInt32) &&& 0x7FFFFFFF

def LanIdentity.macText (d : LanIdentity) : Bytes :=
  hexByte (d.mac 0) ++ 0x3A :: (hexByte (d.mac 1) ++ 0x3A :: (hexByte (d.mac 2) ++
    0x3A :: (hexByte (d.mac 3) ++ 0x3A :: (hexByte (d.mac 4) ++ 0x3A :: hexByte (d.mac 5)))))

/-- What `snprintf` prints into `appdata_json` -/
def LanIdentity.appdataText (d : LanIdentity) : Bytes :=
  ascii "\x7b\"supportLyra\":true," ++ (ascii "\"mac\":\"" ++ (d.macText ++ (ascii "\",\"ID\":" ++
    (decimal d.stableId.toNat ++ (ascii ",\"type\":3,\"idhash\":\"" ++ (d.idhashLan ++
      ascii "\",\"extraAbility\":0\x7d"))))))

/-- `txt_rec`, of 300 bytes, and `tl`, which counts what did not fit as well -/
def LanIdentity.txtRec (d : LanIdentity) : Bytes × Nat :=
  let text := ascii "appdata=" ++ d.appdataText.take 255
  (text.take 299, if text.length > 255 then 255 else text.length)

def pushLanHead (p : Bytes) (type recordClass : UInt16) (ttl : UInt32) : Bytes :=
  dnsPushU32 (dnsPushU16 (dnsPushU16 p type) recordClass) ttl

/-- The PTR answer, and `instance_off` -/
def pushLanPtr (p : Bytes) (ttl : UInt32) (inst : Bytes) : Bytes × UInt16 :=
  let serviceOff := UInt16.ofNat p.length
  let p := pushLanHead (p ++ serviceQname) 12 1 ttl
  let p := dnsPushU16 p (UInt16.ofNat (inst.length + 3))
  (dnsPushPtr (dnsPushLabel p inst) serviceOff, UInt16.ofNat p.length)

/-- The SRV record, and `host_off` -/
def pushLanSrv (p : Bytes) (ttl : UInt32) (instanceOff : UInt16) (hostname : Bytes) :
    Bytes × UInt16 :=
  let p := pushLanHead (dnsPushPtr p instanceOff) 33 0x8001 ttl
  let srvLenPos := p.length
  let p := dnsPushU16 p 0
  let srvRdata := p.length
  let p := dnsPushU16 (dnsPushU16 (dnsPushU16 p 0) 0) miplayControlPort
  let hostOff := UInt16.ofNat p.length
  let p := dnsPushLabel p hostname ++ (0x05 :: ascii "local") ++ [0x00]
  (patchU16 p srvLenPos (UInt16.ofNat (p.length - srvRdata)), hostOff)

def pushLanTxt (p : Bytes) (ttl : UInt32) (instanceOff : UInt16) (txt : Bytes × Nat) : Bytes :=
  let p := pushLanHead (dnsPushPtr p instanceOff) 16 0x8001 ttl
  dnsPushU16 p (UInt16.ofNat (txt.2 + 1)) ++ UInt8.ofNat txt.2 :: txt.1.take txt.2

def pushLanA (p : Bytes) (ttl : UInt32) (hostOff : UInt16) (ip : UInt32) : Bytes :=
  let p := dnsPushU16 (pushLanHead (dnsPushPtr p hostOff) 1 0x8001 ttl) 4
  p ++ [(ip &&& 0xFF).toUInt8, ((ip >>> 8) &&& 0xFF).toUInt8, ((ip >>> 16) &&& 0xFF).toUInt8,
    ((ip >>> 24) &&& 0xFF).toUInt8]

/-- `build_lan_packet`. The six numbers of the header are those of the mDNS announcement. -/
def buildLanPacket (d : LanIdentity) (isUnicast : Bool) : Bytes :=
  let ttl := if isUnicast then 10 else 60
  let ptr := pushLanPtr pushHeader ttl d.inst
  let srv := pushLanSrv ptr.1 ttl ptr.2 d.hostname
  pushLanA (pushLanTxt srv.1 ttl ptr.2 d.txtRec) ttl srv.2 d.ip

-- ---------------------------------------------------------------------------
-- In the terms of the format
-- ---------------------------------------------------------------------------

def lanService : Dns.Name := [ascii "_miplay_lan", ascii "_tcp", ascii "local"]

def lanPtrRecord (d : LanIdentity) (ttl : Nat) : Bytes :=
  Dns.putName lanService ++ Dns.putRecord 12 1 ttl (Dns.putLabel d.inst ++ Dns.putPointer 12)

def lanSrvRecord (d : LanIdentity) (ttl : Nat) : Bytes :=
  Dns.putPointer (instOffset lanService) ++ Dns.putRecord 33 0x8001 ttl (Dns.putU16 0 ++
    (Dns.putU16 0 ++ (Dns.putU16 8899 ++ Dns.putName [d.hostname, localLabel])))

def lanTxtRecord (ttl : Nat) (txt : Bytes) : Bytes :=
  Dns.putPointer (instOffset lanService) ++ Dns.putRecord 16 0x8001 ttl (Dns.putString txt)

def lanARecord (d : LanIdentity) (ttl : Nat) : Bytes :=
  Dns.putPointer (hostOffset lanService d.inst) ++ Dns.putRecord 1 0x8001 ttl (ipOctets d.ip)

/-- The packet with this TTL, behind the header -/
def lanBody (d : LanIdentity) (ttl : Nat) : Bytes :=
  lanPtrRecord d ttl ++ (lanSrvRecord d ttl ++
    (lanTxtRecord ttl (ascii "appdata=" ++ d.appdataText) ++ lanARecord d ttl))

def lanHeader (id : Nat) : Bytes := Dns.putU16 id ++ pushHeader.drop 2

/-- What the packet says -/
def LanIdentity.message (d : LanIdentity) (id ttl : Nat) : Dns.Message where
  id := id
  flags := 0x8400
  questions := []
  answers := [⟨lanService, 12, 1, ttl, .ptr (d.inst :: lanService)⟩]
  authorities := []
  additionals := [
    ⟨d.inst :: lanService, 33, 0x8001, ttl, .srv 0 0 8899 [d.hostname, localLabel]⟩,
    ⟨d.inst :: lanService, 16, 0x8001, ttl, .txt [ascii "appdata=" ++ d.appdataText]⟩,
    ⟨[d.hostname, localLabel], 1, 0x8001, ttl, .a (ipOctets d.ip)⟩]

section Push

variable {inst host : Bytes}

theorem pushLanHead_eq (p : Bytes) (type cls : UInt16) (ttl : UInt32) (rdata : Bytes) :
    pushLanHead p type cls ttl ++ (Dns.putU16 rdata.length ++ rdata) =
      p ++ Dns.putRecord type.toNat cls.toNat ttl.toNat rdata := by
  rw [pushLanHead, dnsPushU16, dnsPushU16, dnsPushU32, putBe16_eq, putBe16_eq, putBe32_eq,
    Dns.putRecord]
  simp only [List.append_assoc]

theorem length_pushLanHead (p : Bytes) (type cls : UInt16) (ttl : UInt32) :
    (pushLanHead p type cls ttl).length = p.length + 8 := by
  simp only [pushLanHead, dnsPushU16, dnsPushU32, List.length_append, length_putBe16,
    length_putBe32]

theorem serviceQname_eq : serviceQname = Dns.putName lanService := by decide

theorem pushLanPtr_eq (hInst : inst.length ≤ 63) (ttl : UInt32) :
    pushLanPtr pushHeader ttl inst = (pushHeader ++ (Dns.putName lanService ++
      Dns.putRecord 12 1 ttl.toNat (Dns.putLabel inst ++ Dns.putPointer 12)),
        UInt16.ofNat (instOffset lanService)) := by
  have hRdata : (Dns.putLabel inst ++ Dns.putPointer 12).length = inst.length + 3 := by
    rw [List.length_append]
    rfl
  have hHead := pushLanHead_eq (pushHeader ++ Dns.putName lanService) 12 1 ttl
    (Dns.putLabel inst ++ Dns.putPointer 12)
  have hSvc : pushHeader.length = 12 := rfl
  rw [hRdata] at hHead
  rw [pushLanPtr, serviceQname_eq]
  simp only [dnsPushLabel_eq hInst, dnsPushU16_eq, hSvc,
    dnsPushPtr_eq (show 12 < 0x4000 by decide)]
  refine Prod.ext ?_ ?_
  · rw [List.append_assoc, List.append_assoc, hHead, List.append_assoc]
    rfl
  · refine congrArg UInt16.ofNat ?_
    rw [List.length_append, length_pushLanHead, List.length_append, Dns.length_putU16, hSvc,
      instOffset]
    omega

theorem pushLanSrv_eq (hHost : host.length ≤ 63) (p : Bytes) (ttl : UInt32) :
    pushLanSrv p ttl (UInt16.ofNat (instOffset lanService)) host =
      (p ++ (Dns.putPointer (instOffset lanService) ++ Dns.putRecord 33 0x8001 ttl.toNat
        (Dns.putU16 0 ++ (Dns.putU16 0 ++ (Dns.putU16 8899 ++ Dns.putName [host, localLabel])))),
          UInt16.ofNat (p.length + 18)) := by
  have hOff : instOffset lanService < 0x4000 := by decide
  have hHead := pushLanHead_eq (p ++ Dns.putPointer (instOffset lanService)) 33 0x8001 ttl
    (Dns.putU16 0 ++ (Dns.putU16 0 ++ (Dns.putU16 8899 ++ Dns.putName [host, localLabel])))
  have hLen : (pushLanHead (p ++ Dns.putPointer (instOffset lanService)) 33 0x8001 ttl).length =
      p.length + 10 := by
    rw [length_pushLanHead, List.length_append]
    rfl
  have hLocal : Dns.putLabel host ++ (0x05 :: ascii "local" ++ [0x00]) =
      Dns.putName [host, localLabel] := by
    rw [Dns.putName, Dns.putLabels, List.flatMap_cons, List.flatMap_cons, List.flatMap_nil,
      List.append_nil, List.append_assoc]
    rfl
  rw [pushLanSrv]
  simp only [dnsPushPtr_eq hOff, dnsPushLabel_eq hHost]
  set head := pushLanHead (p ++ Dns.putPointer (instOffset lanService)) 33 0x8001 ttl
  have hPort : dnsPushU16 (dnsPushU16 (dnsPushU16 (dnsPushU16 head 0) 0) 0) miplayControlPort =
      head ++ (putBe16 0 ++ (Dns.putU16 0 ++ (Dns.putU16 0 ++ Dns.putU16 8899))) := by
    simp only [dnsPushU16, List.append_assoc, putBe16_eq]
    rfl
  have hBuffer : dnsPushU16 (dnsPushU16 (dnsPushU16 (dnsPushU16 head 0) 0) 0) miplayControlPort ++
      Dns.putLabel host ++ (0x05 :: ascii "local") ++ [0x00] =
        head ++ (putBe16 0 ++ (Dns.putU16 0 ++ (Dns.putU16 0 ++ (Dns.putU16 8899 ++
          Dns.putName [host, localLabel])))) := by
    rw [hPort, List.append_assoc, List.append_assoc _ (Dns.putLabel host), hLocal]
    simp only [List.append_assoc]
  refine Prod.ext ?_ ?_
  · have hPatch : (head ++ (putBe16 0 ++ (Dns.putU16 0 ++ (Dns.putU16 0 ++
        (Dns.putU16 8899 ++ Dns.putName [host, localLabel]))))).length -
          (dnsPushU16 head 0).length = (Dns.putU16 0 ++ (Dns.putU16 0 ++
            (Dns.putU16 8899 ++ Dns.putName [host, localLabel]))).length := by
      rw [dnsPushU16, ← List.append_assoc head, List.length_append, Nat.add_sub_cancel_left]
    simp only [hBuffer, hPatch]
    rw [patchU16_eq, putU16_ofNat, hHead, List.append_assoc]
    rfl
  · simp only [hPort, List.length_append, hLen, length_putBe16, Dns.length_putU16]

theorem pushLanTxt_eq (p : Bytes) (ttl : UInt32) (txt : Bytes) :
    pushLanTxt p ttl (UInt16.ofNat (instOffset lanService)) (txt, txt.length) =
      p ++ (Dns.putPointer (instOffset lanService) ++
        Dns.putRecord 16 0x8001 ttl.toNat (Dns.putString txt)) := by
  have hHead := pushLanHead_eq (p ++ Dns.putPointer (instOffset lanService)) 16 0x8001 ttl
    (Dns.putString txt)
  have hOff : instOffset lanService < 0x4000 := by decide
  rw [pushLanTxt]
  simp only [dnsPushPtr_eq hOff, dnsPushU16_eq, List.take_length]
  rw [List.append_assoc, ← List.append_assoc p]
  exact hHead

theorem octets_eq (ip : UInt32) : [(ip &&& 0xFF).toUInt8, ((ip >>> 8) &&& 0xFF).toUInt8,
    ((ip >>> 16) &&& 0xFF).toUInt8, ((ip >>> 24) &&& 0xFF).toUInt8] = ipOctets ip := by
  have hLow := octet_eq ip 0 (by decide)
  rw [UInt32.shiftRight_zero] at hLow
  rw [hLow, octet_eq ip 8 (by decide), octet_eq ip 16 (by decide), octet_eq ip 24 (by decide)]
  rfl

theorem pushLanA_eq {off : Nat} (hOff : off < 0x4000) (p : Bytes) (ttl ip : UInt32) :
    pushLanA p ttl (UInt16.ofNat off) ip =
      p ++ (Dns.putPointer off ++ Dns.putRecord 1 0x8001 ttl.toNat (ipOctets ip)) := by
  have hHead := pushLanHead_eq (p ++ Dns.putPointer off) 1 0x8001 ttl (ipOctets ip)
  rw [pushLanA]
  simp only [dnsPushPtr_eq hOff, octets_eq]
  rw [dnsPushU16, List.append_assoc, putBe16_eq]
  refine hHead.trans ?_
  rw [List.append_assoc]
  rfl

end Push

section Packet

variable (d : LanIdentity)

theorem hostname_label : Dns.IsLabel d.hostname := by
  have hLength : d.hostname.length = 13 := rfl
  rw [Dns.IsLabel, hLength]
  decide

theorem lan_names : ServiceNames lanService d.inst d.hostname where
  service_labels := by
    simp only [lanService, List.forall_mem_cons]
    exact ⟨by decide, by decide, by decide, List.forall_mem_nil _⟩
  service_length := by decide
  inst_label := d.inst_label
  host_label := hostname_label d

theorem length_stableId : (decimal d.stableId.toNat).length ≤ 10 := by
  have hLt : d.stableId.toNat < 10 ^ 10 := by
    have hWord := d.stableId.toNat_lt
    omega
  rw [decimal_eq, List.length_map]
  exact (Nat.length_toDigits_le_iff (by decide) (by decide)).2 hLt

theorem length_idhashLan : d.idhashLan.length = 3 := by
  rw [LanIdentity.idhashLan, List.length_map, List.length_take, d.idhash_length]
  rfl

/-- Nothing of it is cut off. -/
theorem length_appdataText : d.appdataText.length ≤ 103 := by
  have hId := length_stableId d
  have hFront : (ascii "\x7b\"supportLyra\":true,").length = 20 := rfl
  have hMac : (ascii "\"mac\":\"").length = 7 := rfl
  have hBehindMac : (ascii "\",\"ID\":").length = 7 := rfl
  have hType : (ascii ",\"type\":3,\"idhash\":\"").length = 20 := rfl
  have hEnd : (ascii "\",\"extraAbility\":0\x7d").length = 19 := rfl
  have hText : d.macText.length = 17 := rfl
  rw [LanIdentity.appdataText]
  simp only [List.length_append, hFront, hMac, hBehindMac, hType, hEnd, hText, length_idhashLan]
  omega

theorem txtRec_eq :
    d.txtRec = (ascii "appdata=" ++ d.appdataText, (ascii "appdata=" ++ d.appdataText).length) := by
  have hText := length_appdataText d
  have hKey : (ascii "appdata=").length = 8 := rfl
  have hLength : (ascii "appdata=" ++ d.appdataText).length ≤ 111 := by
    rw [List.length_append, hKey]
    omega
  have hAll : d.appdataText.take 255 = d.appdataText := List.take_of_length_le (by omega)
  simp only [LanIdentity.txtRec, hAll]
  rw [List.take_of_length_le (by omega), if_neg (by omega)]

/-- **The packet**, with every length in its place -/
theorem buildLanPacket_eq (isUnicast : Bool) :
    buildLanPacket d isUnicast = lanHeader 0 ++ lanBody d (if isUnicast then 10 else 60) := by
  have hInst := d.inst_le
  have hHostOff : hostOffset lanService d.inst < 0x4000 := by
    have hService : instOffset lanService < 100 := by decide
    rw [hostOffset]
    omega
  have hOffset : (pushHeader ++ (Dns.putName lanService ++ Dns.putRecord 12 1
      (if isUnicast then 10 else 60 : UInt32).toNat
        (Dns.putLabel d.inst ++ Dns.putPointer 12))).length + 18 =
          hostOffset lanService d.inst := by
    simp only [List.length_append, length_putRecord, Dns.putLabel, List.length_cons, hostOffset,
      instOffset]
    change 12 + (_ + (_ + 1 + 2 + 10)) + 18 = _
    omega
  have hTtl : (if isUnicast then 10 else 60 : UInt32).toNat = if isUnicast then 10 else 60 := by
    cases isUnicast with
    | false => rfl
    | true => rfl
  rw [buildLanPacket, pushLanPtr_eq (by omega)]
  dsimp only
  rw [pushLanSrv_eq (hostname_label d).2, hOffset, txtRec_eq, pushLanTxt_eq, pushLanA_eq hHostOff,
    hTtl, lanBody, lanPtrRecord, lanSrvRecord, lanTxtRecord, lanARecord]
  simp only [List.append_assoc]
  rfl

end Packet

-- ---------------------------------------------------------------------------
-- Decoded
-- ---------------------------------------------------------------------------

section Decoded

variable {d : LanIdentity} {id ttl : Nat} {msg p : Bytes}

theorem lan_layout (d : LanIdentity) (id ttl : Nat) :
    Layout lanService d.inst d.hostname (lanHeader id ++ lanBody d ttl) where
  at_service := ⟨_, drop_front rfl rfl⟩
  at_inst := by
    refine ⟨lanSrvRecord d ttl ++ (lanTxtRecord ttl (ascii "appdata=" ++ d.appdataText) ++
      lanARecord d ttl), ?_⟩
    have hFront : (lanHeader id ++ (Dns.putName lanService ++ (Dns.putU16 12 ++ (Dns.putU16 1 ++
        (Dns.putU32 ttl ++
          Dns.putU16 (Dns.putLabel d.inst ++ Dns.putPointer 12).length))))).length =
            instOffset lanService := rfl
    refine drop_front ?_ hFront
    simp only [lanBody, lanPtrRecord, Dns.putRecord, List.append_assoc]
  at_host := by
    refine ⟨lanTxtRecord ttl (ascii "appdata=" ++ d.appdataText) ++ lanARecord d ttl, ?_⟩
    have hFront : (lanHeader id ++ (lanPtrRecord d ttl ++ (Dns.putPointer (instOffset lanService) ++
        (Dns.putU16 33 ++ (Dns.putU16 0x8001 ++ (Dns.putU32 ttl ++
          (Dns.putU16 (Dns.putU16 0 ++ (Dns.putU16 0 ++ (Dns.putU16 8899 ++
            Dns.putName [d.hostname, localLabel]))).length ++ (Dns.putU16 0 ++ (Dns.putU16 0 ++
              Dns.putU16 8899))))))))).length = hostOffset lanService d.inst := by
      simp only [lanPtrRecord, List.length_append, length_putRecord, Dns.putPointer,
        Dns.length_putU16, Dns.length_putU32, hostOffset, instOffset, Dns.putLabel,
        List.length_cons]
      change 12 + _ = _
      omega
    refine drop_front ?_ hFront
    simp only [lanBody, lanSrvRecord, Dns.putRecord, List.append_assoc]
  steps := by
    rw [List.length_append, lanBody, List.length_append, lanPtrRecord, List.length_append]
    change 3 + 5 ≤ 12 + (24 + _ + _)
    omega

theorem readRecord_lanPtr (h : Layout lanService d.inst d.hostname msg) (hTtl : ttl < 4294967296)
    (p : Bytes) : Dns.readRecord msg (lanPtrRecord d ttl ++ p) =
      some (⟨lanService, 12, 1, ttl, .ptr (d.inst :: lanService)⟩, p) := by
  have hNames := lan_names d
  have hSteps := h.steps
  have hInst := d.inst_label.2
  have hTarget := readName_inst hNames.service_labels hNames.inst_label h
    (show lanService.length + 2 < msg.length by omega) []
  rw [List.append_nil] at hTarget
  rw [lanPtrRecord, List.append_assoc]
  refine Dns.readRecord_record (by decide) (by decide) hTtl ?_
    (Dns.readName_name hNames.service_labels (by omega) _ _) ?_
  · rw [List.length_append]
    change d.inst.length + 1 + 2 < _
    omega
  · rw [Dns.readData, if_neg (by decide), if_pos rfl, Dns.readTarget_eq hTarget]
    rfl

theorem readRecord_lanSrv (h : Layout lanService d.inst d.hostname msg) (hTtl : ttl < 4294967296)
    (p : Bytes) : Dns.readRecord msg (lanSrvRecord d ttl ++ p) =
      some (⟨d.inst :: lanService, 33, 0x8001, ttl, .srv 0 0 8899 [d.hostname, localLabel]⟩,
        p) := by
  have hNames := lan_names d
  have hSteps := h.steps
  have hHost := hNames.host_label.2
  have hTarget := Dns.readName_name hNames.host_labels
    (show [d.hostname, localLabel].length < msg.length by
      rw [List.length_cons, List.length_singleton]
      omega) msg []
  rw [List.append_nil] at hTarget
  rw [lanSrvRecord, List.append_assoc]
  refine Dns.readRecord_record (by decide) (by decide) hTtl ?_
    (readName_instPointer hNames h (by omega) _) ?_
  · exact (length_srvData 8899 d.hostname).trans_lt (by omega)
  · rw [Dns.readData, if_neg (by decide), if_neg (by decide), if_neg (by decide), if_pos rfl]
    simp only [Dns.readU16_putU16, Option.bind_eq_bind, Option.bind_some,
      Dns.readTarget_eq hTarget]
    rfl

theorem readRecord_lanTxt (h : Layout lanService d.inst d.hostname msg) (hTtl : ttl < 4294967296)
    {txt : Bytes} (hTxt : txt.length ≤ 255) (p : Bytes) :
    Dns.readRecord msg (lanTxtRecord ttl txt ++ p) =
      some (⟨d.inst :: lanService, 16, 0x8001, ttl, .txt [txt]⟩, p) := by
  have hSteps := h.steps
  have hStrings : Dns.readStrings (Dns.putString txt).length (Dns.putString txt) = some [txt] := by
    have hFuel : [txt].length ≤ (Dns.putString txt).length := Nat.succ_le_succ (Nat.zero_le _)
    have hOne := Dns.readStrings_encode
      (List.forall_mem_singleton.2 (Nat.lt_succ_of_le hTxt)) hFuel
    rwa [List.flatMap_cons, List.flatMap_nil, List.append_nil] at hOne
  rw [lanTxtRecord, List.append_assoc]
  refine Dns.readRecord_record (by decide) (by decide) hTtl (by rw [length_putString]; omega)
    (readName_instPointer (lan_names d) h (by omega) _) ?_
  rw [Dns.readData, if_neg (by decide), if_neg (by decide), if_pos rfl, hStrings]
  rfl

theorem readRecord_lanA (h : Layout lanService d.inst d.hostname msg) (hTtl : ttl < 4294967296) :
    Dns.readRecord msg (lanARecord d ttl) =
      some (⟨[d.hostname, localLabel], 1, 0x8001, ttl, .a (ipOctets d.ip)⟩, []) := by
  have hSteps := h.steps
  have hLen : (ipOctets d.ip).length < 65536 := by
    change 4 < 65536
    decide
  have hOwner := readName_hostPointer (lan_names d) h (show 3 < msg.length by omega)
    (Dns.putRecord 1 0x8001 ttl (ipOctets d.ip) ++ [])
  have hData : Dns.readData msg 1 (ipOctets d.ip) = some (.a (ipOctets d.ip)) := rfl
  have hRecord := Dns.readRecord_record (by decide) (by decide) hTtl hLen hOwner hData
  rw [List.append_nil] at hRecord
  exact hRecord

/-- Whatever the id, a decoder reads what the packet says. -/
theorem decode_lanPacket (d : LanIdentity) (hId : id < 65536) (hTtl : ttl < 4294967296) :
    Dns.decode (lanHeader id ++ lanBody d ttl) = some (d.message id ttl) := by
  have hLayout := lan_layout d id ttl
  have hTxt : (ascii "appdata=" ++ d.appdataText).length ≤ 255 := by
    have hText := length_appdataText d
    rw [List.length_append]
    change 8 + _ ≤ 255
    omega
  have hHeader : lanHeader id ++ lanBody d ttl = Dns.putU16 id ++ (Dns.putU16 0x8400 ++
      (Dns.putU16 0 ++ (Dns.putU16 1 ++ (Dns.putU16 0 ++ (Dns.putU16 3 ++ lanBody d ttl))))) := rfl
  generalize hMsg : lanHeader id ++ lanBody d ttl = msg at hLayout hHeader ⊢
  have hFirst : Dns.readU16 msg = some (id, Dns.putU16 0x8400 ++ (Dns.putU16 0 ++
      (Dns.putU16 1 ++ (Dns.putU16 0 ++ (Dns.putU16 3 ++ lanBody d ttl))))) := by
    rw [hHeader, Dns.readU16_putU16, Nat.mod_eq_of_lt hId]
  rw [Dns.decode]
  simp only [hFirst, Option.bind_eq_bind, Option.bind_some, Dns.readU16_putU16, Dns.readMany,
    lanBody, readRecord_lanPtr hLayout hTtl, readRecord_lanSrv hLayout hTtl,
    readRecord_lanTxt hLayout hTtl hTxt, readRecord_lanA hLayout hTtl, Option.pure_def, if_true]
  rfl

theorem length_lanBody (d : LanIdentity) (ttl : Nat) : (lanBody d ttl).length ≤ 300 := by
  have hInst := d.inst_le
  have hText := length_appdataText d
  have hKey : (ascii "appdata=").length = 8 := rfl
  have hSrv := length_srvData 8899 d.hostname
  have hHost : d.hostname.length = 13 := rfl
  have hName : (Dns.putName lanService).length = 24 := rfl
  have hAddress : (ipOctets d.ip).length = 4 := rfl
  rw [hHost] at hSrv
  simp only [lanBody, lanPtrRecord, lanSrvRecord, lanTxtRecord, lanARecord, List.length_append,
    length_putRecord, length_putString, Dns.putPointer, Dns.length_putU16, Dns.putLabel,
    List.length_cons] at hSrv ⊢
  change _ + _ ≤ 300
  omega

/-- **The packet** fits its buffer, and says where the device is to be found. -/
theorem buildLanPacket_law (d : LanIdentity) (isUnicast : Bool) :
    (buildLanPacket d isUnicast).length ≤ 512 ∧
      Dns.decode (buildLanPacket d isUnicast) =
        some (d.message 0 (if isUnicast then 10 else 60)) := by
  rw [buildLanPacket_eq]
  have hBody := length_lanBody d (if isUnicast then 10 else 60)
  refine ⟨?_, decode_lanPacket d (by decide) (by cases isUnicast <;> decide)⟩
  rw [List.length_append]
  change 12 + _ ≤ 512
  omega

/-- A device on 192.168.1.77 -/
def lanDevice : LanIdentity where
  mac := [0x24, 0x6F, 0x28, 0xA1, 0xB2, 0xC3].get
  inst := ascii "ESP-1.85c(q7Zk-20_xW)"
  inst_label := by decide
  inst_le := by decide
  idhash := ascii "Kq+/"
  idhash_length := rfl
  ip := 0x4D01A8C0

example : lanDevice.hostname = ascii "miplay-A1B2C3" ∧ lanDevice.idhashLan = ascii "Kq-" := by
  decide

end Decoded

end EspMiplay.Miplay
