import Mathlib
import EspMiplay.Lib.Transition
import EspMiplay.Miplay.LanPacket

/-!
# Discovery on port 5355

`miplay_lan_task` announces the device three times, and then answers queries. The datagrams it
sends itself come from other devices as well, and through a switch that sends them back they come
from this one, so what matters is that none of them is answered.

## Results

* `miplayLanReply_law` — what is answered, and with what.
* `lanNet_quiet`       — a network of such devices, in which others send what they like: no
  datagram of a device is answered, and there are no more of them than three from each, and one for
  every time that a device hears a datagram of another kind.
-/

namespace EspMiplay.Miplay

-- ---------------------------------------------------------------------------
-- A datagram
-- ---------------------------------------------------------------------------

/-- The loop that looks for the service, with what is left of the datagram -/
def foundService : Bytes → Bool
  | [] => false
  | b :: rest =>
    if (b :: rest).length < serviceQname.length then false
    else if (b :: rest).take serviceQname.length = serviceQname then true
    else foundService rest

/-- What `miplay_lan_task` sends back for a datagram: `s_lan_response` with the id of the query,
if there is room for the copy. -/
def miplayLanReply (heap : Bool) (response rx : Bytes) : Option Bytes :=
  if rx.length < 12 then none
  else
    let dnsFlags := ((rx.getD 2 0).toUInt16 <<< 8) ||| (rx.getD 3 0).toUInt16
    let questionCount := ((rx.getD 4 0).toUInt16 <<< 8) ||| (rx.getD 5 0).toUInt16
    if dnsFlags &&& 0x8000 ≠ 0 ∨ questionCount = 0 then none
    else if rx.length < serviceQname.length then none
    else if !foundService rx then none
    else if !heap then none
    else some ((response.set 0 (rx.getD 0 0)).set 1 (rx.getD 1 0))

/-- A query with questions, and with the service anywhere in it -/
structure AsksService (rx : Bytes) : Prop where
  query : (rx.getD 2 0).toNat < 128
  questions : rx.getD 4 0 ≠ 0 ∨ rx.getD 5 0 ≠ 0
  service : serviceQname <:+: rx

def queryId (rx : Bytes) : Nat := 256 * (rx.getD 0 0).toNat + (rx.getD 1 0).toNat

section Datagram

theorem be16_toNat (hi lo : UInt8) :
    ((hi.toUInt16 <<< 8) ||| lo.toUInt16).toNat = 256 * hi.toNat + lo.toNat := by
  have hHi := hi.toNat_lt
  have hLo := lo.toNat_lt
  have hShift : (hi.toUInt16 <<< 8).toNat = 2 ^ 8 * hi.toNat := by
    rw [UInt16.toNat_shiftLeft, UInt8.toNat_toUInt16]
    change hi.toNat <<< 8 % 65536 = _
    rw [Nat.shiftLeft_eq]
    omega
  rw [UInt16.toNat_or, hShift, UInt8.toNat_toUInt16]
  exact (Nat.two_pow_add_eq_or_of_lt (i := 8) hLo hi.toNat).symm

theorem be16_sign (hi lo : UInt8) :
    ((hi.toUInt16 <<< 8) ||| lo.toUInt16) &&& 0x8000 ≠ 0 ↔ 128 ≤ hi.toNat := by
  have hHi := hi.toNat_lt
  have hLo := lo.toNat_lt
  rw [Ne, ← UInt16.toNat_inj, UInt16.toNat_and, be16_toNat]
  change ¬(256 * hi.toNat + lo.toNat) &&& 2 ^ 15 = 0 ↔ _
  rw [Nat.and_two_pow, Nat.testBit_eq_decide_div_mod_eq]
  by_cases hSign : 128 ≤ hi.toNat
  · have hBit : (256 * hi.toNat + lo.toNat) / 2 ^ 15 % 2 = 1 := by omega
    rw [hBit]
    exact iff_of_true (by decide) hSign
  · have hBit : (256 * hi.toNat + lo.toNat) / 2 ^ 15 % 2 = 0 := by omega
    rw [hBit]
    exact iff_of_false (by decide) hSign

theorem be16_eq_zero (hi lo : UInt8) :
    ((hi.toUInt16 <<< 8) ||| lo.toUInt16) = 0 ↔ hi = 0 ∧ lo = 0 := by
  rw [← UInt16.toNat_inj, be16_toNat, ← UInt8.toNat_inj, ← UInt8.toNat_inj]
  change _ = 0 ↔ hi.toNat = 0 ∧ lo.toNat = 0
  omega

theorem foundService_iff (rx : Bytes) : foundService rx = true ↔ serviceQname <:+: rx := by
  have hQname : serviceQname ≠ [] := List.cons_ne_nil _ _
  induction rx with
  | nil => exact iff_of_false Bool.false_ne_true fun h => hQname (List.infix_nil.1 h)
  | cons b rest ih =>
    rw [foundService, List.infix_cons_iff]
    by_cases hShort : (b :: rest).length < serviceQname.length
    · rw [if_pos hShort]
      refine iff_of_false Bool.false_ne_true ?_
      rintro (hPrefix | hRest)
      · exact absurd hPrefix.length_le (Nat.not_le_of_lt hShort)
      · exact absurd (hRest.length_le.trans (Nat.le_succ _)) (Nat.not_le_of_lt hShort)
    · rw [if_neg hShort]
      by_cases hHere : (b :: rest).take serviceQname.length = serviceQname
      · rw [if_pos hHere]
        exact iff_of_true rfl (.inl (List.prefix_iff_eq_take.2 hHere.symm))
      · rw [if_neg hHere]
        refine ⟨fun h => .inr (ih.1 h), ?_⟩
        rintro (hPrefix | hRest)
        · exact absurd (List.prefix_iff_eq_take.1 hPrefix).symm hHere
        · exact ih.2 hRest

instance (rx : Bytes) : Decidable (AsksService rx) :=
  decidable_of_iff ((rx.getD 2 0).toNat < 128 ∧ (rx.getD 4 0 ≠ 0 ∨ rx.getD 5 0 ≠ 0) ∧
      foundService rx = true)
    ⟨fun h => ⟨h.1, h.2.1, (foundService_iff rx).1 h.2.2⟩,
      fun h => ⟨h.query, h.questions, (foundService_iff rx).2 h.service⟩⟩

/-- There is a reply to the queries for the service, and to nothing else. -/
theorem miplayLanReply_eq (heap : Bool) (response rx : Bytes) :
    miplayLanReply heap response rx = if AsksService rx ∧ heap = true then
      some ((response.set 0 (rx.getD 0 0)).set 1 (rx.getD 1 0)) else none := by
  have hQname : serviceQname.length = 24 := rfl
  rw [miplayLanReply]
  simp only [be16_sign, be16_eq_zero, Bool.not_eq_true', hQname]
  by_cases hAsks : AsksService rx
  · have hLength := hAsks.service.length_le
    rw [hQname] at hLength
    have hQuery := hAsks.query
    have hNone : ¬(128 ≤ (rx.getD 2 0).toNat ∨ rx.getD 4 0 = 0 ∧ rx.getD 5 0 = 0) := by
      rintro (hReply | ⟨hHigh, hLow⟩)
      · omega
      · exact hAsks.questions.elim (absurd hHigh) (absurd hLow)
    rw [if_neg (by omega), if_neg hNone, if_neg (by omega), (foundService_iff rx).2 hAsks.service,
      if_neg Bool.noConfusion]
    cases heap with
    | false => rw [if_pos rfl, if_neg fun h => Bool.noConfusion h.2]
    | true => rw [if_neg Bool.noConfusion, if_pos ⟨hAsks, rfl⟩]
  · rw [if_neg (show ¬(AsksService rx ∧ heap = true) from fun h => hAsks h.1)]
    by_cases hShort : rx.length < 12
    · rw [if_pos hShort]
    rw [if_neg hShort]
    by_cases hNone : 128 ≤ (rx.getD 2 0).toNat ∨ rx.getD 4 0 = 0 ∧ rx.getD 5 0 = 0
    · rw [if_pos hNone]
    rw [if_neg hNone]
    have hMissing : foundService rx = false := by
      rw [← Bool.not_eq_true]
      intro hFound
      rw [not_or, not_and_or] at hNone
      exact hAsks ⟨Nat.lt_of_not_le hNone.1, hNone.2, (foundService_iff rx).1 hFound⟩
    rw [hMissing, if_pos rfl, ite_self]

/-- The reply is the packet with the id of the query. -/
theorem response_withId (d : LanIdentity) (rx : Bytes) :
    ((buildLanPacket d true).set 0 (rx.getD 0 0)).set 1 (rx.getD 1 0) =
      lanHeader (queryId rx) ++ lanBody d 10 := by
  have hFirst := (rx.getD 0 0).toNat_lt
  have hSecond := (rx.getD 1 0).toNat_lt
  have hId : Dns.putU16 (queryId rx) = [rx.getD 0 0, rx.getD 1 0] := by
    have hHigh : UInt8.ofNat (queryId rx / 256) = rx.getD 0 0 := by
      rw [← UInt8.toNat_inj, UInt8.toNat_ofNat', queryId]
      omega
    have hLow : UInt8.ofNat (queryId rx) = rx.getD 1 0 := by
      rw [← UInt8.toNat_inj, UInt8.toNat_ofNat', queryId]
      omega
    rw [Dns.putU16, hHigh, hLow]
  rw [buildLanPacket_eq, lanHeader, lanHeader, hId]
  rfl

theorem queryId_lt (rx : Bytes) : queryId rx < 65536 := by
  have hFirst := (rx.getD 0 0).toNat_lt
  have hSecond := (rx.getD 1 0).toNat_lt
  rw [queryId]
  omega

/-- **A datagram**: it is answered exactly if it is a query for the service, and what a decoder
reads in the reply is the device under the id of the query. -/
theorem miplayLanReply_law (d : LanIdentity) (rx : Bytes) :
    (AsksService rx → ∃ r, miplayLanReply true (buildLanPacket d true) rx = some r ∧
      r.length ≤ 512 ∧ Dns.decode r = some (d.message (queryId rx) 10)) ∧
    ∀ heap, (¬AsksService rx ∨ heap = false) →
      miplayLanReply heap (buildLanPacket d true) rx = none := by
  constructor
  · intro hAsks
    rw [miplayLanReply_eq, if_pos ⟨hAsks, rfl⟩]
    refine ⟨_, rfl, ?_, ?_⟩
    · rw [List.length_set, List.length_set]
      exact (buildLanPacket_law d true).1
    · rw [response_withId]
      exact decode_lanPacket d (queryId_lt rx) (by decide)
  · intro heap hNone
    rw [miplayLanReply_eq, if_neg]
    rintro ⟨hAsks, hHeap⟩
    obtain hNot | rfl := hNone
    · exact hNot hAsks
    · cases hHeap

/-- A query with the id 0x1234 -/
def lanQuery : Bytes :=
  [0x12, 0x34, 0, 0, 0, 1, 0, 0, 0, 0, 0, 0] ++ (serviceQname ++ [0, 12, 0, 1])

theorem lanQuery_answered : ∃ r, miplayLanReply true (buildLanPacket lanDevice true) lanQuery =
    some r ∧ r.length ≤ 512 ∧ Dns.decode r = some (lanDevice.message 0x1234 10) :=
  (miplayLanReply_law lanDevice lanQuery).1 (by decide)

/-- The flags of the packets are those of a response. -/
theorem not_asksService_lanPacket (d : LanIdentity) (id ttl : Nat) :
    ¬AsksService (lanHeader id ++ lanBody d ttl) :=
  fun h => absurd (show 0x84 < 128 from h.query) (by decide)

end Datagram

-- ---------------------------------------------------------------------------
-- A network
-- ---------------------------------------------------------------------------

/-- The devices with their announcements, what they have sent, and what others have -/
structure LanNet (ι : Type*) where
  rounds : ι → Nat
  sent : List (ι × Bytes)
  asked : List Bytes
  /-- How often a device has received a datagram of others -/
  heard : Nat

inductive LanAction (ι : Type*) where
  /-- A round of announcements -/
  | announce (i : ι)
  /-- Another program sends a datagram. -/
  | ask (rx : Bytes)
  /-- A device receives a datagram of `asked`; any number may come again, in any order. -/
  | hear (i : ι) (k : Nat) (heap : Bool)
  /-- A device receives a datagram of a device, its own included. -/
  | overhear (i : ι) (k : Nat) (heap : Bool)

def lanStart (ι : Type*) : LanNet ι := ⟨fun _ => 0, [], [], 0⟩

section Network

variable {ι : Type*} {dev : ι → LanIdentity} {net net' : LanNet ι} {a : LanAction ι}

def LanNet.answer (dev : ι → LanIdentity) (net : LanNet ι) (i : ι) (heap : Bool) (rx : Bytes) :
    LanNet ι :=
  { net with
    sent := net.sent ++
      ((miplayLanReply heap (buildLanPacket (dev i) true) rx).map fun r => (i, r)).toList }

def lanStep [DecidableEq ι] (dev : ι → LanIdentity) (net : LanNet ι) :
    LanAction ι → Option (LanNet ι)
  | .announce i =>
    if net.rounds i < 3 then
      some { net with
        rounds := Function.update net.rounds i (net.rounds i + 1)
        sent := net.sent ++ [(i, buildLanPacket (dev i) false)] }
    else none
  | .ask rx => some { net with asked := net.asked ++ [rx] }
  | .hear i k heap =>
    net.asked[k]?.map fun rx => { net.answer dev i heap rx with heard := net.heard + 1 }
  | .overhear i k heap => net.sent[k]?.map fun s => net.answer dev i heap s.2

/-- An announcement, or the reply to a query -/
def Caused (dev : ι → LanIdentity) (asked : List Bytes) (s : ι × Bytes) : Prop :=
  s.2 = lanHeader 0 ++ lanBody (dev s.1) 60 ∨
    ∃ rx ∈ asked, AsksService rx ∧ s.2 = lanHeader (queryId rx) ++ lanBody (dev s.1) 10

/-- What holds of a network at all times -/
structure LanInv [Fintype ι] (dev : ι → LanIdentity) (net : LanNet ι) : Prop where
  caused : ∀ s ∈ net.sent, Caused dev net.asked s
  rounds_le : ∀ i, net.rounds i ≤ 3
  sent_le : net.sent.length ≤ ∑ i, net.rounds i + net.heard

/-- No device answers what a device has sent. -/
theorem Caused.quiet {asked : List Bytes} {s : ι × Bytes} (h : Caused dev asked s) (heap : Bool)
    (response : Bytes) : miplayLanReply heap response s.2 = none := by
  have hNot : ¬AsksService s.2 := by
    obtain hAnnounced | ⟨rx, -, -, hReply⟩ := h
    · rw [hAnnounced]
      exact not_asksService_lanPacket _ _ _
    · rw [hReply]
      exact not_asksService_lanPacket _ _ _
  rw [miplayLanReply_eq, if_neg fun hBoth => hNot hBoth.1]

theorem Caused.mono {asked more : List Bytes} {s : ι × Bytes} (h : Caused dev asked s) :
    Caused dev (asked ++ more) s := by
  obtain hAnnounced | ⟨rx, hMem, hReply⟩ := h
  · exact .inl hAnnounced
  · exact .inr ⟨rx, List.mem_append_left _ hMem, hReply⟩

theorem LanInv.start [Fintype ι] : LanInv dev (lanStart ι) where
  caused _ hMem := absurd hMem List.not_mem_nil
  rounds_le _ := Nat.zero_le _
  sent_le := Nat.zero_le _

/-- A step keeps the network so. -/
theorem LanInv.step [Fintype ι] [DecidableEq ι] (h : LanInv dev net)
    (hStep : lanStep dev net a = some net') :
    LanInv dev net' := by
  cases a with
  | announce i =>
    rw [lanStep] at hStep
    split_ifs at hStep with hRound
    obtain rfl := Option.some.inj hStep
    refine ⟨List.forall_mem_append.2 ⟨h.caused, List.forall_mem_singleton.2 (.inl ?_)⟩,
      fun j => ?_, ?_⟩
    · exact buildLanPacket_eq (dev i) false
    · dsimp only
      by_cases hSame : j = i
      · rw [hSame, Function.update_self]
        exact hRound
      · rw [Function.update_of_ne hSame]
        exact h.rounds_le j
    · have hSum : ∑ j, Function.update net.rounds i (net.rounds i + 1) j =
          ∑ j, net.rounds j + 1 := by
        have hBefore := Finset.add_sum_erase Finset.univ net.rounds (Finset.mem_univ i)
        rw [Finset.sum_update_of_mem (Finset.mem_univ i), ← Finset.erase_eq]
        omega
      have hSent := h.sent_le
      rw [List.length_append, List.length_singleton]
      dsimp only
      omega
  | ask rx =>
    obtain rfl := Option.some.inj hStep
    exact ⟨fun s hMem => (h.caused s hMem).mono, h.rounds_le, h.sent_le⟩
  | hear i k heap =>
    obtain ⟨rx, hAsked, rfl⟩ := Option.map_eq_some_iff.1 hStep
    have hSent := h.sent_le
    by_cases hAsks : AsksService rx ∧ heap = true
    · have hReply : (miplayLanReply heap (buildLanPacket (dev i) true) rx) =
          some (lanHeader (queryId rx) ++ lanBody (dev i) 10) := by
        rw [miplayLanReply_eq, if_pos hAsks, response_withId]
      refine ⟨?_, h.rounds_le, ?_⟩
      · dsimp only [LanNet.answer]
        rw [hReply]
        exact List.forall_mem_append.2 ⟨h.caused, List.forall_mem_singleton.2
          (.inr ⟨rx, List.mem_of_getElem? hAsked, hAsks.1, rfl⟩)⟩
      · dsimp only [LanNet.answer]
        rw [hReply, List.length_append]
        change _ + 1 ≤ _
        omega
    · have hReply : miplayLanReply heap (buildLanPacket (dev i) true) rx = none := by
        rw [miplayLanReply_eq, if_neg hAsks]
      dsimp only [LanNet.answer]
      rw [hReply, Option.map_none, Option.toList_none, List.append_nil]
      exact ⟨h.caused, h.rounds_le, by dsimp only; omega⟩
  | overhear i k heap =>
    obtain ⟨s, hSent, rfl⟩ := Option.map_eq_some_iff.1 hStep
    rw [LanNet.answer, (h.caused s (List.mem_of_getElem? hSent)).quiet, Option.map_none,
      Option.toList_none, List.append_nil]
    exact h

/-- **A network**: whatever others send, and however the datagrams come, no datagram of a device
is answered, every one of them is an announcement or the reply to a query of others, and there are
not more than that. -/
theorem lanNet_quiet [Fintype ι] [DecidableEq ι] (dev : ι → LanIdentity) (as : List (LanAction ι))
    (h : Transition.run (lanStep dev) (lanStart ι) as = some net) :
    (∀ s ∈ net.sent, ∀ i heap,
      miplayLanReply heap (buildLanPacket (dev i) true) s.2 = none) ∧
    (∀ s ∈ net.sent, Dns.decode s.2 = some ((dev s.1).message 0 60) ∨
      ∃ rx ∈ net.asked, AsksService rx ∧
        Dns.decode s.2 = some ((dev s.1).message (queryId rx) 10)) ∧
    net.sent.length ≤ 3 * Fintype.card ι + net.heard := by
  have hInv : LanInv dev net :=
    Transition.invariant_of_run (fun _ _ _ hInv hStep => hInv.step hStep) LanInv.start h
  refine ⟨fun s hMem i heap => (hInv.caused s hMem).quiet heap _, fun s hMem => ?_, ?_⟩
  · obtain hAnnounced | ⟨rx, hAsked, hAsks, hReply⟩ := hInv.caused s hMem
    · rw [hAnnounced]
      exact .inl (decode_lanPacket _ (by decide) (by decide))
    · rw [hReply]
      exact .inr ⟨rx, hAsked, hAsks, decode_lanPacket _ (queryId_lt rx) (by decide)⟩
  · have hRounds : ∑ i, net.rounds i ≤ Fintype.card ι * 3 :=
      Finset.sum_le_card_nsmul _ _ 3 fun i _ => hInv.rounds_le i
    have hSent := hInv.sent_le
    omega

def lanRun : List (LanAction (Fin 2)) :=
  [.announce 0, .overhear 1 0 true, .ask lanQuery, .hear 1 0 true]

theorem lanRun_isSome :
    (Transition.run (lanStep fun _ => lanDevice) (lanStart (Fin 2)) lanRun).isSome := rfl

theorem lanRun_quiet :
    let net := (Transition.run (lanStep fun _ => lanDevice) (lanStart (Fin 2)) lanRun).get
      lanRun_isSome
    (∀ s ∈ net.sent, ∀ i heap,
      miplayLanReply heap (buildLanPacket ((fun _ : Fin 2 => lanDevice) i) true) s.2 = none) ∧
    (∀ s ∈ net.sent, Dns.decode s.2 = some (lanDevice.message 0 60) ∨
      ∃ rx ∈ net.asked, AsksService rx ∧
        Dns.decode s.2 = some (lanDevice.message (queryId rx) 10)) ∧
    net.sent.length ≤ 3 * Fintype.card (Fin 2) + net.heard :=
  lanNet_quiet (fun _ => lanDevice) lanRun (Option.some_get _).symm

end Network

end EspMiplay.Miplay
