import EspMiplay.Lib.Transition
import EspMiplay.Miplay.Text

/-!
# Event subscriptions

A control point subscribes with the URL it wants to be called at, and is given a SID
for the renewal. Here the SID is always the UUID of the device, so that a control
point that renews after a reboot is still accepted; the slot for it (`fixedSlot`) is
there from the start, and the first subscription fills it.

A request carries no name of the control point that sent it. Its callback stands for it:
`sender` is written down beside each request, and read only by `Exclusive`.

## Results

* `findSubBySid_eq`     — a SID stands for the fixed slot or for none.
* `SubInv.step`         — what the steps keep.
* `served_along`        — what each request does, along every run.
* `subscriptions_share` — two control points with one SID.
-/

namespace EspMiplay.Dlna

open Transition
open EspMiplay.Miplay (Bytes ascii cstr peek)

/-- `MAX_SUBSCRIBERS` -/
def maxSubscribers : Nat := 4

/-- `SUB_TIMEOUT_SEC` -/
def subTimeoutSec : Int := 1800

abbrev SubSlot := Fin maxSubscribers

/-- The slot that is given the SID at the start. -/
def fixedSlot : SubSlot := ⟨0, by decide⟩

/-- `gena_subscriber_t` -/
structure Subscriber where
  /-- empty when the slot is free -/
  url : Bytes
  sid : Bytes
  expiryTime : Int
  deriving DecidableEq

inductive EventMethod where
  | subscribe
  | unsubscribe
  | other
  deriving DecidableEq

/-- A request to the URL of the events, with the headers that are looked at. -/
structure EventRequest where
  method : EventMethod
  sid : Option Bytes
  callback : Option Bytes

inductive EventResponse where
  /-- 200 with SID and TIMEOUT -/
  | subscribed (sid : Bytes) (timeout : Int)
  | ok
  /-- 412 -/
  | preconditionFailed
  /-- 500 -/
  | noSlot
  /-- 400 -/
  | missingHeaders
  deriving DecidableEq

/-- A header of this length fits the buffer for it. -/
def eventHeader (size : Nat) (value : Option Bytes) : Option Bytes :=
  (value.map cstr).filter fun v => 0 < v.length ∧ v.length < size

namespace EventRequest

def sidHeader (r : EventRequest) : Option Bytes := eventHeader 63 r.sid

/-- The URL in CALLBACK, which may stand between angle brackets. -/
def callbackUrl (r : EventRequest) : Option Bytes :=
  (eventHeader 255 r.callback).map fun cb =>
    (if peek cb = 0x3C then cb.drop 1 else cb).takeWhile (· ≠ 0x3E)

end EventRequest

/-- The UUID that is used when the configuration has none. -/
def defaultUuid : Bytes := ascii "8db0797a-f01a-4949-8f59-51188b18180b"

structure Subscriptions where
  /-- `s_cfg->uuid` -/
  uuid : Option Bytes
  subs : SubSlot → Subscriber
  nowUs : Nat

inductive EventAction where
  | request (sender : Bytes) (r : EventRequest)
  /-- an event is sent, and what has expired is removed -/
  | cleanup
  | tick (us : Nat)

/-- The callback is the sender's own. -/
def EventAction.Honest : EventAction → Prop
  | .request sender r => ∀ url ∈ r.callbackUrl, url = sender
  | .cleanup | .tick _ => True

namespace Subscriptions

variable (s : Subscriptions)

/-- The SID of the device, as far as the buffer takes it. -/
def fixedSid : Bytes := (ascii "uuid:" ++ cstr (s.uuid.getD defaultUuid)).take 95

def nowSec : Int := s.nowUs / 1000000

def setSub (i : SubSlot) (sub : Subscriber) : Subscriptions :=
  { s with subs := Function.update s.subs i sub }

/-- The subscription has run out. -/
def Expired (i : SubSlot) : Prop := 0 < (s.subs i).expiryTime ∧ (s.subs i).expiryTime < s.nowSec

instance (i : SubSlot) : Decidable (s.Expired i) := inferInstanceAs (Decidable (_ ∧ _))

/-- Events are sent to it. -/
def Live (i : SubSlot) : Prop := (s.subs i).url ≠ [] ∧ ¬s.Expired i

instance (i : SubSlot) : Decidable (s.Live i) := inferInstanceAs (Decidable (_ ∧ _))

/-- All slots zeroed. -/
def empty (uuid : Option Bytes) (nowUs : Nat) : Subscriptions where
  uuid := uuid
  subs _ := ⟨[], [], 0⟩
  nowUs := nowUs

/-- The fixed slot is given its SID. -/
def customDlnaInit (uuid : Option Bytes) (nowUs : Nat) : Subscriptions :=
  (empty uuid nowUs).setSub fixedSlot
    ⟨[], (empty uuid nowUs).fixedSid, (empty uuid nowUs).nowSec + subTimeoutSec⟩

def cleanupStaleSubscriptions : Subscriptions :=
  { s with
    subs := fun i =>
      if (s.subs i).url ≠ [] ∧ s.Expired i then { s.subs i with url := [] } else s.subs i }

def findSubBySid (sid : Bytes) : Option SubSlot :=
  (List.finRange maxSubscribers).find? fun i => (s.subs i).sid ≠ [] ∧ (s.subs i).sid = sid

def findFreeSlot : Option SubSlot :=
  (List.finRange maxSubscribers).find? fun i => (s.subs i).url = []

def findSubByUrl (url : Bytes) : Option SubSlot :=
  (List.finRange maxSubscribers).find? fun i => (s.subs i).url ≠ [] ∧ (s.subs i).url = url

/-- The URL a renewal leaves behind. -/
def renewedUrl (old : Bytes) (callback : Option Bytes) : Bytes :=
  match callback with
  | some url => if url ≠ [] ∧ old ≠ url then url else old
  | none => old

def renewed (i : SubSlot) (callback : Option Bytes) : Subscriptions :=
  s.setSub i
    { s.subs i with
      url := renewedUrl (s.subs i).url callback
      expiryTime := s.nowSec + subTimeoutSec }

/-- SUBSCRIBE with a SID. -/
def renew (sid : Bytes) (callback : Option Bytes) : Subscriptions × EventResponse :=
  match s.findSubBySid sid with
  | some i => (s.renewed i callback, .subscribed (s.subs i).sid subTimeoutSec)
  | none =>
    -- a control point that knows the device from before a reboot
    if sid = s.fixedSid then
      match s.findFreeSlot with
      | some i =>
        (s.setSub i
          ⟨renewedUrl (s.subs i).url callback, s.fixedSid, s.nowSec + subTimeoutSec⟩,
          .subscribed s.fixedSid subTimeoutSec)
      | none => (s, .noSlot)
    else (s, .preconditionFailed)

/-- The slot for a callback: its own, the fixed one, or a free one. -/
def slotFor (url : Bytes) : Option SubSlot :=
  match s.findSubByUrl url with
  | some i => some i
  | none => if (s.subs fixedSlot).url = [] then some fixedSlot else s.findFreeSlot

def subscribed (i : SubSlot) (url : Bytes) : Subscriptions :=
  s.setSub i ⟨url, s.fixedSid, s.nowSec + subTimeoutSec⟩

/-- SUBSCRIBE without a SID. The event that follows removes what has expired. -/
def subscribe (url : Bytes) : Subscriptions × EventResponse :=
  match s.slotFor url with
  | some i => ((s.subscribed i url).cleanupStaleSubscriptions, .subscribed s.fixedSid subTimeoutSec)
  | none => (s, .noSlot)

def unsubscribed (i : SubSlot) : Subscriptions := s.setSub i { s.subs i with url := [] }

/-- `event_handler` -/
def eventHandler (r : EventRequest) : Subscriptions × EventResponse :=
  match r.method with
  | .subscribe =>
    match r.sidHeader with
    | some sid => s.renew sid r.callbackUrl
    | none =>
      match r.callbackUrl with
      | some url => s.subscribe url
      | none => (s, .missingHeaders)
  | .unsubscribe =>
    match r.sidHeader.bind s.findSubBySid with
    | some i => (s.unsubscribed i, .ok)
    | none => (s, .ok)
  | .other => (s, .ok)

def step : EventAction → Option Subscriptions
  | .request _ r => some (s.eventHandler r).1
  | .cleanup => some s.cleanupStaleSubscriptions
  | .tick us => some { s with nowUs := s.nowUs + us }

/-! ## What is wanted -/

/-- What one might expect: every live subscription has a SID of its own, and belongs to the
control point whose callback it has. -/
structure Exclusive (s : Subscriptions) (sender : Bytes) (r : EventRequest) (s' : Subscriptions) :
    Prop where
  ownSid : ∀ i j, s'.Live i → s'.Live j → (s'.subs i).sid = (s'.subs j).sid → i = j
  renewal : ∀ i, s.Live i → (s.subs i).url = sender → r.method = .subscribe →
    r.sidHeader = some (s.subs i).sid → (s'.subs i).expiryTime = s.nowSec + subTimeoutSec
  unsubscribe : ∀ i, s.Live i → (s.subs i).url = sender → r.method = .unsubscribe →
    r.sidHeader = some (s.subs i).sid → ¬s'.Live i
  others : ∀ i, s.Live i → (s.subs i).url ≠ sender → s'.Live i ∧ (s'.subs i).url = (s.subs i).url

/-- What a request does: a SID stands for the fixed slot, a callback for its own slot or
for a free one, and outside the fixed slot nothing that is live is lost. -/
structure Served (s : Subscriptions) (r : EventRequest) (s' : Subscriptions) : Prop where
  oneSid : ∀ i, (s'.subs i).url ≠ [] → (s'.subs i).sid = s'.fixedSid
  ownCallback : ∀ i j, i ≠ fixedSlot → j ≠ fixedSlot → s'.Live i →
    (s'.subs i).url = (s'.subs j).url → i = j
  renewal : r.method = .subscribe → r.sidHeader = some s.fixedSid →
    s' = s.renewed fixedSlot r.callbackUrl
  unsubscribe : r.method = .unsubscribe → r.sidHeader = some s.fixedSid →
    s' = s.unsubscribed fixedSlot
  unknown : ∀ sid ∈ r.sidHeader, sid ≠ s.fixedSid → s' = s
  subscribe : r.method = .subscribe → r.sidHeader = none → ∀ url ∈ r.callbackUrl,
    (∃ i, s'.subs i = ⟨url, s.fixedSid, s.nowSec + subTimeoutSec⟩ ∧
      ((s.subs i).url = url ∨ (s.subs i).url = [] ∧ ∀ j, s.Live j → (s.subs j).url ≠ url)) ∨
    s' = s ∧ ∀ i, (s.subs i).url ≠ [] ∧ (s.subs i).url ≠ url
  others : r.method = .subscribe → r.sidHeader = none → ∀ url ∈ r.callbackUrl,
    ∀ i, s.Live i → (s.subs i).url ≠ url → s'.subs i = s.subs i
  outside : ∀ i, i ≠ fixedSlot → s.Live i →
    s'.Live i ∧ (s'.subs i).url = (s.subs i).url ∧ (s.subs i).expiryTime ≤ (s'.subs i).expiryTime

/-! ## Finding a slot -/

variable {s} {s' : Subscriptions} {i j : SubSlot} {url sid : Bytes}

@[simp] theorem setSub_self (s : Subscriptions) (i : SubSlot) (sub : Subscriber) :
    (s.setSub i sub).subs i = sub := Function.update_self ..

theorem setSub_of_ne (s : Subscriptions) (sub : Subscriber) (h : j ≠ i) :
    (s.setSub i sub).subs j = s.subs j := Function.update_of_ne h ..

@[simp] theorem fixedSid_setSub (s : Subscriptions) (i : SubSlot) (sub : Subscriber) :
    (s.setSub i sub).fixedSid = s.fixedSid := rfl

theorem fixedSid_ne_nil (s : Subscriptions) : s.fixedSid ≠ [] := by
  intro hNil
  have hLength : s.fixedSid.length = 0 := by rw [hNil, List.length_nil]
  simp [fixedSid, ascii] at hLength

theorem finRange_eq : List.finRange maxSubscribers = fixedSlot :: (List.finRange maxSubscribers).tail := rfl

theorem url_of_findFreeSlot (h : s.findFreeSlot = some i) : (s.subs i).url = [] := by
  simpa using List.find?_some h

theorem url_of_findFreeSlot_none (h : s.findFreeSlot = none) (i : SubSlot) : (s.subs i).url ≠ [] := by
  simpa using List.find?_eq_none.1 h i (List.mem_finRange i)

theorem url_of_findSubByUrl (h : s.findSubByUrl url = some i) :
    (s.subs i).url ≠ [] ∧ (s.subs i).url = url := by
  simpa using List.find?_some h

theorem url_of_findSubByUrl_none (h : s.findSubByUrl url = none) (i : SubSlot)
    (hUrl : (s.subs i).url ≠ []) : (s.subs i).url ≠ url := by
  simpa [hUrl] using List.find?_eq_none.1 h i (List.mem_finRange i)

/-- A callback finds its own slot, or a free one when it has none. -/
theorem slotFor_some (h : s.slotFor url = some i) :
    (s.subs i).url = url ∨ (s.subs i).url = [] ∧ ∀ j, (s.subs j).url ≠ [] → (s.subs j).url ≠ url := by
  unfold slotFor at h
  split at h
  · rename_i k hFound
    obtain rfl := Option.some.inj h
    exact .inl (url_of_findSubByUrl hFound).2
  · rename_i hNone
    have hOther : ∀ j, (s.subs j).url ≠ [] → (s.subs j).url ≠ url := url_of_findSubByUrl_none hNone
    split at h
    · rename_i hFree
      obtain rfl := Option.some.inj h
      exact .inr ⟨hFree, hOther⟩
    · exact .inr ⟨url_of_findFreeSlot h, hOther⟩

theorem slotFor_none (h : s.slotFor url = none) (i : SubSlot) :
    (s.subs i).url ≠ [] ∧ (s.subs i).url ≠ url := by
  unfold slotFor at h
  split at h
  · contradiction
  · rename_i hNone
    split at h
    · contradiction
    · have hTaken := url_of_findFreeSlot_none h i
      exact ⟨hTaken, url_of_findSubByUrl_none hNone i hTaken⟩

/-! ## The invariant -/

/-- The fixed slot has the SID of the device from the start, and no slot has another. -/
structure SubInv (s : Subscriptions) : Prop where
  fixed : (s.subs fixedSlot).sid = s.fixedSid
  sid : ∀ i, (s.subs i).sid = [] ∨ (s.subs i).sid = s.fixedSid
  named : ∀ i, (s.subs i).url ≠ [] → (s.subs i).sid = s.fixedSid
  ownCallback : ∀ i j, i ≠ fixedSlot → j ≠ fixedSlot → (s.subs i).url ≠ [] →
    (s.subs i).url = (s.subs j).url → i = j
  expiry : ∀ i, (s.subs i).expiryTime ≤ s.nowSec + subTimeoutSec

theorem findSubBySid_eq (h : SubInv s) (sid : Bytes) :
    s.findSubBySid sid = if sid = s.fixedSid then some fixedSlot else none := by
  split
  · rename_i hSid
    rw [findSubBySid, finRange_eq, List.find?_cons_of_pos]
    simp [h.fixed, hSid, s.fixedSid_ne_nil]
  · rename_i hSid
    refine List.find?_eq_none.2 fun i _ => ?_
    rcases h.sid i with hNil | hFixed
    · simp [hNil]
    · simpa [hFixed] using fun _ hEq => hSid hEq.symm

/-- One slot gets another subscriber. -/
theorem SubInv.setSub (h : SubInv s) {sub : Subscriber} (hSid : sub.sid = s.fixedSid)
    (hExpiry : sub.expiryTime ≤ s.nowSec + subTimeoutSec)
    (hUrl : sub.url ≠ [] → i ≠ fixedSlot →
      ∀ j, j ≠ i → j ≠ fixedSlot → (s.subs j).url ≠ sub.url) : SubInv (s.setSub i sub) := by
  have hSids (j : SubSlot) : ((s.setSub i sub).subs j).sid = s.fixedSid ∨
      ((s.setSub i sub).subs j).sid = (s.subs j).sid ∧ ((s.setSub i sub).subs j).url = (s.subs j).url := by
    by_cases hj : j = i
    · exact .inl (by simp [hj, hSid])
    · exact .inr (by simp [setSub_of_ne s sub hj])
  constructor
  · exact (hSids fixedSlot).elim id fun hOld => hOld.1.trans h.fixed
  · intro j
    rcases hSids j with hNew | ⟨hOld, -⟩
    · exact .inr hNew
    · rw [hOld]
      exact h.sid j
  · intro j hTaken
    rcases hSids j with hNew | ⟨hOld, hOldUrl⟩
    · exact hNew
    · rw [hOldUrl] at hTaken
      exact hOld.trans (h.named j hTaken)
  · intro j k hj hk hTaken hSame
    by_cases hji : j = i <;> by_cases hki : k = i
    · exact hji.trans hki.symm
    · subst hji
      rw [setSub_self, setSub_of_ne s sub hki] at hSame
      rw [setSub_self] at hTaken
      exact absurd hSame.symm (hUrl hTaken hj k hki hk)
    · subst hki
      rw [setSub_self, setSub_of_ne s sub hji] at hSame
      rw [setSub_of_ne s sub hji] at hTaken
      exact absurd hSame (hUrl (hSame ▸ hTaken) hk j hji hj)
    · rw [setSub_of_ne s sub hji, setSub_of_ne s sub hki] at hSame
      rw [setSub_of_ne s sub hji] at hTaken
      exact h.ownCallback j k hj hk hTaken hSame
  · intro j
    by_cases hj : j = i
    · rw [hj, setSub_self]
      exact hExpiry
    · rw [setSub_of_ne s sub hj]
      exact h.expiry j

theorem cleanup_subs (s : Subscriptions) (i : SubSlot) :
    (s.cleanupStaleSubscriptions.subs i = s.subs i ∧ (s.Live i ∨ (s.subs i).url = [])) ∨
      s.cleanupStaleSubscriptions.subs i = { s.subs i with url := [] } ∧ s.Expired i := by
  by_cases hStale : (s.subs i).url ≠ [] ∧ s.Expired i
  · exact .inr ⟨if_pos hStale, hStale.2⟩
  · refine .inl ⟨if_neg hStale, ?_⟩
    by_cases hUrl : (s.subs i).url = []
    · exact .inr hUrl
    · exact .inl ⟨hUrl, fun hExpired => hStale ⟨hUrl, hExpired⟩⟩

theorem SubInv.cleanup (h : SubInv s) : SubInv s.cleanupStaleSubscriptions := by
  have hSids (i : SubSlot) : (s.cleanupStaleSubscriptions.subs i).sid = (s.subs i).sid ∧
      ((s.cleanupStaleSubscriptions.subs i).url ≠ [] →
        (s.cleanupStaleSubscriptions.subs i).url = (s.subs i).url) ∧
      (s.cleanupStaleSubscriptions.subs i).expiryTime = (s.subs i).expiryTime := by
    rcases s.cleanup_subs i with ⟨hEq, -⟩ | ⟨hEq, -⟩
    · rw [hEq]
      exact ⟨rfl, fun _ => rfl, rfl⟩
    · rw [hEq]
      exact ⟨rfl, fun hTaken => absurd rfl hTaken, rfl⟩
  constructor
  · exact (hSids fixedSlot).1.trans h.fixed
  · intro i
    rw [(hSids i).1]
    exact h.sid i
  · intro i hTaken
    have hUrl : (s.subs i).url ≠ [] := (hSids i).2.1 hTaken ▸ hTaken
    exact (hSids i).1.trans (h.named i hUrl)
  · intro i j hi hj hTaken hSame
    have hOldI := (hSids i).2.1 hTaken
    have hOldJ := (hSids j).2.1 (hSame ▸ hTaken)
    exact h.ownCallback i j hi hj (hOldI ▸ hTaken) (hOldI.symm.trans (hSame.trans hOldJ))
  · intro i
    rw [(hSids i).2.2]
    exact h.expiry i

/-! ## The requests -/

/-- With the invariant the rebuilding of the fixed slot is never needed. -/
theorem renew_eq (h : SubInv s) (sid : Bytes) (callback : Option Bytes) :
    s.renew sid callback =
      if sid = s.fixedSid then
        (s.renewed fixedSlot callback, .subscribed s.fixedSid subTimeoutSec)
      else (s, .preconditionFailed) := by
  rw [renew, findSubBySid_eq h]
  by_cases hSid : sid = s.fixedSid
  · simp [hSid, h.fixed]
  · simp [hSid]

/-- What a request can do. -/
theorem eventHandler_cases (h : SubInv s) (r : EventRequest) :
    (r.method = .subscribe ∧ r.sidHeader = some s.fixedSid ∧
      (s.eventHandler r).1 = s.renewed fixedSlot r.callbackUrl) ∨
    (r.method = .unsubscribe ∧ r.sidHeader = some s.fixedSid ∧
      (s.eventHandler r).1 = s.unsubscribed fixedSlot) ∨
    (∃ url i, r.method = .subscribe ∧ r.sidHeader = none ∧ r.callbackUrl = some url ∧
      s.slotFor url = some i ∧
      (s.eventHandler r).1 = (s.subscribed i url).cleanupStaleSubscriptions) ∨
    ((s.eventHandler r).1 = s ∧ (r.sidHeader = some s.fixedSid → r.method = .other) ∧
      (r.method = .subscribe → r.sidHeader = none → ∀ url ∈ r.callbackUrl, s.slotFor url = none)) := by
  cases hMethod : r.method with
  | subscribe =>
    cases hSid : r.sidHeader with
    | some sid =>
      by_cases hFixed : sid = s.fixedSid
      · exact .inl ⟨rfl, by rw [hFixed], by simp [eventHandler, hMethod, hSid, renew_eq h, hFixed]⟩
      · refine .inr (.inr (.inr ⟨?_, fun hEq => absurd (Option.some.inj hEq) hFixed, ?_⟩))
        · simp [eventHandler, hMethod, hSid, renew_eq h, hFixed]
        · simp
    | none =>
      cases hUrl : r.callbackUrl with
      | none => exact .inr (.inr (.inr ⟨by simp [eventHandler, hMethod, hSid, hUrl], by simp, by simp⟩))
      | some url =>
        cases hSlot : s.slotFor url with
        | none =>
          refine .inr (.inr (.inr ⟨?_, by simp, by simpa using hSlot⟩))
          simp [eventHandler, hMethod, hSid, hUrl, subscribe, hSlot]
        | some i =>
          refine .inr (.inr (.inl ⟨url, i, rfl, rfl, rfl, hSlot, ?_⟩))
          simp [eventHandler, hMethod, hSid, hUrl, subscribe, hSlot]
  | unsubscribe =>
    cases hSid : r.sidHeader with
    | some sid =>
      by_cases hFixed : sid = s.fixedSid
      · refine .inr (.inl ⟨rfl, by rw [hFixed], ?_⟩)
        simp [eventHandler, hMethod, hSid, findSubBySid_eq h, hFixed]
      · refine .inr (.inr (.inr ⟨?_, fun hEq => absurd (Option.some.inj hEq) hFixed, by simp⟩))
        simp [eventHandler, hMethod, hSid, findSubBySid_eq h, hFixed]
    | none => exact .inr (.inr (.inr ⟨by simp [eventHandler, hMethod, hSid], by simp, by simp⟩))
  | other => exact .inr (.inr (.inr ⟨by simp [eventHandler, hMethod], fun _ => rfl, by simp⟩))

theorem SubInv.renewed (h : SubInv s) (callback : Option Bytes) :
    SubInv (s.renewed fixedSlot callback) :=
  h.setSub h.fixed le_rfl fun _ hi => absurd rfl hi

theorem SubInv.unsubscribed (h : SubInv s) : SubInv (s.unsubscribed fixedSlot) :=
  h.setSub h.fixed (h.expiry fixedSlot) fun _ hi => absurd rfl hi

theorem SubInv.subscribed (h : SubInv s) (hSlot : s.slotFor url = some i) :
    SubInv (s.subscribed i url) := by
  refine h.setSub rfl le_rfl fun hTaken hi j hji hj hSame => ?_
  rcases slotFor_some hSlot with hOwn | ⟨-, hOther⟩
  · have hEq : (s.subs i).url = (s.subs j).url := hOwn.trans hSame.symm
    exact hji (h.ownCallback i j hi hj (hOwn ▸ hTaken) hEq).symm
  · exact hOther j (hSame ▸ hTaken) hSame

theorem SubInv.eventHandler (h : SubInv s) (r : EventRequest) : SubInv (s.eventHandler r).1 := by
  rcases eventHandler_cases h r with
    ⟨-, -, hEq⟩ | ⟨-, -, hEq⟩ | ⟨url, i, -, -, -, hSlot, hEq⟩ | ⟨hEq, -, -⟩
  all_goals rw [hEq]
  exacts [h.renewed _, h.unsubscribed, (h.subscribed hSlot).cleanup, h]

theorem SubInv.step (h : SubInv s) {a : EventAction} (hStep : s.step a = some s') : SubInv s' := by
  cases a with
  | request sender r => exact Option.some.inj hStep ▸ h.eventHandler r
  | cleanup => exact Option.some.inj hStep ▸ h.cleanup
  | tick us =>
    obtain rfl := Option.some.inj hStep
    refine ⟨h.fixed, h.sid, h.named, h.ownCallback, fun i => (h.expiry i).trans ?_⟩
    unfold nowSec
    push_cast
    omega

theorem subs_init (uuid : Option Bytes) (nowUs : Nat) (i : SubSlot) :
    ((customDlnaInit uuid nowUs).subs i).url = [] ∧
      (((customDlnaInit uuid nowUs).subs i).sid = [] ∨
        ((customDlnaInit uuid nowUs).subs i).sid = (customDlnaInit uuid nowUs).fixedSid) ∧
      ((customDlnaInit uuid nowUs).subs i).expiryTime ≤
        (customDlnaInit uuid nowUs).nowSec + subTimeoutSec := by
  by_cases hi : i = fixedSlot
  · rw [hi, customDlnaInit, setSub_self]
    exact ⟨rfl, .inr rfl, le_rfl⟩
  · rw [customDlnaInit, setSub_of_ne _ _ hi]
    refine ⟨rfl, .inl rfl, ?_⟩
    have hZero : (0 : Int) ≤ (nowUs : Int) / 1000000 := by omega
    exact hZero.trans (Int.le_add_of_nonneg_right (by decide))

theorem subInv_init (uuid : Option Bytes) (nowUs : Nat) : SubInv (customDlnaInit uuid nowUs) where
  fixed := by rw [customDlnaInit, setSub_self, fixedSid_setSub]
  sid i := (subs_init uuid nowUs i).2.1
  named i hTaken := absurd (subs_init uuid nowUs i).1 hTaken
  ownCallback i _ _ _ hTaken := absurd (subs_init uuid nowUs i).1 hTaken
  expiry i := (subs_init uuid nowUs i).2.2

/-! ## What the control points get -/

theorem Live.of_renewed (h : s.Live j) (sub : Subscriber) (hj : j ≠ i) :
    (s.setSub i sub).Live j ∧ (s.setSub i sub).subs j = s.subs j := by
  have hSub := setSub_of_ne s sub hj
  refine ⟨?_, hSub⟩
  rw [Live, Expired, hSub]
  exact h

/-- What has not expired stays. -/
theorem Live.cleanup (h : s.Live i) :
    s.cleanupStaleSubscriptions.Live i ∧ s.cleanupStaleSubscriptions.subs i = s.subs i := by
  have hSub : s.cleanupStaleSubscriptions.subs i = s.subs i := if_neg fun hStale => h.2 hStale.2
  refine ⟨?_, hSub⟩
  rw [Live, Expired, hSub]
  exact h

theorem not_subTimeout_lt (s : Subscriptions) : ¬s.nowSec + subTimeoutSec < s.nowSec := by
  unfold subTimeoutSec
  omega

/-- What has just been written has not expired. -/
theorem cleanup_subscribed (s : Subscriptions) (i : SubSlot) (url : Bytes) :
    (s.subscribed i url).cleanupStaleSubscriptions.subs i =
      ⟨url, s.fixedSid, s.nowSec + subTimeoutSec⟩ := by
  have hSub : (s.subscribed i url).subs i = ⟨url, s.fixedSid, s.nowSec + subTimeoutSec⟩ := setSub_self ..
  rcases (s.subscribed i url).cleanup_subs i with ⟨hEq, -⟩ | ⟨-, hExpired⟩
  · exact hEq.trans hSub
  · have hLate : s.nowSec + subTimeoutSec < s.nowSec := by
      rw [Expired, hSub] at hExpired
      exact hExpired.2
    exact absurd hLate (not_subTimeout_lt s)

theorem Live.of_subscribed (h : s.Live j) (hj : j ≠ i) (url : Bytes) :
    (s.subscribed i url).cleanupStaleSubscriptions.Live j ∧
      (s.subscribed i url).cleanupStaleSubscriptions.subs j = s.subs j := by
  obtain ⟨hLive, hSub⟩ := h.of_renewed ⟨url, s.fixedSid, s.nowSec + subTimeoutSec⟩ hj
  exact ⟨hLive.cleanup.1, hLive.cleanup.2.trans hSub⟩

/-- **One request.** -/
theorem SubInv.served (h : SubInv s) (r : EventRequest) : s.Served r (s.eventHandler r).1 := by
  have hAfter : SubInv (s.eventHandler r).1 := h.eventHandler r
  have hOwn (i j : SubSlot) (hi : i ≠ fixedSlot) (hj : j ≠ fixedSlot)
      (hLive : (s.eventHandler r).1.Live i) (hSame : _) : i = j :=
    hAfter.ownCallback i j hi hj hLive.1 hSame
  rcases eventHandler_cases h r with
    ⟨hMethod, hSid, hEq⟩ | ⟨hMethod, hSid, hEq⟩ | ⟨url, i, hMethod, hSid, hUrl, hSlot, hEq⟩ |
      ⟨hEq, hOther, hNone⟩
  · refine ⟨hAfter.named, hOwn, fun _ _ => hEq, ?_, ?_, ?_, ?_, fun j hj hLive => ?_⟩
    · simp [hMethod]
    · simp [hSid]
    · simp [hSid]
    · simp [hSid]
    · obtain ⟨hStill, hSub⟩ := hLive.of_renewed _ hj
      rw [hEq]
      exact ⟨hStill, congrArg Subscriber.url hSub, (congrArg Subscriber.expiryTime hSub).ge⟩
  · refine ⟨hAfter.named, hOwn, ?_, fun _ _ => hEq, ?_, ?_, ?_, fun j hj hLive => ?_⟩
    · simp [hMethod]
    · simp [hSid]
    · simp [hMethod]
    · simp [hMethod]
    · obtain ⟨hStill, hSub⟩ := hLive.of_renewed _ hj
      rw [hEq]
      exact ⟨hStill, congrArg Subscriber.url hSub, (congrArg Subscriber.expiryTime hSub).ge⟩
  · have hNew := cleanup_subscribed s i url
    have hWas := slotFor_some hSlot
    have hForeign (j : SubSlot) (hLive : s.Live j) (hUrl' : (s.subs j).url ≠ url) : j ≠ i := by
      rintro rfl
      rcases hWas with hOwnUrl | ⟨hFree, -⟩
      · exact hUrl' hOwnUrl
      · exact hLive.1 hFree
    refine ⟨hAfter.named, hOwn, ?_, ?_, ?_, fun _ _ url' hUrl' => ?_, fun _ _ url' hUrl' j hLive hOther => ?_,
      fun j hj hLive => ?_⟩
    · simp [hSid]
    · simp [hSid]
    · simp [hSid]
    · obtain rfl : url = url' := by simpa [hUrl] using hUrl'
      rw [hEq]
      exact .inl ⟨i, hNew, hWas.imp_right fun hFree => ⟨hFree.1, fun j hLive => hFree.2 j hLive.1⟩⟩
    · obtain rfl : url = url' := by simpa [hUrl] using hUrl'
      rw [hEq]
      exact (hLive.of_subscribed (hForeign j hLive hOther) url).2
    · rw [hEq]
      by_cases hji : j = i
      · -- the callback's own subscription, which lasts longer now
        subst hji
        have hOwnUrl : (s.subs j).url = url := hWas.resolve_right fun hFree => hLive.1 hFree.1
        rw [Live, Expired, hNew]
        refine ⟨⟨hOwnUrl ▸ hLive.1, fun hExpired => ?_⟩, hOwnUrl.symm, h.expiry j⟩
        exact absurd hExpired.2 (not_subTimeout_lt s)
      · obtain ⟨hStill, hSub⟩ := hLive.of_subscribed hji url
        exact ⟨hStill, congrArg Subscriber.url hSub, (congrArg Subscriber.expiryTime hSub).ge⟩
  · refine ⟨hAfter.named, hOwn, ?_, ?_, fun _ _ _ => hEq, fun hMethod hSid url hUrl => ?_, ?_, ?_⟩
    · intro hMethod hSid
      rw [hOther hSid] at hMethod
      contradiction
    · intro hMethod hSid
      rw [hOther hSid] at hMethod
      contradiction
    · exact .inr ⟨hEq, slotFor_none (hNone hMethod hSid url hUrl)⟩
    · intro _ _ _ _ j _ _
      rw [hEq]
    · intro j _ hLive
      rw [hEq]
      exact ⟨hLive, rfl, le_rfl⟩

/-- What one step does to the subscriptions that are live; only time ends them by itself. -/
def ServedBy (s : Subscriptions) : EventAction → Subscriptions → Prop
  | .request _ r, s' => s.Served r s'
  | .cleanup, s' => ∀ i, s.Live i → s'.subs i = s.subs i
  | .tick _, s' => s'.subs = s.subs

theorem SubInv.servedBy (h : SubInv s) {a : EventAction} (hStep : s.step a = some s') :
    s.ServedBy a s' := by
  cases a with
  | request sender r => exact Option.some.inj hStep ▸ h.served r
  | cleanup => exact Option.some.inj hStep ▸ fun i hLive => hLive.cleanup.2
  | tick us => exact Option.some.inj hStep ▸ rfl

/-- **Every run.** A SID stands for the fixed slot and a callback for its own, and nothing
else is touched. -/
theorem served_along (uuid : Option Bytes) (nowUs : Nat) (as : List EventAction) :
    Along step ServedBy (customDlnaInit uuid nowUs) as :=
  have hAny : Along step (fun _ _ _ => True) (customDlnaInit uuid nowUs) as :=
    Along.of_forall (fun _ _ _ _ => trivial) _ _
  Along.of_invariant (fun _ _ _ hInv hStep _ => ⟨hInv.step hStep, hInv.servedBy hStep⟩)
    (subInv_init uuid nowUs) hAny

/-! ## One SID for all -/

def ExclusiveBy (s : Subscriptions) : EventAction → Subscriptions → Prop
  | .request sender r, s' => s.Exclusive sender r s'
  | .cleanup, _ | .tick _, _ => True

/-- The slot of the second control point. -/
def nextSlot : SubSlot := ⟨1, by decide⟩

/-- SUBSCRIBE for the first time. -/
def newSubscription (url : Bytes) : EventAction :=
  .request url ⟨.subscribe, none, some (ascii "<" ++ url ++ ascii ">")⟩

/-- Two control points subscribe, and are given the same SID. -/
theorem subscriptions_share : ¬∀ (uuid : Option Bytes) (nowUs : Nat) (as : List EventAction),
    (∀ a ∈ as, a.Honest) → Along step ExclusiveBy (customDlnaInit uuid nowUs) as := by
  intro hAll
  obtain ⟨s, s', hRun, hStep, hBoth⟩ := exists_last_of_any
    (show (run step (customDlnaInit none 0) [newSubscription (ascii "http://a/")]).any
      (fun s => (s.step (newSubscription (ascii "http://b/"))).any fun s' =>
        decide (s'.Live fixedSlot ∧ s'.Live nextSlot ∧
          (s'.subs fixedSlot).sid = (s'.subs nextSlot).sid)) = true by decide +kernel)
  obtain ⟨hLive, hLive', hSid⟩ := of_decide_eq_true hBoth
  have hHonest : ∀ a ∈ [newSubscription (ascii "http://a/")] ++ [newSubscription (ascii "http://b/")],
      a.Honest := by
    intro a hMem
    simp only [List.mem_append, List.mem_singleton] at hMem
    rcases hMem with rfl | rfl
    · show ∀ url ∈ _, url = _
      decide +kernel
    · show ∀ url ∈ _, url = _
      decide +kernel
  have hOwn := ((hAll none 0 _ hHonest).last hRun hStep).ownSid fixedSlot nextSlot hLive hLive' hSid
  exact absurd hOwn (by decide)

end Subscriptions

end EspMiplay.Dlna
