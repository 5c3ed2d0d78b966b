import EspMiplay.Dlna.Grace
import EspMiplay.Dlna.Subscriptions

/-!
# Events to the control points

A change of the state is a signal in a queue: `gena_task` takes it, reads the state then and
sends what it has read to one subscriber after the other. Events of the volume share the
queue. `pos_notify_task` sends the state too, every three seconds while it is PLAYING; the
two take turns in `gena_notify`, each with the text it has brought along.

Within the grace period STOPPED and TRANSITIONING are reported as PLAYING, and no signal
comes when it ends.

What is sent is modelled as far as TransportState goes (`none` for an event of the volume),
and `told` is the ghost: what a subscriber was last sent since it subscribed.

## Results

* `Covered.step`     — what is kept: each subscriber has been told, or is about to be.
* `consistent_along` — at rest each has been told the state, along runs that lose no event.
* `stop_unnoticed`   — a Stop that is told as PLAYING.
-/

namespace EspMiplay.Dlna

open Transition
open EspMiplay.Miplay (Bytes ascii peek)

/-- `state_str` -/
def stateStr : PlayState → Bytes
  | .playing => ascii "PLAYING"
  | .paused => ascii "PAUSED_PLAYBACK"
  | .noMedia => ascii "NO_MEDIA_PRESENT"
  | .transitioning => ascii "TRANSITIONING"
  | .stopped => ascii "STOPPED"

/-- `DLNA_STATE_PLAYING` -/
def dlnaStatePlaying : Bytes := ascii "PLAYING"

/-- What is reported as PLAYING in the grace period -/
def PlayState.Masked (s : PlayState) : Prop := s = .playing ∨ s = .stopped ∨ s = .transitioning

instance (s : PlayState) : Decidable s.Masked := inferInstanceAs (Decidable (_ ∨ _))

namespace Player

/-- `cb_get_transport_state` -/
def cbGetTransportState (p : Player) : Bytes :=
  if p.nowUs < p.graceUntil ∧ p.state.Masked then dlnaStatePlaying else stateStr p.state

/-- With this wake-up `cb_next` or `cb_previous` comes to its end. -/
def Returns (p : Player) (s : Sleep) (p' : Player) : Prop :=
  match s with
  | .promote | .previous | .retry _ _ (.next _) | .retry _ _ .previous => p'.sleepers = p.sleepers
  | .waitNext generation trackSeq waited =>
    (p.hasNext ∧ p'.sleepers = p.sleepers) ∨ p.WaitsOut generation trackSeq waited
  | .switch _ | .retry _ _ (.switched _) | .retry _ _ .fresh | .seek _ | .seekDone | .notify _ _ | .deferred _
  | .deferredPaused _ | .deferredDone _ | .noNext => False

instance (p p' : Player) : ∀ s, Decidable (p.Returns s p')
  | .promote | .previous | .retry _ _ (.next _) | .retry _ _ .previous =>
    inferInstanceAs (Decidable (p'.sleepers = p.sleepers))
  | .waitNext generation trackSeq waited =>
    inferInstanceAs (Decidable ((p.hasNext ∧ p'.sleepers = p.sleepers) ∨ p.WaitsOut generation trackSeq waited))
  | .switch _ | .retry _ _ (.switched _) | .retry _ _ .fresh | .seek _ | .seekDone | .notify _ _ | .deferred _
  | .deferredPaused _ | .deferredDone _ | .noNext => .isFalse not_false

end Player

namespace Speaker

variable (s : Speaker)

/-- Play sets the state twice when it ends the MiPlay mode. -/
def passed : SpeakerAction → List PlayState
  | .player (.soap .play _) ends => [(s.detach ends).player.state]
  | _ => []

/-- The handlers that call `custom_dlna_notify_transport_state_async` whatever the state -/
def Asks (a : SpeakerAction) (s' : Speaker) : Prop :=
  match a with
  | .player (.soap (.setUri uri _) _) _ => peek uri ≠ 0
  | .player (.soap .previous _) _ => s.connected = false ∧ s.player.trackUri = none
  | .player (.track _) _ =>
    s.connected = false ∧ s.player.trackUri = none ∧ s.player.presses.head? = some false
  | .player (.wake n _) _ =>
    ∃ x ∈ s.player.sleepers[n]?, x.2 = .noNext ∨ (s.player.without n).Returns x.2 s'.player
  | _ => False

instance (s s' : Speaker) : ∀ a, Decidable (s.Asks a s')
  | .player (.soap (.setUri uri _) _) _ => inferInstanceAs (Decidable (peek uri ≠ 0))
  | .player (.soap .previous _) _ =>
    inferInstanceAs (Decidable (s.connected = false ∧ s.player.trackUri = none))
  | .player (.track _) _ =>
    inferInstanceAs (Decidable
      (s.connected = false ∧ s.player.trackUri = none ∧ s.player.presses.head? = some false))
  | .player (.wake n _) _ =>
    inferInstanceAs (Decidable
      (∃ x ∈ s.player.sleepers[n]?, x.2 = .noNext ∨ (s.player.without n).Returns x.2 s'.player))
  | .player (.soap (.setNextUri _ _) _) _ | .player (.soap .play _) _ | .player (.soap .pause _) _
  | .player (.soap .stop _) _ | .player (.soap (.seek _) _) _ | .player (.soap .next _) _
  | .player (.toggle _) _ | .player (.press _) _ | .player (.pipe _) _ | .player (.wifi _) _
  | .player (.ui _) _ | .player (.tick _) _ | .connected _ _ _ | .media _ _ _ | .miplay _ => .isFalse not_false

end Speaker

/-- `notify_msg_t`: with no data it is a signal -/
inductive Notice where
  | signal
  | rcs
  deriving DecidableEq

/-- `NOTIFY_QUEUE_LEN` -/
def notifyQueueLen : Nat := 16

/-- Where `gena_task` or `pos_notify_task` is -/
inductive Notifier where
  | idle
  /-- `pos_notify_task` has taken the semaphore -/
  | woken
  /-- in `custom_dlna_notify_transport_state` -/
  | called
  /-- before the mutex of `gena_notify` -/
  | built (text : Option Bytes)
  /-- in `gena_notify`, before these slots -/
  | sending (nowSec : Int) (text : Option Bytes) (rest : List SubSlot)
  deriving DecidableEq

namespace Notifier

/-- The task holds the mutex. -/
def holds : Notifier → Bool
  | .sending _ _ _ => true
  | .idle | .woken | .called | .built _ => false

/-- The state that has been read -/
def text : Notifier → Option Bytes
  | .built text | .sending _ text _ => text
  | .idle | .woken | .called => none

/-- The state that has been read is still to be sent to the slot. -/
def WillTell (i : SubSlot) : Notifier → Prop
  | .built text => text.isSome
  | .sending _ text rest => text.isSome ∧ i ∈ rest
  | .idle | .woken | .called => False

end Notifier

structure Eventing where
  speaker : Speaker
  subs : Subscriptions
  /-- `s_last_notified` -/
  lastNotified : PlayState
  /-- `notify_queue` -/
  queue : List Notice
  gena : Notifier
  pos : Notifier
  /-- `s_pos_notify_sem` -/
  posSem : Bool
  /-- the ghost: the TransportState last sent since the subscription began -/
  told : SubSlot → Option Bytes

inductive EventingAction where
  | speaker (a : SpeakerAction)
  /-- `apply_volume_hw` -/
  | volume
  /-- a request to the URL of the events -/
  | request (r : EventRequest)
  /-- `periodic_pos_notify_cb` -/
  | timer
  /-- `gena_task` goes on -/
  | gena
  /-- `pos_notify_task` goes on -/
  | pos

/-- A control point can be reached at such a URL. -/
def httpUrl (url : Bytes) : Bool := (ascii "http://").isPrefixOf url

/-- The slot that a SUBSCRIBE without a SID is given -/
def Subscriptions.newSlot (s : Subscriptions) (r : EventRequest) : Option SubSlot :=
  if r.method = .subscribe ∧ r.sidHeader = none then r.callbackUrl.bind s.slotFor else none

/-- The time that passes in a step -/
def SpeakerAction.us : SpeakerAction → Nat
  | .player (.tick us) _ => us
  | _ => 0

namespace Eventing

variable (e : Eventing)

def state : PlayState := e.speaker.player.state

/-- What GetTransportInfo reports -/
def transportState : Bytes := e.speaker.player.cbGetTransportState

/-! ## The queue -/

/-- `xQueueSend` -/
def push (notice : Notice) : Eventing :=
  if e.queue.length < notifyQueueLen then { e with queue := e.queue ++ [notice] } else e

/-- The second half of `set_state` -/
def announce (s : PlayState) : Eventing :=
  if s ≠ e.lastNotified then { e with lastNotified := s }.push .signal else e

def cleanup : Eventing := { e with subs := e.subs.cleanupStaleSubscriptions }

/-- `custom_dlna_notify_rcs` -/
def notifyRcs : Eventing := e.cleanup.push .rcs

/-! ## Sending -/

/-- One turn of the loop of `gena_notify` -/
def sendTo (nowSec : Int) (text : Option Bytes) (i : SubSlot) : Eventing :=
  if (e.subs.subs i).url = [] then e
  else if 0 < (e.subs.subs i).expiryTime ∧ (e.subs.subs i).expiryTime < nowSec then
    { e with subs := e.subs.unsubscribed i }
  else if httpUrl (e.subs.subs i).url then
    { e with told := Function.update e.told i (text <|> e.told i) }
  else e

/-- `custom_dlna_notify_transport_state` and `gena_notify`; `other` is where the other task is. -/
def notify (other : Notifier) : Notifier → Option (Eventing × Notifier)
  | .called => some (e.cleanup, .built (some e.transportState))
  | .built text =>
    if other.holds then none else some (e, .sending e.subs.nowSec text (List.finRange maxSubscribers))
  | .sending nowSec text (i :: rest) => some (e.sendTo nowSec text i, .sending nowSec text rest)
  | .sending _ _ [] => some (e, .idle)
  | .idle | .woken => none

/-- `gena_task` -/
def genaStep : Option Eventing :=
  match e.gena with
  | .idle =>
    match e.queue with
    | [] => none
    | .signal :: rest => some { e with queue := rest, gena := .called }
    | .rcs :: rest => some { e with queue := rest, gena := .built none }
  | gena => (e.notify e.pos gena).map fun x => { x.1 with gena := x.2 }

/-- `pos_notify_task` -/
def posStep : Option Eventing :=
  match e.pos with
  | .idle => if e.posSem then some { e with posSem := false, pos := .woken } else none
  | .woken => some { e with pos := if e.transportState = dlnaStatePlaying then .called else .idle }
  | pos => (e.notify e.gena pos).map fun x => { x.1 with pos := x.2 }

/-! ## Steps -/

/-- The state has been set in a handler of the speaker. -/
def handled (a : SpeakerAction) (s' : Speaker) : Eventing :=
  (e.speaker.passed a ++ [s'.player.state]).foldl announce
    { e with speaker := s', subs := { e.subs with nowUs := e.subs.nowUs + a.us } }

def speakerStep (a : SpeakerAction) : Option Eventing :=
  (e.speaker.step a).map fun s' =>
    if e.speaker.Asks a s' then (e.handled a s').push .signal else e.handled a s'

/-- What a subscriber was told before is of no account once its slot is given anew. -/
def toldAfter (r : EventRequest) (i : SubSlot) : Option Bytes :=
  if ((e.subs.eventHandler r).1.subs i).url ≠ (e.subs.subs i).url ∨ e.subs.newSlot r = some i then none
  else e.told i

/-- `event_handler`; a new subscriber is sent both events. -/
def onRequest (r : EventRequest) : Eventing :=
  if (e.subs.newSlot r).isSome then
    ({ e with subs := (e.subs.eventHandler r).1, told := e.toldAfter r }.push .signal).push .rcs
  else { e with subs := (e.subs.eventHandler r).1, told := e.toldAfter r }

def step (e : Eventing) : EventingAction → Option Eventing
  | .speaker a => e.speakerStep a
  | .volume => some e.notifyRcs
  | .request r => if e.speaker.player.free .soap then some (e.onRequest r) else none
  | .timer => some { e with posSem := true }
  | .gena => e.genaStep
  | .pos => e.posStep

/-- `custom_dlna_init` -/
def boot (uuid : Option Bytes) (nowUs : Nat) : Eventing where
  speaker := .boot nowUs
  subs := .customDlnaInit uuid nowUs
  lastNotified := .stopped
  queue := []
  gena := .idle
  pos := .idle
  posSem := false
  told _ := none

/-! ## What is wanted -/

/-- The queue is empty, both tasks are idle, and the grace period is over. -/
structure AtRest : Prop where
  queue : e.queue = []
  gena : e.gena = .idle
  pos : e.pos = .idle
  grace : e.speaker.player.graceUntil ≤ e.speaker.player.nowUs

/-- At rest each live subscriber was last told the state that GetTransportInfo reports. -/
def Consistent : Prop :=
  e.AtRest → ∀ i, e.subs.Live i → httpUrl (e.subs.subs i).url → e.told i = some e.transportState

/-- A signal will be found in the queue, or the state is about to be read. -/
def Pending : Prop := .signal ∈ e.queue ∨ e.gena = .called

/-- There is room for a signal in the queue, or one in it already. -/
def Room : Prop := e.queue.length < notifyQueueLen ∨ .signal ∈ e.queue

/-- Events are sent to it, unless it has expired by then. -/
def Listens (i : SubSlot) : Prop := (e.subs.subs i).url ≠ [] ∧ httpUrl (e.subs.subs i).url

/-- No subscriber has been told PLAYING for something else, or it will be told again. -/
def Unmasked : Prop :=
  e.Pending ∨ e.gena.text ≠ some dlnaStatePlaying ∧
    ∀ i, e.Listens i → e.told i = some dlnaStatePlaying → e.gena.WillTell i

/-- The text is true of the state, or of what is reported. -/
def Right (text : Bytes) : Prop := text = stateStr e.state ∨ text = e.transportState

/-- The grace period ends before what it hides does. -/
def Uncovers (us : Nat) : Prop :=
  e.speaker.player.nowUs < e.speaker.player.graceUntil ∧
    e.speaker.player.graceUntil ≤ e.speaker.player.nowUs + us ∧ e.state ≠ .playing ∧ e.state.Masked

/-- What `pos_notify_task` sends is still true, or is followed by what is. -/
def Timely : Notifier → Prop
  | .sending _ (some text) (i :: _) => e.Right text ∨ e.Pending ∨ e.gena.WillTell i
  | _ => True

/-- The step loses no event. -/
def Lossless (e : Eventing) (a : EventingAction) (e' : Eventing) : Prop :=
  match a with
  | .speaker a => (e'.state ≠ e.state → e.Room) ∧ (e.Uncovers a.us → e.Unmasked)
  | .request r =>
    ((e.subs.newSlot r).isSome → e.Room) ∧
      (r.method = .subscribe → r.sidHeader = some e.subs.fixedSid →
        Subscriptions.renewedUrl (e.subs.subs fixedSlot).url r.callbackUrl ≠ (e.subs.subs fixedSlot).url →
        e.Pending ∨ e.gena.WillTell fixedSlot)
  | .pos => e.Timely e.pos
  | .volume | .timer | .gena => True

/-! ## The invariant -/

variable {e} {e' : Eventing} {right right' : Bytes → Prop}

/-- Each subscriber has been told what is right, or is about to be. -/
def Covered (right : Bytes → Prop) (e : Eventing) : Prop :=
  e.Pending ∨ (∀ text ∈ e.gena.text, right text) ∧
    ∀ i, e.Listens i → e.gena.WillTell i ∨ ∃ text ∈ e.told i, right text

/-- Nothing is lost while the queue only grows and the subscribers stay. -/
theorem Covered.mono (h : Covered right e) (hQueue : .signal ∈ e.queue → .signal ∈ e'.queue)
    (hGena : e'.gena = e.gena) (hTold : e'.told = e.told) (hListens : ∀ i, e'.Listens i → e.Listens i)
    (hRight : ∀ text, right text → right' text) : Covered right' e' := by
  rcases h with (hSignal | hCalled) | ⟨hText, hAll⟩
  · exact .inl (.inl (hQueue hSignal))
  · exact .inl (.inr (hGena.trans hCalled))
  · rw [Covered, hGena, hTold]
    refine .inr ⟨fun text hIs => hRight text (hText text hIs), fun i hi => ?_⟩
    refine (hAll i (hListens i hi)).imp_right fun hTrue => ?_
    obtain ⟨text, hIs, hOk⟩ := hTrue
    exact ⟨text, hIs, hRight text hOk⟩

/-- At rest nothing is under way. -/
theorem Covered.told (h : Covered right e) (hRest : e.AtRest) {i : SubSlot} (hi : e.Listens i) :
    ∃ text ∈ e.told i, right text := by
  rcases h with (hSignal | hCalled) | ⟨-, hAll⟩
  · rw [hRest.queue] at hSignal
    contradiction
  · rw [hRest.gena] at hCalled
    contradiction
  · refine (hAll i hi).resolve_left fun hWill => ?_
    rw [hRest.gena] at hWill
    exact hWill

structure EventingInv (e : Eventing) : Prop where
  subs : Subscriptions.SubInv e.subs
  notified : e.lastNotified = e.state
  covered : Covered e.Right e

theorem transportState_of_over (h : e.speaker.player.graceUntil ≤ e.speaker.player.nowUs) :
    e.transportState = stateStr e.state :=
  if_neg fun hMasked => absurd hMasked.1 (not_lt.2 h)

theorem EventingInv.consistent (h : EventingInv e) : e.Consistent := by
  intro hRest i hLive hUrl
  obtain ⟨text, hTold, hRight⟩ := h.covered.told hRest ⟨hLive.1, hUrl⟩
  have hReported := transportState_of_over hRest.grace
  rw [show e.told i = some text from hTold]
  rcases hRight with hState | hReport
  · rw [hState, hReported]
  · rw [hReport]

/-! ## The queue -/

theorem mem_push (e : Eventing) (notice : Notice) (h : .signal ∈ e.queue) : .signal ∈ (e.push notice).queue := by
  unfold push
  split_ifs
  · exact List.mem_append_left _ h
  · exact h

theorem push_eq (e : Eventing) (notice : Notice) : ∃ queue, e.push notice = { e with queue := queue } := by
  unfold push
  split_ifs
  exacts [⟨_, rfl⟩, ⟨_, rfl⟩]

/-- A signal that finds no room finds another signal. -/
theorem mem_push_signal (h : e.Room) : .signal ∈ (e.push .signal).queue := by
  rcases h with hShort | hSignal
  · rw [push, if_pos hShort]
    exact List.mem_append_right _ (List.mem_singleton_self _)
  · exact e.mem_push .signal hSignal

theorem announce_eq (e : Eventing) (s : PlayState) :
    ∃ queue, e.announce s = { e with lastNotified := s, queue := queue } ∧
      (.signal ∈ e.queue → .signal ∈ queue) ∧ (s ≠ e.lastNotified → e.Room → .signal ∈ queue) := by
  unfold announce
  split_ifs with hSame
  · obtain ⟨queue, hEq⟩ := push_eq { e with lastNotified := s } .signal
    have hQueue : queue = (push { e with lastNotified := s } .signal).queue := by rw [hEq]
    refine ⟨queue, hEq, fun hSignal => ?_, fun _ hRoom => ?_⟩
    · rw [hQueue]
      exact mem_push { e with lastNotified := s } .signal hSignal
    · rw [hQueue]
      exact mem_push_signal (e := { e with lastNotified := s }) hRoom
  · obtain rfl : s = e.lastNotified := not_not.1 hSame
    exact ⟨e.queue, rfl, id, fun hNe => absurd rfl hNe⟩

/-- One state after the other is set. -/
theorem foldl_announce (e : Eventing) (states : List PlayState) (s : PlayState) :
    ∃ queue, (states ++ [s]).foldl announce e = { e with lastNotified := s, queue := queue } ∧
      (.signal ∈ e.queue → .signal ∈ queue) ∧ (s ≠ e.lastNotified → e.Room → .signal ∈ queue) := by
  induction states generalizing e with
  | nil => exact e.announce_eq s
  | cons first states ih =>
    rw [List.cons_append, List.foldl_cons]
    by_cases hSame : first = e.lastNotified
    · rw [show e.announce first = e from if_neg (not_not.2 hSame)]
      exact ih e
    · obtain ⟨queue, hEq, hKept, hFirst⟩ := e.announce_eq first
      obtain ⟨queue', hEq', hKept', -⟩ := ih { e with lastNotified := first, queue := queue }
      rw [hEq, hEq']
      exact ⟨queue', rfl, fun hSignal => hKept' (hKept hSignal), fun _ hRoom => hKept' (hFirst hSame hRoom)⟩

/-! ## The handlers of the speaker -/

/-- What a step of the speaker makes of the rest -/
theorem speakerStep_eq {a : SpeakerAction} (hStep : e.speakerStep a = some e') (hNotified : e.lastNotified = e.state) :
    ∃ s' queue, e.speaker.step a = some s' ∧
      e' = { e with
        speaker := s'
        subs := { e.subs with nowUs := e.subs.nowUs + a.us }
        lastNotified := s'.player.state
        queue := queue } ∧
      (.signal ∈ e.queue → .signal ∈ queue) ∧ (s'.player.state ≠ e.state → e.Room → .signal ∈ queue) := by
  obtain ⟨s', hSpeaker, hEq⟩ := Option.map_eq_some_iff.1 hStep
  obtain ⟨queue, hHandled, hKept, hNew⟩ := foldl_announce
    { e with speaker := s', subs := { e.subs with nowUs := e.subs.nowUs + a.us } }
    (e.speaker.passed a) s'.player.state
  rw [← hNotified]
  split_ifs at hEq
  · obtain ⟨queue', hPushed⟩ := push_eq (e.handled a s') .signal
    have hQueue : queue' = ((e.handled a s').push .signal).queue := by rw [hPushed]
    have hGrows (hSignal : .signal ∈ queue) : .signal ∈ queue' := by
      rw [hQueue]
      refine mem_push (e.handled a s') .signal ?_
      rw [show (e.handled a s').queue = queue from congrArg Eventing.queue hHandled]
      exact hSignal
    refine ⟨s', queue', hSpeaker, ?_, fun hSignal => hGrows (hKept hSignal), fun hNe hRoom => hGrows (hNew hNe hRoom)⟩
    rw [← hEq, hPushed, handled, hHandled]
  · exact ⟨s', queue, hSpeaker, hEq.symm.trans hHandled, hKept, hNew⟩

/-- What was right stays so while the state stays, unless the grace period ends over it. -/
theorem Right.of_state (hState : e'.state = e.state)
    (hGrace : e.speaker.player.nowUs < e.speaker.player.graceUntil → e.state ≠ .playing → e.state.Masked →
      e'.speaker.player.nowUs < e'.speaker.player.graceUntil)
    {text : Bytes} (h : e.Right text) : e'.Right text := by
  rw [Right, hState]
  refine h.elim .inl fun hText => ?_
  by_cases hMasked : e.speaker.player.nowUs < e.speaker.player.graceUntil ∧ e.state.Masked
  · have hReported : e.transportState = dlnaStatePlaying := if_pos hMasked
    by_cases hPlaying : e.state = .playing
    · refine .inl (hText.trans (hReported.trans ?_))
      rw [hPlaying]
      rfl
    · have hStill : e'.speaker.player.nowUs < e'.speaker.player.graceUntil ∧ e'.state.Masked :=
        ⟨hGrace hMasked.1 hPlaying hMasked.2, hState ▸ hMasked.2⟩
      have hReports : e'.transportState = dlnaStatePlaying := if_pos hStill
      exact .inr (hText.trans (hReported.trans hReports.symm))
  · exact .inl (hText.trans (if_neg hMasked))

/-- When nothing masked is out, the end of the grace period makes nothing wrong. -/
theorem Unmasked.covered (h : e.Unmasked) (hCovered : Covered e.Right e) :
    Covered (· = stateStr e.state) e := by
  rcases h with hPending | ⟨hText, hTold⟩
  · exact .inl hPending
  · have hBare {text : Bytes} (hRight : e.Right text) (hNot : text ≠ dlnaStatePlaying) : text = stateStr e.state := by
      refine hRight.elim id fun hReport => ?_
      rw [transportState, Player.cbGetTransportState] at hReport
      split_ifs at hReport
      · exact absurd hReport hNot
      · exact hReport
    refine hCovered.imp_right fun hBoth => ⟨fun text hIs => ?_, fun i hi => ?_⟩
    · exact hBare (hBoth.1 text hIs) fun hEq => hText (hEq ▸ hIs)
    · rcases hBoth.2 i hi with hWill | ⟨text, hIs, hRight⟩
      · exact .inl hWill
      · by_cases hPlaying : text = dlnaStatePlaying
        · exact .inl (hTold i hi (hPlaying ▸ hIs))
        · exact .inr ⟨text, hIs, hBare hRight hPlaying⟩

theorem Covered.speaker {a : SpeakerAction} (h : EventingInv e) (hStep : e.speakerStep a = some e')
    (hOk : e.Lossless (.speaker a) e') : Covered e'.Right e' := by
  obtain ⟨s', queue, hSpeaker, hEq, hKept, hNew⟩ := speakerStep_eq hStep h.notified
  have hSpeaker' : e'.speaker = s' := by rw [hEq]
  have hQueue : e'.queue = queue := by rw [hEq]
  have hGena : e'.gena = e.gena := by rw [hEq]
  have hTold : e'.told = e.told := by rw [hEq]
  have hListens (i : SubSlot) (hi : e'.Listens i) : e.Listens i := by
    rw [hEq] at hi
    exact hi
  rw [← hSpeaker', ← hQueue] at hNew
  rw [← hQueue] at hKept
  by_cases hState : e'.state = e.state
  · by_cases hEnds : e.Uncovers a.us
    · refine ((hOk.2 hEnds).covered h.covered).mono hKept hGena hTold hListens fun text hText => .inl ?_
      exact hText.trans (congrArg stateStr hState.symm)
    · refine h.covered.mono hKept hGena hTold hListens fun text hRight =>
        hRight.of_state hState fun hGrace hPlaying hMasked => ?_
      -- only time ends the grace period
      rw [hSpeaker']
      by_cases hTick : ∃ us ends, a = .player (.tick us) ends
      · obtain ⟨us, ends, rfl⟩ := hTick
        obtain rfl := Option.some.inj hSpeaker
        exact not_le.1 fun hOver => hEnds ⟨hGrace, hOver, hPlaying, hMasked⟩
      · have hLasts : Lasts e.speaker.player.clock s'.player.clock :=
          Speaker.step_lasts hSpeaker fun us ends hIs => hTick ⟨us, ends, hIs⟩
        exact hLasts.2 hGrace
  · exact .inl (.inl (hNew hState (hOk.1 hState)))

/-! ## The two tasks -/

theorem cleanup_url (s : Subscriptions) (i : SubSlot) :
    (s.cleanupStaleSubscriptions.subs i).url = (s.subs i).url ∨ (s.cleanupStaleSubscriptions.subs i).url = [] := by
  rcases s.cleanup_subs i with ⟨hEq, -⟩ | ⟨hEq, -⟩
  · exact .inl (congrArg Subscriber.url hEq)
  · exact .inr (congrArg Subscriber.url hEq)

/-- Who listens after a clean-up has listened before. -/
theorem Listens.of_cleanup {i : SubSlot} (h : e.cleanup.Listens i) : e.Listens i := by
  rcases cleanup_url e.subs i with hSame | hGone
  · rw [Listens, ← hSame]
    exact h
  · exact absurd hGone h.1

/-- One turn of the loop: the slot has been told, and the others are as they were. -/
theorem sendTo_cases (e : Eventing) (nowSec : Int) (text : Option Bytes) (i : SubSlot) :
    ∃ subs told, e.sendTo nowSec text i = { e with subs := subs, told := told } ∧
      (subs = e.subs ∨ subs = e.subs.unsubscribed i) ∧ (∀ j, j ≠ i → told j = e.told j) ∧
      ((subs.subs i).url ≠ [] → httpUrl (subs.subs i).url → told i = (text <|> e.told i)) := by
  unfold sendTo
  split_ifs with hFree hExpired hUrl
  · exact ⟨e.subs, e.told, rfl, .inl rfl, fun _ _ => rfl, fun hTaken => absurd hFree hTaken⟩
  · refine ⟨e.subs.unsubscribed i, e.told, rfl, .inr rfl, fun _ _ => rfl, fun hTaken => absurd ?_ hTaken⟩
    rw [Subscriptions.unsubscribed, Subscriptions.setSub_self]
  · refine ⟨e.subs, Function.update e.told i (text <|> e.told i), rfl, .inl rfl, fun j hj => ?_, fun _ _ => ?_⟩
    · exact Function.update_of_ne hj ..
    · exact Function.update_self ..
  · exact ⟨e.subs, e.told, rfl, .inl rfl, fun _ _ => rfl, fun _ hIs => absurd hIs hUrl⟩

/-- Who listens after the turn has listened before. -/
theorem listens_of_turn {i j : SubSlot} {subs : Subscriptions}
    (hSubs : subs = e.subs ∨ subs = e.subs.unsubscribed i)
    (h : (subs.subs j).url ≠ [] ∧ httpUrl (subs.subs j).url) : e.Listens j := by
  rcases hSubs with rfl | rfl
  · exact h
  · by_cases hj : j = i
    · subst hj
      refine absurd ?_ h.1
      exact congrArg Subscriber.url (Subscriptions.setSub_self ..)
    · have hSame : (e.subs.unsubscribed i).subs j = e.subs.subs j := Subscriptions.setSub_of_ne _ _ hj
      rw [Listens, ← hSame]
      exact h

theorem speaker_sendTo (e : Eventing) (nowSec : Int) (text : Option Bytes) (i : SubSlot) :
    (e.sendTo nowSec text i).speaker = e.speaker := by
  obtain ⟨subs, told, hEq, -⟩ := e.sendTo_cases nowSec text i
  rw [hEq]

theorem Right.of_speaker (h : e'.speaker = e.speaker) {text : Bytes} (hRight : e.Right text) : e'.Right text := by
  rw [Right, state, transportState, h]
  exact hRight

/-- `gena_task` sends what it has read. -/
theorem Covered.sendTo {nowSec : Int} {text : Option Bytes} {i : SubSlot} {rest : List SubSlot}
    (h : Covered right e) (hGena : e.gena = .sending nowSec text (i :: rest)) :
    Covered right { e.sendTo nowSec text i with gena := .sending nowSec text rest } := by
  obtain ⟨subs, told, hEq, hSubs, hOthers, hSent⟩ := e.sendTo_cases nowSec text i
  rw [hEq]
  rcases h with (hSignal | hCalled) | ⟨hText, hAll⟩
  · exact .inl (.inl hSignal)
  · rw [hGena] at hCalled
    contradiction
  · rw [hGena] at hText hAll
    refine .inr ⟨hText, fun j hj => ?_⟩
    have hListened : e.Listens j := listens_of_turn hSubs hj
    by_cases hji : j = i
    · subst hji
      have hTold := hSent hj.1 hj.2
      cases text with
      | some text => exact .inr ⟨text, hTold, hText text rfl⟩
      | none =>
        rcases hAll j hListened with ⟨hSome, -⟩ | ⟨text, hIs, hRight⟩
        · contradiction
        · exact .inr ⟨text, hTold.trans hIs, hRight⟩
    · rcases hAll j hListened with ⟨hSome, hMem⟩ | ⟨text, hIs, hRight⟩
      · exact .inl ⟨hSome, List.mem_of_ne_of_mem hji hMem⟩
      · exact .inr ⟨text, (hOthers j hji).trans hIs, hRight⟩

theorem Covered.gena (h : Covered e.Right e) (hStep : e.genaStep = some e') : Covered e'.Right e' := by
  unfold genaStep at hStep
  split at hStep
  · rename_i hIdle
    split at hStep
    · contradiction
    · exact Option.some.inj hStep ▸ .inl (.inr rfl)
    · rename_i rest hQueue
      obtain rfl := Option.some.inj hStep
      rcases h with (hSignal | hCalled) | ⟨-, hAll⟩
      · rw [hQueue] at hSignal
        exact .inl (.inl ((List.mem_cons.1 hSignal).resolve_left (by simp)))
      · rw [hIdle] at hCalled
        contradiction
      · rw [hIdle] at hAll
        refine .inr ⟨fun text hIs => absurd hIs (by simp [Notifier.text]), fun i hi => ?_⟩
        exact .inr ((hAll i hi).resolve_left id)
  · obtain ⟨⟨e₁, gena⟩, hNotify, rfl⟩ := Option.map_eq_some_iff.1 hStep
    cases hGena : e.gena with
    | idle | woken =>
      rw [hGena] at hNotify
      contradiction
    | called =>
      rw [hGena] at hNotify
      obtain ⟨rfl, rfl⟩ := Prod.ext_iff.1 (Option.some.inj hNotify)
      refine .inr ⟨fun text hIs => ?_, fun i _ => .inl rfl⟩
      exact Option.some.inj hIs ▸ .inr rfl
    | built text =>
      rw [hGena] at hNotify
      obtain ⟨-, hEq⟩ := Option.ite_none_left_eq_some.1 hNotify
      obtain ⟨rfl, rfl⟩ := Prod.ext_iff.1 (Option.some.inj hEq)
      rcases h with (hSignal | hCalled) | ⟨hText, hAll⟩
      · exact .inl (.inl hSignal)
      · rw [hGena] at hCalled
        contradiction
      · rw [hGena] at hText hAll
        exact .inr ⟨hText, fun i hi => (hAll i hi).imp_left fun hSome => ⟨hSome, List.mem_finRange i⟩⟩
    | sending nowSec text rest =>
      cases rest with
      | nil =>
        rw [hGena] at hNotify
        obtain ⟨rfl, rfl⟩ := Prod.ext_iff.1 (Option.some.inj hNotify)
        rcases h with (hSignal | hCalled) | ⟨-, hAll⟩
        · exact .inl (.inl hSignal)
        · rw [hGena] at hCalled
          contradiction
        · rw [hGena] at hAll
          refine .inr ⟨fun text hIs => absurd hIs (by simp [Notifier.text]), fun i hi => ?_⟩
          exact .inr ((hAll i hi).resolve_left fun hWill => absurd hWill.2 (by simp))
      | cons i rest =>
        rw [hGena] at hNotify
        obtain ⟨rfl, rfl⟩ := Prod.ext_iff.1 (Option.some.inj hNotify)
        refine (h.sendTo hGena).mono id rfl rfl (fun _ => id) fun _ hRight => hRight.of_speaker ?_
        exact e.speaker_sendTo nowSec text i

/-- `pos_notify_task` sends what is still true, or what is followed by it. -/
theorem Covered.posSendTo {nowSec : Int} {text : Option Bytes} {i : SubSlot} {rest : List SubSlot}
    (h : Covered e.Right e) (hTimely : e.Timely (.sending nowSec text (i :: rest))) :
    Covered e.Right (e.sendTo nowSec text i) := by
  obtain ⟨subs, told, hEq, hSubs, hOthers, hSent⟩ := e.sendTo_cases nowSec text i
  rw [hEq]
  rcases h with hPending | ⟨hText, hAll⟩
  · exact .inl hPending
  · by_cases hPending : e.Pending
    · exact .inl hPending
    · refine .inr ⟨hText, fun j hj => ?_⟩
      have hListened : e.Listens j := listens_of_turn hSubs hj
      by_cases hji : j = i
      · subst hji
        have hTold := hSent hj.1 hj.2
        cases text with
        | some text =>
          rcases hTimely with hRight | hIs | hWill
          · exact .inr ⟨text, hTold, hRight⟩
          · exact absurd hIs hPending
          · exact .inl hWill
        | none =>
          refine (hAll j hListened).imp_right fun hTrue => ?_
          obtain ⟨text, hIs, hRight⟩ := hTrue
          exact ⟨text, hTold.trans hIs, hRight⟩
      · refine (hAll j hListened).imp_right fun hTrue => ?_
        obtain ⟨text, hIs, hRight⟩ := hTrue
        exact ⟨text, (hOthers j hji).trans hIs, hRight⟩

theorem Covered.cleanup (h : Covered e.Right e) : Covered e.Right e.cleanup :=
  h.mono id rfl rfl (fun _ hi => Listens.of_cleanup hi) fun _ => id

theorem Covered.pos (h : Covered e.Right e) (hStep : e.posStep = some e') (hTimely : e.Timely e.pos) :
    Covered e'.Right e' := by
  unfold posStep at hStep
  split at hStep
  · obtain ⟨-, hEq⟩ := Option.ite_none_right_eq_some.1 hStep
    exact Option.some.inj hEq ▸ h
  · exact Option.some.inj hStep ▸ h
  · obtain ⟨⟨e₁, pos⟩, hNotify, rfl⟩ := Option.map_eq_some_iff.1 hStep
    cases hPos : e.pos with
    | idle | woken =>
      rw [hPos] at hNotify
      contradiction
    | called =>
      rw [hPos] at hNotify
      obtain ⟨rfl, rfl⟩ := Prod.ext_iff.1 (Option.some.inj hNotify)
      exact h.cleanup
    | built text =>
      rw [hPos] at hNotify
      obtain ⟨-, hEq⟩ := Option.ite_none_left_eq_some.1 hNotify
      obtain ⟨rfl, rfl⟩ := Prod.ext_iff.1 (Option.some.inj hEq)
      exact h
    | sending nowSec text rest =>
      rw [hPos] at hNotify hTimely
      cases rest with
      | nil =>
        obtain ⟨rfl, rfl⟩ := Prod.ext_iff.1 (Option.some.inj hNotify)
        exact h
      | cons i rest =>
        obtain ⟨rfl, rfl⟩ := Prod.ext_iff.1 (Option.some.inj hNotify)
        refine (h.posSendTo hTimely).mono id rfl rfl (fun _ => id) fun _ hRight => hRight.of_speaker ?_
        exact e.speaker_sendTo nowSec text i

/-! ## Subscriptions -/

theorem toldAfter_of_same {r : EventRequest} {i : SubSlot}
    (hUrl : ((e.subs.eventHandler r).1.subs i).url = (e.subs.subs i).url) (hNew : e.subs.newSlot r = none) :
    e.toldAfter r i = e.told i := by
  refine if_neg fun hEither => ?_
  rcases hEither with hOther | hSlot
  · exact hOther hUrl
  · rw [hNew] at hSlot
    contradiction

/-- Only a new subscription and a renewal with another callback give a slot a new subscriber. -/
theorem url_eventHandler (h : Subscriptions.SubInv e.subs) {r : EventRequest} (hNew : e.subs.newSlot r = none)
    (i : SubSlot) :
    ((e.subs.eventHandler r).1.subs i).url = (e.subs.subs i).url ∨
      ((e.subs.eventHandler r).1.subs i).url = [] ∨
      i = fixedSlot ∧ r.method = .subscribe ∧ r.sidHeader = some e.subs.fixedSid ∧
        Subscriptions.renewedUrl (e.subs.subs fixedSlot).url r.callbackUrl ≠ (e.subs.subs fixedSlot).url := by
  rcases Subscriptions.eventHandler_cases h r with
    ⟨hMethod, hSid, hEq⟩ | ⟨hMethod, hSid, hEq⟩ | ⟨url, j, hMethod, hSid, hUrl, hSlot, -⟩ | ⟨hEq, -, -⟩
  · rw [hEq]
    by_cases hi : i = fixedSlot
    · subst hi
      rw [Subscriptions.renewed, Subscriptions.setSub_self]
      by_cases hSame : Subscriptions.renewedUrl (e.subs.subs fixedSlot).url r.callbackUrl = (e.subs.subs fixedSlot).url
      · exact .inl hSame
      · exact .inr (.inr ⟨rfl, hMethod, hSid, hSame⟩)
    · rw [Subscriptions.renewed, Subscriptions.setSub_of_ne _ _ hi]
      exact .inl rfl
  · rw [hEq]
    by_cases hi : i = fixedSlot
    · subst hi
      rw [Subscriptions.unsubscribed, Subscriptions.setSub_self]
      exact .inr (.inl rfl)
    · rw [Subscriptions.unsubscribed, Subscriptions.setSub_of_ne _ _ hi]
      exact .inl rfl
  · have hIs : e.subs.newSlot r = some j := by
      simp [Subscriptions.newSlot, hMethod, hSid, hUrl, hSlot]
    rw [hNew] at hIs
    contradiction
  · rw [hEq]
    exact .inl rfl

theorem Covered.request (h : EventingInv e) {r : EventRequest} (hOk : e.Lossless (.request r) (e.onRequest r)) :
    Covered (e.onRequest r).Right (e.onRequest r) := by
  unfold onRequest
  split_ifs with hNew
  · -- a signal for the new subscriber
    have hSignal := mem_push_signal
      (e := { e with subs := (e.subs.eventHandler r).1, told := e.toldAfter r }) (hOk.1 hNew)
    exact .inl (.inl (mem_push _ .rcs hSignal))
  · have hNone : e.subs.newSlot r = none := Option.not_isSome_iff_eq_none.1 hNew
    rcases h.covered with hPending | ⟨hText, hAll⟩
    · exact .inl hPending
    · by_cases hPending : e.Pending
      · exact .inl hPending
      · refine .inr ⟨hText, fun i hi => ?_⟩
        rcases url_eventHandler h.subs hNone i with hSame | hGone | ⟨rfl, hMethod, hSid, hUrl⟩
        · have hListened : e.Listens i := by
            rw [Listens, ← hSame]
            exact hi
          refine (hAll i hListened).imp_right fun hTrue => ?_
          obtain ⟨text, hIs, hRight⟩ := hTrue
          exact ⟨text, (toldAfter_of_same hSame hNone).trans hIs, hRight⟩
        · exact absurd hGone hi.1
        · exact .inl ((hOk.2 hMethod hSid hUrl).resolve_left hPending)

/-! ## Every run -/

theorem Covered.step {a : EventingAction} (h : EventingInv e) (hStep : e.step a = some e')
    (hOk : e.Lossless a e') : Covered e'.Right e' := by
  cases a with
  | speaker a => exact Covered.speaker h hStep hOk
  | volume =>
    obtain rfl := Option.some.inj hStep
    obtain ⟨queue, hEq⟩ := e.cleanup.push_eq .rcs
    have hKept := e.cleanup.mem_push .rcs
    rw [notifyRcs, hEq]
    rw [hEq] at hKept
    exact h.covered.cleanup.mono hKept rfl rfl (fun _ => id) fun _ => id
  | request r =>
    obtain ⟨-, hEq⟩ := Option.ite_none_right_eq_some.1 hStep
    obtain rfl := Option.some.inj hEq
    exact Covered.request h hOk
  | timer => exact Option.some.inj hStep ▸ h.covered
  | gena => exact h.covered.gena hStep
  | pos => exact h.covered.pos hStep hOk

theorem subInv_sendTo (h : Subscriptions.SubInv e.subs) (nowSec : Int) (text : Option Bytes) (i : SubSlot) :
    Subscriptions.SubInv (e.sendTo nowSec text i).subs := by
  unfold sendTo
  split_ifs with hFree
  · exact h
  · exact h.setSub (h.named i hFree) (h.expiry i) fun hTaken => absurd rfl hTaken
  · exact h
  · exact h

/-- What the tasks leave alone -/
theorem notify_keeps (h : Subscriptions.SubInv e.subs) {other self : Notifier} {x : Eventing × Notifier}
    (hNotify : e.notify other self = some x) :
    Subscriptions.SubInv x.1.subs ∧ x.1.lastNotified = e.lastNotified ∧ x.1.speaker = e.speaker := by
  cases self with
  | idle | woken => contradiction
  | called => exact Option.some.inj hNotify ▸ ⟨h.cleanup, rfl, rfl⟩
  | built text =>
    obtain ⟨-, hEq⟩ := Option.ite_none_left_eq_some.1 hNotify
    exact Option.some.inj hEq ▸ ⟨h, rfl, rfl⟩
  | sending nowSec text rest =>
    cases rest with
    | nil => exact Option.some.inj hNotify ▸ ⟨h, rfl, rfl⟩
    | cons i rest =>
      obtain ⟨subs, told, hEq, -⟩ := e.sendTo_cases nowSec text i
      have hSubs := subInv_sendTo h nowSec text i
      obtain rfl := Option.some.inj hNotify
      rw [hEq] at hSubs ⊢
      exact ⟨hSubs, rfl, rfl⟩

theorem EventingInv.step {a : EventingAction} (h : EventingInv e) (hStep : e.step a = some e')
    (hOk : e.Lossless a e') : EventingInv e' := by
  have hCovered : Covered e'.Right e' := Covered.step h hStep hOk
  suffices hRest : Subscriptions.SubInv e'.subs ∧ e'.lastNotified = e'.state from ⟨hRest.1, hRest.2, hCovered⟩
  cases a with
  | speaker a =>
    obtain ⟨s', queue, -, hEq, -, -⟩ := speakerStep_eq hStep h.notified
    have hTick : Subscriptions.SubInv { e.subs with nowUs := e.subs.nowUs + a.us } :=
      h.subs.step (a := .tick a.us) rfl
    rw [hEq]
    exact ⟨hTick, rfl⟩
  | volume =>
    obtain rfl := Option.some.inj hStep
    obtain ⟨queue, hEq⟩ := e.cleanup.push_eq .rcs
    rw [notifyRcs, hEq]
    exact ⟨h.subs.cleanup, h.notified⟩
  | request r =>
    obtain ⟨-, hEq⟩ := Option.ite_none_right_eq_some.1 hStep
    obtain rfl := Option.some.inj hEq
    have hSubs := h.subs.eventHandler r
    unfold onRequest
    split_ifs
    · obtain ⟨queue, hSignal⟩ :=
        push_eq { e with subs := (e.subs.eventHandler r).1, told := e.toldAfter r } .signal
      rw [hSignal]
      obtain ⟨queue', hRcs⟩ := push_eq
        { e with subs := (e.subs.eventHandler r).1, told := e.toldAfter r, queue := queue } .rcs
      rw [hRcs]
      exact ⟨hSubs, h.notified⟩
    · exact ⟨hSubs, h.notified⟩
  | timer => exact Option.some.inj hStep ▸ ⟨h.subs, h.notified⟩
  | gena =>
    simp only [Eventing.step, genaStep] at hStep
    split at hStep
    · split at hStep
      · contradiction
      · exact Option.some.inj hStep ▸ ⟨h.subs, h.notified⟩
      · exact Option.some.inj hStep ▸ ⟨h.subs, h.notified⟩
    · obtain ⟨x, hNotify, rfl⟩ := Option.map_eq_some_iff.1 hStep
      obtain ⟨hSubs, hLast, hSpeaker⟩ := notify_keeps h.subs hNotify
      exact ⟨hSubs, hLast.trans (h.notified.trans (congrArg (·.player.state) hSpeaker.symm))⟩
  | pos =>
    simp only [Eventing.step, posStep] at hStep
    split at hStep
    · obtain ⟨-, hEq⟩ := Option.ite_none_right_eq_some.1 hStep
      exact Option.some.inj hEq ▸ ⟨h.subs, h.notified⟩
    · exact Option.some.inj hStep ▸ ⟨h.subs, h.notified⟩
    · obtain ⟨x, hNotify, rfl⟩ := Option.map_eq_some_iff.1 hStep
      obtain ⟨hSubs, hLast, hSpeaker⟩ := notify_keeps h.subs hNotify
      exact ⟨hSubs, hLast.trans (h.notified.trans (congrArg (·.player.state) hSpeaker.symm))⟩

theorem eventingInv_boot (uuid : Option Bytes) (nowUs : Nat) : EventingInv (boot uuid nowUs) where
  subs := Subscriptions.subInv_init uuid nowUs
  notified := rfl
  covered := .inr ⟨fun text hIs => absurd hIs (by simp [boot, Notifier.text]),
    fun i hi => absurd (Subscriptions.subs_init uuid nowUs i).1 hi.1⟩

instance (i : SubSlot) : ∀ n : Notifier, Decidable (n.WillTell i)
  | .built text => inferInstanceAs (Decidable (text.isSome = true))
  | .sending _ text rest => inferInstanceAs (Decidable (text.isSome = true ∧ i ∈ rest))
  | .idle | .woken | .called => .isFalse not_false

instance (e : Eventing) : Decidable e.Pending := inferInstanceAs (Decidable (_ ∨ _))

instance (e : Eventing) : Decidable e.Room := inferInstanceAs (Decidable (_ ∨ _))

instance (e : Eventing) (i : SubSlot) : Decidable (e.Listens i) := inferInstanceAs (Decidable (_ ∧ _))

instance (e : Eventing) : Decidable e.Unmasked := inferInstanceAs (Decidable (_ ∨ _ ∧ ∀ _ : SubSlot, _))

instance (e : Eventing) (text : Bytes) : Decidable (e.Right text) := inferInstanceAs (Decidable (_ ∨ _))

instance (e : Eventing) (us : Nat) : Decidable (e.Uncovers us) := inferInstanceAs (Decidable (_ ∧ _))

instance (e : Eventing) : ∀ n, Decidable (e.Timely n)
  | .sending _ (some text) (i :: _) =>
    inferInstanceAs (Decidable (e.Right text ∨ e.Pending ∨ e.gena.WillTell i))
  | .sending _ none _ | .sending _ (some _) [] | .idle | .woken | .called | .built _ => .isTrue trivial

instance (e e' : Eventing) : ∀ a, Decidable (e.Lossless a e')
  | .speaker a =>
    inferInstanceAs (Decidable ((e'.state ≠ e.state → e.Room) ∧ (e.Uncovers a.us → e.Unmasked)))
  | .request r =>
    inferInstanceAs (Decidable (((e.subs.newSlot r).isSome → e.Room) ∧
      (r.method = .subscribe → r.sidHeader = some e.subs.fixedSid →
        Subscriptions.renewedUrl (e.subs.subs fixedSlot).url r.callbackUrl ≠ (e.subs.subs fixedSlot).url →
        e.Pending ∨ e.gena.WillTell fixedSlot)))
  | .pos => inferInstanceAs (Decidable (e.Timely e.pos))
  | .volume | .timer | .gena => .isTrue trivial

/-- A control point subscribes. -/
def subscribeRequest : EventRequest := ⟨.subscribe, none, some (ascii "<http://10.0.0.2/event>")⟩

/-- It sets a URI and plays it. -/
def castActions : List EventingAction :=
  [.request subscribeRequest, .speaker (.player (.soap (.setUri (ascii "http://nas/a.mp3") none) Speaker.goodLuck) false),
    .speaker (.player (.soap .play Speaker.goodLuck) false)]

end Eventing

end EspMiplay.Dlna
