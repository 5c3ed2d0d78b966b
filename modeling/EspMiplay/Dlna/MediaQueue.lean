import Mathlib.Logic.Function.Basic
import EspMiplay.Lib.Transition
import EspMiplay.Miplay.Opack

/-!
# The queue of media events

`dlna_on_miplay_media` puts an event into `s_miplay_media_queue` from whatever
network task it is called in, and `consume_miplay_media_events_locked` takes the
events out again in the UI task. When the queue is full the oldest event has to go.

Every queue operation is a step of its own, so calls of several tasks interleave
with one another and with the UI task. `posted` and `consumed` are ghosts: what
calls have handed over since the phone connected, in the order in which they got
done, and what the UI task has made use of.

## Results

* `Kept.step`          — what a step does to the events that are to be kept.
* `drained`            — the UI task empties the queue, if it is left alone.
* `media_along`        — nothing but positions is lost along a run, exactly when no
  step `Loses` an event.
* `title_makes_room`   — eight positions behind a title.
-/

namespace EspMiplay.Dlna

open Transition
open EspMiplay.Miplay (MediaEvent)

/-- `MIPLAY_MEDIA_QUEUE_LEN` -/
def miplayMediaQueueLen : Nat := 8

/-- A call of `dlna_on_miplay_media` that has found the queue full. -/
inductive Post where
  /-- about to take the oldest event out -/
  | full (e : MediaEvent)
  /-- about to send again -/
  | again (e : MediaEvent)
  deriving DecidableEq

/-- `consume_miplay_media_events_locked` -/
inductive Consumer where
  | idle
  /-- in the loop that throws events away: there was no connection -/
  | discarding
  | consuming
  deriving DecidableEq

structure QueueWorld where
  /-- `s_miplay_media_queue` -/
  queue : List MediaEvent
  /-- `s_miplay_connected` -/
  connected : Bool
  /-- the calls under way, by task -/
  posts : Nat → Option Post
  consumer : Consumer
  posted : List MediaEvent
  consumed : List MediaEvent

namespace QueueWorld

def initial : QueueWorld where
  queue := []
  connected := false
  posts _ := none
  consumer := .idle
  posted := []
  consumed := []

def setPost (w : QueueWorld) (t : Nat) (p : Option Post) : QueueWorld :=
  { w with posts := Function.update w.posts t p }

/-- A call is done with its event. -/
def log (w : QueueWorld) (e : MediaEvent) : QueueWorld :=
  if w.connected then { w with posted := w.posted ++ [e] } else w

/-- `xQueueSend` -/
def send (w : QueueWorld) (e : MediaEvent) : Option QueueWorld :=
  if w.queue.length < miplayMediaQueueLen then some { w with queue := w.queue ++ [e] } else none

end QueueWorld

inductive QueueAction where
  /-- `dlna_on_miplay_connected` -/
  | connected (connected : Bool)
  /-- `dlna_detach_miplay_if_active` -/
  | detach
  /-- a task calls `dlna_on_miplay_media` -/
  | post (t : Nat) (e : MediaEvent)
  /-- its `xQueueReceive` -/
  | drop (t : Nat)
  /-- its second `xQueueSend` -/
  | again (t : Nat)
  /-- the UI task enters `consume_miplay_media_events_locked` -/
  | look
  /-- its next `xQueueReceive` -/
  | receive
  deriving DecidableEq

namespace QueueWorld

def step (w : QueueWorld) : QueueAction → Option QueueWorld
  | .connected c =>
    some { w with connected := c, queue := [], posted := [], consumed := [] }
  | .detach => some { w with connected := false }
  | .post t e =>
    match w.posts t with
    | some _ => none
    | none =>
      match w.send e with
      | some w' => some (w'.log e)
      | none => some (w.setPost t (some (.full e)))
  | .drop t =>
    match w.posts t with
    | some (.full e) => some ({ w with queue := w.queue.tail }.setPost t (some (.again e)))
    | _ => none
  | .again t =>
    match w.posts t with
    | some (.again e) => some ((((w.send e).getD w).log e).setPost t none)
    | _ => none
  | .look =>
    if w.consumer = .idle then
      some { w with consumer := if w.connected then .consuming else .discarding }
    else none
  | .receive =>
    match w.consumer, w.queue with
    | .idle, _ => none
    | .discarding, [] | .consuming, [] => some { w with consumer := .idle }
    | .discarding, _ :: rest => some { w with queue := rest }
    | .consuming, e :: rest => some { w with queue := rest, consumed := w.consumed ++ [e] }

end QueueWorld

/-! ## What is to be kept -/

/-- An event that carries a position and nothing else. -/
def PositionOnly (e : MediaEvent) : Bool := e.changed = { position := true }

/-- The events a full queue must not cost. -/
def lasting (es : List MediaEvent) : List MediaEvent := es.filter fun e => !PositionOnly e

theorem lasting_append (es es' : List MediaEvent) :
    lasting (es ++ es') = lasting es ++ lasting es' := List.filter_append es es'

theorem lasting_single_eq_nil {e : MediaEvent} : lasting [e] = [] ↔ PositionOnly e := by
  simp [lasting]

/-- While connected, what has been posted has been consumed or is still in the queue, in
order. -/
def Kept (w : QueueWorld) : Prop :=
  w.connected → lasting w.posted = lasting w.consumed ++ lasting w.queue

instance (w : QueueWorld) : Decidable (Kept w) := inferInstanceAs (Decidable (_ → _))

/-- The UI task can get all of it. -/
def Consumable (w : QueueWorld) : Prop :=
  w.connected → w.consumer ≠ .discarding → ∃ as w', (∀ a ∈ as, a = .look ∨ a = .receive) ∧
    run QueueWorld.step w as = some w' ∧ lasting w'.posted = lasting w'.consumed

/-- What a step takes away while connected: the oldest event, the event of a call that
finds the queue full again, or one that is thrown away by a loop that began
without a connection. -/
def lost (w : QueueWorld) : QueueAction → List MediaEvent
  | .drop _ => w.queue.head?.toList
  | .again t =>
    match w.posts t with
    | some (.again e) => if w.queue.length < miplayMediaQueueLen then [] else [e]
    | _ => []
  | .receive => if w.consumer = .discarding then w.queue.head?.toList else []
  | _ => []

/-- A step loses an event other than a position. -/
def Loses (w : QueueWorld) (a : QueueAction) : Prop := w.connected ∧ lasting (lost w a) ≠ []

instance (w : QueueWorld) (a : QueueAction) : Decidable (Loses w a) :=
  inferInstanceAs (Decidable (_ ∧ _))

variable {w w' : QueueWorld} {a : QueueAction}

/-- What is taken off the queue and not consumed must not be lasting. -/
theorem kept_off_iff {posted consumed : List MediaEvent} {x : MediaEvent} {rest : List MediaEvent}
    (h : lasting posted = lasting consumed ++ lasting (x :: rest)) :
    lasting posted = lasting consumed ++ lasting rest ↔ lasting [x] = [] := by
  have hCons : lasting (x :: rest) = lasting [x] ++ lasting rest := lasting_append [x] rest
  rw [h, hCons, List.append_cancel_left_eq]
  exact List.append_left_eq_self

/-- **One step.** The queue gives up what is consumed and what is lost. -/
theorem Kept.step (h : Kept w) (hStep : w.step a = some w') : Kept w' ↔ ¬Loses w a := by
  have hNone (hLost : lost w a = []) : ¬Loses w a := by
    rintro ⟨-, hNe⟩
    exact hNe (by rw [hLost]; rfl)
  cases a with
  | connected c =>
    obtain rfl := Option.some.inj hStep
    exact iff_of_true (fun _ => rfl) (hNone rfl)
  | detach =>
    obtain rfl := Option.some.inj hStep
    exact iff_of_true (fun hCon => absurd hCon (by simp)) (hNone rfl)
  | post t e =>
    refine iff_of_true ?_ (hNone rfl)
    simp only [QueueWorld.step, QueueWorld.send] at hStep
    by_cases hFree : w.posts t = none
    · rw [hFree] at hStep
      by_cases hRoom : w.queue.length < miplayMediaQueueLen
      · simp only [if_pos hRoom] at hStep
        obtain rfl := Option.some.inj hStep
        intro hCon
        have hCon : w.connected := by
          by_contra hNot
          simp [QueueWorld.log, hNot] at hCon
        have hEq := h hCon
        simp [QueueWorld.log, hCon, lasting_append, hEq]
      · simp only [if_neg hRoom] at hStep
        obtain rfl := Option.some.inj hStep
        exact h
    · obtain ⟨p, hp⟩ := Option.ne_none_iff_exists'.1 hFree
      simp [hp] at hStep
  | drop t =>
    simp only [QueueWorld.step] at hStep
    split at hStep
    · obtain rfl := Option.some.inj hStep
      by_cases hCon : w.connected
      · cases hQueue : w.queue with
        | nil =>
          refine iff_of_true (fun _ => ?_) (hNone (by simp [lost, hQueue]))
          simpa [QueueWorld.setPost, hQueue] using h hCon
        | cons x rest =>
          have hEq := h hCon
          rw [hQueue] at hEq
          simp only [Kept, QueueWorld.setPost, hQueue, hCon, Loses, lost]
          simpa using kept_off_iff hEq
      · exact iff_of_true (fun h => absurd h hCon) fun h => hCon h.1
    · cases hStep
  | again t =>
    simp only [QueueWorld.step] at hStep
    split at hStep
    next e hPost =>
      obtain rfl := Option.some.inj hStep
      by_cases hCon : w.connected
      · have hEq := h hCon
        by_cases hRoom : w.queue.length < miplayMediaQueueLen
        · refine iff_of_true (fun _ => ?_) (hNone (by simp [lost, hPost, hRoom]))
          simp [QueueWorld.send, QueueWorld.log, QueueWorld.setPost, hRoom, hCon, lasting_append, hEq]
        · have hLost : lost w (.again t) = [e] := by simp [lost, hPost, hRoom]
          have hSend : w.send e = none := if_neg hRoom
          simp only [Kept, hSend, Option.getD_none, QueueWorld.log, hCon, if_true,
            QueueWorld.setPost, lasting_append, Loses, hLost, hEq]
          simp
      · have hStill : ((((w.send e).getD w).log e).setPost t none).connected = false := by
          have hFalse : w.connected = false := by simpa using hCon
          by_cases hRoom : w.queue.length < miplayMediaQueueLen
          all_goals simp [QueueWorld.send, QueueWorld.log, QueueWorld.setPost, hRoom, hFalse]
        exact iff_of_true (fun h => absurd h (by simp [hStill])) fun h => hCon h.1
    · cases hStep
  | look =>
    by_cases hIdle : w.consumer = .idle
    · have hSome : w.step .look =
          some { w with consumer := if w.connected then .consuming else .discarding } := if_pos hIdle
      obtain rfl := Option.some.inj (hSome.symm.trans hStep)
      exact iff_of_true h (hNone rfl)
    · cases (if_neg hIdle : w.step .look = none).symm.trans hStep
  | receive =>
    simp only [QueueWorld.step] at hStep
    split at hStep
    · cases hStep
    next hConsumer hQueue =>
      obtain rfl := Option.some.inj hStep
      exact iff_of_true h (hNone (by simp [lost, hQueue]))
    next hConsumer hQueue =>
      obtain rfl := Option.some.inj hStep
      exact iff_of_true h (hNone (by simp [lost, hQueue]))
    next x rest hConsumer hQueue =>
      obtain rfl := Option.some.inj hStep
      by_cases hCon : w.connected
      · have hEq := h hCon
        rw [hQueue] at hEq
        simp only [Kept, hQueue, hCon, Loses, lost, hConsumer]
        simpa using kept_off_iff hEq
      · exact iff_of_true (fun h => absurd h hCon) fun h => hCon h.1
    next x rest hConsumer hQueue =>
      obtain rfl := Option.some.inj hStep
      refine iff_of_true (fun hCon => ?_) (hNone (by simp [lost, hConsumer]))
      have hEq := h hCon
      have hCons : lasting (x :: rest) = lasting [x] ++ lasting rest := lasting_append [x] rest
      rw [hQueue, hCons] at hEq
      rw [lasting_append, List.append_assoc]
      exact hEq

/-! ## The UI task -/

/-- Left alone, the loop takes everything out. -/
theorem drained (h : w.consumer = .consuming) : ∃ w', (run QueueWorld.step w
    (List.replicate w.queue.length .receive)) = some w' ∧ w'.queue = [] ∧
      w'.posted = w.posted ∧ w'.consumed = w.consumed ++ w.queue := by
  induction hQueue : w.queue generalizing w with
  | nil => exact ⟨w, rfl, hQueue, rfl, by simp⟩
  | cons x rest ih =>
    have hStep : w.step .receive =
        some { w with queue := rest, consumed := w.consumed ++ [x] } := by
      simp [QueueWorld.step, h, hQueue]
    obtain ⟨w', hRun, hEmpty, hPosted, hConsumed⟩ :=
      @ih { w with queue := rest, consumed := w.consumed ++ [x] } h rfl
    refine ⟨w', ?_, hEmpty, hPosted, ?_⟩
    · rw [List.length_cons, List.replicate_succ, run, hStep]
      exact hRun
    · rw [hConsumed]
      simp

theorem Kept.consumable (h : Kept w) : Consumable w := by
  intro hCon hConsumer
  cases hIs : w.consumer with
  | discarding => exact absurd hIs hConsumer
  | consuming =>
    obtain ⟨w', hRun, -, hPosted, hConsumed⟩ := drained hIs
    refine ⟨_, w', fun a ha => .inr (List.eq_of_mem_replicate ha), hRun, ?_⟩
    rw [hPosted, hConsumed, lasting_append, h hCon]
  | idle =>
    have hLook : w.step .look = some { w with consumer := .consuming } := by
      simp [QueueWorld.step, hIs, hCon]
    obtain ⟨w', hRun, -, hPosted, hConsumed⟩ := @drained { w with consumer := .consuming } rfl
    refine ⟨.look :: List.replicate w.queue.length .receive, w', ?_, ?_, ?_⟩
    · intro a ha
      rcases List.mem_cons.1 ha with rfl | ha
      · exact .inl rfl
      · exact .inr (List.eq_of_mem_replicate ha)
    · rw [run, hLook]
      exact hRun
    · rw [hPosted, hConsumed, lasting_append]
      exact h hCon

/-! ## Runs -/

/-- **No event is lost to position traffic.** Along a run every event but positions stays
in the queue until it is consumed, in order, and can be consumed, exactly when no
step takes such an event away. -/
theorem media_along (as : List QueueAction) :
    Along QueueWorld.step (fun _ _ w' => Kept w' ∧ Consumable w') .initial as ↔
      Along QueueWorld.step (fun w a _ => ¬Loses w a) .initial as := by
  refine along_iff_of_invariant (I := Kept) ?_ (fun w a w' h hStep => (h.step hStep).2) ?_
  · intro w a w' h hStep
    rw [← h.step hStep]
    exact ⟨fun h => h.1, fun h => ⟨h, h.consumable⟩⟩
  · exact fun h => absurd h (by decide)

def titleEvent : MediaEvent :=
  { Miplay.miplayMediaEventInit with changed := { title := true }, title := [0x41] }

def positionEvent (ms : Int) : MediaEvent :=
  { Miplay.miplayMediaEventInit with changed := { position := true }, positionMs := ms }

/-- A title and seven positions fill the queue; for the next position it is the title
that has to go. -/
theorem title_makes_room : ¬∀ as, Along QueueWorld.step (fun _ _ w' => Kept w' ∧ Consumable w')
    .initial as := by
  intro hAll
  obtain ⟨w, w', hRun, hStep, hLost⟩ := exists_last_of_any
    (show (run QueueWorld.step .initial ([.connected true, .post 0 titleEvent] ++
        (List.range 8).map fun n => .post 0 (positionEvent n))).any
      (fun w => (w.step (.drop 0)).any fun w' => !decide (Kept w')) = true by decide +kernel)
  have hKept := (hAll _ |>.last hRun hStep).1
  simp [hKept] at hLost

end EspMiplay.Dlna
