import EspMiplay.Dlna.PipeMoves

/-!
# Where a track is taken up again

Pause and Stop save the position (`s_saved_pos_sec`, `s_saved_uri`), and the next Play that
runs the pipeline starts there. The pipeline refuses a seek while it opens: `_do_play` leaves
it in `s_pending_seek_sec`, the RUNNING event hands it to `deferred_seek_worker`, and the
worker pauses the pipeline, seeks and resumes it.

The actions are those of a control point, except Seek, and the events of the pipeline.
RUNNING may also come `early`, between `esp_gmf_pipeline_run` and the end of `_do_play`.

Three ghosts go along: the position last reported of each URI before it was paused, stopped
or broken off (`points`), what the present run is to be sought to (`due`), and what it has
been sought to (`sought`).

## Definitions

* `Playback.SoughtOnce` — the present run has been sought once to where it is due, or will be.
* `Playback.Orderly`    — the steps by which no position and no seek goes astray.
-/

namespace EspMiplay.Dlna

open Transition
open EspMiplay.Miplay (Bytes ascii peek)

/-- The sleeper is a `deferred_seek_worker`. -/
def seeks : Sleep → Bool
  | .deferred _ | .deferredPaused _ | .deferredDone _ => true
  | _ => false

/-- The seeks a sleeper is still to make -/
def seekOf : Sleep → List Int
  | .deferred sec | .deferredPaused sec => [sec]
  | _ => []

/-- The sleeper is in `cb_play`, and will seek to this. -/
def replays : Sleep → Option Int
  | .retry _ sec (.switched _) | .retry _ sec .fresh => some sec
  | _ => none

/-- The sleeper is in `cb_next` or `cb_previous`, about to run the pipeline or to give up. -/
def leaves : Sleep → Bool
  | .promote | .noNext | .previous | .retry _ _ (.next _) | .retry _ _ .previous => true
  | _ => false

namespace Player

variable (p : Player)

/-- What is reported as the position -/
def cbGetPositionSec : Int := p.cbGetPositionMs.tdiv 1000

/-- What Stop saves -/
def frozenSec : Int := p.freeze.accumulatedMs.tdiv 1000

/-- Each `deferred_seek_worker`, and how far it is -/
def seekers : List Sleep := (p.sleepers.map Prod.snd).filter seeks

/-- The seeks that are under way -/
def underWay : List Int := p.seekers.flatMap seekOf

/-- The seeks that will be made -/
def coming : List Int :=
  (if p.pipe = .opening ∧ 0 < p.pendingSeekSec then [p.pendingSeekSec] else []) ++ p.underWay

/-- RUNNING, before `_do_play` has left its seek -/
def overtaken : Player :=
  if p.pendingSeekSec > 0 then
    { p with pendingSeekSec := 0 }.sleep .seek (.deferred p.pendingSeekSec)
  else p

/-- No seek is left over that the new run would make, none of its own is left behind, and no worker is left to
break in on it. -/
def Clear (sec : Int) (early : Bool) : Prop :=
  p.underWay = [] ∧ (0 < sec → p.seekers = []) ∧ (0 < sec ∨ p.pendingSeekSec ≤ 0) ∧ (early = true → sec ≤ 0)

/-- `cb_play` does not wait to try again. -/
def Unhurried : Prop := ∀ x ∈ p.sleepers, ∀ sec ∈ replays x.2, sec ≤ 0

end Player

structure Playback where
  player : Player
  points : Bytes → Int
  due : Int
  sought : List Int

inductive PlaybackAction where
  | request (r : AvtRequest) (luck : Luck) (early : Bool)
  | wake (n : Nat) (luck : Luck) (early : Bool)
  | pipe (event : PipeEvent)
  | tick (us : Nat)
  deriving DecidableEq

namespace PlaybackAction

def action : PlaybackAction → PlayerAction
  | .request r luck _ => .soap r luck
  | .wake n luck _ => .wake n luck
  | .pipe event => .pipe event
  | .tick us => .tick us

def early : PlaybackAction → Bool
  | .request _ _ early | .wake _ _ early => early
  | .pipe _ | .tick _ => false

def isSeek : PlaybackAction → Bool
  | .request (.seek _) _ _ => true
  | _ => false

end PlaybackAction

namespace Playback

variable (w : Playback)

/-- Where the current track was left -/
def point : Int := w.player.trackUri.elim 0 w.points

/-- The present position is the last that was reported of what plays. -/
def reported : Bytes → Int :=
  w.player.playingUri.elim w.points fun uri => Function.update w.points uri w.player.cbGetPositionSec

/-- The sleeper's track change is under way. -/
def changesTrack (s : Sleep) : Bool :=
  match s with
  | .notify generation _ => generation = w.player.generation
  | .waitNext _ _ _ => w.player.hasNext
  | s => leaves s

def pointsAfter : PlaybackAction → Bytes → Int
  | .request (.setUri _ _) _ _ | .request .next _ _ | .request .previous _ _ => fun _ => 0
  | .request .pause _ _ => if w.player.state = .playing then w.reported else w.points
  | .request .stop _ _ =>
    if w.player.state = .playing ∨ w.player.state = .paused then w.reported else w.points
  | .pipe .error | .pipe .stopped =>
    if w.player.state = .playing ∧ w.player.graceUntil ≤ w.player.nowUs then w.reported else w.points
  | .wake n _ _ =>
    if w.player.sleepers[n]?.any fun x => w.changesTrack x.2 then fun _ => 0 else w.points
  | _ => w.points

/-- Play begins a run with this step, if one begins. -/
def ofPlay : PlaybackAction → Bool
  | .request .play _ _ => true
  | .wake n _ _ => w.player.sleepers[n]?.any fun x => !leaves x.2 && !w.changesTrack x.2
  | _ => false

/-- The pipeline seeks only while it is paused. -/
def soughtBy : PlaybackAction → List Int
  | .wake n _ _ =>
    match w.player.sleepers[n]? with
    | some (_, .deferredPaused sec) => if w.player.pipe = .paused then [sec] else []
    | _ => []
  | _ => []

def playerStep (a : PlaybackAction) : Option Player :=
  if a.early then
    (w.player.overtaken.step a.action).bind fun p =>
      if p.tracks ≠ w.player.tracks then some { p with pipe := .running } else none
  else w.player.step a.action

/-- The ghosts go along. -/
def advance (a : PlaybackAction) (p : Player) : Playback where
  player := p
  points := w.pointsAfter a
  due :=
    if p.tracks ≠ w.player.tracks then
      if w.ofPlay a then p.playingUri.elim 0 w.points else 0
    else w.due
  sought := if p.tracks ≠ w.player.tracks then [] else w.sought ++ w.soughtBy a

def step (w : Playback) (a : PlaybackAction) : Option Playback :=
  if a.isSeek then none else (w.playerStep a).map (w.advance a)

def boot (nowUs : Int) : Playback := ⟨.boot nowUs, fun _ => 0, 0, []⟩

/-- What a run is sought to -/
def owed (sec : Int) : List Int := if 0 < sec then [sec] else []

/-- The present run has been sought once to where it is due, or will be. -/
def SoughtOnce : Prop := w.player.pipe ≠ .idle → w.sought ++ w.player.coming = owed w.due

/-- What plays is the current track. -/
def Current : Prop := w.player.playingUri = w.player.trackUri

instance : Decidable w.Current := inferInstanceAs (Decidable (_ = _))

/-- Nothing has happened since `cb_next` or `cb_previous` stopped the pipeline. -/
def Undisturbed : Prop := w.player.savedPosSec ≤ 0 ∧ w.player.pipe = .idle

/-- No `cb_play` is under way. -/
def Alone : Prop := ∀ x ∈ w.player.sleepers, replays x.2 = none ∧ ∀ paused, x.2 ≠ .switch paused

def OrderlyWake (luck : Luck) (early : Bool) : Sleep → Prop
  | .switch _ => luck.runs → w.player.trackUri.isSome → w.player.Clear w.player.savedPosSec early
  | .retry _ sec (.switched _) | .retry _ sec .fresh =>
    if luck.runs then w.player.Clear sec early else w.point ≤ 0
  | .retry _ _ (.next _) | .retry _ _ .previous | .promote | .previous =>
    w.Undisturbed ∧ w.Alone ∧ (luck.runs → w.player.Clear 0 early)
  | .noNext => w.Undisturbed ∧ w.player.Unhurried
  | .waitNext generation trackSeq waited =>
    (w.player.hasNext → w.Undisturbed ∧ w.Alone ∧ (luck.runs → w.player.Clear 0 early)) ∧
      (w.player.WaitsOut generation trackSeq waited → w.player.pipe = .idle)
  | .notify generation _ => generation = w.player.generation → w.player.Unhurried
  | _ => True

def OrderlyAction : PlaybackAction → Prop
  | .request (.setUri uri _) _ _ => peek uri = 0 ∨ isVideoUri uri → w.player.savedPosSec ≤ 0
  | .request .play luck early =>
    w.player.state ≠ .playing → w.player.state ≠ .paused → w.player.trackUri.isSome → luck.runs →
      w.player.Clear w.player.startSec early
  | .request .pause _ _ =>
    w.player.state = .playing →
      (w.Current ∨ w.player.cbGetPositionSec ≤ 0) ∧ (w.player.pipe ≠ .idle → w.player.coming = [])
  | .request .stop _ _ =>
    if w.Current ∧ (w.player.state = .playing ∨ w.player.state = .paused) then
      w.player.state = .paused → w.player.playStartUs ≤ 0
    else max w.player.frozenSec 0 = max w.point 0
  | .wake n luck early => ∀ x ∈ w.player.sleepers[n]?, w.OrderlyWake luck early x.2
  | .pipe .error | .pipe .stopped =>
    w.player.state = .playing → w.player.graceUntil ≤ w.player.nowUs → w.Current →
      max w.player.cbGetPositionSec 0 = w.player.startSec
  | _ => True

/-- The step keeps a position or a seek from going astray. -/
def Orderly (a : PlaybackAction) : Prop :=
  (a.early = true → w.player.pendingSeekSec ≤ 0) ∧ w.OrderlyAction a

instance (p : Player) (sec : Int) (early : Bool) : Decidable (p.Clear sec early) :=
  inferInstanceAs (Decidable (_ ∧ _ ∧ _ ∧ _))

instance (p : Player) : Decidable p.Unhurried :=
  inferInstanceAs (Decidable (∀ x ∈ p.sleepers, ∀ sec ∈ replays x.2, sec ≤ 0))

instance (s : Sleep) : Decidable (∀ paused, s ≠ .switch paused) :=
  decidable_of_iff (s ≠ .switch false ∧ s ≠ .switch true)
    ⟨fun h paused => by cases paused; exacts [h.1, h.2], fun h => ⟨h false, h true⟩⟩

instance : Decidable w.Alone :=
  inferInstanceAs (Decidable (∀ x ∈ w.player.sleepers, replays x.2 = none ∧ ∀ paused, x.2 ≠ .switch paused))

instance : Decidable w.Undisturbed := inferInstanceAs (Decidable (_ ∧ _))

instance (luck : Luck) (early : Bool) : ∀ s, Decidable (w.OrderlyWake luck early s)
  | .switch _ =>
    inferInstanceAs (Decidable
      (luck.runs → w.player.trackUri.isSome → w.player.Clear w.player.savedPosSec early))
  | .retry _ sec (.switched _) | .retry _ sec .fresh =>
    inferInstanceAs (Decidable (if luck.runs then w.player.Clear sec early else w.point ≤ 0))
  | .retry _ _ (.next _) | .retry _ _ .previous | .promote | .previous =>
    inferInstanceAs (Decidable (w.Undisturbed ∧ w.Alone ∧ (luck.runs → w.player.Clear 0 early)))
  | .noNext => inferInstanceAs (Decidable (w.Undisturbed ∧ w.player.Unhurried))
  | .waitNext generation trackSeq waited =>
    inferInstanceAs (Decidable
      ((w.player.hasNext → w.Undisturbed ∧ w.Alone ∧ (luck.runs → w.player.Clear 0 early)) ∧
        (w.player.WaitsOut generation trackSeq waited → w.player.pipe = .idle)))
  | .notify generation _ =>
    inferInstanceAs (Decidable (generation = w.player.generation → w.player.Unhurried))
  | .seek _ | .seekDone | .deferred _ | .deferredPaused _ | .deferredDone _ => .isTrue trivial

instance : ∀ a, Decidable (w.OrderlyAction a)
  | .request (.setUri uri _) _ _ =>
    inferInstanceAs (Decidable (peek uri = 0 ∨ isVideoUri uri → w.player.savedPosSec ≤ 0))
  | .request .play luck early =>
    inferInstanceAs (Decidable
      (w.player.state ≠ .playing → w.player.state ≠ .paused → w.player.trackUri.isSome → luck.runs →
        w.player.Clear w.player.startSec early))
  | .request .pause _ _ =>
    inferInstanceAs (Decidable
      (w.player.state = .playing →
        (w.Current ∨ w.player.cbGetPositionSec ≤ 0) ∧ (w.player.pipe ≠ .idle → w.player.coming = [])))
  | .request .stop _ _ =>
    inferInstanceAs (Decidable
      (if w.Current ∧ (w.player.state = .playing ∨ w.player.state = .paused) then
        w.player.state = .paused → w.player.playStartUs ≤ 0
      else max w.player.frozenSec 0 = max w.point 0))
  | .wake n luck early =>
    inferInstanceAs (Decidable (∀ x ∈ w.player.sleepers[n]?, w.OrderlyWake luck early x.2))
  | .pipe .error | .pipe .stopped =>
    inferInstanceAs (Decidable
      (w.player.state = .playing → w.player.graceUntil ≤ w.player.nowUs → w.Current →
        max w.player.cbGetPositionSec 0 = w.player.startSec))
  | .request (.setNextUri _ _) _ _ | .request (.seek _) _ _ | .request .next _ _ | .request .previous _ _
  | .pipe .running | .pipe .finished | .tick _ => .isTrue trivial

instance (a : PlaybackAction) : Decidable (w.Orderly a) := inferInstanceAs (Decidable (_ ∧ _))

instance : Decidable w.SoughtOnce := inferInstanceAs (Decidable (_ → _))

end Playback

end EspMiplay.Dlna
