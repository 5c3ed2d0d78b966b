import EspMiplay.Lib.Stopwatch
import EspMiplay.Lib.Transition
import EspMiplay.Dlna.MiplayMedia

/-!
# The position of the phone's track

`get_miplay_position_ms` ought to read like a stopwatch that a report sets and that
runs while the state is PLAYING. The record keeps a base and an anchor instead, and
not every writer of the state looks after them.

A run starts with a report of a position, and goes on with presses of the play
button, further reports, states without a position, and time. Events that bring
a field of a track are not among its steps.

## Results

* `Tight.toggle`, `Tight.event`, `Tight.tick` — what the steps do to the record and the stopwatch.
* `position_along`   — the position is that of the stopwatch along every run of
  `Steady` steps.
* `pause_jumps_back` — a press of the button while the track plays.
-/

namespace EspMiplay.Dlna

open Transition
open EspMiplay.Miplay (MediaEvent)

/-- An event without a field of a track. -/
def NoField (e : MediaEvent) : Bool :=
  !(e.changed.id || e.changed.audioId || e.changed.title || e.changed.artist ||
    e.changed.album || e.changed.coverUrl || e.changed.duration)

structure PositionWorld where
  nowUs : Int
  media : MiplayMedia
  /-- the ghost: what ought to be read -/
  watch : Stopwatch

inductive PositionAction where
  /-- `cb_play_toggle` -/
  | toggle
  /-- an event is consumed -/
  | event (e : MediaEvent)
  /-- time passes -/
  | tick (us : Nat)

/-- The stopwatch at an event: a position sets it, a state starts or stops it. -/
def watchEvent (nowUs : Int) (s : Stopwatch) (e : MediaEvent) : Stopwatch :=
  let s := if e.changed.position then s.set nowUs (clampMiplayMs e.positionMs) else s
  if e.changed.playerState then
    match MiplayMedia.playState e.playerState with
    | none => s
    | some .playing => s.start 1000 nowUs
    | some _ => s.stop 1000 nowUs
  else s

namespace PositionWorld

def step (w : PositionWorld) : PositionAction → Option PositionWorld
  | .toggle =>
    some
      { w with
        media := w.media.playToggle w.nowUs
        watch := if w.media.state = .playing then w.watch.stop 1000 w.nowUs
          else w.watch.start 1000 w.nowUs }
  | .event e =>
    if NoField e then
      some
        { w with
          media := (w.media.consumeEvent e w.nowUs).1
          watch := watchEvent w.nowUs w.watch e }
    else none
  | .tick us => some { w with nowUs := w.nowUs + us }

end PositionWorld

/-! ## The law -/

/-- No position is shown behind the end of the track, or out of the range of `int`. -/
def clampTo (durationMs position : Int) : Int :=
  clampMiplayMs (if durationMs > 0 ∧ position > durationMs then durationMs else position)

/-- The position is the one reported and the time spent in PLAYING since, in the whole
milliseconds between events. -/
def PositionWorld.Law (w : PositionWorld) : Prop :=
  getMiplayPositionMs w.nowUs w.media = clampTo w.media.durationMs (w.watch.read 1000 w.nowUs)

/-- The end of the track has been reached, and nothing moves any more. -/
def MiplayMedia.AtEnd (m : MiplayMedia) : Prop := 0 < m.durationMs ∧ m.durationMs ≤ m.positionMs

/-- Less than a millisecond has passed since the anchor. -/
def JustAnchored (w : PositionWorld) : Prop := (w.nowUs - w.media.anchorUs) / 1000 = 0

/-- The button pauses at the anchor and plays at the beginning, and an event that says
PLAYING while PLAYING comes with a position or at the anchor; or the track is at its end. -/
def Steady (w : PositionWorld) : PositionAction → Prop
  | .toggle =>
    w.media.AtEnd ∨ if w.media.state = .playing then JustAnchored w else w.media.positionMs = 0
  | .event e =>
    w.media.AtEnd ∨ (w.media.state = .playing → e.changed.position = false →
      e.changed.playerState → e.playerState = .playing → JustAnchored w)
  | .tick _ => True

instance (m : MiplayMedia) : Decidable m.AtEnd := inferInstanceAs (Decidable (_ ∧ _))

instance (w : PositionWorld) : Decidable (JustAnchored w) := inferInstanceAs (Decidable (_ = _))

instance (w : PositionWorld) : Decidable w.Law := inferInstanceAs (Decidable (_ = _))

instance (w : PositionWorld) : ∀ a, Decidable (Steady w a)
  | .toggle =>
    inferInstanceAs (Decidable (_ ∨ if w.media.state = .playing then _ else w.media.positionMs = 0))
  | .event _ => inferInstanceAs (Decidable (_ ∨ (_ → _ → _ → _ → _)))
  | .tick _ => .isTrue trivial

/-! ## Clamping -/

theorem clampTo_of_end {durationMs x : Int} (hPos : 0 < durationMs) (h : durationMs ≤ x) :
    clampTo durationMs x = clampMiplayMs durationMs := by
  unfold clampTo
  by_cases hLt : x > durationMs
  · rw [if_pos ⟨hPos, hLt⟩]
  · obtain rfl : x = durationMs := by omega
    rw [if_neg fun hAnd => hLt hAnd.2]

theorem clampMiplayMs_nonneg (x : Int) : 0 ≤ clampMiplayMs x := by
  simp only [clampMiplayMs, intMax]
  split_ifs <;> omega

theorem clampTo_nonneg (durationMs x : Int) : 0 ≤ clampTo durationMs x :=
  clampMiplayMs_nonneg _

/-- What is clamped may be clamped before, too. -/
theorem clampTo_add {durationMs x k : Int} (hDur : durationMs ≤ intMax) (hx : 0 ≤ x) (hk : 0 ≤ k) :
    clampTo durationMs (clampTo durationMs x + k) = clampTo durationMs (x + k) := by
  simp only [clampTo, clampMiplayMs, intMax] at hDur ⊢
  split_ifs <;> omega

/-- As time passes both read alike. -/
def Alike (durationMs base value : Int) : Prop :=
  ∀ k, 0 ≤ k → clampTo durationMs (base + k) = clampTo durationMs (value + k)

theorem Alike.add {durationMs base value k : Int} (h : Alike durationMs base value) (hk : 0 ≤ k) :
    Alike durationMs (base + k) (value + k) := fun j hj => by
  rw [Int.add_assoc, Int.add_assoc]
  exact h (k + j) (by omega)

theorem Alike.clamped {durationMs base value : Int} (h : Alike durationMs base value)
    (hDur : durationMs ≤ intMax) (hBase : 0 ≤ base) :
    Alike durationMs (clampTo durationMs base) value := fun k hk => by
  rw [clampTo_add hDur hBase hk]
  exact h k hk

theorem le_of_le_clampTo {durationMs x : Int} (hPos : 0 < durationMs)
    (h : durationMs ≤ clampTo durationMs x) : durationMs ≤ x := by
  simp only [clampTo, clampMiplayMs, intMax] at h
  split_ifs at h <;> omega

theorem clampMiplayMs_of_end {durationMs : Int} (hPos : 0 < durationMs)
    (hDur : durationMs ≤ intMax) : clampMiplayMs durationMs = durationMs := by
  simp only [clampMiplayMs, intMax] at hDur ⊢
  split_ifs <;> omega

/-! ## The invariant -/

/-- The record and the stopwatch agree. -/
structure Tight (w : PositionWorld) : Prop where
  now : 0 < w.nowUs
  duration : w.media.durationMs ≤ intMax
  base : 0 ≤ w.media.positionMs
  anchor : w.media.anchorUs ≤ w.nowUs
  past : w.watch.Past w.nowUs
  shown : 0 ≤ w.watch.shown
  runs : w.watch.since.isSome ↔ w.media.state = .playing
  behindEnd : w.media.AtEnd → w.media.durationMs ≤ w.watch.shown
  alike : ¬w.media.AtEnd → Alike w.media.durationMs w.media.positionMs w.watch.shown
  anchored : ¬w.media.AtEnd → ∀ t ∈ w.watch.since, w.media.anchorUs = t ∧ 0 < t

variable {w w' : PositionWorld}

theorem getMiplayPositionMs_of_running {nowUs : Int} {m : MiplayMedia} (hPlays : m.state = .playing)
    (hPos : 0 < m.anchorUs) (hPast : m.anchorUs ≤ nowUs) :
    getMiplayPositionMs nowUs m =
      clampTo m.durationMs (m.positionMs + (nowUs - m.anchorUs) / 1000) := by
  have hDiv : (nowUs - m.anchorUs).tdiv 1000 = (nowUs - m.anchorUs) / 1000 :=
    Int.tdiv_eq_ediv_of_nonneg (by omega)
  simp only [getMiplayPositionMs, clampTo, if_pos (And.intro hPlays hPos), hDiv]

theorem getMiplayPositionMs_of_still {nowUs : Int} {m : MiplayMedia}
    (h : ¬(m.state = .playing ∧ m.anchorUs > 0)) :
    getMiplayPositionMs nowUs m = clampTo m.durationMs m.positionMs := by
  simp only [getMiplayPositionMs, clampTo, if_neg h]

/-- At the end of the track the end is what is shown. -/
theorem Tight.position_at_end (h : Tight w) (hEnd : w.media.AtEnd) :
    getMiplayPositionMs w.nowUs w.media = w.media.durationMs := by
  obtain ⟨hPos, hLe⟩ := hEnd
  by_cases hRuns : w.media.state = .playing ∧ w.media.anchorUs > 0
  · have hElapsed : 0 ≤ (w.nowUs - w.media.anchorUs) / 1000 :=
      Int.ediv_nonneg (by have := h.anchor; omega) (by decide)
    rw [getMiplayPositionMs_of_running hRuns.1 hRuns.2 h.anchor, clampTo_of_end hPos (by omega),
      clampMiplayMs_of_end hPos h.duration]
  · rw [getMiplayPositionMs_of_still hRuns, clampTo_of_end hPos hLe,
      clampMiplayMs_of_end hPos h.duration]

theorem Tight.shown_le_read (h : Tight w) : w.watch.shown ≤ w.watch.read 1000 w.nowUs :=
  h.past.shown_le_read (by decide)

theorem Tight.law (h : Tight w) : w.Law := by
  have hRead := h.shown_le_read
  unfold PositionWorld.Law
  by_cases hEnd : w.media.AtEnd
  · have hShown := h.behindEnd hEnd
    rw [h.position_at_end hEnd, clampTo_of_end hEnd.1 (by omega),
      clampMiplayMs_of_end hEnd.1 h.duration]
  · cases hSince : w.watch.since with
    | none =>
      have hStill : ¬(w.media.state = .playing ∧ w.media.anchorUs > 0) := fun hAnd => by
        simpa [hSince] using h.runs.2 hAnd.1
      have hNow := h.alike hEnd 0 le_rfl
      rw [getMiplayPositionMs_of_still hStill, Stopwatch.read, Stopwatch.elapsed, hSince]
      simpa using hNow
    | some t =>
      obtain ⟨rfl, hPos⟩ := h.anchored hEnd t hSince
      have hElapsed := h.past.elapsed_nonneg (by decide : (0 : Int) < 1000)
      rw [Stopwatch.elapsed, hSince] at hElapsed
      rw [getMiplayPositionMs_of_running (h.runs.1 (by simp [hSince])) hPos h.anchor,
        Stopwatch.read, Stopwatch.elapsed, hSince]
      exact h.alike hEnd _ hElapsed

/-! ## The steps -/

/-- At the anchor the stopwatch reads what it shows. -/
theorem Tight.read_eq_shown (h : Tight w) (hEnd : ¬w.media.AtEnd)
    (hShort : w.media.state = .playing → JustAnchored w) :
    w.watch.read 1000 w.nowUs = w.watch.shown := by
  rw [Stopwatch.read, Stopwatch.elapsed]
  cases hSince : w.watch.since with
  | none => exact Int.add_zero _
  | some t =>
    have hZero := hShort (h.runs.1 (by simp [hSince]))
    rw [JustAnchored, (h.anchored hEnd t hSince).1] at hZero
    simp only [hZero, Int.add_zero]

/-- Playing stops, and the base stays. -/
theorem Tight.pause (h : Tight w) {state : PlayState} {anchorUs : Int} (hState : state ≠ .playing)
    (hPast : anchorUs ≤ w.nowUs)
    (hSteady : ¬w.media.AtEnd → w.media.state = .playing → JustAnchored w) :
    Tight
      { w with
        media := { w.media with state := state, anchorUs := anchorUs }
        watch := w.watch.stop 1000 w.nowUs } where
  now := h.now
  duration := h.duration
  base := h.base
  anchor := hPast
  past := Stopwatch.past_stop
  shown := h.shown.trans h.shown_le_read
  runs := by simpa [Stopwatch.stop] using hState
  behindEnd hEnd := (h.behindEnd hEnd).trans h.shown_le_read
  alike hEnd := by
    show Alike _ _ (w.watch.read 1000 w.nowUs)
    rw [h.read_eq_shown hEnd (hSteady hEnd)]
    exact h.alike hEnd
  anchored _ := by simp [Stopwatch.stop]

/-- Playing starts at an anchor, which is now unless the end has been reached. -/
theorem Tight.play (h : Tight w) {anchorUs : Int} (hPast : anchorUs ≤ w.nowUs)
    (hSteady : ¬w.media.AtEnd → w.media.state = .playing → JustAnchored w)
    (hAnchor : ¬w.media.AtEnd → anchorUs = w.nowUs) :
    Tight
      { w with
        media := { w.media with state := .playing, anchorUs := anchorUs }
        watch := w.watch.start 1000 w.nowUs } where
  now := h.now
  duration := h.duration
  base := h.base
  anchor := hPast
  past := Stopwatch.past_start
  shown := h.shown.trans h.shown_le_read
  runs := by simp [Stopwatch.start]
  behindEnd hEnd := (h.behindEnd hEnd).trans h.shown_le_read
  alike hEnd := by
    show Alike _ _ (w.watch.read 1000 w.nowUs)
    rw [h.read_eq_shown hEnd (hSteady hEnd)]
    exact h.alike hEnd
  anchored hEnd := by
    rintro t ⟨⟩
    exact ⟨hAnchor hEnd, h.now⟩

/-- A state other than PLAYING keeps the position that is shown. -/
theorem Tight.freeze (h : Tight w) {state : PlayState} (hState : state ≠ .playing) :
    Tight
      { w with
        media :=
          { w.media with
            state := state, positionMs := getMiplayPositionMs w.nowUs w.media, anchorUs := 0 }
        watch := w.watch.stop 1000 w.nowUs } := by
  have hLaw : getMiplayPositionMs w.nowUs w.media = _ := h.law
  have hRead : 0 ≤ w.watch.read 1000 w.nowUs := h.shown.trans h.shown_le_read
  exact
  { now := h.now
    duration := h.duration
    base := hLaw ▸ clampTo_nonneg _ _
    anchor := h.now.le
    past := Stopwatch.past_stop
    shown := hRead
    runs := by simpa [Stopwatch.stop] using hState
    behindEnd := fun ⟨hPos, hEnd⟩ => le_of_le_clampTo hPos (hLaw ▸ hEnd)
    alike := fun _ => by
      show Alike _ (getMiplayPositionMs _ _) _
      rw [hLaw]
      exact Alike.clamped (fun _ _ => rfl) h.duration hRead
    anchored := fun _ => by simp [Stopwatch.stop] }

/-- A report sets both. -/
theorem tight_report (value : Int) (hNow : 0 < w.nowUs) (hDur : w.media.durationMs ≤ intMax)
    (hAnchor : w.media.anchorUs ≤ w.nowUs)
    (hRuns : w.watch.since.isSome ↔ w.media.state = .playing) :
    Tight
      { w with
        media :=
          { w.media with
            positionMs := clampMiplayMs value
            anchorUs := if w.media.state = .playing then w.nowUs else w.media.anchorUs }
        watch := w.watch.set w.nowUs (clampMiplayMs value) } where
  now := hNow
  duration := hDur
  base := clampMiplayMs_nonneg value
  anchor := by
    show (if w.media.state = .playing then w.nowUs else w.media.anchorUs) ≤ w.nowUs
    split_ifs
    exacts [le_rfl, hAnchor]
  past := Stopwatch.past_set
  shown := clampMiplayMs_nonneg value
  runs := by simpa [Stopwatch.set] using hRuns
  behindEnd hEnd := hEnd.2
  alike _ := fun _ _ => rfl
  anchored _ := by
    intro t ht
    obtain ⟨u, hu, rfl⟩ := Option.map_eq_some_iff.1 ht
    have hPlays : w.media.state = .playing := hRuns.1 (by simp [hu])
    exact ⟨if_pos hPlays, hNow⟩

theorem Tight.toggle (h : Tight w) (hStep : w.step .toggle = some w') (hSteady : Steady w .toggle) :
    Tight w' := by
  obtain rfl := Option.some.inj hStep
  by_cases hPlays : w.media.state = .playing
  · rw [Steady, if_pos hPlays] at hSteady
    simp only [MiplayMedia.playToggle, if_pos hPlays]
    exact h.pause (by decide) h.anchor fun hEnd _ => hSteady.resolve_left hEnd
  · rw [Steady, if_neg hPlays] at hSteady
    have hBase := h.base
    simp only [MiplayMedia.playToggle, if_neg hPlays]
    refine h.play (by omega) (fun _ hPlays' => absurd hPlays' hPlays) fun hEnd => ?_
    have hZero := hSteady.resolve_left hEnd
    omega

/-- Which lyrics are wanted does not matter. -/
theorem Tight.lyrics (h : Tight w) (wanted : Bool) :
    Tight { w with media := { w.media with lyricsRefetch := wanted } } :=
  ⟨h.now, h.duration, h.base, h.anchor, h.past, h.shown, h.runs, h.behindEnd, h.alike, h.anchored⟩

theorem arrives_false (text : Miplay.Bytes) : arrives false text = false := rfl

theorem newTrack_of_noField (m : MiplayMedia) {e : MediaEvent} (h : NoField e) :
    m.newTrack e = false := by
  simp only [NoField, Bool.not_eq_true', Bool.or_eq_false_iff] at h
  simp [MiplayMedia.newTrack, MiplayMedia.idChanged, MiplayMedia.audioIdChanged,
    MiplayMedia.coverChanged, MiplayMedia.durationChanged, MiplayMedia.titleChanged, arrives, h]

theorem withFields_of_noField (m : MiplayMedia) {e : MediaEvent} (h : NoField e) (b : Bool) :
    m.withFields e b = m := by
  simp only [NoField, Bool.not_eq_true', Bool.or_eq_false_iff] at h
  simp [MiplayMedia.withFields, arrives, h]

/-- Of such an event only the position and the state count. -/
theorem consumeEvent_of_noField (m : MiplayMedia) {e : MediaEvent} (h : NoField e) (nowUs : Int) :
    ∃ wanted, (m.consumeEvent e nowUs).1 =
      { (m.withPosition e nowUs).withState e nowUs with lyricsRefetch := wanted } := by
  simp only [MiplayMedia.consumeEvent, newTrack_of_noField m h, withFields_of_noField m h,
    Bool.false_and, Bool.false_eq_true, if_false]
  exact ⟨_, rfl⟩

/-- The position of an event. -/
def PositionWorld.atPosition (w : PositionWorld) (e : MediaEvent) : PositionWorld :=
  { w with
    media := w.media.withPosition e w.nowUs
    watch := if e.changed.position then w.watch.set w.nowUs (clampMiplayMs e.positionMs) else w.watch }

theorem atPosition_of_position {e : MediaEvent} (hPos : e.changed.position) :
    w.atPosition e =
      { w with
        media :=
          { w.media with
            positionMs := clampMiplayMs e.positionMs
            anchorUs := if w.media.state = .playing then w.nowUs else w.media.anchorUs }
        watch := w.watch.set w.nowUs (clampMiplayMs e.positionMs) } := by
  simp only [PositionWorld.atPosition, MiplayMedia.withPosition, if_pos hPos]

theorem atPosition_of_no_position {e : MediaEvent} (hPos : e.changed.position = false) :
    w.atPosition e = w := by
  simp [PositionWorld.atPosition, MiplayMedia.withPosition, hPos]

theorem Tight.atPosition (h : Tight w) (e : MediaEvent) : Tight (w.atPosition e) := by
  cases hPos : e.changed.position with
  | true =>
    rw [atPosition_of_position hPos]
    exact tight_report e.positionMs h.now h.duration h.anchor h.runs
  | false =>
    rw [atPosition_of_no_position hPos]
    exact h

/-- A position that comes with the state is an anchor. -/
theorem justAnchored_atPosition {e : MediaEvent} (hPos : e.changed.position)
    (hPlays : (w.atPosition e).media.state = .playing) : JustAnchored (w.atPosition e) := by
  rw [atPosition_of_position hPos] at hPlays ⊢
  have hAnchor : w.media.state = .playing := hPlays
  simp [JustAnchored, hAnchor]

theorem Tight.withState (h : Tight w) (e : MediaEvent)
    (hSteady : e.changed.playerState → ¬w.media.AtEnd → w.media.state = .playing →
      e.playerState = .playing ∨ e.changed.position → JustAnchored w) :
    Tight
      { w with
        media := w.media.withState e w.nowUs
        watch :=
          if e.changed.playerState then
            match MiplayMedia.playState e.playerState with
            | none => w.watch
            | some .playing => w.watch.start 1000 w.nowUs
            | some _ => w.watch.stop 1000 w.nowUs
          else w.watch } := by
  cases hMark : e.changed.playerState with
  | false => simpa [MiplayMedia.withState, hMark] using h
  | true =>
    have hHalt {state : PlayState} (hState : state ≠ .playing) :
        Tight
          { w with
            media :=
              { w.media with
                state := state
                positionMs := if e.changed.position then w.media.positionMs
                  else getMiplayPositionMs w.nowUs w.media
                anchorUs := 0 }
            watch := w.watch.stop 1000 w.nowUs } := by
      cases hPos : e.changed.position with
      | true => exact h.pause hState h.now.le fun hEnd hPlays => hSteady hMark hEnd hPlays (.inr hPos)
      | false => exact h.freeze hState
    simp only [MiplayMedia.withState, hMark, if_true]
    cases hState : e.playerState with
    | unknown => exact h
    | stopped => exact hHalt (by decide)
    | paused => exact hHalt (by decide)
    | playing =>
      exact h.play le_rfl (fun hEnd hPlays => hSteady hMark hEnd hPlays (.inl hState)) fun _ => rfl

/-- The state of an event whose position has been taken in. -/
theorem tight_event {e : MediaEvent} (hNone : NoField e) (h : Tight (w.atPosition e))
    (hSteady : e.changed.position = false → Steady w (.event e)) :
    Tight
      { w with
        media := (w.media.consumeEvent e w.nowUs).1
        watch := watchEvent w.nowUs w.watch e } := by
  obtain ⟨wanted, hMedia⟩ := consumeEvent_of_noField w.media hNone w.nowUs
  have hState := h.withState e fun hMark hEnd hPlays hWhy => ?_
  · have hLyrics := hState.lyrics wanted
    rw [hMedia]
    exact hLyrics
  · cases hPos : e.changed.position with
    | true => exact justAnchored_atPosition hPos hPlays
    | false =>
      rw [atPosition_of_no_position hPos] at hEnd hPlays ⊢
      have hSaysPlaying := hWhy.resolve_right (by simp [hPos])
      exact (hSteady hPos).resolve_left hEnd hPlays hPos hMark hSaysPlaying

theorem Tight.event (h : Tight w) {e : MediaEvent} (hStep : w.step (.event e) = some w')
    (hSteady : Steady w (.event e)) : Tight w' := by
  obtain ⟨hNone, hEq⟩ := Option.ite_none_right_eq_some.1 hStep
  obtain rfl := Option.some.inj hEq
  exact tight_event hNone (h.atPosition e) fun _ => hSteady

theorem Tight.tick (h : Tight w) {us : Nat} (hStep : w.step (.tick us) = some w') : Tight w' := by
  obtain rfl := Option.some.inj hStep
  have hLe : w.nowUs ≤ w.nowUs + us := by omega
  exact
    ⟨h.now.trans_le hLe, h.duration, h.base, h.anchor.trans hLe, h.past.mono hLe, h.shown, h.runs,
      h.behindEnd, h.alike, h.anchored⟩

/-! ## Every run -/

/-- The first report of a position reaches the player, which plays `media`. -/
structure PositionStart where
  nowUs : Int
  media : MiplayMedia
  report : MediaEvent
  nowPos : 0 < nowUs
  duration : media.durationMs ≤ intMax
  anchor : media.anchorUs ≤ nowUs
  noField : NoField report
  position : report.changed.position

namespace PositionStart

variable (s : PositionStart)

/-- What has been read before the report does not matter. -/
def before : PositionWorld where
  nowUs := s.nowUs
  media := s.media
  watch := ⟨0, if s.media.state = .playing then some s.nowUs else none⟩

def world : PositionWorld where
  nowUs := s.nowUs
  media := (s.media.consumeEvent s.report s.nowUs).1
  watch := watchEvent s.nowUs s.before.watch s.report

theorem tight : Tight s.world := by
  have hRuns : s.before.watch.since.isSome ↔ s.before.media.state = .playing := by
    by_cases hPlays : s.media.state = .playing <;> simp [before, hPlays]
  have hReport : Tight (s.before.atPosition s.report) := by
    rw [atPosition_of_position s.position]
    exact tight_report _ s.nowPos s.duration s.anchor hRuns
  exact tight_event s.noField hReport fun hPos => absurd s.position (by simp [hPos])

end PositionStart

theorem Tight.step (h : Tight w) {a : PositionAction} (hStep : w.step a = some w')
    (hSteady : Steady w a) : Tight w' := by
  cases a with
  | toggle => exact h.toggle hStep hSteady
  | event e => exact h.event hStep hSteady
  | tick us => exact h.tick hStep

/-- **Continuity.** While the steps are steady the position is that of the stopwatch. -/
theorem position_along (s : PositionStart) (as : List PositionAction)
    (h : Along PositionWorld.step (fun w a _ => Steady w a) s.world as) :
    s.world.Law ∧ Along PositionWorld.step (fun _ _ w' => w'.Law) s.world as :=
  ⟨s.tight.law,
    Along.of_invariant
      (fun _ _ _ hTight hStep hSteady =>
        ⟨hTight.step hStep hSteady, (hTight.step hStep hSteady).law⟩)
      s.tight h⟩

/-- A report of `ms` while PLAYING. -/
def reportEvent (ms : Int) : MediaEvent :=
  { Miplay.miplayMediaEventInit with
    changed := { position := true, playerState := true }
    positionMs := ms
    playerState := .playing }

def stateEvent (state : Miplay.PlayerState) : MediaEvent :=
  { Miplay.miplayMediaEventInit with changed := { playerState := true }, playerState := state }

/-- The phone has just connected. -/
def firstReport (ms : Int) : PositionStart where
  nowUs := 1
  media :=
    { id := [], audioId := [], title := [], artist := [], album := [], coverUrl := []
      state := .stopped, positionMs := 0, durationMs := 0, anchorUs := 0
      lyricsRefetch := true, lyricsUiClear := false }
  report := reportEvent ms
  nowPos := by decide
  duration := by decide
  anchor := by decide
  noField := rfl
  position := rfl

/-- Paused and played at the beginning, and then paused by the phone. -/
theorem position_along_from_start :
    Along PositionWorld.step (fun _ _ w' => w'.Law) (firstReport 0).world
      [.toggle, .tick 2000, .toggle, .tick 5000, .event (stateEvent .paused), .tick 7000] :=
  (position_along (firstReport 0) _ (by decide +kernel)).2

/-- A press after five seconds takes the position back to where it was at the report. -/
theorem pause_jumps_back : ¬∀ (s : PositionStart) (as : List PositionAction),
    Along PositionWorld.step (fun _ _ w' => w'.Law) s.world as := by
  intro hAll
  obtain ⟨w, w', hRun, hStep, hJump⟩ := exists_last_of_any
    (show (run PositionWorld.step (firstReport 1000).world [.tick 5000000]).any
      (fun w => (w.step .toggle).any fun w' => !decide w'.Law) = true by decide +kernel)
  have hLaw := hAll (firstReport 1000) _ |>.last hRun hStep
  simp [hLaw] at hJump

end EspMiplay.Dlna
