import EspMiplay.Lyrics.Fetch

/-!
# Interleavings of calls and fetch tasks

What the lyrics component relies on, and when it may:

- `OneTask`: there is at most one fetch task, and the handle says whether there is one.
- `OneSong`: lyrics that are loaded, and their word tables, come from responses for the song
  that is stored.
- `lyrics_along`: `OneTask` holds along a run if and only if no handle is cleared and no
  task created while there is a task, and every handle is stored with the creation.
  `OneSong` holds along every run that creates no second task and does not bring a
  generation number back while a task still holds it.
- `two_callers`: two calls that both find no task break both.
-/

namespace EspMiplay.Lyrics

open Transition
open EspMiplay.Miplay (Bytes)

section

variable {P : Parsers} {w w' : World} {a : Action}

def World.Live (w : World) (h : Nat) : Prop := w.tasks h ≠ none

/-- At most one fetch task, and the handle says whether there is one. -/
def OneTask (w : World) : Prop :=
  (∀ h h', w.Live h → w.Live h' → h = h') ∧ (w.fetchTask ≠ none ↔ ∃ h, w.Live h)

/-- What is shown for a song comes from responses for that song. -/
def OneSong (w : World) : Prop :=
  w.data.loaded = true →
    (∀ x ∈ w.data.lines, x.song = w.data.song) ∧ (∀ x ∈ w.klyric.words, x.song = w.data.song) ∧
      (∀ x ∈ w.klyric.lines, x.song = w.data.song) ∧ ∀ s ∈ w.klyric.mapFrom, s = w.data.song

/-! ## One task -/

/-- The handle is cleared and a task created only while there is none, and the handle is
stored before the task can run. -/
def Alone (w : World) : Action → Prop
  | .forget _ => ¬∃ h, w.Live h
  | .create _ .psram => False
  | .create _ .internal => ¬∃ h, w.Live h
  | _ => True

structure OneTaskInv (w : World) : Prop where
  one : OneTask w
  /-- no handle is still to be stored -/
  stored : ∀ c h, w.calls c ≠ some (.created h)
  /-- the next handle is new -/
  fresh : ∀ h, w.Live h → h < w.nextTask

theorem live_spawn (h : Nat) : w.spawn.Live h ↔ h = w.nextTask ∨ w.Live h := by
  by_cases hNew : h = w.nextTask
  · simp [World.Live, World.spawn, hNew]
  · simp [World.Live, World.spawn, hNew]

/-- A created task is the second one, or the handle does not say so. -/
theorem OneTaskInv.not_one_spawn (hInv : OneTaskInv w) {w' : World}
    (hTasks : w'.tasks = w.spawn.tasks) (hBad : (∃ h, w.Live h) ∨ w'.fetchTask = none) :
    ¬OneTask w' := by
  have hLive (h : Nat) : w'.Live h ↔ h = w.nextTask ∨ w.Live h := by
    rw [World.Live, hTasks]
    exact live_spawn h
  rintro ⟨hOne, hHandle⟩
  rcases hBad with ⟨h, hh⟩ | hNone
  · have hSame := hOne h w.nextTask ((hLive h).mpr (.inr hh)) ((hLive _).mpr (.inl rfl))
    exact (hInv.fresh h hh).ne hSame
  · exact hHandle.mpr ⟨w.nextTask, (hLive _).mpr (.inl rfl)⟩ hNone

/-- Where tasks and handle stay, so does everything. -/
theorem OneTaskInv.of_same (hInv : OneTaskInv w) (hLive : ∀ h, w'.Live h ↔ w.Live h)
    (hHandle : w'.fetchTask = w.fetchTask) (hNext : w'.nextTask = w.nextTask)
    (hCalls : ∀ c h, w'.calls c ≠ some (.created h)) : OneTaskInv w' where
  one := by
    refine ⟨fun h h' hh hh' => hInv.one.1 h h' ((hLive h).mp hh) ((hLive h').mp hh'), ?_⟩
    rw [hHandle, hInv.one.2]
    exact exists_congr fun h => (hLive h).symm
  stored := hCalls
  fresh h hh := hNext ▸ hInv.fresh h ((hLive h).mp hh)

/-- A task that goes on. -/
theorem live_update {h : Nat} {t t' : FetchTask} (hTask : w.tasks h = some t)
    (hTasks : w'.tasks = Function.update w.tasks h (some t')) (k : Nat) : w'.Live k ↔ w.Live k := by
  rw [World.Live, World.Live, hTasks]
  by_cases hk : k = h
  · simp [hk, hTask]
  · rw [Function.update_of_ne hk]

/-- The calls but one. -/
theorem created_update {calls : Nat → Option CallPc} {c : Nat} {pc : Option CallPc}
    (hCalls : ∀ c h, calls c ≠ some (.created h)) (hPc : ∀ h, pc ≠ some (.created h)) (c' h : Nat) :
    Function.update calls c pc c' ≠ some (.created h) := by
  by_cases hc : c' = c
  · rw [hc, Function.update_self]
    exact hPc h
  · rw [Function.update_of_ne hc]
    exact hCalls c' h

/-- **Step lemma.** -/
theorem OneTaskInv.step (hInv : OneTaskInv w) (hStep : step P w a = some w') :
    (OneTask w' ↔ Alone w a) ∧ (Alone w a → OneTaskInv w') := by
  have hKept (h : OneTaskInv w') (hAlone : Alone w a) :
      (OneTask w' ↔ Alone w a) ∧ (Alone w a → OneTaskInv w') :=
    ⟨iff_of_true h.one hAlone, fun _ => h⟩
  cases a with
  | fetchAsync c title artist songId =>
    have hAfter : lyricsFetchAsync w c title artist songId = w' := by
      simp only [Lyrics.step] at hStep
      split at hStep
      · exact Option.some.inj hStep
      · cases hStep
    subst hAfter
    refine hKept ?_ trivial
    unfold lyricsFetchAsync
    split
    · exact hInv
    · refine hInv.of_same (fun h => Iff.rfl) rfl rfl fun c' h => ?_
      dsimp only
      split
      · exact created_update hInv.stored (by simp) c' h
      · exact hInv.stored c' h
  | clear =>
    obtain rfl : lyricsClear w = w' := by simpa [Lyrics.step] using hStep
    exact hKept (hInv.of_same (fun h => Iff.rfl) rfl rfl hInv.stored) trivial
  | forget c =>
    simp only [Lyrics.step] at hStep
    split at hStep
    · obtain rfl := Option.some.inj hStep
      have hCalls : ∀ c' h, Function.update w.calls c (some CallPc.creating) c' ≠ some (.created h) :=
        created_update hInv.stored (by simp)
      by_cases hSome : ∃ h, w.Live h
      · refine ⟨iff_of_false (fun hOne => ?_) fun hNone => hNone hSome, fun hNone => absurd hSome hNone⟩
        exact hOne.2.mpr hSome rfl
      · have hNone : w.fetchTask = none := by
          by_contra hHandle
          exact hSome (hInv.one.2.mp hHandle)
        exact hKept (hInv.of_same (fun h => Iff.rfl) hNone.symm rfl hCalls) hSome
    · cases hStep
  | create c o =>
    simp only [Lyrics.step] at hStep
    split at hStep
    · cases o with
      | psram =>
        obtain rfl := Option.some.inj hStep
        refine ⟨iff_of_false (hInv.not_one_spawn rfl ?_) id, False.elim⟩
        by_cases hSome : ∃ h, w.Live h
        · exact .inl hSome
        · refine .inr ?_
          by_contra hHandle
          exact hSome (hInv.one.2.mp hHandle)
      | internal =>
        obtain rfl := Option.some.inj hStep
        by_cases hSome : ∃ h, w.Live h
        · exact ⟨iff_of_false (hInv.not_one_spawn rfl (.inl hSome)) fun hNone => hNone hSome,
            fun hNone => absurd hSome hNone⟩
        · refine hKept ⟨⟨fun h h' hh hh' => ?_, ?_⟩, ?_, fun h hh => ?_⟩ hSome
          · rcases (live_spawn h).mp hh with rfl | hOld
            · rcases (live_spawn h').mp hh' with rfl | hOld
              · rfl
              · exact absurd ⟨h', hOld⟩ hSome
            · exact absurd ⟨h, hOld⟩ hSome
          · exact iff_of_true (by simp) ⟨w.nextTask, (live_spawn _).mpr (.inl rfl)⟩
          · exact created_update hInv.stored (by simp)
          · rcases (live_spawn h).mp hh with rfl | hOld
            · exact Nat.lt_succ_self _
            · exact (hInv.fresh h hOld).trans (Nat.lt_succ_self _)
      | failed =>
        obtain rfl := Option.some.inj hStep
        exact hKept (hInv.of_same (fun h => Iff.rfl) rfl rfl
          (created_update hInv.stored (by simp))) trivial
    · cases hStep
  | store c =>
    simp only [Lyrics.step] at hStep
    split at hStep
    · rename_i h hCall
      exact absurd hCall (hInv.stored c h)
    · cases hStep
  | fetch h =>
    simp only [Lyrics.step] at hStep
    split at hStep
    · rename_i t hTask
      obtain ⟨⟨g, t'⟩, -, rfl⟩ := Option.map_eq_some_iff.mp hStep
      cases t' with
      | some t' =>
        exact hKept (hInv.of_same (live_update hTask rfl) (by simp) rfl hInv.stored) trivial
      | none =>
        -- it was the only one
        have hNone (k : Nat) : ¬World.Live { w with
            toShared := g
            tasks := Function.update w.tasks h none
            fetchTask := if (none : Option FetchTask) = none then none else w.fetchTask } k := by
          intro hLive
          by_cases hk : k = h
          · simp [World.Live, hk] at hLive
          · have hOld : w.Live k := by simpa [World.Live, hk] using hLive
            exact hk (hInv.one.1 k h hOld (by simp [World.Live, hTask]))
        exact hKept ⟨⟨fun k _ hk => absurd hk (hNone k),
          iff_of_false (by simp) fun ⟨k, hk⟩ => hNone k hk⟩, hInv.stored,
          fun k hk => absurd hk (hNone k)⟩ trivial
    · cases hStep
  | searched h found =>
    simp only [Lyrics.step] at hStep
    split at hStep
    · rename_i hTask
      obtain rfl := Option.some.inj hStep
      exact hKept (hInv.of_same (live_update hTask rfl) rfl rfl hInv.stored) trivial
    · cases hStep
  | response h r =>
    simp only [Lyrics.step] at hStep
    split at hStep
    · rename_i hTask
      obtain rfl := Option.some.inj hStep
      exact hKept (hInv.of_same (live_update hTask rfl) rfl rfl hInv.stored) trivial
    · cases hStep

theorem OneTaskInv.initial : OneTaskInv World.initial where
  one := ⟨fun h _ hh => absurd rfl hh, iff_of_false (by simp [World.initial]) fun ⟨h, hh⟩ => hh rfl⟩
  stored c h := by simp [World.initial]
  fresh h hh := absurd rfl hh

/-! ## One song -/

/-- No task still holds the generation that comes next. -/
def World.NotHeld (w : World) : Prop :=
  ∀ h song gen pc, w.tasks h = some (.running song gen pc) → gen ≠ w.fetchGen + 1

/-- No second task is created, and no generation comes back while a task holds it. -/
def Separate (w : World) : Action → Prop
  | .create _ o => o = .failed ∨ ¬∃ h, w.Live h
  | .fetchAsync _ title artist _ => cached w title artist ∨ w.NotHeld
  | .clear => w.NotHeld
  | _ => True

/-- The word tables come from responses for the song. -/
structure KlyricFrom (song : Song) (k : Klyric) : Prop where
  words : ∀ x ∈ k.words, x.song = song
  lines : ∀ x ∈ k.lines, x.song = song
  map : ∀ s ∈ k.mapFrom, s = song

theorem klyricFrom_reset (song : Song) : KlyricFrom song resetKlyric :=
  ⟨by simp [resetKlyric], by simp [resetKlyric], by simp [resetKlyric]⟩

theorem KlyricFrom.write {song : Song} {k : Klyric} (h : KlyricFrom song k) (x : KlyricWrite)
    (left : List KlyricWrite) : KlyricFrom song (klyricWrite song k x left).1 := by
  obtain ⟨hWords, hLines, hMap⟩ := h
  rcases x with _ | (time | word) | _
  · exact ⟨by simp [klyricWrite], by simp [klyricWrite], hMap⟩
  · simp only [klyricWrite]
    split
    · refine ⟨hWords, fun x hx => ?_, hMap⟩
      rcases List.mem_append.mp hx with hOld | hNew
      · exact hLines x hOld
      · rw [List.mem_singleton.mp hNew]
    · exact ⟨hWords, hLines, hMap⟩
  · simp only [klyricWrite]
    split
    · refine ⟨fun x hx => ?_, hLines, hMap⟩
      rcases List.mem_append.mp hx with hOld | hNew
      · exact hWords x hOld
      · rw [List.mem_singleton.mp hNew]
    · exact ⟨hWords, hLines, hMap⟩
  · exact ⟨hWords, hLines, hMap⟩

theorem KlyricFrom.apply {song : Song} {k : Klyric} (h : KlyricFrom song k) (lines : List Line) :
    KlyricFrom song (applyKlyric P song lines k) := by
  obtain ⟨hWords, hLines, hMap⟩ := h
  simp only [applyKlyric]
  split
  · refine ⟨fun x hx => ?_, fun x hx => ?_, fun s hs => ?_⟩
    · obtain ⟨-, -, rfl⟩ := List.mem_map.mp hx
      rfl
    · obtain ⟨-, -, rfl⟩ := List.mem_map.mp hx
      rfl
    · simp only [List.map_map, List.mem_cons, List.mem_map] at hs
      rcases hs with rfl | ⟨-, -, rfl⟩ <;> rfl
  · refine ⟨hWords, hLines, fun s hs => ?_⟩
    rcases List.mem_cons.mp hs with rfl | hs
    · rfl
    · obtain ⟨x, hx, rfl⟩ := List.mem_map.mp hs
      exact hLines x hx

/-- What a running task does to the variables it shares. -/
structure Works (song : Song) (gen : UInt32) (g g' : Shared) : Prop where
  sameGen : g'.fetchGen = g.fetchGen
  sameSong : g'.data.song = g.data.song
  /-- the lines are its own, and only a current task loads any -/
  data : g'.data = g.data ∨ gen = g.fetchGen ∧ ∀ x ∈ g'.data.lines, x.song = song
  klyric : KlyricFrom song g.klyric → KlyricFrom song g'.klyric

theorem Works.refl (song : Song) (gen : UInt32) (g : Shared) : Works song gen g g :=
  ⟨rfl, rfl, .inl rfl, id⟩

theorem works_applyLrc (song : Song) (gen : UInt32) (g : Shared) (s : Stage) (lrc : Bytes) :
    Works song gen g (applyLrc P g song gen s lrc).1 := by
  simp only [applyLrc]
  split
  · exact .refl song gen g
  · rename_i hGen
    have hLines : ∀ x ∈ (P.parseLrc lrc).map (From.mk song), x.song = song := by
      intro x hx
      obtain ⟨-, -, rfl⟩ := List.mem_map.mp hx
      rfl
    split
    · exact ⟨rfl, rfl, .inr ⟨not_not.mp hGen, hLines⟩, id⟩
    · exact ⟨rfl, rfl, .inr ⟨not_not.mp hGen, hLines⟩, fun hFrom => hFrom.apply _⟩

/-- **Inversion.** A running task keeps song and generation as long as it runs. -/
theorem fetchStep_running {song : Song} {gen : UInt32} {pc : FetchPc} {g g' : Shared}
    {t' : Option FetchTask} (hStep : fetchStep P g (.running song gen pc) = some (g', t')) :
    Works song gen g g' ∧
      (t' = none ∨ t' = some .top ∨ ∃ pc', t' = some (.running song gen pc')) := by
  have hStays {g₁ : Shared} {pc' : FetchPc} (hWorks : Works song gen g g₁)
      (hEq : some (g₁, some (FetchTask.running song gen pc')) = some (g', t')) :
      Works song gen g g' ∧
        (t' = none ∨ t' = some .top ∨ ∃ pc', t' = some (.running song gen pc')) := by
    obtain ⟨rfl, rfl⟩ := Prod.mk.inj (Option.some.inj hEq)
    exact ⟨hWorks, .inr (.inr ⟨pc', rfl⟩)⟩
  have hCurrent {pc' : FetchPc}
      (hEq : (if gen ≠ g.fetchGen then some (g, some FetchTask.top)
        else some (g, some (.running song gen pc'))) = some (g', t')) :
      Works song gen g g' ∧
        (t' = none ∨ t' = some .top ∨ ∃ pc', t' = some (.running song gen pc')) := by
    split at hEq
    · obtain ⟨rfl, rfl⟩ := Prod.mk.inj (Option.some.inj hEq)
      exact ⟨.refl song gen g, .inr (.inl rfl)⟩
    · exact hStays (.refl song gen g) hEq
  cases pc with
  | search => cases hStep
  | request s => cases hStep
  | found b => exact hCurrent hStep
  | writes s lrc left =>
    cases left with
    | nil => exact hStays (.refl song gen g) hStep
    | cons x left =>
      refine hStays ?_ hStep
      exact ⟨rfl, rfl, .inl rfl, fun hFrom => hFrom.write x left⟩
  | fetched s lrc => exact hCurrent hStep
  | apply s lrc =>
    cases lrc with
    | none => exact hStays (.refl song gen g) hStep
    | some lrc =>
      simp only [fetchStep] at hStep
      split at hStep
      · exact hStays (works_applyLrc song gen g s lrc) hStep
      · exact hStays (.refl song gen g) hStep
  | unusable s => exact hStays (.refl song gen g) hStep
  | reset s =>
    refine hStays ?_ hStep
    exact ⟨rfl, rfl, .inl rfl, fun _ => klyricFrom_reset song⟩
  | failed s => cases s <;> first | exact hCurrent hStep | exact hStays (.refl song gen g) hStep
  | exit =>
    simp only [fetchStep] at hStep
    split at hStep
    · obtain ⟨rfl, rfl⟩ := Prod.mk.inj (Option.some.inj hStep)
      exact ⟨.refl song gen g, .inr (.inl rfl)⟩
    · obtain ⟨rfl, rfl⟩ := Prod.mk.inj (Option.some.inj hStep)
      exact ⟨.refl song gen g, .inl rfl⟩

/-! ### The invariant -/

structure OneSongInv (w : World) : Prop where
  one : ∀ h h', w.Live h → w.Live h' → h = h'
  /-- a task of the current generation fetches the stored song -/
  song : ∀ h song gen pc, w.tasks h = some (.running song gen pc) → gen = w.fetchGen →
    song = w.data.song
  /-- nothing is loaded while a task is behind -/
  current : w.data.loaded = true → ∀ h song gen pc, w.tasks h = some (.running song gen pc) →
    gen = w.fetchGen
  lines : ∀ x ∈ w.data.lines, x.song = w.data.song
  /-- the tables count when they are shown, and when a task is about to show them -/
  tables : (w.data.loaded = true ∨ ∃ h song pc, w.tasks h = some (.running song w.fetchGen pc)) →
    KlyricFrom w.data.song w.klyric

namespace OneSongInv

theorem oneSong (hInv : OneSongInv w) : OneSong w := fun hLoaded =>
  have hTables := hInv.tables (.inl hLoaded)
  ⟨hInv.lines, hTables.words, hTables.lines, hTables.map⟩

theorem initial : OneSongInv World.initial where
  one h _ hh := absurd rfl hh
  song h _ _ _ hh := by simp [World.initial] at hh
  current hLoaded := by simp [World.initial] at hLoaded
  lines x hx := by simp [World.initial] at hx
  tables _ := klyricFrom_reset _

/-- A new song, or none. -/
theorem renew (hInv : OneSongInv w) (hHeld : w.NotHeld) (hTasks : w'.tasks = w.tasks)
    (hLoaded : w'.data.loaded = false) (hLines : w'.data.lines = []) (hKlyric : w'.klyric = resetKlyric)
    (hGen : w'.fetchGen = w.fetchGen + 1) : OneSongInv w' where
  one h h' hh hh' := hInv.one h h' (by rwa [World.Live, ← hTasks]) (by rwa [World.Live, ← hTasks])
  song h song gen pc hTask hSame := by
    rw [hTasks] at hTask
    exact absurd (hSame.trans hGen) (hHeld h song gen pc hTask)
  current hLoaded' := by simp [hLoaded] at hLoaded'
  lines x hx := by simp [hLines] at hx
  tables _ := hKlyric ▸ klyricFrom_reset _

/-- The variables stay, and every running task was running, as far as song and generation
go. -/
theorem of_same (hInv : OneSongInv w) (hShared : w'.toShared = w.toShared)
    (hOne : ∀ h h', w'.Live h → w'.Live h' → h = h')
    (hTasks : ∀ h song gen pc, w'.tasks h = some (.running song gen pc) →
      ∃ pc', w.tasks h = some (.running song gen pc')) : OneSongInv w' where
  one := hOne
  song h song gen pc hTask hSame := by
    obtain ⟨pc', hTask'⟩ := hTasks h song gen pc hTask
    rw [hShared] at hSame ⊢
    exact hInv.song h song gen pc' hTask' hSame
  current hLoaded h song gen pc hTask := by
    obtain ⟨pc', hTask'⟩ := hTasks h song gen pc hTask
    rw [hShared] at hLoaded ⊢
    exact hInv.current hLoaded h song gen pc' hTask'
  lines := by
    rw [hShared]
    exact hInv.lines
  tables hShown := by
    rw [hShared] at hShown ⊢
    refine hInv.tables (hShown.imp_right fun ⟨h, song, pc, hTask⟩ => ?_)
    obtain ⟨pc', hTask'⟩ := hTasks h song _ pc hTask
    exact ⟨h, song, pc', hTask'⟩

/-- A response is taken on. -/
theorem goesOn (hInv : OneSongInv w) {h : Nat} {song : Song} {gen : UInt32} {pc pc' : FetchPc}
    (hTask : w.tasks h = some (.running song gen pc)) (hShared : w'.toShared = w.toShared)
    (hTasks : w'.tasks = Function.update w.tasks h (some (.running song gen pc'))) : OneSongInv w' := by
  refine hInv.of_same hShared (fun k k' hk hk' => ?_) fun k song₁ gen₁ pc₁ hk => ?_
  · exact hInv.one k k' ((live_update hTask hTasks k).mp hk) ((live_update hTask hTasks k').mp hk')
  · rw [hTasks] at hk
    by_cases hSame : k = h
    · obtain ⟨rfl, rfl, -⟩ : song = song₁ ∧ gen = gen₁ ∧ pc' = pc₁ := by simpa [hSame] using hk
      exact ⟨pc, hSame ▸ hTask⟩
    · rw [Function.update_of_ne hSame] at hk
      exact ⟨pc₁, hk⟩

/-- A fetch task moves. -/
theorem fetched (hInv : OneSongInv w) {h : Nat} {t : FetchTask} {g : Shared} {t' : Option FetchTask}
    (hTask : w.tasks h = some t) (hFetch : fetchStep P w.toShared t = some (g, t'))
    (hShared : w'.toShared = g) (hTasks : w'.tasks = Function.update w.tasks h t') : OneSongInv w' := by
  subst hShared
  have hOnly {k : Nat} (hk : w'.Live k) : k = h := by
    by_contra hOther
    rw [World.Live, hTasks, Function.update_of_ne hOther] at hk
    exact hOther (hInv.one k h hk (by simp [World.Live, hTask]))
  -- a task that runs now is the one that has moved
  have hMoved {k : Nat} {song : Song} {gen : UInt32} {pc : FetchPc}
      (hk : w'.tasks k = some (.running song gen pc)) : t' = some (.running song gen pc) := by
    obtain rfl := hOnly (by simp [World.Live, hk] : w'.Live k)
    rwa [hTasks, Function.update_self] at hk
  have hOne : ∀ k k', w'.Live k → w'.Live k' → k = k' := fun k k' hk hk' =>
    (hOnly hk).trans (hOnly hk').symm
  cases t with
  | top =>
    obtain ⟨hShared, rfl⟩ := Prod.mk.inj (Option.some.inj hFetch)
    have hData : w'.data = w.data := by rw [← hShared]; rfl
    have hGen : w'.fetchGen = w.fetchGen := by rw [← hShared]; rfl
    have hKlyric : w'.klyric = resetKlyric := by rw [← hShared]; rfl
    have hCopied {k : Nat} {song : Song} {gen : UInt32} {pc : FetchPc}
        (hk : w'.tasks k = some (.running song gen pc)) : w.data.song = song ∧ w.fetchGen = gen := by
      have hSame := hMoved hk
      simp only [fetchTop, Option.some.injEq, FetchTask.running.injEq] at hSame
      exact ⟨hSame.1, hSame.2.1⟩
    exact {
      one := hOne
      song := fun k song gen pc hk _ => by rw [hData, (hCopied hk).1]
      current := fun _ k song gen pc hk => by rw [hGen, (hCopied hk).2]
      lines := by
        rw [hData]
        exact hInv.lines
      tables := fun _ => hKlyric ▸ klyricFrom_reset _ }
  | running song gen pc =>
    obtain ⟨⟨hGen', hSong', hData, hKlyric⟩, hNext⟩ := fetchStep_running hFetch
    have hSame {k : Nat} {song₁ : Song} {gen₁ : UInt32} {pc₁ : FetchPc}
        (hk : w'.tasks k = some (.running song₁ gen₁ pc₁)) : song₁ = song ∧ gen₁ = gen := by
      rw [hMoved hk] at hNext
      obtain hNext | hNext | ⟨pc', hNext⟩ := hNext
      · cases hNext
      · cases hNext
      · cases hNext
        exact ⟨rfl, rfl⟩
    by_cases hGen : gen = w.fetchGen
    · have hSong := hInv.song h song gen pc hTask hGen
      have hTables := hInv.tables (.inr ⟨h, song, pc, hGen ▸ hTask⟩)
      exact {
        one := hOne
        song := fun k song₁ gen₁ pc₁ hk _ => by rw [(hSame hk).1, hSong', hSong]
        current := fun _ k song₁ gen₁ pc₁ hk => by rw [(hSame hk).2, hGen', hGen]
        lines := by
          rcases hData with hData | ⟨-, hLines⟩
          · rw [hData]
            exact hInv.lines
          · rw [hSong', ← hSong]
            exact hLines
        tables := fun _ => by
          rw [hSong', ← hSong]
          exact hKlyric (hSong ▸ hTables) }
    · have hData' : w'.data = w.data := hData.resolve_right fun hCurrent => hGen hCurrent.1
      have hLoaded : ¬w'.data.loaded = true := by
        rw [hData']
        exact fun hLoaded => hGen (hInv.current hLoaded h song gen pc hTask)
      have hStale {k : Nat} {song₁ : Song} {pc₁ : FetchPc} :
          w'.tasks k ≠ some (.running song₁ w'.fetchGen pc₁) := fun hk =>
        hGen ((hSame hk).2.symm.trans hGen')
      exact {
        one := hOne
        song := fun k song₁ gen₁ pc₁ hk hCurrent => absurd (hCurrent ▸ hk) hStale
        current := fun hShown => absurd hShown hLoaded
        lines := by
          rw [hData']
          exact hInv.lines
        tables := fun hShown => hShown.elim (absurd · hLoaded) fun ⟨k, song₁, pc₁, hk⟩ =>
          absurd hk hStale }

/-- **Step lemma.** -/
theorem step (hInv : OneSongInv w) (hStep : step P w a = some w') (hSeparate : Separate w a) :
    OneSongInv w' := by
  cases a with
  | fetchAsync c title artist songId =>
    have hAfter : lyricsFetchAsync w c title artist songId = w' := by
      simp only [Lyrics.step] at hStep
      split at hStep
      · exact Option.some.inj hStep
      · cases hStep
    subst hAfter
    unfold lyricsFetchAsync
    split
    · exact hInv
    · rename_i hMiss
      exact hInv.renew (hSeparate.resolve_left hMiss) rfl rfl rfl rfl rfl
  | clear =>
    obtain rfl : lyricsClear w = w' := by simpa [Lyrics.step] using hStep
    exact hInv.renew hSeparate rfl rfl rfl rfl rfl
  | forget c =>
    simp only [Lyrics.step] at hStep
    split at hStep
    · obtain rfl := Option.some.inj hStep
      exact hInv.of_same rfl hInv.one fun h song gen pc hTask => ⟨pc, hTask⟩
    · cases hStep
  | create c o =>
    have hSpawn (hNone : ¬∃ h, w.Live h) {w₁ : World} (hShared : w₁.toShared = w.toShared)
        (hTasks : w₁.tasks = w.spawn.tasks) : OneSongInv w₁ := by
      refine hInv.of_same hShared (fun h h' hh hh' => ?_) fun h song gen pc hTask => ?_
      · rw [World.Live, hTasks] at hh hh'
        rcases (live_spawn h).mp hh with rfl | hOld
        · rcases (live_spawn h').mp hh' with rfl | hOld
          · rfl
          · exact absurd ⟨h', hOld⟩ hNone
        · exact absurd ⟨h, hOld⟩ hNone
      · rw [hTasks, World.spawn] at hTask
        dsimp only at hTask
        by_cases hNew : h = w.nextTask
        · simp [hNew] at hTask
        · rw [Function.update_of_ne hNew] at hTask
          exact ⟨pc, hTask⟩
    simp only [Lyrics.step] at hStep
    split at hStep
    · cases o with
      | psram =>
        obtain rfl := Option.some.inj hStep
        exact hSpawn (hSeparate.resolve_left (by simp)) rfl rfl
      | internal =>
        obtain rfl := Option.some.inj hStep
        exact hSpawn (hSeparate.resolve_left (by simp)) rfl rfl
      | failed =>
        obtain rfl := Option.some.inj hStep
        exact hInv.of_same rfl hInv.one fun h song gen pc hTask => ⟨pc, hTask⟩
    · cases hStep
  | store c =>
    simp only [Lyrics.step] at hStep
    split at hStep
    · obtain rfl := Option.some.inj hStep
      exact hInv.of_same rfl hInv.one fun h song gen pc hTask => ⟨pc, hTask⟩
    · cases hStep
  | fetch h =>
    simp only [Lyrics.step] at hStep
    split at hStep
    · rename_i t hTask
      obtain ⟨⟨g, t'⟩, hFetch, rfl⟩ := Option.map_eq_some_iff.mp hStep
      exact hInv.fetched hTask hFetch rfl rfl
    · cases hStep
  | searched h found =>
    simp only [Lyrics.step] at hStep
    split at hStep
    · rename_i song gen hTask
      obtain rfl := Option.some.inj hStep
      exact hInv.goesOn hTask rfl rfl
    · cases hStep
  | response h r =>
    simp only [Lyrics.step] at hStep
    split at hStep
    · rename_i song gen s hTask
      obtain rfl := Option.some.inj hStep
      exact hInv.goesOn hTask rfl rfl
    · cases hStep

end OneSongInv

theorem oneSong_along (P : Parsers) {as : List Action}
    (hRun : Along (Lyrics.step P) (fun w a _ => Separate w a) World.initial as) :
    Along (Lyrics.step P) (fun _ _ w' => OneSong w') World.initial as :=
  Along.of_invariant (fun _ _ _ hInv hStep hSeparate =>
    have hInv' := hInv.step hStep hSeparate
    ⟨hInv', hInv'.oneSong⟩) OneSongInv.initial hRun

/-- **Lyrics.** Along every run the handle tells the one fetch task if and only if handles
and tasks are made while there is none; and what is shown for a song comes from responses
for that song, as long as no second task is created and no generation comes back. -/
theorem lyrics_along (P : Parsers) (as : List Action) :
    (Along (Lyrics.step P) (fun _ _ w' => OneTask w') World.initial as ↔
        Along (Lyrics.step P) (fun w a _ => Alone w a) World.initial as) ∧
      (Along (Lyrics.step P) (fun w a _ => Separate w a) World.initial as →
        Along (Lyrics.step P) (fun _ _ w' => OneSong w') World.initial as) :=
  ⟨along_iff_of_invariant (fun _ _ _ hInv hStep => (hInv.step hStep).1)
    (fun _ _ _ hInv hStep hAlone => (hInv.step hStep).2 hAlone) OneTaskInv.initial, oneSong_along P⟩

/-- Every text has one line and one word. -/
def oneWord : Parsers where
  lrcUsable := fun _ => true
  parseLrc := fun _ => [⟨0, []⟩]
  parseKlyric := fun _ => [.word ⟨0, 100⟩]
  generatePseudoKlyric := fun _ => ([], [])
  lrcToKlyric := fun _ _ => []

/-- A song is fetched by one call. -/
theorem lyrics_along_once :
    Along (Lyrics.step oneWord) (fun _ _ w' => OneSong w') World.initial
      [.fetchAsync 0 [65] [] 7, .forget 0, .create 0 .psram, .store 0, .fetch 0] :=
  (lyrics_along oneWord _).2 ⟨.inr fun _ _ _ _ hTask => (by cases hTask), trivial,
    .inr fun ⟨_, hLive⟩ => hLive rfl, trivial, trivial, trivial⟩

/-- Two callers find no task; both of their tasks fetch song 66. A third call asks for
song 67, which the second task loads while the first still reads its response. -/
def twoCallersRun : List Action :=
  let text := some (List.replicate 11 65)
  [.fetchAsync 0 [65] [] 7, .fetchAsync 1 [66] [] 7, .forget 0, .create 0 .internal, .forget 1,
    .create 1 .internal, .fetch 0, .response 0 ⟨text, text, none, none⟩,
    .fetchAsync 2 [67] [] 7, .fetch 1, .response 1 ⟨text, none, none, none⟩, .fetch 1, .fetch 1,
    .fetch 1, .fetch 0]

/-- There are two tasks, and words of song 66 are shown for song 67. -/
theorem two_callers :
    ¬∀ P as, Along (Lyrics.step P) (fun _ _ w' => OneTask w' ∧ OneSong w') World.initial as := by
  intro hAll
  obtain ⟨w, w', hRun, hStep, hMixed⟩ := exists_last_of_any
    (show (run (Lyrics.step oneWord) World.initial twoCallersRun).any
      (fun w => (Lyrics.step oneWord w (.fetch 0)).any fun w' =>
        w'.data.loaded && w'.klyric.words.any fun x => x.song ≠ w'.data.song) = true by decide +kernel)
  rw [Bool.and_eq_true, List.any_eq_true] at hMixed
  obtain ⟨hLoaded, x, hx, hOther⟩ := hMixed
  have hOneSong := ((hAll oneWord (twoCallersRun ++ [.fetch 0])).last hRun hStep).2 hLoaded
  exact of_decide_eq_true hOther (hOneSong.2.1 x hx)

end

end EspMiplay.Lyrics
