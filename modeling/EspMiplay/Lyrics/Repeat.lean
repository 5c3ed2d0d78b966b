import EspMiplay.Lyrics.Interleaving
import EspMiplay.Miplay.TextBounds

/-!
# Requests that are repeated

`lyrics_fetch_async` compares the texts of its caller with the record, where they were cut to
the 63 bytes its fields have room for.

## Results

* `step_song`      — only calls change the song of the record.
* `repeat_iff`     — a call that is repeated once its lyrics are loaded.
* `longTitle_reloads` — a title of 64 bytes.
-/

namespace EspMiplay.Lyrics

open Transition
open EspMiplay.Miplay (Bytes cstr strncpy strncpy_cstr strncpy_strncpy)

/-- What the record keeps of the texts of a call. -/
def storedSong (title artist : Bytes) : Song := ⟨strncpy 64 title, strncpy 64 artist⟩

/-- Lyrics, tables, generation and tasks are as before; no task is going to be created. -/
structure SameLyrics (w w' : World) : Prop where
  data : w'.data = w.data
  klyric : w'.klyric = w.klyric
  fetchGen : w'.fetchGen = w.fetchGen
  fetchTask : w'.fetchTask = w.fetchTask
  tasks : w'.tasks = w.tasks
  calls : w'.calls = w.calls

/-- No step but the same request, or one of another kind than a request. -/
def Action.Repeats (title artist : Bytes) (songId : Nat) : Action → Prop
  | .fetchAsync _ title' artist' songId' => title' = title ∧ artist' = artist ∧ songId' = songId
  | .clear => False
  | _ => True

section

variable {P : Parsers} {w w' : World} {title artist : Bytes} {songId : Nat}

theorem strncpy_eq_cstr_iff (n : Nat) (p : Bytes) :
    strncpy n p = cstr p ↔ (cstr p).length ≤ n - 1 := by
  rw [strncpy, List.take_eq_self_iff]

/-- The record of a call, by which it is found again when its texts were not cut. -/
theorem cached_iff (hSong : w.data.song = storedSong title artist) :
    cached w title artist ↔
      w.data.loaded ∧ (cstr title).length ≤ 63 ∧ (cstr artist).length ≤ 63 := by
  rw [cached, hSong, storedSong, Song.mk.injEq, strncpy_eq_cstr_iff, strncpy_eq_cstr_iff]

theorem sameLyrics_iff (c : Nat) :
    SameLyrics w (lyricsFetchAsync w c title artist songId) ↔ cached w title artist := by
  by_cases hCached : cached w title artist
  · rw [lyricsFetchAsync, if_pos hCached]
    exact iff_of_true ⟨rfl, rfl, rfl, rfl, rfl, rfl⟩ hCached
  · rw [lyricsFetchAsync, if_neg hCached]
    refine iff_of_false (fun hSame => ?_) hCached
    have hNext : w.fetchGen + 1 = w.fetchGen := hSame.fetchGen
    simp at hNext

theorem fetchStep_song {t : FetchTask} {g g' : Shared} {t' : Option FetchTask}
    (hStep : fetchStep P g t = some (g', t')) : g'.data.song = g.data.song := by
  cases t with
  | top =>
    obtain ⟨rfl, -⟩ := Prod.mk.inj (Option.some.inj hStep)
    rfl
  | running song gen pc => exact (fetchStep_running hStep).1.sameSong

/-- **Step.** Only a request that is not cached, and `lyrics_clear`, change the song. -/
theorem step_song {a : Action} (hStep : step P w a = some w') :
    w'.data.song = w.data.song ∨ a = .clear ∧ w' = lyricsClear w ∨
      ∃ c title artist songId, a = .fetchAsync c title artist songId ∧
        w'.data.song = storedSong title artist := by
  cases a with
  | fetchAsync c title artist songId =>
    simp only [step] at hStep
    split_ifs at hStep with hFree
    obtain rfl := Option.some.inj hStep
    by_cases hCached : cached w title artist
    · rw [lyricsFetchAsync, if_pos hCached]
      exact .inl rfl
    · rw [lyricsFetchAsync, if_neg hCached]
      exact .inr (.inr ⟨c, title, artist, songId, rfl, rfl⟩)
  | clear =>
    obtain rfl := Option.some.inj hStep
    exact .inr (.inl ⟨rfl, rfl⟩)
  | forget c =>
    simp only [step] at hStep
    split_ifs at hStep
    obtain rfl := Option.some.inj hStep
    exact .inl rfl
  | create c o =>
    simp only [step] at hStep
    split_ifs at hStep
    cases o <;>
    · obtain rfl := Option.some.inj hStep
      exact .inl rfl
  | store c =>
    simp only [step] at hStep
    split at hStep
    · obtain rfl := Option.some.inj hStep
      exact .inl rfl
    · cases hStep
  | fetch h =>
    simp only [step] at hStep
    split at hStep
    · obtain ⟨⟨g, t'⟩, hFetch, rfl⟩ := Option.map_eq_some_iff.1 hStep
      exact .inl (fetchStep_song hFetch)
    · cases hStep
  | searched h found =>
    simp only [step] at hStep
    split at hStep
    · obtain rfl := Option.some.inj hStep
      exact .inl rfl
    · cases hStep
  | response h r =>
    simp only [step] at hStep
    split at hStep
    · obtain rfl := Option.some.inj hStep
      exact .inl rfl
    · cases hStep

/-- The song of the record has been cut to its fields. -/
def Cut (w : World) : Prop := w.data.song = storedSong w.data.song.title w.data.song.artist

theorem Cut.step {a : Action} (hCut : Cut w) (hStep : Lyrics.step P w a = some w') : Cut w' := by
  obtain hSame | ⟨-, rfl⟩ | ⟨c, title, artist, songId, -, hSong⟩ := step_song hStep
  · rw [Cut, hSame]
    exact hCut
  · rfl
  · rw [Cut, hSong]
    simp only [storedSong, strncpy_strncpy]

/-- Behind a request the record is the one of the request, cached or not. -/
theorem request_song {c : Nat} (hCut : Cut w)
    (hStep : step P w (.fetchAsync c title artist songId) = some w') :
    w'.data.song = storedSong title artist := by
  simp only [step] at hStep
  split_ifs at hStep with hFree
  obtain rfl := Option.some.inj hStep
  by_cases hCached : cached w title artist
  · rw [lyricsFetchAsync, if_pos hCached, hCut, hCached.2]
    simp only [storedSong, strncpy_cstr]
  · rw [lyricsFetchAsync, if_neg hCached]
    rfl

theorem repeats_song {after : List Action} (hSong : w.data.song = storedSong title artist)
    (hAfter : ∀ a ∈ after, a.Repeats title artist songId)
    (hRun : Transition.run (step P) w after = some w') :
    w'.data.song = storedSong title artist := by
  induction after generalizing w with
  | nil =>
    obtain rfl : w = w' := by simpa [Transition.run] using hRun
    exact hSong
  | cons a after ih =>
    obtain ⟨hNow, hRest⟩ := List.forall_mem_cons.1 hAfter
    obtain ⟨v, hStep, hTail⟩ := Option.bind_eq_some_iff.1 hRun
    refine ih ?_ hRest hTail
    obtain hSame | ⟨rfl, -⟩ | ⟨c, title', artist', songId', rfl, hNew⟩ := step_song hStep
    · rw [hSame, hSong]
    · exact hNow.elim
    · rw [hNew, hNow.1, hNow.2.1]

/-- **Repeated requests.** A request whose lyrics have been loaded changes nothing when it
comes again, exactly when the record has room for its texts. -/
theorem repeat_iff {before after : List Action} {c : Nat} (d : Nat)
    (hRun : Transition.run (step P) World.initial
      (before ++ .fetchAsync c title artist songId :: after) = some w)
    (hAfter : ∀ a ∈ after, a.Repeats title artist songId) (hLoaded : w.data.loaded) :
    SameLyrics w (lyricsFetchAsync w d title artist songId) ↔
      (cstr title).length ≤ 63 ∧ (cstr artist).length ≤ 63 := by
  rw [Transition.run_append] at hRun
  obtain ⟨u, hBefore, hRest⟩ := Option.bind_eq_some_iff.1 hRun
  obtain ⟨v, hRequest, hTail⟩ := Option.bind_eq_some_iff.1 hRest
  have hStart : Cut World.initial := rfl
  have hCut : Cut u := invariant_of_run (fun _ _ _ hCut hStep => hCut.step hStep) hStart hBefore
  have hSong := repeats_song (request_song hCut hRequest) hAfter hTail
  rw [sameLyrics_iff, cached_iff hSong]
  exact and_iff_right hLoaded

end

/-- The response that loads the lyrics of a request. -/
def loadRun : List Action :=
  let text := some (List.replicate 11 65)
  [.forget 0, .create 0 .internal, .fetch 0, .response 0 ⟨text, none, none, none⟩, .fetch 0,
    .fetch 0, .fetch 0, .fetch 0]

theorem loadRun_repeats (title artist : Bytes) :
    ∀ a ∈ loadRun, a.Repeats title artist 7 := by
  simp [loadRun, Action.Repeats]

/-- A title of one byte is found again. -/
theorem shortTitle_cached : ∃ w,
    Transition.run (step oneWord) World.initial (.fetchAsync 0 [65] [] 7 :: loadRun) = some w ∧
      SameLyrics w (lyricsFetchAsync w 0 [65] [] 7) := by
  have hLoaded : (Transition.run (step oneWord) World.initial
      (.fetchAsync 0 [65] [] 7 :: loadRun)).map (·.data.loaded) = some true := by decide
  obtain ⟨w, hRun, hW⟩ := Option.map_eq_some_iff.1 hLoaded
  have hCalls : Transition.run (step oneWord) World.initial
      ([] ++ .fetchAsync 0 [65] [] 7 :: loadRun) = some w := hRun
  exact ⟨w, hRun, (repeat_iff 0 hCalls (loadRun_repeats _ _) hW).2 (by decide)⟩

/-- A title of 64 bytes is fetched again. -/
theorem longTitle_reloads :
    ¬∀ (P : Parsers) (before after : List Action) (c d songId : Nat) (title artist : Bytes)
      (w : World),
      Transition.run (step P) World.initial
          (before ++ .fetchAsync c title artist songId :: after) = some w →
      (∀ a ∈ after, a.Repeats title artist songId) → w.data.loaded →
        SameLyrics w (lyricsFetchAsync w d title artist songId) := by
  intro hAll
  have hRun : (Transition.run (step oneWord) World.initial
      (.fetchAsync 0 (List.replicate 64 65) [] 7 :: loadRun)).map
        (fun w => (w.data.loaded, decide (cached w (List.replicate 64 65) []))) =
      some (true, false) := by decide +kernel
  obtain ⟨w, hEnd, hW⟩ := Option.map_eq_some_iff.1 hRun
  obtain ⟨hLoaded, hMissed⟩ := Prod.mk.inj hW
  have hSame := hAll oneWord [] loadRun 0 0 7 _ _ w hEnd (loadRun_repeats _ _) hLoaded
  exact of_decide_eq_false hMissed ((sameLyrics_iff 0).1 hSame)

end EspMiplay.Lyrics
