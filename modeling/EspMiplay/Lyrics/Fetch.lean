import Mathlib.Logic.Function.Basic
import EspMiplay.Lib.Transition
import EspMiplay.Miplay.Text

/-!
# Fetching lyrics

`lyrics_fetch_async`, `lyrics_clear` and `fetch_task` of `lyrics_fetch.c`, as steps
on the module's static variables.

- What runs under `s_mutex` is one step. The unlocked accesses are steps of their
  own: the comparisons of the generation, the handle that `lyrics_create_task`
  clears and stores, each entry `parse_klyric` writes, and two of the resets.
- Any number of calls (`World.calls`) and fetch tasks (`World.tasks`) may be under
  way. A fetch task ends when it clears the handle; what follows is its deletion.
- HTTP responses come with the actions. What is read out of a text is a parameter
  (`Parsers`): the protocol does not depend on it.
- Every entry of a table carries the song for which its response was fetched.
- A run begins behind `lyrics_init`.
-/

namespace EspMiplay.Lyrics

open EspMiplay.Miplay (Bytes cstr strncpy)

structure Song where
  title : Bytes
  artist : Bytes
  deriving DecidableEq

/-- An entry, and the song for which its response was fetched. -/
structure From (α : Type) where
  song : Song
  value : α
  deriving DecidableEq

/-! ## The tables -/

/-- `lyric_line_t` -/
structure Line where
  timeMs : Int
  text : Bytes
  deriving DecidableEq

/-- `s_klyric_start`, `s_klyric_end` -/
structure Word where
  start : Int
  stop : Int
  deriving DecidableEq

/-- `s_klyric_line_first`, `s_klyric_line_time` -/
structure KlyricLine where
  first : Nat
  time : Int
  deriving DecidableEq

/-- `lyric_data_t`; `count` is the length of `lines`. -/
structure LyricData where
  lines : List (From Line)
  loaded : Bool
  /-- `song_name`, `artist` -/
  song : Song
  knownSongId : Nat
  deriving DecidableEq

structure Klyric where
  words : List (From Word)
  lines : List (From KlyricLine)
  /-- `s_lrc_to_klyric`; empty where every entry is -1 -/
  map : List Int
  /-- the songs of the lines the map was computed from -/
  mapFrom : List Song
  deriving DecidableEq

def resetKlyric : Klyric := ⟨[], [], [], []⟩

def klyricMaxWords : Nat := 1536
def lyricMaxLines : Nat := 128

/-! ## Texts -/

/-- What `parse_klyric` stores for a line head or a word. -/
inductive KlyricEntry where
  | line (time : Int)
  | word (w : Word)
  deriving DecidableEq

/-- What the parsers make of a text. -/
structure Parsers where
  lrcUsable : Bytes → Bool
  parseLrc : Bytes → List Line
  parseKlyric : Bytes → List KlyricEntry
  generatePseudoKlyric : List Line → List KlyricLine × List Word
  /-- the loop of `apply_lrc` over the lines -/
  lrcToKlyric : List Line → List KlyricLine → List Int

/-- The fields of a lyric response; `lrc` is `none` for a request that failed, too. -/
structure Response where
  lrc : Option Bytes
  yrc : Option Bytes
  klyric : Option Bytes
  yrcxl : Option Bytes

/-- A write of `fetch_lrc` to the tables. -/
inductive KlyricWrite where
  /-- `parse_klyric` sets the counts to zero -/
  | restart
  | entry (e : KlyricEntry)
  /-- behind a text: `if (s_klyric_count > 0) break` -/
  | done
  deriving DecidableEq

/-- The writes of `fetch_lrc` for a response. -/
def klyricWrites (P : Parsers) (r : Response) : List KlyricWrite :=
  ([r.yrc, r.klyric, r.yrcxl].reduceOption.filter (10 < ·.length)).flatMap fun text =>
    .restart :: (P.parseKlyric text).map .entry ++ [.done]

/-! ## Fetch tasks -/

inductive Stage where
  | known
  | search
  | qq
  | kuwo
  deriving DecidableEq

inductive FetchPc where
  /-- `search_song` is under way -/
  | search
  /-- the generation is compared behind `search_song` -/
  | found (song : Bool)
  /-- the lyric request is under way -/
  | request (s : Stage)
  | writes (s : Stage) (lrc : Bytes) (left : List KlyricWrite)
  /-- the generation is compared behind the request -/
  | fetched (s : Stage) (lrc : Option Bytes)
  | apply (s : Stage) (lrc : Option Bytes)
  /-- `if (gen == s_fetch_gen)` for an unusable text -/
  | unusable (s : Stage)
  /-- `reset_klyric` without the mutex -/
  | reset (s : Stage)
  /-- the generation is compared in front of the next stage -/
  | failed (s : Stage)
  | exit
  deriving DecidableEq

inductive FetchTask where
  /-- the top of the loop -/
  | top
  | running (song : Song) (gen : UInt32) (pc : FetchPc)
  deriving DecidableEq

/-- The static variables a fetch task works on, but for its handle. -/
structure Shared where
  data : LyricData
  klyric : Klyric
  /-- `s_fetch_gen` -/
  fetchGen : UInt32

section Task

variable (P : Parsers) (g : Shared)

/-- Title, artist and generation are copied under the mutex. -/
def fetchTop : Shared × FetchTask :=
  let pc :=
    if g.data.song.title = [] then .exit
    else if g.data.knownSongId > 0 then .request .known
    else .failed .known
  ({ g with klyric := resetKlyric }, .running g.data.song g.fetchGen pc)

/-- One write of `parse_klyric`, and the writes left. A full table ends the text. -/
def klyricWrite (song : Song) (k : Klyric) :
    KlyricWrite → List KlyricWrite → Klyric × List KlyricWrite
  | .restart, left => ({ k with words := [], lines := [] }, left)
  | .entry (.line time), left =>
    if k.lines.length < lyricMaxLines then
      ({ k with lines := k.lines ++ [⟨song, ⟨k.words.length, time⟩⟩] }, left)
    else (k, left.dropWhile (· ≠ .done))
  | .entry (.word word), left =>
    if k.words.length < klyricMaxWords then ({ k with words := k.words ++ [⟨song, word⟩] }, left)
    else (k, left.dropWhile (· ≠ .done))
  | .done, left => (k, if k.words = [] then left else [])

/-- The tables behind a successful `apply_lrc`. -/
def applyKlyric (song : Song) (lines : List Line) (k : Klyric) : Klyric :=
  let k :=
    if k.words = [] ∧ 2 ≤ lines.length then
      let pseudo := P.generatePseudoKlyric lines
      { k with words := pseudo.2.map (From.mk song), lines := pseudo.1.map (From.mk song) }
    else k
  { k with
    map := if k.lines = [] then [] else P.lrcToKlyric lines (k.lines.map From.value)
    mapFrom := song :: k.lines.map From.song }

/-- `apply_lrc` under the mutex. -/
def applyLrc (song : Song) (gen : UInt32) (s : Stage) (lrc : Bytes) : Shared × FetchPc :=
  if gen ≠ g.fetchGen then (g, .failed s)
  else
    let lines := P.parseLrc lrc
    let data := { g.data with lines := lines.map (From.mk song), loaded := lines ≠ [] }
    if lines = [] then ({ g with data := data }, .reset s)
    else ({ g with data := data, klyric := applyKlyric P song lines g.klyric }, .exit)

def Stage.next : Stage → FetchPc
  | .known => .search
  | .search => .request .qq
  | .qq => .request .kuwo
  | .kuwo => .exit

/-- A step of a fetch task that waits for no response; without a task it has ended. -/
def fetchStep : FetchTask → Option (Shared × Option FetchTask)
  | .top => some ((fetchTop g).1, some (fetchTop g).2)
  | .running song gen pc =>
    let stays (g : Shared) (pc : FetchPc) := some (g, some (.running song gen pc))
    let current (pc : FetchPc) := if gen ≠ g.fetchGen then some (g, some .top) else stays g pc
    match pc with
    | .search => none
    | .request _ => none
    | .found song => current (if song then .request .search else .failed .search)
    | .writes s lrc [] => stays g (.fetched s (some lrc))
    | .writes s lrc (x :: left) =>
      let r := klyricWrite song g.klyric x left
      stays { g with klyric := r.1 } (.writes s lrc r.2)
    | .fetched s lrc => current (.apply s lrc)
    | .apply s none => stays g (.failed s)
    | .apply s (some lrc) =>
      if P.lrcUsable lrc then
        let r := applyLrc P g song gen s lrc
        stays r.1 r.2
      else stays g (.unusable s)
    | .unusable s => stays g (if gen = g.fetchGen then .reset s else .failed s)
    | .reset s => stays { g with klyric := resetKlyric } (.failed s)
    | .failed .kuwo => stays g .exit
    | .failed s => current s.next
    | .exit => if gen ≠ g.fetchGen then some (g, some .top) else some (g, none)

/-- Where a lyric response is taken on. -/
def responded (s : Stage) (r : Response) : FetchPc :=
  match s, r.lrc with
  | .known, some lrc => .writes .known lrc (klyricWrites P r)
  | .search, some lrc => .writes .search lrc (klyricWrites P r)
  | s, lrc => .fetched s lrc

end Task

/-! ## Calls -/

/-- A call of `lyrics_fetch_async` that creates a task. -/
inductive CallPc where
  /-- the mutex is released, `need_create` is set -/
  | decided
  /-- the handle is cleared -/
  | creating
  /-- the task runs, its handle is not stored yet -/
  | created (h : Nat)
  deriving DecidableEq

/-- Outcome of `lyrics_create_task`. -/
inductive Created where
  /-- on a PSRAM stack; the handle is stored behind the creation -/
  | psram
  /-- on an internal stack; the handle is stored before the task can run -/
  | internal
  | failed
  deriving DecidableEq

structure World extends Shared where
  /-- `s_fetch_task` -/
  fetchTask : Option Nat
  tasks : Nat → Option FetchTask
  calls : Nat → Option CallPc
  nextTask : Nat

def World.initial : World where
  data := { lines := [], loaded := false, song := ⟨[], []⟩, knownSongId := 0 }
  klyric := resetKlyric
  fetchGen := 0
  fetchTask := none
  tasks := fun _ => none
  calls := fun _ => none
  nextTask := 0

/-- The cache has the song. -/
def cached (w : World) (title artist : Bytes) : Prop :=
  w.data.loaded ∧ w.data.song = ⟨cstr title, cstr artist⟩

instance (w : World) (title artist : Bytes) : Decidable (cached w title artist) :=
  inferInstanceAs (Decidable (_ ∧ _))

/-- `lyrics_fetch_async` up to where the mutex is released. -/
def lyricsFetchAsync (w : World) (c : Nat) (title artist : Bytes) (songId : Nat) : World :=
  if cached w title artist then w
  else
    { w with
      data :=
        { lines := [], loaded := false
          song := ⟨strncpy 64 title, strncpy 64 artist⟩, knownSongId := songId }
      klyric := resetKlyric
      fetchGen := w.fetchGen + 1
      calls := if w.fetchTask = none then Function.update w.calls c (some .decided) else w.calls }

def lyricsClear (w : World) : World :=
  { w with
    data := { lines := [], loaded := false, song := ⟨[], []⟩, knownSongId := 0 }
    klyric := resetKlyric
    fetchGen := w.fetchGen + 1 }

/-- A task begins. -/
def World.spawn (w : World) : World :=
  { w with
    tasks := Function.update w.tasks w.nextTask (some .top)
    nextTask := w.nextTask + 1 }

inductive Action where
  /-- caller `c` calls `lyrics_fetch_async` -/
  | fetchAsync (c : Nat) (title artist : Bytes) (songId : Nat)
  | clear
  /-- `*handle = NULL` -/
  | forget (c : Nat)
  | create (c : Nat) (o : Created)
  /-- the handle is stored behind the creation -/
  | store (c : Nat)
  | fetch (h : Nat)
  | searched (h : Nat) (found : Bool)
  | response (h : Nat) (r : Response)

def step (P : Parsers) (w : World) : Action → Option World
  | .fetchAsync c title artist songId =>
    if w.calls c = none then some (lyricsFetchAsync w c title artist songId) else none
  | .clear => some (lyricsClear w)
  | .forget c =>
    if w.calls c = some .decided then
      some { w with fetchTask := none, calls := Function.update w.calls c (some .creating) }
    else none
  | .create c o =>
    if w.calls c = some .creating then
      match o with
      | .psram =>
        some { w.spawn with calls := Function.update w.calls c (some (.created w.nextTask)) }
      | .internal =>
        some { w.spawn with
          fetchTask := some w.nextTask
          calls := Function.update w.calls c none }
      | .failed => some { w with calls := Function.update w.calls c none }
    else none
  | .store c =>
    match w.calls c with
    | some (.created h) =>
      some { w with fetchTask := some h, calls := Function.update w.calls c none }
    | _ => none
  | .fetch h =>
    match w.tasks h with
    | some t =>
      (fetchStep P w.toShared t).map fun (g, t') =>
        { w with
          toShared := g
          tasks := Function.update w.tasks h t'
          fetchTask := if t' = none then none else w.fetchTask }
    | none => none
  | .searched h found =>
    match w.tasks h with
    | some (.running song gen .search) =>
      some { w with tasks := Function.update w.tasks h (some (.running song gen (.found found))) }
    | _ => none
  | .response h r =>
    match w.tasks h with
    | some (.running song gen (.request s)) =>
      some { w with
        tasks := Function.update w.tasks h (some (.running song gen (responded P s r))) }
    | _ => none

end EspMiplay.Lyrics
