import Mathlib.Logic.Function.Basic
import Mathlib.Tactic.SplitIfs
import EspMiplay.Lib.Transition

/-!
# The block buffer between two tasks

`esp_gmf_block.c` is the buffer between the thread that fetches a stream and the task that
decodes it. Who acquires gets a part of the buffer in one piece, so a writer that finds too
little room before the end goes back to the head and leaves the rest unused (`p_wr_end`), and
where it has been is written nowhere else. Whoever finds nothing sleeps until the other releases.

A step is what a task does while it has the mutex, a semaphore that it takes or gives, or one
byte that is stored in what it has acquired. Pointers are offsets; the differences that the
source takes of them are not negative where the invariant holds.

## Results

* `Shaped.readTurn`, `Shaped.writeTurn` — what the loop of an acquire gives away.
* `BusInv.step`                         — what every step keeps.
* `block_fifo`                          — what is read is what has been written, byte for byte and
  in its order, as long as the reader sees in time that the writer has gone back to the head.
* `overtaken`                           — a reader that does not loses bytes.
-/

namespace EspMiplay.Gmf

open Transition

-- ---------------------------------------------------------------------------
-- The buffer
-- ---------------------------------------------------------------------------

/-- `esp_gmf_block_t` but for its semaphores -/
structure Block where
  buf : Nat → UInt8
  total : Nat
  rd : Nat
  wr : Nat
  /-- `p_wr_end`; 0 while the writer is in front of the reader -/
  wrEnd : Nat
  fill : Nat
  isWriteDone : Bool
  isAbort : Bool

/-- How a turn of the loop of an acquire ends -/
inductive Acquired where
  | abort
  | wait
  | got (start size : Nat) (last : Bool)
  deriving DecidableEq

/-- The bytes from `i` up to `j` -/
def cells (buf : Nat → UInt8) (i j : Nat) : List UInt8 := (List.range' i (j - i)).map buf

namespace Block

variable (b : Block)

def getFillSize : Nat :=
  if b.rd < b.wr then b.wr - b.rd
  else if b.wr < b.rd then
    if b.wrEnd = b.rd then b.wr else b.wrEnd - b.rd
  else if b.wrEnd = 0 then b.wr - b.rd
  else b.wrEnd - b.wr

def getEmptySize : Nat :=
  if b.rd < b.wr then b.total - b.wr
  else if b.wr < b.rd then
    if b.wrEnd = b.rd then b.total - b.wr else b.rd - b.wr
  else if b.wrEnd = 0 then b.total - b.wr
  else b.rd - b.wr

/-- `end` -/
def stop : Nat := if b.wr < b.rd ∧ 0 < b.wrEnd then b.wrEnd else b.total

/-- `esp_gmf_block_acquire_read` behind its loop -/
def readEnd (wanted : Nat) (last : Bool) : Acquired :=
  if b.isAbort then .abort
  else .got b.rd (if b.stop < b.rd + wanted then b.stop - b.rd else wanted) last

/-- The reader is at the head, and the writer in front of it. -/
def forget : Block := { b with rd := 0, wrEnd := 0 }

/-- A turn of the loop of `esp_gmf_block_acquire_read`, and what comes behind the loop -/
def readTurn (wanted : Nat) : Acquired × Block :=
  if b.getFillSize < wanted then
    if b.isAbort then (.abort, b)
    else if 0 < b.wrEnd then
      if b.wrEnd ≠ b.rd then (b.readEnd (b.wrEnd - b.rd) false, b)
      else if wanted ≤ b.forget.getFillSize then (b.forget.readEnd wanted false, b.forget)
      else if b.isWriteDone then (b.forget.readEnd b.forget.getFillSize true, b.forget)
      else (.wait, b.forget)
    else if b.isWriteDone then (b.readEnd b.getFillSize true, b)
    else (.wait, b)
  else (b.readEnd wanted false, b)

/-- `esp_gmf_block_acquire_read`, up to where it sleeps -/
def acquireRead (wanted : Nat) : Acquired × Block :=
  if b.fill = 0 ∧ b.isWriteDone then (.got b.rd 0 true, b)
  else if b.rd = b.total ∨ 0 < b.wrEnd ∧ b.wrEnd = b.rd then b.forget.readTurn wanted
  else b.readTurn wanted

/-- What `esp_gmf_block_release_read` does with the mutex -/
def releaseRead (valid : Nat) : Block :=
  if b.rd + valid = b.total ∨ b.rd + valid = b.wrEnd then
    { b with rd := 0, wrEnd := 0, fill := b.fill - valid }
  else { b with rd := b.rd + valid, fill := b.fill - valid }

/-- `esp_gmf_block_acquire_write` behind its loop -/
def writeEnd (wanted : Nat) : Acquired := if b.isAbort then .abort else .got b.wr wanted false

/-- "Move WR to head" -/
def turn : Block := { b with wrEnd := b.wr, wr := 0 }

/-- A turn of the loop of `esp_gmf_block_acquire_write`, and what comes behind the loop -/
def writeTurn (wanted : Nat) : Acquired × Block :=
  if b.getEmptySize < wanted then
    if b.isAbort then (.abort, b)
    else if b.rd ≤ b.wr ∧ b.total - b.wr < wanted ∧ wanted ≤ b.rd ∧ b.wrEnd = 0 then
      (b.turn.writeEnd wanted, b.turn)
    else (.wait, b)
  else (b.writeEnd wanted, b)

/-- The first lines of `esp_gmf_block_acquire_write` with the mutex -/
def rewind : Block := if b.fill = 0 then { b with rd := 0, wr := 0, wrEnd := 0 } else b

/-- What `esp_gmf_block_release_write` does with the mutex -/
def releaseWrite (valid : Nat) : Block :=
  if b.wr + valid = b.total then { b with wr := 0, wrEnd := b.total, fill := b.fill + valid }
  else { b with wr := b.wr + valid, fill := b.fill + valid }

/-- What is in the buffer, in the order in which it is read -/
def unread : List UInt8 :=
  if b.wrEnd = 0 then cells b.buf b.rd b.wr else cells b.buf b.rd b.wrEnd ++ cells b.buf 0 b.wr

end Block

-- ---------------------------------------------------------------------------
-- The two tasks
-- ---------------------------------------------------------------------------

inductive Writer where
  | idle
  /-- sleeps in `esp_gmf_block_acquire_write` -/
  | waiting (wanted : Nat)
  /-- has taken `can_write` -/
  | woken (wanted : Nat)
  | holds (start size : Nat)
  /-- still has to give `can_read`, and before it to set `_is_write_done` -/
  | giving (last : Bool)
  deriving DecidableEq

inductive Reader where
  | idle
  | waiting (wanted : Nat)
  | woken (wanted : Nat)
  | holds (start size : Nat) (last : Bool)
  /-- still has to give `can_write` -/
  | giving
  deriving DecidableEq

/-- What the writer has asked for -/
def Writer.wanted : Writer → Option Nat
  | .waiting wanted | .woken wanted => some wanted
  | _ => none

structure Bus where
  block : Block
  canRead : Bool
  canWrite : Bool
  writer : Writer
  reader : Reader
  /-- The bytes released by the writer, and those released by the reader -/
  written : List UInt8
  read : List UInt8

inductive BusAction where
  | acquireWrite (wanted : Nat)
  | wakeWrite
  | timeoutWrite
  | retryWrite
  | store (i : Nat) (byte : UInt8)
  | releaseWrite (valid : Nat) (last : Bool)
  | doneWrite
  | giveRead
  | acquireRead (wanted : Nat)
  | wakeRead
  | timeoutRead
  | retryRead
  | releaseRead
  | giveWrite
  | abort

namespace Bus

/-- `esp_gmf_block_create` -/
def create (total : Nat) : Bus where
  block := ⟨fun _ => 0, total, 0, 0, 0, 0, false, false⟩
  canRead := false
  canWrite := false
  writer := .idle
  reader := .idle
  written := []
  read := []

variable (s : Bus)

/-- The writer behind its turn; it sleeps where it has to wait. -/
def writerAfter (wanted : Nat) : Acquired × Block → Bus
  | (.abort, c) => { s with block := c, writer := .idle }
  | (.wait, c) => { s with block := c, writer := .waiting wanted }
  | (.got start size _, c) => { s with block := c, writer := .holds start size }

def readerAfter (wanted : Nat) : Acquired × Block → Bus
  | (.abort, c) => { s with block := c, reader := .idle }
  | (.wait, c) => { s with block := c, reader := .waiting wanted }
  | (.got start size last, c) => { s with block := c, reader := .holds start size last }

def storeByte (k : Nat) (byte : UInt8) : Bus :=
  { s with block := { s.block with buf := Function.update s.block.buf k byte } }

/-- `esp_gmf_block_release_write`, up to the semaphore -/
def writeReleased (start valid : Nat) (last : Bool) : Bus :=
  { s with
    block := s.block.releaseWrite valid
    writer := .giving last
    written := s.written ++ cells s.block.buf start (start + valid) }

/-- `esp_gmf_block_release_read`, up to the semaphore -/
def readReleased (start valid : Nat) : Bus :=
  { s with
    block := s.block.releaseRead valid
    reader := .giving
    read := s.read ++ cells s.block.buf start (start + valid) }

/-- The steps of the writer -/
def writerStep : BusAction → Option Bus
  | .acquireWrite wanted =>
    if s.writer = .idle then
      if s.block.total < wanted ∨ wanted = 0 then some s
      else some (s.writerAfter wanted (s.block.rewind.writeTurn wanted))
    else none
  | .wakeWrite =>
    match s.writer with
    | .waiting wanted =>
      if s.canWrite then
        some { s with
          canWrite := false
          writer := if s.block.isAbort then .idle else .woken wanted }
      else none
    | _ => none
  | .timeoutWrite =>
    match s.writer with
    | .waiting _ => some { s with writer := .idle }
    | _ => none
  | .retryWrite =>
    match s.writer with
    | .woken wanted => some (s.writerAfter wanted (s.block.writeTurn wanted))
    | _ => none
  | .store i byte =>
    match s.writer with
    | .holds start size => if i < size then some (s.storeByte (start + i) byte) else none
    | _ => none
  | .releaseWrite valid last =>
    match s.writer with
    | .holds start size =>
      if valid ≤ size then
        if s.block.isAbort ∨ s.block.total < s.block.wr + valid then some { s with writer := .idle }
        else some (s.writeReleased start valid last)
      else none
    | _ => none
  | .doneWrite => if s.writer = .idle then some { s with writer := .giving true } else none
  | .giveRead =>
    match s.writer with
    | .giving true =>
      some { s with block := { s.block with isWriteDone := true }, writer := .giving false }
    | .giving false => some { s with canRead := true, writer := .idle }
    | _ => none
  | _ => none

/-- The steps of the reader, and `esp_gmf_block_abort` -/
def readerStep : BusAction → Option Bus
  | .acquireRead wanted =>
    if s.reader = .idle then
      if s.block.total < wanted ∨ wanted = 0 then some s
      else some (s.readerAfter wanted (s.block.acquireRead wanted))
    else none
  | .wakeRead =>
    match s.reader with
    | .waiting wanted =>
      if s.canRead then
        some { s with
          canRead := false
          reader := if s.block.isAbort then .idle else .woken wanted }
      else none
    | _ => none
  | .timeoutRead =>
    match s.reader with
    | .waiting _ => some { s with reader := .idle }
    | _ => none
  | .retryRead =>
    match s.reader with
    | .woken wanted => some (s.readerAfter wanted (s.block.readTurn wanted))
    | _ => none
  | .releaseRead =>
    match s.reader with
    | .holds start size _ =>
      if s.block.isAbort ∨ s.block.total < s.block.rd + size then some { s with reader := .idle }
      else some (s.readReleased start size)
    | _ => none
  | .giveWrite =>
    if s.reader = .giving then some { s with canWrite := true, reader := .idle } else none
  | .abort =>
    some { s with block := { s.block with isAbort := true }, canRead := true, canWrite := true }
  | _ => none

def step (a : BusAction) : Option Bus := (s.writerStep a).or (s.readerStep a)

-- ---------------------------------------------------------------------------
-- The properties
-- ---------------------------------------------------------------------------

/-- In a turn of the writer it has not gone back to the head unnoticed, or what it asks for fits in
front of the place from which it has gone. -/
def Noticed (b : Block) (wanted : Nat) : Prop :=
  b.wr < b.rd → b.wrEnd = b.rd → b.wr + wanted ≤ b.rd

/-- The reader sees in time that the writer has gone back to the head. -/
def Prompt (s : Bus) (a : BusAction) (_ : Bus) : Prop :=
  match a with
  | .acquireWrite wanted => Noticed s.block.rewind wanted
  | .retryWrite => ∀ wanted ∈ s.writer.wanted, Noticed s.block wanted
  | _ => True

instance (b : Block) (wanted : Nat) : Decidable (Noticed b wanted) :=
  inferInstanceAs (Decidable (_ → _ → _))

instance (s : Bus) (a : BusAction) (t : Bus) : Decidable (Prompt s a t) :=
  match a with
  | .acquireWrite _ => inferInstanceAs (Decidable (Noticed _ _))
  | .retryWrite => inferInstanceAs (Decidable (∀ wanted ∈ s.writer.wanted, Noticed s.block wanted))
  | .wakeWrite | .timeoutWrite | .store .. | .releaseWrite .. | .doneWrite | .giveRead
  | .acquireRead _ | .wakeRead | .timeoutRead | .retryRead | .releaseRead | .giveWrite
  | .abort => .isTrue trivial

structure Faithful (s : Bus) (_ : BusAction) (s' : Bus) : Prop where
  /-- Nothing is lost, changed or read twice. -/
  fifo : s'.read <+: s'.written
  count : s'.read.length + s'.block.fill = s'.written.length
  /-- The reader holds what comes next, for as long as it holds it. -/
  held : ∀ start size last, s'.reader = .holds start size last → size ≤ s'.block.fill ∧
    cells s'.block.buf start (start + size) = (s'.written.drop s'.read.length).take size
  /-- The part that the writer holds is in the buffer, and apart from the reader's. -/
  own : ∀ start size, s'.writer = .holds start size → start + size ≤ s'.block.total ∧
    ∀ rstart rsize last, s'.reader = .holds rstart rsize last →
      rsize = 0 ∨ rstart + rsize ≤ start ∨ start + size ≤ rstart
  /-- The reader is told that something is the last only if nothing comes behind it. -/
  last : ∀ start size, s'.reader = .holds start size true → s.reader ≠ s'.reader →
    s'.block.isWriteDone = true ∧ s'.read.length + size = s'.written.length

end Bus

-- ---------------------------------------------------------------------------
-- The buffer in itself
-- ---------------------------------------------------------------------------

section Cells

variable {buf : Nat → UInt8} {i j k : Nat}

theorem length_cells : (cells buf i j).length = j - i := by
  rw [cells, List.length_map, List.length_range']

theorem cells_self : cells buf i i = [] := by
  rw [cells, Nat.sub_self]
  rfl

theorem cells_append (hij : i ≤ j) (hjk : j ≤ k) :
    cells buf i j ++ cells buf j k = cells buf i k := by
  obtain ⟨m, rfl⟩ := Nat.exists_eq_add_of_le hij
  obtain ⟨n, rfl⟩ := Nat.exists_eq_add_of_le hjk
  rw [cells, cells, cells, Nat.add_sub_cancel_left, Nat.add_sub_cancel_left, Nat.add_assoc,
    Nat.add_sub_cancel_left, ← List.map_append, List.range'_append_1]

/-- What is stored elsewhere does not count. -/
theorem cells_update {byte : UInt8} (h : k < i ∨ j ≤ k) :
    cells (Function.update buf k byte) i j = cells buf i j := by
  refine List.map_congr_left fun m hMem => Function.update_of_ne ?_ ..
  have hRange := List.mem_range'_1.1 hMem
  omega

end Cells

namespace Block

variable {b : Block}

/-- The two ways the bytes can lie: in one piece, and in two -/
def Shaped (b : Block) : Prop :=
  (b.wrEnd = 0 ∧ b.rd ≤ b.wr ∧ b.wr < b.total ∧ b.fill + b.rd = b.wr) ∨
    (0 < b.wrEnd ∧ b.wr ≤ b.rd ∧ b.rd ≤ b.wrEnd ∧ b.wrEnd ≤ b.total ∧ b.rd < b.total ∧
      b.fill + b.rd = b.wrEnd + b.wr)

/-- How much there is to read in one piece -/
def ahead (b : Block) : Nat := if b.wrEnd = 0 then b.wr - b.rd else b.wrEnd - b.rd

/-- How much can be written in one piece -/
def room (b : Block) : Nat := if b.wrEnd = 0 then b.total - b.wr else b.rd - b.wr

theorem Shaped.length_unread (h : b.Shaped) : b.unread.length = b.fill := by
  unfold Shaped at h
  rw [unread]
  split_ifs with hEnd
  · rw [length_cells]
    omega
  · rw [List.length_append, length_cells, length_cells]
    omega

theorem Shaped.ahead_le (h : b.Shaped) : b.ahead ≤ b.fill := by
  unfold Shaped at h
  rw [ahead]
  split_ifs <;> omega

theorem Shaped.room_le (h : b.Shaped) : b.wr + b.room ≤ b.total := by
  unfold Shaped at h
  rw [room]
  split_ifs <;> omega

/-- What is in one piece is read first. -/
theorem Shaped.cells_ahead (h : b.Shaped) {v : Nat} (hAhead : v ≤ b.ahead) :
    b.unread = cells b.buf b.rd (b.rd + v) ++ b.unread.drop v := by
  have hTake : b.unread.take v = cells b.buf b.rd (b.rd + v) := by
    unfold Shaped at h
    rw [ahead] at hAhead
    rw [unread]
    split_ifs at hAhead ⊢ with hEnd
    · rw [← cells_append (j := b.rd + v) (by omega) (by omega), List.take_left' (by
        rw [length_cells, Nat.add_sub_cancel_left])]
    · rw [← cells_append (j := b.rd + v) (by omega) (by omega), List.append_assoc,
        List.take_left' (by rw [length_cells, Nat.add_sub_cancel_left])]
  rw [← hTake, List.take_append_drop]

/-- What the acquire of a reader may change: that the writer has gone back is forgotten where all
in front of its old end has been read. -/
structure Seen (b c : Block) : Prop where
  shaped : c.Shaped
  unread : c.unread = b.unread
  room : b.room ≤ c.room
  buf : c.buf = b.buf
  total : c.total = b.total
  wr : c.wr = b.wr
  fill : c.fill = b.fill

theorem Shaped.seen (h : b.Shaped) : b.Seen b := ⟨h, rfl, Nat.le_refl _, rfl, rfl, rfl, rfl⟩

theorem Shaped.forget (h : b.Shaped) (hRead : b.rd = b.total ∨ 0 < b.wrEnd ∧ b.wrEnd = b.rd) :
    b.Seen b.forget := by
  unfold Shaped at h
  have hTurned : b.wrEnd = b.rd ∧ b.wrEnd ≠ 0 := by omega
  refine ⟨?_, ?_, ?_, rfl, rfl, rfl, rfl⟩
  · rw [Shaped, Block.forget]
    dsimp only
    omega
  · rw [Block.unread, Block.unread, Block.forget, if_pos rfl, if_neg hTurned.2, hTurned.1,
      cells_self, List.nil_append]
  · rw [room, room, Block.forget, if_pos rfl, if_neg hTurned.2]
    dsimp only
    omega

/-- In one piece the bytes are all that there is. -/
theorem Shaped.getFillSize_eq (h : b.Shaped) (hEnd : b.wrEnd = 0) : b.getFillSize = b.fill := by
  unfold Shaped at h
  rw [getFillSize]
  split_ifs <;> omega

/-- What comes behind the loop gives away bytes that lie in one piece. -/
theorem Shaped.readEnd {wanted start size : Nat} {last l : Bool} (h : b.Shaped)
    (hFill : wanted ≤ b.getFillSize) (hGot : b.readEnd wanted last = .got start size l) :
    start = b.rd ∧ l = last ∧ size ≤ b.ahead ∧ (b.wrEnd = 0 → size = wanted) := by
  rw [Block.readEnd] at hGot
  by_cases hAbort : b.isAbort = true
  · rw [if_pos hAbort] at hGot
    exact Acquired.noConfusion hGot
  · rw [if_neg hAbort] at hGot
    obtain ⟨rfl, hSize, rfl⟩ := Acquired.got.inj hGot
    refine ⟨rfl, rfl, ?_⟩
    unfold Shaped at h
    unfold getFillSize at hFill
    unfold stop at hSize
    unfold ahead
    split_ifs at hFill hSize ⊢ <;> omega

/-- What an acquire of the reader ends in -/
structure Reads (b : Block) (p : Acquired × Block) : Prop where
  seen : b.Seen p.2
  got : ∀ start size last, p.1 = .got start size last → size ≤ p.2.ahead ∧ start = p.2.rd ∧
    (last = true → p.2.isWriteDone = true ∧ size = p.2.fill)

theorem Seen.wait {c : Block} (h : b.Seen c) : b.Reads (.wait, c) :=
  ⟨h, fun _ _ _ hGot => by cases hGot⟩

theorem Seen.readEnd {c : Block} {wanted : Nat} (h : b.Seen c) (hFill : wanted ≤ c.getFillSize) :
    b.Reads (c.readEnd wanted false, c) := by
  refine ⟨h, fun start size last hGot => ?_⟩
  obtain ⟨hStart, rfl, hSize, -⟩ := h.shaped.readEnd hFill hGot
  exact ⟨hSize, hStart, fun hLast => Bool.noConfusion hLast⟩

theorem Seen.readLast {c : Block} (h : b.Seen c) (hEnd : c.wrEnd = 0)
    (hDone : c.isWriteDone = true) : b.Reads (c.readEnd c.getFillSize true, c) := by
  refine ⟨h, fun start size last hGot => ?_⟩
  obtain ⟨hStart, -, hSize, hAll⟩ := h.shaped.readEnd (Nat.le_refl _) hGot
  exact ⟨hSize, hStart, fun _ => ⟨hDone, (hAll hEnd).trans (h.shaped.getFillSize_eq hEnd)⟩⟩

theorem Shaped.readTurn (h : b.Shaped) (wanted : Nat) : b.Reads (b.readTurn wanted) := by
  rw [Block.readTurn]
  split_ifs with hFew hAbort hTurned hTail hEnough hDone hDone
  · exact ⟨h.seen, fun _ _ _ hGot => by cases hGot⟩
  · -- what is left in front of the old end
    refine h.seen.readEnd ?_
    unfold Shaped at h
    rw [getFillSize]
    split_ifs <;> omega
  · exact (h.forget (.inr ⟨hTurned, not_not.1 hTail⟩)).readEnd hEnough
  · exact (h.forget (.inr ⟨hTurned, not_not.1 hTail⟩)).readLast rfl hDone
  · exact (h.forget (.inr ⟨hTurned, not_not.1 hTail⟩)).wait
  · exact h.seen.readLast (Nat.eq_zero_of_not_pos hTurned) hDone
  · exact h.seen.wait
  · exact h.seen.readEnd (Nat.le_of_not_lt hFew)

theorem Seen.trans {c d : Block} (h : b.Seen c) (h' : c.Seen d) : b.Seen d :=
  ⟨h'.shaped, h'.unread.trans h.unread, Nat.le_trans h.room h'.room, h'.buf.trans h.buf,
    h'.total.trans h.total, h'.wr.trans h.wr, h'.fill.trans h.fill⟩

theorem Shaped.acquireRead (h : b.Shaped) (wanted : Nat) : b.Reads (b.acquireRead wanted) := by
  rw [Block.acquireRead]
  split_ifs with hDone hSeen
  · refine ⟨h.seen, fun start size last hGot => ?_⟩
    obtain ⟨rfl, rfl, rfl⟩ := Acquired.got.inj hGot
    exact ⟨Nat.zero_le _, rfl, fun _ => ⟨hDone.2, hDone.1.symm⟩⟩
  · have hForget := h.forget hSeen
    have hReads := hForget.shaped.readTurn wanted
    exact ⟨hForget.trans hReads.seen, hReads.got⟩
  · exact h.readTurn wanted

/-- A release of the reader takes what it has held off the front. -/
theorem Shaped.releaseRead (h : b.Shaped) {valid : Nat} (hValid : valid ≤ b.ahead) :
    (b.releaseRead valid).Shaped ∧
      b.unread = cells b.buf b.rd (b.rd + valid) ++ (b.releaseRead valid).unread ∧
      b.room ≤ (b.releaseRead valid).room := by
  unfold Shaped at h
  unfold ahead at hValid
  rw [Block.releaseRead]
  by_cases hEnd : b.wrEnd = 0
  · -- in one piece: at the head again only if it has been there all the time
    rw [if_pos hEnd] at hValid
    have hSame : (if b.rd + valid = b.total ∨ b.rd + valid = b.wrEnd then
        { b with rd := 0, wrEnd := 0, fill := b.fill - valid }
        else { b with rd := b.rd + valid, fill := b.fill - valid } : Block) =
        { b with rd := b.rd + valid, fill := b.fill - valid } := by
      split_ifs with hSeen
      · have hZero : b.rd + valid = 0 := by omega
        rw [hZero, hEnd]
      · rfl
    rw [hSame]
    refine ⟨?_, ?_, Nat.le_of_eq ?_⟩
    · rw [Shaped]
      dsimp only
      omega
    · rw [unread, unread, if_pos hEnd, if_pos hEnd]
      exact (cells_append (Nat.le_add_right _ _) (by omega)).symm
    · rw [room, room, if_pos hEnd, if_pos hEnd]
  · rw [if_neg hEnd] at hValid
    split_ifs with hSeen
    · have hAll : b.rd + valid = b.wrEnd := by omega
      refine ⟨?_, ?_, ?_⟩
      · rw [Shaped]
        dsimp only
        omega
      · rw [unread, unread, if_neg hEnd, if_pos rfl, hAll]
      · rw [room, room, if_neg hEnd, if_pos rfl]
        dsimp only
        omega
    · refine ⟨?_, ?_, ?_⟩
      · rw [Shaped]
        dsimp only
        omega
      · rw [unread, unread, if_neg hEnd, if_neg hEnd, ← List.append_assoc]
        exact congrArg (· ++ _) (cells_append (Nat.le_add_right _ _) (by omega)).symm
      · rw [room, room, if_neg hEnd, if_neg hEnd]
        dsimp only
        omega

-- The writer

/-- What an acquire of the writer may change: it goes back to the head, which leaves what is in
the buffer and what lies in one piece. -/
structure Turned (b c : Block) : Prop where
  shaped : c.Shaped
  unread : c.unread = b.unread
  buf : c.buf = b.buf
  total : c.total = b.total
  fill : c.fill = b.fill
  ahead : b.fill ≠ 0 → b.rd = c.rd ∧ b.ahead ≤ c.ahead

/-- What a turn of the writer ends in -/
structure Writes (b : Block) (p : Acquired × Block) : Prop where
  turned : b.Turned p.2
  got : ∀ start size last, p.1 = .got start size last → start = p.2.wr ∧ size ≤ p.2.room

theorem Shaped.turned (h : b.Shaped) : b.Turned b :=
  ⟨h, rfl, rfl, rfl, rfl, fun _ => ⟨rfl, Nat.le_refl _⟩⟩

theorem Turned.trans {c d : Block} (h : b.Turned c) (h' : c.Turned d) : b.Turned d := by
  refine ⟨h'.shaped, h'.unread.trans h.unread, h'.buf.trans h.buf, h'.total.trans h.total,
    h'.fill.trans h.fill, fun hSome => ?_⟩
  obtain ⟨hRd, hAhead⟩ := h.ahead hSome
  obtain ⟨hRd', hAhead'⟩ := h'.ahead (h.fill ▸ hSome)
  exact ⟨hRd.trans hRd', Nat.le_trans hAhead hAhead'⟩

theorem Shaped.rewind (h : b.Shaped) : b.Turned b.rewind := by
  rw [Block.rewind]
  split_ifs with hEmpty
  · have hNone : b.unread = [] := List.eq_nil_of_length_eq_zero (h.length_unread.trans hEmpty)
    unfold Shaped at h
    refine ⟨?_, ?_, rfl, rfl, rfl, fun hSome => absurd hEmpty hSome⟩
    · rw [Shaped]
      dsimp only
      omega
    · rw [hNone, Block.unread, if_pos rfl, cells_self]
  · exact h.turned

theorem Shaped.turn (h : b.Shaped) {wanted : Nat} (hFew : b.total - b.wr < wanted)
    (hRoom : wanted ≤ b.rd) (hEnd : b.wrEnd = 0) :
    b.Turned b.turn ∧ wanted ≤ b.turn.room := by
  unfold Shaped at h
  have hBack : b.turn.wrEnd ≠ 0 := by
    show b.wr ≠ 0
    omega
  refine ⟨⟨?_, ?_, rfl, rfl, rfl, fun _ => ⟨rfl, ?_⟩⟩, ?_⟩
  · rw [Shaped, Block.turn]
    dsimp only
    omega
  · rw [Block.unread, Block.unread, if_pos hEnd, if_neg hBack]
    show cells b.buf b.rd b.wr ++ cells b.buf 0 0 = _
    rw [cells_self, List.append_nil]
  · rw [Block.ahead, Block.ahead, if_pos hEnd, if_neg hBack]
    exact Nat.le_refl _
  · rw [room, if_neg hBack]
    exact hRoom

theorem writeEnd_got {c : Block} {wanted start size : Nat} {last : Bool}
    (hGot : c.writeEnd wanted = .got start size last) : start = c.wr ∧ size = wanted := by
  rw [writeEnd] at hGot
  split_ifs at hGot with hAbort
  obtain ⟨rfl, rfl, rfl⟩ := Acquired.got.inj hGot
  exact ⟨rfl, rfl⟩

/-- What there is empty is room, unless the writer has gone back unnoticed. -/
theorem Shaped.getEmptySize_le (h : b.Shaped) {wanted : Nat} (hNoticed : Bus.Noticed b wanted)
    (hMany : wanted ≤ b.getEmptySize) : wanted ≤ b.room := by
  unfold Shaped at h
  unfold Bus.Noticed at hNoticed
  unfold getEmptySize at hMany
  unfold room
  split_ifs at hMany ⊢ <;> omega

theorem Shaped.writeTurn (h : b.Shaped) {wanted : Nat} (hNoticed : Bus.Noticed b wanted) :
    b.Writes (b.writeTurn wanted) := by
  rw [Block.writeTurn]
  split_ifs with hFew hAbort hTurn
  · exact ⟨h.turned, fun _ _ _ hGot => by cases hGot⟩
  · obtain ⟨hTurned, hRoom⟩ := h.turn hTurn.2.1 hTurn.2.2.1 hTurn.2.2.2
    refine ⟨hTurned, fun start size last hGot => ?_⟩
    obtain ⟨hStart, rfl⟩ := writeEnd_got hGot
    exact ⟨hStart, hRoom⟩
  · exact ⟨h.turned, fun _ _ _ hGot => by cases hGot⟩
  · refine ⟨h.turned, fun start size last hGot => ?_⟩
    obtain ⟨hStart, rfl⟩ := writeEnd_got hGot
    exact ⟨hStart, h.getEmptySize_le hNoticed (Nat.le_of_not_lt hFew)⟩

/-- A release of the writer puts what it has stored behind all the rest. -/
theorem Shaped.releaseWrite (h : b.Shaped) {valid : Nat} (hValid : valid ≤ b.room) :
    (b.releaseWrite valid).Shaped ∧
      (b.releaseWrite valid).unread = b.unread ++ cells b.buf b.wr (b.wr + valid) ∧
      b.ahead ≤ (b.releaseWrite valid).ahead := by
  unfold Shaped at h
  unfold room at hValid
  rw [Block.releaseWrite]
  by_cases hEnd : b.wrEnd = 0
  · rw [if_pos hEnd] at hValid
    split_ifs with hFull
    · -- at the end of the buffer the writer goes back, and nothing is left unused
      have hSome : b.total ≠ 0 := by omega
      refine ⟨?_, ?_, ?_⟩
      · rw [Shaped]
        dsimp only
        omega
      · rw [unread, unread, if_pos hEnd, if_neg hSome, cells_self, List.append_nil,
          cells_append (by omega) (by omega), hFull]
      · rw [ahead, ahead, if_pos hEnd, if_neg hSome]
        dsimp only
        omega
    · refine ⟨?_, ?_, ?_⟩
      · rw [Shaped]
        dsimp only
        omega
      · rw [unread, unread, if_pos hEnd, if_pos hEnd, cells_append (by omega) (by omega)]
      · rw [ahead, ahead, if_pos hEnd, if_pos hEnd]
        dsimp only
        omega
  · -- behind the reader the end is never reached
    rw [if_neg hEnd] at hValid
    rw [if_neg (by omega)]
    refine ⟨?_, ?_, ?_⟩
    · rw [Shaped]
      dsimp only
      omega
    · rw [unread, unread, if_neg hEnd, if_neg hEnd, List.append_assoc,
        cells_append (by omega) (by omega)]
    · exact Nat.le_of_eq (by rw [ahead, ahead, if_neg hEnd, if_neg hEnd])

theorem rd_releaseWrite (b : Block) (valid : Nat) : (b.releaseWrite valid).rd = b.rd := by
  rw [releaseWrite]
  split_ifs <;> rfl

theorem wr_releaseRead (b : Block) (valid : Nat) : (b.releaseRead valid).wr = b.wr := by
  rw [releaseRead]
  split_ifs <;> rfl

/-- A byte stored behind `p_wr`, where there is room, is not read yet. -/
theorem unread_store {i : Nat} (hRoom : i < b.room) (byte : UInt8) :
    ({ b with buf := Function.update b.buf (b.wr + i) byte } : Block).unread = b.unread := by
  unfold room at hRoom
  rw [unread, unread]
  dsimp only
  split_ifs at hRoom ⊢ with hEnd
  · rw [cells_update (by omega)]
  · rw [cells_update (by omega), cells_update (by omega)]

end Block

-- ---------------------------------------------------------------------------
-- Runs
-- ---------------------------------------------------------------------------

namespace Bus

variable {s t : Bus} {a : BusAction}

structure BusInv (s : Bus) : Prop where
  shaped : s.block.Shaped
  order : s.read ++ s.block.unread = s.written
  region : ∀ start size, s.writer = .holds start size →
    start = s.block.wr ∧ size ≤ s.block.room
  window : ∀ start size last, s.reader = .holds start size last →
    size = 0 ∨ start = s.block.rd ∧ size ≤ s.block.ahead

/-- Where neither the buffer nor what is held changes -/
theorem BusInv.flags (h : s.BusInv) {done abort : Bool}
    (hBlock : t.block = { s.block with isWriteDone := done, isAbort := abort })
    (hRead : t.read = s.read) (hWritten : t.written = s.written)
    (hWriter : ∀ start size, t.writer = .holds start size → s.writer = t.writer)
    (hReader : ∀ start size last, t.reader = .holds start size last → s.reader = t.reader) :
    t.BusInv where
  shaped := by
    rw [hBlock]
    exact h.shaped
  order := by
    rw [hBlock, hRead, hWritten]
    exact h.order
  region start size hHolds := by
    rw [hBlock]
    exact h.region start size ((hWriter start size hHolds).trans hHolds)
  window start size last hHolds := by
    rw [hBlock]
    exact h.window start size last ((hReader start size last hHolds).trans hHolds)

theorem BusInv.writerAfter (h : s.BusInv) {p : Acquired × Block} (hWrites : s.block.Writes p)
    (wanted : Nat) : (s.writerAfter wanted p).BusInv := by
  have hOrder : s.read ++ p.2.unread = s.written := hWrites.turned.unread ▸ h.order
  have hWindow (start size : Nat) (last : Bool) (hHolds : s.reader = .holds start size last) :
      size = 0 ∨ start = p.2.rd ∧ size ≤ p.2.ahead := by
    obtain hNone | ⟨hStart, hSize⟩ := h.window start size last hHolds
    · exact .inl hNone
    · by_cases hNone : size = 0
      · exact .inl hNone
      · -- the reader holds some of what is in the buffer, which is not empty then
        have hAhead := h.shaped.ahead_le
        obtain ⟨hRd, hLonger⟩ := hWrites.turned.ahead (by omega)
        exact .inr ⟨hStart.trans hRd, Nat.le_trans hSize hLonger⟩
  obtain ⟨result, c⟩ := p
  cases result with
  | abort => exact ⟨hWrites.turned.shaped, hOrder, (fun _ _ hHolds => by cases hHolds), hWindow⟩
  | wait => exact ⟨hWrites.turned.shaped, hOrder, (fun _ _ hHolds => by cases hHolds), hWindow⟩
  | got start size last =>
    refine ⟨hWrites.turned.shaped, hOrder, fun start' size' hHolds => ?_, hWindow⟩
    obtain ⟨rfl, rfl⟩ := Writer.holds.inj hHolds
    exact hWrites.got start size last rfl

theorem reader_writerAfter (s : Bus) (wanted : Nat) (p : Acquired × Block) :
    (s.writerAfter wanted p).reader = s.reader := by
  obtain ⟨result, c⟩ := p
  cases result <;> rfl

theorem BusInv.readerAfter (h : s.BusInv) {p : Acquired × Block} (hReads : s.block.Reads p)
    (wanted : Nat) : (s.readerAfter wanted p).BusInv := by
  have hOrder : s.read ++ p.2.unread = s.written := hReads.seen.unread ▸ h.order
  have hRegion (start size : Nat) (hHolds : s.writer = .holds start size) :
      start = p.2.wr ∧ size ≤ p.2.room := by
    obtain ⟨hStart, hSize⟩ := h.region start size hHolds
    exact ⟨hStart.trans hReads.seen.wr.symm, Nat.le_trans hSize hReads.seen.room⟩
  obtain ⟨result, c⟩ := p
  cases result with
  | abort => exact ⟨hReads.seen.shaped, hOrder, hRegion, fun _ _ _ hHolds => by cases hHolds⟩
  | wait => exact ⟨hReads.seen.shaped, hOrder, hRegion, fun _ _ _ hHolds => by cases hHolds⟩
  | got start size last =>
    refine ⟨hReads.seen.shaped, hOrder, hRegion, fun start' size' last' hHolds => ?_⟩
    obtain ⟨rfl, rfl, rfl⟩ := Reader.holds.inj hHolds
    obtain ⟨hSize, hStart, -⟩ := hReads.got start size last rfl
    exact .inr ⟨hStart, hSize⟩

/-- What an acquire says to be the last is all that there is. -/
theorem last_readerAfter {b : Block} {p : Acquired × Block} (hReads : b.Reads p) {wanted : Nat}
    {start size : Nat} (hHolds : (s.readerAfter wanted p).reader = .holds start size true) :
    (s.readerAfter wanted p).block.isWriteDone = true ∧
      size = (s.readerAfter wanted p).block.fill := by
  obtain ⟨result, c⟩ := p
  cases result with
  | abort => exact Reader.noConfusion hHolds
  | wait => exact Reader.noConfusion hHolds
  | got start' size' last =>
    obtain ⟨rfl, rfl, rfl⟩ := Reader.holds.inj hHolds
    exact (hReads.got start' size' true rfl).2.2 rfl

theorem BusInv.store (h : s.BusInv) {start size i : Nat} (hHolds : s.writer = .holds start size)
    (hi : i < size) (byte : UInt8) : (s.storeByte (start + i) byte).BusInv := by
  obtain ⟨rfl, hSize⟩ := h.region start size hHolds
  refine ⟨h.shaped, ?_, h.region, h.window⟩
  show s.read ++ _ = s.written
  rw [storeByte, Block.unread_store (Nat.lt_of_lt_of_le hi hSize)]
  exact h.order

theorem BusInv.writeReleased (h : s.BusInv) {start size valid : Nat}
    (hHolds : s.writer = .holds start size) (hValid : valid ≤ size) (last : Bool) :
    (s.writeReleased start valid last).BusInv := by
  obtain ⟨rfl, hSize⟩ := h.region start size hHolds
  obtain ⟨hShaped, hUnread, hAhead⟩ := h.shaped.releaseWrite (Nat.le_trans hValid hSize)
  refine ⟨hShaped, ?_, (fun _ _ hGiven => by cases hGiven), fun rstart rsize rlast hReader => ?_⟩
  · show s.read ++ (s.block.releaseWrite valid).unread = s.written ++ _
    rw [hUnread, ← List.append_assoc, h.order]
  · obtain hNone | ⟨hStart, hRsize⟩ := h.window rstart rsize rlast hReader
    · exact .inl hNone
    · exact .inr ⟨hStart.trans (Block.rd_releaseWrite ..).symm, Nat.le_trans hRsize hAhead⟩

theorem BusInv.readReleased (h : s.BusInv) {start size : Nat} {last : Bool}
    (hHolds : s.reader = .holds start size last) : (s.readReleased start size).BusInv := by
  have hWindow : size ≤ s.block.ahead ∧ cells s.block.buf start (start + size) =
      cells s.block.buf s.block.rd (s.block.rd + size) := by
    obtain rfl | ⟨rfl, hSize⟩ := h.window start size last hHolds
    · exact ⟨Nat.zero_le _, cells_self.trans cells_self.symm⟩
    · exact ⟨hSize, rfl⟩
  obtain ⟨hShaped, hUnread, hRoom⟩ := h.shaped.releaseRead hWindow.1
  refine ⟨hShaped, ?_, fun wstart wsize hWriter => ?_, fun _ _ _ hGiven => by cases hGiven⟩
  · show (s.read ++ cells s.block.buf start (start + size)) ++ _ = s.written
    rw [hWindow.2, List.append_assoc]
    exact (congrArg (s.read ++ ·) hUnread.symm).trans h.order
  · obtain ⟨hStart, hSize⟩ := h.region wstart wsize hWriter
    exact ⟨hStart.trans (Block.wr_releaseRead ..).symm, Nat.le_trans hSize hRoom⟩

/-- The steps of the writer leave the reader where it is. -/
theorem BusInv.writerStep (h : s.BusInv) (hStep : s.writerStep a = some t)
    (hPrompt : s.Prompt a t) : t.BusInv ∧ t.reader = s.reader := by
  cases a with
  | acquireWrite wanted =>
    obtain ⟨-, hSome⟩ := Option.ite_none_right_eq_some.1 hStep
    split_ifs at hSome with hFail
    · obtain rfl := Option.some.inj hSome
      exact ⟨h, rfl⟩
    · obtain rfl := Option.some.inj hSome
      have hRewind := h.shaped.rewind
      have hWrites := hRewind.shaped.writeTurn hPrompt
      exact ⟨h.writerAfter ⟨hRewind.trans hWrites.turned, hWrites.got⟩ wanted,
        reader_writerAfter ..⟩
  | wakeWrite =>
    cases hWriter : s.writer with
    | waiting wanted =>
      rw [Bus.writerStep, hWriter] at hStep
      obtain ⟨-, hSome⟩ := Option.ite_none_right_eq_some.1 hStep
      obtain rfl := Option.some.inj hSome
      refine ⟨h.flags rfl rfl rfl (fun start size hHolds => ?_) fun _ _ _ _ => rfl, rfl⟩
      dsimp only at hHolds
      split_ifs at hHolds
    | _ => rw [Bus.writerStep, hWriter] at hStep; cases hStep
  | timeoutWrite =>
    cases hWriter : s.writer with
    | waiting wanted =>
      rw [Bus.writerStep, hWriter] at hStep
      obtain rfl := Option.some.inj hStep
      exact ⟨h.flags rfl rfl rfl (fun _ _ hHolds => by cases hHolds) fun _ _ _ _ => rfl, rfl⟩
    | _ => rw [Bus.writerStep, hWriter] at hStep; cases hStep
  | retryWrite =>
    cases hWriter : s.writer with
    | woken wanted =>
      rw [Bus.writerStep, hWriter] at hStep
      obtain rfl := Option.some.inj hStep
      have hNoticed : Noticed s.block wanted := hPrompt wanted (by rw [hWriter]; rfl)
      exact ⟨h.writerAfter (h.shaped.writeTurn hNoticed) wanted, reader_writerAfter ..⟩
    | _ => rw [Bus.writerStep, hWriter] at hStep; cases hStep
  | store i byte =>
    cases hWriter : s.writer with
    | holds start size =>
      rw [Bus.writerStep, hWriter] at hStep
      obtain ⟨hi, hSome⟩ := Option.ite_none_right_eq_some.1 hStep
      obtain rfl := Option.some.inj hSome
      exact ⟨h.store hWriter hi byte, rfl⟩
    | _ => rw [Bus.writerStep, hWriter] at hStep; cases hStep
  | releaseWrite valid last =>
    cases hWriter : s.writer with
    | holds start size =>
      rw [Bus.writerStep, hWriter] at hStep
      obtain ⟨hValid, hSome⟩ := Option.ite_none_right_eq_some.1 hStep
      split_ifs at hSome
      · obtain rfl := Option.some.inj hSome
        exact ⟨h.flags rfl rfl rfl (fun _ _ hHolds => by cases hHolds) fun _ _ _ _ => rfl, rfl⟩
      · obtain rfl := Option.some.inj hSome
        exact ⟨h.writeReleased hWriter hValid last, rfl⟩
    | _ => rw [Bus.writerStep, hWriter] at hStep; cases hStep
  | doneWrite =>
    obtain ⟨-, hSome⟩ := Option.ite_none_right_eq_some.1 hStep
    obtain rfl := Option.some.inj hSome
    exact ⟨h.flags rfl rfl rfl (fun _ _ hHolds => by cases hHolds) fun _ _ _ _ => rfl, rfl⟩
  | giveRead =>
    cases hWriter : s.writer with
    | giving last =>
      cases last <;> rw [Bus.writerStep, hWriter] at hStep <;> obtain rfl := Option.some.inj hStep
      all_goals
        exact ⟨h.flags rfl rfl rfl (fun _ _ hHolds => by cases hHolds) fun _ _ _ _ => rfl, rfl⟩
    | _ => rw [Bus.writerStep, hWriter] at hStep; cases hStep
  | _ => cases hStep

/-- What the reader is told to be the last, it is told with the truth. -/
def LastTrue (s t : Bus) : Prop :=
  ∀ start size, t.reader = .holds start size true → s.reader ≠ t.reader →
    t.block.isWriteDone = true ∧ size = t.block.fill

theorem BusInv.readerStep (h : s.BusInv) (hStep : s.readerStep a = some t) :
    t.BusInv ∧ s.LastTrue t := by
  cases a with
  | acquireRead wanted =>
    obtain ⟨-, hSome⟩ := Option.ite_none_right_eq_some.1 hStep
    split_ifs at hSome with hFail
    · obtain rfl := Option.some.inj hSome
      exact ⟨h, fun _ _ _ hNe => absurd rfl hNe⟩
    · obtain rfl := Option.some.inj hSome
      have hReads := h.shaped.acquireRead wanted
      exact ⟨h.readerAfter hReads wanted, fun _ _ hHolds _ => last_readerAfter hReads hHolds⟩
  | wakeRead =>
    cases hReader : s.reader with
    | waiting wanted =>
      rw [Bus.readerStep, hReader] at hStep
      obtain ⟨-, hSome⟩ := Option.ite_none_right_eq_some.1 hStep
      obtain rfl := Option.some.inj hSome
      refine ⟨h.flags rfl rfl rfl (fun _ _ _ => rfl) fun start size last hHolds => ?_,
        fun start size hHolds => ?_⟩
      · dsimp only at hHolds
        split_ifs at hHolds
      · dsimp only at hHolds
        split_ifs at hHolds
    | _ => rw [Bus.readerStep, hReader] at hStep; cases hStep
  | timeoutRead =>
    cases hReader : s.reader with
    | waiting wanted =>
      rw [Bus.readerStep, hReader] at hStep
      obtain rfl := Option.some.inj hStep
      exact ⟨h.flags rfl rfl rfl (fun _ _ _ => rfl) (fun _ _ _ hHolds => by cases hHolds),
          fun _ _ hHolds => by cases hHolds⟩
    | _ => rw [Bus.readerStep, hReader] at hStep; cases hStep
  | retryRead =>
    cases hReader : s.reader with
    | woken wanted =>
      rw [Bus.readerStep, hReader] at hStep
      obtain rfl := Option.some.inj hStep
      have hReads := h.shaped.readTurn wanted
      exact ⟨h.readerAfter hReads wanted, fun _ _ hHolds _ => last_readerAfter hReads hHolds⟩
    | _ => rw [Bus.readerStep, hReader] at hStep; cases hStep
  | releaseRead =>
    cases hReader : s.reader with
    | holds start size last =>
      rw [Bus.readerStep, hReader] at hStep
      dsimp only at hStep
      split_ifs at hStep
      · obtain rfl := Option.some.inj hStep
        exact ⟨h.flags rfl rfl rfl (fun _ _ _ => rfl) (fun _ _ _ hHolds => by cases hHolds),
          fun _ _ hHolds => by cases hHolds⟩
      · obtain rfl := Option.some.inj hStep
        exact ⟨h.readReleased hReader, fun _ _ hHolds => by cases hHolds⟩
    | _ => rw [Bus.readerStep, hReader] at hStep; cases hStep
  | giveWrite =>
    obtain ⟨-, hSome⟩ := Option.ite_none_right_eq_some.1 hStep
    obtain rfl := Option.some.inj hSome
    exact ⟨h.flags rfl rfl rfl (fun _ _ _ => rfl) (fun _ _ _ hHolds => by cases hHolds),
          fun _ _ hHolds => by cases hHolds⟩
  | abort =>
    obtain rfl := Option.some.inj hStep
    exact ⟨h.flags rfl rfl rfl (fun _ _ _ => rfl) fun _ _ _ _ => rfl,
      fun _ _ _ hNe => absurd rfl hNe⟩
  | _ => cases hStep

/-- The part of the writer begins where that of the reader ends, or ends where it begins. -/
theorem BusInv.apart (h : s.BusInv) {start size rstart rsize : Nat} {last : Bool}
    (hWriter : s.writer = .holds start size) (hReader : s.reader = .holds rstart rsize last) :
    rsize = 0 ∨ rstart + rsize ≤ start ∨ start + size ≤ rstart := by
  obtain ⟨rfl, hSize⟩ := h.region start size hWriter
  obtain hNone | ⟨hStart, hRsize⟩ := h.window rstart rsize last hReader
  · exact .inl hNone
  · have hShape := h.shaped
    unfold Block.Shaped at hShape
    unfold Block.room at hSize
    unfold Block.ahead at hRsize
    split_ifs at hSize hRsize <;> omega

theorem BusInv.faithful (h : t.BusInv) (hLast : s.LastTrue t) : s.Faithful a t where
  fifo := ⟨_, h.order⟩
  count := by
    rw [← h.order, List.length_append, h.shaped.length_unread]
  held start size last hReader := by
    have hNext : t.written.drop t.read.length = t.block.unread := by
      rw [← h.order, List.drop_left]
    obtain rfl | ⟨rfl, hSize⟩ := h.window start size last hReader
    · exact ⟨Nat.zero_le _, cells_self⟩
    · refine ⟨Nat.le_trans hSize h.shaped.ahead_le, ?_⟩
      rw [hNext, h.shaped.cells_ahead hSize, List.take_left' (by
        rw [length_cells, Nat.add_sub_cancel_left])]
  own start size hWriter := by
    refine ⟨?_, fun rstart rsize last hReader => h.apart hWriter hReader⟩
    obtain ⟨rfl, hSize⟩ := h.region start size hWriter
    exact Nat.le_trans (Nat.add_le_add_left hSize _) h.shaped.room_le
  last start size hReader hNew := by
    obtain ⟨hDone, rfl⟩ := hLast start size hReader hNew
    refine ⟨hDone, ?_⟩
    rw [← h.order, List.length_append, h.shaped.length_unread]

theorem BusInv.step (h : s.BusInv) (hStep : s.step a = some t) (hPrompt : s.Prompt a t) :
    t.BusInv ∧ s.Faithful a t := by
  obtain hWriter | ⟨-, hReader⟩ := Option.or_eq_some_iff.1 hStep
  · obtain ⟨hInv, hSame⟩ := h.writerStep hWriter hPrompt
    exact ⟨hInv, hInv.faithful fun _ _ _ hNe => absurd hSame.symm hNe⟩
  · obtain ⟨hInv, hLast⟩ := h.readerStep hReader
    exact ⟨hInv, hInv.faithful hLast⟩

theorem create_inv {total : Nat} (hTotal : 0 < total) : (create total).BusInv where
  shaped := .inl ⟨rfl, Nat.le_refl _, hTotal, rfl⟩
  order := rfl
  region _ _ hHolds := by cases hHolds
  window _ _ _ hHolds := by cases hHolds

/-- **The block buffer.** In every run in which the reader sees in time that the writer has gone
back to the head, what is read is what has been written, and what the reader holds stays as it is
until the reader releases it. -/
theorem block_fifo {total : Nat} (hTotal : 0 < total) (as : List BusAction)
    (hPrompt : Along step Prompt (create total) as) : Along step Faithful (create total) as :=
  Along.of_invariant (fun _ _ _ hInv hStep hOk => hInv.step hStep hOk) (create_inv hTotal) hPrompt

def stores (bytes : List UInt8) : List BusAction :=
  bytes.zipIdx.map (fun b => .store b.2 b.1) ++ [.releaseWrite bytes.length false, .giveRead]

/-- The writer asks for three bytes, and stores as many as there are. -/
def writes (bytes : List UInt8) : List BusAction :=
  .acquireWrite 3 :: stores bytes

def reads (wanted : Nat) : List BusAction := [.acquireRead wanted, .releaseRead, .giveWrite]

/-- The third time the writer goes back to the head. -/
def turnedRun : List BusAction :=
  writes [1, 2, 3] ++ writes [4, 5, 6] ++ reads 4 ++ writes [7, 8, 9] ++ reads 4 ++ reads 2 ++
    [.doneWrite, .giveRead, .giveRead] ++ reads 4

theorem turned_run : Along step Faithful (create 8) turnedRun :=
  block_fifo (by decide) turnedRun (by decide)

/-- The reader sleeps while the writer goes back to the head and comes up from behind. -/
def overtakingRun : List BusAction :=
  writes [1, 2, 3] ++ writes [4, 5, 6] ++ .acquireWrite 3 :: reads 6 ++
    [.acquireRead 5, .wakeWrite, .retryWrite] ++ stores [7, 8] ++ writes [9, 10, 11] ++
      writes [12, 13, 14] ++ [.wakeRead]

theorem overtaken : ¬∀ as, Along step Faithful (create 8) as := by
  intro hAll
  obtain ⟨t, u, hRun, hStep, hFound⟩ := exists_last_of_any
    (show (Transition.run step (create 8) overtakingRun).any
      (fun t => (t.step .retryRead).any fun u => u.reader = .holds 6 2 false &&
        cells u.block.buf 6 8 ≠ (u.written.drop u.read.length).take 2) = true by decide)
  rw [Bool.and_eq_true, decide_eq_true_eq, decide_eq_true_eq] at hFound
  have hFaithful := (hAll (overtakingRun ++ [.retryRead])).last hRun hStep
  exact hFound.2 (hFaithful.held 6 2 false hFound.1).2

end Bus

end EspMiplay.Gmf
