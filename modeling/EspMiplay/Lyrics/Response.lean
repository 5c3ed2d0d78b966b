import EspMiplay.Lib.Transition
import EspMiplay.Miplay.Text

/-!
# The body of a response

`http_event_handler` of `lyrics_fetch.c` collects the chunks of a response body in a buffer
that grows by doubling. Where the memory for that is not granted, the chunk is dropped and
the transfer goes on.

- `RespCtx` carries what `ctx` promises: the buffer has `cap` bytes, and there is room
  behind the text.
- A run is the sequence of chunks, each with the outcome of the `realloc` it may need.

## Results

* `held_iff` — one chunk.
* `body_iff` — a whole transfer.
* `hole_in_body` — a chunk behind a dropped one.
-/

namespace EspMiplay.Lyrics

open Transition
open EspMiplay.Miplay (Bytes ascii)

-- ---------------------------------------------------------------------------
-- The buffer
-- ---------------------------------------------------------------------------

/-- `while (new_cap < need) new_cap *= 2`; each turn adds at least one byte. -/
def grownCap (need : Nat) : Nat → Nat → Nat
  | 0, cap => cap
  | turns + 1, cap => if cap < need then grownCap need turns (cap * 2) else cap

theorem grownCap_need {need turns cap : Nat} (hCap : 0 < cap) (hTurns : need ≤ cap + turns) :
    need ≤ grownCap need turns cap := by
  induction turns generalizing cap with
  | zero => simpa [grownCap] using hTurns
  | succ turns ih =>
    rw [grownCap]
    split_ifs with hSmall
    · exact ih (by omega) (by omega)
    · exact Nat.le_of_not_lt hSmall

/-- `resp_ctx_t` -/
structure RespCtx where
  buf : Bytes
  len : Nat
  cap : Nat
  length_buf : buf.length = cap
  len_lt : len < cap

/-- `memcpy(buf + off, data, data_len)` inside the buffer -/
def overwrite (buf : Bytes) (off : Nat) (data : Bytes) : Bytes :=
  buf.take off ++ data ++ buf.drop (off + data.length)

theorem length_overwrite {buf data : Bytes} {off : Nat} (h : off + data.length ≤ buf.length) :
    (overwrite buf off data).length = buf.length := by
  simp only [overwrite, List.length_append, List.length_take, List.length_drop]
  omega

theorem take_overwrite {buf data : Bytes} {off : Nat} (h : off ≤ buf.length) :
    (overwrite buf off data).take (off + data.length) = buf.take off ++ data :=
  List.take_left' (by simp [h])

/-- What `realloc` gives: nothing, or memory whose new part has any contents. -/
abbrev Grant := Option (Nat → UInt8)

/-- The bytes behind `buf` in a block of `cap` bytes. -/
def extend (buf : Bytes) (cap : Nat) (fresh : Nat → UInt8) : Bytes :=
  buf ++ (List.range (cap - buf.length)).map fresh

theorem length_extend {buf : Bytes} {cap : Nat} (fresh : Nat → UInt8) (h : buf.length ≤ cap) :
    (extend buf cap fresh).length = cap := by
  simp only [extend, List.length_append, List.length_map, List.length_range]
  omega

def RespCtx.need (ctx : RespCtx) (data : Bytes) : Nat := ctx.len + data.length + 1

/-- The chunk and its NUL are stored behind the text. -/
def RespCtx.store (ctx : RespCtx) (data : Bytes) (h : ctx.need data ≤ ctx.cap) : RespCtx where
  buf := overwrite ctx.buf ctx.len (data ++ [0])
  len := ctx.len + data.length
  cap := ctx.cap
  length_buf := by
    rw [length_overwrite, ctx.length_buf]
    rw [ctx.length_buf, List.length_append, List.length_singleton]
    exact h
  len_lt := h

def RespCtx.newCap (ctx : RespCtx) (data : Bytes) : Nat :=
  grownCap (ctx.need data) (ctx.need data) ctx.cap

theorem RespCtx.need_le (ctx : RespCtx) (data : Bytes) : ctx.need data ≤ ctx.newCap data :=
  grownCap_need (Nat.zero_lt_of_lt ctx.len_lt) (Nat.le_add_left _ _)

/-- The buffer, grown for the chunk. -/
def RespCtx.grow (ctx : RespCtx) (data : Bytes) (fresh : Nat → UInt8)
    (h : ctx.cap < ctx.need data) : RespCtx where
  buf := extend ctx.buf (ctx.newCap data) fresh
  len := ctx.len
  cap := ctx.newCap data
  length_buf := length_extend fresh (by
    rw [ctx.length_buf]
    exact Nat.le_trans h.le (ctx.need_le data))
  len_lt := Nat.lt_of_lt_of_le (Nat.lt_trans ctx.len_lt h) (ctx.need_le data)

/-- `http_event_handler` for `HTTP_EVENT_ON_DATA` -/
def httpEventHandler (ctx : RespCtx) (data : Bytes) (realloc : Grant) : RespCtx :=
  if hFits : ctx.need data ≤ ctx.cap then ctx.store data hFits
  else
    match realloc with
    | none => ctx
    | some fresh => (ctx.grow data fresh (Nat.lt_of_not_le hFits)).store data (ctx.need_le data)

/-- What `http_request_ex` returns behind the transfer. -/
def httpRequestEx (ctx : RespCtx) (ok : Bool) (status : Int) : Option Bytes :=
  if ¬ok ∨ status ≠ 200 ∨ ctx.len = 0 then none else some ctx.buf

-- ---------------------------------------------------------------------------
-- Transfers
-- ---------------------------------------------------------------------------

structure Chunk where
  data : Bytes
  realloc : Grant

/-- A transfer under way: the body received so far, and whether a part of it was dropped. -/
structure Transfer where
  ctx : RespCtx
  body : Bytes
  dropped : Bool

/-- The chunk does not fit, and the buffer does not grow. -/
def Transfer.Drops (t : Transfer) (c : Chunk) : Prop :=
  t.ctx.cap < t.ctx.need c.data ∧ c.realloc.isNone

instance (t : Transfer) (c : Chunk) : Decidable (t.Drops c) := inferInstanceAs (Decidable (_ ∧ _))

def Transfer.receive (t : Transfer) (c : Chunk) : Option Transfer :=
  some
    { ctx := httpEventHandler t.ctx c.data c.realloc
      body := t.body ++ c.data
      dropped := t.dropped || t.Drops c }

/-- The buffer that `http_request_ex` starts with; its contents are those of the heap. -/
def Transfer.start (size : Nat) (heap : Nat → UInt8) : Transfer where
  ctx :=
    { buf := (List.range (size + 1)).map heap
      len := 0
      cap := size + 1
      length_buf := by simp
      len_lt := Nat.succ_pos size }
  body := []
  dropped := false

/-- The text in the buffer has its NUL. -/
def RespCtx.Terminated (ctx : RespCtx) : Prop := ctx.buf[ctx.len]? = some 0

/-- The buffer has a part of the body, from its beginning on. -/
structure RespCtx.Holds (ctx : RespCtx) (body : Bytes) : Prop where
  text : ctx.buf.take ctx.len <+: body
  length : (ctx.buf.take ctx.len).length = ctx.len
  terminated : ctx.Terminated
  room : ctx.len < ctx.cap

/-- Behind the chunk the buffer holds a part of the body, and nothing was appended behind a
chunk that was dropped. -/
structure Accumulates (t : Transfer) (c : Chunk) (t' : Transfer) : Prop where
  holds : t'.ctx.Holds t'.body
  noHole : t.dropped → t'.ctx.len = t.ctx.len

/-- A chunk is dropped only behind a text with its NUL, and behind a dropped chunk only
chunks without a byte or of a size that is not granted, either. -/
structure Regular (t : Transfer) (c : Chunk) : Prop where
  terminated : t.Drops c → t.ctx.Terminated
  behind : t.dropped → c.data ≠ [] → t.Drops c

/-- Up to the first dropped chunk the buffer has the whole body. -/
structure Transfer.Inv (t : Transfer) : Prop where
  part : t.ctx.buf.take t.ctx.len <+: t.body
  whole : t.dropped = false → t.ctx.buf.take t.ctx.len = t.body

-- ---------------------------------------------------------------------------
-- One chunk
-- ---------------------------------------------------------------------------

theorem RespCtx.store_text (ctx : RespCtx) (data : Bytes)
    (h : ctx.need data ≤ ctx.cap) :
    (ctx.store data h).buf.take (ctx.store data h).len = ctx.buf.take ctx.len ++ data := by
  have hLen : ctx.len ≤ ctx.buf.length := by rw [ctx.length_buf]; exact ctx.len_lt.le
  have hAll := @take_overwrite ctx.buf (data ++ [0]) ctx.len hLen
  have hShort := congrArg (List.take (ctx.len + data.length)) hAll
  rw [List.take_take, List.length_append, List.length_singleton, Nat.min_eq_left (by omega),
    ← List.append_assoc, List.take_left' (by simp [hLen])] at hShort
  exact hShort

theorem RespCtx.store_terminated (ctx : RespCtx) (data : Bytes)
    (h : ctx.need data ≤ ctx.cap) : (ctx.store data h).Terminated := by
  have hLen : ctx.len ≤ ctx.buf.length := by rw [ctx.length_buf]; exact ctx.len_lt.le
  have hTake : (ctx.buf.take ctx.len ++ data).length = ctx.len + data.length := by simp [hLen]
  simp only [RespCtx.Terminated, RespCtx.store, overwrite]
  rw [← List.append_assoc, List.append_assoc, List.getElem?_append_right hTake.le, hTake,
    Nat.sub_self]
  rfl

theorem RespCtx.grow_text (ctx : RespCtx) (data : Bytes) (fresh : Nat → UInt8)
    (h : ctx.cap < ctx.need data) :
    (ctx.grow data fresh h).buf.take ctx.len = ctx.buf.take ctx.len :=
  List.take_append_of_le_length (by rw [ctx.length_buf]; exact ctx.len_lt.le)

/-- The handler leaves the buffer alone, or appends the chunk and a NUL. -/
theorem httpEventHandler_cases (t : Transfer) (c : Chunk) :
    t.Drops c ∧ httpEventHandler t.ctx c.data c.realloc = t.ctx ∨
    ¬t.Drops c ∧ ∃ ctx, httpEventHandler t.ctx c.data c.realloc = ctx ∧ ctx.Terminated ∧
      ctx.len = t.ctx.len + c.data.length ∧
      ctx.buf.take ctx.len = t.ctx.buf.take t.ctx.len ++ c.data := by
  rw [httpEventHandler]
  split_ifs with hFits
  · refine .inr ⟨fun hDrops => Nat.not_lt_of_le hFits hDrops.1, _, rfl, ?_, rfl, ?_⟩
    · exact RespCtx.store_terminated ..
    · exact RespCtx.store_text ..
  cases hGrant : c.realloc with
  | none => exact .inl ⟨⟨Nat.lt_of_not_le hFits, by rw [hGrant]; rfl⟩, rfl⟩
  | some fresh =>
    refine .inr ⟨fun hDrops => ?_, _, rfl, ?_, rfl, ?_⟩
    · rw [Transfer.Drops, hGrant] at hDrops
      exact absurd hDrops.2 Bool.false_ne_true
    · exact RespCtx.store_terminated ..
    · refine (RespCtx.store_text ..).trans (congrArg (· ++ c.data) ?_)
      exact t.ctx.grow_text c.data fresh _

theorem RespCtx.length_text (ctx : RespCtx) : (ctx.buf.take ctx.len).length = ctx.len := by
  rw [List.length_take, ctx.length_buf, Nat.min_eq_left ctx.len_lt.le]

/-- **One chunk** is taken on as it should, exactly when it is regular. -/
theorem held_iff {t t' : Transfer} {c : Chunk} (hInv : t.Inv) (hStep : t.receive c = some t') :
    Accumulates t c t' ↔ Regular t c := by
  obtain rfl := Option.some.inj hStep
  rcases httpEventHandler_cases t c with ⟨hDrops, hSame⟩ | ⟨hTaken, ctx, hCtx, hNul, hLen, hText⟩
  · constructor
    · rintro ⟨hHolds, -⟩
      refine ⟨fun _ => ?_, fun _ _ => hDrops⟩
      simpa [hSame] using hHolds.terminated
    · rintro ⟨hNul, -⟩
      have hPart : t.ctx.buf.take t.ctx.len <+: t.body ++ c.data :=
        hInv.part.trans (List.prefix_append _ _)
      refine ⟨⟨?_, ?_, ?_, ?_⟩, fun _ => by rw [hSame]⟩
      · simpa [hSame] using hPart
      · exact RespCtx.length_text _
      · simpa [hSame] using hNul hDrops
      · exact RespCtx.len_lt _
  · constructor
    · rintro ⟨-, hHole⟩
      refine ⟨fun hDrops => absurd hDrops hTaken, fun hDropped hSome => ?_⟩
      have hGrown := hHole hDropped
      rw [hCtx, hLen] at hGrown
      exact absurd (List.eq_nil_of_length_eq_zero (by omega)) hSome
    · rintro ⟨-, hBehind⟩
      -- behind a dropped chunk only an empty one is taken on
      have hEmpty (hDropped : t.dropped = true) : c.data = [] := by
        by_contra hSome
        exact hTaken (hBehind hDropped hSome)
      have hPart : ctx.buf.take ctx.len <+: t.body ++ c.data := by
        rw [hText]
        cases hDropped : t.dropped with
        | false => simp only [hInv.whole hDropped, List.prefix_rfl]
        | true =>
          rw [hEmpty hDropped, List.append_nil, List.append_nil]
          exact hInv.part
      refine ⟨⟨?_, RespCtx.length_text _, ?_, RespCtx.len_lt _⟩, fun hDropped => ?_⟩
      · simpa [hCtx] using hPart
      · simpa [hCtx] using hNul
      · rw [hCtx, hLen, hEmpty hDropped, List.length_nil, Nat.add_zero]

theorem Transfer.Inv.receive {t t' : Transfer} {c : Chunk} (hInv : t.Inv)
    (hStep : t.receive c = some t') (hRegular : Regular t c) : t'.Inv := by
  have hHolds := ((held_iff hInv hStep).2 hRegular).holds
  obtain rfl := Option.some.inj hStep
  refine ⟨hHolds.text, fun hKept => ?_⟩
  obtain ⟨hDropped, hTaken⟩ := Bool.or_eq_false_iff.1 hKept
  rcases httpEventHandler_cases t c with ⟨hDrops, -⟩ | ⟨-, ctx, hCtx, -, -, hText⟩
  · exact absurd hDrops (of_decide_eq_false hTaken)
  · simp only [hCtx, hText, hInv.whole hDropped]

-- ---------------------------------------------------------------------------
-- Every transfer
-- ---------------------------------------------------------------------------

theorem Transfer.Inv.start (size : Nat) (heap : Nat → UInt8) : (Transfer.start size heap).Inv where
  part := List.nil_prefix
  whole _ := rfl

/-- **Every transfer.** Behind each chunk the buffer holds the beginning of the body and has
no hole, exactly when each chunk is regular. -/
theorem body_iff (size : Nat) (heap : Nat → UInt8) (chunks : List Chunk) :
    Along Transfer.receive Accumulates (Transfer.start size heap) chunks ↔
      Along Transfer.receive (fun t c _ => Regular t c) (Transfer.start size heap) chunks :=
  along_iff_of_invariant (I := Transfer.Inv)
    (fun _ c _ hInv hStep => held_iff (c := c) hInv hStep)
    (fun _ c _ hInv hStep hRegular => hInv.receive (c := c) hStep hRegular) (.start size heap)

/-- The first chunk fills the buffer, the memory for the second one is not granted, and the
third one is small enough. -/
def holeChunks : List Chunk :=
  [⟨ascii "[1,2", none⟩, ⟨ascii "3,4,5", none⟩, ⟨ascii "]", none⟩]

/-- The text is that of another response. -/
theorem hole_in_body :
    ¬∀ size heap chunks,
      Along Transfer.receive Accumulates (Transfer.start size heap) chunks := by
  intro hAll
  have hTexts : (run Transfer.receive (Transfer.start 5 fun _ => 0) holeChunks).map
      (fun t => (t.ctx.buf.take t.ctx.len, t.body)) = some (ascii "[1,2]", ascii "[1,23,4,5]") := by
    decide
  obtain ⟨t, hRun, hText⟩ := Option.map_eq_some_iff.1 hTexts
  obtain ⟨hHeld, hBody⟩ := Prod.mk.inj hText
  have hPart := (hAll 5 (fun _ => 0) holeChunks).final
    (fun t => t.ctx.buf.take t.ctx.len <+: t.body) (fun _ _ _ h => h.holds.text)
    List.nil_prefix hRun
  rw [hHeld, hBody] at hPart
  exact absurd hPart (by decide)

end EspMiplay.Lyrics
