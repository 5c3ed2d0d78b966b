import EspMiplay.Miplay.RtspFraming
import EspMiplay.Miplay.Service

/-!
# Leaving the keepalive loop

Behind PLAY an RTSP run answers the phone until the connection ends. The loop
tells a timeout from an end by `errno`, and looks at `errno` before it looks at
the result: a `recv` of 0 does not set it, so a close behind a timeout is taken
for another timeout, again and again. The generation, which the handshake loop
and the media task look at, is not looked at here at all.

`Keepalive` is the loop alone, with the results `recv` still has to give. What
comes behind them repeats: the close, or timeouts while nobody sends.

## Results

* `EndsLoop.leaves`       — bytes of the phone that end the loop by themselves.
* `leaves_iff`            — a close or an idle connection behind the trace, exactly.
* `keepalive_leaves_iff`  — when both demands on the loop are met.
-/

namespace EspMiplay.Miplay

open Effect

/-! ## The loop -/

def Recv.outcome : Recv → Outcome
  | .data bytes => .data bytes false
  | .timeout => .timeout

structure Keepalive where
  world : World
  run : RtspRun
  /-- what `recv` still has to give -/
  trace : List Recv

namespace Keepalive

/-- The run as it enters the loop. -/
def enter (w : World) (r : RtspRun) (vs : List Recv) : Keepalive where
  world := w
  run := { r with pc := .keepRead, inBody := false }
  trace := vs

/-- One step of the run. -/
def step (s : Keepalive) (env : Env) (who : Owner) (o : Outcome) (vs : List Recv) : Keepalive where
  world := s.world.after (rtspRunStep env who s.run o)
  run := ((rtspRunStep env who s.run o).run s.world).1
  trace := vs

/-- The next step in the loop; `after` is what `recv` gives behind the trace. -/
def next (env : Env) (who : Owner) (after : Outcome) (s : Keepalive) : Keepalive :=
  if s.run.pc = .keepRead then s.step env who .go s.trace
  else if s.run.pc = .keepRecv then
    s.step env who (s.trace.head?.elim after Recv.outcome) s.trace.tail
  else s

end Keepalive

/-- The loop is left sooner or later. -/
def Leaves (env : Env) (who : Owner) (after : Outcome) (s : Keepalive) : Prop :=
  ∃ n, ((Keepalive.next env who after)^[n] s).run.pc = .closeRtsp

/-! ## What the phone's bytes do -/

/-- Where the loop stands: in front of the buffer, or blocked in `recv` behind it;
for a body or not. -/
inductive KeepPos where
  | reading (inBody : Bool) (buf : Bytes)
  | blocked (inBody : Bool) (buf : Bytes)

/-- What is received ends the loop: a TEARDOWN is cut from it, or a message that is
refused, or it fills the buffer before a timeout has left EAGAIN in `errno`. -/
inductive EndsLoop : Bool → KeepPos → List Recv → Prop where
  | teardown {again inBody : Bool} {p headers body rest : Bytes} {vs : List Recv}
      (hMessage : rtspResume inBody p = .message headers body rest)
      (hTeardown : isTeardown headers = true) : EndsLoop again (.reading inBody p) vs
  | refused {again inBody : Bool} {p buf : Bytes} {vs : List Recv}
      (hFail : rtspResume inBody p = .fail buf true) : EndsLoop again (.reading inBody p) vs
  | full {inBody : Bool} {p buf : Bytes} {vs : List Recv}
      (hFail : rtspResume inBody p = .fail buf false) : EndsLoop false (.reading inBody p) vs
  | message {again inBody : Bool} {p headers body rest : Bytes} {vs : List Recv}
      (hMessage : rtspResume inBody p = .message headers body rest)
      (hRest : EndsLoop again (.reading false rest) vs) : EndsLoop again (.reading inBody p) vs
  | more {again inBody inBody' : Bool} {p buf : Bytes} {vs : List Recv}
      (hMore : rtspResume inBody p = .more buf inBody')
      (hRest : EndsLoop again (.blocked inBody' buf) vs) : EndsLoop again (.reading inBody p) vs
  | data {again inBody : Bool} {buf bytes : Bytes} {vs : List Recv}
      (hRest : EndsLoop again (.reading inBody (buf ++ bytes)) vs) :
      EndsLoop again (.blocked inBody buf) (.data bytes :: vs)
  | timeout {again inBody : Bool} {buf : Bytes} {vs : List Recv}
      (hRest : EndsLoop true (.reading false buf) vs) :
      EndsLoop again (.blocked inBody buf) (.timeout :: vs)

/-- The loop ends whatever comes behind the trace: the service has stopped, there is
no memory for the buffer, or what is received ends it. -/
def EndsItself (env : Env) (w : World) (r : RtspRun) (vs : List Recv) : Prop :=
  w.running = false ∨
    (w.rtsp.buf.allocated = true ∧ EndsLoop r.errAgain (.reading false w.rtsp.buf.used) vs) ∨
    w.rtsp.buf.allocated = false ∧
      (env.heap w.tick = false ∧ r.errAgain = false ∨
        (∃ n, env.heap (w.tick + n) = true) ∧ EndsLoop r.errAgain (.blocked false []) vs)

/-! ## The reader -/

theorem rtspLeftover_lt {p q : Bytes} (h : rtspLeftover p = some q) : q.length < p.length := by
  rw [rtspLeftover] at h
  by_cases hJunk : p ≠ [] ∧ rtspIsMessageStart p = false
  · have hPos := List.length_pos_iff.2 hJunk.1
    rw [if_pos hJunk] at h
    cases hFind : rtspFindMessageStart p with
    | some n =>
      simp only [hFind] at h
      split_ifs at h with hn
      obtain rfl := Option.some.inj h
      rw [List.length_drop]
      omega
    | none =>
      simp only [hFind] at h
      split_ifs at h
      obtain rfl := Option.some.inj h
      exact hPos
  · rw [if_neg hJunk] at h
    cases h

/-- A message takes its headers off the buffer at least. -/
theorem rtspScanHeaders_message_lt {p headers body rest : Bytes}
    (h : rtspScanHeaders p = .message headers body rest) : rest.length < p.length := by
  obtain ⟨-, hMore⟩ | ⟨front, tail, hp, -, hTake⟩ := rtspScanHeaders_cases p
  · rw [hMore] at h
    cases h
  rw [hTake, rtspTakeMessage] at h
  dsimp only at h
  split_ifs at h
  obtain ⟨-, -, rfl⟩ := RtspScan.message.inj h
  have hLen := congrArg List.length hp
  simp only [crlf, List.length_append, List.length_cons, List.length_nil] at hLen
  rw [List.length_drop]
  omega

theorem rtspScan_message_lt {n : Nat} {p headers body rest : Bytes}
    (h : rtspScan n p = .message headers body rest) : rest.length < p.length := by
  induction n generalizing p with
  | zero => cases h
  | succ n ih =>
    by_cases hRoom : p.length < rtspBufSize - 1
    · -- skipping and dropping leftovers only shorten the buffer
      have hq := length_rtspSkipInterleaved_le p.length p
      rw [rtspScan_succ n hRoom] at h
      generalize rtspSkipInterleaved p.length p = q at h hq
      split_ifs at h
      cases hLeft : rtspLeftover q with
      | some q' =>
        rw [hLeft] at h
        exact ((ih h).trans (rtspLeftover_lt hLeft)).trans_le hq
      | none =>
        rw [hLeft] at h
        exact (rtspScanHeaders_message_lt h).trans_le hq
    · rw [rtspScan, if_pos (by omega)] at h
      cases h

theorem rtspResume_message_lt {inBody : Bool} {p headers body rest : Bytes}
    (h : rtspResume inBody p = .message headers body rest) : rest.length < p.length := by
  rw [rtspResume] at h
  split at h
  · exact rtspScanHeaders_message_lt h
  · exact rtspScan_message_lt h

/-- Skipping goes as far as it can. -/
theorem rtspSkipInterleaved_idem (p : Bytes) :
    rtspSkipInterleaved (rtspSkipInterleaved p.length p).length (rtspSkipInterleaved p.length p) =
      rtspSkipInterleaved p.length p := by
  have hIdem (fuel : Nat) : ∀ p : Bytes, p.length ≤ fuel →
      rtspSkipInterleaved fuel (rtspSkipInterleaved fuel p) = rtspSkipInterleaved fuel p := by
    induction fuel with
    | zero => exact fun p _ => rfl
    | succ fuel ih =>
      intro p hp
      by_cases hFrame : p.length ≥ 4 ∧ peek p = 0x24
      · have hStep : rtspSkipInterleaved (fuel + 1) p =
            if p.length < 4 + ((p.getD 2 0).toNat * 256 + (p.getD 3 0).toNat) then p
            else rtspSkipInterleaved fuel
              (p.drop (4 + ((p.getD 2 0).toNat * 256 + (p.getD 3 0).toNat))) := by
          rw [rtspSkipInterleaved, if_pos hFrame]
        split_ifs at hStep with hShort
        · rw [hStep, hStep]
        · -- behind the frame there is less than before
          have hDrop : (p.drop (4 + ((p.getD 2 0).toNat * 256 + (p.getD 3 0).toNat))).length ≤
              fuel := by
            rw [List.length_drop]
            omega
          have hRest := (length_rtspSkipInterleaved_le fuel
            (p.drop (4 + ((p.getD 2 0).toNat * 256 + (p.getD 3 0).toNat)))).trans hDrop
          rw [hStep, rtspSkipInterleaved_fuel (hRest.trans (Nat.le_succ fuel)) hRest]
          exact ih _ hDrop
      · have hSame : rtspSkipInterleaved (fuel + 1) p = p := by
          rw [rtspSkipInterleaved, if_neg hFrame]
        rw [hSame, hSame]
  have hLen := length_rtspSkipInterleaved_le p.length p
  rw [rtspSkipInterleaved_fuel (le_refl _) hLen]
  exact hIdem p.length p (le_refl _)

/-- A call that ends in a `recv` leaves a buffer on which the next one ends there
too. -/
theorem rtspScan_waits_again {n : Nat} {p buf : Bytes} {inBody : Bool} (hFuel : p.length < n)
    (h : rtspScan n p = .more buf inBody) (m : Nat) :
    rtspScan (m + 1) buf = .more buf inBody := by
  induction n generalizing p with
  | zero => omega
  | succ n ih =>
    by_cases hRoom : p.length < rtspBufSize - 1
    · -- what is left after skipping is not skipped again, so the next call takes this branch
      have hLen := length_rtspSkipInterleaved_le p.length p
      have hIdem := rtspSkipInterleaved_idem p
      rw [rtspScan_succ n hRoom] at h
      generalize rtspSkipInterleaved p.length p = q at h hLen hIdem
      have hq := hLen.trans_lt hRoom
      split_ifs at h with hDollar
      · obtain ⟨rfl, rfl⟩ := RtspScan.more.inj h
        rw [rtspScan_succ m hq, hIdem, if_pos hDollar]
      cases hLeft : rtspLeftover q with
      | some q' =>
        rw [hLeft] at h
        have hShort := rtspLeftover_lt hLeft
        exact ih (by omega) h
      | none =>
        rw [hLeft] at h
        have hBuf : buf = q := by
          obtain ⟨-, hMore⟩ | ⟨front, rest, -, -, hTake⟩ := rtspScanHeaders_cases q
          · exact (RtspScan.more.inj (hMore.symm.trans h)).1.symm
          · exact rtspTakeMessage_eq_more (hTake.symm.trans h)
        rw [hBuf] at h ⊢
        rw [rtspScan_succ m hq, hIdem, if_neg hDollar, hLeft]
        exact h
    · rw [rtspScan, if_pos (by omega)] at h
      cases h

/-- Looked at again from the front, what is waited behind gives no message. -/
theorem rtspResume_more {inBody inBody' : Bool} {p buf : Bytes}
    (hStart : inBody = true → rtspIsMessageStart p)
    (h : rtspResume inBody p = .more buf inBody') :
    rtspResume false buf = .more buf inBody' ∨ rtspResume false buf = .fail buf false := by
  cases inBody with
  | false => exact .inl (rtspScan_waits_again (Nat.lt_succ_self _) h _)
  | true =>
    have hIs := hStart rfl
    have hScan : rtspScanHeaders p = .more buf inBody' := h
    obtain rfl : buf = p := by
      obtain ⟨-, hMore⟩ | ⟨front, rest, -, -, hTake⟩ := rtspScanHeaders_cases p
      · exact (RtspScan.more.inj (hMore.symm.trans hScan)).1.symm
      · exact rtspTakeMessage_eq_more (hTake.symm.trans hScan)
    obtain ⟨c, cs, rfl, hFirst, -⟩ := rtspIsMessageStart_cons hIs
    have hDollar : peek (c :: cs) ≠ 0x24 := hFirst
    by_cases hRoom : (c :: cs).length < rtspBufSize - 1
    · -- the start of a message is neither a frame nor a leftover
      have hLeft : rtspLeftover (c :: cs) = none := by
        refine (rtspLeftover.eq_1 _).trans (if_neg fun hJunk => ?_)
        rw [hIs] at hJunk
        exact absurd hJunk.2 (by decide)
      left
      rw [rtspResume, if_neg (by decide), rtspScan_succ _ hRoom,
        rtspSkipInterleaved_of_ne _ hDollar, if_neg hDollar, hLeft]
      exact hScan
    · right
      rw [rtspResume, if_neg (by decide), rtspScan, if_pos (by omega)]

theorem rtspResume_starts {inBody : Bool} {p : Bytes}
    (hStart : inBody = true → rtspIsMessageStart p) : (rtspResume inBody p).Starts := by
  cases inBody with
  | false => exact rtspScan_starts _ _
  | true => exact rtspScanHeaders_starts (.inl (hStart rfl))

/-- Waiting for a body never fills the buffer unnoticed. -/
theorem rtspResume_fail_again {inBody : Bool} {p buf : Bytes}
    (h : rtspResume inBody p = .fail buf false) : rtspResume inBody buf = .fail buf false := by
  cases inBody with
  | false => exact rtspScan_fails_again h _
  | true =>
    obtain rfl := rtspScanHeaders_eq_fail h
    exact h

/-! ## One step -/

namespace KeepPos

def inBody : KeepPos → Bool
  | reading inBody _ | blocked inBody _ => inBody

def buf : KeepPos → Bytes
  | reading _ buf | blocked _ buf => buf

def pc : KeepPos → RtspPc
  | reading _ _ => .keepRead
  | blocked _ _ => .keepRecv

/-- A body is waited for behind the start of a message, and what `recv` waits behind
gives no message by itself. -/
def Settled : KeepPos → Prop
  | reading inBody p => inBody = true → rtspIsMessageStart p
  | blocked inBody buf => (inBody = true → rtspIsMessageStart buf) ∧
      ¬EndsLoop true (.reading false buf) []

end KeepPos

/-- The loop stands there. -/
structure KeepAt (again : Bool) (pos : KeepPos) (s : Keepalive) : Prop where
  running : s.world.running = true
  allocated : s.world.rtsp.buf.allocated = true
  used : s.world.rtsp.buf.used = pos.buf
  pc : s.run.pc = pos.pc
  errAgain : s.run.errAgain = again
  inBody : s.run.inBody = pos.inBody

section Step

variable {env : Env} {who : Owner} {after : Outcome} {again inBody : Bool} {p : Bytes}
  {s : Keepalive}

theorem KeepAt.reads (h : KeepAt again (.reading inBody p) s) :
    s.run.pc = .keepRead ∧ s.run.inBody = inBody ∧ s.world.rtsp.buf.used = p :=
  ⟨h.pc, h.inBody, h.used⟩

theorem KeepAt.waits (h : KeepAt again (.blocked inBody p) s) :
    s.run.pc = .keepRecv ∧ s.run.inBody = inBody ∧ s.world.rtsp.buf.used = p :=
  ⟨h.pc, h.inBody, h.used⟩

theorem next_of_read (hPc : s.run.pc = .keepRead) :
    s.next env who after = s.step env who .go s.trace := if_pos hPc

theorem next_of_recv (hPc : s.run.pc = .keepRecv) :
    s.next env who after =
      s.step env who (s.trace.head?.elim after Recv.outcome) s.trace.tail := by
  rw [Keepalive.next, if_neg (by rw [hPc]; decide), if_pos hPc]

theorem next_of_left (hPc : s.run.pc = .closeRtsp) : s.next env who after = s := by
  rw [Keepalive.next, if_neg (by rw [hPc]; decide), if_neg (by rw [hPc]; decide)]

theorem next_trace (env : Env) (who : Owner) (after : Outcome)
    (h : KeepAt again (.reading inBody p) s) :
    (s.next env who after).trace = s.trace := by
  rw [next_of_read h.pc]
  rfl

/-- Whatever a message was, the loop is left behind a TEARDOWN only. -/
theorem next_message (env : Env) (who : Owner) (after : Outcome)
    (h : KeepAt again (.reading inBody p) s) {headers body rest : Bytes}
    (hMessage : rtspResume inBody p = .message headers body rest) :
    (isTeardown headers = true ∧ (s.next env who after).run.pc = .closeRtsp) ∨
      isTeardown headers = false ∧
        KeepAt again (.reading false rest) (s.next env who after) := by
  rw [next_of_read h.pc]
  obtain ⟨hPc, hBody, hRead⟩ := h.reads
  -- a response is passed over, and of the requests only TEARDOWN ends the loop
  by_cases hResp : rtspIsResponse headers = true
  · right
    refine ⟨by simp [isTeardown, hResp], ?_⟩
    constructor <;>
      simp [Keepalive.step, World.after, rtspRunStep, rtspReadMsg, rtspHandleKeepalive,
        RtspRun.goto, hPc, hBody, h.running, h.allocated, hRead, hMessage, hResp, h.errAgain, KeepPos.buf,
        KeepPos.pc, KeepPos.inBody]
  · by_cases hMethod : rtspMethod headers = ascii "TEARDOWN"
    · left
      refine ⟨by simp [isTeardown, hResp, hMethod], ?_⟩
      simp [Keepalive.step, rtspRunStep, rtspReadMsg, rtspHandleKeepalive, RtspRun.goto, hPc, hBody,
        h.running, h.allocated, hRead, hMessage, hResp, hMethod]
    · right
      refine ⟨by simp [isTeardown, hResp, hMethod], ?_⟩
      constructor <;>
        simp [Keepalive.step, World.after, rtspRunStep, rtspReadMsg, rtspHandleKeepalive,
          RtspRun.goto, hPc, hBody, h.running, h.allocated, hRead, hMessage, hResp, hMethod,
          h.errAgain, KeepPos.buf, KeepPos.pc, KeepPos.inBody]

theorem next_more (env : Env) (who : Owner) (after : Outcome)
    (h : KeepAt again (.reading inBody p) s) {inBody' : Bool} {buf : Bytes}
    (hMore : rtspResume inBody p = .more buf inBody') :
    KeepAt again (.blocked inBody' buf) (s.next env who after) := by
  rw [next_of_read h.pc]
  obtain ⟨hPc, hBody, hRead⟩ := h.reads
  constructor <;>
    simp [Keepalive.step, World.after, rtspRunStep, rtspReadMsg, hPc, hBody, h.running, h.allocated,
      hRead, hMore, h.errAgain, KeepPos.buf, KeepPos.pc, KeepPos.inBody]

/-- A refusal ends the loop, unless it looks like a timeout. -/
theorem next_fail (env : Env) (who : Owner) (after : Outcome)
    (h : KeepAt again (.reading inBody p) s) {setsErrno : Bool} {buf : Bytes}
    (hFail : rtspResume inBody p = .fail buf setsErrno) :
    ((setsErrno = true ∨ again = false) ∧ (s.next env who after).run.pc = .closeRtsp) ∨
      setsErrno = false ∧ again = true ∧
        KeepAt true (.reading inBody buf) (s.next env who after) := by
  rw [next_of_read h.pc]
  obtain ⟨hPc, hBody, hRead⟩ := h.reads
  have hErr := h.errAgain
  by_cases hEnds : setsErrno = true ∨ again = false
  · left
    refine ⟨hEnds, ?_⟩
    have hStop : ¬(setsErrno = false ∧ s.run.errAgain = true) := by
      rw [hErr]
      rcases hEnds with rfl | rfl
      all_goals simp
    simp [Keepalive.step, rtspRunStep, rtspReadMsg, hPc, hBody, h.running, h.allocated, hRead,
      hFail, hStop]
  · right
    obtain ⟨rfl, rfl⟩ : setsErrno = false ∧ again = true := by simpa using hEnds
    refine ⟨rfl, rfl, ?_⟩
    constructor <;>
      simp [Keepalive.step, World.after, rtspRunStep, rtspReadMsg, hPc, hBody, h.running,
        h.allocated, hRead, hFail, hErr, KeepPos.buf, KeepPos.pc, KeepPos.inBody]

theorem next_data (env : Env) (who : Owner) (after : Outcome)
    (h : KeepAt again (.blocked inBody p) s) {bytes : Bytes} {vs : List Recv}
    (hTrace : s.trace = .data bytes :: vs) :
    KeepAt again (.reading inBody (p ++ bytes)) (s.next env who after) ∧
      (s.next env who after).trace = vs := by
  rw [next_of_recv h.pc, hTrace]
  obtain ⟨hPc, hBody, hRead⟩ := h.waits
  refine ⟨?_, rfl⟩
  constructor <;>
    simp [Keepalive.step, World.after, rtspRunStep, rtspReceived, rtspAppend, Recv.outcome,
      RtspRun.goto, hPc, hBody, h.running, h.allocated, hRead, h.errAgain, KeepPos.buf, KeepPos.pc,
      KeepPos.inBody]

/-- A timeout, or what the loop takes for one. -/
theorem step_idle (h : KeepAt again (.blocked inBody p) s) {o : Outcome}
    (hIdle : o = .timeout ∨ o = .closed ∧ again = true) (vs : List Recv) :
    KeepAt true (.reading false p) (s.step env who o vs) := by
  obtain ⟨hPc, -, hRead⟩ := h.waits
  have hErr := h.errAgain
  rcases hIdle with rfl | ⟨rfl, rfl⟩
  all_goals
    constructor <;>
      simp [Keepalive.step, World.after, rtspRunStep, rtspReceived, hPc, h.running, h.allocated,
        hRead, hErr, KeepPos.buf, KeepPos.pc, KeepPos.inBody]

theorem step_closed (h : KeepAt false (.blocked inBody p) s) (vs : List Recv) :
    (s.step env who .closed vs).run.pc = .closeRtsp := by
  have hPc : s.run.pc = .keepRecv := h.pc
  simp [Keepalive.step, rtspRunStep, rtspReceived, hPc, h.errAgain]

end Step

/-! ## Leaving -/

section Leave

variable {env : Env} {who : Owner} {after : Outcome} {again : Bool} {pos : KeepPos} {s : Keepalive}

theorem leaves_of_pc (h : s.run.pc = .closeRtsp) : Leaves env who after s := ⟨0, h⟩

/-- A step changes nothing about it. -/
theorem leaves_next : Leaves env who after (s.next env who after) ↔ Leaves env who after s := by
  constructor
  · rintro ⟨n, h⟩
    exact ⟨n + 1, h⟩
  · rintro ⟨n, h⟩
    cases n with
    | zero =>
      have hLeft : s.run.pc = .closeRtsp := h
      exact ⟨0, by rw [next_of_left hLeft]; exact hLeft⟩
    | succ n => exact ⟨n, h⟩

/-- What keeps the loop from ever ending. -/
theorem not_leaves_of_invariant {I : Keepalive → Prop} (hPc : ∀ s, I s → s.run.pc ≠ .closeRtsp)
    (hNext : ∀ s, I s → I (s.next env who after)) (hs : I s) : ¬Leaves env who after s := by
  rintro ⟨n, h⟩
  have hAll : I ((Keepalive.next env who after)^[n] s) := by
    clear h
    induction n generalizing s with
    | zero => exact hs
    | succ n ih => exact ih (hNext s hs)
  exact hPc _ hAll h

/-- **By itself.** Bytes that end the loop do so, whatever comes behind them. -/
theorem EndsLoop.leaves {vs : List Recv} (hEnds : EndsLoop again pos vs) (h : KeepAt again pos s)
    (hTrace : s.trace = vs) : Leaves env who after s := by
  -- along the bytes that end it; a timeout is one more step to take
  induction hEnds generalizing s with
  | teardown hMessage hTeardown =>
    rcases next_message env who after h hMessage with
      ⟨-, hPc⟩ | ⟨hNot, -⟩
    · exact leaves_next.1 (leaves_of_pc hPc)
    · rw [hTeardown] at hNot
      cases hNot
  | refused hFail =>
    rcases next_fail env who after h hFail with ⟨-, hPc⟩ | ⟨hNot, -⟩
    · exact leaves_next.1 (leaves_of_pc hPc)
    · cases hNot
  | full hFail =>
    rcases next_fail env who after h hFail with
      ⟨-, hPc⟩ | ⟨-, hNot, -⟩
    · exact leaves_next.1 (leaves_of_pc hPc)
    · cases hNot
  | message hMessage _ ih =>
    rcases next_message env who after h hMessage with
      ⟨-, hPc⟩ | ⟨-, hAt⟩
    · exact leaves_next.1 (leaves_of_pc hPc)
    · have hSame := (next_trace env who after h).trans hTrace
      exact leaves_next.1 (ih hAt hSame)
  | more hMore _ ih =>
    have hSame := (next_trace env who after h).trans hTrace
    exact leaves_next.1 (ih (next_more env who after h hMore) hSame)
  | data _ ih =>
    obtain ⟨hAt, hRest⟩ := next_data env who after h hTrace
    exact leaves_next.1 (ih hAt hRest)
  | timeout _ ih =>
    refine leaves_next.1 (ih ?_ ?_)
    · rw [next_of_recv h.pc, hTrace]
      exact step_idle h (.inl rfl) _
    · rw [next_of_recv h.pc, hTrace]
      rfl

/-- A loop that has seen no timeout leaves or gets to `recv`: every message shortens
the buffer. -/
theorem leaves_of_blocked {inBody : Bool} {p : Bytes} (h : KeepAt false (.reading inBody p) s)
    (hBlocked : ∀ inBody' buf s', KeepAt false (.blocked inBody' buf) s' → s'.trace = s.trace →
      Leaves env who after s') : Leaves env who after s := by
  induction hLen : p.length using Nat.strong_induction_on generalizing inBody p s with
  | _ len ih =>
    have hTrace := next_trace env who after h
    refine leaves_next.1 ?_
    cases hResume : rtspResume inBody p with
    | more buf inBody' => exact hBlocked _ _ _ (next_more env who after h hResume) hTrace
    | fail buf setsErrno =>
      rcases next_fail env who after h hResume with
        ⟨-, hPc⟩ | ⟨-, hNot, -⟩
      · exact leaves_of_pc hPc
      · cases hNot
    | message headers body rest =>
      have hShort := rtspResume_message_lt hResume
      rcases next_message env who after h hResume with
        ⟨-, hPc⟩ | ⟨-, hAt⟩
      · exact leaves_of_pc hPc
      · refine ih rest.length (hLen ▸ hShort) hAt (fun inBody' buf s' hAt' hSame => ?_) rfl
        exact hBlocked _ _ _ hAt' (hSame.trans hTrace)

/-- Without a timeout the close is seen for what it is. -/
theorem leaves_of_quiet {vs : List Recv} (hQuiet : Recv.timeout ∉ vs) (h : KeepAt false pos s)
    (hTrace : s.trace = vs) : Leaves env who .closed s := by
  induction vs generalizing pos s with
  | nil =>
    have hClose : ∀ inBody buf s', KeepAt false (.blocked inBody buf) s' → s'.trace = s.trace →
        Leaves env who .closed s' := by
      intro inBody buf s' hAt hSame
      refine leaves_next.1 (leaves_of_pc ?_)
      rw [next_of_recv hAt.pc, hSame, hTrace]
      exact step_closed hAt _
    cases pos with
    | reading inBody p => exact leaves_of_blocked h hClose
    | blocked inBody buf => exact hClose _ _ _ h rfl
  | cons v vs ih =>
    obtain ⟨hNot, hRest⟩ : v ≠ .timeout ∧ Recv.timeout ∉ vs := by
      simpa [eq_comm] using hQuiet
    have hData : ∀ inBody buf s', KeepAt false (.blocked inBody buf) s' → s'.trace = s.trace →
        Leaves env who .closed s' := by
      intro inBody buf s' hAt hSame
      cases v with
      | timeout => exact absurd rfl hNot
      | data bytes =>
        obtain ⟨hNext, hTail⟩ := next_data env who .closed hAt
          (hSame.trans hTrace)
        exact leaves_next.1 (ih hRest hNext hTail)
    cases pos with
    | reading inBody p => exact leaves_of_blocked h hData
    | blocked inBody buf => exact hData _ _ _ h rfl

/-! ## Staying -/

/-- What `recv` waits behind ends nothing by itself. -/
theorem settled_blocked {inBody inBody' : Bool} {p buf : Bytes}
    (hStart : inBody = true → rtspIsMessageStart p)
    (hMore : rtspResume inBody p = .more buf inBody') :
    (KeepPos.blocked inBody' buf).Settled := by
  have hStarts := rtspResume_starts hStart
  rw [hMore] at hStarts
  refine ⟨hStarts, fun hEnds => ?_⟩
  have hAgain := rtspResume_more hStart hMore
  cases hEnds with
  | teardown hMessage | refused hMessage | message hMessage =>
    rw [hMessage] at hAgain
    rcases hAgain with h | h <;> cases h
  | more _ hRest => cases hRest

/-- The loop will never be left: nothing received ends it, and EAGAIN is in `errno` or
will be. -/
structure Stuck (after : Outcome) (s : Keepalive) : Prop where
  stands : ∃ again pos, KeepAt again pos s ∧ pos.Settled ∧ ¬EndsLoop again pos s.trace ∧
    (again = true ∨ Recv.timeout ∈ s.trace ∨ after = .timeout)

theorem Stuck.next (hAfter : after = .closed ∨ after = .timeout) (h : Stuck after s) :
    Stuck after (s.next env who after) := by
  obtain ⟨again, pos, hAt, hSettled, hEnds, hIdle⟩ := h.stands
  constructor
  cases pos with
  | reading inBody p =>
    have hTrace := next_trace env who after hAt
    rw [hTrace]
    cases hResume : rtspResume inBody p with
    | more buf inBody' =>
      exact ⟨again, _, next_more env who after hAt hResume, settled_blocked hSettled hResume,
        fun hRest => hEnds (.more hResume hRest), hIdle⟩
    | message headers body rest =>
      rcases next_message env who after hAt hResume with
        ⟨hTeardown, -⟩ | ⟨-, hNext⟩
      · exact absurd (.teardown hResume hTeardown) hEnds
      · exact ⟨again, _, hNext, fun hBody => absurd hBody (by decide),
          fun hRest => hEnds (.message hResume hRest), hIdle⟩
    | fail buf setsErrno =>
      rcases next_fail env who after hAt hResume with
        ⟨rfl | rfl, -⟩ | ⟨rfl, rfl, hNext⟩
      · exact absurd (.refused hResume) hEnds
      · cases setsErrno with
        | true => exact absurd (.refused hResume) hEnds
        | false => exact absurd (.full hResume) hEnds
      · -- the call fails again, and `errno` still says EAGAIN
        have hAgain := rtspResume_fail_again hResume
        have hBody : inBody = true → rtspIsMessageStart buf := by
          rintro rfl
          obtain rfl := rtspScanHeaders_eq_fail (p := p) hResume
          exact hSettled rfl
        refine ⟨true, _, hNext, hBody, fun hRest => ?_, .inl rfl⟩
        cases hRest with
        | teardown hOther | refused hOther | message hOther | more hOther =>
          rw [hAgain] at hOther
          cases hOther
  | blocked inBody buf =>
    cases hTrace : s.trace with
    | nil =>
      have hStep : after = .timeout ∨ after = .closed ∧ again = true := by
        rw [hTrace] at hIdle
        rcases hAfter with rfl | rfl
        · simpa using hIdle
        · exact .inl rfl
      rw [next_of_recv hAt.pc, hTrace]
      exact ⟨true, _, step_idle hAt hStep _, fun hBody => absurd hBody (by decide), hSettled.2,
        .inl rfl⟩
    | cons v vs =>
      rw [hTrace] at hEnds hIdle
      cases v with
      | data bytes =>
        obtain ⟨hNext, hTail⟩ := next_data env who after hAt hTrace
        rw [hTail]
        have hStill : again = true ∨ Recv.timeout ∈ vs ∨ after = .timeout := by simpa using hIdle
        refine ⟨again, _, hNext, fun hBody => ?_, fun hRest => hEnds (.data hRest), hStill⟩
        exact rtspIsMessageStart_append (hSettled.1 hBody) bytes
      | timeout =>
        rw [next_of_recv hAt.pc, hTrace]
        exact ⟨true, _, step_idle hAt (.inl rfl) _, fun hBody => absurd hBody (by decide),
          fun hRest => hEnds (.timeout hRest), .inl rfl⟩

theorem Stuck.not_leaves (hAfter : after = .closed ∨ after = .timeout) (h : Stuck after s) :
    ¬Leaves env who after s := by
  refine not_leaves_of_invariant (I := Stuck after) (fun s hs => ?_) (fun s hs => hs.next hAfter) h
  obtain ⟨again, pos, hAt, -⟩ := hs.stands
  rw [hAt.pc]
  cases pos <;> simp [KeepPos.pc]

/-- **The end of the loop.** What is received ends it, or a close that no timeout came
before. -/
theorem leaves_iff (hAfter : after = .closed ∨ after = .timeout) (h : KeepAt again pos s)
    (hSettled : pos.Settled) :
    Leaves env who after s ↔
      EndsLoop again pos s.trace ∨ after = .closed ∧ again = false ∧ Recv.timeout ∉ s.trace := by
  constructor
  · intro hLeaves
    by_contra hNot
    -- otherwise the loop is stuck
    obtain ⟨hEnds, hQuiet⟩ := not_or.1 hNot
    refine absurd hLeaves (Stuck.not_leaves hAfter ⟨again, pos, h, hSettled, hEnds, ?_⟩)
    rcases hAfter with rfl | rfl
    · by_cases hErr : again = true
      · exact .inl hErr
      · refine .inr (.inl ?_)
        by_contra hTimeout
        exact hQuiet ⟨rfl, by simpa using hErr, hTimeout⟩
    · exact .inr (.inr rfl)
  · rintro (hEnds | ⟨rfl, rfl, hQuiet⟩)
    · exact hEnds.leaves h rfl
    · exact leaves_of_quiet hQuiet h rfl

end Leave

/-! ## From the entry on -/

section Enter

variable {env : Env} {who : Owner} {after : Outcome} {w : World} {r : RtspRun} {vs : List Recv}

theorem enter_stopped (hRun : w.running = false) :
    Leaves env who after (Keepalive.enter w r vs) := by
  refine leaves_next.1 (leaves_of_pc ?_)
  rw [next_of_read rfl]
  simp [Keepalive.step, Keepalive.enter, rtspRunStep, RtspRun.goto, hRun]

theorem enter_allocated (r : RtspRun) (vs : List Recv) (hRun : w.running = true)
    (hBuf : w.rtsp.buf.allocated = true) :
    KeepAt r.errAgain (.reading false w.rtsp.buf.used) (Keepalive.enter w r vs) :=
  ⟨hRun, hBuf, rfl, rfl, rfl, rfl⟩

/-- The first call gets the buffer. -/
theorem enter_heap (env : Env) (who : Owner) (after : Outcome) (r : RtspRun) (vs : List Recv)
    (hRun : w.running = true) (hBuf : w.rtsp.buf.allocated = false)
    (hHeap : env.heap w.tick = true) :
    KeepAt r.errAgain (.blocked false []) ((Keepalive.enter w r vs).next env who after) := by
  have hEmpty : rtspResume false [] = .more [] false := rfl
  rw [next_of_read rfl]
  constructor <;>
    simp [Keepalive.step, Keepalive.enter, World.after, rtspRunStep, rtspReadMsg, hRun, hBuf, hHeap,
      hEmpty, KeepPos.buf, KeepPos.pc, KeepPos.inBody]

/-- Without a buffer the call fails, and `errno` is the old one. -/
theorem enter_starved (env : Env) (who : Owner) (after : Outcome) (r : RtspRun) (vs : List Recv)
    (hRun : w.running = true) (hBuf : w.rtsp.buf.allocated = false)
    (hHeap : env.heap w.tick = false) :
    (r.errAgain = false ∧
        ((Keepalive.enter w r vs).next env who after).run.pc = .closeRtsp) ∨
      r.errAgain = true ∧ (Keepalive.enter w r vs).next env who after =
        Keepalive.enter { w with tick := w.tick + 1 } r vs := by
  rw [next_of_read rfl]
  by_cases hErr : r.errAgain = true
  · right
    refine ⟨hErr, ?_⟩
    simp [Keepalive.step, Keepalive.enter, World.after, rtspRunStep, rtspReadMsg, hRun, hBuf, hHeap,
      hErr]
  · left
    refine ⟨by simpa using hErr, ?_⟩
    simp [Keepalive.step, Keepalive.enter, rtspRunStep, rtspReadMsg, hRun, hBuf, hHeap, hErr]

theorem settled_empty : (KeepPos.blocked false []).Settled :=
  settled_blocked (p := []) (fun h : false = true => absurd h (by decide)) rfl

/-- From a buffer that is there or can be had. -/
theorem leaves_enter_of_buffer (hAfter : after = .closed ∨ after = .timeout)
    (hRun : w.running = true)
    (hBuf : w.rtsp.buf.allocated = true ∨ env.heap w.tick = true) :
    Leaves env who after (Keepalive.enter w r vs) ↔
      EndsItself env w r vs ∨ after = .closed ∧ r.errAgain = false ∧ Recv.timeout ∉ vs := by
  by_cases hThere : w.rtsp.buf.allocated = true
  · have hAt := enter_allocated r vs hRun hThere
    rw [leaves_iff hAfter hAt (fun h => absurd h (by decide))]
    simp [EndsItself, hRun, hThere, Keepalive.enter]
  · have hNone : w.rtsp.buf.allocated = false := by simpa using hThere
    have hHeap := hBuf.resolve_left hThere
    have hAt := enter_heap env who after r vs hRun hNone hHeap
    have hTrace : ((Keepalive.enter w r vs).next env who after).trace = vs := by
      rw [next_of_read rfl]
      rfl
    have hLater : ∃ n, env.heap (w.tick + n) = true := ⟨0, hHeap⟩
    rw [← leaves_next, leaves_iff hAfter hAt settled_empty, hTrace]
    simp [EndsItself, hRun, hNone, hHeap, hLater]

/-- With EAGAIN in `errno` the loop tries again until there is memory. -/
theorem leaves_enter_later (hAfter : after = .closed ∨ after = .timeout) (hRun : w.running = true)
    (hNone : w.rtsp.buf.allocated = false) (hErr : r.errAgain = true) {n : Nat}
    (hLater : env.heap (w.tick + n) = true) :
    Leaves env who after (Keepalive.enter w r vs) ↔
      EndsItself env w r vs ∨ after = .closed ∧ r.errAgain = false ∧ Recv.timeout ∉ vs := by
  -- each failed call takes one answer of the heap
  induction n generalizing w with
  | zero => exact leaves_enter_of_buffer hAfter hRun (.inr hLater)
  | succ n ih =>
    cases hHeap : env.heap w.tick with
    | true => exact leaves_enter_of_buffer hAfter hRun (.inr hHeap)
    | false =>
      rcases enter_starved env who after r vs hRun hNone hHeap with
        ⟨hNot, -⟩ | ⟨-, hNext⟩
      · rw [hErr] at hNot
        cases hNot
      have hNow : env.heap (w.tick + 1 + n) = true := by rwa [Nat.add_assoc, Nat.add_comm 1 n]
      have hRest := ih (w := { w with tick := w.tick + 1 }) hRun hNone hNow
      have hThen : ∃ n, env.heap (w.tick + 1 + n) = true := ⟨n, hNow⟩
      have hSometime : ∃ n, env.heap (w.tick + n) = true := ⟨n + 1, hLater⟩
      rw [← leaves_next, hNext, hRest]
      simp [EndsItself, hRun, hNone, hErr, hThen, hSometime]

/-- Without memory for ever it is never left. -/
theorem not_leaves_starved (hRun : w.running = true) (hNone : w.rtsp.buf.allocated = false)
    (hErr : r.errAgain = true) (hNever : ∀ n, env.heap (w.tick + n) = false) :
    ¬Leaves env who after (Keepalive.enter w r vs) := by
  refine not_leaves_of_invariant
    (I := fun s => ∃ k, s = Keepalive.enter { w with tick := w.tick + k } r vs) ?_ ?_ ⟨0, rfl⟩
  · rintro s ⟨k, rfl⟩
    simp [Keepalive.enter]
  · rintro s ⟨k, rfl⟩
    rcases enter_starved env who after r vs
      (w := { w with tick := w.tick + k }) hRun hNone (hNever k) with ⟨hNot, -⟩ | ⟨-, hNext⟩
    · rw [hErr] at hNot
      cases hNot
    · exact ⟨k + 1, hNext⟩

theorem leaves_enter_iff (env : Env) (who : Owner) (w : World) (r : RtspRun) (vs : List Recv)
    (hAfter : after = .closed ∨ after = .timeout) :
    Leaves env who after (Keepalive.enter w r vs) ↔
      EndsItself env w r vs ∨ after = .closed ∧ r.errAgain = false ∧ Recv.timeout ∉ vs := by
  by_cases hRun : w.running = true
  case neg =>
    have hStopped : w.running = false := by simpa using hRun
    exact iff_of_true (enter_stopped hStopped) (.inl (.inl hStopped))
  by_cases hBuf : w.rtsp.buf.allocated = true ∨ env.heap w.tick = true
  · exact leaves_enter_of_buffer hAfter hRun hBuf
  obtain ⟨hNone, hHeap⟩ : w.rtsp.buf.allocated = false ∧ env.heap w.tick = false := by
    simpa using hBuf
  cases hErr : r.errAgain with
  | false =>
    refine iff_of_true ?_ (.inl (.inr (.inr ⟨hNone, .inl ⟨hHeap, hErr⟩⟩)))
    rcases enter_starved env who after r vs hRun hNone hHeap with
      ⟨-, hPc⟩ | ⟨hNot, -⟩
    · exact leaves_next.1 (leaves_of_pc hPc)
    · rw [hErr] at hNot
      cases hNot
  | true =>
    rw [← hErr]
    by_cases hLater : ∃ n, env.heap (w.tick + n) = true
    · obtain ⟨n, hn⟩ := hLater
      exact leaves_enter_later hAfter hRun hNone hErr hn
    · refine iff_of_false (not_leaves_starved hRun hNone hErr fun n => ?_) ?_
      · simpa using not_exists.1 hLater n
      · simp [EndsItself, hRun, hNone, hErr, hLater]

end Enter

/-! ## Both demands -/

/-- **Leaving the keepalive loop.** The loop sees the close, and leaves an idle
connection when its generation has been replaced, exactly when what is received
ends it anyway, or when the generation is current and there was no timeout. -/
theorem keepalive_leaves_iff (env : Env) (who : Owner) (w : World) (r : RtspRun)
    (vs : List Recv) :
    (Leaves env who .closed (Keepalive.enter w r vs) ∧
        (w.rtsp.generation ≠ r.arg.generation →
          Leaves env who .timeout (Keepalive.enter w r vs))) ↔
      EndsItself env w r vs ∨
        w.rtsp.generation = r.arg.generation ∧ r.errAgain = false ∧ Recv.timeout ∉ vs := by
  have hClosed := leaves_enter_iff env who w r vs (.inl (rfl : Outcome.closed = .closed))
  have hTimeout := leaves_enter_iff env who w r vs (.inr (rfl : Outcome.timeout = .timeout))
  simp only [true_and, reduceCtorEq, false_and, or_false] at hClosed hTimeout
  rw [hClosed, hTimeout]
  by_cases hGen : w.rtsp.generation = r.arg.generation
  · simp [hGen]
  · simp only [hGen, ne_eq, not_false_eq_true, true_implies, false_and, or_false]
    exact ⟨fun h => h.2, fun h => ⟨.inl h, h⟩⟩

/-- A session at rest: one timeout, then the phone goes away. -/
theorem keepalive_stays :
    ¬∀ (env : Env) (who : Owner) (w : World) (r : RtspRun) (vs : List Recv),
      Leaves env who .closed (Keepalive.enter w r vs) ∧
        (w.rtsp.generation ≠ r.arg.generation →
          Leaves env who .timeout (Keepalive.enter w r vs)) := by
  intro hAll
  obtain ⟨hClosed, -⟩ := hAll (Env.smooth plainCrypto) (.rtsp 0) (World.initial 50)
    (RtspRun.begin ⟨[], 0, 54, 0, false, Block.zero⟩) [.timeout]
  have hAt := enter_heap (Env.smooth plainCrypto) (.rtsp 0) .closed
    (RtspRun.begin ⟨[], 0, 54, 0, false, Block.zero⟩) [.timeout] (w := World.initial 50) rfl rfl rfl
  have hLeaves := (leaves_iff (.inl rfl) hAt settled_empty).1 (leaves_next.2 hClosed)
  rw [next_of_read rfl] at hLeaves
  rcases hLeaves with hEnds | ⟨-, -, hQuiet⟩
  · cases hEnds with
    | timeout hRest => exact settled_empty.2 hRest
  · exact hQuiet (List.mem_singleton.2 rfl)

end EspMiplay.Miplay
