import EspMiplay.Miplay.Channels
import EspMiplay.Miplay.Roster

/-!
# One set of registers for all sessions

`miplay_session_load` and `miplay_session_save` swap one set of registers in and
out of the slots. `Kept` is the invariant behind them: the registers of each
session with a key match its channel, where the session in its critical section
(`cur`) has them loaded.

- The first half says what each way of moving the registers does to `Kept`.
- `InSession` is `Kept` inside a critical section; with allocations and sends
  succeeding, everything a frame is put together from keeps it
  (`InSession.frameRules`, `InSession.commandRules`).
-/

namespace EspMiplay.Miplay

open Effect Transition

/-! ## The invariant -/

/-- Between the greeting and the end of the cleanup. -/
def AfterGreeting (pc : Option CtlPc) : Prop :=
  pc ≠ none ∧ pc ≠ some .created ∧ pc ≠ some .entered ∧ ∀ notify, pc ≠ some (.cleaned notify)

theorem afterGreeting_serving (h : Handler) : AfterGreeting (some (.serving h)) := by
  simp [AfterGreeting]

theorem afterGreeting_leaving : AfterGreeting (some .leaving) := by
  simp [AfterGreeting]

theorem afterGreeting_inline (r : RtspRun) : AfterGreeting (some (.inline r)) := by
  simp [AfterGreeting]

def Greeted (w : World) (i : Slot) : Prop := AfterGreeting (w.ctl i)

theorem Greeted.running {w : World} {i : Slot} (h : Greeted w i) : Running w i := ⟨h.1, h.2.2.2⟩

/-- The registers of slot `i`: those loaded, while it is in its critical section. -/
def regsOf (cur : Option Slot) (w : World) (i : Slot) : Regs :=
  if cur = some i then w.regs else (w.sess i).regs

/-- What of the registers a channel is about. -/
structure SameCipher (r r' : Regs) : Prop where
  aesKey : r'.aesKey = r.aesKey
  encryptIv : r'.encryptIv = r.encryptIv
  decryptIv : r'.decryptIv = r.decryptIv
  notifySeq : r'.notifySeq = r.notifySeq
  hasSessionKey : r'.hasSessionKey = r.hasSessionKey

theorem SameCipher.refl (r : Regs) : SameCipher r r := ⟨rfl, rfl, rfl, rfl, rfl⟩

/-- The registers match the channel; the sending side only while the socket still
stands for a connection, which is then the session's own. -/
structure Matches (conn : Option Conn) (r : Regs) (ch : Channel) : Prop where
  key : r.aesKey = ch.key
  decryptIv : r.decryptIv = ch.decryptIv
  sending : conn = none ∨ conn = ch.conn ∧ r.encryptIv = ch.encryptIv ∧ r.notifySeq = ch.nextNumber

theorem Matches.of_conn {conn conn' : Option Conn} {r : Regs} {ch : Channel}
    (h : Matches conn r ch) (hConn : conn' = none ∨ conn' = conn) : Matches conn' r ch := by
  refine ⟨h.key, h.decryptIv, ?_⟩
  rcases hConn with hConn | rfl
  · exact .inl hConn
  · exact h.sending

structure Kept (aes : Aes) (cur : Option Slot) (w : World) (m : Channels) : Prop where
  replay : Channels.replay aes w.log = some m
  matching : ∀ i, (w.sess i).inUse → (regsOf cur w i).hasSessionKey →
    ∃ ch, m i = some ch ∧ Matches (w.kernel.fds (w.sess i).sock) (regsOf cur w i) ch
  owned : ∀ i ch c, m i = some ch → ch.conn = some c → c < w.kernel.nextConn ∧
    ∀ fd, w.kernel.fds fd = some c → fd = (w.sess i).sock ∧ Greeted w i
  apart : ∀ i j ch ch' c, m i = some ch → m j = some ch' → ch.conn = some c →
    ch'.conn = some c → i = j
  fresh : ∀ fd c, w.kernel.fds fd = some c → c < w.kernel.nextConn
  injective : ∀ fd fd' c, w.kernel.fds fd = some c → w.kernel.fds fd' = some c → fd = fd'
  keyed : ∀ i, (w.sess i).inUse → ((regsOf cur w i).hasSessionKey ↔ Greeted w i)
  entered : ∀ i, w.ctl i = some .entered → (regsOf cur w i).notifySeq = 8
  numbers : ∀ i, (w.sess i).inUse →
    8 ≤ (regsOf cur w i).notifySeq ∧ (regsOf cur w i).notifySeq ≤ 65535

namespace Kept

variable {aes : Aes} {cur cur' : Option Slot} {w w' : World} {m : Channels}

/-- Nothing changes that the channels are about. -/
theorem congr (h : Kept aes cur w m) (hLog : Channels.replay aes w'.log = some m)
    (hUse : ∀ i, (w'.sess i).inUse = (w.sess i).inUse)
    (hSock : ∀ i, (w'.sess i).sock = (w.sess i).sock) (hKernel : w'.kernel = w.kernel)
    (hCtl : w'.ctl = w.ctl) (hRegs : ∀ i, SameCipher (regsOf cur w i) (regsOf cur' w' i)) :
    Kept aes cur' w' m where
  replay := hLog
  matching i hi hKey := by
    rw [hUse] at hi
    rw [(hRegs i).hasSessionKey] at hKey
    obtain ⟨ch, hch, hMatch⟩ := h.matching i hi hKey
    refine ⟨ch, hch, (hRegs i).aesKey.trans hMatch.key, (hRegs i).decryptIv.trans hMatch.decryptIv, ?_⟩
    rw [hKernel, hSock, (hRegs i).encryptIv, (hRegs i).notifySeq]
    exact hMatch.sending
  owned i ch c hi hc := by
    simp only [hKernel, hSock, Greeted, hCtl]
    exact h.owned i ch c hi hc
  apart := h.apart
  fresh := hKernel ▸ h.fresh
  injective := hKernel ▸ h.injective
  keyed i hi := by
    rw [hUse] at hi
    simp only [(hRegs i).hasSessionKey, Greeted, hCtl]
    exact h.keyed i hi
  entered i hi := by
    rw [(hRegs i).notifySeq]
    exact h.entered i (hCtl ▸ hi)
  numbers i hi := by
    rw [(hRegs i).notifySeq]
    exact h.numbers i (hUse i ▸ hi)

/-- Only fields change that the channels are not about. -/
theorem of_eq (h : Kept aes cur w m) (hLog : w'.log = w.log) (hSess : w'.sess = w.sess)
    (hKernel : w'.kernel = w.kernel) (hCtl : w'.ctl = w.ctl) (hRegs : w'.regs = w.regs) :
    Kept aes cur w' m :=
  h.congr (hLog ▸ h.replay) (fun i => by rw [hSess]) (fun i => by rw [hSess]) hKernel hCtl
    fun i => by
      simp only [regsOf, hRegs, hSess]
      exact .refl _

/-- An event that independent sessions do not look at. -/
theorem note (h : Kept aes cur w m) {op : Op} (hOp : m.observe aes op = some m) :
    Kept aes cur { w with log := w.log ++ [op] } m :=
  h.congr (by rw [Channels.replay_concat, h.replay]; exact hOp) (fun _ => rfl) (fun _ => rfl) rfl rfl
    fun _ => .refl _

/-- A descriptor is closed, whosever it is. -/
theorem close (h : Kept aes cur w m) (fd : Int) :
    Kept aes cur
      { w with kernel := { w.kernel with fds := Function.update w.kernel.fds fd none } } m := by
  have hOpen {fd' : Int} {c : Conn} (hc : Function.update w.kernel.fds fd none fd' = some c) :
      w.kernel.fds fd' = some c := by
    by_cases hfd : fd' = fd
    · simp [hfd] at hc
    · simpa [hfd] using hc
  refine ⟨h.replay, fun i hi hKey => ?_, fun i ch c hi hc => ?_, h.apart, fun fd' c hc => ?_,
    fun fd' fd'' c hc hc' => ?_, h.keyed, h.entered, h.numbers⟩
  · obtain ⟨ch, hch, hMatch⟩ := h.matching i hi hKey
    refine ⟨ch, hch, hMatch.of_conn ?_⟩
    by_cases hfd : (w.sess i).sock = fd
    · simp [hfd]
    · simp [hfd]
  · obtain ⟨hlt, hOwn⟩ := h.owned i ch c hi hc
    exact ⟨hlt, fun fd' hfd' => hOwn fd' (hOpen hfd')⟩
  · exact h.fresh fd' c (hOpen hc)
  · exact h.injective fd' fd'' c (hOpen hc) (hOpen hc')

/-- A number is handed out that no session with a key carries. -/
theorem opened (h : Kept aes cur w m) {fd : Int} (hFree : w.kernel.fds fd = none)
    (hFresh : ∀ i, Greeted w i → (w.sess i).sock ≠ fd) :
    Kept aes cur
      { w with kernel :=
        { fds := Function.update w.kernel.fds fd (some w.kernel.nextConn)
          nextConn := w.kernel.nextConn + 1 } } m := by
  have hOpen {fd' : Int} {c : Conn}
      (hc : Function.update w.kernel.fds fd (some w.kernel.nextConn) fd' = some c) :
      fd' = fd ∧ c = w.kernel.nextConn ∨ w.kernel.fds fd' = some c := by
    by_cases hfd : fd' = fd
    · subst hfd
      exact .inl ⟨rfl, by simpa using hc.symm⟩
    · exact .inr (by simpa [hfd] using hc)
  refine ⟨h.replay, fun i hi hKey => ?_, fun i ch c hi hc => ?_, h.apart, fun fd' c hc => ?_,
    fun fd' fd'' c hc hc' => ?_, h.keyed, h.entered, h.numbers⟩
  · obtain ⟨ch, hch, hMatch⟩ := h.matching i hi hKey
    have hne := hFresh i ((h.keyed i hi).mp hKey)
    exact ⟨ch, hch, hMatch.of_conn (.inr (by simp [hne]))⟩
  · obtain ⟨hlt, hOwn⟩ := h.owned i ch c hi hc
    refine ⟨Nat.lt_succ_of_lt hlt, fun fd' hfd' => ?_⟩
    rcases hOpen hfd' with ⟨-, rfl⟩ | hOld
    · exact absurd hlt (lt_irrefl _)
    · exact hOwn fd' hOld
  · rcases hOpen hc with ⟨-, rfl⟩ | hOld
    · exact Nat.lt_succ_self _
    · exact Nat.lt_succ_of_lt (h.fresh fd' c hOld)
  · -- the new connection is at no other number
    rcases hOpen hc with ⟨rfl, rfl⟩ | hOld <;> rcases hOpen hc' with ⟨rfl, hc''⟩ | hOld'
    · rfl
    · exact absurd (h.fresh _ _ hOld') (lt_irrefl _)
    · exact absurd (h.fresh _ _ (hc'' ▸ hOld)) (lt_irrefl _)
    · exact h.injective fd' fd'' c hOld hOld'

/-- The session in its critical section moves its own channel. -/
theorem advance {i : Slot} {ch ch' : Channel} (h : Kept aes (some i) w m) (hCh : m i = some ch)
    (hConn : ch'.conn = ch.conn) (hUse : (w.sess i).inUse) (hKey : w.regs.hasSessionKey)
    (hLog : Channels.replay aes w'.log = some (Function.update m i (some ch')))
    (hSess : w'.sess = w.sess) (hKernel : w'.kernel = w.kernel) (hCtl : w'.ctl = w.ctl)
    (hKey' : w'.regs.hasSessionKey) (hMatch : Matches (w.kernel.fds (w.sess i).sock) w'.regs ch')
    (hNumber : 8 ≤ w'.regs.notifySeq ∧ w'.regs.notifySeq ≤ 65535) :
    Kept aes (some i) w' (Function.update m i (some ch')) := by
  have hOther {j : Slot} (hj : j ≠ i) : regsOf (some i) w' j = regsOf (some i) w j := by
    simp [regsOf, Ne.symm hj, hSess]
  have hOwn : regsOf (some i) w' i = w'.regs := by simp [regsOf]
  have hOwn' : regsOf (some i) w i = w.regs := by simp [regsOf]
  have hOld {j : Slot} {d : Channel} (hd : Function.update m i (some ch') j = some d) :
      ∃ d', m j = some d' ∧ d'.conn = d.conn := by
    by_cases hj : j = i
    · subst hj
      obtain rfl : ch' = d := by simpa using hd
      exact ⟨ch, hCh, hConn.symm⟩
    · exact ⟨d, by simpa [hj] using hd, rfl⟩
  have hGreeted : Greeted w i := (h.keyed i hUse).mp (hOwn' ▸ hKey)
  refine ⟨hLog, fun j hj hjKey => ?_, fun j d c hd hc => ?_, fun j k d d' c hd hd' hc hc' => ?_,
    hKernel ▸ h.fresh, hKernel ▸ h.injective, fun j hj => ?_, fun j hj => ?_, fun j hj => ?_⟩
  · rw [hSess] at hj ⊢
    rw [hKernel]
    by_cases hji : j = i
    · subst hji
      exact ⟨ch', by simp, hOwn ▸ hMatch⟩
    · rw [hOther hji] at hjKey ⊢
      simpa [hji] using h.matching j hj hjKey
  · obtain ⟨d', hd', hSame⟩ := hOld hd
    simp only [hKernel, hSess, Greeted, hCtl]
    exact h.owned j d' c hd' (hSame.trans hc)
  · obtain ⟨e, he, hSame⟩ := hOld hd
    obtain ⟨e', he', hSame'⟩ := hOld hd'
    exact h.apart j k e e' c he he' (hSame.trans hc) (hSame'.trans hc')
  · rw [hSess] at hj
    simp only [Greeted, hCtl]
    by_cases hji : j = i
    · subst hji
      rw [hOwn]
      exact iff_of_true hKey' hGreeted
    · rw [hOther hji]
      exact h.keyed j hj
  · rw [hCtl] at hj
    have hji : j ≠ i := by
      rintro rfl
      exact hGreeted.2.2.1 hj
    rw [hOther hji]
    exact h.entered j hj
  · rw [hSess] at hj
    by_cases hji : j = i
    · subst hji
      rw [hOwn]
      exact hNumber
    · rw [hOther hji]
      exact h.numbers j hj

/-- A frame is sealed under the registers and handed to the socket. -/
theorem sent {i : Slot} {who : Owner} {sock : Int} {cmd seq : UInt16} {plaintext sd : Bytes}
    {iv' : Block} {auto : Bool} {n : Nat} (h : Kept aes (some i) w m)
    (hUse : (w.sess i).inUse) (hSock : (w.sess i).sock = sock) (hKey : w.regs.hasSessionKey)
    (hSealed : safetyEncrypt aes true plaintext w.regs.aesKey w.regs.encryptIv encryptBufSize =
      (some sd, iv'))
    (hSeq : auto → seq = UInt16.ofNat w.regs.notifySeq)
    (hNext : n = if auto then Channel.following w.regs.notifySeq else w.regs.notifySeq)
    (hRegs : w'.regs = { w.regs with encryptIv := iv', notifySeq := n })
    (hSess : w'.sess = w.sess) (hKernel : w'.kernel = w.kernel) (hCtl : w'.ctl = w.ctl)
    (hLog : w'.log = w.log ++ [.used who sock (w.kernel.fds sock)] ++
      if (w.kernel.fds sock).isSome then
        [.frame sock (w.kernel.fds sock) cmd seq sd
          (.sealed w.regs.aesKey w.regs.encryptIv iv' plaintext) auto]
      else []) :
    ∃ m', Kept aes (some i) w' m' := by
  have hOwn : regsOf (some i) w i = w.regs := by simp [regsOf]
  obtain ⟨ch, hCh, hMatch⟩ := h.matching i hUse (hOwn ▸ hKey)
  rw [hOwn] at hMatch
  have hBounds := h.numbers i hUse
  rw [hOwn] at hBounds
  have hNumber : 8 ≤ w'.regs.notifySeq ∧ w'.regs.notifySeq ≤ 65535 := by
    rw [hRegs, hNext]
    simp only [Channel.following]
    split <;> [split; skip] <;> omega
  have hUsed : Channels.replay aes (w.log ++ [.used who sock (w.kernel.fds sock)]) = some m := by
    rw [Channels.replay_concat, h.replay]
    rfl
  cases hFd : w.kernel.fds sock with
  | none =>
    -- the socket is closed: the registers move, and nobody sees it
    rw [hFd] at hLog hUsed
    refine ⟨_, h.advance hCh rfl hUse hKey ?_ hSess hKernel hCtl ?_ ?_ hNumber⟩
    · rw [Function.update_eq_self_iff.mpr hCh.symm]
      simpa [hLog] using hUsed
    · rw [hRegs]
      exact hKey
    · rw [hSock, hFd, hRegs]
      exact ⟨hMatch.key, hMatch.decryptIv, .inl rfl⟩
  | some c =>
    rw [hFd] at hLog hUsed
    rw [hSock, hFd] at hMatch
    obtain ⟨hConn, hIv, hNum⟩ := hMatch.sending.resolve_left (by simp)
    have hOwner : m.ownerOf c = some i :=
      Channels.ownerOf_eq hCh hConn.symm fun j d hd hdc => h.apart j i d ch c hd hCh hdc hConn.symm
    have hSend : ch.send aes seq sd w.regs.aesKey w.regs.encryptIv iv' plaintext auto =
        some (ch.next iv' auto) := by
      rw [Channel.send, if_pos]
      exact ⟨hMatch.key, hIv, hMatch.key ▸ hIv ▸ hSealed, fun hAuto => hNum ▸ hSeq hAuto⟩
    refine ⟨_, h.advance hCh (rfl : (ch.next iv' auto).conn = ch.conn) hUse hKey ?_ hSess hKernel
      hCtl ?_ ?_ hNumber⟩
    · rw [hLog, if_pos (by rfl), Channels.replay_concat, hUsed]
      simp [Channels.observe, hOwner, hCh, hSend]
    · rw [hRegs]
      exact hKey
    · rw [hSock, hFd, hRegs]
      exact ⟨hMatch.key, hMatch.decryptIv, .inr ⟨hConn, rfl, by rw [hNext, hNum]; rfl⟩⟩

/-- A received container is run through the session's own chain. -/
theorem received {i : Slot} {data : Bytes} (h : Kept aes (some i) w m) (hUse : (w.sess i).inUse)
    (hKey : w.regs.hasSessionKey)
    (hRegs : w'.regs = { w.regs with
      decryptIv := (decryptPayload aes true data w.regs.aesKey w.regs.decryptIv).2 })
    (hSess : w'.sess = w.sess) (hKernel : w'.kernel = w.kernel) (hCtl : w'.ctl = w.ctl)
    (hLog : w'.log = w.log ++ [.decrypted i w.regs.aesKey w.regs.decryptIv
      (decryptPayload aes true data w.regs.aesKey w.regs.decryptIv).2 data]) :
    ∃ m', Kept aes (some i) w' m' := by
  have hOwn : regsOf (some i) w i = w.regs := by simp [regsOf]
  obtain ⟨ch, hCh, hMatch⟩ := h.matching i hUse (hOwn ▸ hKey)
  rw [hOwn] at hMatch
  have hBounds := h.numbers i hUse
  rw [hOwn] at hBounds
  set iv' := (decryptPayload aes true data w.regs.aesKey w.regs.decryptIv).2 with hIv'
  have hReceive : ch.receive aes w.regs.aesKey w.regs.decryptIv iv' data =
      some { ch with decryptIv := iv' } := by
    rw [Channel.receive, if_pos]
    exact ⟨hMatch.key, hMatch.decryptIv, by rw [hIv', hMatch.key, hMatch.decryptIv]⟩
  refine ⟨_, h.advance hCh (rfl : ({ ch with decryptIv := iv' } : Channel).conn = ch.conn) hUse hKey
    ?_ hSess hKernel hCtl ?_ ?_ ?_⟩
  · rw [hLog, Channels.replay_concat, h.replay]
    simp [Channels.observe, hCh, hReceive]
  · rw [hRegs]
    exact hKey
  · rw [hRegs]
    exact ⟨hMatch.key, rfl, hMatch.sending⟩
  · rw [hRegs]
    exact hBounds

/-! ### Load and save -/

theorem load (h : Kept aes none w m) (i : Slot) :
    Kept aes (some i) { w with regs := (w.sess i).regs } m := by
  refine h.congr h.replay (fun _ => rfl) (fun _ => rfl) rfl rfl fun j => ?_
  by_cases hj : j = i
  · subst hj
    simpa [regsOf] using SameCipher.refl _
  · simpa [regsOf, Ne.symm hj] using SameCipher.refl _

theorem save {i : Slot} (h : Kept aes (some i) w m) (hUse : (w.sess i).inUse) :
    Kept aes none
      { w with sess := Function.update w.sess i { w.sess i with regs := w.regs.saved } } m := by
  have hLow : 8 ≤ w.regs.notifySeq := by
    have h8 := (h.numbers i hUse).1
    simpa [regsOf] using h8
  refine h.congr h.replay (fun j => ?_) (fun j => ?_) rfl rfl fun j => ?_
  all_goals by_cases hj : j = i
  · subst hj
    simp
  · simp [hj]
  · subst hj
    simp
  · simp [hj]
  · subst hj
    simp only [regsOf, if_true, reduceCtorEq, if_false, Function.update_self]
    -- the number is at least 8, so it is saved as it is
    exact ⟨rfl, rfl, rfl, by simp [Regs.saved, hLow], rfl⟩
  · simpa [regsOf, Ne.symm hj, hj] using SameCipher.refl _

/-! ### The life of a session -/

/-- A control task moves on without being greeted or done. -/
theorem setCtl {i : Slot} {pc : Option CtlPc} (h : Kept aes cur w m)
    (hGreeted : AfterGreeting pc ↔ Greeted w i) (hEntered : pc ≠ some .entered) :
    Kept aes cur { w with ctl := Function.update w.ctl i pc } m := by
  have hSame (j : Slot) : AfterGreeting (Function.update w.ctl i pc j) ↔ Greeted w j := by
    by_cases hj : j = i
    · subst hj
      simpa using hGreeted
    · simp [Greeted, hj]
  refine ⟨h.replay, h.matching, fun j ch c hj hc => ?_, h.apart, h.fresh, h.injective,
    fun j hj => (h.keyed j hj).trans (hSame j).symm, fun j hj => ?_, h.numbers⟩
  · obtain ⟨hlt, hOwn⟩ := h.owned j ch c hj hc
    exact ⟨hlt, fun fd hfd => ⟨(hOwn fd hfd).1, (hSame j).mpr (hOwn fd hfd).2⟩⟩
  · by_cases hji : j = i
    · subst hji
      exact absurd (by simpa using hj) hEntered
    · exact h.entered j (by simpa [hji] using hj)

/-- A slot has no key: it is taken, entered, cleaned or given back. -/
theorem clear {i : Slot} {s : Session} {pc : Option CtlPc} (h : Kept aes none w m)
    (hClosed : Greeted w i → w.kernel.fds (w.sess i).sock = none) (hGreeted : ¬AfterGreeting pc)
    (hUse : s.inUse → s.regs.hasSessionKey = false ∧ s.regs.notifySeq = 8)
    (hEntered : pc = some .entered → s.inUse) :
    Kept aes none
      { w with sess := Function.update w.sess i s, ctl := Function.update w.ctl i pc } m := by
  refine ⟨h.replay, fun j hj hjKey => ?_, fun j ch c hj hc => ?_, h.apart, h.fresh, h.injective,
    fun j hj => ?_, fun j hj => ?_, fun j hj => ?_⟩
  all_goals by_cases hji : j = i
  · subst hji
    simp only [regsOf, reduceCtorEq, if_false, Function.update_self] at hj hjKey
    simp [(hUse hj).1] at hjKey
  · simp only [regsOf, reduceCtorEq, if_false, Function.update_of_ne hji] at hj hjKey ⊢
    exact h.matching j hj hjKey
  · -- the connection of the old session is gone
    subst hji
    obtain ⟨hlt, hOwn⟩ := h.owned j ch c hj hc
    refine ⟨hlt, fun fd hfd => ?_⟩
    obtain ⟨rfl, hOld⟩ := hOwn fd hfd
    exact absurd (hfd.symm.trans (hClosed hOld)) (by simp)
  · obtain ⟨hlt, hOwn⟩ := h.owned j ch c hj hc
    simp only [Greeted, Function.update_of_ne hji]
    exact ⟨hlt, hOwn⟩
  · subst hji
    simp only [Greeted, regsOf, reduceCtorEq, if_false, Function.update_self] at hj ⊢
    exact iff_of_false (by simp [(hUse hj).1]) hGreeted
  · simp only [Greeted, regsOf, reduceCtorEq, if_false, Function.update_of_ne hji] at hj ⊢
    exact h.keyed j hj
  · subst hji
    simp only [regsOf, reduceCtorEq, if_false, Function.update_self] at hj ⊢
    exact (hUse (hEntered hj)).2
  · simp only [regsOf, reduceCtorEq, if_false, Function.update_of_ne hji] at hj ⊢
    exact h.entered j hj
  · subst hji
    simp only [regsOf, reduceCtorEq, if_false, Function.update_self] at hj ⊢
    simp [(hUse hj).2]
  · simp only [regsOf, reduceCtorEq, if_false, Function.update_of_ne hji] at hj ⊢
    exact h.numbers j hj

/-- The key of a connection is derived. -/
theorem greet {i : Slot} {r : Regs} {pc : CtlPc} {authKey : Bytes} (h : Kept aes none w m)
    (hCtl : w.ctl i = some .entered)
    (hApart : ∀ j, Greeted w j → (w.sess j).sock ≠ (w.sess i).sock)
    (hGreeted : AfterGreeting (some pc)) (hKey : r.hasSessionKey)
    (hSeq : r.notifySeq = (w.sess i).regs.notifySeq) (hAes : r.aesKey = Block.ofBytes authKey)
    (hEnc : r.encryptIv = Block.ofBytes authKey) (hDec : r.decryptIv = Block.ofBytes authKey) :
    Kept aes none
      { w with
        log := w.log ++ [.keyed i (w.sess i).sock (w.kernel.fds (w.sess i).sock) authKey]
        sess := Function.update w.sess i { w.sess i with regs := r }
        ctl := Function.update w.ctl i (some pc) }
      (Function.update m i
        (some (Channel.start (w.kernel.fds (w.sess i).sock) authKey))) := by
  have hSeq8 : r.notifySeq = 8 := hSeq.trans (h.entered i hCtl)
  -- no older channel is on this connection
  have hNew {j : Slot} {ch : Channel} {c : Conn} (hCh : m j = some ch) (hc : ch.conn = some c) :
      w.kernel.fds (w.sess i).sock ≠ some c := by
    intro hFd
    obtain ⟨hSock, hOld⟩ := (h.owned j ch c hCh hc).2 _ hFd
    exact hApart j hOld hSock.symm
  refine ⟨?_, fun j hj hjKey => ?_, fun j ch c hj hc => ?_, fun j k d d' c hd hd' hc hc' => ?_,
    h.fresh, h.injective, fun j hj => ?_, fun j hj => ?_, fun j hj => ?_⟩
  · rw [Channels.replay_concat, h.replay]
    rfl
  all_goals by_cases hji : j = i
  · subst hji
    refine ⟨_, Function.update_self .., ?_⟩
    simp only [regsOf, reduceCtorEq, if_false, Function.update_self]
    exact ⟨hAes, hDec, .inr ⟨rfl, hEnc, hSeq8⟩⟩
  · simp only [regsOf, reduceCtorEq, if_false, Function.update_of_ne hji] at hj hjKey ⊢
    exact h.matching j hj hjKey
  · subst hji
    obtain rfl : _ = ch := by simpa using hj
    refine ⟨h.fresh _ c hc, fun fd hfd => ?_⟩
    simp only [Greeted, Function.update_self]
    exact ⟨h.injective fd _ c hfd hc, hGreeted⟩
  · simp only [Greeted, Function.update_of_ne hji] at hj ⊢
    exact h.owned j ch c hj hc
  · subst hji
    by_cases hki : k = j
    · exact hki.symm
    · obtain rfl : _ = d := by simpa using hd
      exact absurd hc (hNew (by simpa [hki] using hd') hc')
  · by_cases hki : k = i
    · subst hki
      obtain rfl : _ = d' := by simpa using hd'
      exact absurd hc' (hNew (by simpa [hji] using hd) hc)
    · exact h.apart j k d d' c (by simpa [hji] using hd) (by simpa [hki] using hd') hc hc'
  · subst hji
    simpa [Greeted, regsOf, hKey] using hGreeted
  · simp only [Greeted, regsOf, reduceCtorEq, if_false, Function.update_of_ne hji] at hj ⊢
    exact h.keyed j hj
  · subst hji
    simpa [regsOf] using hSeq8
  · simp only [regsOf, reduceCtorEq, if_false, Function.update_of_ne hji] at hj ⊢
    exact h.entered j hj
  · subst hji
    simp [regsOf, hSeq8]
  · simp only [regsOf, reduceCtorEq, if_false, Function.update_of_ne hji] at hj ⊢
    exact h.numbers j hj

end Kept

/-! ## The primitives of a frame -/

/-- A critical section of slot `i`, whose socket is `sock`; no inline run
holds the mutex. -/
structure InSession (aes : Aes) (i : Slot) (sock : Int) (w : World) : Prop where
  kept : ∃ m, Kept aes (some i) w m
  inUse : (w.sess i).inUse
  sock_eq : (w.sess i).sock = sock
  keyed : w.regs.hasSessionKey
  mux : w.sessionMux = none

section Ideal

variable {env : Env} (hHeap : ∀ n, env.heap n = true) (hSend : ∀ n, env.send n = true)
variable {who : Owner} {i : Slot} {sock : Int}

include hSend in
theorem miplaySendCmdRaw_run (w : World) (cmd seq : UInt16) (payload : Bytes) (how : Sealing)
    (auto : Bool) :
    (miplaySendCmdRaw env who sock cmd seq payload how auto).run w =
      ((w.kernel.fds sock).isSome,
        { w with
          tick := w.tick + 1
          log := w.log ++ [.used who sock (w.kernel.fds sock)] ++
            if (w.kernel.fds sock).isSome then
              [.frame sock (w.kernel.fds sock) cmd seq payload how auto]
            else [] }) := by
  simp only [miplaySendCmdRaw, World.connOf, run_bind, run_useFd, run_get, run_oracle, hSend,
    Bool.true_and]
  cases hFd : w.kernel.fds sock <;> simp only [Option.isSome, if_true] <;>
    simp only [Bool.false_eq_true, if_false, run_bind, run_emit, run_pure, List.append_nil]

include hHeap hSend in
theorem sealAndSend_run (w : World) (cmd seq : UInt16) (plaintext : Bytes) (auto : Bool) :
    w.after (sealAndSend env who sock cmd seq plaintext auto) =
      match safetyEncrypt env.aes true plaintext w.regs.aesKey w.regs.encryptIv encryptBufSize with
      | (none, _) => { w with tick := w.tick + 1 }
      | (some sd, iv') =>
        { w with
          tick := w.tick + 2
          regs := { w.regs with encryptIv := iv' }
          log := w.log ++ [.used who sock (w.kernel.fds sock)] ++
            if (w.kernel.fds sock).isSome then
              [.frame sock (w.kernel.fds sock) cmd seq sd
                (.sealed w.regs.aesKey w.regs.encryptIv iv' plaintext) auto]
            else [] } := by
  simp only [World.after, sealAndSend, run_bind, run_oracle, run_get, hHeap]
  rcases safetyEncrypt env.aes true plaintext w.regs.aesKey w.regs.encryptIv encryptBufSize with
    ⟨_ | sd, iv'⟩
  · rfl
  · simp only [run_bind, run_modifyRegs, miplaySendCmdRaw_run hSend]

include hHeap in
/-- With memory, a marked container is run through `safety_decrypt`. -/
theorem unifiedDecrypt_run (w : World) (payload : Bytes) :
    (unifiedDecrypt env i payload).run w =
      if w.regs.hasSessionKey ∧ SafetyMarked payload then
        let r := decryptPayload env.aes true payload w.regs.aesKey w.regs.decryptIv
        (r.1, { w with
          tick := w.tick + 2
          regs := { w.regs with decryptIv := r.2 }
          log := w.log ++ [.decrypted i w.regs.aesKey w.regs.decryptIv r.2 payload] })
      else (none, w) := by
  by_cases hKey : w.regs.hasSessionKey ∧ SafetyMarked payload
  · have hTry : ¬(!w.regs.hasSessionKey ∨ ¬SafetyMarked payload) := by simpa using hKey
    rw [if_pos hKey]
    simp only [unifiedDecrypt, run_bind, run_get, run_oracle, hHeap, if_neg hTry, run_pure,
      run_modifyRegs, run_emit, Bool.not_true, Bool.false_eq_true, if_false]
  · have hSkip : !w.regs.hasSessionKey ∨ ¬SafetyMarked payload := by
      rw [not_and_or] at hKey
      simpa using hKey
    rw [if_neg hKey]
    simp only [unifiedDecrypt, run_bind, run_get, if_pos hSkip, run_pure]

/-- The registers and the table stay as they are, for what the channels are about. -/
theorem InSession.congr {aes : Aes} {w w' : World} (h : InSession aes i sock w)
    (hLog : ∀ m, Channels.replay aes w.log = some m → Channels.replay aes w'.log = some m)
    (hUse : ∀ j, (w'.sess j).inUse = (w.sess j).inUse)
    (hSock : ∀ j, (w'.sess j).sock = (w.sess j).sock) (hKernel : w'.kernel = w.kernel)
    (hCtl : w'.ctl = w.ctl) (hMux : w'.sessionMux = w.sessionMux)
    (hRegs : ∀ j, SameCipher (regsOf (some i) w j) (regsOf (some i) w' j)) :
    InSession aes i sock w' := by
  obtain ⟨m, hm⟩ := h.kept
  refine ⟨⟨m, hm.congr (hLog m hm.replay) hUse hSock hKernel hCtl hRegs⟩, ?_, ?_, ?_,
    hMux.trans h.mux⟩
  · rw [hUse]
    exact h.inUse
  · rw [hSock]
    exact h.sock_eq
  · have hKey := (hRegs i).hasSessionKey
    simp only [regsOf, if_true] at hKey
    exact hKey ▸ h.keyed

theorem InSession.of_eq {aes : Aes} {w w' : World} (h : InSession aes i sock w)
    (hLog : w'.log = w.log) (hSess : w'.sess = w.sess) (hKernel : w'.kernel = w.kernel)
    (hCtl : w'.ctl = w.ctl) (hMux : w'.sessionMux = w.sessionMux)
    (hRegs : SameCipher w.regs w'.regs) : InSession aes i sock w' := by
  refine h.congr (fun m hm => hLog ▸ hm) (fun j => by rw [hSess]) (fun j => by rw [hSess]) hKernel
    hCtl hMux fun j => ?_
  by_cases hj : j = i
  · subst hj
    simpa [regsOf] using hRegs
  · simpa [regsOf, Ne.symm hj, hSess] using SameCipher.refl _

/-- A slot may change, if it keeps its row and, unless it is the current one, its registers. -/
theorem InSession.modifySession {aes : Aes} {w : World} (h : InSession aes i sock w) {s : Session}
    (hUse : s.inUse = (w.sess i).inUse) (hSock : s.sock = (w.sess i).sock) :
    InSession aes i sock { w with sess := Function.update w.sess i s } := by
  refine h.congr (fun m hm => hm) (fun j => ?_) (fun j => ?_) rfl rfl rfl fun j => ?_
  all_goals by_cases hj : j = i
  · subst hj
    simpa using hUse
  · simp [hj]
  · subst hj
    simpa using hSock
  · simp [hj]
  · subst hj
    simpa [regsOf] using SameCipher.refl _
  · simpa [regsOf, Ne.symm hj, hj] using SameCipher.refl _

theorem InSession.note {aes : Aes} {w : World} (h : InSession aes i sock w) {op : Op}
    (hOp : ∀ m : Channels, m.observe aes op = some m) :
    InSession aes i sock { w with log := w.log ++ [op] } := by
  obtain ⟨m, hm⟩ := h.kept
  exact ⟨⟨m, hm.note (hOp m)⟩, h.inUse, h.sock_eq, h.keyed, h.mux⟩

include hHeap hSend in
theorem InSession.sealAndSend {w : World} (h : InSession env.aes i sock w) (cmd seq : UInt16)
    (plaintext : Bytes) :
    InSession env.aes i sock (w.after (sealAndSend env who sock cmd seq plaintext false)) := by
  obtain ⟨m, hm⟩ := h.kept
  rw [sealAndSend_run hHeap hSend]
  split
  · exact ⟨⟨m, hm.of_eq rfl rfl rfl rfl rfl⟩, h.inUse, h.sock_eq, h.keyed, h.mux⟩
  · rename_i sd iv' hSealed
    refine ⟨?_, h.inUse, h.sock_eq, h.keyed, h.mux⟩
    refine hm.sent h.inUse h.sock_eq h.keyed hSealed ?_ ?_ rfl rfl rfl rfl rfl
    · exact fun hAuto => nomatch hAuto
    · rfl

include hHeap hSend in
/-- An automatic number is the next of the session. -/
theorem InSession.sendAutoSeq {w : World} (h : InSession env.aes i sock w) (cmd : UInt16)
    {payload : Bytes} (hLen : payload.length ≤ miplayMaxFramePayload) :
    InSession env.aes i sock (w.after (sendEncryptedCmdAutoSeq env who sock cmd payload)) := by
  obtain ⟨m, hm⟩ := h.kept
  obtain ⟨hLow, hHigh⟩ : 8 ≤ w.regs.notifySeq ∧ w.regs.notifySeq ≤ 65535 := by
    simpa [regsOf] using hm.numbers i h.inUse
  have hSeqOf : notifySeqOf w.regs.notifySeq = w.regs.notifySeq := by
    rw [notifySeqOf, if_neg (by omega)]
  have hAfter : w.after (sendEncryptedCmdAutoSeq env who sock cmd payload) =
      World.after { w with regs := { w.regs with notifySeq := notifySeqNext w.regs.notifySeq } }
        (Miplay.sealAndSend env who sock cmd (UInt16.ofNat w.regs.notifySeq) payload true) := by
    simp only [World.after, sendEncryptedCmdAutoSeq, miplayNextNotifySeq, sendEncryptedCmd, run_bind,
      run_get, run_modifyRegs, run_pure, if_neg (Nat.not_lt.mpr hLen), hSeqOf]
  have hFit : safetyLen payload.length ≤ encryptBufSize := by
    simp only [safetyLen, encryptBufSize]
    omega
  obtain ⟨sd, iv', hSealed⟩ :=
    safetyEncrypt_produces env.aes payload w.regs.aesKey w.regs.encryptIv hFit
  rw [hAfter, sealAndSend_run hHeap hSend, hSealed]
  refine ⟨?_, h.inUse, h.sock_eq, h.keyed, h.mux⟩
  refine hm.sent h.inUse h.sock_eq h.keyed hSealed (fun _ => rfl) ?_ rfl rfl rfl rfl rfl
  rw [notifySeqNext, hSeqOf]
  rfl

include hSend in
theorem InSession.sendPlain {w : World} (h : InSession env.aes i sock w) (cmd seq : UInt16)
    (payload : Bytes) :
    InSession env.aes i sock (w.after (miplaySendCmd env who sock cmd seq payload)) := by
  have hUsed : InSession env.aes i sock
      { w with log := w.log ++ [.used who sock (w.kernel.fds sock)] } := h.note fun _ => rfl
  rw [World.after, miplaySendCmd, miplaySendCmdRaw_run hSend]
  split
  · have hFrame : InSession env.aes i sock
        { w with log := w.log ++ [.used who sock (w.kernel.fds sock)] ++
          [.frame sock (w.kernel.fds sock) cmd seq payload .plain false] } := hUsed.note fun _ => rfl
    exact hFrame.of_eq rfl rfl rfl rfl rfl (.refl _)
  · rw [List.append_nil]
    exact hUsed.of_eq rfl rfl rfl rfl rfl (.refl _)

include hHeap hSend in
theorem InSession.frameRules :
    FrameRules env who i sock (Keep (InSession env.aes i sock)) where
  tick _ _ h := h.of_eq rfl rfl rfl rfl rfl (.refl _)
  plain _ _ _ _ h := h.sendPlain hSend _ _ _
  sealed _ _ _ _ h := h.sealAndSend hHeap hSend _ _ _
  auto _ _ hLen _ h := h.sendAutoSeq hHeap hSend _ hLen
  ready _ _ _ h := h.of_eq rfl rfl rfl rfl rfl ⟨rfl, rfl, rfl, rfl, rfl⟩
  notified _ h := h.modifySession rfl rfl
  media _ _ _ _ _ _ h := h.of_eq rfl rfl rfl rfl rfl (.refl _)
  callback _ op hOp h := h.note fun _ => by
    cases op <;> first | rfl | cases hOp
  route _ h := h.of_eq rfl rfl rfl rfl rfl (.refl _)
  save _ h := h.modifySession rfl rfl
  connected _ h := h.of_eq rfl rfl rfl rfl rfl (.refl _)
  told _ h := h.note fun _ => rfl

theorem InSession.startRtspSession {host : Bytes} {port : Int} {has : Bool} {key : Block}
    {force : Bool} :
    Does (Keep (InSession env.aes i sock))
      (miplayStartRtspSession env i sock host port has key force) := by
  have hStarted (arg : RtspArg) :
      Does (Keep (InSession env.aes i sock)) (emit (.rtspStarted i arg)) :=
    fun _ h => h.note fun _ => rfl
  exact startRtspSession_does (fun _ _ h => h.of_eq rfl rfl rfl rfl rfl (.refl _))
    (fun _ _ _ h => h.of_eq rfl rfl rfl rfl rfl (.refl _))
    (fun _ h => h.of_eq rfl rfl rfl rfl rfl ⟨rfl, rfl, rfl, rfl, rfl⟩)
    (fun _ _ _ h => h.of_eq rfl rfl rfl rfl rfl (.refl _)) hStarted host port has key force

include hHeap hSend in
theorem InSession.commandRules {f : Frame} (hSock : f.sock = sock) (h : Handler) :
    CommandRules env i f h (Keep (InSession env.aes i sock)) where
  restart _ := hSock ▸ tryRestartRtsp_does fun _ _ _ _ => InSession.startRtspSession
  streamKey _ _ _ _ h :=
    (h.note fun _ => rfl).of_eq rfl rfl rfl rfl rfl (.refl _)
  authKey _ _ _ h := h.of_eq rfl rfl rfl rfl rfl (.refl _)
  opened _ _ h := h.of_eq rfl rfl rfl rfl rfl ⟨rfl, rfl, rfl, rfl, rfl⟩
  stream _ w host port := by
    subst hSock
    exact openStream_does (InSession.frameRules hHeap hSend).toSwitchRules w.keys host port
      (fun _ h => h.note fun _ => rfl) InSession.startRtspSession (fun _ _ h => h.note fun _ => rfl) w
  close _ w h := by
    have hClosed : InSession env.aes i sock
        { w with log := w.log ++ [.closed (.ctl i) f.sock (w.kernel.fds f.sock)] } :=
      h.note fun _ => rfl
    obtain ⟨m, hm⟩ := hClosed.kept
    exact ⟨⟨m, hm.close f.sock⟩, h.inUse, h.sock_eq, h.keyed, h.mux⟩

include hHeap in
/-- A container moves the receiving side of the chain. -/
theorem InSession.unifiedDecrypt (payload : Bytes) :
    Does (Keep (InSession env.aes i sock)) (unifiedDecrypt env i payload) := by
  intro w h
  obtain ⟨m, hm⟩ := h.kept
  rw [unifiedDecrypt_run hHeap]
  split
  · exact ⟨hm.received h.inUse h.keyed rfl rfl rfl rfl rfl, h.inUse, h.sock_eq, h.keyed, h.mux⟩
  · exact h

include hHeap hSend in
/-- **One frame** leaves the registers matching the channels. -/
theorem InSession.frameBody (h : Handler) (frame : Bytes) :
    Does (Keep (InSession env.aes i sock)) (frameBody env i sock h frame) :=
  frameBody_does (InSession.unifiedDecrypt hHeap _) (InSession.frameRules hHeap hSend)
    fun _ hSock _ => InSession.commandRules hHeap hSend hSock h

/-! ## The critical sections of a control task -/

theorem enterClient_run (w : World) (i : Slot) :
    ∃ regs active peer, regs.notifySeq = 8 ∧ regs.hasSessionKey = (w.sess i).regs.hasSessionKey ∧
      w.after (enterClient i) =
        { w with
          regs := regs
          activeClientSock := active
          activePeerIp := peer
          sess := Function.update w.sess i { w.sess i with regs := regs } } := by
  refine ⟨{ (w.sess i).regs with
    notifySeq := 8
    reverseControlReady := false
    playSourceRegistered := false
    mediaSessionOpened := false }, _, _, rfl, rfl, rfl⟩

include hSend in
/-- The registers of a greeted session start from its `authKey`. -/
theorem greetSession_run (w : World) (i : Slot) (localIp : UInt32) (localPort : UInt16) :
    ∃ regs seq payload, regs.hasSessionKey = true ∧
      regs.notifySeq = (w.sess i).regs.notifySeq ∧ regs.aesKey = Block.ofBytes regs.authKey ∧
      regs.encryptIv = Block.ofBytes regs.authKey ∧ regs.decryptIv = Block.ofBytes regs.authKey ∧
      w.after (greetSession env i localIp localPort) =
        { w with
          tick := w.tick + 5
          regs := regs
          log := w.log ++
            [.keyed i (w.sess i).sock (w.kernel.fds (w.sess i).sock) regs.authKey] ++
            [.used (.ctl i) (w.sess i).sock (w.kernel.fds (w.sess i).sock)] ++
            if (w.kernel.fds (w.sess i).sock).isSome then
              [.frame (w.sess i).sock (w.kernel.fds (w.sess i).sock) cmdSafetyChallenge seq payload
                .plain false]
            else []
          sess := Function.update w.sess i { w.sess i with regs := regs.saved } } := by
  have hKey (authKey : Bytes) (hLen : authKey.length = 32) :
      Block.ofBytes authKey = Block.ofBytes (authKey ++ [0]) :=
    (Block.ofBytes_append_right [0] (by omega)).symm
  simp only [World.after, greetSession, run_bind, run_miplaySessionLoad, run_get, deriveSessionKey,
    run_modifyRegs, generateAuthMsg, run_oracle, run_emit, miplaySendCmd, miplaySendCmdRaw_run hSend,
    run_miplaySessionSave, World.connOf]
  refine ⟨_, _, _, ?_, ?_, ?_, ?_, ?_, rfl⟩
  · rfl
  · rfl
  all_goals exact hKey _ (by simp [authKeyOf])

include hHeap in
/-- With memory the greeting goes through. -/
theorem greetClient_run (w : World) (i : Slot) (localIp : UInt32) (localPort : UInt16) :
    w.after (greetClient env i localIp localPort) =
      World.after { w with tick := w.tick + 1 + 1 } (do
        greetSession env i localIp localPort
        setCtl i (some (.serving Handler.initial))) := by
  simp only [World.after, greetClient, run_bind, run_oracle, hHeap, Bool.not_true,
    Bool.false_eq_true, if_false]

end Ideal

end EspMiplay.Miplay
