import EspMiplay.Miplay.Control

/-!
# Independent sessions

The abstract counterpart of `miplay_session_load` / `miplay_session_save`: every
session has a `Channel` of its own, and what one of them sends or receives
moves that channel and no other. `Channels.observe` says which events such
sessions allow, and `Channels.replay` runs a whole log through them; `none`
means that the log is not one of independent sessions.

- `Channel.start`: key and both IVs are the first sixteen bytes of `authKey`,
  automatic numbers begin at 8.
- `Channel.send`: a sealed frame continues the CBC chain, and an automatic
  number is the next of 8, 9, .., 65535, 8, ..
- `Channel.receive`: a received container is decrypted with the session's own
  key and chain.
-/

namespace EspMiplay.Miplay

/-- What one session knows of its cipher state; `conn` is the connection it
answers on. -/
structure Channel where
  conn : Option Conn
  key : Block
  encryptIv : Block
  decryptIv : Block
  nextNumber : Nat

namespace Channel

def start (conn : Option Conn) (authKey : Bytes) : Channel where
  conn := conn
  key := Block.ofBytes authKey
  encryptIv := Block.ofBytes authKey
  decryptIv := Block.ofBytes authKey
  nextNumber := 8

/-- The number behind `n` among 8, 9, .., 65535, 8, .. -/
def following (n : Nat) : Nat := if n = 65535 then 8 else n + 1

/-- Behind a sealed frame. -/
def next (ch : Channel) (iv' : Block) (auto : Bool) : Channel :=
  { ch with
    encryptIv := iv'
    nextNumber := if auto then following ch.nextNumber else ch.nextNumber }

/-- A sealed frame, if it is this channel's next one. -/
def send (aes : Aes) (ch : Channel) (seq : UInt16) (payload : Bytes) (key iv iv' : Block)
    (plaintext : Bytes) (auto : Bool) : Option Channel :=
  if key = ch.key ∧ iv = ch.encryptIv ∧
      safetyEncrypt aes true plaintext ch.key ch.encryptIv encryptBufSize = (some payload, iv') ∧
      (auto → seq = UInt16.ofNat ch.nextNumber) then
    some (ch.next iv' auto)
  else none

/-- A received container, if it is decrypted as this channel's next one. -/
def receive (aes : Aes) (ch : Channel) (key iv iv' : Block) (data : Bytes) : Option Channel :=
  if key = ch.key ∧ iv = ch.decryptIv ∧ (decryptPayload aes true data ch.key ch.decryptIv).2 = iv' then
    some { ch with decryptIv := iv' }
  else none

end Channel

/-- The current session of each slot. -/
abbrev Channels := Slot → Option Channel

namespace Channels

/-- The session that answers on connection `c`. -/
def ownerOf (m : Channels) (c : Conn) : Option Slot :=
  slots.find? fun i =>
    match m i with
    | some ch => ch.conn = some c
    | none => false

def observe (aes : Aes) (m : Channels) : Op → Option Channels
  | .keyed i _ conn authKey => some (Function.update m i (some (Channel.start conn authKey)))
  | .frame _ conn _ seq payload (.sealed key iv iv' plaintext) auto => do
    let c ← conn
    let i ← m.ownerOf c
    let ch ← m i
    let ch' ← ch.send aes seq payload key iv iv' plaintext auto
    return Function.update m i (some ch')
  | .decrypted i key iv iv' data => do
    let ch ← m i
    let ch' ← ch.receive aes key iv iv' data
    return Function.update m i (some ch')
  | _ => some m

/-- A log as independent sessions would see it. -/
def replay (aes : Aes) (log : List Op) : Option Channels :=
  log.foldlM (observe aes) fun _ => none

theorem replay_concat (aes : Aes) (log : List Op) (op : Op) :
    replay aes (log ++ [op]) = (replay aes log).bind fun m => m.observe aes op := by
  simp only [replay, List.foldlM_append, List.foldlM_cons, List.foldlM_nil]
  cases log.foldlM (observe aes) fun _ => none with
  | none => rfl
  | some m => simp

/-- The owner of a connection that only one session answers on. -/
theorem ownerOf_eq {m : Channels} {i : Slot} {ch : Channel} {c : Conn} (hi : m i = some ch)
    (hConn : ch.conn = some c)
    (hApart : ∀ j ch', m j = some ch' → ch'.conn = some c → j = i) : m.ownerOf c = some i := by
  cases hFind : m.ownerOf c with
  | none =>
    have hNone := List.find?_eq_none.mp hFind i (mem_slots i)
    simp [hi, hConn] at hNone
  | some j =>
    have hj := List.find?_some hFind
    cases hm : m j with
    | none => simp [hm] at hj
    | some ch' =>
      simp only [hm, decide_eq_true_eq] at hj
      rw [hApart j ch' hm hj]

end Channels

end EspMiplay.Miplay
