import Mathlib.Data.List.Basic

/-!
# DNS messages

A strict decoder: names are read through compression pointers, the data of a record has to
fill its RDLENGTH, and the records have to fill the message.

- `readName_labels`, `readName_root`, `readName_pointer` — a name, piece by piece.
- `readStrings_encode` — the strings of a TXT record.
- `readRecord_record`  — a record whose owner and data can be read.
- `readRecord_append`  — nothing changes when the message goes on.
-/

namespace Dns

/-- The labels of a name, without the root. -/
abbrev Name := List (List UInt8)

-- ---------------------------------------------------------------------------
-- Numbers
-- ---------------------------------------------------------------------------

def putU16 (n : Nat) : List UInt8 := [UInt8.ofNat (n / 256), UInt8.ofNat n]

def putU32 (n : Nat) : List UInt8 := putU16 (n / 65536) ++ putU16 n

def readU16 : List UInt8 → Option (Nat × List UInt8)
  | hi :: lo :: p => some (256 * hi.toNat + lo.toNat, p)
  | _ => none

def readU32 (p : List UInt8) : Option (Nat × List UInt8) := do
  let hi ← readU16 p
  let lo ← readU16 hi.2
  return (65536 * hi.1 + lo.1, lo.2)

@[simp] theorem length_putU16 (n : Nat) : (putU16 n).length = 2 := rfl

@[simp] theorem length_putU32 (n : Nat) : (putU32 n).length = 4 := rfl

@[simp] theorem readU16_putU16 (n : Nat) (p : List UInt8) :
    readU16 (putU16 n ++ p) = some (n % 65536, p) := by
  simp only [putU16, List.cons_append, List.nil_append, readU16, UInt8.toNat_ofNat',
    Option.some.injEq, Prod.mk.injEq, and_true]
  omega

@[simp] theorem readU32_putU32 (n : Nat) (p : List UInt8) :
    readU32 (putU32 n ++ p) = some (n % 4294967296, p) := by
  simp only [putU32, List.append_assoc, readU32, readU16_putU16, Option.bind_eq_bind,
    Option.bind_some, Option.pure_def, Option.some.injEq, Prod.mk.injEq, and_true]
  omega

theorem readU16_append {p q : List UInt8} {n : Nat} (h : readU16 p = some (n, q))
    (behind : List UInt8) : readU16 (p ++ behind) = some (n, q ++ behind) := by
  cases p with
  | nil => cases h
  | cons hi p =>
    cases p with
    | nil => cases h
    | cons lo p =>
      cases h
      rfl

theorem readU32_append {p q : List UInt8} {n : Nat} (h : readU32 p = some (n, q))
    (behind : List UInt8) : readU32 (p ++ behind) = some (n, q ++ behind) := by
  obtain ⟨hi, hHi, h⟩ := Option.bind_eq_some_iff.1 h
  obtain ⟨lo, hLo, h⟩ := Option.bind_eq_some_iff.1 h
  cases h
  rw [readU32, readU16_append hHi]
  simp only [Option.bind_eq_bind, Option.bind_some]
  rw [readU16_append hLo]
  rfl

-- ---------------------------------------------------------------------------
-- Names
-- ---------------------------------------------------------------------------

/-- A name at the front of `p`, and what is behind it. A pointer goes on anywhere in the
message. -/
def readName (msg : List UInt8) : Nat → List UInt8 → Option (Name × List UInt8)
  | 0, _ => none
  | _ + 1, [] => none
  | fuel + 1, c :: p =>
    if c = 0 then some ([], p)
    else if c.toNat < 64 then
      if p.length < c.toNat then none
      else (readName msg fuel (p.drop c.toNat)).map fun r => (p.take c.toNat :: r.1, r.2)
    else if 192 ≤ c.toNat then do
      let target ← readU16 (c :: p)
      (readName msg fuel (msg.drop (target.1 - 0xC000))).map fun r => (r.1, target.2)
    else none

/-- What a label may be. -/
def IsLabel (label : List UInt8) : Prop := 0 < label.length ∧ label.length ≤ 63

instance (label : List UInt8) : Decidable (IsLabel label) :=
  inferInstanceAs (Decidable (_ ∧ _))

def putLabel (label : List UInt8) : List UInt8 := UInt8.ofNat label.length :: label

def putLabels (labels : Name) : List UInt8 := labels.flatMap putLabel

/-- Uncompressed. -/
def putName (labels : Name) : List UInt8 := putLabels labels ++ [0]

def putPointer (target : Nat) : List UInt8 := putU16 (0xC000 + target)

section Name

variable {msg p : List UInt8} {labels : Name} {label : List UInt8} {fuel : Nat}

theorem readName_root (msg : List UInt8) (fuel : Nat) (p : List UInt8) :
    readName msg (fuel + 1) (0 :: p) = some ([], p) := by
  rw [readName, if_pos rfl]

theorem readName_label (h : IsLabel label) (msg : List UInt8) (fuel : Nat) (p : List UInt8) :
    readName msg (fuel + 1) (putLabel label ++ p) =
      (readName msg fuel p).map fun r => (label :: r.1, r.2) := by
  obtain ⟨hPos, hLe⟩ := h
  have hLen : (UInt8.ofNat label.length).toNat = label.length := by
    rw [UInt8.toNat_ofNat']
    omega
  have hZero : UInt8.ofNat label.length ≠ 0 := fun h => by
    rw [h] at hLen
    exact absurd hLen.symm (Nat.ne_of_gt hPos)
  rw [putLabel, List.cons_append, readName, if_neg hZero, hLen, if_pos (by omega),
    if_neg (by rw [List.length_append]; omega), List.drop_left, List.take_left]

/-- Labels, and what the name goes on with. -/
theorem readName_labels (h : ∀ label ∈ labels, IsLabel label) (msg : List UInt8) (fuel : Nat)
    (p : List UInt8) :
    readName msg (fuel + labels.length) (putLabels labels ++ p) =
      (readName msg fuel p).map fun r => (labels ++ r.1, r.2) := by
  induction labels with
  | nil => simp [putLabels]
  | cons label labels ih =>
    obtain ⟨hLabel, hRest⟩ := List.forall_mem_cons.1 h
    rw [List.length_cons, ← Nat.add_assoc, putLabels, List.flatMap_cons, List.append_assoc,
      readName_label hLabel, ← putLabels, ih hRest, Option.map_map]
    rfl

theorem readName_name (h : ∀ label ∈ labels, IsLabel label) (hFuel : labels.length < fuel)
    (msg p : List UInt8) : readName msg fuel (putName labels ++ p) = some (labels, p) := by
  obtain ⟨more, rfl⟩ := Nat.exists_eq_add_of_lt hFuel
  rw [show labels.length + more + 1 = more + 1 + labels.length by omega, putName,
    List.append_assoc, readName_labels h, List.singleton_append, readName_root, Option.map_some,
    List.append_nil]

theorem readName_pointer {target : Nat} (h : target < 0x4000) (msg : List UInt8) (fuel : Nat)
    (p : List UInt8) :
    readName msg (fuel + 1) (putPointer target ++ p) =
      (readName msg fuel (msg.drop target)).map fun r => (r.1, p) := by
  have hRead := readU16_putU16 (0xC000 + target) p
  have hFirst : (UInt8.ofNat ((0xC000 + target) / 256)).toNat = 192 + target / 256 := by
    rw [UInt8.toNat_ofNat']
    omega
  have hZero : UInt8.ofNat ((0xC000 + target) / 256) ≠ 0 := fun h => by
    rw [h] at hFirst
    exact absurd hFirst (by simp only [UInt8.toNat_zero]; omega)
  rw [putPointer, putU16, List.cons_append, readName, if_neg hZero, hFirst, if_neg (by omega),
    if_pos (by omega), ← List.cons_append, ← putU16, hRead]
  simp only [Option.bind_eq_bind, Option.bind_some]
  rw [show (0xC000 + target) % 65536 - 0xC000 = target by omega]

/-- A name is still read when more stands behind the message. -/
theorem readName_append {q : List UInt8} (h : readName msg fuel p = some (labels, q)) (more : Nat)
    (after behind : List UInt8) :
    readName (msg ++ after) (fuel + more) (p ++ behind) = some (labels, q ++ behind) := by
  induction fuel generalizing p labels q behind with
  | zero => cases h
  | succ fuel ih =>
    rw [Nat.succ_add]
    cases p with
    | nil => cases h
    | cons c p =>
      rw [readName] at h
      rw [List.cons_append, readName]
      by_cases hRoot : c = 0
      · rw [if_pos hRoot] at h ⊢
        cases h
        rfl
      rw [if_neg hRoot] at h ⊢
      by_cases hLabel : c.toNat < 64
      · rw [if_pos hLabel] at h ⊢
        split_ifs at h with hShort
        obtain ⟨⟨rest, left⟩, hRest, hEq⟩ := Option.map_eq_some_iff.1 h
        cases hEq
        rw [if_neg (by rw [List.length_append]; omega), List.drop_append_of_le_length (by omega),
          List.take_append_of_le_length (by omega), ih hRest]
        rfl
      rw [if_neg hLabel] at h ⊢
      by_cases hPointer : 192 ≤ c.toNat
      · rw [if_pos hPointer] at h ⊢
        obtain ⟨⟨target, left⟩, hTarget, hEq⟩ := Option.bind_eq_some_iff.1 h
        obtain ⟨⟨rest, behindRest⟩, hRest, hEq⟩ := Option.map_eq_some_iff.1 hEq
        cases hEq
        -- nothing is read behind the end
        have hInside : target - 0xC000 ≤ msg.length := by
          by_contra hBeyond
          rw [List.drop_eq_nil_of_le (by omega)] at hRest
          cases fuel <;> cases hRest
        rw [← List.cons_append, readU16_append hTarget]
        simp only [Option.bind_eq_bind, Option.bind_some]
        rw [List.drop_append_of_le_length hInside, ih hRest]
        rfl
      · rw [if_neg hPointer] at h
        cases h

end Name

-- ---------------------------------------------------------------------------
-- Records
-- ---------------------------------------------------------------------------

inductive RData where
  | a (octets : List UInt8)
  | ptr (target : Name)
  | txt (strings : List (List UInt8))
  | srv (priority weight port : Nat) (target : Name)
  | other (bytes : List UInt8)
  deriving DecidableEq

structure Record where
  name : Name
  type : Nat
  cls : Nat
  ttl : Nat
  data : RData
  deriving DecidableEq

/-- Strings with their lengths in front, up to the end. -/
def readStrings : Nat → List UInt8 → Option (List (List UInt8))
  | _, [] => some []
  | 0, _ :: _ => none
  | fuel + 1, c :: p =>
    if p.length < c.toNat then none
    else (readStrings fuel (p.drop c.toNat)).map (p.take c.toNat :: ·)

def putString (s : List UInt8) : List UInt8 := UInt8.ofNat s.length :: s

/-- The name that is all of the data. -/
def readTarget (msg rdata : List UInt8) : Option Name := do
  let target ← readName msg msg.length rdata
  if target.2 = [] then some target.1 else none

def readData (msg : List UInt8) (type : Nat) (rdata : List UInt8) : Option RData :=
  if type = 1 then if rdata.length = 4 then some (.a rdata) else none
  else if type = 12 then (readTarget msg rdata).map .ptr
  else if type = 16 then (readStrings rdata.length rdata).map .txt
  else if type = 33 then do
    let priority ← readU16 rdata
    let weight ← readU16 priority.2
    let port ← readU16 weight.2
    let target ← readTarget msg port.2
    return .srv priority.1 weight.1 port.1 target
  else some (.other rdata)

def readRecord (msg p : List UInt8) : Option (Record × List UInt8) := do
  let name ← readName msg msg.length p
  let type ← readU16 name.2
  let cls ← readU16 type.2
  let ttl ← readU32 cls.2
  let len ← readU16 ttl.2
  if len.2.length < len.1 then none
  else
    let data ← readData msg type.1 (len.2.take len.1)
    return ({ name := name.1, type := type.1, cls := cls.1, ttl := ttl.1, data := data },
      len.2.drop len.1)

/-- A record behind its owner. -/
def putRecord (type cls ttl : Nat) (rdata : List UInt8) : List UInt8 :=
  putU16 type ++ (putU16 cls ++ (putU32 ttl ++ (putU16 rdata.length ++ rdata)))

section Record

variable {msg owner rdata p : List UInt8} {name : Name} {data : RData} {type cls ttl fuel : Nat}

theorem readStrings_encode {strings : List (List UInt8)} (h : ∀ s ∈ strings, s.length < 256)
    (hFuel : strings.length ≤ fuel) :
    readStrings fuel (strings.flatMap putString) = some strings := by
  induction strings generalizing fuel with
  | nil => rw [List.flatMap_nil, readStrings]
  | cons s strings ih =>
    obtain ⟨hFirst, hRest⟩ := List.forall_mem_cons.1 h
    obtain ⟨more, rfl⟩ := Nat.exists_eq_add_of_lt (Nat.lt_of_succ_le hFuel)
    have hLen : (UInt8.ofNat s.length).toNat = s.length := by
      rw [UInt8.toNat_ofNat']
      omega
    rw [List.flatMap_cons, putString, List.cons_append, readStrings, hLen,
      if_neg (by rw [List.length_append]; omega), List.drop_left, List.take_left,
      ih hRest (by omega)]
    rfl

theorem length_le_flatMap_putString (strings : List (List UInt8)) :
    strings.length ≤ (strings.flatMap putString).length := by
  induction strings with
  | nil => exact Nat.le_refl 0
  | cons s strings ih =>
    rw [List.flatMap_cons, List.length_append, List.length_cons, putString, List.length_cons]
    omega

/-- The length has sixteen bits, whatever there is. -/
theorem readRecord_eq (hType : type < 65536) (hCls : cls < 65536) (hTtl : ttl < 4294967296)
    (hOwner : readName msg msg.length (owner ++ (putRecord type cls ttl rdata ++ p)) =
      some (name, putRecord type cls ttl rdata ++ p)) :
    readRecord msg (owner ++ (putRecord type cls ttl rdata ++ p)) =
      (readData msg type ((rdata ++ p).take (rdata.length % 65536))).map fun data =>
        ({ name := name, type := type, cls := cls, ttl := ttl, data := data },
          (rdata ++ p).drop (rdata.length % 65536)) := by
  have hLe : rdata.length % 65536 ≤ rdata.length := Nat.mod_le _ _
  rw [readRecord, hOwner]
  simp only [Option.bind_eq_bind, Option.bind_some, putRecord, List.append_assoc,
    readU16_putU16, readU32_putU32, Nat.mod_eq_of_lt hType, Nat.mod_eq_of_lt hCls,
    Nat.mod_eq_of_lt hTtl]
  rw [if_neg (by rw [List.length_append]; omega)]
  cases readData msg type ((rdata ++ p).take (rdata.length % 65536)) <;> rfl

/-- **A record** is read when its owner and its data can be. -/
theorem readRecord_record (hType : type < 65536) (hCls : cls < 65536) (hTtl : ttl < 4294967296)
    (hLen : rdata.length < 65536)
    (hOwner : readName msg msg.length (owner ++ (putRecord type cls ttl rdata ++ p)) =
      some (name, putRecord type cls ttl rdata ++ p))
    (hData : readData msg type rdata = some data) :
    readRecord msg (owner ++ (putRecord type cls ttl rdata ++ p)) =
      some ({ name := name, type := type, cls := cls, ttl := ttl, data := data }, p) := by
  rw [readRecord_eq hType hCls hTtl hOwner, Nat.mod_eq_of_lt hLen, List.take_left,
    List.drop_left, hData]
  rfl

theorem readTarget_eq (h : readName msg msg.length rdata = some (name, [])) :
    readTarget msg rdata = some name := by
  rw [readTarget, h]
  rfl

theorem readTarget_append {target : Name} (h : readTarget msg rdata = some target)
    (after : List UInt8) : readTarget (msg ++ after) rdata = some target := by
  obtain ⟨⟨found, left⟩, hFound, hEq⟩ := Option.bind_eq_some_iff.1 h
  split_ifs at hEq with hEnd
  obtain rfl : left = [] := hEnd
  cases hEq
  have hMore := readName_append hFound after.length after []
  rw [List.append_nil, List.append_nil, ← List.length_append] at hMore
  exact readTarget_eq hMore

theorem readData_append (h : readData msg type rdata = some data) (after : List UInt8) :
    readData (msg ++ after) type rdata = some data := by
  rw [readData] at h ⊢
  by_cases hA : type = 1
  · rwa [if_pos hA] at h ⊢
  rw [if_neg hA] at h ⊢
  by_cases hPtr : type = 12
  · rw [if_pos hPtr] at h ⊢
    obtain ⟨target, hTarget, hEq⟩ := Option.map_eq_some_iff.1 h
    rw [readTarget_append hTarget, ← hEq]
    rfl
  rw [if_neg hPtr] at h ⊢
  by_cases hTxt : type = 16
  · rwa [if_pos hTxt] at h ⊢
  rw [if_neg hTxt] at h ⊢
  by_cases hSrv : type = 33
  · rw [if_pos hSrv] at h ⊢
    obtain ⟨priority, hPriority, h⟩ := Option.bind_eq_some_iff.1 h
    obtain ⟨weight, hWeight, h⟩ := Option.bind_eq_some_iff.1 h
    obtain ⟨port, hPort, h⟩ := Option.bind_eq_some_iff.1 h
    obtain ⟨target, hTarget, hEq⟩ := Option.bind_eq_some_iff.1 h
    cases hEq
    simp only [hPriority, hWeight, hPort, readTarget_append hTarget, Option.bind_eq_bind,
      Option.bind_some, Option.pure_def]
  · rwa [if_neg hSrv] at h ⊢

/-- A record is still read when more stands behind the message. -/
theorem readRecord_append {record : Record} {q : List UInt8}
    (h : readRecord msg p = some (record, q)) (after behind : List UInt8) :
    readRecord (msg ++ after) (p ++ behind) = some (record, q ++ behind) := by
  obtain ⟨name, hName, h⟩ := Option.bind_eq_some_iff.1 h
  obtain ⟨type, hType, h⟩ := Option.bind_eq_some_iff.1 h
  obtain ⟨cls, hCls, h⟩ := Option.bind_eq_some_iff.1 h
  obtain ⟨ttl, hTtl, h⟩ := Option.bind_eq_some_iff.1 h
  obtain ⟨len, hLen, h⟩ := Option.bind_eq_some_iff.1 h
  split_ifs at h with hShort
  obtain ⟨data, hData, hEq⟩ := Option.bind_eq_some_iff.1 h
  cases hEq
  have hMore := readName_append hName after.length after behind
  rw [← List.length_append] at hMore
  simp only [readRecord, hMore, readU16_append hType, readU16_append hCls, readU32_append hTtl,
    readU16_append hLen, Option.bind_eq_bind, Option.bind_some]
  rw [if_neg (by rw [List.length_append]; omega), List.take_append_of_le_length (by omega),
    List.drop_append_of_le_length (by omega), readData_append hData]
  rfl

end Record

-- ---------------------------------------------------------------------------
-- Messages
-- ---------------------------------------------------------------------------

structure Question where
  name : Name
  type : Nat
  cls : Nat
  deriving DecidableEq

structure Message where
  id : Nat
  flags : Nat
  questions : List Question
  answers : List Record
  authorities : List Record
  additionals : List Record
  deriving DecidableEq

def readQuestion (msg p : List UInt8) : Option (Question × List UInt8) := do
  let name ← readName msg msg.length p
  let type ← readU16 name.2
  let cls ← readU16 type.2
  return ({ name := name.1, type := type.1, cls := cls.1 }, cls.2)

def readMany {β : Type} (read : List UInt8 → Option (β × List UInt8)) :
    Nat → List UInt8 → Option (List β × List UInt8)
  | 0, p => some ([], p)
  | n + 1, p => do
    let first ← read p
    let rest ← readMany read n first.2
    return (first.1 :: rest.1, rest.2)

section Many

variable {β : Type} {read read' : List UInt8 → Option (β × List UInt8)} {p q : List UInt8}
  {first : β} {xs : List β}

theorem readMany_cons {n : Nat} (hFirst : read p = some (first, q)) :
    readMany read (n + 1) p = (readMany read n q).map fun r => (first :: r.1, r.2) := by
  rw [readMany, hFirst, Option.bind_eq_bind, Option.bind_some]
  cases readMany read n q <;> rfl

/-- What one reader reads, item by item, another one reads. -/
theorem readMany_append {n : Nat} {behind : List UInt8}
    (hRead : ∀ p x q, read p = some (x, q) → read' (p ++ behind) = some (x, q ++ behind))
    (h : readMany read n p = some (xs, q)) :
    readMany read' n (p ++ behind) = some (xs, q ++ behind) := by
  induction n generalizing p xs with
  | zero =>
    cases h
    rfl
  | succ n ih =>
    obtain ⟨⟨first, left⟩, hFirst, h⟩ := Option.bind_eq_some_iff.1 h
    obtain ⟨⟨rest, right⟩, hRest, h⟩ := Option.bind_eq_some_iff.1 h
    cases h
    rw [readMany_cons (hRead _ _ _ hFirst), ih hRest]
    rfl

/-- So many items are so many, and then the others. -/
theorem readMany_add {m n : Nat} (h : readMany read (m + n) p = some (xs, q)) :
    ∃ left, readMany read m p = some (xs.take m, left) ∧
      readMany read n left = some (xs.drop m, q) := by
  induction m generalizing p xs with
  | zero =>
    rw [Nat.zero_add] at h
    exact ⟨p, rfl, h⟩
  | succ m ih =>
    rw [Nat.succ_add] at h
    obtain ⟨⟨first, behind⟩, hFirst, h⟩ := Option.bind_eq_some_iff.1 h
    obtain ⟨⟨rest, right⟩, hRest, h⟩ := Option.bind_eq_some_iff.1 h
    cases h
    obtain ⟨left, hTake, hDrop⟩ := ih hRest
    refine ⟨left, ?_, hDrop⟩
    rw [readMany_cons hFirst, hTake]
    rfl

theorem readMany_snoc {n : Nat} {last : β} {left : List UInt8}
    (h : readMany read n p = some (xs, left)) (hLast : read left = some (last, q)) :
    readMany read (n + 1) p = some (xs ++ [last], q) := by
  induction n generalizing p xs with
  | zero =>
    cases h
    rw [readMany_cons hLast]
    rfl
  | succ n ih =>
    obtain ⟨⟨first, behind⟩, hFirst, h⟩ := Option.bind_eq_some_iff.1 h
    obtain ⟨⟨rest, right⟩, hRest, h⟩ := Option.bind_eq_some_iff.1 h
    cases h
    rw [readMany_cons hFirst, ih hRest]
    rfl

end Many

/-- The counts of the header decide what is read; nothing may be left over. -/
def decode (msg : List UInt8) : Option Message := do
  let id ← readU16 msg
  let flags ← readU16 id.2
  let qdcount ← readU16 flags.2
  let ancount ← readU16 qdcount.2
  let nscount ← readU16 ancount.2
  let arcount ← readU16 nscount.2
  let questions ← readMany (readQuestion msg) qdcount.1 arcount.2
  let answers ← readMany (readRecord msg) ancount.1 questions.2
  let authorities ← readMany (readRecord msg) nscount.1 answers.2
  let additionals ← readMany (readRecord msg) arcount.1 authorities.2
  if additionals.2 = [] then
    some {
      id := id.1
      flags := flags.1
      questions := questions.1
      answers := answers.1
      authorities := authorities.1
      additionals := additionals.1 }
  else none

end Dns
