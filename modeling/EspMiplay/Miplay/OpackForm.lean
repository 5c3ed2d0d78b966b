import EspMiplay.Miplay.JsonForm

/-!
# OPack as it is written

The same members as fields of a `mediaInfoEx` object: a text behind its length, an integer
in eight bytes. Reading the object applies its fields one by one.

## Results

* `opackReadValue_opack`         — a value is read back, a long text as far as the buffer goes.
* `miplayParseMediaInfoEx_form`  — the event is that of the fields, in their order.
-/

namespace EspMiplay.Miplay

/-! ## Numbers -/

/-- A number in `k` bytes, the highest first. -/
def putBe : Nat → Nat → Bytes
  | 0, _ => []
  | k + 1, v => putBe k (v / 256) ++ [UInt8.ofNat v]

@[simp] theorem length_putBe (k v : Nat) : (putBe k v).length = k := by
  induction k generalizing v with
  | zero => rfl
  | succ k ih => simp [putBe, ih]

theorem foldl_putBe (k v start : Nat) :
    (putBe k v).foldl (fun n b => n * 256 + b.toNat) start = start * 256 ^ k + v % 256 ^ k := by
  induction k generalizing v with
  | zero => simp [putBe, Nat.mod_one]
  | succ k ih =>
    rw [putBe, List.foldl_append, ih, List.foldl_cons, List.foldl_nil, UInt8.toNat_ofNat']
    have hSplit : v % 256 ^ (k + 1) = v / 256 % 256 ^ k * 256 + v % 256 := by
      rw [Nat.pow_succ', Nat.mod_mul]
      omega
    have hPow : start * 256 ^ (k + 1) = start * 256 ^ k * 256 := by
      rw [Nat.pow_succ, Nat.mul_assoc]
    rw [hSplit, hPow]
    omega

theorem opackU64Be_putBe {v : Nat} (h : v < 18446744073709551616) (rest : Bytes) :
    opackU64Be (putBe 8 v ++ rest) = v := by
  have hTake : (putBe 8 v ++ rest).take 8 = putBe 8 v := List.take_left' (length_putBe 8 v)
  rw [opackU64Be, hTake, foldl_putBe, Nat.zero_mul, Nat.zero_add]
  exact Nat.mod_eq_of_lt h

theorem opackU32Be_putBe32 (w : UInt32) (rest : Bytes) :
    opackU32Be (putBe32 w ++ rest) = w.toNat :=
  congrArg UInt32.toNat (getBe32_putBe32 w)

/-! ## Writing -/

/-- An integer as its two's complement. -/
def int64Word (n : Int) : Nat := (n % 18446744073709551616).toNat

def MemberValue.opack : MemberValue → Bytes
  | .text t => 0x14 :: (putBe32 (UInt32.ofNat t.length) ++ t)
  | .number n => 0x09 :: putBe 8 (int64Word n)

def Member.opack (m : Member) : Bytes := opackLabel m.name ++ m.value.opack

def opackObject (ms : List Member) : Bytes := ms.flatMap Member.opack

def opackMediaInfoEx (ms : List Member) : Bytes :=
  opackLabel (ascii "mediaInfoEx") ++
    0x16 :: (putBe32 (UInt32.ofNat (opackObject ms).length) ++ opackObject ms)

/-! ## Reading -/

/-- A value as it is read back. -/
def MemberValue.readBack : MemberValue → OpackValue
  | .text t => .string (cstr (t.take (miplayCoverSourceMax - 1)))
  | .number n => .integer (int64Word n)

theorem cstr_of_plain {name : Bytes} (h : PlainName name) : cstr name = name := by
  have hAll : ∀ c ∈ name, decide (c ≠ 0) := fun c hMem => by simp [(h.not_quote hMem).1]
  calc cstr name = cstr (name ++ []) := by rw [List.append_nil]
    _ = name ++ cstr [] := List.takeWhile_append_of_pos hAll
    _ = name := List.append_nil name

theorem opackReadLabel_label {name : Bytes} {size : Nat} (h : PlainName name)
    (hSize : name.length < size) (rest : Bytes) :
    opackReadLabel size (opackLabel name ++ rest) = some (name, rest) := by
  have hPos := List.length_pos_iff.2 h.nonempty
  have hLen : (UInt8.ofNat name.length).toNat = name.length := by
    rw [UInt8.toNat_ofNat', Nat.mod_eq_of_lt (by have := h.short; omega)]
  have hKnown : ¬(name.length = 0 ∨ name.length > (name ++ rest).length) := by
    rw [List.length_append]
    omega
  rw [opackLabel, List.cons_append, opackReadLabel, hLen, if_neg hKnown,
    Nat.min_eq_left (by omega), List.take_left, List.drop_left, cstr_of_plain h]

theorem opackReadValue_opack (v : MemberValue) (rest : Bytes)
    (hFits : v.opack.length < 4294967296) :
    opackReadValue miplayCoverSourceMax (v.opack ++ rest) = some (v.readBack, rest) := by
  cases v with
  | text t =>
    have hLen : (UInt32.ofNat t.length).toNat = t.length := by
      simp only [MemberValue.opack, List.length_cons, List.length_append] at hFits
      rw [UInt32.toNat_ofNat', Nat.mod_eq_of_lt (by omega)]
    have hDrop : (putBe32 (UInt32.ofNat t.length) ++ (t ++ rest)).drop 4 = t ++ rest := rfl
    have hTake : (t ++ rest).take (min t.length (miplayCoverSourceMax - 1)) =
        t.take (miplayCoverSourceMax - 1) := by
      rw [List.take_append_of_le_length (Nat.min_le_left _ _), Nat.min_comm, ← List.take_eq_take_min]
    rw [MemberValue.opack, List.cons_append, List.append_assoc, opackReadValue.eq_def]
    simp [hDrop, opackU32Be_putBe32, hLen, hTake, MemberValue.readBack]
  | number n =>
    have hWord : int64Word n < 18446744073709551616 := by
      unfold int64Word
      omega
    have hDrop : (putBe 8 (int64Word n) ++ rest).drop 8 = rest := List.drop_left' (length_putBe _ _)
    rw [MemberValue.opack, List.cons_append, opackReadValue.eq_def]
    simp [hDrop, opackU64Be_putBe hWord, MemberValue.readBack]

/-- The event with one field applied, if the field is known. -/
def applyMember (e : MediaEvent) (m : Member) : MediaEvent :=
  (miplayApplyMediaField m.name m.value.readBack e).getD e

theorem opackFields_members (ms : List Member) (fuel : Nat) (e : MediaEvent) (seen : Bool)
    (hFuel : ms.length ≤ fuel) (hFits : (opackObject ms).length < 4294967296) :
    ∃ seen', opackFields fuel (opackObject ms) e seen = some (ms.foldl applyMember e, seen') := by
  induction ms generalizing fuel e seen with
  | nil =>
    refine ⟨seen, ?_⟩
    rw [opackObject, List.flatMap_nil, opackFields]
    rfl
  | cons m ms ih =>
    obtain ⟨fuel, rfl⟩ : ∃ n, fuel = n + 1 := Nat.exists_eq_succ_of_ne_zero (by
      rw [List.length_cons] at hFuel
      omega)
    have hObject : opackObject (m :: ms) = opackLabel m.name ++ (m.value.opack ++ opackObject ms) := by
      simp [opackObject, Member.opack]
    rw [hObject, List.length_append, List.length_append] at hFits
    have hValue := opackReadValue_opack m.value (opackObject ms) (by omega)
    have hStep : ∀ seen, ∃ seen', opackFields fuel (opackObject ms) (applyMember e m) seen =
        some ((m :: ms).foldl applyMember e, seen') := fun seen =>
      ih fuel (applyMember e m) seen (Nat.le_of_succ_le_succ hFuel) (by omega)
    have hLabel := opackReadLabel_label m.plain m.plain.short (m.value.opack ++ opackObject ms)
    obtain ⟨c, cs, hCons⟩ : ∃ c cs, opackLabel m.name ++ (m.value.opack ++ opackObject ms) =
        c :: cs := ⟨_, _, rfl⟩
    rw [hObject, hCons]
    rw [hCons] at hLabel
    cases hApply : miplayApplyMediaField m.name m.value.readBack e with
    | none =>
      have hKept : applyMember e m = e := by
        rw [applyMember, hApply]
        rfl
      simpa [opackFields, hLabel, hValue, hApply, hKept] using hStep seen
    | some e' =>
      have hApplied : applyMember e m = e' := by
        rw [applyMember, hApply]
        rfl
      simpa [opackFields, hLabel, hValue, hApply, hApplied] using hStep true

theorem length_le_opackObject (ms : List Member) : ms.length ≤ (opackObject ms).length := by
  induction ms with
  | nil => exact Nat.le_refl 0
  | cons m ms ih =>
    have hObject : opackObject (m :: ms) = m.opack ++ opackObject ms := List.flatMap_cons
    have hOne : 1 ≤ m.opack.length := Nat.succ_le_succ (Nat.zero_le _)
    rw [hObject, List.length_append, List.length_cons]
    omega

theorem miplayParseMediaInfoEx_form (ms : List Member)
    (hFits : (opackObject ms).length < 4294967296) :
    miplayParseMediaInfoEx (fun _ => true) (opackMediaInfoEx ms) =
      if (ms.foldl applyMember miplayMediaEventInit).changed.any then
        some (ms.foldl applyMember miplayMediaEventInit)
      else none := by
  have hLen : (UInt32.ofNat (opackObject ms).length).toNat = (opackObject ms).length := by
    rw [UInt32.toNat_ofNat', Nat.mod_eq_of_lt hFits]
  obtain ⟨seen, hFields⟩ := opackFields_members ms _ miplayMediaEventInit false
    (length_le_opackObject ms) hFits
  have hPlain : PlainName (ascii "mediaInfoEx") := by decide +kernel
  have hShort : (ascii "mediaInfoEx").length < 32 := by decide
  have hRoot := opackReadLabel_label hPlain hShort
    (0x16 :: (putBe32 (UInt32.ofNat (opackObject ms).length) ++ opackObject ms))
  have hDrop : (putBe32 (UInt32.ofNat (opackObject ms).length) ++ opackObject ms).drop 4 =
      opackObject ms := rfl
  rw [miplayParseMediaInfoEx, opackMediaInfoEx, hRoot]
  simp [hDrop, opackU32Be_putBe32, hLen, hFields]

end EspMiplay.Miplay
