import EspMiplay.Miplay.Bytes

/-!
# C strings

The string functions the parsers of `miplay.c` lean on. A `char *` is the byte
string from the pointer to the end of the memory it may read, so a C string
ends at the first NUL (or where that memory ends) and a returned pointer is a
suffix of the argument.
-/

namespace EspMiplay.Miplay

/-- The characters of a C string. -/
def cstr (p : Bytes) : Bytes := p.takeWhile (· ≠ 0)

/-- `*p`, the terminating NUL included. -/
def peek (p : Bytes) : UInt8 := p.headD 0

/-- `strstr`. -/
def strstr (needle : Bytes) : Bytes → Option Bytes
  | [] => if needle = [] then some [] else none
  | c :: cs =>
    if needle.isPrefixOf (c :: cs) then some (c :: cs)
    else if c = 0 then none
    else strstr needle cs

/-- `strchr` of a character other than NUL. -/
def strchr (ch : UInt8) : Bytes → Option Bytes
  | [] => none
  | c :: cs => if c = ch then some (c :: cs) else if c = 0 then none else strchr ch cs

/-- `memmem`: NUL is a byte like any other. -/
def memmem (needle : Bytes) : Bytes → Option Bytes
  | [] => if needle = [] then some [] else none
  | c :: cs => if needle.isPrefixOf (c :: cs) then some (c :: cs) else memmem needle cs

/-- `while (pred(*p)) p++`. -/
def skipWhile (pred : UInt8 → Bool) (p : Bytes) : Bytes := p.dropWhile pred

/-- `strncpy(dst, src, size - 1); dst[size - 1] = '\0'`. -/
def strncpy (size : Nat) (src : Bytes) : Bytes := (cstr src).take (size - 1)

def isSpace (c : UInt8) : Bool := c = 0x20 ∨ (0x09 ≤ c ∧ c ≤ 0x0D)

def isDigit (c : UInt8) : Bool := 0x30 ≤ c ∧ c ≤ 0x39

/-- The value of a run of decimal digits. -/
def digitsVal (ds : Bytes) : Nat := ds.foldl (fun n d => 10 * n + (d.toNat - 0x30)) 0

/-- Sign, digits and rest of a number in base ten; no digits, no number. -/
def scanNumber (p : Bytes) : Option (Bool × Nat × Bytes) :=
  let p := skipWhile isSpace p
  let (neg, p) := match p with
    | 0x2D :: cs => (true, cs)
    | 0x2B :: cs => (false, cs)
    | cs => (false, cs)
  let ds := p.takeWhile isDigit
  if ds = [] then none else some (neg, digitsVal ds, p.dropWhile isDigit)

def llongMax : Nat := 9223372036854775807
def ullongMax : Nat := 18446744073709551615

/-- `strtoll(p, &end, 10)`: the value, saturated, and `end`. -/
def strtoll (p : Bytes) : Option (Int × Bytes) :=
  (scanNumber p).map fun (neg, n, rest) =>
    (if neg then max (-(n : Int)) (-(llongMax : Int) - 1) else min (n : Int) llongMax, rest)

/-- `strtoull(p, &end, 10)`: a minus sign negates modulo 2⁶⁴. -/
def strtoull (p : Bytes) : Option (Nat × Bytes) :=
  (scanNumber p).map fun (neg, n, rest) =>
    (if n > ullongMax then ullongMax
      else if neg then (ullongMax + 1 - n) % (ullongMax + 1) else n, rest)

/-- `(int)` of a 64-bit value. -/
def toInt32 (z : Int) : Int := (z + 2147483648) % 4294967296 - 2147483648

/-- `(int64_t)` of an unsigned value. -/
def toInt64 (n : Nat) : Int := ((n : Int) + 9223372036854775808) % 18446744073709551616
  - 9223372036854775808

/-- `atoi`: `long` is 32 bits wide and saturates. -/
def atoi (p : Bytes) : Int :=
  match scanNumber p with
  | none => 0
  | some (neg, n, _) => if neg then max (-(n : Int)) (-2147483648) else min (n : Int) 2147483647

/-- `strcasecmp(a, b) == 0`. -/
def toLower (c : UInt8) : UInt8 := if 0x41 ≤ c ∧ c ≤ 0x5A then c + 0x20 else c

def eqIgnoreCase (a b : Bytes) : Bool := a.map toLower = b.map toLower

def hexDigit (n : UInt8) : UInt8 := if n < 10 then 0x30 + n else 0x61 + (n - 10)

/-- `hex_to_lower`. -/
def hexToLower (src : Bytes) : Bytes :=
  src.flatMap fun b : UInt8 => [hexDigit (b >>> 4), hexDigit (b &&& 0x0F)]

@[simp] theorem length_hexToLower (src : Bytes) : (hexToLower src).length = 2 * src.length := by
  induction src with
  | nil => rfl
  | cons b bs ih =>
    rw [hexToLower, List.flatMap_cons, List.length_append, ← hexToLower, ih]
    simp only [List.length_cons, List.length_nil]
    omega

/-- `%u` -/
def decimal (n : Nat) : Bytes := ascii (toString n)

/-- A C string that starts with NUL holds nothing but the empty string. -/
theorem strstr_of_nul {needle p : Bytes} (hNeedle : needle.headD 0 ≠ 0) (hNul : peek p = 0) :
    strstr needle p = none := by
  cases needle with
  | nil => exact absurd rfl hNeedle
  | cons d ds =>
    cases p with
    | nil => rfl
    | cons c cs =>
      have hc : c = 0 := hNul
      have hd : d ≠ 0 := hNeedle
      have hPrefix : (d :: ds).isPrefixOf (c :: cs) = false := by
        simp [List.isPrefixOf, hc, hd]
      rw [strstr, hPrefix, if_neg (by decide), if_pos hc]

/-! ## Where a substring is found -/

/-- The occurrence is a suffix of the string, and the substring is in front of it. -/
theorem strstr_eq_some {needle p e : Bytes} (h : strstr needle p = some e) :
    needle <+: e ∧ e <:+ p := by
  induction p with
  | nil =>
    by_cases hNeedle : needle = []
    · subst hNeedle
      exact ⟨List.nil_prefix, by simp_all [strstr]⟩
    · simp [strstr, hNeedle] at h
  | cons c cs ih =>
    rw [strstr] at h
    split_ifs at h with hPrefix hNul
    · obtain rfl := Option.some.inj h
      exact ⟨List.isPrefixOf_iff_prefix.1 hPrefix, List.suffix_refl _⟩
    · obtain ⟨hFront, hSuffix⟩ := ih h
      exact ⟨hFront, hSuffix.trans (List.suffix_cons c cs)⟩

/-- What lies behind does not move the first occurrence. -/
theorem strstr_append {needle p e : Bytes} (h : strstr needle p = some e) (r : Bytes) :
    strstr needle (p ++ r) = some (e ++ r) := by
  obtain ⟨hNeedle, -⟩ := strstr_eq_some h
  induction p with
  | nil =>
    obtain rfl : needle = [] := by
      by_contra hNe
      simp [strstr, hNe] at h
    obtain rfl : [] = e := by simpa [strstr] using h
    cases r <;> simp [strstr]
  | cons c cs ih =>
    rw [strstr] at h
    rw [List.cons_append, strstr, ← List.cons_append]
    split_ifs at h with hPrefix hNul
    · obtain rfl := Option.some.inj h
      have hLonger : needle.isPrefixOf (c :: cs ++ r) :=
        List.isPrefixOf_iff_prefix.2 (hNeedle.trans (List.prefix_append _ _))
      rw [if_pos hLonger]
    · -- the occurrence further back leaves no room for one that ends in `r`
      have hRoom : needle.length ≤ (c :: cs).length := by
        have hSuffix := (strstr_eq_some h).2.length_le
        have hLen := hNeedle.length_le
        simp only [List.length_cons]
        omega
      have hNot : ¬needle.isPrefixOf (c :: cs ++ r) := by
        rw [List.isPrefixOf_iff_prefix] at hPrefix ⊢
        exact fun hLonger => hPrefix (List.prefix_of_prefix_length_le hLonger
          (List.prefix_append _ _) hRoom)
      rw [if_neg hNot, if_neg hNul]
      exact ih h

/-- A longer substring is not found where its front is not. -/
theorem strstr_append_eq_none {a b p : Bytes} (h : strstr a p = none) :
    strstr (a ++ b) p = none := by
  induction p with
  | nil =>
    have ha : a ≠ [] := by
      rintro rfl
      simp [strstr] at h
    simp [strstr, ha]
  | cons c cs ih =>
    rw [strstr] at h ⊢
    split_ifs at h with hPrefix hNul
    · have hNot : ¬(a ++ b).isPrefixOf (c :: cs) := by
        rw [List.isPrefixOf_iff_prefix] at hPrefix ⊢
        exact fun hLong => hPrefix ((List.prefix_append a b).trans hLong)
      rw [if_neg hNot, if_pos hNul]
    · have hNot : ¬(a ++ b).isPrefixOf (c :: cs) := by
        rw [List.isPrefixOf_iff_prefix] at hPrefix ⊢
        exact fun hLong => hPrefix ((List.prefix_append a b).trans hLong)
      rw [if_neg hNot, if_neg hNul]
      exact ih h

/-- Characters the substring cannot begin with are passed over. -/
theorem strstr_skip {d : UInt8} {ds line : Bytes} (hLine : ∀ c ∈ line, c ≠ 0 ∧ c ≠ d)
    (rest : Bytes) : strstr (d :: ds) (line ++ rest) = strstr (d :: ds) rest := by
  induction line with
  | nil => rfl
  | cons c cs ih =>
    obtain ⟨⟨hNul, hNe⟩, hTail⟩ := List.forall_mem_cons.1 hLine
    have hPrefix : (d :: ds).isPrefixOf (c :: cs ++ rest) = false := by
      simp [List.isPrefixOf, hNe.symm]
    rw [List.cons_append, strstr, ← List.cons_append, hPrefix, if_neg (by decide), if_neg hNul]
    exact ih hTail

end EspMiplay.Miplay
