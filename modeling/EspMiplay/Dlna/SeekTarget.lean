import EspMiplay.Dlna.Player

/-!
# Seek targets

From the text of a Target to the position: `parse_seek_target` of `custom_dlna.c` reads
hours, minutes and seconds, `cb_seek` and `deferred_seek_worker` of `dlna.c` ask the
pipeline for a byte of the file, and the position is set to the target.

The numbers of the text are taken without a bound; `int` saturates where `sscanf` reads it
and wraps around where it is computed with.

## Results

* `bytePos_mono`, `bytePos_le_size` — the byte a seek asks for.
* `seek_sound_iff`                  — every target that is accepted.
* `seek_past_end`                   — one beyond the duration.
-/

namespace EspMiplay.Dlna

open EspMiplay.Miplay (Bytes ascii peek scanNumber toInt32 atoi)

-- ---------------------------------------------------------------------------
-- The source
-- ---------------------------------------------------------------------------

/-- A number of the text. -/
def scanExact (p : Bytes) : Option (Int × Bytes) :=
  (scanNumber p).map fun (neg, n, rest) => (if neg then -(n : Int) else n, rest)

/-- `%d` -/
def saturated (z : Int) : Int := max (-2147483648) (min z 2147483647)

/-- The number behind a colon, or zero where `sscanf` finds none. -/
def afterColon (p : Bytes) : Int × Bytes :=
  if peek p = 0x3A then (scanExact (p.drop 1)).getD (0, []) else (0, [])

/-- Hours, minutes and seconds of `sscanf(buf, "%d:%d:%d")`, before they are stored. -/
def targetParts (buf : Bytes) : Option (Int × Int × Int) :=
  (scanExact buf).map fun (h, rest) =>
    let (m, rest) := afterColon rest
    let (s, _) := afterColon rest
    (h, m, s)

/-- `parse_seek_target`, from the text in `buf` on -/
def parseSeekTarget (buf : Bytes) : Int :=
  match targetParts buf with
  | some (h, m, s) =>
    toInt32 (toInt32 (toInt32 (saturated h * 3600) + toInt32 (saturated m * 60)) + saturated s)
  | none => atoi buf

/-- The byte that `cb_seek` and `deferred_seek_worker` seek to, in 64 bits. -/
def bytePos (size : Nat) (durCacheSec : Int) (seconds : Nat) : Nat :=
  if size > 0 ∧ durCacheSec > 0 then seconds * size % 18446744073709551616 / durCacheSec.toNat
  else seconds * 16000 % 18446744073709551616

-- ---------------------------------------------------------------------------
-- The byte
-- ---------------------------------------------------------------------------

section Byte

variable {size a b : Nat} {dur : Int}

theorem bytePos_eq (hSize : 0 < size) (hDur : 0 < dur)
    (hFits : a * size < 18446744073709551616) : bytePos size dur a = a * size / dur.toNat := by
  rw [bytePos, if_pos ⟨hSize, hDur⟩, Nat.mod_eq_of_lt hFits]

theorem bytePos_mono (hSize : 0 < size) (hDur : 0 < dur)
    (hFits : b * size < 18446744073709551616) (hLe : a ≤ b) :
    bytePos size dur a ≤ bytePos size dur b := by
  have hProduct : a * size ≤ b * size := Nat.mul_le_mul_right size hLe
  rw [bytePos_eq hSize hDur (Nat.lt_of_le_of_lt hProduct hFits), bytePos_eq hSize hDur hFits]
  exact Nat.div_le_div_right hProduct

theorem bytePos_le_size (hSize : 0 < size) (hDur : 0 < dur)
    (hFits : a * size < 18446744073709551616) (hInside : a ≤ dur) :
    bytePos size dur a ≤ size := by
  have hPos : 0 < dur.toNat := by omega
  rw [bytePos_eq hSize hDur hFits]
  calc a * size / dur.toNat ≤ dur.toNat * size / dur.toNat :=
        Nat.div_le_div_right (Nat.mul_le_mul_right size (by omega))
    _ = size := Nat.mul_div_cancel_left size hPos

end Byte

-- ---------------------------------------------------------------------------
-- Targets
-- ---------------------------------------------------------------------------

/-- The number fits into an `int`. -/
def FitsInt (z : Int) : Prop := -2147483648 ≤ z ∧ z ≤ 2147483647

instance (z : Int) : Decidable (FitsInt z) := inferInstanceAs (Decidable (_ ∧ _))

/-- Every number of the text, and every number computed from them, fits. -/
def TargetFits (buf : Bytes) : Prop :=
  ∀ t ∈ targetParts buf,
    (FitsInt t.1 ∧ FitsInt t.2.1 ∧ FitsInt t.2.2) ∧ FitsInt (t.1 * 3600) ∧ FitsInt (t.2.1 * 60) ∧
      FitsInt (t.1 * 3600 + t.2.1 * 60) ∧ FitsInt (t.1 * 3600 + t.2.1 * 60 + t.2.2)

/-- The seconds that the text says. -/
def targetSeconds (buf : Bytes) : Int :=
  match targetParts buf with
  | some (h, m, s) => h * 3600 + m * 60 + s
  | none => 0

theorem toInt32_eq {z : Int} (h : FitsInt z) : toInt32 z = z := by
  obtain ⟨hLow, hHigh⟩ := h
  rw [toInt32]
  omega

theorem saturated_eq {z : Int} (h : FitsInt z) : saturated z = z := by
  obtain ⟨hLow, hHigh⟩ := h
  rw [saturated]
  omega

/-- Without an overflow the seconds are those of the text. -/
theorem parseSeekTarget_eq {buf : Bytes} (hFits : TargetFits buf) :
    parseSeekTarget buf = targetSeconds buf := by
  rw [parseSeekTarget, targetSeconds]
  cases hParts : targetParts buf with
  | none =>
    have hNone : scanNumber buf = none := by
      simpa [targetParts, scanExact] using hParts
    simp only [atoi, hNone]
  | some t =>
    obtain ⟨⟨hH, hM, hS⟩, hHours, hMinutes, hBoth, hAll⟩ := hFits t hParts
    simp only [saturated_eq hH, saturated_eq hM, saturated_eq hS, toInt32_eq hHours,
      toInt32_eq hMinutes, toInt32_eq hBoth, toInt32_eq hAll]

/-- Behind a seek the position is the target. -/
theorem sought_position (p : Player) (seconds : Int) :
    (p.sought seconds).cbGetPositionMs = seconds * 1000 := by
  simp [Player.sought, Player.cbGetPositionMs]

/-- What a target should lead to: nothing overflows, the byte lies in the file and not in
front of that of an earlier target, and the position does not pass the duration. -/
structure SeekSound (p : Player) (size : Nat) (buf : Bytes) : Prop where
  seconds : TargetFits buf
  millis : FitsInt (parseSeekTarget buf * 1000)
  product : (parseSeekTarget buf).toNat * size < 18446744073709551616
  inFile : bytePos size p.durCacheSec (parseSeekTarget buf).toNat ≤ size
  mono : ∀ earlier ≤ (parseSeekTarget buf).toNat,
    bytePos size p.durCacheSec earlier ≤ bytePos size p.durCacheSec (parseSeekTarget buf).toNat
  position : p.durCacheSec < parseSeekTarget buf →
    (p.sought (parseSeekTarget buf)).cbGetPositionMs ≤ p.durCacheSec * 1000

/-- **Every target** that is accepted is served soundly, exactly when it is read without
overflow, lies within the duration and 2147483 seconds, and its product with the size of
the file has 64 bits. -/
theorem seek_sound_iff {p : Player} {size : Nat} {buf : Bytes} (hDur : 0 < p.durCacheSec)
    (hSize : 0 < size) (hAccepted : 0 ≤ parseSeekTarget buf) :
    SeekSound p size buf ↔
      TargetFits buf ∧ targetSeconds buf ≤ p.durCacheSec ∧ targetSeconds buf ≤ 2147483 ∧
        (targetSeconds buf).toNat * size < 18446744073709551616 := by
  constructor
  · rintro ⟨hFits, hMillis, hProduct, -, -, hPosition⟩
    rw [← parseSeekTarget_eq hFits]
    obtain ⟨-, hHigh⟩ := hMillis
    refine ⟨hFits, ?_, by omega, hProduct⟩
    by_contra hBeyond
    have hLate := hPosition (by omega)
    rw [sought_position] at hLate
    omega
  · rintro ⟨hFits, hInside, hSmall, hProduct⟩
    rw [← parseSeekTarget_eq hFits] at hInside hSmall hProduct
    refine ⟨hFits, ⟨by omega, by omega⟩, hProduct, ?_, ?_, fun hBeyond => ?_⟩
    · exact bytePos_le_size hSize hDur hProduct (by omega)
    · exact fun earlier hEarlier => bytePos_mono hSize hDur hProduct hEarlier
    · omega

/-- A track of three minutes and of four million bytes. -/
def threeMinutes : Player := { Player.boot 1 with durCacheSec := 180 }

theorem seek_inside :
    SeekSound threeMinutes 4000000 (ascii "0:01:30") ↔
      TargetFits (ascii "0:01:30") ∧ targetSeconds (ascii "0:01:30") ≤ 180 ∧
        targetSeconds (ascii "0:01:30") ≤ 2147483 ∧
          (targetSeconds (ascii "0:01:30")).toNat * 4000000 < 18446744073709551616 :=
  seek_sound_iff (by decide) (by decide) (by decide)

/-- A target beyond the duration is a byte behind the file, and a position behind its end. -/
theorem seek_past_end :
    ¬∀ (p : Player) (size : Nat) (buf : Bytes), 0 < p.durCacheSec → 0 < size →
      0 ≤ parseSeekTarget buf → SeekSound p size buf := by
  intro hAll
  have hSound := hAll threeMinutes 4000000 (ascii "0:10:00") (by decide) (by decide) (by decide)
  exact absurd hSound.inFile (by decide)

end EspMiplay.Dlna
