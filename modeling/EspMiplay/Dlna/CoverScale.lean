import Mathlib.Data.Rat.Floor
import Mathlib.Tactic.FieldSimp
import Mathlib.Tactic.Linarith
import Mathlib.Tactic.Positivity

/-!
# Scaling a cover

Three copies of the scaling loop in `album_art_task` of `dlna.c` (JPEG, PNG, WebP) cut the
largest square out of the middle of the image, `_scale_rgb565_to_cover_buf` of
`lvgl_port_ui.c` takes the whole image. Each output pixel is mixed from four source pixels.
The coordinates of the source are read over the rationals; `float` is not modelled.

An axis is scaled on its own: `Tap` is the left (or upper) one of two neighbours, and the
weight of the other one.

## Results

* `axis_inside_iff` — one axis.
* `cropped_iff`, `png_iff`, `webp_iff`, `setCover_iff` — the four loops.
* `coverScale_iff` — all of them.
-/

namespace EspMiplay.Dlna

-- ---------------------------------------------------------------------------
-- The source
-- ---------------------------------------------------------------------------

/-- `LVGL_PORT_COVER_SRC_SIZE`, `UI_COVER_SIZE` -/
def coverSize : Nat := 148

/-- `(int)` of a coordinate, towards zero -/
def truncate (f : ℚ) : Int := f.num.tdiv f.den

/-- `ix`, `dx` -/
structure Tap where
  index : Int
  weight : ℚ

/-- The tap at `f`, where `clamp` keeps the index away from the end of the axis. -/
def tapAt (clamp : Int → Int) (f : ℚ) : Tap where
  index := clamp (truncate f)
  weight := f - clamp (truncate f)

/-- `crop + (float)k / n * size` -/
def coordinate (crop size : Int) (n k : Nat) : ℚ := crop + (k : ℚ) / n * size

/-- `if (ix >= w - 1) ix = w - 2` -/
def clampLast (dim i : Int) : Int := if i ≥ dim - 1 then dim - 2 else i

/-- The same with an unsigned width: the index is compared as an unsigned number. -/
def clampUnsigned (dim i : Int) : Int :=
  let unsigned (z : Int) : Int := z % 4294967296
  let signed (z : Int) : Int := (z + 2147483648) % 4294967296 - 2147483648
  if unsigned i ≥ unsigned (dim - 1) then signed (dim - 2) else i

/-- `clampLast`, and `if (ix < 0) ix = 0` -/
def clampBoth (dim i : Int) : Int := max (clampLast dim i) 0

/-- Width and height of an image that has a pixel. -/
structure ImageSize where
  w : Int
  h : Int
  w_pos : 0 < w
  h_pos : 0 < h

namespace ImageSize

variable (s : ImageSize)

/-- `crop_sz` -/
def cropSz : Int := if s.w < s.h then s.w else s.h

/-- `crop_x`, `crop_y` -/
def cropX : Int := (s.w - s.cropSz).tdiv 2

def cropY : Int := (s.h - s.cropSz).tdiv 2

/-- `album_art_task` for a JPEG: the taps of output pixel `(x, y)`. -/
def jpegTaps (x y : Nat) : Tap × Tap :=
  (tapAt (clampLast s.w) (coordinate s.cropX s.cropSz coverSize x),
    tapAt (clampLast s.h) (coordinate s.cropY s.cropSz coverSize y))

/-- `album_art_task` for a PNG, whose width and height are unsigned. -/
def pngTaps (x y : Nat) : Tap × Tap :=
  (tapAt (clampUnsigned s.w) (coordinate s.cropX s.cropSz coverSize x),
    tapAt (clampUnsigned s.h) (coordinate s.cropY s.cropSz coverSize y))

/-- `album_art_task` for a WebP; an image with one column or one row is refused. -/
def webpTaps (x y : Nat) : Option (Tap × Tap) :=
  if s.w ≤ 1 ∨ s.h ≤ 1 then none
  else
    some (tapAt (clampLast s.w) (coordinate s.cropX s.cropSz coverSize x),
      tapAt (clampLast s.h) (coordinate s.cropY s.cropSz coverSize y))

/-- `_scale_rgb565_to_cover_buf`; an image of the right size is copied. -/
def setCoverTaps (x y : Nat) : Option (Tap × Tap) :=
  if s.w = coverSize ∧ s.h = coverSize then none
  else
    some (tapAt (clampBoth s.w) (coordinate 0 s.w coverSize x),
      tapAt (clampBoth s.h) (coordinate 0 s.h coverSize y))

end ImageSize

-- ---------------------------------------------------------------------------
-- Where a tap lies
-- ---------------------------------------------------------------------------

/-- Both neighbours are on the axis, and the weights are shares. -/
structure Tap.Inside (t : Tap) (dim : Int) : Prop where
  low : 0 ≤ t.index
  high : t.index + 1 < dim
  weight_nonneg : 0 ≤ t.weight
  weight_le_one : t.weight ≤ 1

theorem truncate_eq_floor {f : ℚ} (hf : 0 ≤ f) : truncate f = ⌊f⌋ := by
  rw [truncate, Int.tdiv_eq_ediv_of_nonneg (Rat.num_nonneg.2 hf), Rat.floor_def']

theorem truncate_nonneg {f : ℚ} (hf : 0 ≤ f) : 0 ≤ truncate f := by
  rw [truncate_eq_floor hf]
  exact Int.floor_nonneg.2 hf

theorem clampLast_inside {dim : Int} {f : ℚ} (hf : 0 ≤ f) (hDim : 2 ≤ dim) (hEnd : f ≤ dim - 1) :
    (tapAt (clampLast dim) f).Inside dim := by
  have hFloor := truncate_eq_floor hf
  have hPos := Int.floor_nonneg.2 hf
  have hLe := Int.floor_le f
  have hLt := Int.lt_floor_add_one f
  simp only [tapAt, clampLast, hFloor]
  split_ifs with hLast
  · -- only the end of the axis itself
    have hReal : ((dim - 1 : Int) : ℚ) ≤ ⌊f⌋ := by exact_mod_cast hLast
    push_cast at hReal
    refine ⟨by simp only; omega, by simp only; omega, ?_, ?_⟩ <;>
    · push_cast
      linarith
  · refine ⟨hPos, by simp only; omega, ?_, ?_⟩ <;>
    · simp only
      linarith

theorem clampLast_outside {dim : Int} {f : ℚ} (hEnd : dim - 1 < f) (hDim : 0 < dim) :
    ¬(tapAt (clampLast dim) f).Inside dim := by
  have hDimQ : (1 : ℚ) ≤ dim := by exact_mod_cast hDim
  have hf : 0 ≤ f := by linarith
  have hFloor := truncate_eq_floor hf
  have hLast : ⌊f⌋ ≥ dim - 1 := by
    rw [ge_iff_le, Int.le_floor]
    push_cast
    exact hEnd.le
  intro hInside
  have hWeight := hInside.weight_le_one
  simp only [tapAt, clampLast, hFloor, if_pos hLast] at hWeight
  push_cast at hWeight
  linarith

-- ---------------------------------------------------------------------------
-- One axis
-- ---------------------------------------------------------------------------

section Axis

variable {dim crop size : Int} {n : Nat}

theorem coordinate_nonneg (hCrop : 0 ≤ crop) (hSize : 0 < size) (k : Nat) :
    0 ≤ coordinate crop size n k := by
  have hCropQ : (0 : ℚ) ≤ crop := by exact_mod_cast hCrop
  have hSizeQ : (0 : ℚ) < size := by exact_mod_cast hSize
  rw [coordinate]
  positivity

/-- The last coordinate is a step in front of the end. -/
theorem coordinate_le {k : Nat} (hSize : 0 < size) (hk : k < n) :
    coordinate crop size n k ≤ crop + size - (size : ℚ) / n := by
  have hn : (0 : ℚ) < n := by exact_mod_cast Nat.zero_lt_of_lt hk
  have hSizeQ : (0 : ℚ) < size := by exact_mod_cast hSize
  have hkQ : (k : ℚ) + 1 ≤ n := by exact_mod_cast hk
  have hShare : (k : ℚ) / n * size + size / n ≤ size := by
    rw [div_mul_eq_mul_div, ← add_div, div_le_iff₀ hn]
    nlinarith
  rw [coordinate]
  linarith

theorem coordinate_last (hn : 0 < n) :
    coordinate crop size n (n - 1) = crop + size - (size : ℚ) / n := by
  have hnQ : (n : ℚ) ≠ 0 := by exact_mod_cast hn.ne'
  have hCast : ((n - 1 : Nat) : ℚ) = n - 1 := by
    rw [Nat.cast_sub hn, Nat.cast_one]
  rw [coordinate, hCast]
  field_simp
  ring

/-- **One axis.** All taps lie on it, exactly when the part that is scaled ends before the
axis does, or has at least as many pixels as the cover. -/
theorem axis_inside_iff (hn : 1 < n) (hCrop : 0 ≤ crop) (hSize : 0 < size)
    (hFits : crop + size ≤ dim) :
    (∀ k < n, (tapAt (clampLast dim) (coordinate crop size n k)).Inside dim) ↔
      crop + size < dim ∨ (n : Int) ≤ size := by
  have hnQ : (0 : ℚ) < n := by exact_mod_cast Nat.zero_lt_of_lt hn
  have hSizeQ : (0 : ℚ) < size := by exact_mod_cast hSize
  have hStep : 0 < (size : ℚ) / n := div_pos hSizeQ hnQ
  have hFitsQ : (crop : ℚ) + size ≤ dim := by exact_mod_cast hFits
  constructor
  · intro hAll
    by_contra hNot
    obtain ⟨hEnd, hSmall⟩ := not_or.1 hNot
    have hEndQ : (crop : ℚ) + size = dim := by exact_mod_cast (by omega : crop + size = dim)
    have hSmallQ : (size : ℚ) < n := by exact_mod_cast Int.lt_of_not_ge hSmall
    have hShort : (size : ℚ) / n < 1 := (div_lt_one hnQ).2 hSmallQ
    refine clampLast_outside ?_ (by omega) (hAll (n - 1) (by omega))
    rw [coordinate_last (by omega)]
    linarith
  · intro hCase k hk
    refine clampLast_inside (coordinate_nonneg hCrop hSize k) (by omega) ?_
    have hLe := @coordinate_le crop size n k hSize hk
    rcases hCase with hBefore | hLarge
    · have hBeforeQ : (crop : ℚ) + size + 1 ≤ dim := by exact_mod_cast hBefore
      linarith
    · have hLargeQ : (n : ℚ) ≤ size := by exact_mod_cast hLarge
      have hLong : 1 ≤ (size : ℚ) / n := (one_le_div hnQ).2 hLargeQ
      linarith

/-- Where the index cannot be negative the second clamp changes nothing. -/
theorem clampBoth_eq {i : Int} (hi : 0 ≤ i) (hDim : 2 ≤ dim) :
    clampBoth dim i = clampLast dim i := by
  have hPos : 0 ≤ clampLast dim i := by
    rw [clampLast]
    split_ifs <;> omega
  exact max_eq_left hPos

theorem wholeAxis_inside_iff (hn : 1 < n) (hDim : 0 < dim) :
    (∀ k < n, (tapAt (clampBoth dim) (coordinate 0 dim n k)).Inside dim) ↔ (n : Int) ≤ dim := by
  by_cases hWide : 2 ≤ dim
  · have hSame (k : Nat) : tapAt (clampBoth dim) (coordinate 0 dim n k) =
        tapAt (clampLast dim) (coordinate 0 dim n k) := by
      rw [tapAt, tapAt, clampBoth_eq (truncate_nonneg (coordinate_nonneg le_rfl hDim k)) hWide]
    simp only [hSame]
    rw [axis_inside_iff hn le_rfl hDim (by omega), zero_add]
    exact or_iff_right (lt_irrefl dim)
  · -- one pixel has no neighbour
    refine iff_of_false (fun hAll => ?_) (by omega)
    have hFirst := (hAll 0 (by omega)).high
    have hIndex : 0 ≤ (tapAt (clampBoth dim) (coordinate 0 dim n 0)).index := le_max_right _ _
    omega

/-- Numbers of 31 bits are compared alike with and without a sign. -/
theorem clampUnsigned_eq {i : Int} (hi : 0 ≤ i) (hLarge : i < 2147483648) (hDim : 0 < dim)
    (hSmall : dim < 2147483648) : clampUnsigned dim i = clampLast dim i := by
  simp only [clampUnsigned, clampLast]
  split_ifs <;> omega

end Axis

-- ---------------------------------------------------------------------------
-- The four loops
-- ---------------------------------------------------------------------------

namespace ImageSize

variable (s : ImageSize)

/-- The four source pixels lie in the image. -/
def Inside (t : Tap × Tap) : Prop := t.1.Inside s.w ∧ t.2.Inside s.h

/-- The cover is not larger than the image. -/
def Large : Prop := (coverSize : Int) ≤ s.w ∧ (coverSize : Int) ≤ s.h

/-- What holds of all columns and of all rows. -/
theorem forall_taps {P Q : Nat → Prop} :
    (∀ x < coverSize, ∀ y < coverSize, P x ∧ Q y) ↔
      (∀ x < coverSize, P x) ∧ ∀ y < coverSize, Q y := by
  constructor
  · intro hAll
    exact ⟨fun x hx => (hAll x hx 0 (by decide)).1, fun y hy => (hAll 0 (by decide) y hy).2⟩
  · rintro ⟨hX, hY⟩ x hx y hy
    exact ⟨hX x hx, hY y hy⟩

/-- The square in the middle lies in the image; across the longer side it ends before. -/
theorem crop_cases :
    0 ≤ s.cropX ∧ 0 ≤ s.cropY ∧ 0 < s.cropSz ∧
      (s.w ≤ s.h ∧ s.cropSz = s.w ∧ s.cropX = 0 ∨
        s.h < s.w ∧ s.cropSz = s.h ∧ s.cropX + s.cropSz < s.w) ∧
      (s.h ≤ s.w ∧ s.cropSz = s.h ∧ s.cropY = 0 ∨
        s.w < s.h ∧ s.cropSz = s.w ∧ s.cropY + s.cropSz < s.h) := by
  have hW := s.w_pos
  have hH := s.h_pos
  have hX : s.cropX = (s.w - s.cropSz) / 2 := by
    rw [cropX, Int.tdiv_eq_ediv_of_nonneg]
    rw [cropSz]
    split_ifs <;> omega
  have hY : s.cropY = (s.h - s.cropSz) / 2 := by
    rw [cropY, Int.tdiv_eq_ediv_of_nonneg]
    rw [cropSz]
    split_ifs <;> omega
  rw [hX, hY, cropSz]
  split_ifs <;> omega

theorem cropped_iff :
    (∀ x < coverSize, ∀ y < coverSize, s.Inside (s.jpegTaps x y)) ↔ s.Large := by
  obtain ⟨hX, hY, hSize, hW, hH⟩ := s.crop_cases
  rw [Large]
  simp only [Inside, jpegTaps]
  rw [forall_taps, axis_inside_iff (by decide) hX hSize (by omega),
    axis_inside_iff (by decide) hY hSize (by omega)]
  omega

/-- A WebP image is scaled like a JPEG. -/
theorem webp_iff :
    (∀ x < coverSize, ∀ y < coverSize, ∀ t ∈ s.webpTaps x y, s.Inside t) ↔
      s.w ≤ 1 ∨ s.h ≤ 1 ∨ s.Large := by
  by_cases hThin : s.w ≤ 1 ∨ s.h ≤ 1
  · simp only [webpTaps, if_pos hThin]
    refine iff_of_true (by simp) ?_
    tauto
  · simp only [webpTaps, if_neg hThin, Option.mem_some_iff, forall_eq']
    have hCropped := s.cropped_iff
    simp only [jpegTaps] at hCropped
    rw [hCropped]
    tauto

theorem setCover_iff :
    (∀ x < coverSize, ∀ y < coverSize, ∀ t ∈ s.setCoverTaps x y, s.Inside t) ↔ s.Large := by
  by_cases hSame : s.w = coverSize ∧ s.h = coverSize
  · simp only [setCoverTaps, if_pos hSame]
    refine iff_of_true (by simp) ⟨hSame.1.ge, hSame.2.ge⟩
  · simp only [setCoverTaps, if_neg hSame, Option.mem_some_iff, forall_eq', Inside]
    rw [forall_taps, wholeAxis_inside_iff (by decide) s.w_pos,
      wholeAxis_inside_iff (by decide) s.h_pos, Large]

end ImageSize

/-- The size of an image of which `lodepng_decode32` could store four bytes a pixel. -/
structure PngSize extends ImageSize where
  addressable : 4 * (w * h) < 4294967296

theorem PngSize.taps_eq (s : PngSize) {x y : Nat} (hx : x < coverSize) (hy : y < coverSize) :
    s.pngTaps x y = s.jpegTaps x y := by
  obtain ⟨hX, hY, hSize, hW, hH⟩ := s.crop_cases
  have hWide : s.w < 1073741824 := by nlinarith [s.addressable, s.w_pos, s.h_pos]
  have hHigh : s.h < 1073741824 := by nlinarith [s.addressable, s.w_pos, s.h_pos]
  have hBelow {crop dim : Int} {k : Nat} (hk : k < coverSize) (hFits : crop + s.cropSz ≤ dim)
      (hCrop : 0 ≤ crop) (hDim : dim < 1073741824) :
      truncate (coordinate crop s.cropSz coverSize k) < 2147483648 := by
    have hLe := @coordinate_le crop s.cropSz coverSize k hSize hk
    have hStep : (0 : ℚ) < (s.cropSz : ℚ) / coverSize :=
      div_pos (by exact_mod_cast hSize) (by norm_num [coverSize])
    have hFitsQ : (crop : ℚ) + s.cropSz ≤ dim := by exact_mod_cast hFits
    rw [truncate_eq_floor (coordinate_nonneg hCrop hSize k)]
    have hFloor : ⌊coordinate crop s.cropSz coverSize k⌋ < dim := by
      rw [Int.floor_lt]
      linarith
    omega
  have hColumn := clampUnsigned_eq (truncate_nonneg (coordinate_nonneg (n := coverSize) hX hSize x))
    (hBelow hx (by omega) hX hWide) s.w_pos (by omega)
  have hRow := clampUnsigned_eq (truncate_nonneg (coordinate_nonneg (n := coverSize) hY hSize y))
    (hBelow hy (by omega) hY hHigh) s.h_pos (by omega)
  simp only [ImageSize.pngTaps, ImageSize.jpegTaps, tapAt, hColumn, hRow]

theorem PngSize.png_iff (s : PngSize) :
    (∀ x < coverSize, ∀ y < coverSize, s.Inside (s.pngTaps x y)) ↔ s.Large := by
  rw [← s.cropped_iff]
  refine forall₂_congr fun x hx => forall₂_congr fun y hy => ?_
  rw [s.taps_eq hx hy]

/-- **The four loops** read inside the image, with weights that are shares, exactly where
they scale it down or leave its size; a WebP image with one column or row is refused. -/
theorem coverScale_iff (s : ImageSize) (png : PngSize) :
    ((∀ x < coverSize, ∀ y < coverSize, s.Inside (s.jpegTaps x y)) ↔ s.Large) ∧
    ((∀ x < coverSize, ∀ y < coverSize, png.Inside (png.pngTaps x y)) ↔ png.Large) ∧
    ((∀ x < coverSize, ∀ y < coverSize, ∀ t ∈ s.webpTaps x y, s.Inside t) ↔
      s.w ≤ 1 ∨ s.h ≤ 1 ∨ s.Large) ∧
    ((∀ x < coverSize, ∀ y < coverSize, ∀ t ∈ s.setCoverTaps x y, s.Inside t) ↔ s.Large) :=
  ⟨s.cropped_iff, png.png_iff, s.webp_iff, s.setCover_iff⟩

/-- An image of 100 by 100 pixels is enlarged, and its last column gets a weight above one. -/
theorem smallCover_extrapolated :
    ¬∀ (s : ImageSize) (png : PngSize),
      (∀ x < coverSize, ∀ y < coverSize, s.Inside (s.jpegTaps x y)) ∧
      (∀ x < coverSize, ∀ y < coverSize, png.Inside (png.pngTaps x y)) ∧
      (∀ x < coverSize, ∀ y < coverSize, ∀ t ∈ s.webpTaps x y, s.Inside t) ∧
      ∀ x < coverSize, ∀ y < coverSize, ∀ t ∈ s.setCoverTaps x y, s.Inside t := by
  intro hAll
  let small : ImageSize := ⟨100, 100, by decide, by decide⟩
  have hJpeg := (hAll small ⟨small, by decide⟩).1
  exact absurd (small.cropped_iff.1 hJpeg).1 (by decide)

end EspMiplay.Dlna
