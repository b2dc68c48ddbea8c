import Gokvm.Lib.Raster

/-! # Damage of a scaled image

The console picture is scaled to the desktop by taking the nearest pixel. Damage is in the
coordinates of the picture; `map` turns it into exactly the desktop pixels whose samples it holds,
and `align` widens it to whole blocks. Go's integers are modelled without a bound: the sides of a
picture that `validRGBA` accepts are at most the length of its buffer, and every product
multiplies one of them by a coordinate of a desktop of at most 4096 pixels.
-/

namespace Gokvm.Rdp

open Lib Rect Int

/-- A picture as `image.RGBA` has it: the buffer starts at the corner `rect.Min`. -/
structure RGBA where
  rect : Rect
  stride : Int
  pix : Bytes

def validRGBA (img : RGBA) : Bool :=
  let w := img.rect.dx
  let h := img.rect.dy
  if img.rect.Empty then false
  else if w ≤ 0 ∨ h ≤ 0 then false
  else
    decide (w ≤ (img.pix.length : Int) / 4) && decide (img.stride ≥ w * 4) &&
      decide (h - 1 ≤ ((img.pix.length : Int) - w * 4) / img.stride)

/-- Byte `c` of a pixel, with the column and the row counted from the corner. -/
def RGBA.sample (img : RGBA) (x y c : Nat) : UInt8 :=
  img.pix.getD (y * img.stride.toNat + x * 4 + c) 0

/-- The source column or row that stands for the column or row `i` of `size`. -/
def near (length size i : Nat) : Nat := i * length / size

/-- `image.Rect` orders the corners. -/
def imageRect (x0 y0 x1 y1 : Int) : Rect :=
  { minX := min x0 x1, minY := min y0 y1, maxX := max x0 x1, maxY := max y0 y1 }

def ceil (value scale divisor : Int) : Int := (value * scale + divisor - 1) / divisor

def map (rect source output : Rect) : Rect :=
  if source.Empty ∨ output.Empty then .zero
  else
    let rect := rect.inter source
    if rect.Empty then .zero
    else
      imageRect (output.minX + ceil (rect.minX - source.minX) output.dx source.dx)
        (output.minY + ceil (rect.minY - source.minY) output.dy source.dy)
        (output.minX + ceil (rect.maxX - source.minX) output.dx source.dx)
        (output.minY + ceil (rect.maxY - source.minY) output.dy source.dy)

def align (rect : Rect) (block : Int) (bounds : Rect) : Rect :=
  let rect := rect.inter bounds
  if rect.Empty ∨ block < 1 then .zero
  else
    let rect := rect.sub bounds.minX bounds.minY
    let rect : Rect :=
      { minX := rect.minX / block * block
        minY := rect.minY / block * block
        maxX := (rect.maxX + block - 1) / block * block
        maxY := (rect.maxY + block - 1) / block * block }
    (rect.add bounds.minX bounds.minY).inter bounds

/-! ## Pictures -/

/-- What the metadata of an accepted picture says about its buffer. -/
structure RGBA.Sound (img : RGBA) : Prop where
  wide : 0 < img.rect.dx
  high : 0 < img.rect.dy
  stride : img.rect.dx * 4 ≤ img.stride
  last : (img.rect.dy - 1) * img.stride + img.rect.dx * 4 ≤ img.pix.length

theorem sound_of_validRGBA {img : RGBA} (accepted : validRGBA img = true) : img.Sound := by
  simp only [validRGBA] at accepted
  split at accepted
  · cases accepted
  · split at accepted
    · cases accepted
    next sides =>
      simp only [Bool.and_eq_true, decide_eq_true_eq] at accepted
      obtain ⟨⟨fits, stride⟩, rows⟩ := accepted
      have positive : 0 < img.stride := by omega
      have room := (Int.le_ediv_iff_mul_le positive).mp rows
      exact { wide := by omega, high := by omega, stride, last := by omega }

theorem near_lt {length size i : Nat} (some : 0 < length) (inside : i < size) :
    near length size i < length := by
  apply Nat.div_lt_of_lt_mul
  exact Nat.mul_lt_mul_of_pos_right inside some

/-! ## Scaled damage -/

variable {scale divisor : Int}

theorem ceil_le_iff (value : Int) (scales : 0 < scale) (divides : 0 < divisor) (i : Int) : ceil value scale divisor ≤ i ↔ value ≤ i * divisor / scale := by
  have below : ceil value scale divisor ≤ i ↔ value * scale ≤ i * divisor := by
    have bound : (value * scale + divisor - 1) / divisor < i + 1 ↔
        value * scale + divisor - 1 < (i + 1) * divisor := Int.ediv_lt_iff_lt_mul divides
    rw [add_mul, one_mul] at bound
    unfold ceil
    omega
  rw [below, Int.le_ediv_iff_mul_le scales]

theorem between_ceil (low high : Int) (scales : 0 < scale) (divides : 0 < divisor) (i : Int) :
    (ceil low scale divisor ≤ i ∧ i < ceil high scale divisor) ↔
      (low ≤ i * divisor / scale ∧ i * divisor / scale < high) := by
  have first := ceil_le_iff low scales divides i
  have last := ceil_le_iff high scales divides i
  omega

theorem ceil_mono {low high : Int} (scales : 0 < scale) (divides : 0 < divisor) (ordered : low ≤ high) : ceil low scale divisor ≤ ceil high scale divisor := by
  apply Int.ediv_le_ediv divides
  have := Int.mul_le_mul_of_nonneg_right ordered (Int.le_of_lt scales)
  omega

theorem ceil_zero (scale : Int) (divides : 0 < divisor) : ceil 0 scale divisor = 0 := by
  unfold ceil
  rw [zero_mul]
  exact ediv_eq_zero_of_lt (by omega) (by omega)

theorem ceil_self (scale : Int) (divides : 0 < divisor) : ceil divisor scale divisor = scale := by
  unfold ceil
  rw [show divisor * scale + divisor - 1 = divisor - 1 + divisor * scale by omega,
    add_mul_ediv_left _ _ (by omega), ediv_eq_zero_of_lt (by omega) (by omega), zero_add]

theorem ceil_range {low high : Int} (scales : 0 < scale) (divides : 0 < divisor) (start : 0 ≤ low)
    (ordered : low ≤ high) (stop : high ≤ divisor) :
    0 ≤ ceil low scale divisor ∧ ceil low scale divisor ≤ ceil high scale divisor ∧
      ceil high scale divisor ≤ scale :=
  ⟨ceil_zero scale divides ▸ ceil_mono scales divides start, ceil_mono scales divides ordered,
    (ceil_mono scales divides stop).trans_eq (ceil_self scale divides)⟩

section Map

variable {source output : Rect} (wide : 0 < source.dx) (high : 0 < source.dy)
  (columns : 0 < output.dx) (rows : 0 < output.dy)

include wide high columns rows

theorem map_eq (rect : Rect) : map rect source output =
    if (rect.inter source).Empty then .zero
    else
      { minX := output.minX + ceil ((rect.inter source).minX - source.minX) output.dx source.dx
        minY := output.minY + ceil ((rect.inter source).minY - source.minY) output.dy source.dy
        maxX := output.minX + ceil ((rect.inter source).maxX - source.minX) output.dx source.dx
        maxY := output.minY + ceil ((rect.inter source).maxY - source.minY) output.dy source.dy } := by
  have some : ¬ (source.Empty ∨ output.Empty) := by
    unfold dx at wide columns
    unfold dy at high rows
    unfold Rect.Empty
    omega
  simp only [map, if_neg some]
  split
  · rfl
  next filled =>
    unfold Rect.Empty at filled
    have acrossX : ceil ((rect.inter source).minX - source.minX) output.dx source.dx ≤
        ceil ((rect.inter source).maxX - source.minX) output.dx source.dx :=
      ceil_mono columns wide (by omega)
    have acrossY : ceil ((rect.inter source).minY - source.minY) output.dy source.dy ≤
        ceil ((rect.inter source).maxY - source.minY) output.dy source.dy :=
      ceil_mono rows high (by omega)
    simp only [imageRect, mk.injEq]
    omega

/-- Damage maps to exactly the output pixels whose samples it holds. -/
theorem contains_map_iff (rect : Rect) (x y : Int) : (map rect source output).Contains x y ↔
    (rect.inter source).Contains ((x - output.minX) * source.dx / output.dx + source.minX)
      ((y - output.minY) * source.dy / output.dy + source.minY) := by
  rw [map_eq wide high columns rows]
  split
  next none =>
    rw [inter_eq_zero none]
    simp only [Rect.Contains, zero]
    omega
  · have acrossX := between_ceil ((rect.inter source).minX - source.minX)
      ((rect.inter source).maxX - source.minX) columns wide (x - output.minX)
    have acrossY := between_ceil ((rect.inter source).minY - source.minY)
      ((rect.inter source).maxY - source.minY) rows high (y - output.minY)
    simp only [Rect.Contains]
    omega

end Map

theorem whole_sides (width height : Nat) :
    (whole width height).dx = width ∧ (whole width height).dy = height ∧
      (whole width height).minX = 0 ∧ (whole width height).minY = 0 :=
  ⟨sub_zero _, sub_zero _, rfl, rfl⟩

section Whole

variable {source : Rect} {width height : Nat} (wide : 0 < source.dx) (high : 0 < source.dy)
  (columns : 0 < width) (rows : 0 < height)

include wide high columns rows

theorem contains_map (rect : Rect) {x y : Nat} (column : x < width) (row : y < height) :
    (map rect source (.whole width height)).Contains x y ↔
      rect.Contains (source.minX + near source.dx.toNat width x)
        (source.minY + near source.dy.toNat height y) := by
  have sampleX : (near source.dx.toNat width x : Int) = x * source.dx / width := by
    simp only [near, Nat.cast_mul, natCast_ediv, toNat_of_nonneg (Int.le_of_lt wide)]
  have sampleY : (near source.dy.toNat height y : Int) = y * source.dy / height := by
    simp only [near, Nat.cast_mul, natCast_ediv, toNat_of_nonneg (Int.le_of_lt high)]
  have inX : near source.dx.toNat width x < source.dx.toNat := near_lt (by omega) column
  have inY : near source.dy.toNat height y < source.dy.toNat := near_lt (by omega) row
  obtain ⟨sideX, sideY, cornerX, cornerY⟩ := whole_sides width height
  rw [contains_map_iff wide high (by omega) (by omega), sideX, sideY, cornerX, cornerY, sub_zero,
    sub_zero, ← sampleX, ← sampleY, contains_inter]
  -- The sample is always in the source, so it is in the common part when it is in the damage.
  simp only [dx, dy, Rect.Contains] at wide high inX inY ⊢
  omega

theorem map_within (rect : Rect) : (map rect source (.whole width height)).Within width height := by
  obtain ⟨sideX, sideY, cornerX, cornerY⟩ := whole_sides width height
  have scalesX : 0 < (whole width height).dx := by omega
  have scalesY : 0 < (whole width height).dy := by omega
  rw [map_eq wide high scalesX scalesY]
  split
  · exact within_zero width height
  next some =>
    obtain ⟨left, right, top, bottom⟩ := inter_inside rect source some
    unfold Rect.Empty at some
    have acrossX := ceil_range scalesX wide (sub_nonneg.mpr left) (sub_le_sub_right (by omega) _)
      (sub_le_sub_right right _)
    have acrossY := ceil_range scalesY high (sub_nonneg.mpr top) (sub_le_sub_right (by omega) _)
      (sub_le_sub_right bottom _)
    constructor <;> simp only <;> omega

end Whole

/-! ## Scaled damage in machine integers -/

/-- The value that a 64-bit integer of Go has after an operation. -/
def int64 (n : Int) : Int := n.bmod (2 ^ 64)

def ceil64 (value scale divisor : Int) : Int := (int64 (value * scale + divisor - 1)).tdiv divisor

/-- `map` as the source computes it, with integers that wrap around. -/
def map64 (rect source output : Rect) : Rect :=
  if source.Empty ∨ output.Empty then .zero
  else
    let rect := rect.inter source
    let mapX x := int64 (output.minX + ceil64 (int64 (x - source.minX)) (int64 output.dx) (int64 source.dx))
    let mapY y := int64 (output.minY + ceil64 (int64 (y - source.minY)) (int64 output.dy) (int64 source.dy))
    if rect.Empty then .zero else imageRect (mapX rect.minX) (mapY rect.minY) (mapX rect.maxX) (mapY rect.maxY)

/-- Coordinates between -2^30 and 2^30. -/
structure Modest (r : Rect) : Prop where
  left : -2 ^ 30 ≤ r.minX
  top : -2 ^ 30 ≤ r.minY
  right : r.maxX ≤ 2 ^ 30
  bottom : r.maxY ≤ 2 ^ 30

theorem int64_eq {n : Int} (low : -2 ^ 63 ≤ n) (high : n < 2 ^ 63) : int64 n = n :=
  bmod_eq_of_le (by omega) (by omega)

/-- One axis: the position in an output that starts at `corner`. -/
theorem axis64_eq {value corner : Int} (scales : 0 < scale) (divides : 0 < divisor) (start : 0 ≤ value)
    (stop : value ≤ divisor) (output : scale ≤ 2 ^ 31) (source : divisor ≤ 2 ^ 31)
    (low : -2 ^ 30 ≤ corner) (high : corner ≤ 2 ^ 30) :
    int64 (corner + ceil64 (int64 value) (int64 scale) (int64 divisor)) = corner + ceil value scale divisor := by
  have product : value * scale ≤ 2 ^ 31 * 2 ^ 31 := mul_le_mul (by omega) output (by omega) (by omega)
  have positive : 0 ≤ value * scale := mul_nonneg start (by omega)
  obtain ⟨below, -, above⟩ := ceil_range scales divides start le_rfl stop
  have same : ceil64 value scale divisor = ceil value scale divisor := by
    rw [ceil64, int64_eq (by omega) (by omega), tdiv_eq_ediv_of_nonneg (by omega), ceil]
  rw [int64_eq (n := value) (by omega) (by omega), int64_eq (n := scale) (by omega) (by omega),
    int64_eq (n := divisor) (by omega) (by omega), same, int64_eq (by omega) (by omega)]

theorem map64_eq {source output : Rect} (filled : ¬ source.Empty) (shown : ¬ output.Empty)
    (sourceModest : Modest source) (outputModest : Modest output) (rect : Rect) :
    map64 rect source output = map rect source output := by
  obtain ⟨left, top, right, bottom⟩ := sourceModest
  obtain ⟨left', top', right', bottom'⟩ := outputModest
  have some : ¬ (source.Empty ∨ output.Empty) := not_or.mpr ⟨filled, shown⟩
  simp only [map64, map, if_neg some]
  unfold Rect.Empty at filled shown
  split
  · rfl
  next common =>
    obtain ⟨fromX, toX, fromY, toY⟩ := inter_inside rect source common
    unfold Rect.Empty at common
    have sides : source.dx = source.maxX - source.minX ∧ source.dy = source.maxY - source.minY ∧
      output.dx = output.maxX - output.minX ∧ output.dy = output.maxY - output.minY := ⟨rfl, rfl, rfl, rfl⟩
    congr 1 <;> apply axis64_eq <;> omega

/-- An output pixel is in the mapped damage exactly when its nearest sample is in the damage. -/
theorem scaled_damage_exact {source output : Rect} (filled : ¬ source.Empty) (shown : ¬ output.Empty)
    (sourceModest : Modest source) (outputModest : Modest output) (rect : Rect) (x y : Int) :
    (map64 rect source output).Contains x y ↔
      (rect.inter source).Contains ((x - output.minX) * source.dx / output.dx + source.minX)
        ((y - output.minY) * source.dy / output.dy + source.minY) := by
  rw [map64_eq filled shown sourceModest outputModest]
  unfold Rect.Empty at filled shown
  apply contains_map_iff <;> simp only [dx, dy] <;> omega

/-- The middle column of three is scaled up to three of eight. -/
theorem scaled_damage_column :
    let damage := map64 ⟨-2, 4, -1, 7⟩ ⟨-3, 4, 0, 8⟩ ⟨10, -1, 18, 1⟩
    damage.Contains 13 0 ∧ damage.Contains 15 0 ∧ ¬ damage.Contains 16 0 := by
  have sampled := @scaled_damage_exact ⟨-3, 4, 0, 8⟩ ⟨10, -1, 18, 1⟩ (by decide) (by decide)
    (by constructor <;> decide) (by constructor <;> decide) ⟨-2, 4, -1, 7⟩
  refine ⟨(sampled 13 0).mpr (by decide), (sampled 15 0).mpr (by decide), fun inside => ?_⟩
  exact absurd ((sampled 16 0).mp inside) (by decide)

/-! ## Whole blocks -/

/-- Lies on the grid of two by two blocks. -/
structure Paired (r : Rect) : Prop where
  left : r.minX % 2 = 0
  top : r.minY % 2 = 0
  right : r.maxX % 2 = 0
  bottom : r.maxY % 2 = 0

/-- Damage widened to pairs of columns and rows of a desktop of even size. -/
theorem align_two {rect : Rect} {width height : Nat} (within : rect.Within width height)
    (evenWidth : width % 2 = 0) (evenHeight : height % 2 = 0) :
    (align rect 2 (.whole width height)).Within width height ∧
      Paired (align rect 2 (.whole width height)) ∧
      ∀ x y : Int, rect.Contains x y → (align rect 2 (.whole width height)).Contains x y := by
  obtain ⟨left, top, wide, high, right, bottom⟩ := within
  refine ⟨?_, ?_⟩
  · simp only [align]
    split
    · exact within_zero width height
    · exact inter_within _ width height
  · by_cases none : rect.Empty
    · have empty := inter_of_empty none (.whole width height)
      simp only [align, if_pos (Or.inl empty : _ ∨ (2 : Int) < 1)]
      refine ⟨{ left := rfl, top := rfl, right := rfl, bottom := rfl }, fun x y inside => ?_⟩
      exact absurd none (not_empty_of_contains inside)
    · have some : ¬ (rect.Empty ∨ (2 : Int) < 1) := not_or.mpr ⟨none, by omega⟩
      have same := inter_eq_left (s := .whole width height) none left top right bottom
      unfold Rect.Empty at none
      have widened : align rect 2 (.whole width height) =
          { minX := rect.minX / 2 * 2, minY := rect.minY / 2 * 2
            maxX := (rect.maxX + 2 - 1) / 2 * 2, maxY := (rect.maxY + 2 - 1) / 2 * 2 } := by
        simp only [align, same, if_neg some]
        simp only [whole, sub, add, sub_zero, add_zero]
        apply inter_eq_left <;> simp only [Rect.Empty] <;> omega
      rw [widened]
      refine ⟨?_, fun x y inside => ?_⟩
      · constructor <;> simp only <;> omega
      · simp only [Rect.Contains] at inside ⊢
        omega

/-! ## What damage has to say -/

/-- Every pixel whose colour differs between two pictures lies in one of the rectangles. -/
def Covers (regions : List Rect) (old new : RGBA) : Prop :=
  ∀ x y c : Nat, x < new.rect.dx → y < new.rect.dy → c < 3 → old.sample x y c ≠ new.sample x y c →
    ∃ region ∈ regions, region.Contains (new.rect.minX + x) (new.rect.minY + y)

/-- A damage list tells what changed since a picture of the same rectangle; no list stands for all
    of it. -/
def Truthful (regions : Option (List Rect)) (last : Option RGBA) (img : RGBA) : Prop :=
  ∀ rects old, regions = some rects → last = some old → old.rect = img.rect → Covers rects old img

/-- A desktop pixel outside the mapped damage has the colour that it had. -/
theorem Covers.sample_eq {rects : List Rect} {old new : RGBA} (covers : Covers rects old new)
    (sound : new.Sound) {width height x y c : Nat} (column : x < width) (row : y < height)
    (colour : c < 3)
    (outside : ∀ rect ∈ rects, ¬ (map rect new.rect (.whole width height)).Contains x y) :
    old.sample (near new.rect.dx.toNat width x) (near new.rect.dy.toNat height y) c =
      new.sample (near new.rect.dx.toNat width x) (near new.rect.dy.toNat height y) c := by
  obtain ⟨wide, high, _, _⟩ := sound
  by_contra differ
  have inX : near new.rect.dx.toNat width x < new.rect.dx.toNat := near_lt (by omega) column
  have inY : near new.rect.dy.toNat height y < new.rect.dy.toNat := near_lt (by omega) row
  obtain ⟨rect, member, inside⟩ := covers _ _ c (by omega) (by omega) colour differ
  exact outside rect member
    ((contains_map wide high (by omega) (by omega) rect column row).mpr inside)

end Gokvm.Rdp
