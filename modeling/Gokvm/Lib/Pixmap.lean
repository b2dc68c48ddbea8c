import Gokvm.Lib.Store

/-! # Pixel maps

Rasters stored row by row with any number of bytes to a pixel. Two ways of drawing are
given, each with what it leaves in every pixel: writing a piece of each of some
consecutive rows, and writing the pixels of a rectangle one at a time.
-/

namespace Gokvm.Lib

open Nat

/-- Where byte `k` of the pixel in column `x` and row `y` is stored. -/
def spot (depth width x y k : Nat) : Nat := (y * width + x) * depth + k

section Blocks

variable {depth k : Nat} (byte : k < depth)

include byte

theorem block_lt_iff (p n : Nat) : p * depth + k < n * depth ↔ p < n := by
  constructor
  · intro before
    by_contra after
    have := Nat.mul_le_mul_right depth (Nat.le_of_not_lt after)
    omega
  · intro before
    have next : (p + 1) * depth ≤ n * depth := Nat.mul_le_mul_right depth before
    rw [succ_mul] at next
    omega

theorem le_block_iff (n p : Nat) : n * depth ≤ p * depth + k ↔ n ≤ p := by
  rw [← not_lt, block_lt_iff byte, not_lt]

theorem block_inj {p q j : Nat} (other : j < depth) (same : p * depth + k = q * depth + j) :
    p = q ∧ k = j := by
  have low : p ≤ q := (le_block_iff other p q).mp (by omega)
  have high : q ≤ p := (le_block_iff byte q p).mp (by omega)
  obtain rfl : p = q := le_antisymm low high
  exact ⟨rfl, add_left_cancel same⟩

end Blocks

variable {width x height depth : Nat}

theorem pixel_in_row {left span : Nat} (y row : Nat) (inside : left + span ≤ width) (column : x < width) :
    (row * width + left ≤ y * width + x ∧ y * width + x < row * width + left + span) ↔
      (y = row ∧ left ≤ x ∧ x < left + span) := by
  rcases lt_trichotomy y row with above | same | below
  · have turn : (y + 1) * width ≤ row * width := Nat.mul_le_mul_right width above
    rw [succ_mul] at turn
    omega
  · subst same
    omega
  · have turn : (row + 1) * width ≤ y * width := Nat.mul_le_mul_right width below
    rw [succ_mul] at turn
    omega

theorem pixel_lt {y : Nat} (column : x < width) (row : y < height) :
    y * width + x < width * height := by
  have rows : (y + 1) * width ≤ height * width := Nat.mul_le_mul_right width row
  rw [succ_mul, Nat.mul_comm height width] at rows
  omega

theorem spot_in_row {left span k : Nat} (y row : Nat) (inside : left + span ≤ width) (column : x < width)
    (byte : k < depth) :
    (spot depth width left row 0 ≤ spot depth width x y k ∧
      spot depth width x y k < spot depth width left row 0 + span * depth) ↔
      (y = row ∧ left ≤ x ∧ x < left + span) := by
  unfold spot
  rw [add_zero, ← add_mul, le_block_iff byte, block_lt_iff byte]
  exact pixel_in_row y row inside column

theorem spot_lt {y k : Nat} (column : x < width) (row : y < height) (byte : k < depth) : spot depth width x y k < width * height * depth :=
  (block_lt_iff byte _ _).mpr (pixel_lt column row)

theorem spot_of_lt {i : Nat} (inside : i < width * height * depth) :
    ∃ x y k, x < width ∧ y < height ∧ k < depth ∧ i = spot depth width x y k := by
  have deep : 0 < depth := Nat.pos_of_mul_pos_left (Nat.zero_lt_of_lt inside)
  have pixel : i / depth < width * height := Nat.div_lt_of_lt_mul (by rwa [Nat.mul_comm])
  have positive : 0 < width := Nat.pos_of_mul_pos_right (Nat.zero_lt_of_lt pixel)
  refine ⟨i / depth % width, i / depth / width, i % depth, mod_lt _ positive, ?_,
    mod_lt _ deep, ?_⟩
  · exact Nat.div_lt_of_lt_mul pixel
  · unfold spot
    rw [div_add_mod', div_add_mod']

theorem eq_of_spots {a b : Store} (sizeA : a.size = width * height * depth)
    (sizeB : b.size = width * height * depth) (same : ∀ x y k, x < width → y < height → k < depth →
      a.byte (spot depth width x y k) = b.byte (spot depth width x y k)) : a = b := by
  apply Store.ext
  · rw [sizeA, sizeB]
  · funext i
    by_cases inside : i < width * height * depth
    · obtain ⟨x, y, k, column, row, byte, rfl⟩ := spot_of_lt inside
      exact same x y k column row byte
    · rw [a.beyond i (by omega), b.beyond i (by omega)]

/-! ## Row pieces -/

/-- Writes a piece of each of `count` rows, from the row `top` on. -/
def patch (depth : Nat) (dst : Store) (width left : Nat) (row : Nat → Bytes) (top : Nat) : Nat → Store
  | 0 => dst
  | count + 1 =>
    (patch depth dst width left row top count).write (spot depth width left (top + count) 0)
      (row (top + count))

section Patch

variable {depth width left span : Nat} {row : Nat → Bytes} {top count : Nat}

/-- A patch leaves the rows in their pixels and every other pixel as it was. -/
theorem byte_patch (dst : Store)
    (spans : ∀ y, top ≤ y → y < top + count → (row y).length = span * depth)
    (inside : left + span ≤ width) {x y k : Nat} (column : x < width) (byte : k < depth) :
    (patch depth dst width left row top count).byte (spot depth width x y k) =
      if (top ≤ y ∧ y < top + count) ∧ left ≤ x ∧ x < left + span then
        (row y).getD ((x - left) * depth + k) 0
      else dst.byte (spot depth width x y k) := by
  induction count with
  | zero => rw [if_neg (by omega)]; rfl
  | succ count ih =>
    rw [patch, Store.byte_write, spans _ (by omega) (by omega)]
    have inRow := spot_in_row y (top + count) inside column byte
    by_cases here : y = top + count ∧ left ≤ x ∧ x < left + span
    · rw [if_pos (inRow.mpr here), if_pos (by omega)]
      obtain ⟨rfl, low, high⟩ := here
      congr 1
      have ahead : ((top + count) * width + x) * depth =
          ((top + count) * width + left) * depth + (x - left) * depth := by
        rw [← add_mul]
        congr 1
        omega
      unfold spot
      omega
    · rw [if_neg (fun within => here (inRow.mp within)), ih (fun y low high => spans y low (by omega))]
      by_cases earlier : (top ≤ y ∧ y < top + count) ∧ left ≤ x ∧ x < left + span
      · rw [if_pos earlier, if_pos (by omega)]
      · rw [if_neg earlier, if_neg (by omega)]

/-- A patch inside a raster keeps its size. -/
theorem size_patch (dst : Store) {height : Nat}
    (spans : ∀ y, top ≤ y → y < top + count → (row y).length = span * depth)
    (inside : left + span ≤ width) (size : dst.size = width * height * depth)
    (rows : top + count ≤ height) :
    (patch depth dst width left row top count).size = width * height * depth := by
  induction count with
  | zero => exact size
  | succ count ih =>
    have before := ih (fun y low high => spans y low (by omega)) (by omega)
    rw [patch, Store.size_write_inside, before]
    rw [before, spans _ (by omega) (by omega)]
    unfold spot
    rw [add_zero, ← add_mul]
    apply Nat.mul_le_mul_right
    have lines : (top + count + 1) * width ≤ height * width := Nat.mul_le_mul_right width (by omega)
    rw [succ_mul, Nat.mul_comm height width] at lines
    omega

end Patch

/-! ## Single pixels -/

/-- Writes `span` pixels of the row `y`, from the column `left` on. -/
def plotRow (depth : Nat) (dst : Store) (width : Nat) (colour : Nat → Nat → Bytes) (y left : Nat) :
    Nat → Store
  | 0 => dst
  | span + 1 =>
    (plotRow depth dst width colour y left span).write (spot depth width (left + span) y 0)
      (colour (left + span) y)

/-- Writes the pixels of a rectangle row by row. -/
def plot (depth : Nat) (dst : Store) (width : Nat) (colour : Nat → Nat → Bytes) (left span top : Nat) :
    Nat → Store
  | 0 => dst
  | count + 1 =>
    plotRow depth (plot depth dst width colour left span top count) width colour (top + count) left span

section Plot

variable {depth width left span : Nat} {colour : Nat → Nat → Bytes} {top count : Nat}

section

variable (dst : Store) (narrow : ∀ x y, (colour x y).length ≤ depth) (inside : left + span ≤ width)
include narrow inside

/-- A pixel of fewer bytes than its place leaves the last bytes as they were. -/
theorem byte_plotRow {row : Nat} {x y k : Nat} (column : x < width) (byte : k < depth) :
    (plotRow depth dst width colour row left span).byte (spot depth width x y k) =
      if y = row ∧ (left ≤ x ∧ x < left + span) ∧ k < (colour x y).length then (colour x y).getD k 0
      else dst.byte (spot depth width x y k) := by
  induction span with
  | zero => rw [if_neg (by omega)]; rfl
  | succ span ih =>
    rw [plotRow, Store.byte_write, ih (by omega)]
    have last : left + span + 1 ≤ width := inside
    have inPixel := spot_in_row y row last column byte
    rw [one_mul] at inPixel
    have short := narrow (left + span) row
    by_cases here : y = row ∧ x = left + span
    · obtain ⟨rfl, rfl⟩ := here
      have start : spot depth width (left + span) y k = spot depth width (left + span) y 0 + k := rfl
      rw [start]
      by_cases written : k < (colour (left + span) y).length
      · rw [if_pos (by omega), if_pos (by omega), Nat.add_sub_cancel_left]
      · rw [if_neg (by omega), if_neg (by omega), if_neg (by omega)]
    · rw [if_neg (fun within => here (by
        have := inPixel.mp ⟨within.1, by omega⟩
        omega))]
      by_cases earlier : y = row ∧ (left ≤ x ∧ x < left + span) ∧ k < (colour x y).length
      · rw [if_pos earlier, if_pos (by omega)]
      · rw [if_neg earlier, if_neg (by omega)]

/-- A plot leaves its colours in the pixels of the rectangle and nothing elsewhere. -/
theorem byte_plot {x y k : Nat} (column : x < width) (byte : k < depth) :
    (plot depth dst width colour left span top count).byte (spot depth width x y k) =
      if (top ≤ y ∧ y < top + count) ∧ (left ≤ x ∧ x < left + span) ∧ k < (colour x y).length then
        (colour x y).getD k 0
      else dst.byte (spot depth width x y k) := by
  induction count with
  | zero => rw [if_neg (by omega)]; rfl
  | succ count ih =>
    rw [plot, byte_plotRow _ narrow inside column byte, ih]
    by_cases here : y = top + count ∧ (left ≤ x ∧ x < left + span) ∧ k < (colour x y).length
    · rw [if_pos here, if_pos (by omega)]
    · rw [if_neg here]
      by_cases earlier :
          (top ≤ y ∧ y < top + count) ∧ (left ≤ x ∧ x < left + span) ∧ k < (colour x y).length
      · rw [if_pos earlier, if_pos (by omega)]
      · rw [if_neg earlier, if_neg (by omega)]

theorem size_plotRow {row height : Nat} (size : dst.size = width * height * depth)
    (low : row < height) :
    (plotRow depth dst width colour row left span).size = width * height * depth := by
  induction span with
  | zero => exact size
  | succ span ih =>
    have before := ih (by omega)
    rw [plotRow, Store.size_write_inside, before]
    have short := narrow (left + span) row
    have pixel : row * width + (left + span) + 1 ≤ width * height := pixel_lt (by omega) low
    have room := Nat.mul_le_mul_right depth pixel
    rw [succ_mul] at room
    rw [before]
    unfold spot
    omega

theorem size_plot {height : Nat} (size : dst.size = width * height * depth)
    (rows : top + count ≤ height) :
    (plot depth dst width colour left span top count).size = width * height * depth := by
  induction count with
  | zero => exact size
  | succ count ih => exact size_plotRow _ narrow inside (ih (by omega)) (by omega)

end

end Plot

end Gokvm.Lib
