import Gokvm.Lib.Pixmap

/-! # Rectangles and rasters

Half-open rectangles with integer corners, and rasters of four-byte pixels stored row by
row. A blit writes one piece of each of some consecutive rows; what it leaves in every
pixel is stated pixel by pixel.
-/

namespace Gokvm.Lib

open List

/-! ## Rectangles -/

structure Rect where
  minX : Int
  minY : Int
  maxX : Int
  maxY : Int
deriving DecidableEq

namespace Rect

def zero : Rect := { minX := 0, minY := 0, maxX := 0, maxY := 0 }

def whole (width height : Int) : Rect := { minX := 0, minY := 0, maxX := width, maxY := height }

def dx (r : Rect) : Int := r.maxX - r.minX

def dy (r : Rect) : Int := r.maxY - r.minY

def Empty (r : Rect) : Prop := r.maxX ≤ r.minX ∨ r.maxY ≤ r.minY

instance (r : Rect) : Decidable r.Empty := inferInstanceAs (Decidable (_ ∨ _))

def Contains (r : Rect) (x y : Int) : Prop := r.minX ≤ x ∧ x < r.maxX ∧ r.minY ≤ y ∧ y < r.maxY

instance (r : Rect) (x y : Int) : Decidable (r.Contains x y) :=
  inferInstanceAs (Decidable (_ ∧ _ ∧ _ ∧ _))

/-- The common part; the zero rectangle when there is none. -/
def inter (r s : Rect) : Rect :=
  let common : Rect :=
    { minX := max r.minX s.minX, minY := max r.minY s.minY
      maxX := min r.maxX s.maxX, maxY := min r.maxY s.maxY }
  if common.Empty then zero else common

/-- The rectangle seen from another origin. -/
def sub (r : Rect) (x y : Int) : Rect :=
  { minX := r.minX - x, minY := r.minY - y, maxX := r.maxX - x, maxY := r.maxY - y }

/-- Undoes `sub`. -/
def add (r : Rect) (x y : Int) : Rect :=
  { minX := r.minX + x, minY := r.minY + y, maxX := r.maxX + x, maxY := r.maxY + y }

theorem contains_inter (r s : Rect) (x y : Int) :
    (r.inter s).Contains x y ↔ r.Contains x y ∧ s.Contains x y := by
  simp only [inter]
  split
  next none =>
    simp only [Empty] at none
    simp only [Contains, zero]
    omega
  · simp only [Contains]
    omega

variable {r s : Rect}

theorem not_empty_of_contains {x y : Int} (inside : r.Contains x y) : ¬ r.Empty := by
  unfold Contains at inside
  unfold Empty
  omega

theorem contains_corners (some : ¬ r.Empty) :
    r.Contains r.minX r.minY ∧ r.Contains (r.maxX - 1) (r.maxY - 1) := by
  unfold Empty at some
  unfold Contains
  omega

theorem toNat_extent (some : ¬ r.Empty) :
    (r.dx.toNat : Int) = r.dx ∧ (r.dy.toNat : Int) = r.dy := by
  unfold Empty at some
  unfold dx dy
  omega

theorem dx_sub (r : Rect) (x y : Int) : (r.sub x y).dx = r.dx := sub_sub_sub_cancel_right ..

theorem dy_sub (r : Rect) (x y : Int) : (r.sub x y).dy = r.dy := sub_sub_sub_cancel_right ..

theorem contains_sub (r : Rect) (ox oy x y : Int) :
    (r.sub ox oy).Contains x y ↔ r.Contains (x + ox) (y + oy) := by
  simp only [sub, Contains]
  omega

theorem inter_eq_zero (none : (r.inter s).Empty) : r.inter s = zero := by
  simp only [inter] at none ⊢
  split
  · rfl
  next some =>
    rw [if_neg some] at none
    exact absurd none some

theorem inter_of_empty (none : r.Empty) (s : Rect) : (r.inter s).Empty := by
  by_contra some
  obtain ⟨corner, _⟩ := contains_corners some
  exact not_empty_of_contains ((contains_inter r s _ _).mp corner).1 none

theorem inter_eq_left (some : ¬ r.Empty) (left : s.minX ≤ r.minX) (top : s.minY ≤ r.minY)
    (right : r.maxX ≤ s.maxX) (bottom : r.maxY ≤ s.maxY) : r.inter s = r := by
  simp only [inter, max_eq_left left, max_eq_left top, min_eq_left right, min_eq_left bottom]
  rw [if_neg some]

theorem inter_inside (r s : Rect) (some : ¬ (r.inter s).Empty) :
    s.minX ≤ (r.inter s).minX ∧ (r.inter s).maxX ≤ s.maxX ∧
      s.minY ≤ (r.inter s).minY ∧ (r.inter s).maxY ≤ s.maxY := by
  simp only [inter] at some ⊢
  split
  next none =>
    rw [if_pos none] at some
    exact absurd (Or.inl le_rfl) some
  · simp only
    omega

/-- Lies in a raster of the given size. -/
structure Within (r : Rect) (width height : Nat) : Prop where
  left : 0 ≤ r.minX
  top : 0 ≤ r.minY
  wide : r.minX ≤ r.maxX
  high : r.minY ≤ r.maxY
  right : r.maxX ≤ width
  bottom : r.maxY ≤ height

theorem within_whole (width height : Nat) : (whole width height).Within width height :=
  { left := le_rfl, top := le_rfl, wide := Int.natCast_nonneg width, high := Int.natCast_nonneg height
    right := le_rfl, bottom := le_rfl }

theorem within_zero (width height : Nat) : zero.Within width height :=
  { left := le_rfl, top := le_rfl, wide := le_rfl, high := le_rfl
    right := Int.natCast_nonneg width, bottom := Int.natCast_nonneg height }

theorem Within.inter {width height : Nat} (within : s.Within width height) (r : Rect) :
    (r.inter s).Within width height := by
  obtain ⟨left, top, _, _, right, bottom⟩ := within
  by_cases none : (r.inter s).Empty
  · rw [inter_eq_zero none]
    exact within_zero width height
  · obtain ⟨_, _, _, _⟩ := inter_inside r s none
    unfold Empty at none
    constructor <;> omega

theorem inter_within (r : Rect) (width height : Nat) : (r.inter (whole width height)).Within width height :=
  (within_whole width height).inter r

def Disjoint (r s : Rect) : Prop := ∀ x y, ¬ (r.Contains x y ∧ s.Contains x y)

end Rect

/-! ## Rasters -/

/-- Where byte `k` of the pixel in column `x` and row `y` is stored. -/
def place (width x y k : Nat) : Nat := (y * width + x) * 4 + k

variable {width height left span x y k : Nat} {rect : Rect} {row : Nat → Bytes}

theorem place_lt (column : x < width) (row : y < height) (byte : k < 4) :
    place width x y k < width * height * 4 :=
  spot_lt column row byte

theorem eq_of_pixels {a b : Store} (sizeA : a.size = width * height * 4)
    (sizeB : b.size = width * height * 4) (same : ∀ x y k, x < width → y < height → k < 4 →
      a.byte (place width x y k) = b.byte (place width x y k)) : a = b :=
  eq_of_spots sizeA sizeB same

/-- Writes a piece of each of `count` rows, from the row `top` on. -/
def blit (dst : Store) (width left : Nat) (row : Nat → Bytes) (top : Nat) : Nat → Store
  | 0 => dst
  | count + 1 =>
    (blit dst width left row top count).write (place width left (top + count) 0) (row (top + count))

theorem blit_eq_patch (dst : Store) (width left : Nat) (row : Nat → Bytes) (top count : Nat) :
    blit dst width left row top count = patch 4 dst width left row top count := by
  induction count with
  | zero => rfl
  | succ count ih =>
    rw [blit, patch, ih]
    rfl

theorem byte_blit (dst : Store) {top count : Nat}
    (spans : ∀ y, top ≤ y → y < top + count → (row y).length = span * 4)
    (inside : left + span ≤ width) (column : x < width) (byte : k < 4) :
    (blit dst width left row top count).byte (place width x y k) =
      if (top ≤ y ∧ y < top + count) ∧ left ≤ x ∧ x < left + span then
        (row y).getD ((x - left) * 4 + k) 0
      else dst.byte (place width x y k) := by
  rw [blit_eq_patch]
  exact byte_patch dst spans inside column byte

theorem size_blit (dst : Store) {top count : Nat}
    (spans : ∀ y, top ≤ y → y < top + count → (row y).length = span * 4)
    (inside : left + span ≤ width) (size : dst.size = width * height * 4)
    (rows : top + count ≤ height) :
    (blit dst width left row top count).size = width * height * 4 := by
  rw [blit_eq_patch]
  exact size_patch dst spans inside size rows

/-- Writing a rectangle of a raster leaves every other pixel as it was. -/
theorem byte_blit_rect (dst : Store) (within : rect.Within width height)
    (spans : ∀ y : Nat, rect.minY ≤ y → y < rect.maxY → (row y).length = rect.dx.toNat * 4)
    (column : x < width) (byte : k < 4) :
    (blit dst width rect.minX.toNat row rect.minY.toNat rect.dy.toNat).byte (place width x y k) =
      if rect.Contains x y then (row y).getD ((x - rect.minX.toNat) * 4 + k) 0
      else dst.byte (place width x y k) := by
  obtain ⟨left, top, wide, high, right, bottom⟩ := within
  have fits : rect.minX.toNat + rect.dx.toNat ≤ width := by
    unfold Rect.dx
    omega
  rw [byte_blit dst (fun y low high => spans y (by omega) (by unfold Rect.dy at high; omega)) fits column byte]
  congr 1
  apply propext
  unfold Rect.Contains Rect.dx Rect.dy
  omega

theorem size_blit_rect (dst : Store) (within : rect.Within width height)
    (spans : ∀ y : Nat, rect.minY ≤ y → y < rect.maxY → (row y).length = rect.dx.toNat * 4)
    (size : dst.size = width * height * 4) :
    (blit dst width rect.minX.toNat row rect.minY.toNat rect.dy.toNat).size = width * height * 4 := by
  obtain ⟨left, top, wide, high, right, bottom⟩ := within
  refine size_blit dst (fun y low high => spans y (by omega) (by unfold Rect.dy at high; omega)) ?_ size ?_
  · unfold Rect.dx
    omega
  · unfold Rect.dy
    omega

/-- What a loop leaves at a place that each round sets to one value or leaves alone. -/
theorem foldl_covered {σ α β : Type} (look : σ → β) (value : β) {draw : σ → α → σ} {hits : α → Prop}
    [DecidablePred hits] {items : List α}
    (draws : ∀ item ∈ items, ∀ s, look (draw s item) = if hits item then value else look s) (s : σ) :
    look (items.foldl draw s) = if ∃ item ∈ items, hits item then value else look s := by
  induction items generalizing s with
  | nil => simp
  | cons item rest ih =>
    rw [foldl_cons, ih (fun other member => draws other (mem_cons_of_mem _ member)),
      draws item mem_cons_self]
    by_cases later : ∃ other ∈ rest, hits other
    · obtain ⟨other, member, hit⟩ := later
      rw [if_pos ⟨other, member, hit⟩, if_pos ⟨other, mem_cons_of_mem _ member, hit⟩]
    · rw [if_neg later]
      by_cases first : hits item
      · rw [if_pos first, if_pos ⟨item, mem_cons_self, first⟩]
      · rw [if_neg first, if_neg]
        rintro ⟨other, member, hit⟩
        cases mem_cons.mp member with
        | inl same => exact first (same ▸ hit)
        | inr tail => exact later ⟨other, tail, hit⟩

/-- Painting rectangles one after the other with the same colours. -/
theorem byte_foldl (colour : Nat → Nat → Nat → UInt8) {paint : Store → Rect → Store}
    {rects : List Rect} (paints : ∀ rect ∈ rects, ∀ dst x y k, x < width → k < 4 →
      (paint dst rect).byte (place width x y k) =
        if rect.Contains x y then colour x y k else dst.byte (place width x y k)) (dst : Store)
    (column : x < width) (byte : k < 4) :
    (rects.foldl paint dst).byte (place width x y k) =
      if ∃ rect ∈ rects, rect.Contains x y then colour x y k else dst.byte (place width x y k) :=
  foldl_covered (fun dst : Store => dst.byte (place width x y k)) (colour x y k)
    (fun rect member dst => paints rect member dst x y k column byte) dst

theorem size_foldl {α : Type} {paint : Store → α → Store} {size : Nat} {rects : List α}
    (keeps : ∀ rect ∈ rects, ∀ dst : Store, dst.size = size → (paint dst rect).size = size)
    (dst : Store) (start : dst.size = size) : (rects.foldl paint dst).size = size := by
  induction rects generalizing dst with
  | nil => exact start
  | cons rect rest ih =>
    exact ih (fun other member => keeps other (mem_cons_of_mem _ member)) (paint dst rect)
      (keeps rect mem_cons_self dst start)

/-! ## Tiles -/

/-- How many tiles of the given side cover a length. -/
def tileCount (side length : Nat) : Nat := (length + side - 1) / side

/-- The index of the tile of a pixel; tiles are numbered row by row. -/
def tileOf (side cols x y : Nat) : Nat := y / side * cols + x / side

/-- The tiles that a rectangle inside the raster touches. -/
def touched (side cols : Nat) (rect : Rect) : List Nat :=
  let top := rect.minY.toNat / side
  let bottom := (rect.maxY.toNat - 1) / side
  let left := rect.minX.toNat / side
  let right := (rect.maxX.toNat - 1) / side
  (range' top (bottom + 1 - top)).flatMap fun y =>
    (range' left (right + 1 - left)).map fun x => y * cols + x

theorem mem_touched {side cols : Nat} (within : rect.Within width height)
    (inside : rect.Contains x y) : tileOf side cols x y ∈ touched side cols rect := by
  obtain ⟨left, top, _, _, _, _⟩ := within
  unfold Rect.Contains at inside
  have lowY : rect.minY.toNat / side ≤ y / side := Nat.div_le_div_right (by omega)
  have highY : y / side ≤ (rect.maxY.toNat - 1) / side := Nat.div_le_div_right (by omega)
  have lowX : rect.minX.toNat / side ≤ x / side := Nat.div_le_div_right (by omega)
  have highX : x / side ≤ (rect.maxX.toNat - 1) / side := Nat.div_le_div_right (by omega)
  refine mem_flatMap.mpr ⟨y / side, ?_, mem_map.mpr ⟨x / side, ?_, rfl⟩⟩
  · rw [mem_range'_1]
    omega
  · rw [mem_range'_1]
    omega

section Tiles

variable {side : Nat} (positive : 0 < side) (column : x < width) (line : y < height)

include positive

theorem lt_tileCount (column : x < width) : x / side < tileCount side width := by
  unfold tileCount
  rw [Nat.lt_iff_add_one_le, Nat.le_div_iff_mul_le positive, Nat.succ_mul]
  have := Nat.div_mul_le_self x side
  omega

include column

theorem tileOf_eq_iff (i : Nat) : tileOf side (tileCount side width) x y = i ↔
    x / side = i % tileCount side width ∧ y / side = i / tileCount side width := by
  have inside := lt_tileCount positive column
  have some : 0 < tileCount side width := Nat.zero_lt_of_lt inside
  unfold tileOf
  constructor
  · rintro rfl
    rw [Nat.mul_comm, Nat.mul_add_mod, Nat.mod_eq_of_lt inside, Nat.mul_add_div some,
      Nat.div_eq_of_lt inside, Nat.add_zero]
    exact ⟨rfl, rfl⟩
  · rintro ⟨across, down⟩
    rw [across, down]
    exact Nat.div_add_mod' i _

include line

theorem tileOf_lt : tileOf side (tileCount side width) x y < tileCount side width * tileCount side height :=
  pixel_lt (lt_tileCount positive column) (lt_tileCount positive line)

end Tiles

end Gokvm.Lib
