import Gokvm.Rdp.Bitmap

/-! # Tiles of the desktop

What each operation on packed pictures does to every pixel: a conversion sets the pixels of
its region, a commit copies those of its tile, and a client that paints a tile gets exactly
the pixels of the tile.
-/

namespace Gokvm.Rdp

open Lib List Nat

namespace Format

variable (f : Format)

/-! ## Geometry -/

def tileAt (x y : Nat) : Nat := tileOf bitmapTileSize f.columns x y

def left (index : Nat) : Nat := index % f.columns * bitmapTileSize

def top (index : Nat) : Nat := index / f.columns * bitmapTileSize

def across (index : Nat) : Nat := min bitmapTileSize (f.width - f.left index)

def down (index : Nat) : Nat := min bitmapTileSize (f.height - f.top index)

theorem tileBounds_eq (index : Nat) :
    f.tileBounds index = (f.left index, f.top index, f.across index, f.down index) := rfl

variable {f}

variable {x y k index : Nat} {pixels : Store}

theorem bytesPerPixel_pos : 0 < f.bytesPerPixel := by
  have := f.depth
  omega

theorem tileAt_lt (column : x < f.width) (row : y < f.height) : f.tileAt x y < f.tiles :=
  tileOf_lt (by decide) column row

theorem within_tile (column : x < f.width) (row : y < f.height) (index : Nat) :
    ((f.top index ≤ y ∧ y < f.top index + f.down index) ∧
      f.left index ≤ x ∧ x < f.left index + f.across index) ↔ f.tileAt x y = index := by
  have place : f.tileAt x y = index ↔ _ := tileOf_eq_iff (by decide) column index
  rw [place]
  unfold top left down across top left columns tileCount bitmapTileSize
  omega

theorem tile_inside (inside : index < f.tiles) :
    f.left index + f.across index ≤ f.width ∧ f.top index + f.down index ≤ f.height ∧
      0 < f.across index ∧ 0 < f.down index := by
  have some : 0 < f.columns := Nat.pos_of_mul_pos_right (Nat.zero_lt_of_lt inside)
  have column : index % f.columns < f.columns := Nat.mod_lt index some
  have row : index / f.columns < (f.height + bitmapTileSize - 1) / bitmapTileSize :=
    Nat.div_lt_of_lt_mul inside
  have right : index % f.columns * 64 < f.width := by
    simp only [columns, bitmapTileSize] at column ⊢
    omega
  have bottom : index / f.columns * 64 < f.height := by
    simp only [bitmapTileSize] at row
    omega
  simp only [across, down, left, top, bitmapTileSize]
  omega

/-! ## Conversion -/

/-- How many bytes of a pixel are written. -/
def written (f : Format) : Nat := if f.bytesPerPixel = 2 then 2 else 3

theorem length_colour (img : RGBA) (x y : Nat) : (f.colour img x y).length = f.written := by
  simp only [colour, pack, written]
  split <;> rfl

theorem written_le : f.written ≤ f.bytesPerPixel := by
  have := f.depth
  unfold written
  split <;> omega

theorem shade_beyond (img : RGBA) (x y : Nat) (beyond : f.written ≤ k) : f.shade img x y k = 0 := by
  rw [shade, getD_eq_getElem?_getD, getElem?_eq_none (by rwa [length_colour]), Option.getD_none]

/-- The last bytes of the pixels, which no conversion writes, are zero. -/
def Spare (f : Format) (pixels : Store) : Prop :=
  ∀ x y k, x < f.width → y < f.height → k < f.bytesPerPixel → f.written ≤ k → pixels.byte (f.offset x y k) = 0

theorem byte_scaleRegion (img : RGBA) (pixels : Store) {region : Rect}
    (within : region.Within f.width f.height) {x y k : Nat} (column : x < f.width)
    (byte : k < f.bytesPerPixel) :
    (f.scaleRegion img pixels region).byte (f.offset x y k) =
      if region.Contains x y ∧ k < f.written then f.shade img x y k else pixels.byte (f.offset x y k) := by
  have narrow : ∀ x y, (f.colour img x y).length ≤ f.bytesPerPixel := by
    intro x y
    rw [length_colour]
    exact written_le
  obtain ⟨left, top, wide, high, right, bottom⟩ := within
  have fits : region.minX.toNat + region.dx.toNat ≤ f.width := by
    unfold Rect.dx
    omega
  refine (byte_plot pixels narrow fits column byte).trans ?_
  rw [length_colour]
  congr 1
  apply propext
  unfold Rect.Contains Rect.dx Rect.dy
  omega

theorem size_scaleRegion (img : RGBA) {region : Rect} (within : region.Within f.width f.height)
    (size : pixels.size = f.size) : (f.scaleRegion img pixels region).size = f.size := by
  obtain ⟨left, top, wide, high, right, bottom⟩ := within
  refine size_plot pixels (fun x y => ?_) ?_ size ?_
  · rw [length_colour]
    exact written_le
  · unfold Rect.dx
    omega
  · unfold Rect.dy
    omega

/-- Converting some regions leaves the scaled picture in them and nothing elsewhere. -/
theorem byte_scaleRegions (img : RGBA) {regions : List Rect}
    (within : ∀ region ∈ regions, region.Within f.width f.height) (spare : f.Spare pixels)
    (column : x < f.width) (row : y < f.height) (byte : k < f.bytesPerPixel) :
    (regions.foldl (f.scaleRegion img) pixels).byte (f.offset x y k) =
      if ∃ region ∈ regions, region.Contains x y then f.shade img x y k
      else pixels.byte (f.offset x y k) := by
  rw [foldl_covered (fun dst : Store => dst.byte (f.offset x y k)) (f.shade img x y k)
    (fun region member dst => byte_scaleRegion img dst (within region member) column byte)]
  by_cases colour : k < f.written
  · simp only [colour, and_true]
  · rw [if_neg (by rintro ⟨_, _, _, inside⟩; exact colour inside)]
    split
    · rw [spare x y k column row byte (Nat.le_of_not_lt colour),
        shade_beyond img x y (Nat.le_of_not_lt colour)]
    · rfl

/-! ## Marked tiles -/

theorem length_markPending (pending : List Bool) (region : Rect) :
    (f.markPending pending region).length = pending.length := by
  have sets : ∀ (tiles : List Nat) (flags : List Bool),
      (tiles.foldl (fun flags i => flags.set i true) flags).length = flags.length := by
    intro tiles
    induction tiles with
    | nil => intro flags; rfl
    | cons tile rest ih =>
      intro flags
      rw [foldl_cons, ih, length_set]
  unfold markPending
  split
  · rfl
  · exact sets _ _

/-- A tile left unmarked was unmarked, and none of its pixels is in the region. -/
theorem unmarked {pending : List Bool} (length : pending.length = f.tiles) {region : Rect}
    (within : region.Within f.width f.height) (column : x < f.width) (row : y < f.height)
    (idle : (f.markPending pending region).getD (f.tileAt x y) false = false) :
    pending.getD (f.tileAt x y) false = false ∧ ¬ region.Contains x y := by
  have inside : f.tileAt x y < pending.length := length ▸ tileAt_lt column row
  have flags : ∀ (tiles : List Nat) (flags : List Bool), f.tileAt x y < flags.length →
      (tiles.foldl (fun flags i => flags.set i true) flags).getD (f.tileAt x y) false =
        (flags.getD (f.tileAt x y) false || decide (f.tileAt x y ∈ tiles)) := by
    intro tiles
    induction tiles with
    | nil => intro flags _; simp
    | cons tile rest ih =>
      intro flags inside
      rw [foldl_cons, ih _ (by rwa [length_set])]
      by_cases here : tile = f.tileAt x y
      · subst here
        simp [inside]
      · have apart : ¬ f.tileAt x y = tile := fun same => here same.symm
        simp [here, apart]
  unfold markPending at idle
  split at idle
  next empty => exact ⟨idle, fun contained => Rect.not_empty_of_contains contained empty⟩
  · rw [flags _ pending inside, Bool.or_eq_false_iff, decide_eq_false_iff_not] at idle
    exact ⟨idle.1, fun contained => idle.2 (mem_touched within contained)⟩

theorem length_markRegions (regions : List Rect) (pending : List Bool) :
    (regions.foldl f.markPending pending).length = pending.length := by
  induction regions generalizing pending with
  | nil => rfl
  | cons region rest ih => rw [foldl_cons, ih, length_markPending]

theorem unmarked_regions {regions : List Rect}
    (within : ∀ region ∈ regions, region.Within f.width f.height) {pending : List Bool}
    (length : pending.length = f.tiles) (column : x < f.width) (row : y < f.height)
    (idle : (regions.foldl f.markPending pending).getD (f.tileAt x y) false = false) :
    pending.getD (f.tileAt x y) false = false ∧ ∀ region ∈ regions, ¬ region.Contains x y := by
  induction regions generalizing pending with
  | nil => exact ⟨idle, by simp⟩
  | cons region rest ih =>
    rw [foldl_cons] at idle
    obtain ⟨first, later⟩ := ih (fun other member => within other (mem_cons_of_mem _ member))
      (by rwa [length_markPending]) idle
    obtain ⟨before, outside⟩ := unmarked length (within region mem_cons_self) column row first
    refine ⟨before, fun other member => ?_⟩
    cases mem_cons.mp member with
    | inl same => exact same ▸ outside
    | inr tail => exact later other tail

/-! ## Rows of a tile -/

theorem length_tileRow (pixels : Store) (index y : Nat) :
    (f.tileRow pixels index y).length = f.across index * f.bytesPerPixel :=
  Store.read_length _ _

theorem getD_tileRow (pixels : Store) (y : Nat) (low : f.left index ≤ x)
    (high : x < f.left index + f.across index) (byte : k < f.bytesPerPixel) :
    (f.tileRow pixels index y).getD ((x - f.left index) * f.bytesPerPixel + k) 0 =
      pixels.byte (f.offset x y k) := by
  have inside : (x - f.left index) * f.bytesPerPixel + k < f.across index * f.bytesPerPixel :=
    (block_lt_iff byte _ _).mpr (by omega)
  have ahead : (y * f.width + x) * f.bytesPerPixel =
      (y * f.width + f.left index) * f.bytesPerPixel + (x - f.left index) * f.bytesPerPixel := by
    rw [← add_mul]
    congr 1
    omega
  show (pixels.read (f.offset (f.left index) y 0) (f.across index * f.bytesPerPixel)).getD _ 0 = _
  rw [getD_eq_getElem?_getD, Store.read_getElem?, if_pos inside, Option.getD_some]
  unfold offset spot
  congr 1
  omega

/-- Rows of a tile are equal when their pixels are. -/
theorem tileRow_eq_iff {a b : Store} :
    f.tileRow a index y = f.tileRow b index y ↔
      ∀ x k, f.left index ≤ x → x < f.left index + f.across index → k < f.bytesPerPixel →
        a.byte (f.offset x y k) = b.byte (f.offset x y k) := by
  constructor
  · intro same x k low high byte
    rw [← getD_tileRow a y low high byte, same, getD_tileRow b y low high byte]
  · intro same
    apply Store.read_congr
    intro i low high
    have deep : 0 < f.bytesPerPixel := bytesPerPixel_pos
    obtain ⟨j, rfl⟩ := Nat.exists_eq_add_of_le low
    have pixel : j / f.bytesPerPixel < f.across index :=
      Nat.div_lt_of_lt_mul (by rw [mul_comm]; exact lt_of_add_lt_add_left high)
    have parts := same (f.left index + j / f.bytesPerPixel) (j % f.bytesPerPixel)
      (Nat.le_add_right _ _) (Nat.add_lt_add_left pixel _) (Nat.mod_lt _ deep)
    have place : f.offset (f.left index + j / f.bytesPerPixel) y (j % f.bytesPerPixel) =
        f.offset (f.left index) y 0 + j := by
      have whole := div_add_mod' j f.bytesPerPixel
      have ahead : (y * f.width + (f.left index + j / f.bytesPerPixel)) * f.bytesPerPixel =
          (y * f.width + f.left index) * f.bytesPerPixel + j / f.bytesPerPixel * f.bytesPerPixel := by
        rw [← add_mul, add_assoc]
      unfold offset spot
      omega
    rwa [place] at parts

def SameTile (f : Format) (a b : Store) (index : Nat) : Prop :=
  ∀ x y k, x < f.width → y < f.height → k < f.bytesPerPixel → f.tileAt x y = index →
    a.byte (f.offset x y k) = b.byte (f.offset x y k)

theorem unchanged_iff {previous : Store} (sizes : previous.size = pixels.size)
    (inside : index < f.tiles) :
    f.unchanged pixels previous index = true ↔ f.SameTile pixels previous index := by
  obtain ⟨right, bottom, _, _⟩ := tile_inside inside
  have rows : f.unchanged pixels previous index = true ↔
      ∀ y, f.top index ≤ y → y < f.top index + f.down index →
        f.tileRow pixels index y = f.tileRow previous index y := by
    simp only [unchanged, tileBounds_eq, sizes, decide_true, Bool.true_and, all_eq_true,
      mem_range'_1, beq_iff_eq, and_imp]
  rw [rows]
  constructor
  · intro same x y k column row byte here
    obtain ⟨⟨low, high⟩, left, ahead⟩ := (within_tile column row index).mpr here
    exact tileRow_eq_iff.mp (same y low high) x k left ahead byte
  · intro same y low high
    refine tileRow_eq_iff.mpr fun x k left ahead byte => ?_
    have column : x < f.width := by omega
    have row : y < f.height := by omega
    exact same x y k column row byte ((within_tile column row index).mp ⟨⟨low, high⟩, left, ahead⟩)

/-! ## Copied tiles -/

theorem byte_commitTile (pixels previous : Store) {index : Nat} (inside : index < f.tiles) {x y k : Nat}
    (column : x < f.width) (row : y < f.height) (byte : k < f.bytesPerPixel) :
    (f.commitTile pixels previous index).byte (f.offset x y k) =
      if f.tileAt x y = index then pixels.byte (f.offset x y k) else previous.byte (f.offset x y k) := by
  obtain ⟨right, _, _, _⟩ := tile_inside inside
  show (patch f.bytesPerPixel previous f.width (f.left index) (f.tileRow pixels index) (f.top index)
    (f.down index)).byte _ = _
  refine (byte_patch previous (fun y _ _ => length_tileRow pixels index y) right column byte).trans ?_
  simp only [within_tile column row index]
  by_cases here : f.tileAt x y = index
  · obtain ⟨_, low, high⟩ := (within_tile column row index).mpr here
    rw [if_pos here, if_pos here, getD_tileRow pixels y low high byte]
  · rw [if_neg here, if_neg here]
    rfl

theorem size_commitTile (pixels : Store) {previous : Store} (inside : index < f.tiles)
    (size : previous.size = f.size) : (f.commitTile pixels previous index).size = f.size := by
  obtain ⟨right, bottom, _, _⟩ := tile_inside inside
  exact size_patch previous (fun y _ _ => length_tileRow pixels index y) right size bottom

/-! ## Painted tiles -/

theorem updateField_of {fields : List Nat} {i v : Nat} (here : fields[i]? = some v) (rest : Bytes) :
    updateField (fields.flatMap (leBytes 2) ++ rest) i = v % 65536 := by
  rw [updateField, part_flatMap (fun a _ => leBytes_length 2 a) here le_rfl]
  rw [part, drop_zero, take_of_length_le (by simp), leNat_leBytes]
  rfl

/-- The lines of an update, bottom-up. -/
def lines (f : Format) (pixels : Store) (index : Nat) : Bytes :=
  (range (f.down index)).flatMap fun line =>
    f.tileRow pixels index (f.top index + f.down index - 1 - line) ++
      replicate (f.stride (f.across index) - f.across index * f.bytesPerPixel) 0

theorem across_le_stride (index : Nat) :
    f.across index * f.bytesPerPixel ≤ f.stride (f.across index) := by
  unfold stride
  omega

/-- A client finds the rows of a tile where it looks for them. -/
theorem part_lines (pixels : Store) (low : f.top index ≤ y)
    (high : y < f.top index + f.down index) :
    part (f.lines pixels index)
        ((f.top index + f.down index - 1 - y) * f.stride (f.across index))
        (f.across index * f.bytesPerPixel) =
      f.tileRow pixels index y := by
  have fits : f.across index * f.bytesPerPixel ≤ _ := across_le_stride index
  have sizes : ∀ line ∈ range (f.down index),
      (f.tileRow pixels index (f.top index + f.down index - 1 - line) ++
        replicate (f.stride (f.across index) - f.across index * f.bytesPerPixel) 0).length =
        f.stride (f.across index) := by
    intro line _
    rw [length_append, length_tileRow, length_replicate]
    omega
  have line : (range (f.down index))[f.top index + f.down index - 1 - y]? =
      some (f.top index + f.down index - 1 - y) := getElem?_range (by omega)
  have found := part_flatMap sizes line fits []
  rw [append_nil] at found
  rw [lines, found, part_append_left _ (by rw [length_tileRow]; omega), part, drop_zero,
    take_of_length_le (by rw [length_tileRow])]
  congr 1
  omega

theorem paint_tile (desktop pixels : Store) (inside : index < f.tiles) :
    paint f.width desktop (f.tile pixels index) =
      patch f.bytesPerPixel desktop f.width (f.left index)
        (fun y => part (f.lines pixels index)
          ((f.top index + f.down index - 1 - y) * f.stride (f.across index))
          (f.across index * f.bytesPerPixel))
        (f.top index) (f.down index) := by
  obtain ⟨right, bottom, _, _⟩ := tile_inside inside
  have widest := f.widest
  have highest := f.highest
  have depth := f.depth
  let fields := [1, 1, f.left index, f.top index, f.left index + f.across index - 1,
    f.top index + f.down index - 1, f.across index, f.down index, f.bytesPerPixel * 8, 0,
    f.stride (f.across index) * f.down index]
  have shape : f.tile pixels index = fields.flatMap (leBytes 2) ++ f.lines pixels index := rfl
  have header : (fields.flatMap (leBytes 2)).length = 22 := rfl
  have left : updateField (f.tile pixels index) 2 = f.left index := by
    rw [shape, updateField_of (show fields[2]? = some (f.left index) from rfl), mod_eq_of_lt (by omega)]
  have top : updateField (f.tile pixels index) 3 = f.top index := by
    rw [shape, updateField_of (show fields[3]? = some (f.top index) from rfl), mod_eq_of_lt (by omega)]
  have last : updateField (f.tile pixels index) 5 = f.top index + f.down index - 1 := by
    rw [shape, updateField_of (show fields[5]? = some (f.top index + f.down index - 1) from rfl),
      mod_eq_of_lt (by omega)]
  have columns : updateField (f.tile pixels index) 6 = f.across index := by
    rw [shape, updateField_of (show fields[6]? = some (f.across index) from rfl),
      mod_eq_of_lt (by omega)]
  have rows : updateField (f.tile pixels index) 7 = f.down index := by
    rw [shape, updateField_of (show fields[7]? = some (f.down index) from rfl),
      mod_eq_of_lt (by omega)]
  have bits : updateField (f.tile pixels index) 8 / 8 = f.bytesPerPixel := by
    rw [shape, updateField_of (show fields[8]? = some (f.bytesPerPixel * 8) from rfl),
      mod_eq_of_lt (by omega)]
    omega
  simp only [paint, left, top, last, columns, rows, bits]
  congr 1
  funext y
  rw [shape, ← header, part_append_right]
  rfl

theorem byte_paint (desktop pixels : Store) {index : Nat} (inside : index < f.tiles) {x y k : Nat}
    (column : x < f.width) (row : y < f.height) (byte : k < f.bytesPerPixel) :
    (paint f.width desktop (f.tile pixels index)).byte (f.offset x y k) =
      if f.tileAt x y = index then pixels.byte (f.offset x y k) else desktop.byte (f.offset x y k) := by
  obtain ⟨right, _, _, _⟩ := tile_inside inside
  rw [paint_tile desktop pixels inside]
  refine (byte_patch desktop (fun y low high => ?_) right column byte).trans ?_
  · rw [part_lines pixels low high, length_tileRow]
  · simp only [within_tile column row index]
    by_cases here : f.tileAt x y = index
    · obtain ⟨⟨low, high⟩, left, ahead⟩ := (within_tile column row index).mpr here
      rw [if_pos here, if_pos here, part_lines pixels low high, getD_tileRow pixels y left ahead byte]
    · rw [if_neg here, if_neg here]
      rfl

/-- Painting some tiles leaves their pixels in them and nothing elsewhere. -/
theorem byte_paints (desktop pixels : Store) {indices : List Nat}
    (inside : ∀ index ∈ indices, index < f.tiles) (column : x < f.width) (row : y < f.height)
    (byte : k < f.bytesPerPixel) :
    ((indices.map (f.tile pixels)).foldl (paint f.width) desktop).byte (f.offset x y k) =
      if f.tileAt x y ∈ indices then pixels.byte (f.offset x y k) else desktop.byte (f.offset x y k) := by
  rw [foldl_map]
  refine (foldl_covered (fun dst : Store => dst.byte (f.offset x y k)) (pixels.byte (f.offset x y k))
    (fun index member dst => byte_paint dst pixels (inside index member) column row byte) desktop).trans ?_
  simp only [exists_eq_right']

theorem byte_commitTiles (pixels previous : Store) {indices : List Nat}
    (inside : ∀ index ∈ indices, index < f.tiles) (column : x < f.width) (row : y < f.height)
    (byte : k < f.bytesPerPixel) :
    (indices.foldl (f.commitTile pixels) previous).byte (f.offset x y k) =
      if f.tileAt x y ∈ indices then pixels.byte (f.offset x y k) else previous.byte (f.offset x y k) := by
  refine (foldl_covered (fun dst : Store => dst.byte (f.offset x y k)) (pixels.byte (f.offset x y k))
    (fun index member dst => byte_commitTile pixels dst (inside index member) column row byte) previous).trans ?_
  simp only [exists_eq_right']

end Format

end Gokvm.Rdp
