import Gokvm.Rdp.Avc

/-! # The planes of the retained picture

Every byte of the picture is a cell: a luma byte, or a chroma byte of a block. A round of the
conversion sets exactly the six cells of its block, so a region sets the cells of its blocks,
and a conversion that reports no change has changed nothing.
-/

namespace Gokvm.Rdp

open Lib List Nat

inductive Cell
  | luma (x y : Nat)
  | u (x y : Nat)
  | v (x y : Nat)
deriving DecidableEq

def Cell.block : Cell → Nat × Nat
  | .luma x y => (x / 2, y / 2)
  | .u x y => (x, y)
  | .v x y => (x, y)

namespace AvcFormat

variable {f : AvcFormat}

def Inside (f : AvcFormat) : Cell → Prop
  | .luma x y => x < f.width ∧ y < f.height
  | .u x y => x < f.width / 2 ∧ y < f.height / 2
  | .v x y => x < f.width / 2 ∧ y < f.height / 2

def index (f : AvcFormat) : Cell → Nat
  | .luma x y => y * f.width + x
  | .u x y => f.luma + (y * (f.width / 2) + x)
  | .v x y => f.luma + f.chroma + (y * (f.width / 2) + x)

/-- The byte of a cell in the conversion of a whole picture. -/
def value (f : AvcFormat) (img : RGBA) : Cell → UInt8
  | .luma x y => f.lumaAt img x y
  | .u x y => f.uAt img (2 * x) (2 * y)
  | .v x y => f.vAt img (2 * x) (2 * y)

/-- The picture is the full conversion: scaled to the desktop, chroma averaged over blocks. -/
structure Converts (f : AvcFormat) (picture : Store) (img : RGBA) : Prop where
  size : picture.size = f.size
  cells : ∀ cell, f.Inside cell → picture.byte (f.index cell) = f.value img cell

/-! ## Places -/

theorem halves : ∃ w h, f.width = 2 * w ∧ f.height = 2 * h := by
  have := f.evenWidth
  have := f.evenHeight
  exact ⟨f.width / 2, f.height / 2, by omega, by omega⟩

theorem chroma_eq : f.chroma = f.width / 2 * (f.height / 2) := by
  obtain ⟨w, h, width, height⟩ := halves (f := f)
  unfold chroma luma
  rw [width, height, Nat.mul_div_cancel_left _ (by decide), Nat.mul_div_cancel_left _ (by decide),
    show 2 * w * (2 * h) = 4 * (w * h) by ring, Nat.mul_div_cancel_left _ (by decide)]

theorem size_eq : f.size = f.luma + f.chroma + f.chroma := by
  obtain ⟨w, h, width, height⟩ := halves (f := f)
  have whole : f.width * f.height = 4 * (w * h) := by
    rw [width, height]
    ring
  unfold size chroma luma
  omega

variable {cell : Cell} {bx row : Nat}

/-- The planes lie one after the other. -/
theorem index_bounds (inside : f.Inside cell) :
    match cell with
    | .luma _ _ => f.index cell < f.luma
    | .u _ _ => f.luma ≤ f.index cell ∧ f.index cell < f.luma + f.chroma
    | .v _ _ => f.luma + f.chroma ≤ f.index cell ∧ f.index cell < f.size := by
  cases cell with
  | luma x y => exact pixel_lt inside.1 inside.2
  | u x y =>
    have plane : y * (f.width / 2) + x < f.chroma := chroma_eq ▸ pixel_lt inside.1 inside.2
    simp only [index]
    omega
  | v x y =>
    have plane : y * (f.width / 2) + x < f.chroma := chroma_eq ▸ pixel_lt inside.1 inside.2
    have whole : f.size = _ := size_eq
    simp only [index]
    omega

theorem index_lt (inside : f.Inside cell) : f.index cell < f.size := by
  have bounds := index_bounds inside
  have whole : f.size = _ := size_eq
  cases cell <;> simp only at bounds <;> omega

theorem index_inj {a b : Cell} (insideA : f.Inside a) (insideB : f.Inside b)
    (same : f.index a = f.index b) : a = b := by
  have boundsA := index_bounds insideA
  have boundsB := index_bounds insideB
  cases a with
  | luma x y =>
    cases b with
    | luma x' y' =>
      obtain ⟨rfl, rfl⟩ := block_inj insideA.1 insideB.1 same
      rfl
    | u _ _ | v _ _ => simp only at boundsA boundsB; omega
  | u x y =>
    cases b with
    | luma _ _ | v _ _ => simp only at boundsA boundsB; omega
    | u x' y' =>
      obtain ⟨rfl, rfl⟩ := block_inj insideA.1 insideB.1 (add_left_cancel same)
      rfl
  | v x y =>
    cases b with
    | luma _ _ | u _ _ => simp only at boundsA boundsB; omega
    | v x' y' =>
      obtain ⟨rfl, rfl⟩ := block_inj insideA.1 insideB.1 (add_left_cancel same)
      rfl

/-! ## One block -/

def cellsOf (bx row : Nat) : List Cell :=
  [.luma (2 * bx) (2 * row), .luma (2 * bx + 1) (2 * row), .luma (2 * bx) (2 * row + 1),
    .luma (2 * bx + 1) (2 * row + 1), .u bx row, .v bx row]

theorem mem_cellsOf : cell ∈ cellsOf bx row ↔ cell.block = (bx, row) := by
  cases cell <;> simp [cellsOf, Cell.block]
  omega

theorem inside_cellsOf (column : bx < f.width / 2) (line : row < f.height / 2)
    (member : cell ∈ cellsOf bx row) : f.Inside cell := by
  have := f.evenWidth
  have := f.evenHeight
  cases cell <;> simp [cellsOf, Inside] at member ⊢ <;> omega

/-- A round of the loops, for a block of the grid. -/
def round (f : AvcFormat) (bx row : Nat) : Nat × Nat × Nat := (2 * bx, 2 * row, row * (f.width / 2) + bx)

theorem blockWrites_eq (img : RGBA) (bx row : Nat) :
    f.blockWrites img (2 * bx) (2 * row) (row * (f.width / 2) + bx) =
      (cellsOf bx row).map fun cell => (f.index cell, f.value img cell) := rfl

theorem convertBlock_round (img : RGBA) (state : Store × Bool) (bx row : Nat) :
    f.convertBlock img state (f.round bx row) =
      ((cellsOf bx row).foldl (fun dst cell => dst.write (f.index cell) [f.value img cell]) state.1,
        state.2 || (cellsOf bx row).any fun cell => state.1.byte (f.index cell) != f.value img cell) := by
  simp only [convertBlock, round, blockWrites_eq, foldl_map, any_map]
  rfl

theorem byte_convertBlock (img : RGBA) (state : Store × Bool) (column : bx < f.width / 2)
    (line : row < f.height / 2) (inside : f.Inside cell) :
    (f.convertBlock img state (f.round bx row)).1.byte (f.index cell) =
      if cell.block = (bx, row) then f.value img cell else state.1.byte (f.index cell) := by
  have writes : ∀ other ∈ cellsOf bx row, ∀ dst : Store,
      (dst.write (f.index other) [f.value img other]).byte (f.index cell) =
        if other = cell then f.value img cell else dst.byte (f.index cell) := by
    intro other member dst
    rw [Store.byte_write]
    by_cases same : other = cell
    · subst same
      simp
    · have apart : f.index cell ≠ f.index other := fun equal =>
        same (index_inj inside (inside_cellsOf column line member) equal).symm
      rw [if_neg same, if_neg]
      simp only [length_singleton]
      omega
  rw [convertBlock_round]
  refine (foldl_covered (fun dst : Store => dst.byte (f.index cell)) _ writes state.1).trans ?_
  simp only [exists_eq_right, mem_cellsOf]

theorem write_same {picture : Store} {i : Nat} (inside : i < picture.size) {value : UInt8}
    (same : picture.byte i = value) : picture.write i [value] = picture := by
  apply Store.ext
  · exact Store.size_write_inside inside
  · funext j
    rw [Store.byte_write]
    split
    next here =>
      simp only [length_singleton] at here
      obtain rfl : j = i := by omega
      simp [same]
    · rfl

/-- A loop that keeps a size and, when it reports no change, the bytes. -/
def Quiet (size : Nat) (before after : Store × Bool) : Prop :=
  before.1.size = size →
    after.1.size = size ∧ (after.2 = false → before.2 = false ∧ after.1 = before.1)

theorem quiet_foldl {α : Type} {size : Nat} {draw : Store × Bool → α → Store × Bool} {items : List α}
    (draws : ∀ item ∈ items, ∀ state, Quiet size state (draw state item)) (state : Store × Bool) :
    Quiet size state (items.foldl draw state) := by
  induction items generalizing state with
  | nil => exact fun sized => ⟨sized, fun quiet => ⟨quiet, rfl⟩⟩
  | cons item rest ih =>
    intro sized
    obtain ⟨middle, first⟩ := draws item mem_cons_self state sized
    obtain ⟨last, later⟩ := ih (fun other member => draws other (mem_cons_of_mem _ member))
      (draw state item) middle
    refine ⟨last, fun quiet => ?_⟩
    obtain ⟨still, same⟩ := later quiet
    obtain ⟨start, before⟩ := first still
    exact ⟨start, same.trans before⟩

theorem quiet_convertBlock (img : RGBA) (state : Store × Bool) (column : bx < f.width / 2)
    (line : row < f.height / 2) :
    Quiet f.size state (f.convertBlock img state (f.round bx row)) := by
  intro sized
  have places : ∀ cell ∈ cellsOf bx row, f.index cell < f.size :=
    fun cell member => index_lt (inside_cellsOf column line member)
  rw [convertBlock_round]
  refine ⟨?_, fun quiet => ?_⟩
  · refine size_foldl (fun cell member dst size => ?_) state.1 sized
    rw [Store.size_write_inside, size]
    rw [size]
    exact places cell member
  · simp only [Bool.or_eq_false_iff, any_eq_false, bne_iff_ne, ne_eq, not_not] at quiet
    refine ⟨quiet.1, ?_⟩
    have same : ∀ cells : List Cell, (∀ cell ∈ cells, cell ∈ cellsOf bx row) →
        cells.foldl (fun dst cell => dst.write (f.index cell) [f.value img cell]) state.1 = state.1 := by
      intro cells
      induction cells with
      | nil => exact fun _ => rfl
      | cons cell rest ih =>
        intro members
        have member := members cell mem_cons_self
        rw [foldl_cons, write_same (sized ▸ places cell member) (quiet.2 cell member)]
        exact ih fun other later => members other (mem_cons_of_mem _ later)
    exact same _ fun _ member => member

/-! ## Regions -/

/-- A region on the grid runs through its own blocks. -/
theorem mem_blocks {region : Rect} (within : region.Within f.width f.height) (paired : Paired region)
    {item : Nat × Nat × Nat} :
    item ∈ f.blocks region ↔
      ∃ bx row, bx < f.width / 2 ∧ row < f.height / 2 ∧ region.Contains (2 * bx : Nat) (2 * row : Nat) ∧
        item = f.round bx row := by
  obtain ⟨left, top, wide, high, right, bottom⟩ := within
  obtain ⟨evenLeft, evenTop, evenRight, evenBottom⟩ := paired
  have evenWidth := f.evenWidth
  have evenHeight := f.evenHeight
  obtain ⟨a, startX⟩ : ∃ a : Nat, region.minX.toNat = 2 * a := ⟨region.minX.toNat / 2, by omega⟩
  obtain ⟨b, startY⟩ : ∃ b : Nat, region.minY.toNat = 2 * b := ⟨region.minY.toNat / 2, by omega⟩
  simp only [blocks, mem_flatMap, mem_map, mem_range, startX, startY, Rect.Contains]
  unfold Rect.dx Rect.dy
  constructor
  · rintro ⟨j, row, i, column, rfl⟩
    refine ⟨a + i, b + j, by omega, by omega, by omega, ?_⟩
    have half : (2 * b + 2 * j) / 2 = b + j := by omega
    have start : 2 * a / 2 = a := by omega
    rw [round, half, start, mul_add, mul_add, add_assoc]
  · rintro ⟨bx, row, column, line, inside, rfl⟩
    refine ⟨row - b, by omega, bx - a, by omega, ?_⟩
    have half : (2 * b + 2 * (row - b)) / 2 = row := by omega
    have start : 2 * a / 2 = a := by omega
    rw [round, half, start, add_assoc]
    congr 1
    · omega
    · congr 1
      · omega
      · congr 1
        omega

section Region

variable {region : Rect} (within : region.Within f.width f.height) (paired : Paired region)

include within paired

theorem byte_scaleI420Region (img : RGBA) (dst : Store) {cell : Cell} (inside : f.Inside cell) :
    (f.scaleI420Region dst img region).1.byte (f.index cell) =
      if region.Contains (2 * cell.block.1 : Nat) (2 * cell.block.2 : Nat) then f.value img cell
      else dst.byte (f.index cell) := by
  have place : cell.block.1 < f.width / 2 ∧ cell.block.2 < f.height / 2 := by
    have := f.evenWidth
    have := f.evenHeight
    cases cell <;> simp only [Inside, Cell.block] at inside ⊢ <;> omega
  unfold scaleI420Region
  split
  next empty =>
    rw [if_neg]
    exact fun contained => Rect.not_empty_of_contains contained empty
  · have rounds : ∀ item ∈ f.blocks region, ∀ state,
        (f.convertBlock img state item).1.byte (f.index cell) =
          if item = f.round cell.block.1 cell.block.2 then f.value img cell
          else state.1.byte (f.index cell) := by
      intro item member state
      obtain ⟨bx, row, column, line, _, rfl⟩ := (mem_blocks within paired).mp member
      rw [byte_convertBlock img state column line inside]
      congr 1
      apply propext
      simp only [round, Prod.ext_iff]
      constructor
      · rintro ⟨rfl, rfl⟩
        exact ⟨rfl, rfl, rfl⟩
      · rintro ⟨first, second, _⟩
        omega
    refine (foldl_covered (fun state : Store × Bool => state.1.byte (f.index cell)) _ rounds
      (dst, false)).trans ?_
    congr 1
    apply propext
    rw [exists_eq_right, mem_blocks within paired]
    constructor
    · rintro ⟨bx, row, _, _, contained, same⟩
      simp only [round, Prod.mk.injEq] at same
      obtain ⟨column, line, _⟩ := same
      rw [column, line]
      exact contained
    · intro contained
      exact ⟨_, _, place.1, place.2, contained, rfl⟩

theorem quiet_scaleI420Region (img : RGBA) (dst : Store) :
    Quiet f.size (dst, false) (f.scaleI420Region dst img region) := by
  unfold scaleI420Region
  split
  · exact fun sized => ⟨sized, fun _ => ⟨rfl, rfl⟩⟩
  · refine quiet_foldl (fun item member state => ?_) (dst, false)
    obtain ⟨bx, row, column, line, _, rfl⟩ := (mem_blocks within paired).mp member
    exact quiet_convertBlock img state column line

end Region

section Regions

variable {regions : List Rect} (grid : ∀ region ∈ regions, region.Within f.width f.height ∧ Paired region)

include grid

theorem byte_scaleRegions (img : RGBA) (state : Store × Bool) {cell : Cell} (inside : f.Inside cell) :
    (f.scaleRegions img state regions).1.byte (f.index cell) =
      if ∃ region ∈ regions, region.Contains (2 * cell.block.1 : Nat) (2 * cell.block.2 : Nat) then
        f.value img cell
      else state.1.byte (f.index cell) := by
  unfold scaleRegions
  refine foldl_covered (fun state : Store × Bool => state.1.byte (f.index cell)) (f.value img cell)
    (fun region member state => ?_) state
  exact byte_scaleI420Region (grid region member).1 (grid region member).2 img state.1 inside

theorem quiet_scaleRegions (img : RGBA) (state : Store × Bool) :
    Quiet f.size state (f.scaleRegions img state regions) := by
  refine quiet_foldl (fun region member state sized => ?_) state
  obtain ⟨within, paired⟩ := grid region member
  obtain ⟨size, quiet⟩ := quiet_scaleI420Region within paired img state.1 sized
  refine ⟨size, fun still => ?_⟩
  simp only [Bool.or_eq_false_iff] at still
  exact ⟨still.2, (quiet still.1).2⟩

end Regions

/-! ## Damage -/

/-- A block that no widened damage holds has the colours that it had. -/
theorem value_eq_of_covers {rects : List Rect} {old new : RGBA} (covers : Covers rects old new)
    (sound : new.Sound) (unmoved : old.rect = new.rect) (inside : f.Inside cell) (outside : ∀ rect ∈ rects,
      ¬ (align (map rect new.rect f.output) 2 f.output).Contains (2 * cell.block.1 : Nat)
        (2 * cell.block.2 : Nat)) :
    f.value old cell = f.value new cell := by
  have some : 0 < f.width ∧ 0 < f.height := ⟨by have := f.wide; omega, by have := f.high; omega⟩
  have evenWidth := f.evenWidth
  have evenHeight := f.evenHeight
  -- No pixel of the block is in the mapped damage, since widening would have taken the whole block.
  have pixel : ∀ x y c, x < f.width → y < f.height → (x / 2, y / 2) = cell.block → c < 3 →
      f.nearest old x y c = f.nearest new x y c := by
    intro x y c column row here colour
    simp only [nearest, unmoved]
    rw [covers.sample_eq sound column row colour fun rect member contained => ?_]
    have mapped := map_within sound.wide sound.high some.1 some.2 rect
    obtain ⟨_, paired, widened⟩ := align_two mapped evenWidth evenHeight
    have held := widened x y contained
    refine outside rect member ?_
    rw [← here]
    obtain ⟨left, top, right, bottom⟩ := paired
    simp only [Rect.Contains, output] at held ⊢
    omega
  have block : ∀ x y c, x < f.width / 2 → y < f.height / 2 → (x, y) = cell.block → c < 3 →
      f.average old (2 * x) (2 * y) c = f.average new (2 * x) (2 * y) c := by
    intro x y c column row here colour
    simp only [average]
    rw [pixel (2 * x) (2 * y) c (by omega) (by omega) (by rw [← here]; congr 1 <;> omega) colour,
      pixel (2 * x + 1) (2 * y) c (by omega) (by omega) (by rw [← here]; congr 1 <;> omega) colour,
      pixel (2 * x) (2 * y + 1) c (by omega) (by omega) (by rw [← here]; congr 1 <;> omega) colour,
      pixel (2 * x + 1) (2 * y + 1) c (by omega) (by omega) (by rw [← here]; congr 1 <;> omega) colour]
  cases cell with
  | luma x y =>
    have pixels := fun c colour => pixel x y c inside.1 inside.2 rfl colour
    simp only [value, lumaAt, pixels 0 (by decide), pixels 1 (by decide), pixels 2 (by decide)]
  | u x y =>
    have averages := fun c colour => block x y c inside.1 inside.2 rfl colour
    simp only [value, uAt, averages 0 (by decide), averages 1 (by decide), averages 2 (by decide)]
  | v x y =>
    have averages := fun c colour => block x y c inside.1 inside.2 rfl colour
    simp only [value, vAt, averages 0 (by decide), averages 1 (by decide), averages 2 (by decide)]

end AvcFormat

end Gokvm.Rdp
