import Gokvm.Virtio.Framebuffer

/-! # Changed tiles

The rectangles a reader is given: runs of changed tiles, joined downwards where they
continue each other, or the whole frame when they are too many. They lie in the frame,
no two share a pixel, and every pixel of a changed tile is in one of them.
-/

namespace Gokvm.Virtio

open Lib List Nat

/-! ## Lists of rectangles -/

/-- How many rectangles of a list have a pixel. -/
def layers (x y : Int) (rects : List Rect) : Nat := rects.countP fun r => decide (r.Contains x y)

theorem layers_cons (x y : Int) (r : Rect) (rects : List Rect) :
    layers x y (r :: rects) = layers x y rects + if r.Contains x y then 1 else 0 := by
  unfold layers
  rw [countP_cons]
  simp only [decide_eq_true_eq]

variable {rects : List Rect}

theorem layers_pos_iff {x y : Int} :
    0 < layers x y rects ↔ ∃ r ∈ rects, r.Contains x y := by
  unfold layers
  rw [countP_pos_iff]
  simp only [decide_eq_true_eq]

theorem layers_le_one (apart : rects.Pairwise Rect.Disjoint) (x y : Int) :
    layers x y rects ≤ 1 := by
  induction apart with
  | nil => exact zero_le 1
  | @cons r rects first _ ih =>
    rw [layers_cons]
    split
    next inside =>
      have none : ¬ 0 < layers x y rects := by
        rw [layers_pos_iff]
        rintro ⟨s, member, also⟩
        exact first s member x y ⟨inside, also⟩
      omega
    · exact ih

theorem pairwise_of_layers (thin : ∀ x y, layers x y rects ≤ 1) :
    rects.Pairwise Rect.Disjoint := by
  induction rects with
  | nil => exact .nil
  | cons r rects ih =>
    refine .cons ?_ (ih fun x y => ?_)
    · rintro s member x y ⟨inside, also⟩
      have deep := thin x y
      rw [layers_cons, if_pos inside] at deep
      have some : 0 < layers x y rects := layers_pos_iff.mpr ⟨s, member, also⟩
      omega
    · have deep := thin x y
      rw [layers_cons] at deep
      omega

/-! ## Runs -/

namespace Framebuffer

/-- The runs of a scan are in order and between its ends. -/
theorem scan_ordered (flags : List Bool) :
    ∀ (x : Nat) (start : Option Nat), (∀ s, start = some s → s < x) →
      (∀ run ∈ scan x start flags,
        start.getD x ≤ run.1 ∧ run.1 < run.2 ∧ run.2 ≤ x + flags.length) ∧
      (scan x start flags).Pairwise fun a b => a.2 ≤ b.1 := by
  induction flags with
  | nil =>
    intro x start early
    cases start with
    | none => exact ⟨fun _ member => (not_mem_nil member).elim, .nil⟩
    | some s =>
      refine ⟨?_, pairwise_singleton _ _⟩
      intro run member
      rw [mem_singleton.mp member]
      exact ⟨le_rfl, early s rfl, le_rfl⟩
  | cons changed rest ih =>
    intro x start early
    cases start with
    | none =>
      simp only [scan, length_cons]
      obtain ⟨between, ordered⟩ := ih (x + 1) (if changed then some x else none)
        (by
          intro s isStart
          cases changed with
          | true => cases isStart; exact lt_succ_self x
          | false => cases isStart)
      refine ⟨?_, ordered⟩
      intro run member
      have bounds := between run member
      cases changed with
      | true => exact ⟨bounds.1, bounds.2.1, by omega⟩
      | false =>
        have low : x + 1 ≤ run.1 := bounds.1
        exact ⟨le_of_succ_le low, bounds.2.1, by omega⟩
    | some s =>
      have before := early s rfl
      cases changed with
      | true =>
        simp only [scan, length_cons]
        obtain ⟨between, ordered⟩ := ih (x + 1) (some s)
          (by intro t isStart; cases isStart; omega)
        refine ⟨?_, ordered⟩
        intro run member
        have bounds := between run member
        exact ⟨bounds.1, bounds.2.1, by omega⟩
      | false =>
        simp only [scan, length_cons]
        obtain ⟨between, ordered⟩ := ih (x + 1) none (by intro t isStart; cases isStart)
        refine ⟨?_, ?_⟩
        · intro run member
          cases mem_cons.mp member with
          | inl same =>
            rw [same]
            exact ⟨le_rfl, before, by omega⟩
          | inr later =>
            have bounds := between run later
            have low : x + 1 ≤ run.1 := bounds.1
            simp only [Option.getD_some]
            exact ⟨by omega, bounds.2.1, by omega⟩
        · refine .cons ?_ ordered
          intro run later
          have low : x + 1 ≤ run.1 := (between run later).1
          exact le_of_succ_le low

/-- Every changed tile is in a run, and an open run is closed later. -/
theorem scan_covers (flags : List Bool) :
    ∀ (x : Nat) (start : Option Nat), (∀ s, start = some s → s < x) →
      (∀ i, flags[i]? = some true → ∃ run ∈ scan x start flags, run.1 ≤ x + i ∧ x + i < run.2) ∧
      (∀ s, start = some s → ∃ run ∈ scan x start flags, run.1 = s ∧ x ≤ run.2) := by
  induction flags with
  | nil =>
    intro x start _
    refine ⟨?_, ?_⟩
    · exact nofun
    · rintro s rfl
      exact ⟨(s, x), mem_cons_self, rfl, le_rfl⟩
  | cons changed rest ih =>
    intro x start early
    -- the tile after `x` in terms of the rest of the row
    have shifted {run : Nat × Nat} {i : Nat} (inside : run.1 ≤ x + 1 + i ∧ x + 1 + i < run.2) :
        run.1 ≤ x + (i + 1) ∧ x + (i + 1) < run.2 := by omega
    cases changed with
    | true =>
      obtain ⟨later, closed⟩ := ih (x + 1) (some (start.getD x))
        (by
          intro s isStart
          cases isStart
          cases start with
          | none => exact lt_succ_self x
          | some s => exact lt_succ_of_lt (early s rfl))
      have same : scan x start (true :: rest) = scan (x + 1) (some (start.getD x)) rest := by
        cases start <;> rfl
      obtain ⟨open', member, first, last⟩ := closed _ rfl
      rw [same]
      refine ⟨?_, ?_⟩
      · intro i changed
        cases i with
        | zero =>
          refine ⟨open', member, ?_, lt_of_succ_le last⟩
          rw [first]
          cases start with
          | none => exact le_rfl
          | some s => exact (early s rfl).le
        | succ i =>
          obtain ⟨run, among, inside⟩ := later i changed
          exact ⟨run, among, shifted inside⟩
      · rintro s rfl
        exact ⟨open', member, first, le_of_succ_le last⟩
    | false =>
      obtain ⟨later, _⟩ := ih (x + 1) none (by intro s isStart; cases isStart)
      refine ⟨?_, ?_⟩
      · intro i changed
        cases i with
        | zero => cases changed
        | succ i =>
          obtain ⟨run, among, inside⟩ := later i changed
          refine ⟨run, ?_, shifted inside⟩
          cases start with
          | none => exact among
          | some s => exact mem_cons_of_mem _ among
      · rintro s rfl
        exact ⟨(s, x), mem_cons_self, rfl, le_rfl⟩

/-! ## Rectangles of runs -/

theorem cols_bound (d : Framebuffer) {tile : Nat} (inside : tile < d.cols) :
    tile * framebufferTileSize < d.width := by
  unfold cols framebufferTileSize at *
  omega

theorem rows_bound (d : Framebuffer) {tile : Nat} (inside : tile < d.rows) :
    tile * framebufferTileSize < d.height := by
  unfold rows framebufferTileSize at *
  omega

theorem length_changedRow (d : Framebuffer) (sequence : UInt64) (y : Nat) :
    (d.changedRow sequence y).length = d.cols := by
  simp [changedRow]

variable {d : Framebuffer} {y : Nat}

theorem mem_scan_row {sequence : UInt64} {run : Nat × Nat}
    (member : run ∈ scan 0 none (d.changedRow sequence y)) : run.1 < run.2 ∧ run.2 ≤ d.cols := by
  have bounds := (scan_ordered (d.changedRow sequence y) 0 none (by intro s none; cases none)).1 run member
  rw [length_changedRow] at bounds
  exact ⟨bounds.2.1, by omega⟩

theorem runRect_within {run : Nat × Nat} (row : y < d.rows) (some : run.1 < run.2) (inside : run.2 ≤ d.cols) : (d.runRect y run).Within d.width d.height := by
  have left := d.cols_bound (lt_of_lt_of_le some inside)
  have top := d.rows_bound row
  unfold framebufferTileSize at left top
  refine { left := ?_, top := ?_, wide := ?_, high := ?_, right := ?_, bottom := ?_ } <;>
    simp only [runRect, framebufferTileSize] <;> omega

theorem runRects_within {sequence : UInt64} {rect : Rect} (member : rect ∈ d.runRects sequence) : rect.Within d.width d.height := by
  obtain ⟨y, row, inRow⟩ := mem_flatMap.mp member
  obtain ⟨run, among, same⟩ := mem_map.mp inRow
  obtain ⟨some, inside⟩ := mem_scan_row among
  rw [← same]
  exact runRect_within (mem_range.mp row) some inside

theorem runRects_disjoint (d : Framebuffer) (sequence : UInt64) :
    (d.runRects sequence).Pairwise Rect.Disjoint := by
  unfold runRects
  rw [pairwise_flatMap]
  refine ⟨?_, ?_⟩
  · intro y _
    rw [pairwise_map]
    have ordered := (scan_ordered (d.changedRow sequence y) 0 none (by intro s none; cases none)).2
    refine ordered.imp ?_
    rintro a b before x z ⟨inA, inB⟩
    simp only [Rect.Contains, runRect, framebufferTileSize] at inA inB
    omega
  · refine pairwise_lt_range.imp ?_
    intro y z above r inY s inZ u v both
    obtain ⟨a, _, sameA⟩ := mem_map.mp inY
    obtain ⟨b, _, sameB⟩ := mem_map.mp inZ
    obtain ⟨inA, inB⟩ := both
    rw [← sameA] at inA
    rw [← sameB] at inB
    simp only [Rect.Contains, runRect, framebufferTileSize] at inA inB
    omega

def tile (d : Framebuffer) (x y : Nat) : Nat :=
  y / framebufferTileSize * d.cols + x / framebufferTileSize

def version (d : Framebuffer) (x y : Nat) : UInt64 := d.tileVersions.getD (d.tile x y) 0

/-- The pixels of changed tiles are in the runs. -/
theorem runRects_covers (d : Framebuffer) (sequence : UInt64) {x : Nat} (column : x < d.width)
    (row : y < d.height) (changed : sequence < d.version x y) :
    ∃ rect ∈ d.runRects sequence, rect.Contains x y := by
  have tileX : x / framebufferTileSize < d.cols := by
    unfold cols framebufferTileSize
    omega
  have tileY : y / framebufferTileSize < d.rows := by
    unfold rows framebufferTileSize
    omega
  have flagged : (d.changedRow sequence (y / framebufferTileSize))[x / framebufferTileSize]? = some true := by
    simp only [changedRow, getElem?_map, getElem?_range tileX, Option.map_some,
      Option.some.injEq, decide_eq_true_eq]
    exact changed
  obtain ⟨run, member, low, high⟩ := (scan_covers (d.changedRow sequence (y / framebufferTileSize)) 0 none
    (by intro s none; cases none)).1 _ flagged
  refine ⟨d.runRect (y / framebufferTileSize) run, ?_, ?_⟩
  · exact mem_flatMap.mpr ⟨_, mem_range.mpr tileY, mem_map_of_mem member⟩
  · simp only [Rect.Contains, runRect, framebufferTileSize] at *
    omega

/-! ## Joining -/

/-- Joining replaces one rectangle by itself with the new one below it. -/
theorem joinBelow_spec {rect : Rect} {rects joined : List Rect} {width height : Nat}
    (below : rect.Within width height) (within : ∀ r ∈ rects, r.Within width height)
    (joins : joinBelow rect rects = some joined) :
    (∀ r ∈ joined, r.Within width height) ∧
      ∀ x y, layers x y joined = layers x y rects + if rect.Contains x y then 1 else 0 := by
  induction rects generalizing joined with
  | nil => cases joins
  | cons r rest ih =>
    simp only [joinBelow] at joins
    have first := within r mem_cons_self
    split at joins
    next continues =>
      cases joins
      obtain ⟨touching, left, right⟩ := continues
      refine ⟨?_, ?_⟩
      · intro s member
        cases mem_cons.mp member with
        | inl same =>
          rw [same]
          have high := first.high
          have higher := below.high
          exact { first with high := by simp only; omega, bottom := below.bottom }
        | inr tail => exact within s (mem_cons_of_mem _ tail)
      · intro x y
        rw [layers_cons, layers_cons]
        have high := first.high
        have higher := below.high
        have union : ({ r with maxY := rect.maxY } : Rect).Contains x y ↔
            r.Contains x y ∨ rect.Contains x y := by
          simp only [Rect.Contains]
          omega
        have apart : ¬ (r.Contains x y ∧ rect.Contains x y) := by
          simp only [Rect.Contains]
          omega
        by_cases upper : r.Contains x y
        · have lower : ¬ rect.Contains x y := fun also => apart ⟨upper, also⟩
          rw [if_pos (union.mpr (Or.inl upper)), if_pos upper, if_neg lower]
        · by_cases lower : rect.Contains x y
          · rw [if_pos (union.mpr (Or.inr lower)), if_neg upper, if_pos lower]
          · rw [if_neg (fun either => (union.mp either).elim upper lower), if_neg upper,
              if_neg lower]
    · obtain ⟨tail, rest_joins, rfl⟩ := Option.map_eq_some_iff.mp joins
      obtain ⟨shaped, deeper⟩ := ih (fun s member => within s (mem_cons_of_mem _ member)) rest_joins
      refine ⟨?_, ?_⟩
      · intro s member
        cases mem_cons.mp member with
        | inl same => exact same ▸ first
        | inr later => exact shaped s later
      · intro x y
        rw [layers_cons, layers_cons, deeper]
        omega

/-- Collecting keeps the depth of every pixel. -/
theorem collect_spec {width height : Nat} (rest : List Rect) :
    ∀ {rects out : List Rect}, (∀ r ∈ rects, r.Within width height) →
      (∀ r ∈ rest, r.Within width height) → collect rects rest = some out →
        (∀ r ∈ out, r.Within width height) ∧
          ∀ x y, layers x y out = layers x y rects + layers x y rest := by
  induction rest with
  | nil =>
    intro rects out within _ collected
    cases collected
    exact ⟨within, fun _ _ => rfl⟩
  | cons rect rest ih =>
    intro rects out within later collected
    have below := later rect mem_cons_self
    have others := fun s member => later s (mem_cons_of_mem rect member)
    simp only [collect] at collected
    split at collected
    next joined joins =>
      obtain ⟨shaped, deeper⟩ := joinBelow_spec below within joins
      obtain ⟨final, depth⟩ := ih shaped others collected
      refine ⟨final, fun x y => ?_⟩
      rw [depth, deeper, layers_cons]
      omega
    · split at collected
      · cases collected
      · obtain ⟨final, depth⟩ := @ih (rect :: rects) out
          (by
            intro s member
            cases mem_cons.mp member with
            | inl same => exact same ▸ below
            | inr tail => exact within s tail)
          others collected
        refine ⟨final, fun x y => ?_⟩
        rw [depth, layers_cons, layers_cons]
        omega

structure Patches (d : Framebuffer) (sequence : UInt64) (rects : List Rect) : Prop where
  within : ∀ r ∈ rects, r.Within d.width d.height
  disjoint : rects.Pairwise Rect.Disjoint
  covers : ∀ x y : Nat, x < d.width → y < d.height → sequence < d.version x y →
    ∃ r ∈ rects, r.Contains x y

theorem patches_bounds (d : Framebuffer) (sequence : UInt64) : Patches d sequence [d.bounds] where
  within := by
    intro r member
    rw [mem_singleton.mp member]
    exact Rect.within_whole d.width d.height
  disjoint := pairwise_singleton _ _
  covers := by
    intro x y column row _
    refine ⟨d.bounds, mem_cons_self, ?_⟩
    simp only [bounds, Rect.whole, Rect.Contains]
    omega

theorem changedTileRects_patches (d : Framebuffer) (sequence : UInt64) :
    Patches d sequence (d.changedTileRects sequence) := by
  unfold changedTileRects
  split
  next rects collected =>
    obtain ⟨within, depth⟩ := collect_spec (d.runRects sequence)
      (fun _ member => (not_mem_nil member).elim) (fun _ => runRects_within) collected
    have same (x y : Int) : layers x y rects.reverse = layers x y (d.runRects sequence) := by
      unfold layers
      rw [countP_reverse]
      have deep := depth x y
      unfold layers at deep
      rw [deep]
      simp
    constructor
    · exact fun r member => within r (mem_reverse.mp member)
    · apply pairwise_of_layers
      intro x y
      rw [same]
      exact layers_le_one (d.runRects_disjoint sequence) x y
    · intro x y column row changed
      rw [← layers_pos_iff, same, layers_pos_iff]
      exact d.runRects_covers sequence column row changed
  · exact d.patches_bounds sequence

end Framebuffer

end Gokvm.Virtio
