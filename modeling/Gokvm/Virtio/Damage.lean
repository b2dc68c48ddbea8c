import Gokvm.Virtio.Tiles

/-! # Readers of the framebuffer

A publication shows a picture; a reader that catches up has that picture, however many
publications it missed. What a reader relies on: a tile whose stamp it has already seen
looks in its own picture, and looked in every picture since its last call, as it does now.
-/

namespace Gokvm.Virtio

open Lib List Function Nat Framebuffer Rect

/-! ## Pictures -/

@[ext] structure Picture where
  width : Nat
  height : Nat
  pix : Store

/-- A pixel that is there in both pictures and the same. -/
def Picture.SameAt (p q : Picture) (x y : Nat) : Prop :=
  p.width = q.width ∧ p.height = q.height ∧
    ∀ k, k < 4 → p.pix.byte (place p.width x y k) = q.pix.byte (place q.width x y k)

variable {width height x y k : Nat} {rect : Rect} {d e : Framebuffer}

/-- The part of an image that a publication of a size shows. -/
def RGBA.crop (img : RGBA) (width height : Nat) : Picture where
  width := width
  height := height
  pix :=
    { size := width * height * 4
      byte := fun i =>
        if i < width * height * 4 then
          img.pix.byte (i / 4 / width * img.stride.toNat + i / 4 % width * 4 + i % 4)
        else 0
      beyond := fun i past => if_neg (by omega) }

theorem RGBA.byte_crop (img : RGBA) (column : x < width) (row : y < height) (byte : k < 4) :
    (img.crop width height).pix.byte (place width x y k) =
      img.pix.byte (y * img.stride.toNat + x * 4 + k) := by
  have pixel : place width x y k / 4 = y * width + x := by
    unfold place
    omega
  have last : place width x y k % 4 = k := by
    unfold place
    omega
  have line : (y * width + x) / width = y := by
    rw [mul_comm, mul_add_div (by omega), div_eq_of_lt column, add_zero]
  have across : (y * width + x) % width = x := by
    rw [mul_comm, mul_add_mod, mod_eq_of_lt column]
  simp only [crop, if_pos (place_lt column row byte), pixel, last, line, across]

theorem RGBA.length_piece (img : RGBA) (left span y : Nat) : (img.piece left span y).length = span * 4 := by
  simp [piece]

theorem RGBA.getD_piece (img : RGBA) {left span : Nat} (low : left ≤ x) (high : x < left + span)
    (byte : k < 4) :
    (img.piece left span y).getD ((x - left) * 4 + k) 0 =
      img.pix.byte (y * img.stride.toNat + x * 4 + k) := by
  rw [getD_eq_getElem?_getD, piece, Store.read_getElem?, if_pos (by omega), Option.getD_some]
  congr 1
  omega

theorem byte_copyRect (img : RGBA) (within : rect.Within width height) (frame : Store)
    (column : x < width) (byte : k < 4) :
    (copyRect img width frame rect).byte (place width x y k) =
      if rect.Contains x y then img.pix.byte (y * img.stride.toNat + x * 4 + k)
      else frame.byte (place width x y k) := by
  unfold copyRect
  rw [byte_blit_rect frame within (fun y _ _ => img.length_piece _ _ y) column byte]
  split
  next inside =>
    have left := within.left
    unfold Rect.Contains at inside
    exact img.getD_piece (by omega) (by unfold dx; omega) byte
  · rfl

theorem size_copyRect (img : RGBA) (within : rect.Within width height) {frame : Store}
    (size : frame.size = width * height * 4) :
    (copyRect img width frame rect).size = width * height * 4 :=
  size_blit_rect frame within (fun y _ _ => img.length_piece _ _ y) size

namespace Framebuffer

/-! ## Stamps -/

/-- A framebuffer before its first publication, or with a stamp for every tile. -/
structure Ok (d : Framebuffer) : Prop where
  wide : 0 < d.width
  high : 0 < d.height
  tiles : (d.tileVersions = [] ∧ d.frame.size = 0) ∨
    (d.tileVersions.length = d.cols * d.rows ∧ d.frame.size = d.width * d.height * 4)

theorem tile_lt (d : Framebuffer) (column : x < d.width) (row : y < d.height) :
    d.tile x y < d.cols * d.rows := by
  have tileX : x / framebufferTileSize < d.cols := by
    unfold cols framebufferTileSize
    omega
  have tileY : y / framebufferTileSize + 1 ≤ d.rows := by
    unfold rows framebufferTileSize
    omega
  have lines : (y / framebufferTileSize + 1) * d.cols ≤ d.rows * d.cols := mul_le_mul_right d.cols tileY
  rw [succ_mul, mul_comm d.rows d.cols] at lines
  unfold tile
  omega

theorem length_stamp (seq : UInt64) (tiles : List Nat) (versions : List UInt64) :
    (stamp seq versions tiles).length = versions.length := by
  unfold stamp
  induction tiles generalizing versions with
  | nil => rfl
  | cons i rest ih => rw [foldl_cons, ih, length_set]

/-- A stamped tile has the new number, any other one the old. -/
theorem getD_stamp (seq : UInt64) (tiles : List Nat) (versions : List UInt64) {j : Nat}
    (inside : j < versions.length) :
    (stamp seq versions tiles).getD j 0 = if j ∈ tiles then seq else versions.getD j 0 := by
  induction tiles generalizing versions with
  | nil => simp [stamp]
  | cons i rest ih =>
    have step : stamp seq versions (i :: rest) = stamp seq (versions.set i seq) rest := rfl
    rw [step, ih (versions.set i seq) (by rw [length_set]; exact inside)]
    by_cases later : j ∈ rest
    · rw [if_pos later, if_pos (mem_cons_of_mem i later)]
    · rw [if_neg later, getD_eq_getElem?_getD, getElem?_set]
      by_cases same : i = j
      · subst same
        rw [if_pos rfl, if_pos inside, if_pos mem_cons_self]
        rfl
      · rw [if_neg same, if_neg (fun member => (mem_cons.mp member).elim (fun e => same e.symm) later),
          getD_eq_getElem?_getD]

theorem mem_touchedTiles {cols : Nat} (within : rect.Within width height)
    (inside : rect.Contains x y) :
    y / framebufferTileSize * cols + x / framebufferTileSize ∈ touchedTiles cols rect :=
  mem_touched within inside

theorem whole_contains (column : x < width) (row : y < height) :
    (whole width height).Contains x y := by
  simp only [whole, Rect.Contains]
  omega

/-- After marking a rectangle a pixel has the new stamp, or it was outside. -/
theorem markRect_spec (d : Framebuffer) (column : x < d.width) (row : y < d.height) (rect : Rect)
    {versions : List UInt64} (full : versions.length = d.cols * d.rows) :
    (d.markRect versions rect).length = versions.length ∧
      ((d.markRect versions rect).getD (d.tile x y) 0 = d.seq ∨
        ((d.markRect versions rect).getD (d.tile x y) 0 = versions.getD (d.tile x y) 0 ∧
          ¬ rect.Contains x y)) := by
  have visible (inside : rect.Contains x y) : (rect.inter d.bounds).Contains x y :=
    (contains_inter rect d.bounds x y).mpr ⟨inside, whole_contains column row⟩
  simp only [markRect]
  split
  next empty =>
    exact ⟨rfl, Or.inr ⟨rfl, fun inside => not_empty_of_contains (visible inside) empty⟩⟩
  · refine ⟨length_stamp _ _ _, ?_⟩
    rw [getD_stamp _ _ _ (full ▸ d.tile_lt column row)]
    split
    · exact Or.inl rfl
    next untouched =>
      refine Or.inr ⟨rfl, fun inside => untouched ?_⟩
      exact mem_touchedTiles (inter_within rect d.width d.height) (visible inside)

theorem markRects_spec (d : Framebuffer) (column : x < d.width) (row : y < d.height)
    (damage : List Rect) :
    ∀ versions : List UInt64, versions.length = d.cols * d.rows →
      (damage.foldl d.markRect versions).length = versions.length ∧
        ((damage.foldl d.markRect versions).getD (d.tile x y) 0 = d.seq ∨
          ((damage.foldl d.markRect versions).getD (d.tile x y) 0 = versions.getD (d.tile x y) 0 ∧
            ∀ rect ∈ damage, ¬ rect.Contains x y)) := by
  induction damage with
  | nil =>
    exact fun versions _ => ⟨rfl, Or.inr ⟨rfl, fun _ member => (not_mem_nil member).elim⟩⟩
  | cons rect rest ih =>
    intro versions full
    obtain ⟨firstLength, first⟩ := d.markRect_spec column row rect full
    obtain ⟨length, later⟩ := ih (d.markRect versions rect) (firstLength.trans full)
    rw [foldl_cons]
    refine ⟨length.trans firstLength, ?_⟩
    rcases later with new | ⟨kept, outside⟩
    · exact Or.inl new
    · rcases first with new | ⟨same, missed⟩
      · exact Or.inl (kept.trans new)
      · refine Or.inr ⟨kept.trans same, ?_⟩
        intro other member
        cases mem_cons.mp member with
        | inl equal => exact equal ▸ missed
        | inr tail => exact outside other tail

/-! ## Publications -/

/-- What a publication of a picture does to a framebuffer. -/
structure Published (d : Framebuffer) (picture : Picture) (e : Framebuffer) : Prop where
  ok : e.Ok
  stamped : e.tileVersions ≠ []
  seq : e.seq = d.seq + 1
  width : e.width = picture.width
  height : e.height = picture.height
  frame : e.frame = picture.pix
  /-- A tile without the new stamp is as it was, and so are its pixels. -/
  kept : ∀ x y, x < e.width → y < e.height → e.version x y = e.seq ∨
    (d.width = e.width ∧ d.height = e.height ∧ d.tileVersions ≠ [] ∧
      e.version x y = d.version x y ∧
      ∀ k, k < 4 → d.frame.byte (place e.width x y k) = e.frame.byte (place e.width x y k))

theorem stamps_ne_nil (wide : 0 < d.width) (high : 0 < d.height) {versions : List UInt64}
    (full : versions.length = d.cols * d.rows) : versions ≠ [] := by
  rintro rfl
  refine Nat.ne_of_lt (Nat.mul_pos ?_ ?_) full
  · unfold cols framebufferTileSize
    omega
  · unfold rows framebufferTileSize
    omega

theorem markFrameDamage_none (b : Framebuffer) :
    b.markFrameDamage none = { b with tileVersions := replicate (b.cols * b.rows) b.seq } := by
  unfold markFrameDamage
  split
  · rfl
  next full => simp only [map_const', not_not.mp full]

theorem getD_replicate_seq (b : Framebuffer) (column : x < b.width) (row : y < b.height) :
    (replicate (b.cols * b.rows) b.seq).getD (b.tile x y) 0 = b.seq := by
  rw [getD_eq_getElem?_getD, getElem?_replicate, if_pos (b.tile_lt column row)]
  rfl

section

variable {b : Framebuffer} {picture : Picture} (size : b.frame.size = b.width * b.height * 4)
  (seq : b.seq = d.seq + 1) (columns : b.width = picture.width) (lines : b.height = picture.height)
  (frame : b.frame = picture.pix)
include size seq columns lines frame

theorem published_whole (wide : 0 < b.width) (high : 0 < b.height) :
    Published d picture (b.markFrameDamage none) := by
  rw [markFrameDamage_none]
  refine
    { ok := { wide, high, tiles := Or.inr ⟨length_replicate, size⟩ }
      stamped := stamps_ne_nil wide high length_replicate, seq, width := columns, height := lines
      frame, kept := ?_ }
  intro x y column row
  exact Or.inl (b.getD_replicate_seq column row)

/-- A publication that marks the damage in a frame of the same size. -/
theorem published_part {damage : List Rect} (ok : d.Ok)
    (stamps : d.tileVersions.length = d.cols * d.rows) (sameW : b.width = d.width)
    (sameH : b.height = d.height) (sameTiles : b.tileVersions = d.tileVersions)
    (outside : ∀ x y k, x < b.width → y < b.height → k < 4 → (∀ rect ∈ damage, ¬ rect.Contains x y) →
      d.frame.byte (place b.width x y k) = b.frame.byte (place b.width x y k)) :
    Published d picture (b.markFrameDamage (some damage)) := by
  have cols : b.cols = d.cols := by simp only [cols, sameW]
  have rows : b.rows = d.rows := by simp only [rows, sameH]
  have full : b.tileVersions.length = b.cols * b.rows := by rw [sameTiles, cols, rows, stamps]
  have wide : 0 < b.width := sameW ▸ ok.wide
  have high : 0 < b.height := sameH ▸ ok.high
  have marked : b.markFrameDamage (some damage) =
      { b with tileVersions := damage.foldl b.markRect b.tileVersions } := by
    unfold markFrameDamage
    rw [if_neg (not_not.mpr full)]
  have length : (damage.foldl b.markRect b.tileVersions).length = b.cols * b.rows :=
    (b.markRects_spec wide high damage b.tileVersions full).1.trans full
  rw [marked]
  refine
    { ok := { wide, high, tiles := Or.inr ⟨length, size⟩ }
      stamped := stamps_ne_nil wide high length, seq, width := columns, height := lines
      frame, kept := ?_ }
  intro x y column row
  rcases (b.markRects_spec column row damage b.tileVersions full).2 with new | ⟨same, missed⟩
  · exact Or.inl new
  · refine Or.inr ⟨sameW.symm, sameH.symm, stamps_ne_nil ok.wide ok.high stamps, ?_, ?_⟩
    · have tiles : b.tile x y = d.tile x y := by simp only [tile, cols]
      have old : b.tileVersions.getD (b.tile x y) 0 = d.version x y := by
        rw [sameTiles, tiles]
        rfl
      exact same.trans old
    · exact fun k byte => outside x y k column row byte missed

end

/-- The picture on display; zeros before the first publication. -/
def picture (d : Framebuffer) : Picture where
  width := d.width
  height := d.height
  pix := if d.tileVersions = [] then Store.blank (d.width * d.height * 4) else d.frame

theorem picture_pix (stamped : d.tileVersions ≠ []) : d.picture.pix = d.frame :=
  if_neg stamped

theorem Published.shown {picture : Picture} (published : Published d picture e) :
    e.picture = picture :=
  Picture.ext published.width published.height ((picture_pix published.stamped).trans published.frame)

/-- A whole publication copies the part of the image it shows and stamps every tile. -/
theorem showWhole_eq (d : Framebuffer) (width height : Nat) (img : RGBA) :
    d.showWhole width height img =
      { d with width, height, frame := (img.crop width height).pix, seq := d.seq + 1 }.markFrameDamage none := by
  have frame : blit (Store.blank (width * height * 4)) width 0 (img.piece 0 width) 0 height =
      (img.crop width height).pix := by
    apply eq_of_pixels
    · exact size_blit _ (fun y _ _ => img.length_piece 0 width y) (by omega) rfl (by omega)
    · rfl
    · intro x y k column row byte
      rw [byte_blit _ (fun y _ _ => img.length_piece 0 width y) (by omega) column byte,
        if_pos (by omega), img.getD_piece (by omega) (by omega) byte, img.byte_crop column row byte]
  unfold showWhole
  rw [frame]

theorem showWhole_published (d : Framebuffer) (wide : 0 < width) (high : 0 < height) (img : RGBA) :
    Published d (img.crop width height) (d.showWhole width height img) := by
  rw [showWhole_eq]
  exact published_whole rfl rfl rfl rfl rfl wide high

/-- Copying damaged rectangles: the damaged pixels are those of the image. -/
theorem byte_copyRects (img : RGBA) (rects : List Rect) (frame : Store) (column : x < width)
    (row : y < height) (byte : k < 4) :
    (rects.foldl (fun frame rect => copyRect img width frame (rect.inter (.whole width height))) frame).byte
        (place width x y k) =
      if ∃ rect ∈ rects, rect.Contains x y then img.pix.byte (y * img.stride.toNat + x * 4 + k)
      else frame.byte (place width x y k) := by
  have mapped : (rects.map fun rect => rect.inter (.whole width height)).foldl (copyRect img width) frame
      = rects.foldl (fun frame rect => copyRect img width frame (rect.inter (.whole width height))) frame :=
    foldl_map
  rw [← mapped, byte_foldl (fun x y k => img.pix.byte (y * img.stride.toNat + x * 4 + k)) ?_ frame
    column byte]
  · congr 1
    apply propext
    simp only [mem_map, exists_exists_and_eq_and, contains_inter, whole_contains column row,
      and_true]
  · intro rect member dst x y k column byte
    obtain ⟨original, _, rfl⟩ := mem_map.mp member
    exact byte_copyRect img (original.inter_within width height) dst column byte

theorem size_copyRects (img : RGBA) (rects : List Rect) {frame : Store}
    (size : frame.size = width * height * 4) :
    (rects.foldl (fun frame rect => copyRect img width frame (rect.inter (.whole width height)))
      frame).size = width * height * 4 :=
  size_foldl (fun rect _ _ start => size_copyRect img (rect.inter_within width height) start) frame size

/-- A list of rectangles that has every pixel in which a picture differs from the display. -/
def CoversChange (d : Framebuffer) (picture : Picture) (damage : List Rect) : Prop :=
  d.width = picture.width → d.height = picture.height →
    ∀ x y : Nat, x < picture.width → y < picture.height → ¬ d.picture.SameAt picture x y →
      ∃ rect ∈ damage, rect.Contains x y

/-- Copying damage that covers the change shows the whole picture. -/
theorem copyRects_crop (img : RGBA) (rects : List Rect) {frame : Store}
    (size : frame.size = width * height * 4)
    (covered : ∀ x y k, x < width → y < height → k < 4 → (∃ rect ∈ rects, rect.Contains x y) ∨
      frame.byte (place width x y k) = (img.crop width height).pix.byte (place width x y k)) :
    rects.foldl (fun frame rect => copyRect img width frame (rect.inter (.whole width height))) frame
      = (img.crop width height).pix := by
  apply eq_of_pixels (size_copyRects img rects size) rfl
  intro x y k column row byte
  rw [byte_copyRects img rects frame column row byte]
  split
  · exact (img.byte_crop column row byte).symm
  next outside => exact (covered x y k column row byte).resolve_left outside

theorem showDamage_full (wide : 0 < width) (high : 0 < height) (img : RGBA)
    {damage : Option (List Rect)}
    (full : (if d.width ≠ width ∨ d.height ≠ height ∨ d.frame.size ≠ width * height * 4 then none
      else damage) = none) :
    d.showDamage width height img damage =
      { d with width, height, frame := (img.crop width height).pix, seq := d.seq + 1 }.markFrameDamage
        none := by
  have seen : ¬ ((whole width height).inter (.whole width height)).Empty := by
    apply not_empty_of_contains (x := 0) (y := 0)
    exact (contains_inter _ _ _ _).mpr ⟨whole_contains wide high, whole_contains wide high⟩
  have base : (if d.frame.size ≠ width * height * 4 then Store.blank (width * height * 4)
      else d.frame).size = width * height * 4 := by
    split
    · rfl
    next same => exact not_not.mp same
  have frame := copyRects_crop img [.whole width height] base
    (fun x y k column row _ => Or.inl ⟨_, mem_cons_self, whole_contains column row⟩)
  simp only [showDamage, full, Option.getD_none, all_cons, all_nil, seen, decide_false,
    Bool.and_true, Bool.false_eq_true, if_false, frame]

/-- Published damage that covers the change: the picture is shown, or was there. -/
theorem showDamage_published (ok : d.Ok) (wide : 0 < width) (high : 0 < height) (img : RGBA)
    {damage : Option (List Rect)}
    (covers : ∀ rects, damage = some rects → d.CoversChange (img.crop width height) rects) :
    Published d (img.crop width height) (d.showDamage width height img damage) ∨
      (d.showDamage width height img damage = d ∧ d.picture = img.crop width height) := by
  cases effective : (if d.width ≠ width ∨ d.height ≠ height ∨ d.frame.size ≠ width * height * 4 then none
      else damage) with
  | none =>
    rw [showDamage_full wide high img effective]
    exact Or.inl (published_whole rfl rfl rfl rfl rfl wide high)
  | some rects =>
    have kept : ¬ (d.width ≠ width ∨ d.height ≠ height ∨ d.frame.size ≠ width * height * 4) := by
      intro resized
      rw [if_pos resized] at effective
      cases effective
    have given : damage = some rects := by rwa [if_neg kept] at effective
    obtain ⟨sameW, sameH, size⟩ : d.width = width ∧ d.height = height ∧
        d.frame.size = width * height * 4 := by
      simpa only [ne_eq, not_or, not_not] using kept
    have positive : 0 < width * height := Nat.mul_pos wide high
    obtain ⟨none, empty⟩ | ⟨stamps, _⟩ := ok.tiles
    · omega
    have stamped := stamps_ne_nil ok.wide ok.high stamps
    have unchanged {x y : Nat} (column : x < width) (row : y < height)
        (outside : ∀ rect ∈ rects, ¬ rect.Contains x y) {k : Nat} (byte : k < 4) :
        d.frame.byte (place width x y k) = (img.crop width height).pix.byte (place width x y k) := by
      by_contra differs
      obtain ⟨rect, member, inside⟩ := covers rects given sameW sameH x y column row
        (by
          rintro ⟨_, _, same⟩
          have equal := same k byte
          rw [picture_pix stamped, show d.picture.width = width from sameW] at equal
          exact differs equal)
      exact outside rect member inside
    have painted := copyRects_crop img rects size
      (fun x y k column row byte => by
        by_cases hit : ∃ rect ∈ rects, rect.Contains x y
        · exact Or.inl hit
        · exact Or.inr (unchanged column row (fun rect member inside => hit ⟨rect, member, inside⟩) byte))
    have fresh : ¬ d.frame.size ≠ width * height * 4 := not_not.mpr size
    simp only [showDamage, effective, Option.getD_some, if_neg fresh, painted]
    split
    next missed =>
      right
      refine ⟨rfl, Picture.ext sameW sameH ((picture_pix stamped).trans ?_)⟩
      apply eq_of_pixels size rfl
      intro x y k column row byte
      refine unchanged column row ?_ byte
      intro rect member inside
      have empty : (rect.inter (.whole width height)).Empty :=
        of_decide_eq_true (all_eq_true.mp missed rect member)
      exact not_empty_of_contains
        ((contains_inter _ _ _ _).mpr ⟨inside, whole_contains column row⟩) empty
    · left
      refine published_part rfl rfl rfl rfl rfl ok stamps sameW.symm sameH.symm rfl ?_
      intro x y k column row byte outside
      exact unchanged column row outside byte

/-! ## Readers -/

/-- Where a tile's stamp is not newer than the reader's number, it looks as in the reader's picture
    and in all pictures since its last call. -/
structure Lags (d : Framebuffer) (r : VncFrame) (since : List Picture) : Prop where
  seq : r.seq ≤ d.seq
  seen : r.width = d.width → r.height = d.height → r.pix.size = d.width * d.height * 4 →
    d.tileVersions ≠ [] → ∀ x y, x < d.width → y < d.height → d.version x y ≤ r.seq →
      (∀ k, k < 4 → r.pix.byte (place d.width x y k) = d.frame.byte (place d.width x y k)) ∧
        ∀ p ∈ since, p.SameAt d.picture x y

variable {r : VncFrame} {since : List Picture}

/-- A publication leaves readers behind where it stamps. -/
theorem Lags.published {picture : Picture} (lags : Lags d r since)
    (published : Published d picture e) (noWrap : d.seq < d.seq + 1) : Lags e r (picture :: since) := by
  have newer : r.seq < e.seq := by
    rw [published.seq]
    exact UInt64.lt_of_le_of_lt lags.seq noWrap
  refine { seq := UInt64.le_of_lt newer, seen := ?_ }
  intro width height size stamped x y column row old
  rcases published.kept x y column row with new | ⟨sameW, sameH, before, version, same⟩
  · rw [new] at old
    exact absurd old (UInt64.not_le.mpr newer)
  · rw [version] at old
    have sizes : r.pix.size = d.width * d.height * 4 := by rw [size, sameW, sameH]
    obtain ⟨own, earlier⟩ := lags.seen (width.trans sameW.symm) (height.trans sameH.symm) sizes before x y
      (sameW ▸ column) (sameH ▸ row) old
    rw [sameW] at own
    refine ⟨fun k byte => (own k byte).trans (same k byte), ?_⟩
    intro p member
    cases mem_cons.mp member with
    | inl now =>
      rw [now, published.shown]
      exact ⟨rfl, rfl, fun _ _ => rfl⟩
    | inr past =>
      obtain ⟨pastW, pastH, pixels⟩ := earlier p past
      refine ⟨pastW.trans sameW, pastH.trans sameH, fun k byte => ?_⟩
      rw [pixels k byte, picture_pix before, picture_pix stamped, show d.picture.width = e.width from sameW]
      exact same k byte

theorem Lags.again (lags : Lags d r since) : Lags d r (d.picture :: since) := by
  refine { seq := lags.seq, seen := ?_ }
  intro width height size stamped x y column row old
  obtain ⟨own, earlier⟩ := lags.seen width height size stamped x y column row old
  refine ⟨own, fun p member => ?_⟩
  cases mem_cons.mp member with
  | inl now =>
    rw [now]
    exact ⟨rfl, rfl, fun _ _ => rfl⟩
  | inr past => exact earlier p past

theorem length_piece (d : Framebuffer) (left span y : Nat) : (d.piece left span y).length = span * 4 := by
  unfold piece
  split <;> simp

theorem getD_piece (ok : d.Ok) {left span : Nat} (low : left ≤ x) (high : x < left + span)
    (inside : left + span ≤ d.width) (row : y < d.height) (byte : k < 4) :
    (d.piece left span y).getD ((x - left) * 4 + k) 0 = d.picture.pix.byte (place d.width x y k) := by
  unfold piece
  obtain ⟨none, empty⟩ | ⟨stamps, size⟩ := ok.tiles
  · rw [if_neg (by rw [empty]; omega), getD_eq_getElem?_getD, getElem?_replicate,
      if_pos (by omega)]
    simp only [picture, if_pos none, Store.blank]
    rfl
  · have lines : (y + 1) * d.width ≤ d.height * d.width := mul_le_mul_right d.width row
    rw [succ_mul, mul_comm d.height d.width] at lines
    have fits : place d.width left y 0 + span * 4 ≤ d.frame.size := by
      rw [size]
      unfold place
      omega
    rw [if_pos fits, getD_eq_getElem?_getD, Store.read_getElem?, if_pos (by omega), Option.getD_some,
      picture_pix (stamps_ne_nil ok.wide ok.high stamps)]
    congr 1
    unfold place
    omega

theorem byte_copyChange (ok : d.Ok) (within : rect.Within d.width d.height) (pix : Store)
    (column : x < d.width) (byte : k < 4) :
    (d.copyChange pix rect).byte (place d.width x y k) =
      if rect.Contains x y then d.picture.pix.byte (place d.width x y k)
      else pix.byte (place d.width x y k) := by
  unfold copyChange
  rw [byte_blit_rect pix within (fun y _ _ => d.length_piece _ _ y) column byte]
  split
  next inside =>
    obtain ⟨left, top, wide, high, right, bottom⟩ := within
    unfold Rect.Contains at inside
    exact getD_piece ok (by omega) (by unfold dx; omega) (by unfold dx; omega) (by omega) byte
  · rfl

theorem size_copyChange (within : rect.Within d.width d.height) {pix : Store}
    (size : pix.size = d.width * d.height * 4) :
    (d.copyChange pix rect).size = d.width * d.height * 4 :=
  size_blit_rect pix within (fun y _ _ => d.length_piece _ _ y) size

theorem size_picture (ok : d.Ok) : d.picture.pix.size = d.width * d.height * 4 := by
  unfold picture
  obtain ⟨none, _⟩ | ⟨_, size⟩ := ok.tiles
  · rw [if_pos none]
    rfl
  · split
    · rfl
    · exact size

/-- Copying patches brings a picture up to date that agrees with the display outside them. -/
theorem foldl_copyChange (ok : d.Ok) {rects : List Rect}
    (within : ∀ r ∈ rects, r.Within d.width d.height) {pix : Store}
    (size : pix.size = d.width * d.height * 4)
    (agrees : ∀ x y k, x < d.width → y < d.height → k < 4 → (∃ r ∈ rects, r.Contains x y) ∨
      pix.byte (place d.width x y k) = d.picture.pix.byte (place d.width x y k)) :
    rects.foldl d.copyChange pix = d.picture.pix := by
  apply eq_of_pixels (size_foldl (fun r member _ start => size_copyChange (within r member) start) pix size)
    (size_picture ok)
  intro x y k column row byte
  rw [byte_foldl (fun x y k => d.picture.pix.byte (place d.width x y k))
    (fun r member dst x y k column byte => byte_copyChange ok (within r member) dst column byte) pix
    column byte]
  split
  · rfl
  next outside => exact (agrees x y k column row byte).resolve_left outside

structure CaughtUp (d : Framebuffer) (since : List Picture) (rects : List Rect) (r : VncFrame) : Prop where
  width : r.width = d.width
  height : r.height = d.height
  pix : r.pix = d.picture.pix
  seq : r.seq = d.seq
  within : ∀ rect ∈ rects, rect.Within d.width d.height
  disjoint : rects.Pairwise Rect.Disjoint
  covers : ∀ x y : Nat, x < d.width → y < d.height →
    (∃ p ∈ since, ¬ p.SameAt d.picture x y) → ∃ rect ∈ rects, rect.Contains x y

theorem copyFrameChanges_spec (ok : d.Ok) (lags : Lags d r since) (force : Bool) :
    CaughtUp d since (d.copyFrameChanges r force).1 (d.copyFrameChanges r force).2 := by
  simp only [copyFrameChanges]
  split
  · -- the whole frame is copied
    have everywhere := d.patches_bounds d.seq
    have inFrame {x y : Nat} (column : x < d.width) (row : y < d.height) :
        ∃ rect ∈ [d.bounds], rect.Contains x y := ⟨_, mem_cons_self, whole_contains column row⟩
    refine
      { width := rfl, height := rfl, pix := ?_, seq := rfl, within := everywhere.within
        disjoint := everywhere.disjoint, covers := fun x y column row _ => inFrame column row }
    refine foldl_copyChange ok everywhere.within ?_ (fun x y k column row _ => Or.inl (inFrame column row))
    split
    · rfl
    next same => exact not_not.mp same
  next partly =>
    simp only [Bool.or_eq_true, bne_iff_ne, ne_eq, List.isEmpty_iff, not_or, not_not] at partly
    obtain ⟨⟨⟨⟨_, width⟩, height⟩, size⟩, stamped⟩ := partly
    have patches := d.changedTileRects_patches r.seq
    have old {x y : Nat} (column : x < d.width) (row : y < d.height)
        (missed : ¬ ∃ rect ∈ d.changedTileRects r.seq, rect.Contains x y) : d.version x y ≤ r.seq :=
      UInt64.not_lt.mp (fun newer => missed (patches.covers x y column row newer))
    refine
      { width := rfl, height := rfl, pix := ?_, seq := rfl, within := patches.within
        disjoint := patches.disjoint, covers := ?_ }
    · rw [if_neg (not_not.mpr size)]
      refine foldl_copyChange ok patches.within size ?_
      intro x y k column row byte
      by_cases hit : ∃ rect ∈ d.changedTileRects r.seq, rect.Contains x y
      · exact Or.inl hit
      · right
        rw [(lags.seen width height size stamped x y column row (old column row hit)).1 k byte,
          picture_pix stamped]
    · rintro x y column row ⟨p, member, differs⟩
      by_contra missed
      exact differs
        ((lags.seen width height size stamped x y column row (old column row missed)).2 p member)

theorem CaughtUp.lags {rects : List Rect} (caughtUp : CaughtUp d since rects r) :
    Lags d r [d.picture] := by
  refine { seq := by rw [caughtUp.seq]; exact UInt64.le_refl _, seen := ?_ }
  intro _ _ _ stamped x y _ _ _
  refine ⟨fun k _ => ?_, fun p member => ?_⟩
  · rw [caughtUp.pix, picture_pix stamped]
  · rw [mem_singleton.mp member]
    exact ⟨rfl, rfl, fun _ _ => rfl⟩

end Framebuffer

/-! ## Runs -/

inductive DisplayAction where
  | flush (width height : Int) (img : Option RGBA)
  | flushDamage (width height : Int) (img : Option RGBA) (damage : Option (List Rect))
  | read (reader : Nat) (force : Bool)

/-- A display with its readers, the last picture, and for every reader the pictures since its last
    call. -/
structure Viewers where
  display : Framebuffer
  readers : Nat → VncFrame
  current : Picture
  since : Nat → List Picture

namespace Viewers

def initial : Viewers where
  display := newFramebuffer
  readers := fun _ => .initial
  current := newFramebuffer.picture
  since := fun _ => [newFramebuffer.picture]

/-- What a publication shows, when it is valid. -/
def shows (width height : Int) (img : Option RGBA) : Option Picture :=
  match checked width height img with
  | .ok (some img) => some (img.crop width.toNat height.toNat)
  | _ => none

/-- After a publication: an error leaves the display as it was. -/
def publish (s : Viewers) (result : Except DisplayError Framebuffer) (shown : Option Picture) : Viewers :=
  let display := match result with
    | .ok display => display
    | .error _ => s.display
  match shown with
  | none => { s with display }
  | some picture => { s with display, current := picture, since := fun i => picture :: s.since i }

def act (s : Viewers) : DisplayAction → Viewers
  | .flush width height img =>
    s.publish (s.display.flush width height img) (shows width height img)
  | .flushDamage width height img damage =>
    s.publish (s.display.flushDamage width height img damage) (shows width height img)
  | .read i force =>
    let (_, frame) := s.display.copyFrameChanges (s.readers i) force
    { s with
        readers := update s.readers i frame
        since := update s.since i [s.current] }

def run (s : Viewers) (actions : List DisplayAction) : Viewers := actions.foldl act s

/-- Lists of damage name every pixel that differs from the picture published before. -/
def Truthful (s : Viewers) : DisplayAction → Prop
  | .flushDamage width height img (some damage) =>
    ∀ picture, shows width height img = some picture →
      s.current.width = picture.width → s.current.height = picture.height →
        ∀ x y : Nat, x < picture.width → y < picture.height → ¬ s.current.SameAt picture x y →
          ∃ rect ∈ damage, rect.Contains x y
  | _ => True

def TruthfulRun : Viewers → List DisplayAction → Prop
  | _, [] => True
  | s, action :: rest => s.Truthful action ∧ TruthfulRun (s.act action) rest

def isPublication : DisplayAction → Bool
  | .read _ _ => false
  | _ => true

/-- What holds of a display and its readers after `count` publications. -/
structure Steady (s : Viewers) (count : Nat) : Prop where
  ok : s.display.Ok
  shown : s.display.picture = s.current
  counted : s.display.seq.toNat ≤ count
  lags : ∀ i, s.display.Lags (s.readers i) (s.since i)

theorem steady_initial : Steady initial 0 where
  ok := { wide := by decide, high := by decide, tiles := Or.inl ⟨rfl, rfl⟩ }
  shown := rfl
  counted := le_rfl
  lags := by
    intro i
    refine { seq := UInt64.le_refl _, seen := ?_ }
    intro width
    -- a reader starts with an image of no width
    have none : (0 : Nat) = vncDefaultWidth := width
    exact absurd none (by decide)

theorem checked_pos {width height : Int} {img : Option RGBA} {checkedImg : RGBA}
    (good : checked width height img = .ok (some checkedImg)) : 0 < width.toNat ∧ 0 < height.toNat := by
  unfold checked at good
  split at good
  · cases good
  · omega

section

variable {s : Viewers} {count : Nat} (steady : Steady s count)
include steady

theorem Steady.shows (few : count + 1 < 2 ^ 64) {picture : Picture}
    (shown : s.display.Published picture e ∨ (e = s.display ∧ s.display.picture = picture)) :
    Steady { s with display := e, current := picture, since := fun i => picture :: s.since i } (count + 1) := by
  rcases shown with published | ⟨rfl, same⟩
  · have counted := steady.counted
    have next : (s.display.seq + 1).toNat = s.display.seq.toNat + 1 := by
      rw [UInt64.toNat_add, UInt64.toNat_one]
      omega
    have noWrap : s.display.seq < s.display.seq + 1 := by
      rw [UInt64.lt_iff_toNat_lt, next]
      exact lt_succ_self _
    refine { ok := published.ok, shown := published.shown, counted := ?_, lags := ?_ }
    · simp only [published.seq, next]
      omega
    · exact fun i => (steady.lags i).published published noWrap
  · subst same
    exact
      { ok := steady.ok, shown := rfl, counted := le_succ_of_le steady.counted
        lags := fun i => (steady.lags i).again }

theorem Steady.unchanged : Steady s (count + 1) :=
  { steady with counted := le_succ_of_le steady.counted }

theorem Steady.flush (few : count + 1 < 2 ^ 64) (width height : Int) (img : Option RGBA) :
    Steady (s.act (.flush width height img)) (count + 1) := by
  simp only [act, publish, Framebuffer.flush, Viewers.shows]
  cases outcome : checked width height img with
  | error err => exact steady.unchanged
  | ok result =>
    cases result with
    | none => exact steady.unchanged
    | some img =>
      obtain ⟨wide, high⟩ := checked_pos outcome
      exact steady.shows few (Or.inl (s.display.showWhole_published wide high img))

theorem Steady.flushDamage (few : count + 1 < 2 ^ 64) {width height : Int} {img : Option RGBA}
    {damage : Option (List Rect)}
    (truthful : s.Truthful (.flushDamage width height img damage)) :
    Steady (s.act (.flushDamage width height img damage)) (count + 1) := by
  simp only [act, publish, Framebuffer.flushDamage, Viewers.shows]
  cases outcome : checked width height img with
  | error err => exact steady.unchanged
  | ok result =>
    cases result with
    | none => exact steady.unchanged
    | some img =>
      obtain ⟨wide, high⟩ := checked_pos outcome
      refine steady.shows few (Framebuffer.showDamage_published steady.ok wide high img ?_)
      rintro rects rfl
      have named := truthful (img.crop width.toNat height.toNat) (by simp only [Viewers.shows, outcome])
      unfold Framebuffer.CoversChange
      rw [steady.shown]
      have sameW : s.display.width = s.current.width := congrArg Picture.width steady.shown
      have sameH : s.display.height = s.current.height := congrArg Picture.height steady.shown
      rw [sameW, sameH]
      exact named

theorem Steady.read (i : Nat) (force : Bool) : Steady (s.act (.read i force)) count := by
  refine { steady with lags := ?_ }
  intro j
  have caughtUp := copyFrameChanges_spec steady.ok (steady.lags i) force
  simp only [act]
  by_cases same : j = i
  · subst same
    rw [update_self, update_self, ← steady.shown]
    exact caughtUp.lags
  · rw [update_of_ne same, update_of_ne same]
    exact steady.lags j

end

theorem Steady.run (actions : List DisplayAction) :
    ∀ {s : Viewers} {count : Nat}, Steady s count → s.TruthfulRun actions →
      count + actions.countP isPublication < 2 ^ 64 →
        Steady (s.run actions) (count + actions.countP isPublication) := by
  induction actions with
  | nil => exact fun steady _ _ => steady
  | cons action rest ih =>
    intro s count steady truthful few
    have counted := countP_cons (p := isPublication) (a := action) (l := rest)
    rw [counted] at few ⊢
    cases action with
    | read i force => exact ih (steady.read i force) truthful.2 few
    | flush width height img =>
      simp only [isPublication, if_true] at few ⊢
      have next := ih (steady.flush (by omega) width height img) truthful.2 (by omega)
      rwa [add_assoc, add_comm 1] at next
    | flushDamage width height img damage =>
      simp only [isPublication, if_true] at few ⊢
      have next := ih (steady.flushDamage (by omega) truthful.1) truthful.2 (by omega)
      rwa [add_assoc, add_comm 1] at next

def dot (red : UInt8) : RGBA := { dx := 1, dy := 1, stride := 4, pix := (Store.blank 4).write 0 [red] }

def showDot (red : UInt8) : DisplayAction := .flush 1 1 (some (dot red))

/-- In every history of fewer than 2^64 publications a reader that calls has the picture
    published last, and is told of every pixel that was different since its last call. -/
theorem readers_catch_up (actions : List DisplayAction) (truthful : TruthfulRun initial actions)
    (few : actions.countP isPublication < 2 ^ 64) (i : Nat) (force : Bool) :
    let s := initial.run actions
    let (rects, frame) := s.display.copyFrameChanges (s.readers i) force
    (frame.width = s.current.width ∧ frame.height = s.current.height ∧ frame.pix = s.current.pix) ∧
      (∀ rect ∈ rects, rect.Within s.current.width s.current.height) ∧
      rects.Pairwise Rect.Disjoint ∧
      ∀ x y : Nat, x < s.current.width → y < s.current.height →
        (∃ p ∈ s.since i, ¬ p.SameAt s.current x y) → ∃ rect ∈ rects, rect.Contains x y := by
  have steady := Steady.run actions steady_initial truthful (by omega)
  have caughtUp := copyFrameChanges_spec steady.ok (steady.lags i) force
  have within := caughtUp.within
  have covers := caughtUp.covers
  have sameW : (initial.run actions).display.width = _ := congrArg Picture.width steady.shown
  have sameH : (initial.run actions).display.height = _ := congrArg Picture.height steady.shown
  rw [sameW, sameH] at within covers
  rw [steady.shown] at covers
  exact ⟨⟨caughtUp.width.trans sameW, caughtUp.height.trans sameH,
    caughtUp.pix.trans (congrArg Picture.pix steady.shown)⟩, within, caughtUp.disjoint, covers⟩

/-- A dot that a reader sees, and another that is published as damage of the first. -/
theorem reader_sees_damaged_dot :
    let actions := [showDot 0, .read 0 false, .flushDamage 1 1 (some (dot 1)) (some [whole 1 1])]
    TruthfulRun initial actions ∧ actions.countP isPublication < 2 ^ 64 ∧
      ((initial.run actions).display.copyFrameChanges ((initial.run actions).readers 0) false).2.pix =
        ((dot 1).crop 1 1).pix := by
  intro actions
  have truthful : TruthfulRun initial actions := by
    refine ⟨trivial, trivial, ?_, trivial⟩
    intro picture shown _ _ x y column row _
    have same : (dot 1).crop 1 1 = picture := Option.some.inj shown
    subst same
    have left : x < 1 := column
    have top : y < 1 := row
    exact ⟨_, mem_cons_self, whole_contains left top⟩
  exact ⟨truthful, by decide, (readers_catch_up actions truthful (by decide) 0 false).1.2.2⟩

def dotDisplay (red : UInt8) (seq : UInt64) : Framebuffer where
  width := 1
  height := 1
  frame := ((dot red).crop 1 1).pix
  tileVersions := [seq]
  seq := seq

theorem act_showDot (s : Viewers) (red : UInt8) :
    s.act (showDot red) =
      { s with
          display := dotDisplay red (s.display.seq + 1)
          current := (dot red).crop 1 1
          since := fun i => (dot red).crop 1 1 :: s.since i } := by
  have shown : s.display.showWhole 1 1 (dot red) = dotDisplay red (s.display.seq + 1) := by
    rw [showWhole_eq, markFrameDamage_none]
    simp [dotDisplay, cols, rows, framebufferTileSize]
  rw [← shown]
  rfl

/-- The same dot shown again and again moves only the sequence number. -/
theorem run_showDot (red : UInt8) (n : Nat) :
    ∀ s : Viewers,
      (s.run (replicate n (showDot red))).display.seq = s.display.seq + UInt64.ofNat n ∧
        (s.run (replicate n (showDot red))).readers = s.readers := by
  induction n with
  | zero => exact fun s => ⟨(UInt64.add_zero _).symm, rfl⟩
  | succ n ih =>
    intro s
    obtain ⟨seq, readers⟩ := ih (s.act (showDot red))
    simp only [replicate_succ, run, foldl_cons] at seq readers ⊢
    have first : (s.act (showDot red)).display.seq = s.display.seq + 1 := by
      rw [act_showDot]
      rfl
    refine ⟨seq.trans ?_, readers⟩
    rw [first, UInt64.ofNat_add, UInt64.add_assoc, UInt64.add_comm 1]
    rfl

/-- A reader sees a dot; the dot is then shown `n` times more, and another dot after it. -/
def dotRun (n : Nat) : List DisplayAction :=
  [showDot 0, .read 0 false] ++ replicate n (showDot 0) ++ [showDot 1]

theorem truthfulRun_append (xs ys : List DisplayAction) :
    ∀ s : Viewers, s.TruthfulRun xs → (s.run xs).TruthfulRun ys → s.TruthfulRun (xs ++ ys) := by
  induction xs with
  | nil => exact fun _ _ truthful => truthful
  | cons action rest ih => exact fun s first second => ⟨first.1, ih _ first.2 second⟩

theorem truthfulRun_showDot (red : UInt8) (n : Nat) :
    ∀ s : Viewers, s.TruthfulRun (replicate n (showDot red)) := by
  induction n with
  | zero => exact fun _ => trivial
  | succ n ih => exact fun s => ⟨trivial, ih _⟩

/-- A reader with the number of the dot on display copies nothing. -/
theorem copyFrameChanges_dotDisplay (red : UInt8) {r : VncFrame} {seq : UInt64} (width : r.width = 1)
    (height : r.height = 1) (size : r.pix.size = 4) (seen : r.seq = seq) :
    ((dotDisplay red seq).copyFrameChanges r false).2.pix = r.pix := by
  have unchanged : (dotDisplay red seq).changedRow seq 0 = [false] := by
    simp [changedRow, dotDisplay, cols, framebufferTileSize]
  have rows : (dotDisplay red seq).rows = 1 := by
    simp [dotDisplay, rows, framebufferTileSize]
  have runs : (dotDisplay red seq).runRects seq = [] := by
    simp [runRects, rows, unchanged, scan]
  have nothing : (dotDisplay red seq).changedTileRects seq = [] := by
    simp [changedTileRects, runs, collect]
  have stamped : (dotDisplay red seq).tileVersions.isEmpty = false := rfl
  have sameW : (dotDisplay red seq).width = 1 := rfl
  have sameH : (dotDisplay red seq).height = 1 := rfl
  simp [copyFrameChanges, width, height, size, seen, nothing, stamped, sameW, sameH]

theorem dotRun_truthful (n : Nat) : TruthfulRun initial (dotRun n) := by
  refine truthfulRun_append _ _ _ (truthfulRun_append _ _ _ ⟨trivial, trivial, trivial⟩ ?_)
    ⟨trivial, trivial⟩
  exact truthfulRun_showDot 0 n _

/-- After it the other dot is on display, and the reader still has the first one. -/
theorem run_dotRun (n : Nat) :
    (initial.run (dotRun n)).display = dotDisplay 1 (1 + UInt64.ofNat n + 1) ∧
      (initial.run (dotRun n)).current = (dot 1).crop 1 1 ∧
      (initial.run (dotRun n)).readers 0 = ((dotDisplay 0 1).copyFrameChanges .initial false).2 := by
  let a := initial.run [showDot 0, .read 0 false]
  have start : a.display.seq = 1 := by
    simp only [a, run, foldl_cons, foldl_nil, act]
    rfl
  have reader : a.readers 0 = ((dotDisplay 0 1).copyFrameChanges .initial false).2 := by
    simp only [a, run, foldl_cons, foldl_nil, act, update_self]
    rfl
  obtain ⟨seq, readers⟩ := run_showDot 0 n a
  have last : initial.run (dotRun n) = (a.run (replicate n (showDot 0))).act (showDot 1) := by
    simp only [dotRun, a, run, foldl_append, foldl_cons, foldl_nil]
  rw [last, act_showDot, seq, start]
  exact ⟨rfl, rfl, (congrFun readers 0).trans reader⟩

/-- When the numbers have started again, the other dot has the number that the reader saw. -/
theorem reader_keeps_old_dot {n : Nat} (wraps : 1 + UInt64.ofNat n + 1 = 1) :
    ((initial.run (dotRun n)).display.copyFrameChanges ((initial.run (dotRun n)).readers 0) false).2.pix ≠
      (initial.run (dotRun n)).current.pix := by
  have first := Steady.run [showDot 0] steady_initial ⟨trivial, trivial⟩ (by decide)
  have shown : (initial.run [showDot 0]).display = dotDisplay 0 1 := by
    rw [run, foldl_cons, foldl_nil, act_showDot]
    rfl
  have caughtUp := copyFrameChanges_spec first.ok (first.lags 0) false
  rw [shown] at caughtUp
  have old : ((dotDisplay 0 1).copyFrameChanges .initial false).2.pix = ((dot 0).crop 1 1).pix := caughtUp.pix
  have untouched : ((dotDisplay 1 1).copyFrameChanges
      ((dotDisplay 0 1).copyFrameChanges .initial false).2 false).2.pix = _ :=
    copyFrameChanges_dotDisplay 1 caughtUp.width caughtUp.height (congrArg Store.size old) caughtUp.seq
  obtain ⟨display, current, reader⟩ := run_dotRun n
  rw [display, current, reader, wraps, untouched, old]
  intro same
  have red := congrArg (fun pix => pix.byte 0) same
  exact absurd red (by decide)

/-- The 2^64th publication after a call takes the number the reader has seen, and the reader
    keeps a picture that is no longer on display. -/
theorem reader_misses_wrapped_publication :
    TruthfulRun initial (dotRun (2 ^ 64 - 1)) ∧
      ((initial.run (dotRun (2 ^ 64 - 1))).display.copyFrameChanges
          ((initial.run (dotRun (2 ^ 64 - 1))).readers 0) false).2.pix ≠
        (initial.run (dotRun (2 ^ 64 - 1))).current.pix :=
  ⟨dotRun_truthful _, reader_keeps_old_dot (by decide)⟩

end Viewers

end Gokvm.Virtio
