import Gokvm.Virtio.GpuResources

/-! # What a display shows

Each flush converts the pixels of its rectangle into the picture of the desktop. The specification
keeps the flushes since the scanout was last changed, each with its resource then: a pixel shows
what the last flush that covered it found, and the first flush covers all of the viewport.
-/

namespace Gokvm.Virtio

open Lib List Rect Gpu

/-! ## Conversions -/

/-- A pixel converted channel by channel: byte `k` of the result. -/
def Channels.value (c : Channels) (pixel : Nat → UInt8) : Nat → UInt8
  | 0 => pixel c.r
  | 1 => pixel c.g
  | 2 => pixel c.b
  | _ => if c.hasAlpha then pixel c.a else 0xff

theorem byte_eq_of_bits {a b : UInt8}
    (bits : ∀ i, i < 8 → a.toBitVec.getLsbD i = b.toBitVec.getLsbD i) : a = b :=
  UInt8.eq_of_toBitVec_eq (BitVec.eq_of_getLsbD_eq bits)

theorem bytesOfUint32_swap (b0 b1 b2 b3 : UInt8) (hasAlpha : Bool) :
    convertWords hasAlpha [b0, b1, b2, b3] = [b2, b1, b0, if hasAlpha then b3 else 0xff] := by
  simp only [convertWords, bytesOfUint32, append_nil, cons.injEq, and_true]
  refine ⟨?_, ?_, ?_, ?_⟩
  all_goals
    apply byte_eq_of_bits
    intro i byte
    cases hasAlpha
    all_goals
      simp [uint32OfBytes]
      have which : i = 0 ∨ i = 1 ∨ i = 2 ∨ i = 3 ∨ i = 4 ∨ i = 5 ∨ i = 6 ∨ i = 7 := by omega
      rcases which with rfl | rfl | rfl | rfl | rfl | rfl | rfl | rfl <;> simp

theorem convertWords_cons (hasAlpha : Bool) (b0 b1 b2 b3 : UInt8) (rest : Bytes) :
    convertWords hasAlpha (b0 :: b1 :: b2 :: b3 :: rest) =
      [b2, b1, b0, if hasAlpha then b3 else 0xff] ++ convertWords hasAlpha rest := by
  rw [← bytesOfUint32_swap]
  simp only [convertWords, append_nil]

theorem GpuResource.channels_a {res : GpuResource} {cursor : Bool} (r : (res.channels cursor).r = 2)
    (alpha : (res.channels cursor).hasAlpha = true) : (res.channels cursor).a = 3 := by
  unfold GpuResource.channels formatOffsets at *
  cases cursor <;> split_ifs at * <;> simp_all

/-- The conversion of whole words is the conversion of the channels. -/
theorem GpuResource.convertRow_eq (res : GpuResource) (cursor : Bool) (src : Bytes) :
    convertRow (res.channels cursor) src = convertChannels (res.channels cursor) src := by
  unfold convertRow
  split
  next bgr =>
    obtain ⟨r, g, b⟩ := bgr
    have a := res.channels_a r
    generalize res.channels cursor = c at *
    fun_induction convertChannels c src with
    | case1 b0 b1 b2 b3 rest pixel alpha ih =>
      simp only [convertWords_cons, ih, r, g, b]
      cases shown : c.hasAlpha with
      | false => simp [pixel, alpha, shown]
      | true => simp [pixel, alpha, shown, a shown]
    | case2 src short =>
      rw [convertWords]
      exact short
  · rfl

theorem exists_pixel {src : Bytes} {n : Nat} (length : src.length = (n + 1) * 4) :
    ∃ b0 b1 b2 b3 rest, src = b0 :: b1 :: b2 :: b3 :: rest ∧ rest.length = n * 4 := by
  match src, length with
  | [], length | [_], length | [_, _], length | [_, _, _], length =>
    simp only [length_cons, length_nil] at length
    omega
  | b0 :: b1 :: b2 :: b3 :: rest, length =>
    refine ⟨b0, b1, b2, b3, rest, rfl, ?_⟩
    simp only [length_cons] at length
    omega

theorem length_convertChannels (c : Channels) {n : Nat} :
    ∀ {src : Bytes}, src.length = n * 4 → (convertChannels c src).length = n * 4 := by
  induction n with
  | zero =>
    intro src length
    have none : src = [] := length_eq_zero_iff.mp (by omega)
    subst none
    rfl
  | succ n ih =>
    intro src length
    obtain ⟨b0, b1, b2, b3, rest, rfl, tail⟩ := exists_pixel length
    simp only [convertChannels, cons_append, nil_append, length_cons, ih tail]
    omega

/-- The offsets of the channels lie in a pixel. -/
structure Channels.Ok (c : Channels) : Prop where
  r : c.r < 4
  g : c.g < 4
  b : c.b < 4
  a : c.a < 4

theorem GpuResource.channels_ok (res : GpuResource) (cursor : Bool) : (res.channels cursor).Ok := by
  unfold GpuResource.channels formatOffsets
  cases cursor <;> split_ifs <;> constructor <;> simp

/-- Byte `k` of the converted pixel `j` of a row. -/
theorem getD_convertChannels {c : Channels} (ok : c.Ok) {n : Nat} :
    ∀ {src : Bytes} {j k : Nat}, src.length = n * 4 → j < n → k < 4 →
      (convertChannels c src).getD (j * 4 + k) 0 = c.value (fun i => src.getD (j * 4 + i) 0) k := by
  induction n with
  | zero => exact fun _ none => absurd none (Nat.not_lt_zero _)
  | succ n ih =>
    intro src j k length pixel byte
    obtain ⟨b0, b1, b2, b3, rest, rfl, tail⟩ := exists_pixel length
    cases j with
    | zero =>
      have inPixel {i : Nat} (small : i < 4) :
          (b0 :: b1 :: b2 :: b3 :: rest).getD (0 * 4 + i) 0 = [b0, b1, b2, b3].getD i 0 := by
        match i, small with
        | 0, _ | 1, _ | 2, _ | 3, _ => rfl
      match k, byte with
      | 0, _ => exact (inPixel ok.r).symm
      | 1, _ => exact (inPixel ok.g).symm
      | 2, _ => exact (inPixel ok.b).symm
      | 3, _ =>
        simp only [Channels.value, inPixel ok.a]
        rfl
    | succ j =>
      have later := ih tail (j := j) (k := k) (by omega) byte
      have skip (i : Nat) : (j + 1) * 4 + i = j * 4 + i + 1 + 1 + 1 + 1 := by omega
      simp only [convertChannels, cons_append, nil_append, skip, getD_cons_succ]
      exact later

/-! ## Painting -/

namespace GpuResource

def Full (res : GpuResource) : Prop := res.data.size = res.width.toNat * res.height.toNat * 4

def shown (res : GpuResource) (cursor : Bool) (x y k : Nat) : UInt8 :=
  (res.channels cursor).value (fun i => res.data.byte (place res.width.toNat x y i)) k

variable {res : GpuResource} {left span y : Nat} (full : res.Full) (cursor : Bool)
  (columns : left + span ≤ res.width.toNat) (row : y < res.height.toNat)
include full columns row

theorem convertedRow_eq :
    res.convertedRow cursor left span y =
      convertChannels (res.channels cursor) (res.data.read (place res.width.toNat left y 0) (span * 4)) := by
  have rows : (y + 1) * res.width.toNat ≤ res.height.toNat * res.width.toNat :=
    Nat.mul_le_mul_right _ row
  rw [Nat.succ_mul, Nat.mul_comm res.height.toNat] at rows
  have size : res.data.size = _ := full
  have pixels : min (span * 4) (res.data.size - (y * res.width.toNat + left) * 4) / 4 * 4 = span * 4 := by
    omega
  simp only [convertedRow, convertRow_eq, pixels, place, Nat.add_zero]

theorem length_convertedRow : (res.convertedRow cursor left span y).length = span * 4 := by
  rw [convertedRow_eq full cursor columns row]
  exact length_convertChannels _ (Store.read_length _ _)

theorem getD_convertedRow {j k : Nat} (column : j < span) (byte : k < 4) :
    (res.convertedRow cursor left span y).getD (j * 4 + k) 0 = res.shown cursor (left + j) y k := by
  have ok := res.channels_ok cursor
  rw [convertedRow_eq full cursor columns row, getD_convertChannels ok (Store.read_length _ _) column byte]
  have source {i : Nat} (small : i < 4) :
      (res.data.read (place res.width.toNat left y 0) (span * 4)).getD (j * 4 + i) 0 =
        res.data.byte (place res.width.toNat (left + j) y i) := by
    rw [getD_eq_getElem?_getD, Store.read_getElem?, if_pos (by omega), Option.getD_some]
    congr 1
    unfold place
    omega
  match k, byte with
  | 0, _ => exact source ok.r
  | 1, _ => exact source ok.g
  | 2, _ => exact source ok.b
  | 3, _ => simp only [shown, Channels.value, source ok.a]

end GpuResource

/-- A picture of its own of the device: every row has four bytes for every column. -/
structure RGBA.Plain (img : RGBA) (width height : Nat) : Prop where
  dx : img.dx = width
  dy : img.dy = height
  size : img.pix.size = width * height * 4

theorem newRGBA_plain (width height : Nat) : (newRGBA width height).Plain width height where
  dx := rfl
  dy := rfl
  size := by simp only [newRGBA, Store.blank]; omega

section Painting

variable {res : GpuResource} {img : RGBA} {width height : Nat} {rect : Rect}

def paintArea (res : GpuResource) (img : RGBA) (rect : Rect) (originX originY : Int) : Rect :=
  (rect.inter (.whole res.width.toNat res.height.toNat)).inter (img.bounds.sub (-originX) (-originY))

/-- The row of the resource that is painted into a row of the image. -/
def paintRow (res : GpuResource) (cursor : Bool) (area : Rect) (originY : Int) (y : Nat) : Bytes :=
  res.convertedRow cursor area.minX.toNat area.dx.toNat (y + originY).toNat

variable (plain : img.Plain width height) (originX originY : Int)
include plain

theorem resourceImageRectInto_eq (res : GpuResource) (cursor : Bool) (rect : Rect) :
    resourceImageRectInto res cursor img rect originX originY =
      let area := paintArea res img rect originX originY
      let target := area.sub originX originY
      { img with
          pix := blit img.pix width target.minX.toNat (paintRow res cursor area originY)
            target.minY.toNat target.dy.toNat } := by
  simp only [resourceImageRectInto, plain.dx, dy_sub]
  rfl

variable (within : rect.Within res.width.toNat res.height.toNat)
include within

theorem contains_paintArea (a b : Int) :
    (paintArea res img rect originX originY).Contains a b ↔
      rect.Contains a b ∧ originX ≤ a ∧ a < width + originX ∧ originY ≤ b ∧ b < height + originY := by
  have inResource : rect.Contains a b → (whole res.width.toNat res.height.toNat).Contains a b := by
    obtain ⟨left, top, _, _, right, bottom⟩ := within
    simp only [Rect.Contains, whole]
    omega
  simp only [paintArea, contains_inter, contains_sub, RGBA.bounds, plain.dx, plain.dy]
  simp only [Rect.Contains, whole] at inResource ⊢
  omega

/-- A part that is painted lies in the resource, and from its origin in the image. -/
theorem paintArea_within (some : ¬ (paintArea res img rect originX originY).Empty) :
    (paintArea res img rect originX originY).Within res.width.toNat res.height.toNat ∧
      ((paintArea res img rect originX originY).sub originX originY).Within width height := by
  obtain ⟨low, high⟩ := contains_corners some
  have first := (contains_paintArea plain originX originY within _ _).mp low
  have last := (contains_paintArea plain originX originY within _ _).mp high
  obtain ⟨left, top, _, _, right, bottom⟩ := within
  simp only [Rect.Empty] at some
  simp only [Rect.Contains] at first last
  constructor
  · constructor <;> omega
  · constructor <;> simp only [sub] <;> omega

/-- Painting a rectangle of a resource: the pixels in it are converted, the others stay. -/
theorem resourceImageRectInto_spec (full : res.Full) (cursor : Bool) :
    (resourceImageRectInto res cursor img rect originX originY).Plain width height ∧
      ∀ x y k : Nat, x < width → y < height → k < 4 →
        (resourceImageRectInto res cursor img rect originX originY).pix.byte (place width x y k) =
          if rect.Contains (x + originX) (y + originY) then
            res.shown cursor (x + originX).toNat (y + originY).toNat k
          else img.pix.byte (place width x y k) := by
  have inArea := contains_paintArea plain originX originY within
  have inner := paintArea_within plain originX originY within
  have nothing : (paintArea res img rect originX originY).Empty →
      paintArea res img rect originX originY = .zero := inter_eq_zero
  rw [resourceImageRectInto_eq plain originX originY]
  generalize paintArea res img rect originX originY = area at *
  by_cases none : area.Empty
  · have rows : area.dy = 0 := by
      rw [nothing none]
      rfl
    simp only [dy_sub, rows]
    refine ⟨plain, ?_⟩
    intro x y k column line byte
    rw [if_neg]
    · rfl
    · intro inside
      exact not_empty_of_contains ((inArea _ _).mpr ⟨inside, by omega⟩) none
  · obtain ⟨⟨left, top, _, _, right, bottom⟩, target⟩ := inner none
    have columns : area.minX.toNat + area.dx.toNat ≤ res.width.toNat := by
      simp only [dx]
      omega
    have spans (y : Nat) (below : (area.sub originX originY).minY ≤ y)
        (above : y < (area.sub originX originY).maxY) :
        (paintRow res cursor area originY y).length = (area.sub originX originY).dx.toNat * 4 := by
      simp only [sub] at below above
      rw [dx_sub]
      exact GpuResource.length_convertedRow full cursor columns (by omega)
    refine ⟨{ plain with size := size_blit_rect img.pix target spans plain.size }, ?_⟩
    intro x y k column line byte
    simp only [byte_blit_rect img.pix target spans column byte, contains_sub, inArea]
    by_cases inside : rect.Contains (x + originX) (y + originY)
    · rw [if_pos ⟨inside, by omega⟩, if_pos inside]
      have here := (inArea _ _).mpr ⟨inside, by omega⟩
      simp only [Rect.Contains] at here
      have edge : 0 ≤ area.minX - originX := target.left
      have pixel : x - (area.sub originX originY).minX.toNat < area.dx.toNat := by
        simp only [sub, dx]
        omega
      have across : area.minX.toNat + (x - (area.sub originX originY).minX.toNat) = (x + originX).toNat := by
        simp only [sub]
        omega
      have line : (y + originY).toNat < res.height.toNat := by omega
      have source := GpuResource.getD_convertedRow full cursor columns line pixel byte
      rw [across] at source
      exact source
    · rw [if_neg (fun both => inside both.1), if_neg inside]

end Painting

/-! ## The screen -/

/-- A flush that reached the screen: its rectangle, and the resource as it was. -/
structure Flush where
  rect : Rect
  res : GpuResource

/-- The last flush that covered a pixel. The first one published all of the viewport. -/
def lastCovering (x y : Int) : List Flush → Option Flush
  | [] => none
  | [first] => some first
  | flush :: earlier => if flush.rect.Contains x y then some flush else lastCovering x y earlier

theorem lastCovering_cons (x y : Int) (flush : Flush) {earlier : List Flush} (some : earlier ≠ []) :
    lastCovering x y (flush :: earlier) =
      if flush.rect.Contains x y then .some flush else lastCovering x y earlier := by
  cases earlier with
  | nil => exact absurd rfl some
  | cons _ _ => rfl

/-- What a guest without a hardware cursor does. -/
inductive GuestAction where
  | control (mem : Store) (req : Bytes)
  | reset

def GuestAction.action : GuestAction → Gpu.Action
  | control mem req => .control mem req
  | reset => .reset

/-- The flush that a request makes visible. -/
def Gpu.visible (g : Gpu) (req : Bytes) : Option Flush :=
  match g.flushed req with
  | none => none
  | some (res, rect) => if (rect.inter g.scanoutRect).Empty then none else some { rect, res }

/-- A device and the flushes since its scanout was last changed, newest first. -/
structure Screen where
  gpu : Gpu
  since : List Flush

namespace Screen

def initial (display : DisplayKind) : Screen := { gpu := newGPU (some display), since := [] }

/-- The flushes that count after an action: a changed scanout starts anew. -/
def kept (s : Screen) (gpu : Gpu) : List Flush :=
  if gpu.scanout ≠ s.gpu.scanout ∨ gpu.scanoutRect ≠ s.gpu.scanoutRect then [] else s.since

def act (s : Screen) (action : GuestAction) : Screen :=
  let (gpu, _) := s.gpu.act action.action
  let since := s.kept gpu
  match action with
  | .reset => { gpu, since }
  | .control _ req =>
    match s.gpu.visible req with
    | none => { gpu, since }
    | some flush => { gpu, since := flush :: since }

def run (s : Screen) (actions : List GuestAction) : Screen := actions.foldl act s

/-- A picture shows at every pixel of the viewport what the last flush of the pixel found. -/
structure Painted (viewport : Rect) (since : List Flush) (img : RGBA) : Prop where
  some : ¬ viewport.Empty
  plain : img.Plain viewport.dx.toNat viewport.dy.toNat
  pixels : ∀ x y k : Nat, x < viewport.dx.toNat → y < viewport.dy.toNat → k < 4 →
    ∃ last, lastCovering (x + viewport.minX) (y + viewport.minY) since = Option.some last ∧
      img.pix.byte (place viewport.dx.toNat x y k) =
        last.res.shown false (x + viewport.minX).toNat (y + viewport.minY).toNat k

structure InStep (display : DisplayKind) (s : Screen) : Prop where
  accounted : s.gpu.Accounted
  display : s.gpu.display = some display
  running : s.gpu.closed = false
  noCursor : s.gpu.cursor.image = none
  frame : (s.since = [] ∧ s.gpu.frame = none) ∨
    (s.since ≠ [] ∧ ∃ img, s.gpu.frame = some img ∧ Painted s.gpu.scanoutRect s.since img)

theorem inStep_initial (display : DisplayKind) : InStep display (initial display) where
  accounted := resources_accounted (some display) []
  display := rfl
  running := rfl
  noCursor := rfl
  frame := Or.inl ⟨rfl, rfl⟩

/-- The picture stays, or the scanout changes and the picture is dropped. -/
def Follows (g h : Gpu) : Prop :=
  (h.scanout = g.scanout ∧ h.scanoutRect = g.scanoutRect ∧ h.frame = g.frame) ∨
    ((h.scanout ≠ g.scanout ∨ h.scanoutRect ≠ g.scanoutRect) ∧ h.frame = none)

theorem change_frame {g h : Gpu} (accounted : g.Accounted) (change : g.Change h) :
    (h.display = g.display ∧ h.closed = g.closed ∧ h.cursor = g.cursor) ∧ Follows g h := by
  have bound (id : UInt32) (rect : Rect) : Follows g (g.bind id rect) := by
    by_cases changed : g.scanout ≠ id ∨ g.scanoutRect ≠ rect
    · refine Or.inr ⟨?_, if_pos changed⟩
      rcases changed with other | moved
      · exact Or.inl (Ne.symm other)
      · exact Or.inr (Ne.symm moved)
    · simp only [not_or, not_not] at changed
      obtain ⟨rfl, rfl⟩ := changed
      exact Or.inl ⟨rfl, rfl, if_neg (by simp)⟩
  cases change with
  | none | create | update => exact ⟨⟨rfl, rfl, rfl⟩, Or.inl ⟨rfl, rfl, rfl⟩⟩
  | unbind | bind => exact ⟨⟨rfl, rfl, rfl⟩, bound _ _⟩
  | @unref id res found =>
    refine ⟨⟨rfl, rfl, rfl⟩, ?_⟩
    by_cases shown : g.scanout = id
    · refine Or.inr ⟨Or.inl ?_, if_pos shown⟩
      simp only [if_pos shown]
      intro zero
      rw [← shown, ← zero, accounted.named] at found
      cases found
    · exact Or.inl ⟨if_neg shown, if_neg shown, if_neg shown⟩

/-- The call that hands a picture of the viewport to a display. -/
def handed (display : DisplayKind) (viewport : Rect) (img : RGBA) (damage : Rect) : DisplayCall :=
  if display.cursorDisplay ∧ display.damageDisplay then
    .flushDamage viewport.dx viewport.dy img [damage.sub viewport.minX viewport.minY]
  else .flush viewport.dx viewport.dy img

/-- What a flush paints: everything when it is the first. -/
def damaged (s : Screen) (rect : Rect) : Rect :=
  if s.since = [] then s.gpu.scanoutRect else rect.inter s.gpu.scanoutRect

section Steps

variable {display : DisplayKind} {s : Screen} (inStep : InStep display s)
include inStep

section Flushing

variable {res : GpuResource} {rect : Rect} (found : s.gpu.resources.lookup s.gpu.scanout = some res)
include found

theorem InStep.viewport :
    s.gpu.scanout ≠ 0 ∧ ¬ s.gpu.scanoutRect.Empty ∧
      s.gpu.scanoutRect.Within res.width.toNat res.height.toNat := by
  rcases inStep.accounted.bound with ⟨unbound, _⟩ | ⟨bound, same, some, within⟩
  · rw [unbound, inStep.accounted.named] at found
    cases found
  · rw [found] at same
    cases same
    refine ⟨?_, some, within⟩
    intro unbound
    rw [unbound, inStep.accounted.named] at found
    cases found

/-- The picture a flush paints into, and that painting brings it up to date. -/
theorem InStep.paints (rect : Rect) :
    ∃ img, s.gpu.canvas s.gpu.scanoutRect (rect.inter s.gpu.scanoutRect) = (img, s.damaged rect) ∧
      Painted s.gpu.scanoutRect ({ rect, res } :: s.since)
        (resourceImageRectInto res false img (s.damaged rect) s.gpu.scanoutRect.minX
          s.gpu.scanoutRect.minY) := by
  obtain ⟨_, some, within⟩ := inStep.viewport found
  have full : res.Full := inStep.accounted.full _ _ found
  obtain ⟨wide, high⟩ := toNat_extent some
  have inViewport (x y : Nat) (column : x < s.gpu.scanoutRect.dx.toNat) (row : y < s.gpu.scanoutRect.dy.toNat) :
      s.gpu.scanoutRect.Contains (x + s.gpu.scanoutRect.minX) (y + s.gpu.scanoutRect.minY) := by
    simp only [dx, dy] at column row
    simp only [Rect.Contains]
    omega
  rcases inStep.frame with ⟨first, none⟩ | ⟨later, img, shown, painted⟩
  · have blank := newRGBA_plain s.gpu.scanoutRect.dx.toNat s.gpu.scanoutRect.dy.toNat
    rw [wide, high] at blank
    have all : s.damaged rect = s.gpu.scanoutRect := if_pos first
    refine ⟨newRGBA s.gpu.scanoutRect.dx s.gpu.scanoutRect.dy, ?_, ?_⟩
    · simp only [canvas, none, all]
    · obtain ⟨plain, bytes⟩ := resourceImageRectInto_spec blank s.gpu.scanoutRect.minX
        s.gpu.scanoutRect.minY within full false
      rw [all, first]
      refine { some, plain, pixels := ?_ }
      intro x y k column row byte
      refine ⟨_, rfl, ?_⟩
      rw [bytes x y k column row byte, if_pos (inViewport x y column row)]
  · have part : s.damaged rect = rect.inter s.gpu.scanoutRect := if_neg later
    have bounds : img.bounds = .whole s.gpu.scanoutRect.dx s.gpu.scanoutRect.dy := by
      rw [RGBA.bounds, painted.plain.dx, painted.plain.dy, wide, high]
    refine ⟨img, ?_, ?_⟩
    · simp only [canvas, shown, if_pos bounds, part]
    · obtain ⟨plain, bytes⟩ := resourceImageRectInto_spec painted.plain s.gpu.scanoutRect.minX
        s.gpu.scanoutRect.minY (within.inter rect) full false
      rw [part]
      refine { some, plain, pixels := ?_ }
      intro x y k column row byte
      rw [lastCovering_cons _ _ _ later, bytes x y k column row byte]
      by_cases covered : rect.Contains (x + s.gpu.scanoutRect.minX) (y + s.gpu.scanoutRect.minY)
      · have inside := (contains_inter _ _ _ _).mpr ⟨covered, inViewport x y column row⟩
        rw [if_pos inside]
        exact ⟨_, if_pos covered, rfl⟩
      · rw [if_neg (fun inside => covered ((contains_inter _ _ _ _).mp inside).1)]
        rw [if_neg covered]
        exact painted.pixels x y k column row byte

/-- What a flush of the screen hands to the display, and the picture it leaves. -/
theorem InStep.flushDamage
    (visible : ¬ (rect.inter s.gpu.scanoutRect).Empty) :
    ∃ img, (s.gpu.flushDamage res rect).1 = { s.gpu with frame := some img } ∧
      (s.gpu.flushDamage res rect).2 = [handed display s.gpu.scanoutRect img (s.damaged rect)] ∧
      Painted s.gpu.scanoutRect ({ rect, res } :: s.since) img := by
  obtain ⟨bound, some, within⟩ := inStep.viewport found
  obtain ⟨canvas, chosen, painted⟩ := inStep.paints found rect
  have sized : ¬ (res.width = 0 ∨ res.height = 0) := by
    obtain ⟨_, _, _, _, right, bottom⟩ := within
    simp only [Rect.Empty] at some
    rintro (zero | zero)
    · rw [zero, UInt32.toNat_zero] at right
      omega
    · rw [zero, UInt32.toNat_zero] at bottom
      omega
  have viewport : s.gpu.viewport res = s.gpu.scanoutRect := if_neg some
  generalize frame : resourceImageRectInto res false canvas (s.damaged rect) s.gpu.scanoutRect.minX
    s.gpu.scanoutRect.minY = img at painted
  have told : s.gpu.flushDamage res rect =
      ({ s.gpu with frame := .some img }, [handed display s.gpu.scanoutRect img (s.damaged rect)]) := by
    simp only [Gpu.flushDamage, inStep.display, if_neg sized, viewport, if_neg visible, chosen, frame]
    cases cursor : display.cursorDisplay with
    | true => cases damage : display.damageDisplay <;> simp [handed, cursor, damage]
    | false =>
      obtain ⟨wide, high⟩ := toNat_extent some
      have dx : img.dx = s.gpu.scanoutRect.dx := painted.plain.dx.trans wide
      have dy : img.dy = s.gpu.scanoutRect.dy := painted.plain.dy.trans high
      simp [handed, cursor, present, bound, compositeCursor, inStep.noCursor, dx, dy]
  rw [told]
  exact ⟨img, rfl, rfl, painted⟩

end Flushing

theorem InStep.change {gpu : Gpu} (change : s.gpu.Change gpu) :
    InStep display { gpu, since := s.kept gpu } := by
  obtain ⟨⟨sameDisplay, sameClosed, sameCursor⟩, screen⟩ := change_frame inStep.accounted change
  refine
    { accounted := inStep.accounted.change change, display := sameDisplay.trans inStep.display
      running := sameClosed.trans inStep.running, noCursor := ?_, frame := ?_ }
  · rw [sameCursor]
    exact inStep.noCursor
  · rcases screen with ⟨scanout, rect, frame⟩ | ⟨changed, frame⟩
    · have since : s.kept gpu = s.since := if_neg (by simp [scanout, rect])
      rw [since, frame, rect]
      exact inStep.frame
    · exact Or.inl ⟨if_pos changed, frame⟩

/-- A request that makes nothing visible tells the display nothing. -/
theorem InStep.quiet (mem : Store) {req : Bytes} (missed : s.gpu.visible req = none) :
    (s.gpu.handleControl mem req).calls = [] ∧ s.gpu.Change (s.gpu.handleControl mem req).gpu := by
  cases hit : s.gpu.flushed req with
  | none =>
    obtain ⟨change, calls⟩ := handleControl_change mem hit
    exact ⟨calls, change⟩
  | some flush =>
    obtain ⟨res, rect⟩ := flush
    obtain ⟨found, _⟩ := flushed_spec hit
    obtain ⟨_, some, _⟩ := inStep.viewport found
    have viewport : s.gpu.viewport res = s.gpu.scanoutRect := if_neg some
    have outside : (rect.inter s.gpu.scanoutRect).Empty := by
      by_contra inside
      simp only [visible, hit, if_neg inside] at missed
      cases missed
    have nothing : s.gpu.flushDamage res rect = (s.gpu, []) := by
      simp only [Gpu.flushDamage, inStep.display, viewport, if_pos outside, ite_self]
    obtain ⟨gpu, calls⟩ := handleControl_flush mem hit
    rw [gpu, calls, nothing]
    exact ⟨rfl, .none⟩

/-- A visible flush hands the picture of the screen to the display. -/
theorem InStep.flush (mem : Store) {req : Bytes} {flush : Flush}
    (hit : s.gpu.visible req = some flush) :
    ∃ img, (s.gpu.handleControl mem req).gpu = { s.gpu with frame := some img } ∧
      (s.gpu.handleControl mem req).calls = [handed display s.gpu.scanoutRect img (s.damaged flush.rect)] ∧
      Painted s.gpu.scanoutRect (flush :: s.since) img := by
  unfold visible at hit
  split at hit
  · cases hit
  next res rect flushed =>
    split at hit
    · cases hit
    next inside =>
      cases hit
      obtain ⟨gpu, calls⟩ := handleControl_flush mem flushed
      rw [gpu, calls]
      exact inStep.flushDamage (flushed_spec flushed).1 inside

theorem InStep.act (action : GuestAction) : InStep display (s.act action) := by
  cases action with
  | control mem req =>
    have taken : s.gpu.act (.control mem req) =
        ((s.gpu.handleControl mem req).gpu, (s.gpu.handleControl mem req).calls) := by
      simp [Gpu.act, inStep.running]
    simp only [Screen.act, GuestAction.action, taken]
    cases hit : s.gpu.visible req with
    | none => exact inStep.change (inStep.quiet mem hit).2
    | some flush =>
      obtain ⟨img, gpu, _, painted⟩ := inStep.flush mem hit
      have since : s.kept { s.gpu with frame := some img } = s.since := if_neg (by simp)
      simp only [gpu, since]
      exact
        { inStep with
            accounted := { inStep.accounted with }
            frame := Or.inr ⟨cons_ne_nil _ _, img, rfl, painted⟩ }
  | reset =>
    have cleared : (s.gpu.act .reset).1 = s.gpu.resetLocked := by
      have running : s.gpu.resetLocked.closed = false := inStep.running
      simp [Gpu.act, Gpu.reset, running]
    simp only [Screen.act, GuestAction.action, cleared]
    refine
      { inStep with
          accounted := s.gpu.accounted_resetLocked, noCursor := rfl, frame := Or.inl ⟨?_, rfl⟩ }
    by_cases changed : s.gpu.resetLocked.scanout ≠ s.gpu.scanout ∨
        s.gpu.resetLocked.scanoutRect ≠ s.gpu.scanoutRect
    · exact if_pos changed
    · -- nothing was bound, so nothing was flushed
      refine (if_neg changed).trans ?_
      rcases inStep.frame with ⟨none, _⟩ | ⟨_, img, _, painted⟩
      · exact none
      · have unbound : s.gpu.scanoutRect = .zero := not_not.mp fun other => changed (Or.inr (Ne.symm other))
        rw [unbound] at painted
        exact absurd (Or.inl le_rfl) painted.some

end Steps

theorem InStep.run {display : DisplayKind} (actions : List GuestAction) :
    ∀ {s : Screen}, InStep display s → InStep display (s.run actions) := by
  induction actions with
  | nil => exact fun inStep => inStep
  | cons action rest ih => exact fun inStep => ih (inStep.act action)

/-- After every history of commands and resets a flush hands over a picture whose every
    pixel is the converted pixel of the resource as the last flush that covered it found it;
    the first flush of a scanout covers all of it. No other command hands over anything, and
    converting whole words is converting channels. -/
theorem screen_shows_flushed_pixels (display : DisplayKind) (actions : List GuestAction) (mem : Store)
    (req : Bytes) :
    let s := (initial display).run actions
    (match s.gpu.visible req with
      | none => (s.gpu.handleControl mem req).calls = []
      | some flush => ∃ img,
          (s.gpu.handleControl mem req).calls =
            [handed display s.gpu.scanoutRect img (s.damaged flush.rect)] ∧
          Painted s.gpu.scanoutRect (flush :: s.since) img) ∧
      ∀ (res : GpuResource) (cursor : Bool) (src : Bytes),
        convertRow (res.channels cursor) src = convertChannels (res.channels cursor) src := by
  intro s
  have inStep := InStep.run actions (inStep_initial display)
  refine ⟨?_, fun res cursor src => res.convertRow_eq cursor src⟩
  cases hit : s.gpu.visible req with
  | none => exact (inStep.quiet mem hit).1
  | some flush =>
    obtain ⟨img, _, calls, painted⟩ := inStep.flush mem hit
    exact ⟨img, calls, painted⟩

/-- A request of a kind with 32-bit fields. -/
def request (kind : Nat) (fields : List Nat) : Bytes :=
  leBytes 4 kind ++ replicate 20 0 ++ fields.flatMap (leBytes 4)

/-- A resource of one pixel that is created and bound is visible when it is flushed. -/
example :
    let s := (initial ⟨true, true, true⟩).run
      [.control (Store.blank 0) (request 0x101 [1, 2, 1, 1]),
        .control (Store.blank 0) (request 0x103 [0, 0, 1, 1, 0, 1])]
    (s.gpu.visible (request 0x104 [0, 0, 1, 1, 1, 0])).isSome = true := by decide

end Screen

end Gokvm.Virtio
