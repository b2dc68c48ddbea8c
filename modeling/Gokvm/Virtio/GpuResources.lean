import Gokvm.Virtio.Gpu

/-! # Accounting of display resources

Every control command is a flush of the scanout or one of a few changes of the resources;
this is said once, and the accounting of the resources follows from it for every sequence
of commands and resets.
-/

namespace Gokvm.Virtio

open Lib AList Nat GpuBackingReader

/-! ## Rectangles of requests -/

namespace GpuRect

variable {r : GpuRect} {res : GpuResource}

variable (fits : r.fits res = true)
include fits

theorem fits_spec :
    r.x.toNat + r.w.toNat ≤ res.width.toNat ∧ r.y.toNat + r.h.toNat ≤ res.height.toNat := by
  simp only [GpuRect.fits, Bool.not_eq_true', Bool.or_eq_false_iff, decide_eq_false_iff_not,
    gt_iff_lt, UInt32.not_lt] at fits
  obtain ⟨⟨⟨x, y⟩, w⟩, h⟩ := fits
  rw [UInt32.le_iff_toNat_le] at x y w h
  rw [UInt32.toNat_sub_of_le _ _ (UInt32.le_iff_toNat_le.mpr x)] at w
  rw [UInt32.toNat_sub_of_le _ _ (UInt32.le_iff_toNat_le.mpr y)] at h
  omega

theorem rect_of_fits :
    r.rect =
      { minX := r.x.toNat, minY := r.y.toNat
        maxX := (r.x.toNat + r.w.toNat : Nat), maxY := (r.y.toNat + r.h.toNat : Nat) } := by
  obtain ⟨columns, rows⟩ := fits_spec fits
  have width := res.width.toNat_lt
  have height := res.height.toNat_lt
  simp only [rect, UInt32.toNat_add]
  rw [mod_eq_of_lt (by omega), mod_eq_of_lt (by omega)]

theorem rect_within :
    r.rect.Within res.width.toNat res.height.toNat := by
  obtain ⟨columns, rows⟩ := fits_spec fits
  rw [rect_of_fits fits]
  constructor <;> simp only <;> omega

theorem rect_not_empty (w : r.w ≠ 0) (h : r.h ≠ 0) : ¬ r.rect.Empty := by
  have wide : r.w.toNat ≠ 0 := fun zero => w (UInt32.toNat_inj.mp zero)
  have high : r.h.toNat ≠ 0 := fun zero => h (UInt32.toNat_inj.mp zero)
  rw [rect_of_fits fits]
  simp only [Rect.Empty]
  omega

end GpuRect

/-! ## Transfers keep the size of the data -/

theorem GpuBackingReader.size_read (mem : Store) (entries : List GpuMemEntry) :
    ∀ (pos off : UInt64) (start left : Nat) (data : Store), start + left ≤ data.size →
      (read mem entries pos off start left data).2.size = data.size := by
  induction entries with
  | nil => exact fun _ _ _ _ _ _ => rfl
  | cons e rest ih =>
    intro pos off start left data inside
    simp only [read]
    split
    · rfl
    · split
      · exact ih _ _ _ _ _ inside
      · have copied : ∀ n src, n ≤ left →
            (if validRange mem src n then data.write start (mem.read src n) else data).size = data.size := by
          intro n src short
          split
          · rw [Store.size_write_inside]
            rw [Store.read_length]
            omega
          · rfl
        split
        · exact copied _ _ (min_le_right _ _)
        · rw [ih _ _ _ _ _ ?_, copied _ _ (min_le_right _ _)]
          rw [copied _ _ (min_le_right _ _)]
          omega

theorem size_transferRows (mem : Store) (x y w stride : UInt32) (offset : UInt64) (rows : Nat) :
    ∀ (row : UInt32) (reader : GpuBackingReader) (data : Store),
      (transferRows mem x y w stride offset rows row reader data).size = data.size := by
  induction rows with
  | zero => exact fun _ _ _ => rfl
  | succ rows ih =>
    intro row reader data
    simp only [transferRows]
    split
    · rfl
    · rw [ih, size_read]
      omega

theorem size_transferToHost2D (mem : Store) (res : GpuResource) (x y w h : UInt32) (offset : UInt64) :
    (transferToHost2D mem res x y w h offset).size = res.data.size := by
  simp only [transferToHost2D]
  split
  · exact size_read mem _ _ _ _ _ _ (by omega)
  · exact size_transferRows mem _ _ _ _ _ _ _ _ _

namespace Gpu

/-! ## What control commands do -/

/-- The resource and the rectangle of an accepted flush of the scanout. -/
def flushed (g : Gpu) (req : Bytes) : Option (GpuResource × Rect) :=
  if req.length < gpuCtrlHdrLen + gpuRectLen + 8 ∨ uint32At req 0 ≠ 0x104 then none
  else match g.resources.lookup (uint32At req (gpuCtrlHdrLen + gpuRectLen)) with
    | none => none
    | some res =>
      if (rectOf req).fits res ∧ g.scanout = uint32At req (gpuCtrlHdrLen + gpuRectLen) then
        some (res, (rectOf req).rect)
      else none

/-- What a command other than a flush of the scanout can do. -/
inductive Change (g : Gpu) : Gpu → Prop where
  | none : Change g g
  | create {id : UInt32} {res : GpuResource} {bytes : UInt64} (named : id ≠ 0)
      (free : g.resources.lookup id = none) (size : res.data.size = bytes.toNat)
      (full : res.data.size = res.width.toNat * res.height.toNat * 4)
      (room : bytes ≤ gpuResourceLimit - g.resourceBytes)
      (few : g.resources.entries.length < gpuMaxResources) :
      Change g
        { g with
            resources := g.resources.insert id res
            resourceBytes := g.resourceBytes + bytes }
  | unref {id : UInt32} {res : GpuResource} (found : g.resources.lookup id = some res) :
      Change g
        { g with
            resourceBytes := g.resourceBytes - UInt64.ofNat res.data.size
            resources := g.resources.erase id
            scanout := if g.scanout = id then 0 else g.scanout
            scanoutRect := if g.scanout = id then .zero else g.scanoutRect
            frame := if g.scanout = id then .none else g.frame }
  | unbind : Change g (g.bind 0 .zero)
  | bind {id : UInt32} {res : GpuResource} {rect : Rect} (found : g.resources.lookup id = some res)
      (some : ¬ rect.Empty) (within : rect.Within res.width.toNat res.height.toNat) :
      Change g (g.bind id rect)
  | update {id : UInt32} {res new : GpuResource} (found : g.resources.lookup id = some res)
      (width : new.width = res.width) (height : new.height = res.height)
      (size : new.data.size = res.data.size) :
      Change g { g with resources := g.resources.insert id new }

/-- The sizes of a resource that is created do not overflow. -/
theorem created_size {width height : UInt32} (columns : ¬ width > gpuMaxDimension)
    (rows : ¬ height > gpuMaxDimension) :
    (width.toUInt64 * height.toUInt64 * gpuBytesPerPixel.toUInt64).toNat =
      width.toNat * height.toNat * 4 := by
  have w : width.toNat ≤ 4096 := UInt32.le_iff_toNat_le.mp (UInt32.not_lt.mp columns)
  have h : height.toNat ≤ 4096 := UInt32.le_iff_toNat_le.mp (UInt32.not_lt.mp rows)
  have pixels : width.toNat * height.toNat ≤ 4096 * 4096 := Nat.mul_le_mul w h
  have four : gpuBytesPerPixel.toUInt64.toNat = 4 := rfl
  rw [UInt64.toNat_mul, UInt64.toNat_mul, UInt32.toNat_toUInt64, UInt32.toNat_toUInt64, four,
    mod_eq_of_lt (by omega), mod_eq_of_lt (by omega)]

/-- A command that makes a change and tells the display nothing. -/
structure Changes (g : Gpu) (reply : GpuAnswer) : Prop where
  change : Change g reply.gpu
  calls : reply.calls = []

variable (g : Gpu) (mem : Store) (req : Bytes)

theorem cmdResourceCreate2D_change : Changes g (g.cmdResourceCreate2D req) := by
  simp only [cmdResourceCreate2D]
  split
  · exact ⟨.none, rfl⟩
  split
  · exact ⟨.none, rfl⟩
  split
  · exact ⟨.none, rfl⟩
  split
  · exact ⟨.none, rfl⟩
  split
  · exact ⟨.none, rfl⟩
  next fresh sizes _ space =>
    simp only [not_or] at fresh sizes space
    obtain ⟨named, free⟩ := fresh
    obtain ⟨_, _, columns, rows, _⟩ := sizes
    have full := created_size columns rows
    rw [Bool.not_eq_true, Option.isSome_eq_false_iff, Option.isNone_iff_eq_none] at free
    exact ⟨.create named free rfl full (UInt64.not_lt.mp space.1) (not_le.mp space.2), rfl⟩

theorem cmdResourceUnref_change : Changes g (g.cmdResourceUnref req) := by
  simp only [cmdResourceUnref]
  split
  · exact ⟨.none, rfl⟩
  split
  · exact ⟨.none, rfl⟩
  next res found =>
    have change := Change.unref found
    split
    next shown =>
      simp only [if_pos shown] at change
      exact ⟨change, rfl⟩
    next other =>
      simp only [if_neg other] at change
      exact ⟨change, rfl⟩

theorem cmdSetScanout_change : Changes g (g.cmdSetScanout req) := by
  simp only [cmdSetScanout]
  split
  · exact ⟨.none, rfl⟩
  split
  · exact ⟨.none, rfl⟩
  split
  · exact ⟨.unbind, rfl⟩
  split
  · exact ⟨.none, rfl⟩
  next res found =>
    split
    · exact ⟨.none, rfl⟩
    next good =>
      simp only [not_or, not_not] at good
      obtain ⟨wide, high, fits⟩ := good
      exact ⟨.bind found (GpuRect.rect_not_empty fits wide high) (GpuRect.rect_within fits), rfl⟩

theorem cmdTransferToHost2D_change : Changes g (g.cmdTransferToHost2D mem req) := by
  simp only [cmdTransferToHost2D]
  split
  · exact ⟨.none, rfl⟩
  split
  · exact ⟨.none, rfl⟩
  next res found =>
    split
    · exact ⟨.none, rfl⟩
    · exact ⟨.update found rfl rfl (size_transferToHost2D mem res _ _ _ _ _), rfl⟩

theorem cmdResourceAttachBacking_change : Changes g (g.cmdResourceAttachBacking mem req) := by
  simp only [cmdResourceAttachBacking]
  split
  · exact ⟨.none, rfl⟩
  split
  · exact ⟨.none, rfl⟩
  next res found =>
    split
    · exact ⟨.none, rfl⟩
    split
    · exact ⟨.none, rfl⟩
    · exact ⟨.update found rfl rfl rfl, rfl⟩

theorem cmdResourceDetachBacking_change : Changes g (g.cmdResourceDetachBacking req) := by
  simp only [cmdResourceDetachBacking]
  split
  · exact ⟨.none, rfl⟩
  split
  · exact ⟨.none, rfl⟩
  next res found => exact ⟨.update found rfl rfl rfl, rfl⟩

variable {g req} {res : GpuResource} {id : UInt32}

theorem cmdResourceFlush_change (kind : uint32At req 0 = 0x104) (missed : g.flushed req = none) :
    Changes g (g.cmdResourceFlush req) := by
  simp only [cmdResourceFlush]
  split
  · exact ⟨.none, rfl⟩
  next long =>
    rw [flushed, if_neg (not_or.mpr ⟨long, not_not.mpr kind⟩)] at missed
    split
    · exact ⟨.none, rfl⟩
    next res found =>
      rw [found] at missed
      split
      · exact ⟨.none, rfl⟩
      next fits =>
        split
        next shown =>
          simp only [not_not.mp fits, shown, and_self, if_true] at missed
          cases missed
        · exact ⟨.none, rfl⟩

/-- A command that is not a flush of the scanout tells the display nothing. -/
theorem handleControl_change (mem : Store) (missed : g.flushed req = none) :
    Changes g (g.handleControl mem req) := by
  simp only [handleControl]
  split
  · exact ⟨.none, rfl⟩
  suffices changes : Changes g (g.command mem req) from { changes with }
  simp only [command]
  split
  · exact ⟨.none, rfl⟩
  split
  · exact g.cmdResourceCreate2D_change req
  split
  · exact g.cmdResourceUnref_change req
  split
  · exact g.cmdSetScanout_change req
  split
  next kind => exact cmdResourceFlush_change kind missed
  split
  · exact g.cmdTransferToHost2D_change mem req
  split
  · exact g.cmdResourceAttachBacking_change mem req
  split
  · exact g.cmdResourceDetachBacking_change req
  · exact ⟨.none, rfl⟩

theorem handleControl_flush {rect : Rect} (mem : Store) (hit : g.flushed req = some (res, rect)) :
    (g.handleControl mem req).gpu = (g.flushDamage res rect).1 ∧
      (g.handleControl mem req).calls = (g.flushDamage res rect).2 := by
  unfold flushed at hit
  split at hit
  · cases hit
  next good =>
    simp only [not_or, not_not] at good
    obtain ⟨long, kind⟩ := good
    split at hit
    · cases hit
    next res' found =>
      split at hit
      next shown =>
        cases hit
        have header : ¬ req.length < gpuCtrlHdrLen := by
          unfold gpuRectLen at long
          omega
        simp [handleControl, header, command, kind, cmdResourceFlush, long, found, shown.1, shown.2]
      · cases hit

theorem flushed_spec {rect : Rect} (hit : g.flushed req = some (res, rect)) :
    g.resources.lookup g.scanout = some res ∧ rect.Within res.width.toNat res.height.toNat := by
  unfold flushed at hit
  split at hit
  · cases hit
  split at hit
  · cases hit
  next res' found =>
    split at hit
    next shown =>
      cases hit
      exact ⟨shown.2 ▸ found, GpuRect.rect_within shown.1⟩
    · cases hit

/-! ## The accounting -/

/-- The accounts of the resources, and what the scanout is bound to. -/
structure Accounted (g : Gpu) : Prop where
  total : g.resourceBytes.toNat = g.resources.total fun res => res.data.size
  limit : g.resourceBytes ≤ gpuResourceLimit
  few : g.resources.entries.length ≤ gpuMaxResources
  named : g.resources.lookup 0 = none
  full : ∀ id res, g.resources.lookup id = some res →
    res.data.size = res.width.toNat * res.height.toNat * 4
  bound : (g.scanout = 0 ∧ g.scanoutRect = .zero) ∨
    ∃ res, g.resources.lookup g.scanout = some res ∧ ¬ g.scanoutRect.Empty ∧
      g.scanoutRect.Within res.width.toNat res.height.toNat

theorem lookup_insert_other {m : FinMap UInt32 GpuResource} {key : UInt32} {old : GpuResource}
    (free : m.lookup id = none) (found : m.lookup key = some old) :
    lookup key (insert id res m) = some old := by
  have other : key ≠ id := by
    rintro rfl
    rw [free] at found
    cases found
  rw [lookup_insert_ne other]
  exact found

theorem Accounted.create (accounted : Accounted g) {bytes : UInt64} (named : id ≠ 0)
    (free : g.resources.lookup id = none) (size : res.data.size = bytes.toNat)
    (full : res.data.size = res.width.toNat * res.height.toNat * 4)
    (room : bytes ≤ gpuResourceLimit - g.resourceBytes) (few : g.resources.entries.length < gpuMaxResources) :
    Accounted
      { g with resources := g.resources.insert id res, resourceBytes := g.resourceBytes + bytes } := by
  have limit : g.resourceBytes.toNat ≤ gpuResourceLimit.toNat := UInt64.le_iff_toNat_le.mp accounted.limit
  have most : gpuResourceLimit.toNat = 268435456 := rfl
  have fits : bytes.toNat ≤ gpuResourceLimit.toNat - g.resourceBytes.toNat := by
    rw [← UInt64.toNat_sub_of_le _ _ accounted.limit]
    exact UInt64.le_iff_toNat_le.mp room
  have sum : (g.resourceBytes + bytes).toNat = g.resourceBytes.toNat + bytes.toNat := by
    rw [UInt64.toNat_add]
    omega
  constructor
  · simp only [FinMap.total_insert_new _ _ _ free, sum, accounted.total, size]
    omega
  · rw [UInt64.le_iff_toNat_le]
    simp only [sum]
    omega
  · simp only [FinMap.length_insert_new _ _ free]
    omega
  · simp only [lookup_insert_ne named.symm]
    exact accounted.named
  · exact FinMap.forall_insert full accounted.full
  · rcases accounted.bound with unbound | ⟨old, found, some, within⟩
    · exact Or.inl unbound
    · exact Or.inr ⟨old, lookup_insert_other free found, some, within⟩

theorem Accounted.unref (accounted : Accounted g) (found : g.resources.lookup id = some res) :
    Accounted
      { g with
          resourceBytes := g.resourceBytes - UInt64.ofNat res.data.size
          resources := g.resources.erase id
          scanout := if g.scanout = id then 0 else g.scanout
          scanoutRect := if g.scanout = id then .zero else g.scanoutRect
          frame := if g.scanout = id then .none else g.frame } := by
  have limit : g.resourceBytes.toNat ≤ gpuResourceLimit.toNat := UInt64.le_iff_toNat_le.mp accounted.limit
  have most : gpuResourceLimit.toNat = 268435456 := rfl
  have total := accounted.total
  have rest := g.resources.total_erase (fun res => res.data.size) found
  -- the bytes of the resource are a part of the total, so the subtraction does not wrap
  have part : (UInt64.ofNat res.data.size).toNat = res.data.size := by
    rw [UInt64.toNat_ofNat']
    omega
  have difference : (g.resourceBytes - UInt64.ofNat res.data.size).toNat =
      g.resourceBytes.toNat - res.data.size := by
    rw [UInt64.toNat_sub_of_le, part]
    rw [UInt64.le_iff_toNat_le, part]
    omega
  constructor
  · simp only [difference]
    omega
  · rw [UInt64.le_iff_toNat_le]
    simp only [difference]
    omega
  · exact le_trans (List.Sublist.length_le (List.kerase_sublist id _)) accounted.few
  · by_cases same : 0 = id
    · subst same
      exact lookup_erase _ _
    · exact (lookup_erase_ne same).trans accounted.named
  · intro key other survivor
    exact accounted.full key other (FinMap.lookup_erase_eq_some _ |>.mp survivor).2
  · by_cases shown : g.scanout = id
    · simp only [if_pos shown]
      exact Or.inl ⟨trivial, trivial⟩
    · simp only [if_neg shown]
      rcases accounted.bound with unbound | ⟨old, bound, some, within⟩
      · exact Or.inl unbound
      · refine Or.inr ⟨old, ?_, some, within⟩
        rw [if_neg shown]
        exact (FinMap.lookup_erase_eq_some _).mpr ⟨shown, bound⟩

theorem Accounted.update (accounted : Accounted g) {new : GpuResource}
    (found : g.resources.lookup id = some res) (width : new.width = res.width)
    (height : new.height = res.height) (size : new.data.size = res.data.size) :
    Accounted { g with resources := g.resources.insert id new } := by
  have replaced := g.resources.total_replace (fun res => res.data.size) new found
  refine { total := ?_, limit := accounted.limit, few := ?_, named := ?_, full := ?_, bound := ?_ }
  · simp only [size] at replaced
    simp only [accounted.total]
    omega
  · simp only [FinMap.length_insert_of_lookup _ _ found]
    exact accounted.few
  · by_cases same : 0 = id
    · rw [← same, accounted.named] at found
      cases found
    · exact (lookup_insert_ne same).trans accounted.named
  · refine FinMap.forall_insert ?_ accounted.full
    rw [size, width, height]
    exact accounted.full id res found
  · rcases accounted.bound with unbound | ⟨old, bound, some, within⟩
    · exact Or.inl unbound
    · right
      by_cases shown : g.scanout = id
      · rw [shown, found] at bound
        cases bound
        have now : lookup g.scanout (g.resources.insert id new) = Option.some new := by
          rw [shown]
          exact lookup_insert _
        refine ⟨new, now, some, ?_⟩
        rw [width, height]
        exact within
      · exact ⟨old, (lookup_insert_ne shown).trans bound, some, within⟩

theorem Accounted.change {h : Gpu} (accounted : Accounted g) (change : Change g h) : Accounted h := by
  cases change with
  | none => exact accounted
  | create named free size full room few => exact accounted.create named free size full room few
  | unref found => exact accounted.unref found
  | unbind => exact { accounted with bound := Or.inl ⟨rfl, rfl⟩ }
  | bind found some within => exact { accounted with bound := Or.inr ⟨_, found, some, within⟩ }
  | update found width height size => exact accounted.update found width height size

theorem flushDamage_frame (g : Gpu) (res : GpuResource) (damage : Rect) :
    ∃ frame, (g.flushDamage res damage).1 = { g with frame } := by
  simp only [flushDamage]
  repeat' split
  all_goals exact ⟨_, rfl⟩

theorem Accounted.control (accounted : Accounted g) (mem : Store) (req : Bytes) :
    Accounted (g.handleControl mem req).gpu := by
  cases hit : g.flushed req with
  | none => exact accounted.change (handleControl_change mem hit).1
  | some flush =>
    obtain ⟨res, rect⟩ := flush
    obtain ⟨frame, same⟩ := g.flushDamage_frame res rect
    rw [(handleControl_flush mem hit).1, same]
    exact { accounted with }

theorem handleCursor_cursor (g : Gpu) (req : Bytes) :
    ∃ cursor, (g.handleCursor req).1 = { g with cursor } := by
  simp only [handleCursor]
  repeat' split
  all_goals exact ⟨_, rfl⟩

theorem Accounted.cursors (reqs : List Bytes) (accounted : Accounted g) :
    Accounted (g.handleCursors reqs).1 := by
  simp only [handleCursors]
  generalize false = changed
  induction reqs generalizing g changed with
  | nil => exact accounted
  | cons req rest ih =>
    rw [List.foldl_cons]
    apply ih
    obtain ⟨cursor, same⟩ := g.handleCursor_cursor req
    simp only [same]
    exact { accounted with }

theorem accounted_resetLocked (g : Gpu) : Accounted g.resetLocked where
  total := rfl
  limit := UInt64.le_iff_toNat_le.mpr (zero_le _)
  few := zero_le _
  named := lookup_empty _
  full := by
    intro id res found
    have none : lookup id (∅ : FinMap UInt32 GpuResource) = none := lookup_empty _
    cases none.symm.trans found
  bound := Or.inl ⟨rfl, rfl⟩

theorem Accounted.act (accounted : Accounted g) (action : Action) : Accounted (g.act action).1 := by
  cases action with
  | control mem req =>
    simp only [Gpu.act]
    split
    · exact accounted
    · exact accounted.control mem req
  | cursor reqs =>
    simp only [Gpu.act]
    split
    · exact accounted
    · exact accounted.cursors reqs
  | reset =>
    simp only [Gpu.act, reset]
    split
    · exact g.accounted_resetLocked
    · exact g.accounted_resetLocked
  | setDisplaySize width height =>
    simp only [Gpu.act, setDisplaySize]
    split
    · exact accounted
    split
    · exact accounted
    split
    · exact accounted
    · exact { accounted with }
  | close =>
    simp only [Gpu.act, close]
    split
    · exact accounted
    · exact accounted_resetLocked _

theorem Accounted.run (actions : List Action) :
    ∀ {g : Gpu}, Accounted g → Accounted (g.run actions) := by
  induction actions with
  | nil => exact fun accounted => accounted
  | cons action rest ih => exact fun accounted => ih (accounted.act action)

/-- Whatever a guest sends, the accounts of its resources are right. -/
theorem resources_accounted (display : Option DisplayKind) (actions : List Action) :
    Accounted ((newGPU display).run actions) :=
  Accounted.run actions { (newGPU display).accounted_resetLocked with }

end Gpu

end Gokvm.Virtio
