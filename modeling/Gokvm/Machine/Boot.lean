import Gokvm.Virtio.Queue
import Mathlib.Order.Bounds.Defs

/-! # Boot images

Where the boot loader puts the initrd: the highest page below the limit that the kernel and
the framebuffer leave free. Addresses are natural numbers, wrapped where 64 bits could carry.
-/

namespace Gokvm.Boot

open Lib Virtio List

structure Machine where
  mem : Store
  vesaEnabled : Bool

structure BootRange where
  addr : Nat
  size : Nat
  deriving DecidableEq

def BootRange.overlaps (r other : BootRange) : Bool :=
  r.size ≠ 0 ∧ other.size ≠ 0 ∧ r.addr < (other.addr + other.size) % 2 ^ 64 ∧
    other.addr < (r.addr + r.size) % 2 ^ 64

/-- What `readerSize` finds behind an `io.ReaderAt`. -/
inductive Reader where
  | sized (size : Int)
  /-- `Stat` may fail. -/
  | file (size : Option Int)
  /-- A reader of unknown size is read through; it may break off instead of ending. -/
  | stream (length : Nat) (broken : Bool)
  deriving DecidableEq

structure BootImage where
  reader : Reader
  offset : Nat
  addr : Nat
  size : Nat
  memory : Nat
  deriving DecidableEq

inductive BootError where
  | imageSize
  | measure
  | exceeds (size : Int) (limit : Nat)
  | initrdEmpty
  | initrdFit (size maxAddr : Nat)
  deriving DecidableEq

def highMemBase : Nat := 0x100000

def vesaFramebuffer : BootRange := ⟨0x01000000, 4 * 2 ^ 20⟩

def checkSize (size : Int) (limit : Nat) : Except BootError Nat :=
  if size < 0 ∨ limit < size.toNat then .error (.exceeds size limit) else .ok size.toNat

def readerSize (r : Reader) (limit : Nat) : Except BootError Nat :=
  match r with
  | .sized size => checkSize size limit
  | .file none => .error .imageSize
  | .file (some size) => checkSize size limit
  | .stream length broken =>
    if broken ∧ length ≤ limit then .error .measure
    else checkSize (min length (limit + 1)) limit

def Machine.lowRAM (m : Machine) : Nat := min m.mem.size mmioStart

/-- The occupied ranges, with the framebuffer that the BIOS uses. -/
def Machine.reserved (m : Machine) (occupied : List BootRange) : List BootRange :=
  if m.vesaEnabled then occupied ++ [vesaFramebuffer] else occupied

/-- The limit after the ranges that a candidate met. -/
def lower (conflicts : List BootRange) (limit : Nat) : Nat :=
  conflicts.foldl (fun limit reserved => min limit reserved.addr) limit

theorem le_lower {conflicts : List BootRange} {limit x : Nat} :
    x ≤ lower conflicts limit ↔ x ≤ limit ∧ ∀ r ∈ conflicts, x ≤ r.addr := by
  induction conflicts generalizing limit with
  | nil => simp [lower]
  | cons r rest ih =>
    simp only [lower, foldl_cons, forall_mem_cons] at ih ⊢
    rw [ih, le_min_iff, and_assoc]

theorem lower_lt {candidate r : BootRange} {rest occupied : List BootRange} {limit : Nat}
    (met : occupied.filter candidate.overlaps = r :: rest)
    (below : candidate.addr + candidate.size ≤ limit) : lower (r :: rest) limit < limit := by
  have conflict : r ∈ occupied.filter candidate.overlaps := met ▸ mem_cons_self
  have := (le_lower.mp le_rfl : lower (r :: rest) limit ≤ limit ∧ _).2 r mem_cons_self
  simp only [mem_filter, BootRange.overlaps, decide_eq_true_eq] at conflict
  omega

/-- The search of `initrdImage`, downwards from `limit`. -/
def place (size : Nat) (occupied : List BootRange) (limit : Nat) : Option Nat :=
  if _fits : size ≤ limit then
    let addr := (limit - size) / 4096 * 4096
    if addr < highMemBase then none
    else match _met : occupied.filter (BootRange.overlaps ⟨addr, size⟩) with
      | [] => some addr
      | r :: rest => place size occupied (lower (r :: rest) limit)
  else none
termination_by limit
decreasing_by exact lower_lt _met (by dsimp only; omega)

/-- `none` stands for the empty image of a boot without initrd. -/
def Machine.initrdImage (m : Machine) (r : Option Reader) (maxAddr : Nat)
    (occupied : List BootRange) : Except BootError (Option BootImage) :=
  match r with
  | none => .ok none
  | some r => do
    let limit := min m.lowRAM (min maxAddr (highRAMStart - 1) + 1)
    let size ← readerSize r limit
    if size = 0 then .error .initrdEmpty
    else
      match place size (m.reserved occupied) limit with
      | some addr => .ok (some ⟨r, 0, addr, size, size⟩)
      | none => .error (.initrdFit size maxAddr)

/-! ## The highest free page -/

def BootRange.Holds (r : BootRange) (i : Nat) : Prop := r.addr ≤ i ∧ i < r.addr + r.size

/-- An initrd of this size may lie at `addr`, below `limit`. -/
structure Fits (size : Nat) (occupied : List BootRange) (limit addr : Nat) : Prop where
  aligned : 4096 ∣ addr
  high : highMemBase ≤ addr
  below : addr + size ≤ limit
  free : ∀ r ∈ occupied, ∀ i, BootRange.Holds ⟨addr, size⟩ i → ¬ r.Holds i

/-- The answer is the highest address that fits; there is none when no address does. -/
def Highest (fits : Nat → Prop) : Option Nat → Prop
  | some addr => IsGreatest {addr | fits addr} addr
  | none => ∀ addr, ¬ fits addr

section Search

variable {size limit addr : Nat} {occupied : List BootRange} (nonempty : 0 < size)
  (bounded : ∀ r ∈ occupied, r.addr + r.size < 2 ^ 64)

theorem overlaps_iff {r other : BootRange} (low : r.addr + r.size < 2 ^ 64)
    (bounded : other.addr + other.size < 2 ^ 64) :
    r.overlaps other = true ↔ ∃ i, r.Holds i ∧ other.Holds i := by
  simp only [BootRange.overlaps, BootRange.Holds, decide_eq_true_eq, Nat.mod_eq_of_lt low,
    Nat.mod_eq_of_lt bounded]
  refine ⟨fun meets => ⟨max r.addr other.addr, by omega⟩, ?_⟩
  rintro ⟨i, inside, other⟩
  omega

theorem Machine.reserved_bounded (m : Machine)
    (bounded : ∀ r ∈ occupied, r.addr + r.size < 2 ^ 64) :
    ∀ r ∈ m.reserved occupied, r.addr + r.size < 2 ^ 64 := by
  unfold Machine.reserved
  split
  · exact forall_mem_append.mpr ⟨bounded, by decide⟩
  · exact bounded

include nonempty bounded in
/-- An address above a conflict of the highest candidate is not free either. -/
theorem fits_lower (small : limit < 2 ^ 64) (room : size ≤ limit) :
    Fits size occupied (lower (occupied.filter
      (BootRange.overlaps ⟨(limit - size) / 4096 * 4096, size⟩)) limit) =
      Fits size occupied limit := by
  funext addr
  refine propext ⟨fun fits => { fits with below := (le_lower.mp fits.below).1 }, fun fits => ?_⟩
  refine { fits with below := le_lower.mpr ⟨fits.below, fun r conflict => ?_⟩ }
  obtain ⟨listed, meets⟩ := mem_filter.mp conflict
  obtain ⟨i, inside, held⟩ := (overlaps_iff (by dsimp only; omega) (bounded r listed)).mp meets
  have free := fits.free r listed (max addr r.addr)
  have := fits.aligned
  have := fits.below
  simp only [BootRange.Holds] at free inside held
  omega

include nonempty bounded in
theorem place_highest (small : limit < 2 ^ 64) :
    Highest (Fits size occupied limit) (place size occupied limit) := by
  fun_induction place size occupied limit with
  | case1 limit room addr low =>
    intro other fits
    have := fits.aligned
    have := fits.high
    have := fits.below
    omega
  | case2 limit room addr high free =>
    constructor
    · refine ⟨Nat.dvd_mul_left .., by omega, by omega, fun r listed i inside held => ?_⟩
      have meets := (overlaps_iff (by dsimp only; omega) (bounded r listed)).mpr ⟨i, inside, held⟩
      exact filter_eq_nil_iff.mp free r listed meets
    · intro other fits
      have := fits.aligned
      have := fits.below
      omega
  | case3 limit room addr high r rest met ih =>
    have same := fits_lower nonempty bounded small room
    rw [met] at same
    have lowered := lower_lt met (show addr + size ≤ limit by omega)
    exact same ▸ ih (by omega)
  | case4 limit room =>
    intro other fits
    have := fits.below
    omega

end Search

def Reader.Delivers (size : Nat) : Reader → Prop
  | .sized n => n = size
  | .file n => n = some (size : Int)
  | .stream length broken => length = size ∧ broken = false

theorem readerSize_of_delivers {r : Reader} {size : Nat} (delivers : r.Delivers size)
    (limit : Nat) :
    size ≤ limit ∧ readerSize r limit = .ok size ∨
      limit < size ∧ ∃ e, readerSize r limit = .error e := by
  have checked (n : Int) (same : n = size ∨ limit < size ∧ limit < n) :
      size ≤ limit ∧ checkSize n limit = .ok size ∨
        limit < size ∧ ∃ e, checkSize n limit = .error e := by
    unfold checkSize
    split
    · exact .inr ⟨by omega, _, rfl⟩
    · exact .inl ⟨by omega, congrArg _ (by omega)⟩
  match r, delivers with
  | .sized n, same => exact checked n (.inl same)
  | .file _, same => exact same ▸ checked size (.inl rfl)
  | .stream _ _, ⟨rfl, rfl⟩ => exact checked _ (by omega)

/-- A nonempty initrd is put at the highest address that fits, and an error says that there is
    none. -/
theorem initrd_placed_highest (m : Machine) (r : Reader) (size maxAddr : Nat)
    (occupied : List BootRange) (delivers : r.Delivers size) (nonempty : 0 < size)
    (bounded : ∀ r ∈ occupied, r.addr + r.size < 2 ^ 64) :
    ∃ found, Highest (Fits size (m.reserved occupied) (min m.lowRAM (maxAddr + 1))) found ∧
      match found with
      | some addr =>
        m.initrdImage (some r) maxAddr occupied = .ok (some ⟨r, 0, addr, size, size⟩)
      | none => ∃ e, m.initrdImage (some r) maxAddr occupied = .error e := by
  have limits : min m.lowRAM (min maxAddr (highRAMStart - 1) + 1) =
      min m.lowRAM (maxAddr + 1) ∧ min m.lowRAM (maxAddr + 1) < 2 ^ 64 := by
    unfold Machine.lowRAM mmioStart highRAMStart
    omega
  have best := place_highest nonempty (m.reserved_bounded bounded) limits.2
  refine ⟨_, best, ?_⟩
  unfold Machine.initrdImage
  simp only [limits.1]
  cases readerSize_of_delivers delivers (min m.lowRAM (maxAddr + 1)) with
  | inl found =>
    simp only [found.2, bind, Except.bind, nonempty.ne', if_false]
    split
    · rfl
    · exact ⟨_, rfl⟩
  | inr refused =>
    obtain ⟨large, e, read⟩ := refused
    rw [read, place, dif_neg (by omega)]
    exact ⟨e, rfl⟩

def sampleMachine : Machine := ⟨⟨2 ^ 28, fun _ => 0, fun _ _ => rfl⟩, true⟩

theorem initrd_beside_kernel :
    ∃ addr, sampleMachine.initrdImage (some (.sized 0x1000)) 0x37ffffff
      [⟨0x100000, 0x800000⟩] = .ok (some ⟨.sized 0x1000, 0, addr, 0x1000, 0x1000⟩) := by
  obtain ⟨found, best, result⟩ := initrd_placed_highest sampleMachine (.sized 0x1000) 0x1000
    0x37ffffff [⟨0x100000, 0x800000⟩] rfl (by decide) (by simp)
  cases found with
  | some addr => exact ⟨addr, result⟩
  | none =>
    refine absurd ⟨by decide, by decide, by decide, ?_⟩ (best 0x1400000)
    simp [Machine.reserved, sampleMachine, vesaFramebuffer, BootRange.Holds]
    exact ⟨fun _ _ _ _ => by omega, fun _ _ _ _ => by omega⟩

/-- An empty initrd is refused although a page is free, and a range whose end wraps is not
    seen. -/
theorem empty_and_wrapped_misplaced :
    (sampleMachine.initrdImage (some (.sized 0)) (2 ^ 32) [] = .error .initrdEmpty ∧
      Fits 0 (sampleMachine.reserved []) sampleMachine.lowRAM 0x100000) ∧
    sampleMachine.initrdImage (some (.sized 0x1000)) (2 ^ 32) [⟨0x100000, 2 ^ 64 - 1⟩] =
      .ok (some ⟨.sized 0x1000, 0, 0xffff000, 0x1000, 0x1000⟩) := by
  refine ⟨⟨rfl, by decide, by decide, by decide, ?_⟩, ?_⟩
  · simp [BootRange.Holds]
  · unfold Machine.initrdImage place
    rfl

end Gokvm.Boot
