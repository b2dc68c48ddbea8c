import Gokvm.Lib.Store

/-! # Guest memory and split virtqueues

Guest memory is one byte store, and the three areas of a virtqueue are places in it: the device
reads the descriptor table and the available ring and updates the used ring through pointers, so a
buffer may lie over any of them.
-/

namespace Gokvm.Virtio

open Lib Store

def queueSize : Nat := 32

/-! ## Guest memory -/

/-- The first address reserved for device registers below 4 GiB. -/
def mmioStart : Nat := 0xd0000000

/-- Where memory continues after the hole. -/
def highRAMStart : Nat := 2 ^ 32

/-- `guestmem.ValidRange`. -/
def validRange (mem : Store) (addr size : Nat) : Bool :=
  if addr > mem.size ∨ size > mem.size - addr then false
  else highRAMStart ≤ addr || (addr ≤ mmioStart && size ≤ mmioStart - addr)

theorem validRange_iff {mem : Store} {addr n : Nat} :
    validRange mem addr n = true ↔
      addr + n ≤ mem.size ∧ (highRAMStart ≤ addr ∨ addr + n ≤ mmioStart) := by
  unfold validRange
  split <;> simp <;> omega

def loadU16 (mem : Store) (addr : Nat) : Nat := leNat (mem.read addr 2)

def loadU32 (mem : Store) (addr : Nat) : Nat := leNat (mem.read addr 4)

def loadU64 (mem : Store) (addr : Nat) : Nat := leNat (mem.read addr 8)

/-! ## Virtqueues -/

structure SplitDesc where
  addr : Nat
  len : Nat
  flags : Nat
  next : Nat
deriving DecidableEq

def descFNext : Nat := 0x1

def descFWrite : Nat := 0x2

/-- A programmed virtqueue: where its areas lie, and the negotiated size. -/
structure SplitQueue where
  desc : Nat
  avail : Nat
  used : Nat
  size : Nat
deriving DecidableEq

open SplitQueue

/-- Sizes of the three views, as Go lays the structures out. -/
def sizeofDescTable : Nat := 16 * queueSize

def sizeofAvail : Nat := 4 + 2 * queueSize + 2

def sizeofUsed : Nat := 4 + 8 * queueSize + 4

namespace SplitQueue

def descAt (q : SplitQueue) (mem : Store) (i : Nat) : SplitDesc where
  addr := loadU64 mem (q.desc + 16 * i)
  len := loadU32 mem (q.desc + 16 * i + 8)
  flags := loadU16 mem (q.desc + 16 * i + 12)
  next := loadU16 mem (q.desc + 16 * i + 14)

def availIdx (q : SplitQueue) (mem : Store) : Nat := loadU16 mem (q.avail + 2)

def availRing (q : SplitQueue) (mem : Store) (slot : Nat) : Nat :=
  loadU16 mem (q.avail + 4 + 2 * slot)

def usedIdx (q : SplitQueue) (mem : Store) : Nat := loadU16 mem (q.used + 2)

def usedRing (q : SplitQueue) (mem : Store) (slot : Nat) : Nat × Nat :=
  (loadU32 mem (q.used + 4 + 8 * slot), loadU32 mem (q.used + 8 + 8 * slot))

def setUsedIdx (q : SplitQueue) (mem : Store) (idx : Nat) : Store :=
  mem.write (q.used + 2) (leBytes 2 idx)

def setUsedRing (q : SplitQueue) (mem : Store) (slot id len : Nat) : Store :=
  mem.write (q.used + 4 + 8 * slot) (leBytes 4 id ++ leBytes 4 len)

end SplitQueue

/-! ## The parts of a ring that are in use -/

/-- A buffer that lies outside the indices and the entries of both rings. -/
def ClearOf (q : SplitQueue) (size addr len : Nat) : Prop :=
  (addr + len ≤ q.avail + 2 ∨ q.avail + 4 + 2 * size ≤ addr) ∧
  (addr + len ≤ q.used + 2 ∨ q.used + 4 + 8 * size ≤ addr)

instance (q : SplitQueue) (size addr len : Nat) : Decidable (ClearOf q size addr len) :=
  inferInstanceAs (Decidable (_ ∧ _))

def RingsApart (q : SplitQueue) (size : Nat) : Prop :=
  q.avail + 4 + 2 * size ≤ q.used + 2 ∨ q.used + 4 + 8 * size ≤ q.avail + 2

instance (q : SplitQueue) (size : Nat) : Decidable (RingsApart q size) :=
  inferInstanceAs (Decidable (_ ∨ _))

/-- The available ring is the same in both memories. -/
structure SameAvail (q : SplitQueue) (size : Nat) (mem mem' : Store) : Prop where
  idx : q.availIdx mem' = q.availIdx mem
  ring : ∀ slot, slot < size → q.availRing mem' slot = q.availRing mem slot

theorem SameAvail.refl (q : SplitQueue) (size : Nat) (mem : Store) : SameAvail q size mem mem :=
  { idx := rfl, ring := fun _ _ => rfl }

variable {q : SplitQueue} {size id : Nat} {mem : Store}

theorem SameAvail.trans {a b c : Store} (first : SameAvail q size a b) (second : SameAvail q size b c) : SameAvail q size a c where
  idx := second.idx.trans first.idx
  ring slot inside := (second.ring slot inside).trans (first.ring slot inside)

/-- The used ring is the same in both memories. -/
structure SameUsed (q : SplitQueue) (size : Nat) (mem mem' : Store) : Prop where
  idx : q.usedIdx mem' = q.usedIdx mem
  ring : ∀ slot, slot < size → q.usedRing mem' slot = q.usedRing mem slot

theorem sameAvail_write {addr : Nat} {data : Bytes} (mem : Store)
    (clear : addr + data.length ≤ q.avail + 2 ∨ q.avail + 4 + 2 * size ≤ addr) :
    SameAvail q size mem (mem.write addr data) := by
  constructor
  · unfold availIdx loadU16
    rw [read_write_disjoint (by omega)]
  · intro slot inside
    unfold availRing loadU16
    rw [read_write_disjoint (by omega)]

theorem sameUsed_write {addr : Nat} {data : Bytes} (mem : Store)
    (clear : addr + data.length ≤ q.used + 2 ∨ q.used + 4 + 8 * size ≤ addr) :
    SameUsed q size mem (mem.write addr data) := by
  constructor
  · unfold usedIdx loadU16
    rw [read_write_disjoint (by omega)]
  · intro slot inside
    unfold usedRing loadU32
    rw [read_write_disjoint (by omega), read_write_disjoint (by omega)]

theorem usedIdx_setUsedRing (q : SplitQueue) (mem : Store) (slot id len : Nat) :
    q.usedIdx (q.setUsedRing mem slot id len) = q.usedIdx mem := by
  unfold usedIdx setUsedRing loadU16
  rw [read_write_disjoint (by omega)]

theorem usedRing_setUsedRing_other (q : SplitQueue) (mem : Store) {slot other : Nat} (id len : Nat)
    (apart : other ≠ slot) :
    q.usedRing (q.setUsedRing mem slot id len) other = q.usedRing mem other := by
  unfold usedRing setUsedRing loadU32
  have wide : (leBytes 4 id ++ leBytes 4 len).length = 8 := by simp
  rw [read_write_disjoint (by rw [wide]; omega),
    read_write_disjoint (by rw [wide]; omega)]

theorem usedRing_setUsedRing_same (q : SplitQueue) (mem : Store) (slot : Nat) (len : Nat)
    (small : id < 2 ^ 32) : (q.usedRing (q.setUsedRing mem slot id len) slot).1 = id := by
  have first := mem.read_write_left (q.used + 4 + 8 * slot) (leBytes 4 id) (leBytes 4 len)
  rw [leBytes_length] at first
  unfold usedRing setUsedRing loadU32
  rw [first, leNat_leBytes]
  exact Nat.mod_eq_of_lt small

theorem sameAvail_setUsedRing {slot : Nat} (mem : Store) (id len : Nat) (apart : RingsApart q size)
    (inside : slot < size) :
    SameAvail q size mem (q.setUsedRing mem slot id len) := by
  apply sameAvail_write
  have wide : (leBytes 4 id ++ leBytes 4 len).length = 8 := by simp
  rw [wide]
  unfold RingsApart at apart
  omega

theorem sameAvail_setUsedIdx (mem : Store) (idx : Nat) (apart : RingsApart q size) : SameAvail q size mem (q.setUsedIdx mem idx) := by
  apply sameAvail_write
  rw [leBytes_length]
  unfold RingsApart at apart
  omega

theorem usedIdx_setUsedIdx (q : SplitQueue) (mem : Store) (idx : Nat) :
    q.usedIdx (q.setUsedIdx mem idx) = idx % 2 ^ 16 := by
  unfold usedIdx setUsedIdx loadU16
  have whole := mem.read_write_self (q.used + 2) (leBytes 2 idx)
  rw [leBytes_length] at whole
  rw [whole, leNat_leBytes]
  rfl

theorem usedIdx_lt (q : SplitQueue) (mem : Store) : q.usedIdx mem < 2 ^ 16 := by
  have bound := leNat_lt (mem.read (q.used + 2) 2)
  rwa [read_length] at bound

theorem availRing_lt (q : SplitQueue) (mem : Store) (slot : Nat) : q.availRing mem slot < 2 ^ 16 := by
  have bound := leNat_lt (mem.read (q.avail + 4 + 2 * slot) 2)
  rwa [read_length] at bound

end Gokvm.Virtio
