import Gokvm.Disk.Access
import Gokvm.Disk.Open

/-! # An open image as its tables describe it

The disk that the tables of an image describe, and the condition under which a write stays below
the host offsets of table entries. Both are read off the image; on a sound one they are those of
its file.
-/

namespace Gokvm.Disk

open Lib

namespace Image

variable (q : Image)

/-- The L2 entry of a guest cluster, zero where there is no L2 table. -/
def mapping (cluster : Nat) : Nat :=
  let entry := q.l1.getD (cluster / q.l2Entries) 0
  if entry = 0 then 0
  else beNat (q.file.read (clusterOffset entry + cluster % q.l2Entries * 8) 8)

/-- The disk the tables describe: zeros where a cluster is unallocated or carries
    the zero flag. -/
def contents : FlatDisk where
  size := q.size
  byte pos :=
    let entry := q.mapping (pos / q.clusterSize)
    if entry &&& qcow2OFlagZero ≠ 0 ∨ clusterOffset entry = 0 then 0
    else q.file.byte (clusterOffset entry + pos % q.clusterSize)

def nextCluster : Nat := (q.file.size + q.clusterSize - 1) / q.clusterSize

/-- Appending uses the host cluster `p` for a refcount block. -/
def TakenByBlock (p : Nat) : Prop :=
  q.refcountTable.getD (p / q.refcountBlockEntries) 0 = 0 ∧
    (p = q.nextCluster ∨ p % q.refcountBlockEntries = 0)

instance (p : Nat) : Decidable (q.TakenByBlock p) := inferInstanceAs (Decidable (_ ∧ _))

/-- Clusters that can still be appended at host offsets below 2^56, refcount blocks
    aside. -/
def room : Nat :=
  ((Finset.range (2 ^ 56 / q.clusterSize)).filter
    (fun p => q.nextCluster ≤ p ∧ ¬q.TakenByBlock p)).card

/-- Clusters a write appends, refcount blocks aside: missing data clusters and L2 tables. -/
def demand (off len : Nat) : Nat :=
  if len = 0 then 0
  else
    let first := off / q.clusterSize
    let last := (off + len - 1) / q.clusterSize
    (∑ c ∈ Finset.Ico first (last + 1), if clusterOffset (q.mapping c) = 0 then 1 else 0) +
      ∑ i ∈ Finset.Ico (first / q.l2Entries) (last / q.l2Entries + 1),
        if q.l1.getD i 0 = 0 then 1 else 0

/-- What a write appends lies below 2^56: the refcount table ends there, or there is room. -/
def Fits (off len : Nat) : Prop :=
  q.refcountTable.length * q.refcountBlockEntries * q.clusterSize ≤ 2 ^ 56 ∨
    q.demand off len ≤ q.room

instance (off len : Nat) : Decidable (q.Fits off len) := inferInstanceAs (Decidable (_ ∨ _))

end Image

section Sound

variable {g : Geometry} {q : Image}

variable (loaded : Loaded g q)
include loaded

theorem Loaded.l1_getD (i : Nat) : q.l1.getD i 0 = l1At g q.file i := by
  rw [List.getD_eq_getElem?_getD, loaded.l1_item]
  by_cases inside : i < g.l1Size
  · rw [if_pos inside, Option.getD_some]
  · rw [if_neg inside, Option.getD_none, l1At, if_neg inside]

theorem Loaded.table_getD (t : Nat) :
    q.refcountTable.getD t 0 = refcountTableAt g q.file t := by
  rw [List.getD_eq_getElem?_getD, loaded.table_item]
  by_cases inside : t < g.refcountEntries
  · rw [if_pos inside, Option.getD_some]
  · rw [if_neg inside, Option.getD_none, refcountTableAt, if_neg inside]

theorem Loaded.mapping_eq (c : Nat) :
    q.mapping c = l2At g q.file (c / g.l2Entries) (c % g.l2Entries) := by
  have column := Nat.mod_lt c g.l2Entries_pos
  simp only [Image.mapping, loaded.l2Entries, loaded.l1_getD]
  by_cases none : l1At g q.file (c / g.l2Entries) = 0
  · rw [if_pos none, l2At, if_neg (fun both => both.1 none)]
  · rw [if_neg none, l2At, if_pos ⟨none, column⟩]

theorem Loaded.contents_eq : q.contents = guestDisk g q.file := by
  simp only [Image.contents, guestDisk, loaded.size, loaded.clusterSize, loaded.mapping_eq]
  rfl

theorem Loaded.nextCluster_eq :
    q.nextCluster = (metadataOf g q.file).nextCluster g := by
  rw [Image.nextCluster, loaded.clusterSize]
  rfl

theorem Loaded.room_eq : q.room = room g (metadataOf g q.file) := by
  have limit : 2 ^ 56 / q.clusterSize = g.clusterLimit := by
    rw [loaded.clusterSize, ← g.clusterLimit_mul, g.mul_clusterSize_div]
  simp only [Image.room, limit, room, roomSet, Image.TakenByBlock, BecomesBlock, loaded.table_getD,
    loaded.nextCluster_eq, loaded.blockEntries]
  rfl

theorem Loaded.demand_eq (off len : Nat) :
    q.demand off len = demand g q.file off len := by
  simp only [Image.demand, demand, missingData, missingL2, Geometry.row, loaded.clusterSize,
    loaded.l2Entries, loaded.mapping_eq, loaded.l1_getD]

theorem Loaded.budget {off len : Nat} (fits : q.Fits off len) :
    Budget g (metadataOf g q.file) (demand g q.file off len) := by
  rw [Image.Fits, loaded.demand_eq, loaded.room_eq, loaded.clusterSize, loaded.blockEntries,
    loaded.refcountTable, List.length_map, List.length_range] at fits
  exact fits

end Sound

end Gokvm.Disk
