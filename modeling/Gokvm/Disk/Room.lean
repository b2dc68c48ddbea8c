import Gokvm.Disk.Refcount

/-! # Room for new clusters

An L1 or L2 entry holds host offsets below 2^56. `room` counts the clusters that can still be
appended below, apart from refcount blocks: appending one of those keeps the room, appending a
cluster takes one.
-/

namespace Gokvm.Disk

open Lib Function Nat Finset

/-- Host clusters that `n` bytes fill or begin. -/
def Geometry.clustersFor (g : Geometry) (n : Nat) : Nat := (n + g.clusterSize - 1) / g.clusterSize

/-- Host clusters that lie below the limit of table entries. -/
def Geometry.clusterLimit (g : Geometry) : Nat := 2 ^ (56 - g.bits)

/-- Host bytes the refcount table can account for. -/
def Geometry.refcountCovers (g : Geometry) : Nat :=
  g.refcountEntries * g.blockEntries * g.clusterSize

def Metadata.nextCluster (g : Geometry) (m : Metadata) : Nat := g.clustersFor m.fileSize

/-- Appending reaches `p` with a new refcount block and not with the cluster asked for. -/
def BecomesBlock (g : Geometry) (m : Metadata) (p : Nat) : Prop :=
  m.refcountTable (p / g.blockEntries) = 0 ∧ (p = m.nextCluster g ∨ p % g.blockEntries = 0)

instance (g : Geometry) (m : Metadata) (p : Nat) : Decidable (BecomesBlock g m p) :=
  inferInstanceAs (Decidable (_ ∧ _))

/-- The clusters that can be appended below the limit of table entries. -/
def roomSet (g : Geometry) (m : Metadata) : Finset Nat :=
  (range g.clusterLimit).filter (fun p => m.nextCluster g ≤ p ∧ ¬BecomesBlock g m p)

def room (g : Geometry) (m : Metadata) : Nat := (roomSet g m).card

/-- `n` more clusters fit below 2^56, or the refcount table stops there anyway. -/
def Budget (g : Geometry) (m : Metadata) (n : Nat) : Prop :=
  g.refcountCovers ≤ 2 ^ 56 ∨ n ≤ room g m

section

variable {g : Geometry} {m m' : Metadata}

theorem Geometry.clusterLimit_mul (g : Geometry) : g.clusterLimit * g.clusterSize = 2 ^ 56 := by
  have high := g.bits_high
  rw [clusterLimit, clusterSize, ← pow_add]
  congr 1
  omega

theorem Geometry.clustersFor_mul (g : Geometry) (k : Nat) : g.clustersFor (k * g.clusterSize) = k := by
  have positive := g.clusterSize_pos
  apply g.cluster_div
  · omega
  · omega

theorem Geometry.clustersFor_next (g : Geometry) (k : Nat) :
    g.clustersFor (k * g.clusterSize + g.clusterSize) = k + 1 := by
  have next := g.clustersFor_mul (k + 1)
  rwa [add_mul, one_mul] at next

theorem Geometry.le_clustersFor (g : Geometry) (n : Nat) : n ≤ g.clustersFor n * g.clusterSize := by
  have positive := g.clusterSize_pos
  have divided := div_add_mod (n + g.clusterSize - 1) g.clusterSize
  have rest := mod_lt (n + g.clusterSize - 1) positive
  rw [mul_comm] at divided
  simp only [clustersFor]
  omega

theorem Geometry.alignUp_eq (g : Geometry) (n : Nat) :
    alignUp n g.clusterSize = g.clustersFor n * g.clusterSize := by
  have positive := g.clusterSize_pos
  have split := div_add_mod n g.clusterSize
  have rest := mod_lt n positive
  rw [mul_comm] at split
  unfold alignUp
  split
  next aligned =>
    have exact := g.clustersFor_mul (n / g.clusterSize)
    rw [g.aligned_eq aligned] at exact
    rw [exact, g.aligned_eq aligned]
  · have count : g.clustersFor n = n / g.clusterSize + 1 := by
      apply g.cluster_div
      · rw [add_mul]
        omega
      · rw [add_mul]
        omega
    rw [count, add_mul]
    omega

theorem mem_roomSet {p : Nat} :
    p ∈ roomSet g m ↔ p < g.clusterLimit ∧ m.nextCluster g ≤ p ∧ ¬BecomesBlock g m p := by
  rw [roomSet, mem_filter, mem_range]

theorem Budget.congr {n : Nat} (budget : Budget g m n) (table : m'.refcountTable = m.refcountTable)
    (size : m'.fileSize = m.fileSize) : Budget g m' n := by
  have same : roomSet g m' = roomSet g m := by
    ext p
    simp only [mem_roomSet, BecomesBlock, Metadata.nextCluster, table, size]
  rw [Budget, room, same]
  exact budget

theorem Budget.mono {n n' : Nat} (budget : Budget g m n) (less : n' ≤ n) : Budget g m n' :=
  budget.imp id (le_trans less)

/-- A refcount block at the end of the file takes no room. -/
theorem Budget.block {n k : Nat} (budget : Budget g m n) (last : m.nextCluster g = k)
    (missing : m.refcountTable (k / g.blockEntries) = 0) (nonzero : k ≠ 0)
    (table : m'.refcountTable =
      update m.refcountTable (k / g.blockEntries) (k * g.clusterSize))
    (size : m'.fileSize = k * g.clusterSize + g.clusterSize) : Budget g m' n := by
  have offset : k * g.clusterSize ≠ 0 := mul_ne_zero nonzero (ne_of_gt g.clusterSize_pos)
  have low := g.blockEntries_low
  have last' : m'.nextCluster g = k + 1 := by rw [Metadata.nextCluster, size, g.clustersFor_next]
  have same : roomSet g m' = roomSet g m := by
    ext p
    simp only [mem_roomSet, BecomesBlock, last, last', table]
    have splitP := div_add_mod p g.blockEntries
    have splitK := div_add_mod k g.blockEntries
    by_cases here : p / g.blockEntries = k / g.blockEntries
    · -- The published block serves the rest of its range.
      rw [here] at splitP
      simp only [here, update_self, offset, missing, false_and, not_false_eq_true,
        and_true, true_and]
      omega
    · simp only [update_of_ne here]
      have start : p = k + 1 → p % g.blockEntries = 0 := by
        rintro rfl
        rw [Nat.succ_div] at here
        split at here
        next divides => exact mod_eq_zero_of_dvd divides
        · exact absurd rfl here
      have other : p ≠ k := fun h => here (by rw [h])
      by_cases zero : p % g.blockEntries = 0
      · simp only [zero, or_true, and_true]
        omega
      · have next : p ≠ k + 1 := fun h => zero (start h)
        simp only [zero, other, next, or_self, and_false, not_false_eq_true, and_true]
        omega
  rw [Budget, room, same]
  exact budget

/-- A cluster at the end of the file whose refcount block exists takes one. -/
theorem Budget.cluster {n k : Nat} (budget : Budget g m (n + 1)) (m' : Metadata)
    (last : m.nextCluster g = k)
    (inside : k / g.blockEntries < g.refcountEntries)
    (used : m.refcountTable (k / g.blockEntries) ≠ 0)
    (table : m'.refcountTable = m.refcountTable)
    (size : m'.fileSize = k * g.clusterSize + g.clusterSize) :
    k * g.clusterSize < 2 ^ 56 ∧ Budget g m' n := by
  have low := g.blockEntries_low
  have positive := g.clusterSize_pos
  have last' : m'.nextCluster g = k + 1 := by rw [Metadata.nextCluster, size, g.clustersFor_next]
  rcases budget with covers | enough
  · refine ⟨lt_of_lt_of_le ?_ covers, .inl covers⟩
    have small : k < g.refcountEntries * g.blockEntries :=
      (div_lt_iff_lt_mul (by omega)).mp inside
    exact mul_lt_mul_of_pos_right small positive
  · obtain ⟨p, member⟩ := card_pos.mp (lt_of_lt_of_le (succ_pos n) enough)
    rw [mem_roomSet, last] at member
    have limit : k < g.clusterLimit := by omega
    have bound : k * g.clusterSize < 2 ^ 56 := by
      rw [← g.clusterLimit_mul]
      exact mul_lt_mul_of_pos_right limit positive
    have next : roomSet g m' = (roomSet g m).erase k := by
      ext p
      simp only [mem_erase, mem_roomSet, BecomesBlock, last, last', table]
      by_cases follows : p = k + 1
      · have start : m.refcountTable (p / g.blockEntries) = 0 → p % g.blockEntries = 0 := by
          rintro zero
          rw [follows, Nat.succ_div] at zero
          split at zero
          next divides =>
            rw [follows]
            exact mod_eq_zero_of_dvd divides
          · exact absurd zero used
        have other : p ≠ k := by omega
        by_cases zero : m.refcountTable (p / g.blockEntries) = 0
        · simp only [zero, start zero, or_true, and_true, not_true_eq_false, and_false]
        · simp only [zero, false_and, not_false_eq_true, and_true]
          omega
      · by_cases same : p = k
        · simp only [same]
          omega
        · simp only [follows, same, false_or]
          omega
    have present : k ∈ roomSet g m := by
      rw [mem_roomSet, last]
      exact ⟨limit, le_refl _, fun h => used h.1⟩
    refine ⟨bound, .inr ?_⟩
    rw [room, next, card_erase_of_mem present]
    exact le_sub_one_of_lt enough

end

end Gokvm.Disk
