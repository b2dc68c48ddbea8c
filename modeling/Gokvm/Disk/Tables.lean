import Gokvm.Disk.Metadata

/-! # The tables of an image in its bytes

`metadataOf` reads the metadata out of a file. A metadata word has a slot: an address, a width,
and the owner of its cluster. Slots of a valid image do not overlap, so writing one word changes
one entry, and writing a data cluster or one without an owner changes none.
-/

namespace Gokvm.Disk

open Lib Store Nat

def l1At (g : Geometry) (f : Store) (i : Nat) : Nat :=
  if i < g.l1Size then beNat (f.read (g.l1TableOffset + i * 8) 8) else 0

def refcountTableAt (g : Geometry) (f : Store) (t : Nat) : Nat :=
  if t < g.refcountEntries then beNat (f.read (g.refcountTableOffset + t * 8) 8) else 0

def l2At (g : Geometry) (f : Store) (i j : Nat) : Nat :=
  if l1At g f i ≠ 0 ∧ j < g.l2Entries then
    beNat (f.read (clusterOffset (l1At g f i) + j * 8) 8)
  else 0

def refcountAt (g : Geometry) (f : Store) (c : Nat) : Nat :=
  if refcountTableAt g f (c / g.blockEntries) ≠ 0 then
    beNat (f.read (refcountTableAt g f (c / g.blockEntries) + c % g.blockEntries * 2) 2)
  else 0

def metadataOf (g : Geometry) (f : Store) : Metadata where
  header := f.read 0 g.clusterSize
  l1 := l1At g f
  refcountTable := refcountTableAt g f
  l2 := l2At g f
  refcounts := refcountAt g f
  fileSize := f.size

/-- The byte a guest reads at `pos`: that of the host cluster, zero without one or under the zero
    flag. -/
def guestByte (g : Geometry) (f : Store) (pos : Nat) : UInt8 :=
  let cluster := pos / g.clusterSize
  let entry := l2At g f (cluster / g.l2Entries) (cluster % g.l2Entries)
  if entry &&& qcow2OFlagZero ≠ 0 ∨ clusterOffset entry = 0 then 0
  else f.byte (clusterOffset entry + pos % g.clusterSize)

/-! ## Slots -/

inductive Slot where
  | l1 (i : Nat)
  | table (t : Nat)
  | l2 (i j : Nat)
  | count (c : Nat)
  deriving Repr, DecidableEq

open Slot

namespace Slot

def owner (g : Geometry) : Slot → Owner
  | .l1 i => .l1 (i * 8 / g.clusterSize)
  | .table t => .refcountTable (t * 8 / g.clusterSize)
  | .l2 i _ => .l2Table i
  | .count c => .refcountBlock (c / g.blockEntries)

def address (g : Geometry) (m : Metadata) : Slot → Nat
  | .l1 i => g.l1TableOffset + i * 8
  | .table t => g.refcountTableOffset + t * 8
  | .l2 i j => clusterOffset (m.l1 i) + j * 8
  | .count c => m.refcountTable (c / g.blockEntries) + c % g.blockEntries * 2

def width : Slot → Nat
  | .count _ => 2
  | _ => 8

def Live (g : Geometry) (m : Metadata) : Slot → Prop
  | .l1 i => i < g.l1Size
  | .table t => t < g.refcountEntries
  | .l2 i j => m.l1 i ≠ 0 ∧ j < g.l2Entries
  | .count c => m.refcountTable (c / g.blockEntries) ≠ 0

end Slot

section Addresses

variable {g : Geometry} {m : Metadata} {f f' : Store}

theorem Geometry.base_div (g : Geometry) {base : Nat} (aligned : base % g.clusterSize = 0) (d : Nat) :
    (base + d) / g.clusterSize = base / g.clusterSize + d / g.clusterSize := by
  obtain ⟨n, rfl⟩ := dvd_of_mod_eq_zero aligned
  rw [Nat.mul_add_div g.clusterSize_pos, Nat.mul_div_cancel_left n g.clusterSize_pos]

theorem Geometry.base_inside (g : Geometry) {base d : Nat} (aligned : base % g.clusterSize = 0)
    (small : d < g.clusterSize) : (base + d) / g.clusterSize = base / g.clusterSize := by
  rw [g.base_div aligned, div_eq_of_lt small, add_zero]

theorem Geometry.aligned_8 (g : Geometry) {x : Nat} (aligned : x % g.clusterSize = 0) : x % 8 = 0 := by
  have := g.aligned_512 aligned
  omega

theorem Geometry.word_inside (g : Geometry) {a w : Nat} (divides : w ∣ g.clusterSize)
    (aligned : w ∣ a) : a + w ≤ a / g.clusterSize * g.clusterSize + g.clusterSize := by
  have split := div_add_mod a g.clusterSize
  have small := mod_lt a g.clusterSize_pos
  obtain ⟨r, rem⟩ := (dvd_mod_iff divides).mpr aligned
  obtain ⟨n, whole⟩ := divides
  have next : w * r + w ≤ w * n := by
    have less : r < n := by
      rw [rem, whole] at small
      exact Nat.lt_of_mul_lt_mul_left small
    have step := mul_le_mul_left w (succ_le_of_lt less)
    rwa [mul_succ] at step
  rw [rem, mul_comm] at split
  omega

theorem Slot.width_dvd (g : Geometry) (s : Slot) : s.width ∣ g.clusterSize := by
  have eight : 8 ∣ g.clusterSize := ⟨_, g.clusterSize_l2⟩
  cases s with
  | l1 | table | l2 => exact eight
  | count => exact dvd_trans (show 2 ∣ 8 by decide) eight

variable {s : Slot}

theorem Slot.address_dvd (valid : Valid g m) (live : s.Live g m) :
    s.width ∣ s.address g m := by
  have eight : ∀ {base}, base % g.clusterSize = 0 → ∀ n, 8 ∣ base + n * 8 := by
    intro base aligned n
    have := g.aligned_8 aligned
    omega
  cases s with
  | l1 i => exact eight g.l1_aligned i
  | table t => exact eight g.refcount_aligned t
  | l2 i j => exact eight (valid.l2Table i live.1).2.2.2.1 j
  | count c =>
    have := g.aligned_8 (valid.block _ live).2.1
    simp only [address, width]
    omega

theorem Slot.inside (valid : Valid g m) (live : s.Live g m) :
    s.address g m + s.width ≤ s.address g m / g.clusterSize * g.clusterSize + g.clusterSize :=
  g.word_inside (s.width_dvd g) (address_dvd valid live)

/-- A live slot lies in a cluster of its owner. -/
theorem Slot.owned (valid : Valid g m) (live : s.Live g m) :
    Owns g m (s.owner g) (s.address g m / g.clusterSize) := by
  have positive := g.clusterSize_pos
  cases s with
  | l1 i =>
    have inside : i * 8 / g.clusterSize < g.l1Clusters := by
      have small : i < g.l1Size := live
      rw [Geometry.l1Clusters, div_lt_iff_lt_mul positive]
      have divided := div_add_mod (g.l1Size * 8 + g.clusterSize - 1) g.clusterSize
      have rest := mod_lt (g.l1Size * 8 + g.clusterSize - 1) positive
      rw [mul_comm] at divided
      omega
    simpa only [address, owner, g.base_div g.l1_aligned] using Owns.l1 _ inside
  | table t =>
    have inside : t * 8 / g.clusterSize < g.refcountTableClusters := by
      have small : t < g.refcountEntries := live
      rw [div_lt_iff_lt_mul positive]
      simp only [Geometry.refcountEntries] at small
      omega
    simpa only [address, owner, g.base_div g.refcount_aligned] using
      Owns.refcountTable _ inside
  | l2 i j =>
    have place := (valid.l2Table i live.1).2.2.2
    have small : j * 8 < g.clusterSize := by
      have := g.clusterSize_l2
      have := live.2
      omega
    have owns : Owns g m (.l2Table i) _ := .l2Table i live.1
    simpa only [address, owner, g.base_inside place.1 small] using owns
  | count c =>
    have place := (valid.block _ live).2
    have small : c % g.blockEntries * 2 < g.clusterSize := Nat.lt_of_succ_lt (g.count_inside c)
    have owns : Owns g m (.refcountBlock (c / g.blockEntries)) _ := .refcountBlock _ live
    simpa only [address, owner, g.base_inside place.1 small] using owns

theorem Geometry.words_apart (g : Geometry) {a w b v : Nat}
    (left : a + w ≤ a / g.clusterSize * g.clusterSize + g.clusterSize)
    (right : b + v ≤ b / g.clusterSize * g.clusterSize + g.clusterSize)
    (other : a / g.clusterSize ≠ b / g.clusterSize) : a + w ≤ b ∨ b + v ≤ a := by
  have lowA := div_mul_le_self a g.clusterSize
  have lowB := div_mul_le_self b g.clusterSize
  rcases lt_or_gt_of_ne other with less | more
  · have := g.cluster_lt less
    omega
  · have := g.cluster_lt more
    omega

/-- Different live slots do not overlap. -/
theorem Slot.apart (valid : Valid g m) {s' : Slot} (live : s.Live g m) (live' : s'.Live g m) (other : s ≠ s') :
    s.address g m + s.width ≤ s'.address g m ∨ s'.address g m + s'.width ≤ s.address g m := by
  by_cases cluster : s.address g m / g.clusterSize = s'.address g m / g.clusterSize
  · -- In one cluster both slots have one owner, hence lie in one table.
    have owns' := owned valid live'
    rw [← cluster] at owns'
    have same := valid.distinct _ _ _ (owned valid live) owns'
    cases s <;> cases s' <;> simp only [owner, reduceCtorEq] at same
    case l1 i i' =>
      have : i ≠ i' := fun h => other (by rw [h])
      simp only [address, width]
      omega
    case table t t' =>
      have : t ≠ t' := fun h => other (by rw [h])
      simp only [address, width]
      omega
    case l2 i j i' j' =>
      injection same with same
      subst same
      have : j ≠ j' := fun h => other (by rw [h])
      simp only [address, width]
      omega
    case count c c' =>
      injection same with same
      have : c % g.blockEntries ≠ c' % g.blockEntries := by
        intro h
        apply other
        rw [← div_add_mod c g.blockEntries, ← div_add_mod c' g.blockEntries, same, h]
      simp only [address, width, same]
      omega
  · exact g.words_apart (inside valid live) (inside valid live') cluster

theorem Slot.in_file (valid : Valid g m) (live : s.Live g m) :
    s.address g m + s.width ≤ m.fileSize := by
  cases s with
  | l1 i =>
    have room := valid.l1Fits
    have small : i < g.l1Size := live
    simp only [address, width]
    omega
  | table t =>
    have room := valid.tableFits
    have small : t < g.refcountTableClusters * g.clusterSize / 8 := live
    simp only [address, width]
    omega
  | l2 i j =>
    have room := (valid.l2Table i live.1).2.2.2.2
    have small := live.2
    have whole := g.clusterSize_l2
    simp only [address, width]
    omega
  | count c =>
    have room := (valid.block _ live).2.2
    have inside := g.count_inside c
    simp only [address, width]
    omega

end Addresses

section Writes

variable {g : Geometry} {f f' : Store}

def slotWord (g : Geometry) (m : Metadata) (f : Store) (s : Slot) : Nat :=
  beNat (f.read (s.address g m) s.width)

variable {m : Metadata} {s : Slot} {c : Nat}

theorem slotWord_write_self {v : Nat} (small : v < 256 ^ s.width) :
    slotWord g m (f.write (s.address g m) (beBytes s.width v)) s = v := by
  have back := read_write_self (f := f) (s.address g m) (beBytes s.width v)
  rw [beBytes_length] at back
  rw [slotWord, back, beNat_beBytes, mod_eq_of_lt small]

theorem slotWord_write_other (valid : Valid g m) {s' : Slot} {data : Bytes} (live : s.Live g m)
    (live' : s'.Live g m) (other : s' ≠ s) (short : data.length ≤ s.width) :
    slotWord g m (f.write (s.address g m) data) s' = slotWord g m f s' := by
  have apart := apart valid live live' (Ne.symm other)
  rw [slotWord, slotWord, read_write_disjoint (by omega)]

theorem byte_write_elsewhere {off x : Nat} {data : Bytes} (low : c * g.clusterSize ≤ off)
    (high : off + data.length ≤ c * g.clusterSize + g.clusterSize) (elsewhere : x / g.clusterSize ≠ c) :
    (f.write off data).byte x = f.byte x := by
  apply byte_write_outside
  by_contra within
  exact elsewhere (g.cluster_div (by omega) (by omega))

theorem byte_write_slot (valid : Valid g m) {data : Bytes} (live : s.Live g m) (short : data.length ≤ s.width)
    {x : Nat} (elsewhere : x / g.clusterSize ≠ s.address g m / g.clusterSize) :
    (f.write (s.address g m) data).byte x = f.byte x := by
  have inside := inside valid live
  exact byte_write_elsewhere (div_mul_le_self _ _) (by omega) elsewhere

theorem l1At_congr {i : Nat} (same : i < g.l1Size →
      slotWord g (metadataOf g f) f' (.l1 i) = slotWord g (metadataOf g f) f (.l1 i)) :
    l1At g f' i = l1At g f i := by
  rw [l1At, l1At]
  split
  next small => exact same small
  · rfl

theorem refcountTableAt_congr {t : Nat} (same : t < g.refcountEntries →
      slotWord g (metadataOf g f) f' (.table t) = slotWord g (metadataOf g f) f (.table t)) :
    refcountTableAt g f' t = refcountTableAt g f t := by
  rw [refcountTableAt, refcountTableAt]
  split
  next small => exact same small
  · rfl

theorem l2At_congr {i j : Nat} (table : l1At g f' i = l1At g f i)
    (same : (l2 i j).Live g (metadataOf g f) →
      slotWord g (metadataOf g f) f' (.l2 i j) = slotWord g (metadataOf g f) f (.l2 i j)) :
    l2At g f' i j = l2At g f i j := by
  rw [l2At, l2At, table]
  split
  next live => exact same live
  · rfl

theorem refcountAt_congr
    (table : refcountTableAt g f' (c / g.blockEntries) = refcountTableAt g f (c / g.blockEntries))
    (same : (count c).Live g (metadataOf g f) →
      slotWord g (metadataOf g f) f' (.count c) = slotWord g (metadataOf g f) f (.count c)) :
    refcountAt g f' c = refcountAt g f c := by
  rw [refcountAt, refcountAt, table]
  split
  next live => exact same live
  · rfl

/-- Files with one header whose words agree at every slot of the first differ in size only. -/
theorem metadataOf_congr (header : f'.read 0 g.clusterSize = f.read 0 g.clusterSize)
    (same : ∀ s : Slot, s.Live g (metadataOf g f) →
      slotWord g (metadataOf g f) f' s = slotWord g (metadataOf g f) f s) :
    metadataOf g f' = { metadataOf g f with fileSize := f'.size } := by
  have l1 : l1At g f' = l1At g f := funext fun i => l1At_congr (same (.l1 i))
  have table : refcountTableAt g f' = refcountTableAt g f := funext fun t => refcountTableAt_congr (same (.table t))
  have l2 : l2At g f' = l2At g f := funext₂ fun i j => l2At_congr (congrFun l1 i) (same (.l2 i j))
  have counts : refcountAt g f' = refcountAt g f :=
    funext fun c => refcountAt_congr (congrFun table _) (same (.count c))
  simp only [metadataOf, header, l1, table, l2, counts]

section

variable (agree : ∀ x, x / g.clusterSize ≠ c → f'.byte x = f.byte x)
include agree

theorem header_agree (other : c ≠ 0) :
    f'.read 0 g.clusterSize = f.read 0 g.clusterSize := by
  apply read_congr
  intro x _ high
  apply agree
  rw [div_eq_of_lt (by omega)]
  exact Ne.symm other

theorem slotWord_agree (valid : Valid g m) (live : s.Live g m)
    (elsewhere : s.address g m / g.clusterSize ≠ c) : slotWord g m f' s = slotWord g m f s := by
  have inside := inside valid live
  rw [slotWord, slotWord, read_congr]
  intro x low high
  apply agree
  rw [g.cluster_div (c := s.address g m / g.clusterSize)]
  · exact elsewhere
  · exact le_trans (div_mul_le_self _ _) low
  · omega

/-- A write that stays inside one cluster that holds no metadata keeps all of it. -/
theorem metadataOf_agree (valid : Valid g (metadataOf g f))
    (noTable : ∀ o, Owns g (metadataOf g f) o c → ∃ i j, o = .data i j) :
    metadataOf g f' = { metadataOf g f with fileSize := f'.size } := by
  have notHeader : c ≠ 0 := by
    rintro rfl
    obtain ⟨i, j, data⟩ := noTable _ .header
    cases data
  apply metadataOf_congr (header_agree agree notHeader)
  intro s live
  refine slotWord_agree agree valid live ?_
  intro here
  have owns := owned valid live
  rw [here] at owns
  obtain ⟨i, j, data⟩ := noTable _ owns
  cases s <;> cases data

theorem block_agree (valid : Valid g (metadataOf g f)) {t : Nat} (used : refcountTableAt g f t ≠ 0)
    (other : ∀ o, Owns g (metadataOf g f) o c → o ≠ .refcountBlock t) :
    f'.read (refcountTableAt g f t) g.clusterSize = f.read (refcountTableAt g f t) g.clusterSize := by
  have base : refcountTableAt g f t / g.clusterSize * g.clusterSize = refcountTableAt g f t :=
    g.aligned_eq (valid.block t used).2.1
  have owns : Owns g (metadataOf g f) (.refcountBlock t) _ := .refcountBlock t used
  apply read_congr
  intro x low high
  apply agree
  rw [g.cluster_div (c := refcountTableAt g f t / g.clusterSize) (by omega) (by omega)]
  rintro rfl
  exact other _ owns rfl

end

/-- Resizing the file changes its size only, if the layout is valid for the new size. -/
theorem metadataOf_resize {n : Nat}
    (valid : Valid g { metadataOf g f with fileSize := n }) :
    metadataOf g (f.resize n) = { metadataOf g f with fileSize := n } := by
  have header : (f.resize n).read 0 g.clusterSize = f.read 0 g.clusterSize := by
    have fits : g.clusterSize ≤ n := valid.headerFits
    apply read_congr
    intro x _ high
    rw [byte_resize, if_pos (by omega)]
  apply metadataOf_congr header
  intro s live
  have room := in_file (m := { metadataOf g f with fileSize := n }) (s := s) valid
    (by cases s <;> exact live)
  have address : s.address g { metadataOf g f with fileSize := n } = s.address g (metadataOf g f) := by
    cases s <;> rfl
  rw [address] at room
  rw [slotWord, slotWord, read_congr]
  intro x _ high
  have inside : x < n := lt_of_lt_of_le high room
  rw [byte_resize, if_pos inside]

end Writes

end Gokvm.Disk
