import Gokvm.Disk.Tables

/-! # Storing one metadata word

What the metadata and the guest's view become when one word of a table is stored, a cluster
outside the tables is written, or the file is resized.
-/

namespace Gokvm.Disk

open Lib Function Nat Slot

variable {g : Geometry} {f f' : Store}

/-- `f'` is `f` with `v` stored in the live slot `s`. -/
structure Stores (g : Geometry) (f f' : Store) (s : Slot) (v : Nat) : Prop where
  header : f'.read 0 g.clusterSize = f.read 0 g.clusterSize
  size : f'.size = f.size
  self : slotWord g (metadataOf g f) f' s = v
  others : ∀ s' : Slot, s' ≠ s → s'.Live g (metadataOf g f) →
    slotWord g (metadataOf g f) f' s' = slotWord g (metadataOf g f) f s'
  outside : ∀ x, x / g.clusterSize ≠ s.address g (metadataOf g f) / g.clusterSize →
    f'.byte x = f.byte x

variable {s : Slot} {v pos : Nat}

/-- Writing any part of a slot stores some word there. -/
theorem Stores.of_part (valid : Valid g (metadataOf g f)) {data : Bytes} (live : s.Live g (metadataOf g f))
    (short : data.length ≤ s.width) :
    Stores g f (f.write (s.address g (metadataOf g f)) data) s
      (slotWord g (metadataOf g f) (f.write (s.address g (metadataOf g f)) data) s) where
  header := by
    refine header_agree (fun x elsewhere => byte_write_slot valid live short elsewhere) ?_
    intro first
    have owns := owned valid live
    rw [first] at owns
    have both := valid.distinct _ _ _ owns .header
    cases s <;> cases both
  size := by
    apply Store.size_write_inside
    have room := in_file valid live
    simp only [metadataOf] at room ⊢
    omega
  self := rfl
  others := fun s' other live' => slotWord_write_other valid live live' other short
  outside := fun x elsewhere => byte_write_slot valid live short elsewhere

theorem Stores.of_write (valid : Valid g (metadataOf g f)) (live : s.Live g (metadataOf g f))
    (small : v < 256 ^ s.width) :
    Stores g f (f.write (s.address g (metadataOf g f)) (beBytes s.width v)) s v := by
  have store := Stores.of_part valid live (le_of_eq (beBytes_length s.width v))
  rwa [slotWord_write_self small] at store

theorem slotWord_stored (m : Metadata) (f : Store) (s : Slot) :
    f.read (s.address g m) s.width = beBytes s.width (slotWord g m f s) := by
  have back := beBytes_beNat (f.read (s.address g m) s.width)
  rw [Store.read_length] at back
  exact back.symm

namespace Stores

variable {i v : Nat} {s : Slot}

theorem l1At_eq (store : Stores g f f' (.l1 i) v) (inside : i < g.l1Size) :
    l1At g f' = update (l1At g f) i v := by
  funext i'
  by_cases same : i' = i
  · subst same
    rw [update_self, l1At, if_pos inside]
    exact store.self
  · rw [update_of_ne same]
    exact l1At_congr (store.others (.l1 i') (by simp [same]))

theorem refcountTableAt_eq {t : Nat} (store : Stores g f f' (.table t) v) (inside : t < g.refcountEntries) :
    refcountTableAt g f' = update (refcountTableAt g f) t v := by
  funext t'
  by_cases same : t' = t
  · subst same
    rw [update_self, refcountTableAt, if_pos inside]
    exact store.self
  · rw [update_of_ne same]
    exact refcountTableAt_congr (store.others (.table t') (by simp [same]))

section

variable (store : Stores g f f' s v)
include store

theorem l1_same (other : ∀ i, .l1 i ≠ s) :
    l1At g f' = l1At g f :=
  funext fun i => l1At_congr (store.others (.l1 i) (other i))

theorem refcountTable_same (other : ∀ t, .table t ≠ s) :
    refcountTableAt g f' = refcountTableAt g f :=
  funext fun t => refcountTableAt_congr (store.others (.table t) (other t))

theorem l2_same {j : Nat} (table : l1At g f' i = l1At g f i) (other : .l2 i j ≠ s) :
    l2At g f' i j = l2At g f i j :=
  l2At_congr table (store.others (.l2 i j) other)

theorem refcount_same {c : Nat}
    (table : refcountTableAt g f' (c / g.blockEntries) = refcountTableAt g f (c / g.blockEntries))
    (other : .count c ≠ s) : refcountAt g f' c = refcountAt g f c :=
  refcountAt_congr table (store.others (.count c) other)

end

theorem count {k : Nat} (store : Stores g f f' (.count k) v)
    (live : refcountTableAt g f (k / g.blockEntries) ≠ 0) :
    metadataOf g f' =
      { metadataOf g f with refcounts := update (metadataOf g f).refcounts k v } := by
  have l1 := store.l1_same (by simp)
  have table := store.refcountTable_same (by simp)
  have l2 : l2At g f' = l2At g f := by
    funext i j
    exact store.l2_same (congrFun l1 i) (by simp)
  have counts : refcountAt g f' = update (refcountAt g f) k v := by
    funext c
    by_cases same : c = k
    · subst same
      rw [update_self, refcountAt, table, if_pos live]
      exact store.self
    · rw [update_of_ne same]
      exact store.refcount_same (congrFun table _) (by simp [same])
  simp only [metadataOf, store.header, l1, table, l2, counts, store.size]

theorem l2 {j : Nat} (store : Stores g f f' (.l2 i j) v) (live : l1At g f i ≠ 0 ∧ j < g.l2Entries) :
    metadataOf g f' = { metadataOf g f with
      l2 := update (metadataOf g f).l2 i (update ((metadataOf g f).l2 i) j v) } := by
  have l1 := store.l1_same (by simp)
  have table := store.refcountTable_same (by simp)
  have counts : refcountAt g f' = refcountAt g f := by
    funext c
    exact store.refcount_same (congrFun table _) (by simp)
  have l2 : l2At g f' = update (l2At g f) i (update (l2At g f i) j v) := by
    funext i' j'
    rw [update_entry]
    split
    next here =>
      rw [here.1, here.2, l2At, l1, if_pos live]
      exact store.self
    next other => exact store.l2_same (congrFun l1 _) (by simpa using other)
  simp only [metadataOf, store.header, l1, table, l2, counts, store.size]

variable (valid : Valid g (metadataOf g f))
include valid

/-- A cluster without an owner keeps its bytes. -/
theorem unowned (store : Stores g f f' s v) (live : s.Live g (metadataOf g f)) {k : Nat}
    (fresh : Fresh g (metadataOf g f) k) :
    f'.read (k * g.clusterSize) g.clusterSize = f.read (k * g.clusterSize) g.clusterSize := by
  apply Store.read_congr
  intro x low high
  apply store.outside
  intro same
  have owns := owned valid live
  rw [← same, g.cluster_div low high] at owns
  exact fresh _ owns

/-- Storing an L1 entry for a zeroed cluster without an owner adds an empty L2 table. -/
theorem l1 (store : Stores g f f' (.l1 i) v) (inside : i < g.l1Size) (unused : l1At g f i = 0)
    (aligned : clusterOffset v % g.clusterSize = 0)
    (fresh : Fresh g (metadataOf g f) (clusterOffset v / g.clusterSize))
    (zeroed : ∀ x, x / g.clusterSize = clusterOffset v / g.clusterSize → f.byte x = 0) :
    metadataOf g f' =
      { metadataOf g f with l1 := update (metadataOf g f).l1 i v } := by
  have l1 := store.l1At_eq inside
  have table := store.refcountTable_same (by simp)
  have counts : refcountAt g f' = refcountAt g f := by
    funext c
    exact store.refcount_same (congrFun table _) (by simp)
  have live : (Slot.l1 i).Live g (metadataOf g f) := inside
  have l2 : l2At g f' = l2At g f := by
    funext i' j
    by_cases same : i' = i
    · subst same
      have none : l2At g f i' j = 0 := by
        rw [l2At, if_neg]
        exact fun used => used.1 unused
      rw [none, l2At, l1, update_self]
      split
      next used =>
        have zeros : f'.read (clusterOffset v + j * 8) 8 = List.replicate 8 0 := by
          apply List.eq_replicate_of_mem
          intro b member
          obtain ⟨x, range, rfl⟩ := List.mem_map.mp member
          have place : x < 8 := List.mem_range.mp range
          have whole := g.clusterSize_l2
          have inTable := used.2
          have small : j * 8 + x < g.clusterSize := by omega
          have here : (clusterOffset v + j * 8 + x) / g.clusterSize =
              clusterOffset v / g.clusterSize := by
            rw [add_assoc, g.base_inside aligned small]
          rw [store.outside]
          · exact zeroed _ here
          · intro same
            have owns := owned valid live
            rw [← same, here] at owns
            exact fresh _ owns
        rw [zeros, beNat_zeros]
      · rfl
    · exact store.l2_same (by rw [l1, update_of_ne same]) (by simp)
  simp only [metadataOf, store.header, l1, table, l2, counts, store.size]

/-- Storing a refcount table entry for a block that counts only itself. -/
theorem table {t k : Nat} (store : Stores g f f' (.table t) (k * g.clusterSize))
    (inside : t < g.refcountEntries) (unused : refcountTableAt g f t = 0)
    (own : k / g.blockEntries = t) (nonzero : k ≠ 0) (fresh : Fresh g (metadataOf g f) k)
    (block : f.read (k * g.clusterSize) g.clusterSize =
      put (List.replicate g.clusterSize 0) (k % g.blockEntries * 2) (beBytes 2 1)) :
    metadataOf g f' = { metadataOf g f with
      refcountTable := update (metadataOf g f).refcountTable t (k * g.clusterSize)
      refcounts := update (metadataOf g f).refcounts k 1 } := by
  have l1 := store.l1_same (by simp)
  have table := store.refcountTableAt_eq inside
  have l2 : l2At g f' = l2At g f := by
    funext i j
    exact store.l2_same (congrFun l1 i) (by simp)
  have live : (Slot.table t).Live g (metadataOf g f) := inside
  have whole := g.clusterSize_block
  have low := g.blockEntries_low
  have block' : f'.read (k * g.clusterSize) g.clusterSize =
      put (List.replicate g.clusterSize 0) (k % g.blockEntries * 2) (beBytes 2 1) := by
    rw [← block]
    exact store.unowned valid live fresh
  have offset : k * g.clusterSize ≠ 0 := mul_ne_zero nonzero (ne_of_gt g.clusterSize_pos)
  have counts : refcountAt g f' = update (refcountAt g f) k 1 := by
    funext c
    by_cases here : c / g.blockEntries = t
    · have none : refcountAt g f c = 0 := by
        rw [refcountAt, here, if_neg (by simpa using unused)]
      have indexC := mod_lt c (show 0 < g.blockEntries by omega)
      have indexK := mod_lt k (show 0 < g.blockEntries by omega)
      rw [refcountAt, here, table, update_self, if_pos offset,
        ← Store.part_read (n := g.clusterSize) (by omega), block']
      by_cases same : c = k
      · subst same
        have self := part_put_same (beBytes 2 1)
          (show c % g.blockEntries * 2 ≤ (List.replicate g.clusterSize (0 : UInt8)).length by
            rw [List.length_replicate]; omega)
        rw [beBytes_length] at self
        rw [self, update_self]
        rfl
      · have other : c % g.blockEntries ≠ k % g.blockEntries := by
          intro h
          apply same
          rw [← div_add_mod c g.blockEntries, ← div_add_mod k g.blockEntries, here, own, h]
        rw [part_put_other (by simp; omega) (by rw [beBytes_length]; omega),
          part_zeros (by omega), beNat_zeros, update_of_ne same, none]
    · have other : c ≠ k := fun same => here (same ▸ own)
      rw [update_of_ne other]
      exact store.refcount_same (by rw [table, update_of_ne here]) (by simp)
  simp only [metadataOf, store.header, l1, table, l2, counts, store.size]

theorem block_same (store : Stores g f f' s v) (live : s.Live g (metadataOf g f)) {t : Nat}
    (used : refcountTableAt g f t ≠ 0) (other : s.owner g ≠ .refcountBlock t) :
    f'.read (refcountTableAt g f t) g.clusterSize = f.read (refcountTableAt g f t) g.clusterSize := by
  refine block_agree store.outside valid used ?_
  rintro _ owns rfl
  exact other (valid.distinct _ _ _ (owned valid live) owns)

end Stores

/-! ## The guest's view -/

def entryAt (g : Geometry) (f : Store) (pos : Nat) : Nat :=
  l2At g f (pos / g.clusterSize / g.l2Entries) (pos / g.clusterSize % g.l2Entries)

/-- The guest reads zeros through this entry. -/
def ReadsZero (entry : Nat) : Prop := entry &&& qcow2OFlagZero ≠ 0 ∨ clusterOffset entry = 0

theorem guestByte_zero (zero : ReadsZero (entryAt g f pos)) : guestByte g f pos = 0 :=
  if_pos zero

theorem guestByte_mapped (mapped : ¬ReadsZero (entryAt g f pos)) :
    guestByte g f pos = f.byte (clusterOffset (entryAt g f pos) + pos % g.clusterSize) :=
  if_neg mapped

theorem ReadsZero.of_zero : ReadsZero 0 := .inr clusterOffset_zero

/-- Under an unchanged entry the guest sees the old byte if the host byte is the old. -/
theorem guestByte_of_entry (entry : entryAt g f' pos = entryAt g f pos)
    (byte : clusterOffset (entryAt g f pos) ≠ 0 → ¬ReadsZero (entryAt g f pos) →
      f'.byte (clusterOffset (entryAt g f pos) + pos % g.clusterSize) =
        f.byte (clusterOffset (entryAt g f pos) + pos % g.clusterSize)) :
    guestByte g f' pos = guestByte g f pos := by
  by_cases zero : ReadsZero (entryAt g f pos)
  · have zero' : ReadsZero (entryAt g f' pos) := by rwa [entry]
    rw [guestByte_zero zero, guestByte_zero zero']
  · have mapped : ¬ReadsZero (entryAt g f' pos) := by rwa [entry]
    rw [guestByte_mapped zero, guestByte_mapped mapped, entry]
    exact byte (fun unset => zero (.inr unset)) zero

theorem Geometry.cluster_position (g : Geometry) {c d : Nat} (row : c / g.l2Entries = d / g.l2Entries)
    (column : c % g.l2Entries = d % g.l2Entries) : c = d := by
  rw [← div_add_mod c g.l2Entries, ← div_add_mod d g.l2Entries, row, column]

section

variable (valid : Valid g (metadataOf g f))
include valid

theorem Valid.mapped_div {i j : Nat} (used : clusterOffset (l2At g f i j) ≠ 0) {d : Nat}
    (small : d < g.clusterSize) :
    (clusterOffset (l2At g f i j) + d) / g.clusterSize =
      clusterOffset (l2At g f i j) / g.clusterSize :=
  g.base_inside ((valid.entry i j).2 used).1 small

/-- Changing a cluster hides from the guest when every data entry for it has the zero flag. -/
theorem guestByte_agree {c : Nat} (agree : ∀ x, x / g.clusterSize ≠ c → f'.byte x = f.byte x)
    (l2 : l2At g f' = l2At g f)
    (hidden : ∀ i j, Owns g (metadataOf g f) (.data i j) c → l2At g f i j &&& qcow2OFlagZero ≠ 0) :
    guestByte g f' = guestByte g f := by
  funext pos
  have entry : entryAt g f' pos = entryAt g f pos := by rw [entryAt, entryAt, l2]
  refine guestByte_of_entry entry fun used shown => agree _ ?_
  rw [entryAt, valid.mapped_div used (mod_lt _ g.clusterSize_pos)]
  intro here
  have owns : Owns g (metadataOf g f) (.data _ _) _ := .data _ _ used
  exact shown (.inl (hidden _ _ (here ▸ owns)))

theorem Stores.guest (store : Stores g f f' s v) (live : s.Live g (metadataOf g f))
    (l2 : l2At g f' = l2At g f) : guestByte g f' = guestByte g f := by
  refine guestByte_agree valid store.outside l2 ?_
  intro i j owns
  have same := valid.distinct _ _ _ owns (owned valid live)
  cases s <;> cases same

/-- Mapping a zeroed cluster where the guest read zeros hides from the guest. -/
theorem Stores.guest_map {i j : Nat} (store : Stores g f f' (.l2 i j) v)
    (live : l1At g f i ≠ 0 ∧ j < g.l2Entries) (before : ReadsZero (l2At g f i j))
    (aligned : clusterOffset v % g.clusterSize = 0)
    (apart : clusterOffset v / g.clusterSize ≠ clusterOffset (l1At g f i) / g.clusterSize)
    (zeroed : ∀ x, x / g.clusterSize = clusterOffset v / g.clusterSize → f.byte x = 0) :
    guestByte g f' = guestByte g f := by
  have live' : (Slot.l2 i j).Live g (metadataOf g f) := live
  have owns := owned valid live'
  have table : (Slot.l2 i j).address g (metadataOf g f) / g.clusterSize =
      clusterOffset (l1At g f i) / g.clusterSize := by
    have whole := g.clusterSize_l2
    have inTable := live.2
    exact g.base_inside (valid.l2Table i live.1).2.2.2.1 (by omega)
  have entries : l2At g f' = update (l2At g f) i (update (l2At g f i) j v) :=
    congrArg Metadata.l2 (store.l2 live)
  funext pos
  have inside := mod_lt pos g.clusterSize_pos
  by_cases here : pos / g.clusterSize / g.l2Entries = i ∧ pos / g.clusterSize % g.l2Entries = j
  · have entry : entryAt g f' pos = v := by
      rw [entryAt, entries, update_entry, if_pos here]
    have old : ReadsZero (entryAt g f pos) := by rwa [entryAt, here.1, here.2]
    rw [guestByte_zero old]
    by_cases zero : ReadsZero v
    · exact guestByte_zero (by rwa [entry])
    · have cluster := g.base_inside aligned inside
      have mapped : ¬ReadsZero (entryAt g f' pos) := by rwa [entry]
      rw [guestByte_mapped mapped, entry, store.outside]
      · exact zeroed _ cluster
      · rwa [cluster, table]
  · have entry : entryAt g f' pos = entryAt g f pos := by
      rw [entryAt, entries, update_entry, if_neg here]
      rfl
    refine guestByte_of_entry entry fun used _ => store.outside _ ?_
    rw [entryAt, valid.mapped_div used inside]
    intro same
    have data : Owns g (metadataOf g f) (.data _ _) _ := .data _ _ used
    have both := valid.distinct _ _ _ data (same ▸ owns)
    cases both

/-- A write to the host bytes of mapped guest bytes of one cluster changes those. -/
theorem guestByte_write {data : Bytes} (mapped : ¬ReadsZero (entryAt g f pos))
    (inside : pos % g.clusterSize + data.length ≤ g.clusterSize) :
    guestByte g (f.write (clusterOffset (entryAt g f pos) + pos % g.clusterSize) data) =
      overlay (guestByte g f) pos data := by
  have used : clusterOffset (entryAt g f pos) ≠ 0 := fun h => mapped (.inr h)
  have owns : Owns g (metadataOf g f) (.data _ _) _ := .data _ _ used
  have offset := mod_lt pos g.clusterSize_pos
  have start : clusterOffset (entryAt g f pos) / g.clusterSize * g.clusterSize =
      clusterOffset (entryAt g f pos) := g.aligned_eq ((valid.entry _ _).2 used).1
  have agree : ∀ x, x / g.clusterSize ≠ clusterOffset (entryAt g f pos) / g.clusterSize →
      (f.write (clusterOffset (entryAt g f pos) + pos % g.clusterSize) data).byte x = f.byte x := by
    intro x elsewhere
    exact byte_write_elsewhere (by omega) (by omega) elsewhere
  have l2 : l2At g (f.write (clusterOffset (entryAt g f pos) + pos % g.clusterSize) data) =
      l2At g f := by
    refine congrArg Metadata.l2 (metadataOf_agree agree valid ?_)
    intro o other
    exact ⟨_, _, valid.distinct _ _ _ other owns⟩
  generalize written : f.write (clusterOffset (entryAt g f pos) + pos % g.clusterSize) data = f' at *
  funext x
  have entry : entryAt g f' x = entryAt g f x := by rw [entryAt, entryAt, l2]
  have split := div_add_mod x g.clusterSize
  have splitPos := div_add_mod pos g.clusterSize
  by_cases same : x / g.clusterSize = pos / g.clusterSize
  · have cluster : entryAt g f x = entryAt g f pos := by rw [entryAt, entryAt, same]
    rw [same] at split
    have mappedOld : ¬ReadsZero (entryAt g f x) := by rwa [cluster]
    have mappedNew : ¬ReadsZero (entryAt g f' x) := by rwa [entry]
    rw [guestByte_mapped mappedNew, entry, cluster, ← written, Store.byte_write, overlay,
      guestByte_mapped mappedOld, cluster]
    have place : pos ≤ x ∧ x < pos + data.length ↔
        clusterOffset (entryAt g f pos) + pos % g.clusterSize ≤
            clusterOffset (entryAt g f pos) + x % g.clusterSize ∧
          clusterOffset (entryAt g f pos) + x % g.clusterSize <
            clusterOffset (entryAt g f pos) + pos % g.clusterSize + data.length := by
      omega
    by_cases within : pos ≤ x ∧ x < pos + data.length
    · rw [if_pos within, if_pos (place.mp within)]
      congr 1
      omega
    · rw [if_neg within, if_neg (fun h => within (place.mpr h))]
  · have outside : ¬(pos ≤ x ∧ x < pos + data.length) := by
      intro within
      apply same
      apply g.cluster_div
      · rw [mul_comm]
        omega
      · rw [mul_comm]
        omega
    rw [overlay, if_neg outside]
    refine guestByte_of_entry entry fun used' _ => agree _ ?_
    rw [entryAt, valid.mapped_div used' (mod_lt _ g.clusterSize_pos)]
    intro cluster
    have data' : Owns g (metadataOf g f) (.data _ _) _ := .data _ _ used'
    have both := valid.distinct _ _ _ data' (cluster ▸ owns)
    injection both with row column
    exact same (g.cluster_position row column)

end

theorem guestByte_resize {n : Nat} (valid : Valid g { metadataOf g f with fileSize := n }) :
    guestByte g (f.resize n) = guestByte g f := by
  have l2 : l2At g (f.resize n) = l2At g f := congrArg Metadata.l2 (metadataOf_resize valid)
  funext pos
  have entry : entryAt g (f.resize n) pos = entryAt g f pos := by rw [entryAt, entryAt, l2]
  refine guestByte_of_entry entry fun used _ => ?_
  have room : clusterOffset (entryAt g f pos) + g.clusterSize ≤ n := ((valid.entry _ _).2 used).2
  have small := mod_lt pos g.clusterSize_pos
  rw [Store.byte_resize, if_pos (by omega)]

end Gokvm.Disk
