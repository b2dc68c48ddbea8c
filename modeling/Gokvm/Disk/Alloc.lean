import Gokvm.Disk.Room

/-! # Appending clusters

`allocateCluster` appends a zeroed cluster whose refcount is one, after the
refcount blocks it needs. If any step fails, either the image is as sound as
before or its writes are disabled.
-/

namespace Gokvm.Disk

open Lib List Function Nat Metadata
open Prog

variable {g : Geometry} {q q' : Image}

variable {n k v : Nat}

theorem map_range_update {t : Nat} (f : Nat → Nat) (v : Nat) :
    ((range n).map f).set t v = (range n).map (Function.update f t v) := by
  apply ext_getElem?
  intro i
  rw [getElem?_set]
  by_cases same : t = i
  · subst same
    by_cases inside : t < n <;> simp [inside]
  · by_cases inside : i < n <;> simp [same, inside, Ne.symm same]

/-! ## Refcount blocks -/

/-- The refcount block that `appendRefcountBlock` writes for cluster `k`. -/
def newBlock (g : Geometry) (k : Nat) : Bytes :=
  put (replicate g.clusterSize 0) (k % g.blockEntries * 2) (beBytes 2 1)

theorem newBlock_length (g : Geometry) (k : Nat) : (newBlock g k).length = g.clusterSize := by
  rw [newBlock, put_length]
  · exact length_replicate
  · rw [beBytes_length, length_replicate]
    exact g.count_inside k

/-- Cluster `k` at the end of the file is a refcount block now. -/
structure Appended (g : Geometry) (q : Image) (k : Nat) (q' : Image) : Prop where
  keeps : Keeps g q q'
  metadata : metadataOf g q'.file =
    { metadataOf g q.file with
      refcountTable :=
        Function.update (metadataOf g q.file).refcountTable (k / g.blockEntries) (k * g.clusterSize)
      refcounts := Function.update (metadataOf g q.file).refcounts k 1
      fileSize := k * g.clusterSize + g.clusterSize }

section Append

variable {k : Nat}

variable {f : Store}

theorem append_agree {x : Nat} (elsewhere : x / g.clusterSize ≠ k) :
    (f.write (k * g.clusterSize) (newBlock g k)).byte x = f.byte x :=
  byte_write_elsewhere (le_refl _) (by rw [newBlock_length]) elsewhere

theorem append_size (past : f.size ≤ k * g.clusterSize) :
    (f.write (k * g.clusterSize) (newBlock g k)).size = k * g.clusterSize + g.clusterSize := by
  have positive := g.clusterSize_pos
  simp only [Store.write, newBlock_length]
  rw [if_neg (by omega)]
  omega

theorem append_metadata (valid : Valid g (metadataOf g f)) (past : f.size ≤ k * g.clusterSize) :
    metadataOf g (f.write (k * g.clusterSize) (newBlock g k)) =
      { metadataOf g f with fileSize := k * g.clusterSize + g.clusterSize } := by
  rw [← append_size past]
  refine metadataOf_agree (fun x elsewhere => append_agree elsewhere) valid ?_
  intro o owns
  exact absurd owns (valid.fresh_beyond past o)

/-- The file after both writes of `appendRefcountBlock`. -/
theorem append_stored (valid : Valid g (metadataOf g f)) (past : f.size ≤ k * g.clusterSize)
    (inside : k / g.blockEntries < g.refcountEntries) (small : k * g.clusterSize < 2 ^ 64) :
    Stores g (f.write (k * g.clusterSize) (newBlock g k))
      ((f.write (k * g.clusterSize) (newBlock g k)).write
        (g.refcountTableOffset + k / g.blockEntries * 8) (beBytes 8 (k * g.clusterSize)))
      (.table (k / g.blockEntries)) (k * g.clusterSize) := by
  have metadata := append_metadata valid past
  have valid' : Valid g (metadataOf g (f.write (k * g.clusterSize) (newBlock g k))) := by
    rw [metadata]
    exact valid.grow (le_trans past (le_add_right _ _))
  exact Stores.of_write (s := .table (k / g.blockEntries)) valid' inside small

section

variable (inv : Inv g q) (past : q.file.size ≤ k * g.clusterSize) (nonzero : k ≠ 0)
  (inside : k / g.blockEntries < g.refcountEntries)
  (missing : refcountTableAt g q.file (k / g.blockEntries) = 0) (small : k * g.clusterSize < 2 ^ 64)
include inv past nonzero inside missing small

/-- The two writes leave the image sound once the table and the cache follow. -/
theorem Inv.appended {rest : List Reply} (quiet : q.replies = [] → rest = []) :
    Appended g q k (cacheRefcountBlock (k * g.clusterSize) (newBlock g k)
      { q with
        file := (q.file.write (k * g.clusterSize) (newBlock g k)).write
          (g.refcountTableOffset + k / g.blockEntries * 8) (beBytes 8 (k * g.clusterSize))
        replies := rest
        refcountTable := q.refcountTable.set (k / g.blockEntries) (k * g.clusterSize) }) := by
  have offset : k * g.clusterSize ≠ 0 := mul_ne_zero nonzero (ne_of_gt g.clusterSize_pos)
  have fresh := inv.valid.fresh_beyond past
  have first := append_metadata inv.valid past
  have store := append_stored inv.valid past inside small
  have agree : ∀ x, x / g.clusterSize ≠ k →
      (q.file.write (k * g.clusterSize) (newBlock g k)).byte x = q.file.byte x :=
    fun x elsewhere => append_agree elsewhere
  have block : (q.file.write (k * g.clusterSize) (newBlock g k)).read (k * g.clusterSize)
      g.clusterSize = newBlock g k := by
    have self := Store.read_write_self (f := q.file) (k * g.clusterSize) (newBlock g k)
    rwa [newBlock_length] at self
  generalize q.file.write (k * g.clusterSize) (newBlock g k) = f1 at first store agree block ⊢
  generalize f1.write (g.refcountTableOffset + k / g.blockEntries * 8)
    (beBytes 8 (k * g.clusterSize)) = f2 at store ⊢
  have l1First : l1At g f1 = l1At g q.file := congrArg Metadata.l1 first
  have tableFirst : refcountTableAt g f1 = refcountTableAt g q.file :=
    congrArg refcountTable first
  have l2First : l2At g f1 = l2At g q.file := congrArg Metadata.l2 first
  have valid1 : Valid g (metadataOf g f1) := by
    rw [first]
    exact inv.valid.grow (le_trans past (le_add_right _ _))
  have fresh1 : Fresh g (metadataOf g f1) k := by
    intro o owns
    rw [first] at owns
    exact fresh o (owns.of_tables rfl rfl rfl)
  have live : (Slot.table (k / g.blockEntries)).Live g (metadataOf g f1) := inside
  have second := store.table valid1 inside (by rw [tableFirst]; exact missing) rfl nonzero fresh1 block
  have l1 : l1At g f2 = l1At g q.file := (congrArg Metadata.l1 second).trans l1First
  have l2 : l2At g f2 = l2At g q.file := (congrArg Metadata.l2 second).trans l2First
  have table : refcountTableAt g f2 =
      Function.update (refcountTableAt g q.file) (k / g.blockEntries) (k * g.clusterSize) := by
    rw [← tableFirst]
    exact congrArg refcountTable second
  have valid2 : Valid g (metadataOf g f2) := by
    rw [second]
    refine valid1.publishBlock fresh1 inside rfl ?_ nonzero
    rw [first]
    exact ⟨mul_mod_left _ _, le_refl _⟩
  have cache : CacheOk g { q with file := f2 } := by
    apply inv.cache.with_file
    intro t used
    have other : t ≠ k / g.blockEntries := fun same => used (by rw [same]; exact missing)
    refine ⟨by rw [table, update_of_ne other], ?_⟩
    have hidden := block_agree agree inv.valid used fun o owns => absurd owns (fresh o)
    rw [← hidden, ← tableFirst]
    exact store.block_same valid1 live (by rw [tableFirst]; exact used) (by simp [Slot.owner])
  have loaded : Loaded g
      { q with
        file := f2
        replies := rest
        refcountTable := q.refcountTable.set (k / g.blockEntries) (k * g.clusterSize) } :=
    { inv.toLoaded with
      l1 := by rw [l1]; exact inv.l1
      refcountTable := by
        simp only [table, inv.refcountTable]
        exact map_range_update _ _
      cache := cache.of_eq rfl rfl rfl rfl }
  have cached : f2.read (k * g.clusterSize) g.clusterSize = newBlock g k := by
    rw [← block]
    exact store.unowned valid1 live fresh1
  have entry : refcountTableAt g f2 (k / g.blockEntries) = k * g.clusterSize := by
    rw [table, update_self]
  have ok := loaded.cache.insert loaded.clusterSize offset entry
  simp only [cached] at ok
  have only := cacheRefcountBlock_only (k * g.clusterSize) (newBlock g k)
    { q with
      file := f2
      replies := rest
      refcountTable := q.refcountTable.set (k / g.blockEntries) (k * g.clusterSize) }
  refine
    { keeps :=
        { inv :=
            { only.loaded loaded ok with
              valid := by rw [only.file]; exact valid2
              l2Cache := by rw [only.file, only.l2Cache, l1, l2]; exact inv.l2Cache }
          guest := ?_
          quiet := by rw [only.replies]; exact quiet }
      metadata := ?_ }
  · rw [only.file]
    have hidden := guestByte_agree inv.valid agree l2First
      (fun i j owns => absurd owns (fresh _))
    have again := store.guest valid1 live (congrArg Metadata.l2 second)
    rw [← hidden, ← again]
  · rw [only.file, second, first]

/-- What `appendRefcountBlock` does when one of its writes fails. -/
def undoAppend (size : Nat) (err : GoError) : Op Unit := do
  match ← attempt (fileTruncate size) with
  | .error truncateErr => disableWrites (.join err truncateErr)
  | .ok () => fail err

theorem appendRefcountBlock_spec :
    Wp (appendRefcountBlock (k * g.clusterSize) q.file.size) q (fun r q' =>
      match r with
      | .ok _ => Appended g q k q'
      | .error _ => q.replies ≠ [] ∧ (q'.writeFault ≠ none ∨ Heard q q')) := by
  unfold appendRefcountBlock
  simp only [wp_read_bind, inv.clusterSize, inv.blockEntries, inv.refcountTableOffset,
    g.mul_clusterSize_div]
  -- Cutting the file undoes whatever part of the new cluster was written.
  have cut : ∀ {data : Bytes} {q1 : Image} (err : GoError), q.replies ≠ [] →
      Heard { q with file := q.file.write (k * g.clusterSize) data } q1 →
      Wp (undoAppend q.file.size err) q1 (fun r q' =>
      match r with
      | .ok _ => Appended g q k q'
      | .error _ => q.replies ≠ [] ∧ (q'.writeFault ≠ none ∨ Heard q q')) := by
    intro data q1 err noisy heard
    refine (fileTruncate_spec _ q1).attempt ?_ ?_
    · rintro _ q2 truncated
      obtain ⟨rest, rfl, _⟩ := heard
      obtain ⟨rest', rfl, _⟩ := truncated
      refine ⟨noisy, .inr ⟨rest', ?_, fun silent => absurd silent noisy⟩⟩
      simp only [fail, Store.resize_write_beyond past]
    · rintro truncateErr q2 _
      exact ⟨noisy, .inl (by simp [disableWrites, Prog.update, Prog.fail, bind])⟩
  refine (writeMetadata_spec _ _ q).attempt ?_ ?_
  · rintro _ q1 ⟨rest, rfl, quiet⟩
    have first := append_metadata inv.valid past
    have size := append_size past
    have entry : slotWord g (metadataOf g q.file)
        (q.file.write (k * g.clusterSize) (newBlock g k)) (.table (k / g.blockEntries)) = 0 := by
      have same := congrFun (congrArg refcountTable first) (k / g.blockEntries)
      simp only [metadataOf, missing] at same
      rwa [refcountTableAt, if_pos inside] at same
    have stored := slotWord_stored (g := g) (metadataOf g q.file)
      (q.file.write (k * g.clusterSize) (newBlock g k)) (.table (k / g.blockEntries))
    rw [entry] at stored
    have fits : g.refcountTableOffset + k / g.blockEntries * 8 + 8 ≤
        (q.file.write (k * g.clusterSize) (newBlock g k)).size := by
      have room : _ ≤ q.file.size := Slot.in_file (s := .table (k / g.blockEntries)) inv.valid inside
      have grown := Store.size_le_write (f := q.file) (k * g.clusterSize) (newBlock g k)
      exact le_trans room grown
    refine (writeMetadataEntry_spec (k * g.clusterSize) fits stored).attempt ?_ ?_
    · rintro _ q2 ⟨rest', rfl, quiet'⟩
      exact inv.appended past nonzero inside missing small (fun silent => quiet' (quiet silent))
    · rintro err q2 ⟨noisy, outcome⟩
      have noisy : q.replies ≠ [] := fun silent => noisy (quiet silent)
      simp only [wp_read_bind]
      by_cases fault : q2.writeFault.isSome
      · simp only [fault, if_true, wp_fail]
        refine ⟨noisy, .inl ?_⟩
        intro none
        rw [none] at fault
        cases fault
      · simp only [fault]
        rcases outcome with broken | heard
        · cases known : q2.writeFault with
          | none => exact absurd known broken
          | some e => simp [known] at fault
        · exact cut err noisy (Heard.trans ⟨rest, rfl, quiet⟩ heard)
  · rintro err q1 ⟨noisy, n, heard⟩
    exact cut _ noisy heard

end

end Append

/-! ## The append loop -/

theorem Geometry.refcountEntries_low (g : Geometry) : 64 ≤ g.refcountEntries := by
  have nonempty := g.refcount_nonempty
  have low := g.clusterSize_low
  have bytes : 1 * g.clusterSize ≤ g.refcountTableClusters * g.clusterSize :=
    mul_le_mul_right _ nonempty
  rw [refcountEntries]
  omega

/-- What `validateAppendCapacity` checks before cluster `k` is appended. -/
structure Capacity (g : Geometry) (f : Store) (k : Nat) : Prop where
  inside : k / g.blockEntries < g.refcountEntries
  fits : k * g.clusterSize + g.clusterSize ≤ maxInt64
  next : refcountTableAt g f (k / g.blockEntries) = 0 →
    (k + 1) * g.clusterSize + g.clusterSize ≤ maxInt64 ∧
      ((k + 1) / g.blockEntries ≠ k / g.blockEntries →
        (k + 1) / g.blockEntries < g.refcountEntries ∧
          (refcountTableAt g f ((k + 1) / g.blockEntries) = 0 →
            (k + 2) * g.clusterSize + g.clusterSize ≤ maxInt64))

theorem Geometry.block_start (g : Geometry) (start : (k + 1) / g.blockEntries ≠ k / g.blockEntries) :
    (k + 2) / g.blockEntries = (k + 1) / g.blockEntries := by
  have low := g.blockEntries_low
  rw [Nat.succ_div] at start
  split at start
  next divides =>
    rw [Nat.succ_div, if_neg, add_zero]
    intro again
    have one : g.blockEntries ∣ 1 := (Nat.dvd_add_right divides).mp again
    have := le_of_dvd (by decide) one
    omega
  · exact absurd rfl start

theorem validateAppendCapacity_spec (loaded : Loaded g q) (aligned : BlocksAligned g q.file) (k : Nat) :
    match validateAppendCapacity q (k * g.clusterSize) with
    | .ok _ => Capacity g q.file k
    | .error err => CapacityError err := by
  have high := g.clusterSize_high
  have wide : maxInt64 = 2 ^ 63 - 1 := by decide
  obtain ⟨fuel, length⟩ : ∃ fuel, q.refcountTable.length + 1 = fuel + 2 := by
    have low := g.refcountEntries_low
    refine ⟨g.refcountEntries - 1, ?_⟩
    rw [loaded.refcountTable, length_map, length_range]
    omega
  have next : k * g.clusterSize + g.clusterSize = (k + 1) * g.clusterSize := by
    rw [add_mul, one_mul]
  have after : (k + 1) * g.clusterSize + g.clusterSize = (k + 2) * g.clusterSize := by
    rw [← next, add_mul]
    omega
  rw [validateAppendCapacity, length, validateAppendCapacityFrom, refcountLocation_eq loaded aligned k]
  simp only [loaded.clusterSize, loaded.blockEntries, next, g.mul_clusterSize_div]
  by_cases large : k * g.clusterSize > maxInt64 - g.clusterSize
  · simp only [large, if_true]
    exact .inr rfl
  simp only [large, if_false]
  by_cases inside : k / g.blockEntries < g.refcountEntries
  · simp only [inside, if_true]
    by_cases used : refcountTableAt g q.file (k / g.blockEntries) = 0
    · simp only [used, ne_eq, not_true, decide_false]
      by_cases large' : k * g.clusterSize > maxInt64 - 2 * g.clusterSize
      · simp only [large', if_true]
        exact .inr rfl
      simp only [large', if_false]
      by_cases same : (k + 1) / g.blockEntries = k / g.blockEntries
      · simp only [same, if_true]
        exact ⟨inside, by omega, fun _ => ⟨by omega, fun other => absurd same other⟩⟩
      · simp only [same, if_false]
        rw [validateAppendCapacityFrom, refcountLocation_eq loaded aligned (k + 1)]
        simp only [loaded.clusterSize, loaded.blockEntries, after, g.mul_clusterSize_div]
        by_cases large2 : (k + 1) * g.clusterSize > maxInt64 - g.clusterSize
        · simp only [large2, if_true]
          exact .inr rfl
        simp only [large2, if_false]
        by_cases inside2 : (k + 1) / g.blockEntries < g.refcountEntries
        · simp only [inside2, if_true]
          by_cases used2 : refcountTableAt g q.file ((k + 1) / g.blockEntries) = 0
          · simp only [used2, ne_eq, not_true, decide_false]
            by_cases large3 : (k + 1) * g.clusterSize > maxInt64 - 2 * g.clusterSize
            · simp only [large3, if_true]
              exact .inr rfl
            simp only [large3, if_false, g.block_start same, if_true]
            exact ⟨inside, by omega, fun _ => ⟨by omega, fun _ => ⟨inside2, fun _ => by omega⟩⟩⟩
          · simp only [used2, ne_eq, not_false_eq_true, decide_true]
            exact ⟨inside, by omega,
              fun _ => ⟨by omega, fun _ => ⟨inside2, fun zero => absurd zero used2⟩⟩⟩
        · simp only [inside2, if_false]
          exact .inl rfl
    · simp only [used, ne_eq, not_false_eq_true, decide_true]
      exact ⟨inside, by omega, fun zero => absurd zero used⟩
  · simp only [inside, if_false]
    exact .inl rfl

/-- Cluster `k` ends the file, its refcount block exists, and `n` clusters fit. -/
structure Ready (g : Geometry) (q : Image) (n : Nat) (q' : Image) (k : Nat) : Prop where
  keeps : Keeps g q q'
  l1 : l1At g q'.file = l1At g q.file
  l2 : l2At g q'.file = l2At g q.file
  last : (metadataOf g q'.file).nextCluster g = k
  inside : k / g.blockEntries < g.refcountEntries
  used : refcountTableAt g q'.file (k / g.blockEntries) ≠ 0
  budget : Budget g (metadataOf g q'.file) n

theorem Inv.nextCluster_ne_zero (inv : Inv g q) : (metadataOf g q.file).nextCluster g ≠ 0 := by
  have header : g.clusterSize ≤ q.file.size := inv.valid.headerFits
  have reach := g.le_clustersFor q.file.size
  have positive := g.clusterSize_pos
  intro zero
  simp only [nextCluster, metadataOf] at zero
  rw [zero] at reach
  omega

theorem nextCluster_past (q : Image) :
    q.file.size ≤ (metadataOf g q.file).nextCluster g * g.clusterSize :=
  g.le_clustersFor q.file.size

section Loop

variable {Q : Except GoError (Nat × Nat) → Image → Prop} {k fuel : Nat}

theorem appendRefcountBlocks_found (inv : Inv g q) (old : Nat)
    (inside : k / g.blockEntries < g.refcountEntries)
    (used : refcountTableAt g q.file (k / g.blockEntries) ≠ 0)
    (post : Q (.ok (k * g.clusterSize, old)) q) :
    Wp (appendRefcountBlocks (fuel + 1) (k * g.clusterSize) old) q Q := by
  have location := refcountLocation_eq inv.toLoaded inv.blocksAligned k
  rw [if_pos inside] at location
  simpa only [appendRefcountBlocks, wp_query_bind, location, used, ne_eq, not_false_eq_true,
    decide_true, if_true, wp_pure] using post

/-- A pass of the loop appends the missing block and goes on behind it. -/
theorem appendRefcountBlocks_append (inv : Inv g q) (last : (metadataOf g q.file).nextCluster g = k)
    (inside : k / g.blockEntries < g.refcountEntries)
    (missing : refcountTableAt g q.file (k / g.blockEntries) = 0)
    (fits : k * g.clusterSize + g.clusterSize ≤ maxInt64)
    (success : ∀ q', Appended g q k q' →
      Wp (appendRefcountBlocks fuel ((k + 1) * g.clusterSize) q'.file.size) q' Q)
    (failure : ∀ err q', q.replies ≠ [] → Failed g q err q' → Q (.error err) q') :
    Wp (appendRefcountBlocks (fuel + 1) (k * g.clusterSize) q.file.size) q Q := by
  have location := refcountLocation_eq inv.toLoaded inv.blocksAligned k
  rw [if_pos inside] at location
  have wide : maxInt64 = 2 ^ 63 - 1 := by decide
  have past : q.file.size ≤ k * g.clusterSize := last ▸ nextCluster_past q
  simp only [appendRefcountBlocks, wp_query_bind, location, missing, ne_eq, not_true, decide_false,
    Bool.false_eq_true, if_false]
  refine (appendRefcountBlock_spec inv past (last ▸ inv.nextCluster_ne_zero) inside missing
    (by omega)).bind ?_ ?_
  · rintro _ q' appended
    have size : q'.file.size = k * g.clusterSize + g.clusterSize :=
      congrArg fileSize appended.metadata
    have next : (k + 1) * g.clusterSize = k * g.clusterSize + g.clusterSize := by
      rw [add_mul, one_mul]
    have rest := success q' appended
    rw [size, next] at rest
    simpa only [wp_read_bind, appended.keeps.inv.clusterSize] using rest
  · rintro err q' ⟨noisy, fault | heard⟩
    · exact failure err q' noisy (.inl ⟨noisy, fault⟩)
    · exact failure err q' noisy ((heard.keeps inv).noisy noisy)

end Loop

section

variable (appended : Appended g q k q')
include appended

theorem Appended.next (last : (metadataOf g q.file).nextCluster g = k) (nonzero : k ≠ 0)
    (missing : refcountTableAt g q.file (k / g.blockEntries) = 0)
    (budget : Budget g (metadataOf g q.file) n) :
    (metadataOf g q'.file).nextCluster g = k + 1 ∧ Budget g (metadataOf g q'.file) n := by
  constructor
  · rw [nextCluster, appended.metadata]
    exact g.clustersFor_next k
  · refine budget.block last missing nonzero ?_ ?_
    · rw [appended.metadata]
    · rw [appended.metadata]

theorem Appended.table :
    refcountTableAt g q'.file =
      Function.update (refcountTableAt g q.file) (k / g.blockEntries) (k * g.clusterSize) :=
  congrArg refcountTable appended.metadata

theorem Appended.l1 : l1At g q'.file = l1At g q.file :=
  congrArg Metadata.l1 appended.metadata

theorem Appended.l2 : l2At g q'.file = l2At g q.file :=
  congrArg Metadata.l2 appended.metadata

theorem Appended.refcounts :
    refcountAt g q'.file = Function.update (refcountAt g q.file) k 1 :=
  congrArg Metadata.refcounts appended.metadata

end

/-- The blocks appended before cluster `k` count themselves, and cluster `k` fits. -/
structure Grown (g : Geometry) (q q' : Image) (k : Nat) : Prop where
  fits : k * g.clusterSize + g.clusterSize ≤ maxInt64
  blocks : ∀ t, refcountTableAt g q'.file t ≠ refcountTableAt g q.file t →
    ∃ c < k, refcountTableAt g q'.file t = c * g.clusterSize ∧ c / g.blockEntries = t ∧
      refcountAt g q'.file c = 1

theorem Grown.append {q'' : Image} (grown : Grown g q q' k) (appended : Appended g q' k q'')
    (fits : (k + 1) * g.clusterSize + g.clusterSize ≤ maxInt64) : Grown g q q'' (k + 1) where
  fits := fits
  blocks := by
    intro t changed
    rw [appended.table, appended.refcounts] at *
    by_cases here : t = k / g.blockEntries
    · subst here
      exact ⟨k, by omega, update_self .., rfl, update_self ..⟩
    · rw [update_of_ne here] at changed ⊢
      obtain ⟨c, below, place, covered, counted⟩ := grown.blocks t changed
      exact ⟨c, by omega, place, covered, by rw [update_of_ne (by omega)]; exact counted⟩

theorem appendRefcountBlocks_spec (inv : Inv g q) (last : (metadataOf g q.file).nextCluster g = k)
    (capacity : Capacity g q.file k) (budget : Budget g (metadataOf g q.file) n) :
    Wp (appendRefcountBlocks (q.refcountTable.length + 1) (k * g.clusterSize) q.file.size) q
      (fun r q' =>
        match r with
        | .ok result => ∃ k', result = (k' * g.clusterSize, q'.file.size) ∧ Ready g q n q' k' ∧
            Grown g q q' k'
        | .error err => q.replies ≠ [] ∧ Failed g q err q') := by
  have start : Grown g q q k := ⟨capacity.fits, fun _ changed => absurd rfl changed⟩
  obtain ⟨fuel, length⟩ : ∃ fuel, q.refcountTable.length + 1 = fuel + 3 := by
    have low := g.refcountEntries_low
    refine ⟨g.refcountEntries - 2, ?_⟩
    rw [inv.refcountTable, length_map, length_range]
    omega
  rw [length]
  have nonzero : k ≠ 0 := last ▸ inv.nextCluster_ne_zero
  have positive := g.clusterSize_pos
  by_cases missing : refcountTableAt g q.file (k / g.blockEntries) = 0
  · obtain ⟨fits, beyond⟩ := capacity.next missing
    refine appendRefcountBlocks_append inv last capacity.inside missing capacity.fits ?_
      (fun _ _ noisy failed => ⟨noisy, failed⟩)
    intro q1 first
    have grown := start.append first fits
    obtain ⟨last1, budget1⟩ := first.next last nonzero missing budget
    have offset : k * g.clusterSize ≠ 0 := mul_ne_zero nonzero (ne_of_gt positive)
    by_cases same : (k + 1) / g.blockEntries = k / g.blockEntries
    · have used : refcountTableAt g q1.file ((k + 1) / g.blockEntries) ≠ 0 := by
        rw [first.table, same, update_self]
        exact offset
      have inside := capacity.inside
      rw [← same] at inside
      refine appendRefcountBlocks_found first.keeps.inv _ inside used ⟨k + 1, rfl, ?_, grown⟩
      exact ⟨first.keeps, first.l1, first.l2, last1, inside, used, budget1⟩
    · obtain ⟨inside1, fits2⟩ := beyond same
      have table1 : refcountTableAt g q1.file ((k + 1) / g.blockEntries) =
          refcountTableAt g q.file ((k + 1) / g.blockEntries) := by
        rw [first.table, update_of_ne same]
      by_cases missing1 : refcountTableAt g q1.file ((k + 1) / g.blockEntries) = 0
      · refine appendRefcountBlocks_append first.keeps.inv last1 inside1 missing1 fits ?_
          (fun _ _ noisy failed =>
            ⟨fun silent => noisy (first.keeps.quiet silent), first.keeps.failed failed⟩)
        intro q2 second
        obtain ⟨last2, budget2⟩ := second.next last1 (succ_ne_zero k) missing1 budget1
        have used : refcountTableAt g q2.file ((k + 1 + 1) / g.blockEntries) ≠ 0 := by
          rw [second.table, g.block_start same, update_self]
          exact mul_ne_zero (succ_ne_zero k) (ne_of_gt positive)
        have inside2 := inside1
        rw [← g.block_start same] at inside2
        refine appendRefcountBlocks_found second.keeps.inv _ inside2 used ⟨k + 2, rfl, ?_, ?_⟩
        · exact ⟨first.keeps.trans second.keeps, second.l1.trans first.l1,
            second.l2.trans first.l2, last2, inside2, used, budget2⟩
        · exact grown.append second (fits2 (table1 ▸ missing1))
      · refine appendRefcountBlocks_found first.keeps.inv _ inside1 missing1 ⟨k + 1, rfl, ?_, grown⟩
        exact ⟨first.keeps, first.l1, first.l2, last1, inside1, missing1, budget1⟩
  · refine appendRefcountBlocks_found inv _ capacity.inside missing ⟨k, rfl, ?_, start⟩
    exact ⟨Keeps.refl inv, rfl, rfl, last, capacity.inside, missing, budget⟩

/-! ## New clusters -/

/-- Cluster `k` ends the file and waits for its owner: zeroed, counted once, below the limit of
    table entries. -/
structure Unpublished (g : Geometry) (f : Store) (k : Nat) : Prop where
  nonzero : k ≠ 0
  below : k * g.clusterSize < 2 ^ 56
  fresh : Fresh g (metadataOf g f) k
  used : refcountTableAt g f (k / g.blockEntries) ≠ 0
  one : refcountAt g f k = 1
  size : f.size = k * g.clusterSize + g.clusterSize
  zeroed : ∀ x, x / g.clusterSize = k → f.byte x = 0

/-- Cluster `k` was appended and `n` more fit. -/
structure Allocated (g : Geometry) (q : Image) (n : Nat) (q' : Image) (k : Nat) : Prop where
  keeps : Keeps g q q'
  l1 : l1At g q'.file = l1At g q.file
  l2 : l2At g q'.file = l2At g q.file
  new : Unpublished g q'.file k
  budget : Budget g (metadataOf g q'.file) n

theorem Counted.cut {old : Nat} (counted : Counted g q k v q')
    (valid : Valid g { metadataOf g q.file with fileSize := old })
    (fresh : Fresh g { metadataOf g q.file with fileSize := old } k)
    (used : refcountTableAt g q.file (k / g.blockEntries) ≠ 0) :
    Keeps g q { q' with file := q'.file.resize old } := by
  refine counted.keeps.trans (counted.keeps.inv.resize ?_)
  have set := valid.setRefcount fresh used v
  rw [counted.metadata]
  exact set

theorem Counted.again {w : Nat} {q'' : Image} (first : Counted g q k v q') (second : Counted g q' k w q'') : Counted g q k w q'' where
  keeps := first.keeps.trans second.keeps
  metadata := by
    rw [second.metadata, first.metadata]
    simp only [update_idem]
  fresh := by
    intro x unowned
    rw [second.fresh x, first.fresh x unowned]
    intro o owns
    rw [first.metadata] at owns
    exact unowned o (owns.of_tables rfl rfl rfl)

theorem Counted.still_fresh {c : Nat} (counted : Counted g q k v q') (fresh : Fresh g (metadataOf g q.file) c) : Fresh g (metadataOf g q'.file) c := by
  intro o owns
  rw [counted.metadata] at owns
  exact fresh o (owns.of_tables rfl rfl rfl)

theorem Counted.table (counted : Counted g q k v q') :
    refcountTableAt g q'.file = refcountTableAt g q.file :=
  congrArg refcountTable counted.metadata

/-- Undoing the refcount of an unused cluster and cutting it off. -/
theorem reclaimCluster_spec {α : Type} {old : Nat} {q0 : Image} (err : GoError) (noisy : q0.replies ≠ [])
    (base : Keeps g q0 q) (counted : Counted g q k v q')
    (valid : Valid g { metadataOf g q.file with fileSize := old }) (fresh : Fresh g (metadataOf g q.file) k)
    (used : refcountTableAt g q.file (k / g.blockEntries) ≠ 0) :
    Wp (reclaimCluster (α := α) (k * g.clusterSize) old err) q' (fun r q'' =>
      match r with
      | .ok _ => False
      | .error e => Failed g q0 e q'') := by
  have broken : ∀ (err : GoError) (q1 : Image),
      Wp (disableWrites (α := α) err) q1 (fun r q'' =>
        match r with
        | .ok _ => False
        | .error e => Failed g q0 e q'') := by
    intro err q1
    refine (disableWrites_spec err q1).mono ?_
    intro r q2 post
    cases r with
    | ok a => exact post
    | error e => exact .inl ⟨noisy, post⟩
  have used' : refcountTableAt g q'.file (k / g.blockEntries) ≠ 0 := by rwa [counted.table]
  refine (setRefcount_spec counted.keeps.inv used' (counted.still_fresh fresh) (by decide)).attempt
    ?_ ?_
  · rintro _ q1 restored
    refine (fileTruncate_spec _ q1).attempt ?_ ?_
    · rintro _ q2 truncated
      have cut := (counted.again restored).cut valid
        (fun o owns => fresh o (owns.of_tables rfl rfl rfl)) used
      exact ((base.trans cut).trans (truncated.keeps cut.inv)).noisy noisy
    · rintro truncateErr q2 _
      exact broken _ q2
  · rintro restoreErr q1 _
    exact broken _ q1

theorem Ready.past (ready : Ready g q n q' k) : q'.file.size ≤ k * g.clusterSize :=
  ready.last ▸ nextCluster_past q'

/-- The state after the file was extended by the cluster asked for. -/
theorem Ready.extend {q1 : Image} (ready : Ready g q n q' k)
    (heard : Heard { q' with file := q'.file.resize (k * g.clusterSize + g.clusterSize) } q1) :
    Keeps g q' q1 ∧ Fresh g (metadataOf g q1.file) k ∧
      metadataOf g q1.file = { metadataOf g q'.file with fileSize := k * g.clusterSize + g.clusterSize } := by
  have valid := ready.keeps.inv.valid.grow
    (show (metadataOf g q'.file).fileSize ≤ k * g.clusterSize + g.clusterSize from
      le_trans ready.past (le_add_right _ _))
  have extended := ready.keeps.inv.resize valid
  have file : q1.file = q'.file.resize (k * g.clusterSize + g.clusterSize) := heard.file
  rw [file, metadataOf_resize valid]
  refine ⟨extended.trans (heard.keeps extended.inv), ?_, rfl⟩
  intro o owns
  exact ready.keeps.inv.valid.fresh_beyond ready.past o (owns.of_tables rfl rfl rfl)

/-- The file was extended by cluster `k`, zeroed and counted once. -/
structure Extended (g : Geometry) (q : Image) (k : Nat) (q' : Image) : Prop where
  keeps : Keeps g q q'
  metadata : metadataOf g q'.file =
    { metadataOf g q.file with
      fileSize := k * g.clusterSize + g.clusterSize
      refcounts := Function.update (metadataOf g q.file).refcounts k 1 }
  fresh : Fresh g (metadataOf g q'.file) k
  zeroed : ∀ x, x / g.clusterSize = k → q'.file.byte x = 0

theorem Ready.extended {q1 q2 : Image} (ready : Ready g q n q' k)
    (heard : Heard { q' with file := q'.file.resize (k * g.clusterSize + g.clusterSize) } q1)
    (counted : Counted g q1 k 1 q2) : Extended g q' k q2 := by
  obtain ⟨kept, fresh, metadata⟩ := ready.extend heard
  exact
    { keeps := kept.trans counted.keeps
      metadata := by rw [counted.metadata, metadata]
      fresh := counted.still_fresh fresh
      zeroed := by
        intro x here
        rw [counted.fresh x (here ▸ fresh), heard.file,
          Store.byte_resize_grow (le_trans ready.past (le_add_right _ _))]
        have low := div_mul_le_self x g.clusterSize
        rw [here] at low
        exact q'.file.beyond x (le_trans ready.past low) }

theorem Extended.one (extended : Extended g q k q') : refcountAt g q'.file k = 1 :=
  (congrFun (congrArg Metadata.refcounts extended.metadata) k).trans (update_self _ _ _)

theorem Extended.table (extended : Extended g q k q') :
    refcountTableAt g q'.file = refcountTableAt g q.file :=
  congrArg refcountTable extended.metadata

theorem Ready.allocated {q2 : Image} (ready : Ready g q (n + 1) q' k)
    (extended : Extended g q' k q2) : Allocated g q n q2 k := by
  have all := extended.metadata
  obtain ⟨below, budget⟩ := ready.budget.cluster (metadataOf g q2.file) ready.last
    ready.inside ready.used (by rw [all]) (by rw [all])
  exact
    { keeps := ready.keeps.trans extended.keeps
      l1 := (congrArg Metadata.l1 all).trans ready.l1
      l2 := (congrArg Metadata.l2 all).trans ready.l2
      new :=
        { extended with
          nonzero := ready.last ▸ ready.keeps.inv.nextCluster_ne_zero
          below
          used := by rw [extended.table]; exact ready.used
          one := extended.one
          size := congrArg fileSize all }
      budget }

/-- The file is extended and the new cluster counted, or both are undone. -/
theorem extendFile_spec (ready : Ready g q n q' k) :
    Wp (extendFile (k * g.clusterSize) q'.file.size) q' (fun r q'' =>
      match r with
      | .ok off => off = k * g.clusterSize ∧ Extended g q' k q''
      | .error err => q'.replies ≠ [] ∧ Failed g q err q'') := by
  simp only [extendFile, wp_read_bind, ready.keeps.inv.clusterSize]
  refine (fileTruncate_spec _ q').bind ?_ ?_
  · rintro _ q1 grown
    obtain ⟨kept, fresh, metadata⟩ := ready.extend grown
    have used : refcountTableAt g q1.file (k / g.blockEntries) ≠ 0 := by
      rw [show refcountTableAt g q1.file = refcountTableAt g q'.file from
        congrArg refcountTable metadata]
      exact ready.used
    refine (setRefcount_spec kept.inv used fresh (by decide)).attempt ?_ ?_
    · rintro _ q2 counted
      exact ⟨rfl, ready.extended grown counted⟩
    · rintro err q2 ⟨noisy, v, counted⟩
      have before := ready.keeps.trans kept
      have valid : Valid g { metadataOf g q1.file with fileSize := q'.file.size } := by
        rw [metadata]
        exact ready.keeps.inv.valid
      refine (reclaimCluster_spec err (fun silent => noisy (before.quiet silent)) before counted valid
        fresh used).mono ?_
      intro r q3 post
      cases r with
      | ok a => exact post.elim
      | error e => exact ⟨fun silent => noisy (kept.quiet silent), post⟩
  · rintro err q1 ⟨noisy, still⟩
    exact ⟨noisy, ready.keeps.failed ((still.keeps ready.keeps.inv).noisy noisy)⟩

theorem allocateCluster_spec (inv : Inv g q) (budget : Budget g (metadataOf g q.file) (n + 1)) :
    Wp allocateCluster q (fun r q' =>
      match r with
      | .ok off => ∃ k, off = k * g.clusterSize ∧ Allocated g q n q' k
      | .error err => Failed g q err q') := by
  refine (fileStat_spec q).bind ?_ ?_
  · rintro size q1 ⟨heard, stat⟩
    have kept := heard.keeps inv
    have stat : size = q1.file.size := by rw [heard.file]; exact stat
    subst stat
    simp only [wp_read_bind, kept.inv.clusterSize, g.alignUp_eq, wp_query_bind]
    have checked := validateAppendCapacity_spec kept.inv.toLoaded kept.inv.blocksAligned
      (g.clustersFor q1.file.size)
    cases result : validateAppendCapacity q1 (g.clustersFor q1.file.size * g.clusterSize) with
    | error err =>
      rw [result] at checked
      exact .inr ⟨kept, fun _ => checked⟩
    | ok _ =>
      rw [result] at checked
      have enough : Budget g (metadataOf g q1.file) (n + 1) := by rw [heard.file]; exact budget
      refine (appendRefcountBlocks_spec kept.inv rfl checked enough).bind ?_ ?_
      · rintro _ q2 ⟨k, rfl, ready, _⟩
        refine (extendFile_spec ready).mono ?_
        intro r q3 post
        cases r with
        | ok off =>
          obtain ⟨place, extended⟩ := post
          have new := ready.allocated extended
          exact ⟨k, place,
            { new with
              keeps := kept.trans new.keeps
              l1 := new.l1.trans (congrArg (l1At g) heard.file)
              l2 := new.l2.trans (congrArg (l2At g) heard.file) }⟩
        | error err => exact kept.failed post.2
      · rintro err q2 ⟨_, failed⟩
        exact kept.failed failed
  · rintro err q1 ⟨heard, noisy⟩
    exact (heard.keeps inv).noisy noisy

/-- Giving back an unpublished cluster: its pointer is as before, or writes are disabled already. -/
theorem rollbackNewCluster_spec {α : Type} {q0 : Image} (err : GoError) (noisy : q0.replies ≠ [])
    (base : Keeps g q0 q) (new : Unpublished g q.file k) (outcome : q'.writeFault ≠ none ∨ Read g q q') :
    Wp (rollbackNewCluster (α := α) (k * g.clusterSize) err) q' (fun r q'' =>
      match r with
      | .ok _ => False
      | .error e => Failed g q0 e q'') := by
  simp only [rollbackNewCluster, wp_read_bind]
  rcases outcome with fault | read
  · rw [if_pos (Option.isSome_iff_ne_none.mpr fault)]
    exact .inl ⟨noisy, fault⟩
  · have inv := read.keeps.inv
    have same : Counted g q' k (refcountAt g q'.file k) q' :=
      { keeps := Keeps.refl inv
        metadata := by
          rw [show refcountAt g q'.file = (metadataOf g q'.file).refcounts from rfl,
            update_eq_self]
        fresh := fun _ _ => rfl }
    rw [← read.file] at new
    simp only [inv.healthy, Option.isSome_none, Bool.false_eq_true, if_false]
    exact reclaimCluster_spec err noisy (base.trans read.keeps) same
      (inv.valid.shrink new.fresh new.size) new.fresh new.used

end Gokvm.Disk
