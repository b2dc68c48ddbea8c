import Gokvm.Disk.HostSpec

/-! # Refcounts of an open image

The refcount cache serves what the refcount blocks of the file say, and storing a
refcount keeps cache and file together, also when the write fails.
-/

namespace Gokvm.Disk

open Lib List Function Nat
open Prog

variable {g : Geometry} {q q' : Image}

theorem Loaded.table_item (loaded : Loaded g q) (t : Nat) :
    q.refcountTable[t]? =
      if t < g.refcountEntries then some (refcountTableAt g q.file t) else none := by
  rw [loaded.refcountTable]
  split <;> simp_all

theorem Loaded.l1_item (loaded : Loaded g q) (i : Nat) :
    q.l1[i]? = if i < g.l1Size then some (l1At g q.file i) else none := by
  rw [loaded.l1]
  split <;> simp_all

variable {f : Store} {t index off k v : Nat}

theorem refcountTableAt_outside (outside : g.refcountEntries ≤ t) :
    refcountTableAt g f t = 0 :=
  if_neg (by omega)

theorem refcountTableAt_inside (used : refcountTableAt g f t ≠ 0) :
    t < g.refcountEntries := by
  by_contra outside
  exact used (refcountTableAt_outside (by omega))

theorem refcountTableAt_lt (t : Nat) : refcountTableAt g f t < 2 ^ 64 := by
  rw [refcountTableAt]
  split
  · have bound := beNat_lt (f.read (g.refcountTableOffset + t * 8) 8)
    rw [Store.read_length] at bound
    exact bound
  · decide

def BlocksAligned (g : Geometry) (f : Store) : Prop :=
  ∀ t, refcountTableAt g f t % g.clusterSize = 0

theorem Inv.blocksAligned (inv : Inv g q) : BlocksAligned g q.file := by
  intro t
  by_cases used : refcountTableAt g q.file t = 0
  · rw [used, zero_mod]
  · exact (inv.valid.block t used).2.1

theorem refcountLocation_eq (loaded : Loaded g q) (aligned : BlocksAligned g q.file) (c : Nat) :
    refcountLocation q (c * g.clusterSize) =
      if c / g.blockEntries < g.refcountEntries then
        .ok (refcountTableAt g q.file (c / g.blockEntries), c % g.blockEntries,
          decide (refcountTableAt g q.file (c / g.blockEntries) ≠ 0))
      else .error (.new "qcow2: refcount table is too small") := by
  have place := aligned (c / g.blockEntries)
  have word := refcountTableAt_lt (g := g) (f := q.file) (c / g.blockEntries)
  simp only [refcountLocation, loaded.clusterSize, loaded.blockEntries, mul_mod_left,
    g.mul_clusterSize_div, loaded.table_item]
  by_cases inside : c / g.blockEntries < g.refcountEntries
  · by_cases zero : refcountTableAt g q.file (c / g.blockEntries) = 0
    · simp [inside, zero]
    · simp [inside, zero, refcountOffset_eq word (g.aligned_512 place), place]
  · simp [inside]

theorem blockRefcount_eq {c : Nat} (used : refcountTableAt g f (c / g.blockEntries) ≠ 0) :
    blockRefcount (f.read (refcountTableAt g f (c / g.blockEntries)) g.clusterSize)
      (c % g.blockEntries) = refcountAt g f c := by
  rw [blockRefcount, Store.part_read (g.count_inside c), refcountAt, if_pos used]

/-! ## The cache -/

/-- The refcount cache, alone, may be different. -/
def CacheOnly (q q' : Image) : Prop :=
  ∃ cache blocks next, q' =
    { q with refcountCache := cache, refcountBlocks := blocks, refcountCacheNext := next }

theorem cacheRefcountBlock_only (offset : Nat) (block : Bytes) (q : Image) :
    CacheOnly q (cacheRefcountBlock offset block q) := by
  unfold cacheRefcountBlock
  split
  · exact ⟨_, _, _, rfl⟩
  · dsimp only
    split <;> exact ⟨_, _, _, rfl⟩

theorem invalidateRefcountBlock_only (offset : Nat) (q : Image) :
    CacheOnly q (invalidateRefcountBlock offset q) := by
  unfold invalidateRefcountBlock
  split <;> exact ⟨_, _, _, rfl⟩

theorem CacheOnly.file (only : CacheOnly q q') : q'.file = q.file := by
  obtain ⟨_, _, _, rfl⟩ := only
  rfl

theorem CacheOnly.replies (only : CacheOnly q q') : q'.replies = q.replies := by
  obtain ⟨_, _, _, rfl⟩ := only
  rfl

theorem CacheOnly.l2Cache (only : CacheOnly q q') : q'.l2Cache = q.l2Cache := by
  obtain ⟨_, _, _, rfl⟩ := only
  rfl

theorem CacheOnly.loaded (only : CacheOnly q q') (loaded : Loaded g q) (ok : CacheOk g q') :
    Loaded g q' := by
  obtain ⟨_, _, _, rfl⟩ := only
  exact loaded.change rfl rfl ok

section

variable (ok : CacheOk g q)
include ok

theorem CacheOk.inj {off' i : Nat} (left : q.refcountCache off = some i)
    (right : q.refcountCache off' = some i) : off = off' := by
  have same := (ok.hit off i left).1.symm.trans (ok.hit off' i right).1
  simp only [Option.some.injEq, RefcountBlock.mk.injEq] at same
  exact same.1

theorem CacheOk.evict_iff {i : Nat} :
    evictRefcountBlock q index off = some i ↔ q.refcountCache off = some i ∧ i ≠ index := by
  have kept (other : ∀ data, q.refcountBlocks[index]? ≠ some ⟨off, some data⟩) :
      q.refcountCache off = some i ↔ q.refcountCache off = some i ∧ i ≠ index := by
    rw [iff_self_and]
    rintro found rfl
    exact other _ (ok.hit off _ found).1
  unfold evictRefcountBlock
  rcases block : q.refcountBlocks[index]? with _ | ⟨old, _ | data⟩
  · exact kept (by simp [block])
  · exact kept (by simp [block])
  · have own := ok.indexed index old data block
    by_cases same : off = old
    · simp only [same, update_self, own, reduceCtorEq, Option.some.injEq, false_iff, not_and, not_not]
      exact Eq.symm
    · simp only [update_of_ne same]
      exact kept (by simp [block, Ne.symm same])

theorem CacheOk.place (nonzero : off ≠ 0) (entry : refcountTableAt g q.file t = off)
    (absent : q.refcountCache off = none) {n next : Nat} {cache : Nat → Option Nat}
    {blocks : List RefcountBlock} (limit : blocks.length ≤ g.cacheLimit)
    (bound : next < g.cacheLimit)
    (here : blocks[n]? = some ⟨off, some (q.file.read off g.clusterSize)⟩)
    (others : ∀ i, i ≠ n → blocks[i]? = q.refcountBlocks[i]?)
    (kept : ∀ off' i, cache off' = some i ↔ q.refcountCache off' = some i ∧ i ≠ n) :
    CacheOk g { q with
      refcountCache := update cache off (some n), refcountBlocks := blocks, refcountCacheNext := next } where
  limit := limit
  next := bound
  hit off' i found := by
    by_cases same : off' = off
    · subst same
      simp only [update_self, Option.some.injEq] at found
      subst found
      exact ⟨here, nonzero, t, entry⟩
    · simp only [update_of_ne same, kept] at found
      rw [others i found.2]
      exact ok.hit off' i found.1
  indexed i off' data block := by
    by_cases last : i = n
    · subst last
      simp only [here, Option.some.injEq, RefcountBlock.mk.injEq] at block
      rw [← block.1]
      exact update_self _ _ _
    · rw [others i last] at block
      have found := ok.indexed i off' data block
      have other : off' ≠ off := by
        rintro rfl
        rw [absent] at found
        cases found
      simpa only [update_of_ne other, kept] using ⟨found, last⟩

theorem CacheOk.insert (size : q.clusterSize = g.clusterSize) (nonzero : off ≠ 0)
    (entry : refcountTableAt g q.file t = off) :
    CacheOk g (cacheRefcountBlock off (q.file.read off g.clusterSize) q) := by
  unfold cacheRefcountBlock
  split
  next index found =>
    -- The block is cached already, with the same bytes.
    have block := (ok.hit off index found).1
    have same : q.refcountBlocks.modify index
        (fun old => { old with data := some (q.file.read off g.clusterSize) }) =
        q.refcountBlocks := by
      apply ext_getElem?
      intro i
      rw [getElem?_modify]
      split
      next here =>
        rw [← here, block]
        rfl
      · cases q.refcountBlocks[i]? <;> rfl
    exact ok.of_eq rfl rfl same rfl
  next absent =>
    dsimp only
    rw [show qcow2RefcountCacheBytes / q.clusterSize = g.cacheLimit by rw [size]; rfl]
    split
    next room =>
      refine ok.place nonzero entry absent (by rw [length_append]; exact room) ok.next (by simp) ?_ ?_
      · intro i other
        rw [getElem?_append]
        split
        · rfl
        · rw [getElem?_eq_none (by simp; omega), getElem?_eq_none (by omega)]
      · intro off' i
        rw [iff_self_and]
        intro found
        exact Nat.ne_of_lt (List.getElem?_eq_some_iff.mp (ok.hit off' i found).1).1
    next full =>
      have length : q.refcountBlocks.length = g.cacheLimit := by
        have := ok.limit
        omega
      have inside : q.refcountCacheNext < q.refcountBlocks.length := length ▸ ok.next
      exact ok.place nonzero entry absent (by rw [length_set]; exact ok.limit)
        (mod_lt _ g.cacheLimit_pos) (getElem?_set_self inside)
        (fun i other => getElem?_set_ne (Ne.symm other)) (fun _ _ => ok.evict_iff)

variable (table : refcountTableAt g f = refcountTableAt g q.file)
  (others : ∀ t, refcountTableAt g q.file t ≠ 0 → refcountTableAt g q.file t ≠ off →
    f.read (refcountTableAt g q.file t) g.clusterSize =
      q.file.read (refcountTableAt g q.file t) g.clusterSize)
include table others

/-- Forgetting a block makes room for changes of its bytes in the file. -/
theorem CacheOk.invalidate :
    CacheOk g (invalidateRefcountBlock off { q with file := f }) := by
  have hit : ∀ off' i, off' ≠ off → q.refcountCache off' = some i →
      q.refcountBlocks[i]? = some ⟨off', some (f.read off' g.clusterSize)⟩ ∧
        off' ≠ 0 ∧ ∃ t, refcountTableAt g f t = off' := by
    intro off' i other found
    obtain ⟨block, nonzero, t, entry⟩ := ok.hit off' i found
    have same := others t (by rwa [entry]) (by rwa [entry])
    rw [entry] at same
    refine ⟨?_, nonzero, t, ?_⟩
    · rw [same]
      exact block
    · rw [table]
      exact entry
  unfold invalidateRefcountBlock
  split
  next index cached =>
    have cached : q.refcountCache off = some index := cached
    have own := (ok.hit off index cached).1
    refine
      { limit := ?_
        next := ok.next
        hit := ?_
        indexed := ?_ }
    · rw [length_modify]
      exact ok.limit
    · intro off' i found
      by_cases same : off' = off
      · simp only [same, update_self, reduceCtorEq] at found
      · simp only [update_of_ne same] at found
        obtain ⟨block, rest⟩ := hit off' i same found
        have other : index ≠ i := by
          rintro rfl
          exact same (ok.inj found cached)
        refine ⟨?_, rest⟩
        simp only [getElem?_modify_ne _ _ other]
        exact block
    · intro i off' data block
      by_cases here : index = i
      · subst here
        simp only [getElem?_modify_eq, own, Option.map_eq_map, Option.map_some, Option.some.injEq,
          RefcountBlock.mk.injEq, reduceCtorEq, and_false] at block
      · simp only [getElem?_modify_ne _ _ here] at block
        have found := ok.indexed i off' data block
        have other : off' ≠ off := by
          rintro rfl
          rw [cached] at found
          injection found with found
          exact here found
        simpa only [update_of_ne other] using found
  next absent =>
    have absent : q.refcountCache off = none := absent
    refine { ok with hit := ?_ }
    intro off' i found
    apply hit off' i ?_ found
    rintro rfl
    rw [absent] at found
    cases found

/-- Storing bytes in a block of the file and in its cached copy. -/
theorem CacheOk.store {place : Nat} {bytes : Bytes}
    (own : f.read off g.clusterSize = put (q.file.read off g.clusterSize) place bytes)
    (cached : q.refcountCache off = some index) :
    CacheOk g { q with
      file := f
      refcountBlocks := q.refcountBlocks.modify index (fun old =>
        { old with data := old.data.map (fun d => put d place bytes) }) } := by
  obtain ⟨block, nonzero, t, entry⟩ := ok.hit off index cached
  refine
    { limit := ?_
      next := ok.next
      hit := ?_
      indexed := ?_ }
  · rw [length_modify]
    exact ok.limit
  · intro off' i found
    have found : q.refcountCache off' = some i := found
    obtain ⟨block', nonzero', t', entry'⟩ := ok.hit off' i found
    by_cases same : off' = off
    · subst same
      rw [cached] at found
      injection found with found
      subst found
      refine ⟨?_, nonzero, t, by rw [table]; exact entry⟩
      simp [block, own]
    · have other : index ≠ i := by
        rintro rfl
        exact same (ok.inj found cached)
      have kept := others t' (by rwa [entry']) (by rwa [entry'])
      rw [entry'] at kept
      refine ⟨?_, nonzero', t', by rw [table]; exact entry'⟩
      rw [getElem?_modify_ne _ _ other, kept]
      exact block'
  · intro i off' data' found
    by_cases here : index = i
    · subst here
      simp only [getElem?_modify_eq, block, Option.map_eq_map, Option.map_some,
        Option.some.injEq, RefcountBlock.mk.injEq] at found
      rw [← found.1]
      exact cached
    · rw [getElem?_modify_ne _ _ here] at found
      exact ok.indexed i off' data' found

end

/-! ## Reading and storing refcounts -/

/-- Only replies and the refcount cache changed. -/
structure Looked (g : Geometry) (q q' : Image) : Prop where
  loaded : Loaded g q'
  file : q'.file = q.file
  l2Cache : q'.l2Cache = q.l2Cache
  quiet : q.replies = [] → q'.replies = []

theorem Looked.keeps (looked : Looked g q q') (inv : Inv g q) : Keeps g q q' where
  inv :=
    { looked.loaded with
      valid := by rw [looked.file]; exact inv.valid
      l2Cache := by rw [looked.file, looked.l2Cache]; exact inv.l2Cache }
  guest := by rw [looked.file]
  quiet := looked.quiet

theorem Looked.read (looked : Looked g q q') (inv : Inv g q) : Read g q q' :=
  ⟨looked.keeps inv, looked.file⟩

theorem Heard.looked (heard : Heard q q') (loaded : Loaded g q) : Looked g q q' := by
  obtain ⟨rest, rfl, quiet⟩ := heard
  exact ⟨loaded.with_replies rest, rfl, rfl, quiet⟩

theorem Looked.trans {q'' : Image} (first : Looked g q q') (second : Looked g q' q'') :
    Looked g q q'' where
  loaded := second.loaded
  file := second.file.trans first.file
  l2Cache := second.l2Cache.trans first.l2Cache
  quiet := fun silent => second.quiet (first.quiet silent)

theorem refcount_spec (loaded : Loaded g q) (aligned : BlocksAligned g q.file) (c : Nat) :
    Wp (refcount (c * g.clusterSize)) q (fun r q' => Looked g q q' ∧
      match r with
      | .ok n => n = refcountAt g q.file c
      | .error _ => q.replies ≠ [] ∨ g.refcountEntries ≤ c / g.blockEntries ∨
          q.file.size < refcountTableAt g q.file (c / g.blockEntries) + g.clusterSize) := by
  have location := refcountLocation_eq loaded aligned c
  have same : Looked g q q := ⟨loaded, rfl, rfl, id⟩
  unfold refcount
  by_cases inside : c / g.blockEntries < g.refcountEntries
  · rw [if_pos inside] at location
    simp only [wp_query_bind, location]
    by_cases used : refcountTableAt g q.file (c / g.blockEntries) = 0
    · have zero : refcountAt g q.file c = 0 := if_neg (by simpa using used)
      simpa [used, zero] using same
    · simp only [used, not_false_eq_true, ne_eq, decide_true, not_true, if_false, wp_read_bind]
      cases cached : q.refcountCache (refcountTableAt g q.file (c / g.blockEntries)) with
      | some index =>
        have block := (loaded.cache.hit _ index cached).1
        have hit : cachedBlock q index =
            .ok (q.file.read (refcountTableAt g q.file (c / g.blockEntries)) g.clusterSize) := by
          rw [cachedBlock, block]
        simp only [wp_query_bind, hit, wp_pure]
        exact ⟨same, blockRefcount_eq used⟩
      | none =>
        refine (fileReadAt_spec _ _ q).bind ?_ ?_
        · rintro block q1 ⟨heard, bytes⟩
          subst bytes
          have looked := heard.looked loaded
          have entry : refcountTableAt g q1.file (c / g.blockEntries) =
              refcountTableAt g q.file (c / g.blockEntries) := by rw [looked.file]
          have ok := looked.loaded.cache.insert looked.loaded.clusterSize used entry
          rw [looked.file] at ok
          have only := cacheRefcountBlock_only (refcountTableAt g q.file (c / g.blockEntries))
            (q.file.read (refcountTableAt g q.file (c / g.blockEntries)) g.clusterSize) q1
          rw [loaded.clusterSize]
          simp only [wp_update_bind, wp_pure]
          refine ⟨looked.trans ⟨only.loaded looked.loaded ok, only.file, only.l2Cache, ?_⟩,
            blockRefcount_eq used⟩
          rw [only.replies]
          exact id
        · rintro err q1 ⟨heard, bad⟩
          rw [loaded.clusterSize] at bad
          exact ⟨heard.looked loaded, bad.imp id .inr⟩
  · rw [if_neg inside] at location
    simp only [wp_query_bind, location]
    exact ⟨same, .inr (.inl (by omega))⟩

/-- The refcount of cluster `k` is `v` now and all else is as before. -/
structure Counted (g : Geometry) (q : Image) (k v : Nat) (q' : Image) : Prop where
  keeps : Keeps g q q'
  metadata : metadataOf g q'.file =
    { metadataOf g q.file with refcounts := update (metadataOf g q.file).refcounts k v }
  fresh : ∀ x, Fresh g (metadataOf g q.file) (x / g.clusterSize) → q'.file.byte x = q.file.byte x

theorem Stores.other_blocks {f' : Store} (store : Stores g f f' (.count k) v)
    (valid : Valid g (metadataOf g f)) (live : refcountTableAt g f (k / g.blockEntries) ≠ 0)
    (used : refcountTableAt g f t ≠ 0)
    (other : refcountTableAt g f t ≠ refcountTableAt g f (k / g.blockEntries)) :
    f'.read (refcountTableAt g f t) g.clusterSize = f.read (refcountTableAt g f t) g.clusterSize := by
  have live' : (Slot.count k).Live g (metadataOf g f) := live
  apply store.block_same valid live' used
  intro same
  injection same with same
  exact other (by rw [same])

/-- Storing for a cluster without an owner keeps the image sound once the cache follows. -/
theorem Stores.counted (store : Stores g q.file f (.count k) v) (inv : Inv g q)
    (live : refcountTableAt g q.file (k / g.blockEntries) ≠ 0) (fresh : Fresh g (metadataOf g q.file) k)
    {rest : List Reply} (quiet : q.replies = [] → rest = [])
    (only : CacheOnly { q with file := f, replies := rest } q') (ok : CacheOk g q') :
    Counted g q k v q' := by
  have metadata := store.count live
  have l1 : l1At g f = l1At g q.file := congrArg Metadata.l1 metadata
  have table : refcountTableAt g f = refcountTableAt g q.file := congrArg Metadata.refcountTable metadata
  have l2 : l2At g f = l2At g q.file := congrArg Metadata.l2 metadata
  have live' : (Slot.count k).Live g (metadataOf g q.file) := live
  obtain ⟨cache, blocks, next, rfl⟩ := only
  refine
    { keeps :=
        { inv :=
            { inv.toLoaded.change l1 table ok with
              valid := ?_
              l2Cache := ?_ }
          guest := store.guest inv.valid live' l2
          quiet }
      metadata
      fresh := ?_ }
  · have valid := inv.valid.setRefcount fresh live v
    rw [← metadata] at valid
    exact valid
  · simp only [l1, l2]
    exact inv.l2Cache
  · intro x unowned
    apply store.outside
    intro here
    have owns := Slot.owned inv.valid live'
    rw [← here] at owns
    exact unowned _ owns

theorem setRefcount_spec (inv : Inv g q) (live : refcountTableAt g q.file (k / g.blockEntries) ≠ 0)
    (fresh : Fresh g (metadataOf g q.file) k) (small : v < 65536) :
    Wp (setRefcount (k * g.clusterSize) v) q (fun r q' =>
      match r with
      | .ok _ => Counted g q k v q'
      | .error _ => q.replies ≠ [] ∧ ∃ w, Counted g q k w q') := by
  have location := refcountLocation_eq inv.toLoaded inv.blocksAligned k
  rw [if_pos (refcountTableAt_inside live)] at location
  have live' : (Slot.count k).Live g (metadataOf g q.file) := live
  unfold setRefcount
  simp only [wp_query_bind, location, live, ne_eq, not_false_eq_true, decide_true, not_true, if_false]
  refine (writeMetadata_spec _ _ q).attempt ?_ ?_
  · rintro _ q1 ⟨rest, rfl, quiet⟩
    have store := Stores.of_write inv.valid live' (v := v) small
    have table := store.refcountTable_same (by simp)
    simp only [wp_update]
    have inside := g.count_inside k
    have low : refcountTableAt g q.file (k / g.blockEntries) ≤
        (Slot.count k).address g (metadataOf g q.file) := le_add_right _ _
    have own := Store.read_write_inside (f := q.file) (n := g.clusterSize) (beBytes 2 v) low
      (by rw [beBytes_length]; simp only [Slot.address, metadataOf]; omega)
    have place : (Slot.count k).address g (metadataOf g q.file) -
        refcountTableAt g q.file (k / g.blockEntries) = k % g.blockEntries * 2 :=
      Nat.add_sub_cancel_left _ _
    rw [place] at own
    have others := fun t used other => store.other_blocks inv.valid live (t := t) used other
    cases cached : q.refcountCache (refcountTableAt g q.file (k / g.blockEntries)) with
    | some index =>
      have ok := inv.cache.store table others own cached
      exact store.counted inv live fresh quiet ⟨_, _, _, rfl⟩ (ok.of_eq rfl rfl rfl rfl)
    | none =>
      have ok := inv.cache.invalidate table others
      rw [invalidateRefcountBlock, cached] at ok
      exact store.counted inv live fresh quiet ⟨_, _, _, rfl⟩ (ok.of_eq rfl rfl rfl rfl)
  · rintro err q1 ⟨noisy, n, rest, rfl, quiet⟩
    have short : ((beBytes 2 v).take n).length ≤ (Slot.count k).width := by
      have := length_take_le' n (beBytes 2 v)
      rwa [beBytes_length] at this
    have store := Stores.of_part inv.valid live' short
    have ok := inv.cache.invalidate (store.refcountTable_same (by simp))
      (fun t used other => store.other_blocks inv.valid live (t := t) used other)
    simp only [wp_update_bind, wp_fail]
    refine ⟨noisy, _, store.counted inv live fresh quiet (invalidateRefcountBlock_only _ _) ?_⟩
    refine ok.of_eq ?_ ?_ ?_ ?_
    · rw [(invalidateRefcountBlock_only _ _).file, (invalidateRefcountBlock_only _ _).file]
      rfl
    all_goals
      unfold invalidateRefcountBlock
      dsimp only
      cases q.refcountCache (refcountTableAt g q.file (k / g.blockEntries)) <;> rfl

end Gokvm.Disk
