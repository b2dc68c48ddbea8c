import Gokvm.Disk.Alloc

/-! # L1 and L2 tables of an open image

Loading an L2 table, storing an entry of an L1 or L2 table, and making a guest
cluster writable. None of these changes what the guest reads.
-/

namespace Gokvm.Disk

open Lib List Function Metadata
open Prog

variable {g : Geometry} {q q' : Image}

/-! ## Loading tables -/

theorem uint64Table_read (f : Store) (off entries : Nat) :
    uint64Table (f.read off (entries * 8)) entries =
      (range entries).map (fun i => beNat (f.read (off + i * 8) 8)) := by
  apply map_congr_left
  intro i member
  have inside : i < entries := mem_range.mp member
  rw [Store.part_read (by omega)]

theorem qcow2FileRange_ok {fileSize offset length : Nat} {kind : String} :
    qcow2FileRange fileSize offset length kind = .ok () ↔ offset + length ≤ fileSize := by
  simp only [qcow2FileRange, refuse_ok, mem_singleton, forall_eq, decide_eq_false_iff_not]
  omega

theorem readUint64Table_spec (off entries : Nat) (q : Image) :
    Wp (readUint64Table off entries) q (fun r q' => Heard q q' ∧
      match r with
      | .ok table => off + entries * 8 ≤ q.file.size ∧
          table = (range entries).map (fun i => beNat (q.file.read (off + i * 8) 8))
      | .error _ => q.replies ≠ [] ∨ qcow2MaxL1Bytes / 8 < entries ∨
          q.file.size < off + entries * 8) := by
  unfold readUint64Table
  by_cases large : entries > qcow2MaxL1Bytes / 8
  · simp only [large, if_true]
    exact ⟨⟨q.replies, rfl, id⟩, .inr (.inl trivial)⟩
  · simp only [large, if_false]
    refine (fileStat_spec q).bind ?_ ?_
    · rintro _ q1 ⟨heard, rfl⟩
      simp only [wp_query_bind]
      cases range : qcow2FileRange q.file.size off (entries * 8) "metadata table" with
      | error err =>
        refine ⟨heard, .inr (.inr ?_)⟩
        by_contra inside
        rw [qcow2FileRange_ok.mpr (by omega)] at range
        cases range
      | ok _ =>
        have inside := qcow2FileRange_ok.mp range
        refine (fileReadAt_spec _ _ q1).bind ?_ ?_
        · rintro _ q2 ⟨heard', rfl⟩
          refine ⟨heard.trans heard', inside, ?_⟩
          rw [uint64Table_read, heard.file]
        · rintro err q2 ⟨heard', noisy | outside⟩
          · refine ⟨heard.trans heard', .inl fun silent => noisy ?_⟩
            obtain ⟨rest, rfl, quiet⟩ := heard
            exact quiet silent
          · rw [heard.file] at outside
            omega
    · rintro err q1 ⟨heard, noisy⟩
      exact ⟨heard, .inl noisy⟩

variable {n i k off j pos : Nat}

theorem item_map_range (f : Nat → Nat) (inside : i < n) :
    item ((range n).map f) i = .ok (f i) := by
  simp [item, inside]

theorem Geometry.l2Entries_high (g : Geometry) : g.l2Entries ≤ 2 ^ 18 := by
  have high := g.clusterSize_high
  have whole := g.clusterSize_l2
  omega

theorem checkedInt_ok {v : Nat} (small : v ≤ maxInt64) : checkedInt v = .ok v :=
  if_neg (by omega)

theorem Unpublished.copied {f : Store} (new : Unpublished g f k) :
    clusterOffset (k * g.clusterSize ||| qcow2OFlagCopied) = k * g.clusterSize :=
  clusterOffset_copied (g.aligned_512 (Nat.mul_mod_left _ _)) new.below

theorem Unpublished.placed {f : Store} (new : Unpublished g f k) :
    Placed g (metadataOf g f) (k * g.clusterSize) :=
  ⟨Nat.mul_mod_left _ _, Nat.le_of_eq new.size.symm⟩

theorem copied_lt (small : off < 2 ^ 56) : off ||| qcow2OFlagCopied < 2 ^ 64 := by
  rw [copied_eq (by omega)]
  omega

section

variable (inv : Inv g q)
include inv

theorem Inv.l1_word (inside : i < g.l1Size) :
    item q.l1 i = .ok (l1At g q.file i) := by
  rw [inv.l1]
  exact item_map_range _ inside

def l2List (g : Geometry) (f : Store) (i : Nat) : List Nat := (range g.l2Entries).map (l2At g f i)

/-- An L2 table of the file may be cached. -/
theorem Inv.with_l2 (used : l1At g q.file i ≠ 0) :
    Inv g { q with l2Cache := update q.l2Cache i (some (l2List g q.file i)) } := by
  have loaded : Loaded g
      { q with l2Cache := update q.l2Cache i (some (l2List g q.file i)) } :=
    inv.toLoaded.change rfl rfl (inv.cache.of_eq rfl rfl rfl rfl)
  refine
    { loaded with
      valid := inv.valid
      l2Cache := ?_ }
  intro i' table found
  by_cases same : i' = i
  · subst same
    simp only [update_self, Option.some.injEq] at found
    exact ⟨used, found.symm⟩
  · simp only [update_of_ne same] at found
    exact inv.l2Cache i' table found

theorem loadL2_spec (used : l1At g q.file i ≠ 0) :
    Wp (loadL2 i) q (fun r q' => Read g q q' ∧
      match r with
      | .ok table => table = l2List g q.file i
      | .error _ => q.replies ≠ []) := by
  obtain ⟨inside, _, nonzero, aligned, room⟩ := inv.valid.l2Table i used
  simp only [loadL2, wp_read_bind]
  cases cached : q.l2Cache i with
  | some table => exact ⟨Read.refl inv, (inv.l2Cache i table cached).2⟩
  | none =>
    have entry := inv.l1_word inside
    have high := g.l2Entries_high
    have whole := g.clusterSize_l2
    have count : checkedInt g.l2Entries = .ok g.l2Entries :=
      checkedInt_ok (Nat.le_trans high (by decide))
    have nonzero : clusterOffset (l1At g q.file i) ≠ 0 := nonzero
    have aligned : clusterOffset (l1At g q.file i) % g.clusterSize = 0 := aligned
    have room : clusterOffset (l1At g q.file i) + g.clusterSize ≤ q.file.size := room
    simp only [wp_query_bind, entry, inv.l2Entries, inv.clusterSize, nonzero, aligned, count,
      ne_eq, not_true, if_false]
    refine (readUint64Table_spec _ _ q).attempt ?_ ?_
    · rintro _ q1 ⟨⟨rest, rfl, quiet⟩, _, rfl⟩
      simp only [wp_update_bind, wp_pure]
      have table : (range g.l2Entries).map
          (fun j => beNat (q.file.read (clusterOffset (l1At g q.file i) + j * 8) 8)) =
          l2List g q.file i := by
        apply map_congr_left
        intro j member
        have small : j < g.l2Entries := mem_range.mp member
        rw [l2At, if_pos ⟨used, small⟩]
      rw [table]
      exact ⟨⟨⟨(inv.with_replies rest).with_l2 used, rfl, quiet⟩, rfl⟩, rfl⟩
    · rintro err q1 ⟨heard, bad⟩
      refine ⟨heard.read inv, ?_⟩
      rcases bad with noisy | large | outside
      · exact noisy
      · exact absurd (Nat.lt_of_lt_of_le large high) (by decide)
      · omega

/-! ## Storing entries -/

/-- A new cluster may become the L2 table of an unused L1 entry. -/
theorem Inv.publishL2 (inside : i < g.l1Size) (unused : l1At g q.file i = 0)
    (new : Unpublished g q.file k) {rest : List Reply} (quiet : q.replies = [] → rest = []) :
    let f := q.file.write (g.l1TableOffset + i * 8) (beBytes 8 (k * g.clusterSize ||| qcow2OFlagCopied))
    Keeps g q { q with
      file := f, replies := rest, l1 := q.l1.set i (k * g.clusterSize ||| qcow2OFlagCopied) } ∧
    metadataOf g f = { metadataOf g q.file with
      l1 := update (metadataOf g q.file).l1 i (k * g.clusterSize ||| qcow2OFlagCopied) } := by
  intro f
  have live : (Slot.l1 i).Live g (metadataOf g q.file) := inside
  have store : Stores g q.file f (.l1 i) (k * g.clusterSize ||| qcow2OFlagCopied) :=
    Stores.of_write inv.valid live (copied_lt new.below)
  have metadata := store.l1 inv.valid inside unused
    (by rw [new.copied]; exact Nat.mul_mod_left _ _)
    (by rw [new.copied, g.mul_clusterSize_div]; exact new.fresh)
    (by rw [new.copied, g.mul_clusterSize_div]; exact new.zeroed)
  have l1 := store.l1At_eq inside
  have table : refcountTableAt g f = refcountTableAt g q.file :=
    congrArg refcountTable metadata
  have l2 : l2At g f = l2At g q.file := congrArg l2 metadata
  have cache : CacheOk g { q with file := f } := by
    apply inv.cache.with_file
    intro t used
    exact ⟨congrFun table t, store.block_same inv.valid live used (by simp [Slot.owner])⟩
  have valid : Valid g (metadataOf g f) := by
    rw [metadata]
    exact inv.valid.publishL2 new.fresh inside unused new.placed new.nonzero new.below new.one
  refine ⟨⟨?_, store.guest inv.valid live l2, quiet⟩, metadata⟩
  exact
    { inv.toLoaded with
      l1 := by
        rw [l1, inv.l1]
        exact map_range_update _ _
      refcountTable := by
        rw [table]
        exact inv.refcountTable
      cache := cache.of_eq rfl rfl rfl rfl
      valid
      l2Cache := by
        intro i' table' found
        obtain ⟨used, same⟩ := inv.l2Cache i' table' found
        have other : i' ≠ i := fun h => used (h ▸ unused)
        rw [l1, l2, update_of_ne other]
        exact ⟨used, same⟩ }

theorem updateL1Entry_spec (inside : i < g.l1Size) (unused : l1At g q.file i = 0)
    (new : Unpublished g q.file k) :
    Wp (updateL1Entry i (k * g.clusterSize ||| qcow2OFlagCopied)) q (fun r q' =>
      match r with
      | .ok _ => Keeps g q q' ∧ metadataOf g q'.file = { metadataOf g q.file with
          l1 := update (metadataOf g q.file).l1 i (k * g.clusterSize ||| qcow2OFlagCopied) }
      | .error _ => q.replies ≠ [] ∧ (q'.writeFault ≠ none ∨ Heard q q')) := by
  have live : (Slot.l1 i).Live g (metadataOf g q.file) := inside
  have stored := slotWord_stored (g := g) (metadataOf g q.file) q.file (.l1 i)
  have zero : slotWord g (metadataOf g q.file) q.file (.l1 i) = 0 := by
    rw [l1At, if_pos inside] at unused
    exact unused
  rw [zero] at stored
  simp only [updateL1Entry, wp_read_bind, wp_query_bind, inv.l1_word inside, unused,
    inv.l1TableOffset]
  refine (writeMetadataEntry_spec _ (Slot.in_file inv.valid live) stored).bind ?_ (fun _ _ failed => failed)
  rintro _ q1 ⟨rest, rfl, quiet⟩
  exact inv.publishL2 inside unused new quiet

section

variable (table : l1At g q.file i ≠ 0) (inside : j < g.l2Entries)
include table inside

/-- Any entry of an L2 table may be stored in the file and in the cache. -/
theorem updateL2Entry_stores (entry : Nat) :
    Wp (updateL2Entry i j entry) q (fun r q' =>
      match r with
      | .ok _ => ∃ q1 rest, Read g q q1 ∧ (q1.replies = [] → rest = []) ∧ q' = { q1 with
          file := q.file.write (clusterOffset (l1At g q.file i) + j * 8) (beBytes 8 entry)
          replies := rest
          l2Cache := update q1.l2Cache i (some ((l2List g q.file i).set j entry)) }
      | .error _ => q.replies ≠ [] ∧ (q'.writeFault ≠ none ∨ Read g q q')) := by
  refine (loadL2_spec inv table).bind ?_ ?_
  · rintro _ q1 ⟨read, rfl⟩
    have inv1 := read.keeps.inv
    have small := (inv.valid.l2Table i table).1
    have nonzeroTable : clusterOffset (l1At g q.file i) ≠ 0 := (inv.valid.l2Table i table).2.2.1
    have l1Entry : item q1.l1 i = .ok (l1At g q.file i) := by
      rw [← read.file]
      exact inv1.l1_word small
    have previous : item (l2List g q.file i) j = .ok (l2At g q.file i j) := item_map_range _ inside
    have live : (Slot.l2 i j).Live g (metadataOf g q.file) := ⟨table, inside⟩
    have word : slotWord g (metadataOf g q.file) q.file (.l2 i j) = l2At g q.file i j := by
      rw [l2At, if_pos ⟨table, inside⟩]
      rfl
    have stored : q1.file.read (clusterOffset (l1At g q.file i) + j * 8) 8 =
        beBytes 8 (l2At g q.file i j) := by
      rw [read.file, ← word]
      exact slotWord_stored (g := g) (metadataOf g q.file) q.file (.l2 i j)
    have room : clusterOffset (l1At g q.file i) + j * 8 + 8 ≤ q1.file.size := by
      rw [read.file]
      exact Slot.in_file inv.valid live
    simp only [wp_query_bind, l1Entry, previous, nonzeroTable, if_false]
    refine (writeMetadataEntry_spec _ room stored).bind ?_ ?_
    · rintro _ q2 ⟨rest, rfl, quiet⟩
      refine ⟨q1, rest, read, quiet, ?_⟩
      simp only [Prog.update, read.file]
    · rintro err q2 ⟨noisy, outcome⟩
      refine ⟨fun silent => noisy (read.keeps.quiet silent), ?_⟩
      exact outcome.imp id (fun heard => read.trans (heard.read inv1))
  · rintro err q1 ⟨read, noisy⟩
    exact ⟨noisy, .inr read⟩

variable (before : ReadsZero (l2At g q.file i j)) (placed : Placed g (metadataOf g q.file) off)
  (nonzero : off ≠ 0) (below : off < 2 ^ 56)
  (target : off = clusterOffset (l2At g q.file i j) ∨
    Fresh g (metadataOf g q.file) (off / g.clusterSize) ∧
      refcountAt g q.file (off / g.clusterSize) = 1)
  (zeroed : ∀ x, x / g.clusterSize = off / g.clusterSize → q.file.byte x = 0)
include before placed nonzero below target zeroed

/-- An L2 entry may map a zeroed cluster, its own or a new one, where the guest read zeros. -/
theorem Inv.mapCluster {rest : List Reply} (quiet : q.replies = [] → rest = []) :
    let f := q.file.write (clusterOffset (l1At g q.file i) + j * 8)
      (beBytes 8 (off ||| qcow2OFlagCopied))
    Keeps g q { q with
      file := f, replies := rest
      l2Cache := update q.l2Cache i
        (some ((l2List g q.file i).set j (off ||| qcow2OFlagCopied))) } ∧
    metadataOf g f = { metadataOf g q.file with
      l2 := update (metadataOf g q.file).l2 i
        (update ((metadataOf g q.file).l2 i) j (off ||| qcow2OFlagCopied)) } := by
  intro f
  have aligned := g.aligned_512 placed.1
  have offset := clusterOffset_copied aligned below
  have live : (Slot.l2 i j).Live g (metadataOf g q.file) := ⟨table, inside⟩
  have store : Stores g q.file f (.l2 i j) (off ||| qcow2OFlagCopied) :=
    Stores.of_write inv.valid live (copied_lt below)
  have metadata := store.l2 ⟨table, inside⟩
  have l1 : l1At g f = l1At g q.file := congrArg l1 metadata
  have blocks : refcountTableAt g f = refcountTableAt g q.file :=
    congrArg refcountTable metadata
  have l2 : l2At g f = update (l2At g q.file) i
      (update (l2At g q.file i) j (off ||| qcow2OFlagCopied)) :=
    congrArg l2 metadata
  have tableOwns : Owns g (metadataOf g q.file) (.l2Table i) _ := .l2Table i table
  have apart : off / g.clusterSize ≠ clusterOffset (l1At g q.file i) / g.clusterSize := by
    intro same
    rcases target with old | ⟨fresh, _⟩
    · have data : Owns g (metadataOf g q.file) (.data i j) _ := .data i j (old ▸ nonzero)
      have both := inv.valid.distinct _ _ _ data ((old ▸ same) ▸ tableOwns)
      cases both
    · exact fresh _ (same ▸ tableOwns)
  have guest : guestByte g f = guestByte g q.file := by
    apply store.guest_map inv.valid ⟨table, inside⟩ before
    · rw [offset]
      exact placed.1
    · rw [offset]
      exact apart
    · rw [offset]
      exact zeroed
  have valid : Valid g (metadataOf g f) := by
    rw [metadata]
    refine inv.valid.setEntry table inside ?_ ?_
    · exact ⟨validateL2Entry_copied aligned below nonzero, fun _ => by rwa [offset]⟩
    · rw [offset]
      exact target
  have cache : CacheOk g { q with file := f } := by
    apply inv.cache.with_file
    intro t used
    exact ⟨congrFun blocks t, store.block_same inv.valid live used (by simp [Slot.owner])⟩
  have loaded : Loaded g { q with
      file := f, replies := rest
      l2Cache := update q.l2Cache i
        (some ((l2List g q.file i).set j (off ||| qcow2OFlagCopied))) } :=
    inv.toLoaded.change l1 blocks (cache.of_eq rfl rfl rfl rfl)
  refine ⟨⟨{ loaded with valid := valid, l2Cache := ?_ }, guest, quiet⟩, metadata⟩
  intro i' table' found
  by_cases same : i' = i
  · subst same
    simp only [update_self, Option.some.injEq] at found
    refine ⟨by rw [l1]; exact table, ?_⟩
    rw [l2, update_self, ← found]
    exact map_range_update _ _
  · simp only [update_of_ne same] at found
    rw [l1, l2, update_of_ne same]
    exact inv.l2Cache i' table' found

theorem updateL2Entry_spec :
    Wp (updateL2Entry i j (off ||| qcow2OFlagCopied)) q (fun r q' =>
      match r with
      | .ok _ => Keeps g q q' ∧ metadataOf g q'.file = { metadataOf g q.file with
          l2 := update (metadataOf g q.file).l2 i
            (update ((metadataOf g q.file).l2 i) j (off ||| qcow2OFlagCopied)) }
      | .error _ => q.replies ≠ [] ∧ (q'.writeFault ≠ none ∨ Read g q q')) := by
  refine (updateL2Entry_stores inv table inside _).mono ?_
  intro r q' post
  cases r with
  | error err => exact post
  | ok _ =>
    obtain ⟨q1, rest, read, quiet, rfl⟩ := post
    rw [← read.file] at table before placed target zeroed
    have mapped :=
      read.keeps.inv.mapCluster table inside before placed nonzero below target zeroed quiet
    rw [read.file] at mapped
    exact ⟨read.keeps.trans mapped.1, mapped.2⟩

end

/-! ## Guest clusters -/

/-- L2 tables to append before row `i` of the L1 table can be written. -/
def missingL2 (g : Geometry) (f : Store) (i : Nat) : Nat := if l1At g f i = 0 then 1 else 0

/-- Data clusters to append before guest cluster `c` can be written. -/
def missingData (g : Geometry) (f : Store) (c : Nat) : Nat :=
  if clusterOffset (l2At g f (c / g.l2Entries) (c % g.l2Entries)) = 0 then 1 else 0

/-- Row `i` has its L2 table, the rest of the tables is as before, and `n` more
    clusters fit. -/
structure HasL2 (g : Geometry) (q : Image) (i n : Nat) (q' : Image) : Prop where
  keeps : Keeps g q q'
  table : l1At g q'.file i ≠ 0
  rows : ∀ i', i' ≠ i → l1At g q'.file i' = l1At g q.file i'
  l2 : l2At g q'.file = l2At g q.file
  budget : Budget g (metadataOf g q'.file) n

theorem refcount_owned {o : Owner} {c : Nat} (owns : Owns g (metadataOf g q.file) o c) :
    Wp (refcount (c * g.clusterSize)) q (fun r q' => Read g q q' ∧
      match r with
      | .ok count => count = 1
      | .error _ => q.replies ≠ []) := by
  have one : refcountAt g q.file c = 1 := inv.valid.counted _ _ owns
  have block : refcountTableAt g q.file (c / g.blockEntries) ≠ 0 := by
    apply inv.valid.stored
    show refcountAt g q.file c ≠ 0
    rw [one]
    decide
  refine (refcount_spec inv.toLoaded inv.blocksAligned c).mono ?_
  rintro r q1 ⟨looked, post⟩
  refine ⟨looked.read inv, ?_⟩
  cases r with
  | ok count => exact post.trans one
  | error err =>
    rcases post with noisy | outside | short
    · exact noisy
    · have := refcountTableAt_inside block
      omega
    · have room : _ ≤ q.file.size := (inv.valid.block _ block).2.2
      exact absurd room (Nat.not_le_of_lt short)

theorem ensureL2Table_present (used : l1At g q.file i ≠ 0) :
    Wp (ensureL2Table i) q (fun r q' => Read g q q' ∧
      match r with
      | .ok table => table = l2List g q.file i
      | .error _ => q.replies ≠ []) := by
  obtain ⟨inside, _, nonzero, aligned, _⟩ := inv.valid.l2Table i used
  have nonzero : clusterOffset (l1At g q.file i) ≠ 0 := nonzero
  have base : clusterOffset (l1At g q.file i) / g.clusterSize * g.clusterSize =
      clusterOffset (l1At g q.file i) := g.aligned_eq aligned
  have owns : Owns g (metadataOf g q.file) (.l2Table i) _ := .l2Table i used
  simp only [ensureL2Table, wp_read_bind]
  cases cached : q.l2Cache i with
  | some table => exact ⟨Read.refl inv, (inv.l2Cache i table cached).2⟩
  | none =>
    have length : ¬(i ≥ q.l1.length) := by
      rw [inv.l1, length_map, length_range]
      omega
    simp only [length, if_false, wp_query_bind, inv.l1_word inside, used, ne_eq, not_false_eq_true,
      if_true, nonzero]
    have checked := refcount_owned inv owns
    simp only [metadataOf, base] at checked
    refine checked.bind ?_ (fun _ _ failed => failed)
    rintro _ q1 ⟨read, rfl⟩
    simp only [not_true, if_false]
    refine (loadL2_spec read.keeps.inv (i := i) (by rw [read.file]; exact used)).mono ?_
    rintro r q2 ⟨again, post⟩
    refine ⟨read.trans again, ?_⟩
    cases r with
    | ok table =>
      rw [read.file] at post
      exact post
    | error err => exact fun silent => post (read.keeps.quiet silent)

theorem ensureL2Table_spec (inside : i < g.l1Size)
    (budget : Budget g (metadataOf g q.file) (n + missingL2 g q.file i)) :
    Wp (ensureL2Table i) q (fun r q' =>
      match r with
      | .ok table => table = l2List g q.file i ∧ HasL2 g q i n q'
      | .error err => Failed g q err q') := by
  by_cases used : l1At g q.file i = 0
  · have uncached : q.l2Cache i = none := by
      rw [Option.eq_none_iff_forall_ne_some]
      exact fun table cached => (inv.l2Cache i table cached).1 used
    have length : ¬(i ≥ q.l1.length) := by
      rw [inv.l1, length_map, length_range]
      omega
    simp only [ensureL2Table, wp_read_bind, uncached, length, if_false, wp_query_bind,
      inv.l1_word inside]
    have count : checkedInt g.l2Entries = .ok g.l2Entries :=
      checkedInt_ok (Nat.le_trans g.l2Entries_high (by decide))
    simp only [used, ne_eq, not_true, if_false, wp_query_bind, inv.l2Entries, count]
    rw [missingL2, if_pos used] at budget
    refine (allocateCluster_spec inv budget).bind ?_ (fun _ _ failed => failed)
    rintro _ q1 ⟨k, rfl, new⟩
    have unused : l1At g q1.file i = 0 := by rw [new.l1]; exact used
    refine (updateL1Entry_spec new.keeps.inv inside unused new.new).attempt ?_ ?_
    · rintro _ q2 ⟨kept, metadata⟩
      have l1 : l1At g q2.file = update (l1At g q1.file) i
          (k * g.clusterSize ||| qcow2OFlagCopied) := congrArg l1 metadata
      have l2 : l2At g q2.file = l2At g q1.file := congrArg l2 metadata
      have table : l1At g q2.file i ≠ 0 := by
        rw [l1, update_self]
        exact copied_ne_zero _
      have empty : ∀ f : Store, l2At g f = l2At g q.file →
          replicate g.l2Entries 0 = l2List g f i := by
        intro f same
        symm
        rw [l2List, eq_replicate_iff]
        refine ⟨by simp, ?_⟩
        intro entry member
        obtain ⟨j, _, rfl⟩ := mem_map.mp member
        rw [same]
        exact inv.valid.l2_none used j
      have cachedInv := kept.inv.with_l2 table
      rw [← empty q2.file (l2.trans new.l2)] at cachedInv
      simp only [wp_update_bind, wp_pure]
      refine ⟨empty q.file rfl, ?_⟩
      refine
        { keeps := (new.keeps.trans kept).trans ⟨cachedInv, rfl, id⟩
          table
          rows := ?_
          l2 := l2.trans new.l2
          budget := new.budget.congr (by rw [metadata]) (by rw [metadata]) }
      intro i' other
      show l1At g q2.file i' = _
      rw [l1, update_of_ne other, new.l1]
    · rintro err q2 ⟨noisy, outcome⟩
      have noisy : q.replies ≠ [] := fun silent => noisy (new.keeps.quiet silent)
      refine (rollbackNewCluster_spec err noisy new.keeps new.new
        (outcome.imp id (fun heard => heard.read new.keeps.inv))).mono ?_
      intro r q3 post
      cases r with
      | ok a => exact post.elim
      | error e => exact post
  · refine (ensureL2Table_present inv used).mono ?_
    rintro r q1 ⟨read, post⟩
    cases r with
    | ok table =>
      refine ⟨post, read.keeps, by rwa [read.file], fun _ _ => by rw [read.file], by rw [read.file], ?_⟩
      rw [read.file]
      exact budget.mono (Nat.le_add_right _ _)
    | error err => exact read.keeps.noisy post

end

def Geometry.row (g : Geometry) (pos : Nat) : Nat := pos / g.clusterSize / g.l2Entries

def Geometry.column (g : Geometry) (pos : Nat) : Nat := pos / g.clusterSize % g.l2Entries

theorem Geometry.column_lt (g : Geometry) (pos : Nat) : g.column pos < g.l2Entries :=
  Nat.mod_lt _ g.l2Entries_pos

theorem Geometry.row_lt (g : Geometry) (inside : pos < g.size) : g.row pos < g.l1Size := by
  have covers := g.covers
  have entries : 2 ^ g.bits / 8 = g.l2Entries := rfl
  rw [entries] at covers
  rw [row, Nat.div_lt_iff_lt_mul g.l2Entries_pos, Nat.div_lt_iff_lt_mul g.clusterSize_pos,
    Nat.mul_assoc, Nat.mul_comm g.l2Entries]
  exact Nat.lt_of_lt_of_le inside covers

theorem entryAt_eq (f : Store) (pos : Nat) : entryAt g f pos = l2At g f (g.row pos) (g.column pos) :=
  rfl

theorem Inv.tableIndexes (inv : Inv g q) (inside : pos < g.size) :
    tableIndexes q pos = .ok (g.row pos, g.column pos) := by
  have length : ¬(g.row pos ≥ q.l1.length) := by
    rw [inv.l1, length_map, length_range]
    exact Nat.not_le_of_lt (g.row_lt inside)
  simp only [Geometry.row] at length
  simp only [Disk.tableIndexes, inv.clusterSize, inv.l2Entries, length, if_false]
  rfl

theorem Geometry.and_mask (g : Geometry) (pos : Nat) :
    pos &&& (g.clusterSize - 1) = pos % g.clusterSize :=
  Nat.and_two_pow_sub_one_eq_mod pos g.bits

/-- Bytes of a mapped data cluster may change. -/
theorem Inv.write_data (inv : Inv g q) (data : Bytes) (used : clusterOffset (l2At g q.file i j) ≠ 0)
    (low : clusterOffset (l2At g q.file i j) ≤ off)
    (high : off + data.length ≤ clusterOffset (l2At g q.file i j) + g.clusterSize) :
    Inv g { q with file := q.file.write off data } ∧
      metadataOf g (q.file.write off data) = metadataOf g q.file ∧
      ∀ x, x / g.clusterSize ≠ clusterOffset (l2At g q.file i j) / g.clusterSize →
        (q.file.write off data).byte x = q.file.byte x := by
  have placed : Placed g (metadataOf g q.file) (clusterOffset (l2At g q.file i j)) :=
    (inv.valid.entry i j).2 used
  have base := g.aligned_eq placed.1
  have room : _ ≤ q.file.size := placed.2
  have owns : Owns g (metadataOf g q.file) (.data i j) _ := .data i j used
  have agree : ∀ x, x / g.clusterSize ≠ clusterOffset (l2At g q.file i j) / g.clusterSize →
      (q.file.write off data).byte x = q.file.byte x := by
    intro x elsewhere
    exact byte_write_elsewhere (by omega) (by omega) elsewhere
  have metadata : metadataOf g (q.file.write off data) = metadataOf g q.file := by
    rw [metadataOf_agree agree inv.valid]
    · rw [Store.size_write_inside (by omega)]
      rfl
    · intro o other
      exact ⟨i, j, inv.valid.distinct _ _ _ other owns⟩
  refine ⟨inv.with_file (by rw [metadata]; exact inv.valid) (congrArg l1 metadata)
    (congrArg refcountTable metadata) (congrArg l2 metadata) ?_, metadata, agree⟩
  intro t block
  refine block_agree agree inv.valid block fun o other => ?_
  rw [inv.valid.distinct _ _ _ other owns]
  nofun

/-- The guest cluster at `pos` has a host cluster of its own, other tables are as before, and `n`
    more clusters fit. -/
structure Writable (g : Geometry) (q : Image) (pos n : Nat) (q' : Image) : Prop where
  keeps : Keeps g q q'
  mapped : ¬ReadsZero (entryAt g q'.file pos)
  table : l1At g q'.file (g.row pos) ≠ 0
  rows : ∀ i, i ≠ g.row pos → l1At g q'.file i = l1At g q.file i
  entries : ∀ i j, ¬(i = g.row pos ∧ j = g.column pos) → l2At g q'.file i j = l2At g q.file i j
  budget : Budget g (metadataOf g q'.file) n

/-- Storing a copied entry for the guest cluster makes it writable. -/
theorem Writable.of_entry (kept : Keeps g q q') (aligned : off % g.clusterSize = 0) (nonzero : off ≠ 0)
    (below : off < 2 ^ 56) (table : l1At g q.file (g.row pos) ≠ 0)
    (metadata : metadataOf g q'.file = { metadataOf g q.file with
      l2 := update (metadataOf g q.file).l2 (g.row pos)
        (update ((metadataOf g q.file).l2 (g.row pos)) (g.column pos)
          (off ||| qcow2OFlagCopied)) }) (budget : Budget g (metadataOf g q.file) n) :
    Writable g q pos n q' ∧ clusterOffset (entryAt g q'.file pos) = off := by
  have small := g.aligned_512 aligned
  have l1 : l1At g q'.file = l1At g q.file := congrArg l1 metadata
  have l2 : l2At g q'.file = update (l2At g q.file) (g.row pos)
      (update (l2At g q.file (g.row pos)) (g.column pos) (off ||| qcow2OFlagCopied)) :=
    congrArg l2 metadata
  have entry : entryAt g q'.file pos = off ||| qcow2OFlagCopied := by
    rw [entryAt_eq, l2, update_entry, if_pos ⟨rfl, rfl⟩]
  have offset : clusterOffset (entryAt g q'.file pos) = off := by
    rw [entry, clusterOffset_copied small below]
  refine ⟨?_, offset⟩
  refine
    { keeps := kept
      mapped := ?_
      table := by rw [l1]; exact table
      rows := fun i _ => by rw [l1]
      entries := ?_
      budget := budget.congr (by rw [metadata]) (by rw [metadata]) }
  · rintro (zero | none)
    · rw [entry] at zero
      exact zero (zeroFlag_copied small below)
    · exact nonzero (offset ▸ none)
  · intro i j other
    rw [l2, update_entry, if_neg other]

theorem zeroCluster_spec (inv : Inv g q) (used : clusterOffset (l2At g q.file i j) ≠ 0)
    (flag : l2At g q.file i j &&& qcow2OFlagZero ≠ 0) :
    Wp (zeroCluster (clusterOffset (l2At g q.file i j))) q (fun r q' =>
      Keeps g q q' ∧ metadataOf g q'.file = metadataOf g q.file ∧
      match r with
      | .ok _ => ∀ x, x / g.clusterSize = clusterOffset (l2At g q.file i j) / g.clusterSize →
          q'.file.byte x = 0
      | .error _ => q.replies ≠ []) := by
  have count : checkedInt g.clusterSize = .ok g.clusterSize :=
    checkedInt_ok (Nat.le_trans g.clusterSize_high (by decide))
  have hidden : ∀ {data : Bytes} {q1 : Image}, data.length ≤ g.clusterSize →
      Heard { q with file := q.file.write (clusterOffset (l2At g q.file i j)) data } q1 →
      Keeps g q q1 ∧ metadataOf g q1.file = metadataOf g q.file := by
    intro data q1 short heard
    obtain ⟨inv', metadata, agree⟩ := inv.write_data data used (Nat.le_refl _) (by omega)
    have guest : guestByte g (q.file.write (clusterOffset (l2At g q.file i j)) data) =
        guestByte g q.file := by
      apply guestByte_agree inv.valid agree (congrArg l2 metadata)
      intro i' j' owns
      have own : Owns g (metadataOf g q.file) (.data i j) _ := .data i j used
      have both := inv.valid.distinct _ _ _ owns own
      injection both with row column
      rw [row, column]
      exact flag
    have kept : Keeps g q { q with file := q.file.write (clusterOffset (l2At g q.file i j)) data } :=
      ⟨inv', guest, id⟩
    refine ⟨kept.trans (heard.keeps inv'), ?_⟩
    rw [heard.file]
    exact metadata
  simp only [zeroCluster, wp_query_bind, inv.clusterSize, count]
  refine (fileWriteAt_spec _ _ q).mono ?_
  intro r q1 post
  cases r with
  | ok _ =>
    obtain ⟨kept, metadata⟩ := hidden (by simp) post
    refine ⟨kept, metadata, ?_⟩
    intro x here
    have place : Placed g (metadataOf g q.file) (clusterOffset (l2At g q.file i j)) :=
      (inv.valid.entry i j).2 used
    have base := g.aligned_eq place.1
    have low := Nat.div_mul_le_self x g.clusterSize
    have high := Nat.lt_div_mul_add (a := x) g.clusterSize_pos
    rw [here, base] at low high
    have file : q1.file = q.file.write (clusterOffset (l2At g q.file i j))
      (replicate g.clusterSize 0) := post.file
    rw [file, Store.byte_write, length_replicate, if_pos ⟨low, high⟩,
      getD_eq_getElem?_getD, getElem?_replicate]
    split <;> rfl
  | error err =>
    obtain ⟨noisy, _, n, heard⟩ := post
    have short : ((replicate g.clusterSize (0 : UInt8)).take n).length ≤ g.clusterSize := by
      simp
    obtain ⟨kept, metadata⟩ := hidden short heard
    exact ⟨kept, metadata, noisy⟩

theorem prepareMappedCluster_spec (inv : Inv g q) (used : clusterOffset (entryAt g q.file pos) ≠ 0)
    (budget : Budget g (metadataOf g q.file) n) :
    Wp (prepareMappedCluster (g.row pos) (g.column pos) (entryAt g q.file pos)
        (clusterOffset (entryAt g q.file pos))) q (fun r q' =>
      match r with
      | .ok _ => Writable g q pos n q' ∧
          clusterOffset (entryAt g q'.file pos) = clusterOffset (entryAt g q.file pos)
      | .error err => Failed g q err q') := by
  have inside := g.column_lt pos
  have place : Placed g (metadataOf g q.file) (clusterOffset (entryAt g q.file pos)) :=
    (inv.valid.entry _ _).2 used
  have base := g.aligned_eq place.1
  have below := clusterOffset_lt (entryAt g q.file pos)
  have owns : Owns g (metadataOf g q.file) (.data (g.row pos) (g.column pos)) _ := .data _ _ used
  have table : l1At g q.file (g.row pos) ≠ 0 := by
    refine (inv.valid.entryInside (g.row pos) (g.column pos) ?_).1
    intro zero
    apply used
    rw [entryAt_eq, show l2At g q.file (g.row pos) (g.column pos) = 0 from zero, clusterOffset_zero]
  have counted := refcount_owned inv owns
  rw [show clusterOffset ((metadataOf g q.file).l2 (g.row pos) (g.column pos)) =
    clusterOffset (entryAt g q.file pos) from rfl, base] at counted
  unfold prepareMappedCluster
  refine counted.bind ?_ ?_
  · rintro _ q1 ⟨read, rfl⟩
    have inv1 := read.keeps.inv
    simp only [ne_eq, not_true, if_false]
    by_cases flag : entryAt g q.file pos &&& qcow2OFlagZero = 0
    · simp only [flag, if_true, wp_pure]
      refine ⟨?_, by rw [read.file]⟩
      refine
        { keeps := read.keeps
          mapped := ?_
          table := by rw [read.file]; exact table
          rows := fun _ _ => by rw [read.file]
          entries := fun _ _ _ => by rw [read.file]
          budget := by rw [read.file]; exact budget }
      rw [read.file]
      rintro (zero | none)
      · exact zero flag
      · exact used none
    · simp only [flag, if_false]
      have zeroing := zeroCluster_spec inv1 (i := g.row pos) (j := g.column pos)
        (by rw [read.file]; exact used) (by rw [read.file]; exact flag)
      rw [read.file] at zeroing
      refine zeroing.bind ?_ ?_
      · rintro _ q2 ⟨kept, metadata, zeroed⟩
        rw [← entryAt_eq] at zeroed
        have l2 : l2At g q2.file = l2At g q.file := congrArg l2 metadata
        have l1 : l1At g q2.file = l1At g q.file := congrArg l1 metadata
        refine (updateL2Entry_spec kept.inv (by rw [l1]; exact table) inside
          (by rw [l2]; exact .inl flag) (by rw [metadata]; exact place) used below
          (.inl (by rw [l2]; rfl)) zeroed).mono ?_
        intro r q3 post
        cases r with
        | ok _ =>
          obtain ⟨kept', stored⟩ := post
          rw [metadata] at stored
          exact Writable.of_entry (read.keeps.trans (kept.trans kept')) place.1 used below table
            stored budget
        | error err =>
          obtain ⟨noisy, fault | same⟩ := post
          · exact (read.keeps.trans kept).failed (.inl ⟨noisy, fault⟩)
          · exact (read.keeps.trans kept).failed (same.keeps.noisy noisy)
      · rintro err q2 ⟨kept, _, noisy⟩
        exact read.keeps.failed (kept.noisy noisy)
  · rintro err q1 ⟨read, noisy⟩
    exact read.keeps.noisy noisy

end Gokvm.Disk
