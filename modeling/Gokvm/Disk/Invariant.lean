import Gokvm.Disk.Flat
import Gokvm.Disk.Stored

/-! # The invariant of an open image

The tables and caches an image holds in memory agree with its file, and the file
has a valid layout. `Inv` says so; `Keeps` and `Failed` are the two ways a
program may leave an image that satisfied it.
-/

namespace Gokvm.Disk

open Lib
open Prog

def Geometry.cacheLimit (g : Geometry) : Nat := qcow2RefcountCacheBytes / g.clusterSize

theorem Geometry.cacheLimit_pos (g : Geometry) : 0 < g.cacheLimit :=
  Nat.div_pos (Nat.le_trans g.clusterSize_high (by decide)) g.clusterSize_pos

/-- Cached refcount blocks are the blocks of the file, and the index map finds each
    of them. -/
structure CacheOk (g : Geometry) (q : Image) : Prop where
  limit : q.refcountBlocks.length ≤ g.cacheLimit
  next : q.refcountCacheNext < g.cacheLimit
  hit : ∀ off i, q.refcountCache off = some i →
    q.refcountBlocks[i]? = some ⟨off, some (q.file.read off g.clusterSize)⟩ ∧
      off ≠ 0 ∧ ∃ t, refcountTableAt g q.file t = off
  indexed : ∀ i off data, q.refcountBlocks[i]? = some ⟨off, some data⟩ →
    q.refcountCache off = some i

/-- The image holds the tables of its file. -/
structure Loaded (g : Geometry) (q : Image) : Prop where
  healthy : q.writeFault = none
  version : q.version = g.version
  size : q.size = g.size
  clusterSize : q.clusterSize = g.clusterSize
  l1TableOffset : q.l1TableOffset = g.l1TableOffset
  refcountTableOffset : q.refcountTableOffset = g.refcountTableOffset
  l2Entries : q.l2Entries = g.l2Entries
  blockEntries : q.refcountBlockEntries = g.blockEntries
  l1 : q.l1 = (List.range g.l1Size).map (l1At g q.file)
  refcountTable : q.refcountTable = (List.range g.refcountEntries).map (refcountTableAt g q.file)
  cache : CacheOk g q

structure Inv (g : Geometry) (q : Image) : Prop extends Loaded g q where
  valid : Valid g (metadataOf g q.file)
  l2Cache : ∀ i table, q.l2Cache i = some table →
    l1At g q.file i ≠ 0 ∧ table = (List.range g.l2Entries).map (l2At g q.file i)

/-- The image is still sound and the guest sees the same bytes. -/
structure Keeps (g : Geometry) (q q' : Image) : Prop where
  inv : Inv g q'
  guest : guestByte g q'.file = guestByte g q.file
  quiet : q.replies = [] → q'.replies = []

/-- Only replies and caches changed. -/
structure Read (g : Geometry) (q q' : Image) : Prop where
  keeps : Keeps g q q'
  file : q'.file = q.file

/-- How a program on a sound image may fail: writes are disabled, or nothing was lost. A silent host
    leaves only capacity errors. -/
def Failed (g : Geometry) (q : Image) (err : GoError) (q' : Image) : Prop :=
  (q.replies ≠ [] ∧ q'.writeFault ≠ none) ∨ (Keeps g q q' ∧ (q.replies = [] → CapacityError err))

section Basic

variable {g : Geometry} {q q' q'' : Image}

theorem Keeps.refl (inv : Inv g q) : Keeps g q q := ⟨inv, rfl, id⟩

theorem Keeps.trans (first : Keeps g q q') (second : Keeps g q' q'') : Keeps g q q'' :=
  ⟨second.inv, second.guest.trans first.guest, fun quiet => second.quiet (first.quiet quiet)⟩

theorem Keeps.failed (keeps : Keeps g q q') {err : GoError} (failed : Failed g q' err q'') :
    Failed g q err q'' := by
  rcases failed with ⟨noisy, fault⟩ | ⟨kept, capacity⟩
  · exact .inl ⟨fun quiet => noisy (keeps.quiet quiet), fault⟩
  · exact .inr ⟨keeps.trans kept, fun quiet => capacity (keeps.quiet quiet)⟩

theorem Keeps.noisy (keeps : Keeps g q q') {err : GoError} (noisy : q.replies ≠ []) : Failed g q err q' :=
  .inr ⟨keeps, fun silent => absurd silent noisy⟩

theorem Read.refl (inv : Inv g q) : Read g q q := ⟨Keeps.refl inv, rfl⟩

theorem Read.trans (first : Read g q q') (second : Read g q' q'') : Read g q q'' :=
  ⟨first.keeps.trans second.keeps, second.file.trans first.file⟩

theorem CacheOk.of_eq (ok : CacheOk g q) (file : q'.file = q.file)
    (cache : q'.refcountCache = q.refcountCache) (blocks : q'.refcountBlocks = q.refcountBlocks)
    (next : q'.refcountCacheNext = q.refcountCacheNext) : CacheOk g q' where
  limit := by rw [blocks]; exact ok.limit
  next := by rw [next]; exact ok.next
  hit := by rw [file, cache, blocks]; exact ok.hit
  indexed := by rw [cache, blocks]; exact ok.indexed

/-- Replies, the file and the caches may change when the tables stay the same. -/
theorem Loaded.change (loaded : Loaded g q) {f : Store} {replies : List Reply}
    {cache : Nat → Option Nat} {blocks : List RefcountBlock} {next : Nat}
    {l2Cache : Nat → Option (List Nat)} (l1 : l1At g f = l1At g q.file)
    (table : refcountTableAt g f = refcountTableAt g q.file)
    (ok : CacheOk g { q with
      file := f, replies, refcountCache := cache, refcountBlocks := blocks
      refcountCacheNext := next, l2Cache }) :
    Loaded g { q with
      file := f, replies, refcountCache := cache, refcountBlocks := blocks
      refcountCacheNext := next, l2Cache } :=
  { loaded with
    l1 := by rw [l1]; exact loaded.l1
    refcountTable := by rw [table]; exact loaded.refcountTable
    cache := ok }

theorem Loaded.with_replies (loaded : Loaded g q) (replies : List Reply) :
    Loaded g { q with replies := replies } :=
  loaded.change rfl rfl (loaded.cache.of_eq rfl rfl rfl rfl)

theorem Inv.with_replies (inv : Inv g q) (replies : List Reply) :
    Inv g { q with replies := replies } :=
  { inv.toLoaded.with_replies replies with
    valid := inv.valid
    l2Cache := inv.l2Cache }

/-- The file may change where no cached block is. -/
theorem CacheOk.with_file (ok : CacheOk g q) {f : Store}
    (blocks : ∀ t, refcountTableAt g q.file t ≠ 0 →
      refcountTableAt g f t = refcountTableAt g q.file t ∧
      f.read (refcountTableAt g q.file t) g.clusterSize =
        q.file.read (refcountTableAt g q.file t) g.clusterSize) :
    CacheOk g { q with file := f } := by
  refine { ok with hit := ?_ }
  intro off i found
  obtain ⟨block, nonzero, t, entry⟩ := ok.hit off i found
  obtain ⟨kept, same⟩ := blocks t (by rwa [entry])
  rw [entry] at kept same
  refine ⟨?_, nonzero, t, kept⟩
  rw [same]
  exact block

theorem Inv.with_file (inv : Inv g q) {f : Store} (valid : Valid g (metadataOf g f))
    (l1 : l1At g f = l1At g q.file) (table : refcountTableAt g f = refcountTableAt g q.file)
    (l2 : l2At g f = l2At g q.file)
    (blocks : ∀ t, refcountTableAt g q.file t ≠ 0 →
      f.read (refcountTableAt g q.file t) g.clusterSize =
        q.file.read (refcountTableAt g q.file t) g.clusterSize) :
    Inv g { q with file := f } :=
  { inv.toLoaded.change l1 table
      (inv.cache.with_file (fun t used => ⟨congrFun table t, blocks t used⟩)) with
    valid
    l2Cache := by rw [l1, l2]; exact inv.l2Cache }

/-- The file may be cut or extended to any size that is valid for its tables. -/
theorem Inv.resize (inv : Inv g q) {n : Nat}
    (valid : Valid g { metadataOf g q.file with fileSize := n }) :
    Keeps g q { q with file := q.file.resize n } := by
  have metadata := metadataOf_resize valid
  refine ⟨?_, guestByte_resize valid, id⟩
  apply inv.with_file
  · rw [metadata]
    exact valid
  · exact congrArg Metadata.l1 metadata
  · exact congrArg Metadata.refcountTable metadata
  · exact congrArg Metadata.l2 metadata
  · intro t used
    have room : refcountTableAt g q.file t + g.clusterSize ≤ n := (valid.block t used).2.2
    apply Store.read_congr
    intro x _ high
    rw [Store.byte_resize, if_pos (by omega)]

end Basic

end Gokvm.Disk
