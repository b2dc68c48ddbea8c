import Gokvm.Disk.Serve

/-! # Host files beyond 2^56 bytes

Appending checks that a host offset is below 2^63, but an L2 entry has room only for offsets below
2^56. A cluster beyond that is published with reserved bits set: the write succeeds, the table is
not valid any more, and the guest cannot read the byte back.
-/

namespace Gokvm.Disk

open Lib List Nat Geometry
open Prog

variable {g : Geometry} {q q' : Image}

/-- Guest byte `pos` has an L2 table and no cluster; the cluster `k` it would get is beyond the
    limit of table entries alone. -/
structure Beyond (g : Geometry) (q : Image) (pos k : Nat) : Prop where
  inv : Inv g q
  silent : q.replies = []
  inside : pos < g.size
  table : l1At g q.file (g.row pos) ≠ 0
  empty : entryAt g q.file pos = 0
  last : (metadataOf g q.file).nextCluster g = k
  block : refcountTableAt g q.file (k / g.blockEntries) ≠ 0
  high : 2 ^ 56 ≤ k * g.clusterSize
  fits : k * g.clusterSize + g.clusterSize ≤ 2 ^ 57

namespace Beyond

variable {pos k : Nat}

theorem read (beyond : Beyond g q pos k) (read : Read g q q') : Beyond g q' pos k where
  inv := read.keeps.inv
  silent := read.keeps.quiet beyond.silent
  inside := beyond.inside
  table := by rw [read.file]; exact beyond.table
  empty := by rw [read.file]; exact beyond.empty
  last := by rw [read.file]; exact beyond.last
  block := by rw [read.file]; exact beyond.block
  high := beyond.high
  fits := beyond.fits

theorem capacity (beyond : Beyond g q pos k) :
    validateAppendCapacity q (k * g.clusterSize) = .ok () := by
  have fits := beyond.fits
  have wide : maxInt64 = 2 ^ 63 - 1 := by decide
  have inside := refcountTableAt_inside beyond.block
  rw [validateAppendCapacity, validateAppendCapacityFrom, beyond.inv.clusterSize, if_neg (by omega),
    refcountLocation_eq beyond.inv.toLoaded beyond.inv.blocksAligned k, if_pos inside]
  simp only [beyond.block, ne_eq, not_false_eq_true, decide_true]

theorem allocate (beyond : Beyond g q pos k) :
    Wp allocateCluster q (fun r q' => r = .ok (k * g.clusterSize) ∧ Keeps g q q' ∧
      l1At g q'.file = l1At g q.file ∧ Fresh g (metadataOf g q'.file) k) := by
  refine (fileStat_spec q).bind ?_ ?_
  · rintro _ q1 ⟨heard, rfl⟩
    have beyond1 := beyond.read (heard.read beyond.inv)
    have aligned : alignUp q.file.size g.clusterSize = k * g.clusterSize := by
      rw [g.alignUp_eq]
      exact congrArg (· * g.clusterSize) beyond.last
    simp only [wp_read_bind, beyond1.inv.clusterSize, aligned, wp_query_bind, beyond1.capacity]
    have inside := refcountTableAt_inside beyond1.block
    have ready : Ready g q1 0 q1 k :=
      ⟨Keeps.refl beyond1.inv, rfl, rfl, beyond1.last, inside, beyond1.block, .inr (zero_le _)⟩
    rw [wp_bind]
    refine appendRefcountBlocks_found beyond1.inv _ inside beyond1.block ?_
    rw [← heard.file]
    refine (extendFile_spec ready).mono ?_
    intro r q2 post
    cases r with
    | ok off =>
      obtain ⟨rfl, extended⟩ := post
      have l1 : l1At g q2.file = l1At g q1.file := congrArg Metadata.l1 extended.metadata
      exact ⟨rfl, (heard.keeps beyond.inv).trans extended.keeps, l1, extended.fresh⟩
    | error err => exact absurd beyond1.silent post.1
  · rintro err q1 ⟨_, noisy⟩
    exact absurd beyond.silent noisy

end Beyond

/-- The image `mid` after an entry with reserved bits was stored for `pos`, and a byte in its
    cluster `k`. -/
structure Overflowed (g : Geometry) (mid : Image) (pos k : Nat) (q' : Image) : Prop where
  inv : Inv g mid
  table : l1At g mid.file (g.row pos) ≠ 0
  fresh : Fresh g (metadataOf g mid.file) k
  inside : pos < g.size
  high : 2 ^ 56 ≤ k * g.clusterSize
  fits : k * g.clusterSize + g.clusterSize ≤ 2 ^ 57
  state : ∃ b : UInt8, q' = { mid with
    file := (mid.file.write (clusterOffset (l1At g mid.file (g.row pos)) + g.column pos * 8)
      (beBytes 8 (k * g.clusterSize ||| qcow2OFlagCopied))).write
        (k * g.clusterSize + pos % g.clusterSize) [b]
    replies := []
    l2Cache := Function.update mid.l2Cache (g.row pos)
      (some ((l2List g mid.file (g.row pos)).set (g.column pos)
        (k * g.clusterSize ||| qcow2OFlagCopied))) }

section Write

variable {pos k : Nat}

theorem Beyond.writable (beyond : Beyond g q pos k) :
    Wp (ensureWritableCluster pos) q (fun r q' => r = .ok (k * g.clusterSize + pos % g.clusterSize) ∧
      ∃ mid, Inv g mid ∧ l1At g mid.file (g.row pos) ≠ 0 ∧ Fresh g (metadataOf g mid.file) k ∧
        q' = { mid with
          file := mid.file.write (clusterOffset (l1At g mid.file (g.row pos)) + g.column pos * 8)
            (beBytes 8 (k * g.clusterSize ||| qcow2OFlagCopied))
          replies := []
          l2Cache := Function.update mid.l2Cache (g.row pos)
            (some ((l2List g mid.file (g.row pos)).set (g.column pos)
              (k * g.clusterSize ||| qcow2OFlagCopied))) }) := by
  simp only [ensureWritableCluster, wp_query_bind, beyond.inv.tableIndexes beyond.inside]
  refine (ensureL2Table_present beyond.inv beyond.table).bind ?_ ?_
  · rintro _ q1 ⟨read, rfl⟩
    have beyond1 := beyond.read read
    have entry : item (l2List g q.file (g.row pos)) (g.column pos) = .ok 0 := by
      rw [← beyond.empty]
      exact item_map_range _ (g.column_lt pos)
    have accepted : validateL2Entry g.version 0 = .ok () := L2EntryOk.zero (g := g) (m := metadataOf g q.file) |>.1
    simp only [entry, beyond1.inv.version, accepted, beyond1.inv.clusterSize, g.and_mask, wp_query_bind,
      wp_read_bind, ne_eq, not_true, false_and, if_false]
    refine beyond1.allocate.bind ?_ ?_
    · rintro _ q2 ⟨place, keeps, l1, fresh⟩
      injection place with place
      subst place
      have silent := keeps.quiet beyond1.silent
      have table : l1At g q2.file (g.row pos) ≠ 0 := by rw [l1]; exact beyond1.table
      refine (updateL2Entry_stores keeps.inv table (g.column_lt pos) _).attempt ?_ ?_
      · rintro _ q3 ⟨mid, rest, again, quiet, rfl⟩
        simp only [wp_pure]
        refine ⟨trivial, mid, again.keeps.inv, by rwa [again.file], by rwa [again.file], ?_⟩
        rw [again.file, quiet (again.keeps.quiet silent)]
      · rintro err q3 ⟨noisy, _⟩
        exact absurd silent noisy
    · rintro err q2 ⟨bad, _⟩
      cases bad
  · rintro err q1 ⟨_, noisy⟩
    exact absurd beyond.silent noisy

theorem Beyond.writeChunk (beyond : Beyond g q pos k) (b : UInt8) :
    Wp (writeChunk pos [b]) q (fun r q' => r = .ok () ∧ ∃ mid, Overflowed g mid pos k q') := by
  refine beyond.writable.bind ?_ ?_
  · rintro _ q1 ⟨place, mid, inv, table, fresh, state⟩
    injection place with place
    subst place
    have silent : q1.replies = [] := by rw [state]
    refine (fileWriteAt_spec _ _ q1).mono ?_
    intro r q2 post
    cases r with
    | error err => exact absurd silent post.1
    | ok _ =>
      obtain ⟨rest, rfl, quiet⟩ := post
      refine ⟨rfl, mid, inv, table, fresh, beyond.inside, beyond.high, beyond.fits, b, ?_⟩
      rw [quiet silent, state]
  · rintro err q1 ⟨bad, _⟩
    cases bad

theorem Beyond.write (beyond : Beyond g q pos k) (b : UInt8) :
    ∃ mid q', writeAt [b] pos q = (.ok (1, none), q') ∧ Overflowed g mid pos k q' := by
  have spec : Wp (writeAt [b] pos) q (fun r q' => r = .ok (1, none) ∧
      ∃ mid, Overflowed g mid pos k q') := by
    have inside := beyond.inside
    have size := beyond.inv.size
    have small := mod_lt pos g.clusterSize_pos
    have chunk : chunkLength q pos 1 = 1 := by
      rw [chunkLength, beyond.inv.clusterSize, g.and_mask]
      omega
    have within : ¬(pos ≥ q.size ∨ 1 > q.size - pos) := by omega
    simp only [writeAt, wp_read_bind, length_singleton, one_ne_zero, if_false, beyond.inv.healthy]
    rw [if_neg (by omega), Int.toNat_natCast, if_neg within]
    simp only [writeLoop, length_singleton, zero_lt_one, if_true, wp_read_bind, add_zero, chunk]
    refine (beyond.writeChunk b).attempt ?_ ?_
    · rintro _ q1 ⟨_, mid, overflowed⟩
      exact ⟨rfl, mid, overflowed⟩
    · rintro err q1 ⟨bad, _⟩
      cases bad
  rcases run : writeAt [b] pos q with ⟨r, q'⟩
  rw [Wp, run] at spec
  obtain ⟨rfl, mid, overflowed⟩ := spec
  exact ⟨mid, q', rfl, overflowed⟩

end Write

namespace Overflowed

variable {pos k : Nat} {mid : Image}

variable (overflowed : Overflowed g mid pos k q')
include overflowed

theorem refused :
    validateL2Entry g.version (k * g.clusterSize ||| qcow2OFlagCopied) ≠ .ok () := by
  have high := overflowed.high
  have fits := overflowed.fits
  have positive := g.clusterSize_pos
  rw [ne_eq, validateL2Entry_ok, copied_eq (by omega)]
  omega

theorem stored :
    q'.file.read 0 g.clusterSize = g.header ∧ l1At g q'.file = l1At g mid.file ∧
      l2At g q'.file (g.row pos) (g.column pos) = k * g.clusterSize ||| qcow2OFlagCopied := by
  obtain ⟨inv, table, fresh, _, high, fits, b, rfl⟩ := overflowed
  have small := mod_lt pos g.clusterSize_pos
  have live : (Slot.l2 (g.row pos) (g.column pos)).Live g (metadataOf g mid.file) :=
    ⟨table, g.column_lt pos⟩
  have word : k * g.clusterSize ||| qcow2OFlagCopied < 256 ^ 8 := by
    rw [copied_eq (by have := g.clusterSize_pos; omega)]
    omega
  have store : Stores g mid.file _ (.l2 (g.row pos) (g.column pos)) _ :=
    Stores.of_write inv.valid live word
  have agree : ∀ x, x / g.clusterSize ≠ k →
      ((mid.file.write (clusterOffset (l1At g mid.file (g.row pos)) + g.column pos * 8)
        (beBytes 8 (k * g.clusterSize ||| qcow2OFlagCopied))).write
          (k * g.clusterSize + pos % g.clusterSize) [b]).byte x =
      (mid.file.write (clusterOffset (l1At g mid.file (g.row pos)) + g.column pos * 8)
        (beBytes 8 (k * g.clusterSize ||| qcow2OFlagCopied))).byte x := by
    intro x elsewhere
    exact byte_write_elsewhere (le_add_right _ _) (by rw [length_singleton]; omega) elsewhere
  have same : ∀ s : Slot, s.Live g (metadataOf g mid.file) → _ := fun s live' =>
    slotWord_agree agree inv.valid live' (fun here => fresh _ (here ▸ Slot.owned inv.valid live'))
  have l1 : l1At g _ = l1At g mid.file := funext fun i => l1At_congr fun inside =>
    (same (.l1 i) inside).trans (store.others (.l1 i) (by simp) inside)
  refine ⟨?_, l1, ?_⟩
  · have apart : k ≠ 0 := by
      rintro rfl
      omega
    exact (header_agree agree apart).trans (store.header.trans inv.valid.header)
  · rw [l2At, l1, if_pos ⟨table, g.column_lt pos⟩]
    exact (same _ live).trans store.self

theorem not_valid {f : Store} (describes : Describes f g) :
    ¬∃ g', Describes q'.file g' ∧ Valid g' (metadataOf g' q'.file) := by
  obtain ⟨header, _, entry⟩ := overflowed.stored
  rintro ⟨g', described, valid⟩
  rw [described.unique (describes.congr header)] at valid
  have accepted := (valid.entry (g.row pos) (g.column pos)).1
  rw [show (metadataOf g q'.file).l2 (g.row pos) (g.column pos) = _ from entry] at accepted
  exact overflowed.refused accepted

theorem healthy : q'.writeFault = none := by
  obtain ⟨b, state⟩ := overflowed.state
  rw [state]
  exact overflowed.inv.healthy

theorem unreadable :
    ∃ err, readAt 1 pos q' = (.ok ([], some err), q') := by
  obtain ⟨err, refused⟩ : ∃ err, validateL2Entry g.version (k * g.clusterSize ||| qcow2OFlagCopied) =
      .error err := by
    cases result : validateL2Entry g.version (k * g.clusterSize ||| qcow2OFlagCopied) with
    | ok _ => exact absurd result overflowed.refused
    | error err => exact ⟨err, rfl⟩
  obtain ⟨inv, table, _, inside, _, _, b, state⟩ := overflowed
  have indexes : tableIndexes q' pos = .ok (g.row pos, g.column pos) := by
    rw [state]
    exact inv.tableIndexes inside
  have row := (inv.valid.l2Table _ table).1
  have l1Entry : item q'.l1 (g.row pos) = .ok (l1At g mid.file (g.row pos)) := by
    rw [state]
    exact inv.l1_word row
  have length : ¬(g.row pos ≥ q'.l1.length) := by
    rw [show q'.l1 = mid.l1 by rw [state], inv.l1, length_map, length_range]
    omega
  have nonzero : clusterOffset (l1At g mid.file (g.row pos)) ≠ 0 := (inv.valid.l2Table _ table).2.2.1
  let stored := (l2List g mid.file (g.row pos)).set (g.column pos) (k * g.clusterSize ||| qcow2OFlagCopied)
  have cached : q'.l2Cache (g.row pos) = some stored := by
    rw [state]
    exact Function.update_self _ _ _
  have entry : item stored (g.column pos) = .ok (k * g.clusterSize ||| qcow2OFlagCopied) := by
    simp [stored, item, l2List, g.column_lt pos]
  have version : q'.version = g.version := by
    rw [state]
    exact inv.version
  have size : q'.size = g.size := by
    rw [state]
    exact inv.size
  have load : Wp (l2Table pos) q' (fun r s => r = .ok (some stored, g.column pos) ∧ s = q') := by
    simp only [l2Table, wp_query_bind, indexes, length, if_false, l1Entry, nonzero]
    rw [wp_bind]
    simp only [loadL2, wp_read_bind, cached, wp_pure]
    exact ⟨trivial, trivial⟩
  have chunk : Wp (readChunk pos (chunkLength q' pos 1)) q' (fun r s => r = .error err ∧ s = q') := by
    rw [readChunk, wp_bind, hostOffset]
    refine load.bind ?_ ?_
    · rintro _ _ ⟨result, rfl⟩
      injection result with result
      subst result
      simp only [wp_query_bind, entry, copied_ne_zero, if_false, version, refused]
      exact ⟨trivial, trivial⟩
    · rintro e s ⟨bad, _⟩
      cases bad
  have spec : Wp (readAt 1 pos) q' (fun r s => r = .ok ([], some err) ∧ s = q') := by
    simp only [readAt, wp_read_bind, one_ne_zero, if_false]
    rw [if_neg (by omega), Int.toNat_natCast, size, if_neg (by omega),
      show min 1 (g.size - pos) = 1 by omega, wp_bind]
    simp only [readLoop, length_nil, zero_lt_one, if_true, wp_read_bind, add_zero]
    refine chunk.attempt ?_ ?_
    · rintro a s ⟨bad, _⟩
      cases bad
    · rintro _ s ⟨cause, rfl⟩
      injection cause with cause
      subst cause
      exact ⟨rfl, rfl⟩
  exact ⟨err, Prod.ext spec.1 spec.2⟩

end Overflowed

/-! ## A sparse image of 2^56 bytes

An image with 2 MiB clusters whose refcount table reaches beyond 2^56 bytes. It
has one L2 table and no data; its host file is sparse and ends at 2^56. It is
accepted, and the first write to it goes beyond the limit. -/

def hugeHeader : Bytes :=
  qcow2Magic ++ beBytes 4 3 ++ beBytes 8 0 ++ beBytes 4 0 ++ beBytes 4 21 ++ beBytes 8 (2 ^ 21) ++
    beBytes 4 0 ++ beBytes 4 1 ++ beBytes 8 (4 * 2 ^ 21) ++ beBytes 8 (2 ^ 21) ++ beBytes 4 1 ++
    beBytes 4 0 ++ beBytes 8 0 ++ beBytes 8 0 ++ beBytes 8 0 ++ beBytes 8 0 ++ beBytes 4 4 ++
    beBytes 4 104

/-- The header, two refcount table entries, six refcounts, and the L1 entry of an empty L2 table. -/
def hugePieces : List (Nat × Bytes) :=
  [(0, hugeHeader), (2 ^ 21, beBytes 8 (2 * 2 ^ 21)), (2 ^ 21 + 2 ^ 18, beBytes 8 (3 * 2 ^ 21)),
    (2 * 2 ^ 21, [0, 1, 0, 1, 0, 1, 0, 1, 0, 1, 0, 1]),
    (4 * 2 ^ 21, beBytes 8 (5 * 2 ^ 21 + 2 ^ 63))]

def hugeFile : Store := (Store.blank (2 ^ 56)).writes hugePieces

theorem hugeFile_size : hugeFile.size = 2 ^ 56 := Store.size_writes_inside (by decide)

/-- Away from its pieces the file is zero. -/
theorem hugeFile_zero {off n : Nat} (header : 104 ≤ off)
    (first : off + n ≤ 2 ^ 21 ∨ 2 ^ 21 + 8 ≤ off)
    (second : off + n ≤ 2 ^ 21 + 2 ^ 18 ∨ 2 ^ 21 + 2 ^ 18 + 8 ≤ off)
    (counts : off + n ≤ 2 * 2 ^ 21 ∨ 2 * 2 ^ 21 + 12 ≤ off)
    (l1 : off + n ≤ 4 * 2 ^ 21 ∨ 4 * 2 ^ 21 + 8 ≤ off) : hugeFile.read off n = replicate n 0 := by
  refine (Store.read_writes_apart ?_).trans (Store.read_blank _ _ _)
  have length : hugeHeader.length = 104 := by decide
  simp only [hugePieces, forall_mem_cons, not_mem_nil, false_implies, implies_true,
    beBytes_length, length, and_true]
  exact ⟨.inr (by omega), first, second, counts, l1⟩

theorem hugeFile_header : headerOf hugeFile =
    { version := 3, backingFileOffset := 0, backingFileSize := 0, clusterBits := 21, size := 2 ^ 21
      cryptMethod := 0, l1Size := 1, l1TableOffset := 4 * 2 ^ 21, refcountTableOffset := 2 ^ 21
      refcountTableClusters := 1, nbSnapshots := 0, snapshotsOffset := 0, incompatibleFeatures := 0
      autoclearFeatures := 0, refcountOrder := 4, headerLength := 104 } := by
  decide +kernel

theorem validateHeaderExtensions_zero (area : Bytes) (room : 8 ≤ area.length)
    (kind : part area 0 4 = replicate 4 0) (length : part area 4 4 = replicate 4 0) :
    validateHeaderExtensions area = .ok () := by
  obtain ⟨fuel, more⟩ : ∃ fuel, area.length = fuel + 1 := ⟨area.length - 1, by omega⟩
  rw [validateHeaderExtensions, more, validateHeaderExtensionsFrom, if_neg (by omega),
    if_neg (by omega), kind, length, beNat_zeros]
  rfl

theorem hugeFile_headerOk : HeaderOk hugeFile where
  magic := by decide +kernel
  version := by
    rw [hugeFile_header]
    exact .inr rfl
  header := by
    rw [hugeFile_header]
    decide +kernel
  cluster := by
    have zeros : ∀ k, k ≤ 4 → part ((hugeFile.read 0 (2 ^ 21)).drop 104) k 4 = replicate 4 0 := by
      intro k small
      have whole : part ((hugeFile.read 0 (2 ^ 21)).drop 104) k 4 = hugeFile.read (104 + k) 4 := by
        rw [part, drop_drop, ← part, Store.part_read (by omega), zero_add]
      rw [whole]
      exact hugeFile_zero (by omega) (by omega) (by omega) (by omega) (by omega)
    have accepted := validateHeaderExtensions_zero ((hugeFile.read 0 (2 ^ 21)).drop 104)
      (by simp) (zeros 0 (by omega)) (zeros 4 (by omega))
    rw [hugeFile_header, checkHeaderCluster, if_neg (by decide), one_shiftLeft, accepted]

structure Huge (g : Geometry) : Prop where
  describes : Describes hugeFile g
  clusterSize : g.clusterSize = 2 ^ 21
  l2Entries : g.l2Entries = 2 ^ 18
  blockEntries : g.blockEntries = 2 ^ 20
  size : g.size = 2 ^ 21
  l1TableOffset : g.l1TableOffset = 4 * 2 ^ 21
  l1Size : g.l1Size = 1
  refcountTableOffset : g.refcountTableOffset = 2 ^ 21
  refcountTableClusters : g.refcountTableClusters = 1
  refcountEntries : g.refcountEntries = 2 ^ 18

theorem hugeFile_geometry : ∃ g, Huge g := by
  obtain ⟨g, describes⟩ := HeaderOk.describes hugeFile_headerOk
  have bits : g.bits = 21 := by rw [← describes.bits, hugeFile_header]
  have clusterSize : g.clusterSize = 2 ^ 21 := by rw [clusterSize, bits]
  have clusters : g.refcountTableClusters = 1 := by
    rw [← describes.refcountTableClusters, hugeFile_header]
  exact ⟨g,
    { describes
      clusterSize
      l2Entries := by rw [l2Entries, clusterSize]; decide
      blockEntries := by rw [blockEntries, clusterSize]; decide
      size := by rw [← describes.size, hugeFile_header]
      l1TableOffset := by rw [← describes.l1TableOffset, hugeFile_header]
      l1Size := by rw [← describes.l1Size, hugeFile_header]
      refcountTableOffset := by rw [← describes.refcountTableOffset, hugeFile_header]
      refcountTableClusters := clusters
      refcountEntries := by rw [refcountEntries, clusterSize, clusters]; decide }⟩

namespace Huge

variable {g : Geometry}

theorem table (huge : Huge g) (t : Nat) : refcountTableAt g hugeFile t =
    if t = 0 then 2 * 2 ^ 21 else if t = 2 ^ 15 then 3 * 2 ^ 21 else 0 := by
  rw [refcountTableAt, huge.refcountEntries, huge.refcountTableOffset]
  by_cases inside : t < 2 ^ 18
  · rw [if_pos inside]
    by_cases first : t = 0
    · rw [if_pos first, first]
      decide +kernel
    · rw [if_neg first]
      by_cases second : t = 2 ^ 15
      · rw [if_pos second, second]
        decide +kernel
      · rw [if_neg second, hugeFile_zero (by omega) (by omega) (by omega) (by omega) (by omega),
          beNat_zeros]
  · rw [if_neg inside, if_neg (by omega), if_neg (by omega)]

theorem l1 (huge : Huge g) (i : Nat) :
    l1At g hugeFile i = if i = 0 then 5 * 2 ^ 21 + 2 ^ 63 else 0 := by
  rw [l1At, huge.l1Size, huge.l1TableOffset]
  by_cases first : i = 0
  · rw [if_pos (by omega), if_pos first, first]
    decide +kernel
  · rw [if_neg (by omega), if_neg first]

theorem l2Offset : clusterOffset (5 * 2 ^ 21 + 2 ^ 63) = 5 * 2 ^ 21 := by decide

theorem l2 (huge : Huge g) (i j : Nat) : l2At g hugeFile i j = 0 := by
  rw [l2At, huge.l1, huge.l2Entries]
  by_cases first : i = 0
  · rw [if_pos first, l2Offset]
    by_cases inside : j < 2 ^ 18
    · rw [if_pos ⟨by decide, inside⟩, hugeFile_zero (by omega) (by omega) (by omega) (by omega)
        (by omega), beNat_zeros]
    · rw [if_neg (fun live => inside live.2)]
  · rw [if_neg first, if_neg (fun live => live.1 rfl)]

theorem uncounted {c block : Nat} (small : c < 2 ^ 20) (apart : block = 2 * 2 ^ 21 ∧ 6 ≤ c ∨
    block = 3 * 2 ^ 21) : beNat (hugeFile.read (block + c * 2) 2) = 0 := by
  rw [hugeFile_zero (by omega) (by omega) (by omega) (by omega) (by omega), beNat_zeros]

theorem counts (huge : Huge g) (c : Nat) : refcountAt g hugeFile c = if c < 6 then 1 else 0 := by
  have small := mod_lt c (show 0 < 2 ^ 20 by decide)
  rw [refcountAt, huge.table, huge.blockEntries]
  by_cases first : c / 2 ^ 20 = 0
  · have index : c % 2 ^ 20 = c := by omega
    rw [if_pos first, if_pos (by decide), index]
    by_cases owned : c < 6
    · rw [if_pos owned]
      interval_cases c <;> decide +kernel
    · rw [if_neg owned]
      exact uncounted (by omega) (.inl ⟨rfl, by omega⟩)
  · rw [if_neg first, if_neg (show ¬c < 6 by omega)]
    by_cases second : c / 2 ^ 20 = 2 ^ 15
    · rw [if_pos second, if_pos (by decide)]
      exact uncounted small (.inr rfl)
    · rw [if_neg second, if_neg (not_not.mpr rfl)]

theorem owned (huge : Huge g) {o : Owner} {c : Nat} (owns : Owns g (metadataOf g hugeFile) o c) :
    (o, c) ∈ [(Owner.header, 0), (.refcountTable 0, 1), (.refcountBlock 0, 2),
      (.refcountBlock (2 ^ 15), 3), (.l1 0, 4), (.l2Table 0, 5)] := by
  cases owns with
  | header => simp
  | l1 k inside =>
    have one : g.l1Clusters = 1 := by
      rw [l1Clusters, huge.l1Size, huge.clusterSize]
      decide
    have zero : k = 0 := by omega
    subst zero
    rw [huge.l1TableOffset, huge.clusterSize]
    decide
  | refcountTable k inside =>
    have zero : k = 0 := by
      rw [huge.refcountTableClusters] at inside
      omega
    subst zero
    rw [huge.refcountTableOffset, huge.clusterSize]
    decide
  | refcountBlock t used =>
    have entry : (metadataOf g hugeFile).refcountTable t = _ := huge.table t
    rw [entry] at used ⊢
    rw [huge.clusterSize]
    by_cases first : t = 0
    · rw [if_pos first, first]
      decide
    · rw [if_neg first] at used ⊢
      by_cases second : t = 2 ^ 15
      · rw [if_pos second, second]
        decide
      · exact absurd (if_neg second) used
  | l2Table i used =>
    have entry : (metadataOf g hugeFile).l1 i = _ := huge.l1 i
    rw [entry] at used ⊢
    rw [huge.clusterSize]
    by_cases first : i = 0
    · rw [if_pos first, first]
      decide
    · exact absurd (if_neg first) used
  | data i j used =>
    have entry : (metadataOf g hugeFile).l2 i j = 0 := huge.l2 i j
    rw [entry] at used
    exact absurd clusterOffset_zero used

theorem owned_small (huge : Huge g) {o : Owner} {c : Nat} (owns : Owns g (metadataOf g hugeFile) o c) : c < 6 := by
  have listed := huge.owned owns
  simp only [mem_cons, Prod.mk.injEq, not_mem_nil, or_false] at listed
  omega

theorem valid (huge : Huge g) : Valid g (metadataOf g hugeFile) where
  header := huge.describes.header
  headerFits := by
    show g.clusterSize ≤ hugeFile.size
    rw [huge.clusterSize, hugeFile_size]
    decide
  l1Fits := by
    show _ ≤ hugeFile.size
    rw [huge.l1TableOffset, huge.l1Size, hugeFile_size]
    decide
  tableFits := by
    show _ ≤ hugeFile.size
    rw [huge.refcountTableOffset, huge.refcountTableClusters, huge.clusterSize, hugeFile_size]
    decide
  block := by
    intro t used
    refine ⟨refcountTableAt_inside used, ?_⟩
    have entry : (metadataOf g hugeFile).refcountTable t = _ := huge.table t
    rw [entry, Placed, huge.clusterSize, show (metadataOf g hugeFile).fileSize = _ from hugeFile_size]
    split
    · decide
    · split <;> decide
  l2Table := by
    intro i used
    refine ⟨l1At_inside used, ?_⟩
    have entry : (metadataOf g hugeFile).l1 i = _ := huge.l1 i
    rw [entry] at used ⊢
    rw [L1EntryOk, Placed, huge.clusterSize, show (metadataOf g hugeFile).fileSize = _ from hugeFile_size]
    by_cases first : i = 0
    · rw [if_pos first]
      decide
    · exact absurd (if_neg first) used
  entry := by
    intro i j
    rw [show (metadataOf g hugeFile).l2 i j = 0 from huge.l2 i j]
    exact L2EntryOk.zero
  entryInside := fun i j used => absurd (huge.l2 i j) used
  stored := fun c used none => used (if_neg (not_not.mpr none))
  distinct := by
    intro o o' c left right
    have one := huge.owned left
    have two := huge.owned right
    simp only [mem_cons, Prod.mk.injEq, not_mem_nil, or_false] at one two
    rcases one with ⟨rfl, rfl⟩ | ⟨rfl, rfl⟩ | ⟨rfl, rfl⟩ | ⟨rfl, rfl⟩ | ⟨rfl, rfl⟩ | ⟨rfl, rfl⟩ <;>
      exact Eq.symm (by simpa using two)
  counted := by
    intro o c owns
    rw [show (metadataOf g hugeFile).refcounts c = _ from huge.counts c, if_pos (huge.owned_small owns)]

theorem pages_few (huge : Huge g) :
    (pages (claimedClusters g hugeFile)).card ≤ qcow2MaxOwnershipPages := by
  have first : pages (claimedClusters g hugeFile) ⊆ {0} := by
    intro page member
    obtain ⟨c, claimed, rfl⟩ := mem_map.mp (mem_toFinset.mp member)
    obtain ⟨o, owns⟩ := mem_claimedClusters.mp claimed
    have small := huge.owned_small owns
    rw [Finset.mem_singleton, qcow2OwnershipPageClusters]
    omega
  exact le_trans (Finset.card_le_card first) (by decide)

/-- The image is accepted, and a write to its first cluster goes beyond the limit. -/
theorem opened (huge : Huge g) : ∃ q, openQCOW2 hugeFile [] = .ok q ∧ Beyond g q 0 (2 ^ 35) := by
  obtain ⟨q, opened⟩ := open_complete huge.describes huge.valid huge.pages_few
  obtain ⟨g', describes, inv, file, quiet⟩ := open_sound opened
  rw [describes.unique huge.describes] at inv
  refine ⟨q, opened, ?_⟩
  exact
    { inv
      silent := quiet rfl
      inside := by rw [huge.size]; decide
      table := by
        rw [file, row, Nat.zero_div, Nat.zero_div, huge.l1]
        decide
      empty := by
        rw [file]
        exact huge.l2 _ _
      last := by
        rw [file, Metadata.nextCluster, clustersFor, huge.clusterSize,
          show (metadataOf g hugeFile).fileSize = _ from hugeFile_size]
        decide
      block := by
        rw [file, huge.blockEntries, huge.table]
        decide
      high := by rw [huge.clusterSize]; decide
      fits := by rw [huge.clusterSize]; decide }

end Huge

end Gokvm.Disk
