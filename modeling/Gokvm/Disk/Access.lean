import Gokvm.Disk.Mapping

/-! # Guest reads and writes of an open image

`ReadAt` returns the guest's bytes and changes none of them; `WriteAt` lays its
bytes over them, chunk by chunk, as long as every chunk can be made writable.
-/

namespace Gokvm.Disk

open Lib List Nat
open Prog

variable {g : Geometry} {q q' : Image}

variable {pos n chunk off : Nat} {buf : Bytes}

theorem HasL2.writable {m : Nat} {q'' : Image} (first : HasL2 g q (g.row pos) m q')
    (second : Writable g q' pos n q'') : Writable g q pos n q'' :=
  { second with
    keeps := first.keeps.trans second.keeps
    rows := fun i other => (second.rows i other).trans (first.rows i other)
    entries := fun i j other => by rw [second.entries i j other, first.l2] }

/-- Guest bytes of one cluster are zeros or lie next to each other in the file. -/
theorem slice_guest {f : Store} (inside : pos % g.clusterSize + chunk ≤ g.clusterSize) :
    (ReadsZero (entryAt g f pos) → slice (guestByte g f) pos chunk = replicate chunk 0) ∧
    (¬ReadsZero (entryAt g f pos) → slice (guestByte g f) pos chunk =
      f.read (clusterOffset (entryAt g f pos) + pos % g.clusterSize) chunk) := by
  have split := div_add_mod pos g.clusterSize
  rw [mul_comm] at split
  have cluster : ∀ x, x < chunk → (pos + x) / g.clusterSize = pos / g.clusterSize := by
    intro x small
    exact g.cluster_div (by omega) (by omega)
  have entry : ∀ x, x < chunk → entryAt g f (pos + x) = entryAt g f pos := by
    intro x small
    rw [entryAt, entryAt, cluster x small]
  have offset : ∀ x, x < chunk → (pos + x) % g.clusterSize = pos % g.clusterSize + x := by
    intro x small
    have again := div_add_mod (pos + x) g.clusterSize
    rw [cluster x small, mul_comm] at again
    omega
  constructor
  · intro zero
    rw [slice, eq_replicate_iff]
    refine ⟨by simp, ?_⟩
    intro byte member
    obtain ⟨x, range, rfl⟩ := mem_map.mp member
    exact guestByte_zero (by rwa [entry x (mem_range.mp range)])
  · intro mapped
    apply map_congr_left
    intro x range
    have small := mem_range.mp range
    rw [guestByte_mapped (by rwa [entry x small]), entry x small, offset x small, add_assoc]

section

variable (inv : Inv g q)
include inv

theorem Inv.entry_ok (pos : Nat) :
    validateL2Entry q.version (entryAt g q.file pos) = .ok () := by
  rw [inv.version]
  exact (inv.valid.entry _ _).1

theorem chunkLength_eq (pos left : Nat) :
    chunkLength q pos left = min left (g.clusterSize - pos % g.clusterSize) := by
  rw [chunkLength, inv.clusterSize, g.and_mask]

variable (inside : pos < g.size)
include inside

theorem ensureWritableCluster_spec (budget : Budget g (metadataOf g q.file)
      (n + missingData g q.file (pos / g.clusterSize) + missingL2 g q.file (g.row pos))) :
    Wp (ensureWritableCluster pos) q (fun r q' =>
      match r with
      | .ok off => off = clusterOffset (entryAt g q'.file pos) + pos % g.clusterSize ∧
          Writable g q pos n q'
      | .error err => Failed g q err q') := by
  simp only [ensureWritableCluster, wp_query_bind, inv.tableIndexes inside]
  refine (ensureL2Table_spec inv (g.row_lt inside) budget).bind ?_ (fun _ _ failed => failed)
  rintro _ q1 ⟨rfl, first⟩
  have inv1 := first.keeps.inv
  have entry : item (l2List g q.file (g.row pos)) (g.column pos) = .ok (entryAt g q1.file pos) := by
    rw [entryAt_eq, first.l2]
    exact item_map_range _ (g.column_lt pos)
  have enough := first.budget
  have missing : missingData g q.file (pos / g.clusterSize) =
      if clusterOffset (entryAt g q1.file pos) = 0 then 1 else 0 := by
    rw [entryAt_eq, first.l2]
    rfl
  simp only [entry, inv1.entry_ok pos, inv1.clusterSize, g.and_mask, wp_query_bind, wp_read_bind]
  rw [missing] at enough
  by_cases used : clusterOffset (entryAt g q1.file pos) = 0
  · -- Nothing is mapped here: a new cluster.
    simp only [used, not_true, and_false, if_false, ne_eq]
    rw [if_pos used] at enough
    refine (allocateCluster_spec inv1 enough).bind ?_ ?_
    · rintro _ q2 ⟨k, rfl, new⟩
      have l2 : l2At g q2.file = l2At g q1.file := new.l2
      have table : l1At g q2.file (g.row pos) ≠ 0 := by
        rw [new.l1]
        exact first.table
      have offset : k * g.clusterSize ≠ 0 :=
        mul_ne_zero new.new.nonzero (ne_of_gt g.clusterSize_pos)
      have zero : ReadsZero (l2At g q2.file (g.row pos) (g.column pos)) := by
        rw [l2]
        exact .inr used
      refine (updateL2Entry_spec new.keeps.inv table (g.column_lt pos) zero new.new.placed offset
        new.new.below (.inr ?_) ?_).attempt ?_ ?_
      · rw [g.mul_clusterSize_div]
        exact ⟨new.new.fresh, new.new.one⟩
      · rw [g.mul_clusterSize_div]
        exact new.new.zeroed
      · rintro _ q3 ⟨kept, metadata⟩
        obtain ⟨writable, target⟩ := Writable.of_entry kept new.new.placed.1 offset new.new.below
          table metadata new.budget
        simp only [wp_pure]
        refine ⟨by rw [target], first.writable ?_⟩
        exact
          { writable with
            keeps := new.keeps.trans kept
            rows := fun i other => by rw [writable.rows i other, new.l1]
            entries := fun i j other => by rw [writable.entries i j other, new.l2] }
      · rintro err q3 ⟨noisy, outcome⟩
        have before := first.keeps.trans new.keeps
        refine (rollbackNewCluster_spec err (fun silent => noisy (before.quiet silent)) before new.new
          outcome).mono ?_
        intro r q4 post
        cases r with
        | ok a => exact post.elim
        | error e => exact post
    · intro err q2 failed
      exact first.keeps.failed failed
  · have present : entryAt g q1.file pos ≠ 0 := by
      intro none
      exact used (by rw [none, clusterOffset_zero])
    simp only [used, present, not_false_eq_true, and_true, if_true, ne_eq]
    rw [if_neg used] at enough
    refine (prepareMappedCluster_spec inv1 used enough).bind ?_ ?_
    · rintro _ q2 ⟨writable, same⟩
      simp only [wp_pure]
      exact ⟨by rw [same], first.writable writable⟩
    · intro err q2 failed
      exact first.keeps.failed failed

theorem l2Table_spec :
    Wp (l2Table pos) q (fun r q' => Read g q q' ∧
      match r with
      | .ok (none, j) => l1At g q.file (g.row pos) = 0 ∧ j = g.column pos
      | .ok (some table, j) => table = l2List g q.file (g.row pos) ∧ j = g.column pos
      | .error _ => q.replies ≠ []) := by
  have length : ¬(g.row pos ≥ q.l1.length) := by
    rw [inv.l1, length_map, length_range]
    exact Nat.not_le_of_lt (g.row_lt inside)
  have word := inv.l1_word (g.row_lt inside)
  simp only [l2Table, wp_query_bind, inv.tableIndexes inside, length, if_false, word]
  by_cases used : l1At g q.file (g.row pos) = 0
  · simp only [used, clusterOffset_zero, if_true, wp_pure]
    exact ⟨Read.refl inv, trivial, trivial⟩
  · have nonzero : clusterOffset (l1At g q.file (g.row pos)) ≠ 0 :=
      (inv.valid.l2Table _ used).2.2.1
    simp only [nonzero, if_false]
    refine (loadL2_spec inv used).bind ?_ (fun _ _ failed => failed)
    rintro table q1 ⟨read, same⟩
    exact ⟨read, same, rfl⟩

/-- Where a guest byte lies in the file, if anywhere. -/
theorem hostOffset_spec :
    Wp (hostOffset pos) q (fun r q' => Read g q q' ∧
      match r with
      | .ok none => ReadsZero (entryAt g q.file pos)
      | .ok (some off) => ¬ReadsZero (entryAt g q.file pos) ∧
          off = clusterOffset (entryAt g q.file pos) + pos % g.clusterSize
      | .error _ => q.replies ≠ []) := by
  refine (l2Table_spec inv inside).bind ?_ (fun _ _ failed => failed)
  rintro ⟨table, j⟩ q1 ⟨read, found⟩
  cases table with
  | none =>
    obtain ⟨none, rfl⟩ := found
    refine ⟨read, ?_⟩
    show ReadsZero (entryAt g q.file pos)
    rw [entryAt_eq, show l2At g q.file (g.row pos) (g.column pos) = 0 from
      inv.valid.l2_none none _]
    exact ReadsZero.of_zero
  | some table =>
    obtain ⟨rfl, rfl⟩ := found
    have inv1 := read.keeps.inv
    have entry : item (l2List g q.file (g.row pos)) (g.column pos) =
        .ok (entryAt g q.file pos) := item_map_range _ (g.column_lt pos)
    have valid := inv1.entry_ok pos
    rw [read.file] at valid
    simp only [wp_query_bind, entry]
    by_cases none : entryAt g q.file pos = 0
    · simp only [none, if_true, wp_pure]
      exact ⟨read, ReadsZero.of_zero⟩
    · simp only [none, if_false, wp_query_bind, valid]
      by_cases flag : entryAt g q.file pos &&& qcow2OFlagZero = 0
      · simp only [flag, not_true, if_false, ne_eq]
        by_cases used : clusterOffset (entryAt g q.file pos) = 0
        · simp only [used, if_true, wp_pure]
          exact ⟨read, .inr used⟩
        · simp only [used, if_false, wp_read_bind, wp_pure, inv1.clusterSize, g.and_mask]
          refine ⟨read, ?_, trivial⟩
          rintro (zero | missing)
          · exact zero flag
          · exact used missing
      · simp only [flag, not_false_eq_true, if_true, ne_eq, wp_pure]
        exact ⟨read, .inl flag⟩

/-! ## Reads -/

theorem readChunk_spec (within : pos % g.clusterSize + chunk ≤ g.clusterSize) :
    Wp (readChunk pos chunk) q (fun r q' => Read g q q' ∧
      match r with
      | .ok bytes => bytes = slice (guestByte g q.file) pos chunk
      | .error _ => q.replies ≠ []) := by
  obtain ⟨zeros, mapped⟩ := slice_guest (f := q.file) within
  refine (hostOffset_spec inv inside).bind ?_ (fun _ _ failed => failed)
  rintro found q1 ⟨read, post⟩
  cases found with
  | none => exact ⟨read, (zeros post).symm⟩
  | some off =>
    obtain ⟨used, rfl⟩ := post
    refine (fileReadAt_spec _ _ q1).mono ?_
    rintro r q2 ⟨heard, post⟩
    refine ⟨read.trans (heard.read read.keeps.inv), ?_⟩
    rw [read.file] at post
    cases r with
    | ok bytes => exact post.trans (mapped used).symm
    | error err =>
      rcases post with noisy | outside
      · exact fun silent => noisy (read.keeps.quiet silent)
      · have place : Placed g (metadataOf g q.file) (clusterOffset (entryAt g q.file pos)) :=
          (inv.valid.entry _ _).2 (fun none => used (.inr none))
        have room : _ ≤ q.file.size := place.2
        omega

end

theorem readLoop_spec {remaining : Nat} (fits : off + remaining ≤ g.size) :
    ∀ (fuel : Nat) (q : Image) (out : Bytes), Inv g q → remaining ≤ out.length + fuel →
      out.length ≤ remaining → out = slice (guestByte g q.file) off out.length →
      Wp (readLoop off remaining fuel out) q (fun r q' => Read g q q' ∧
        ∃ out' err, r = .ok (out', err) ∧
          (q.replies = [] → out' = slice (guestByte g q.file) off remaining ∧ err = none)) := by
  intro fuel
  induction fuel with
  | zero =>
    intro q out inv enough short sofar
    have full : out.length = remaining := by omega
    rw [full] at sofar
    exact ⟨Read.refl inv, out, none, rfl, fun _ => ⟨sofar, rfl⟩⟩
  | succ fuel ih =>
    intro q out inv enough short sofar
    unfold readLoop
    by_cases more : out.length < remaining
    · simp only [more, if_true, wp_read_bind, chunkLength_eq inv]
      have positive := g.clusterSize_pos
      have offset := mod_lt (off + out.length) positive
      generalize size : min (remaining - out.length)
        (g.clusterSize - (off + out.length) % g.clusterSize) = chunk
      refine (readChunk_spec inv (by omega) (by omega)).attempt ?_ ?_
      · rintro _ q1 ⟨read, rfl⟩
        have next := ih q1 (out ++ slice (guestByte g q.file) (off + out.length) chunk)
          read.keeps.inv (by rw [length_append, slice_length]; omega)
          (by rw [length_append, slice_length]; omega) ?_
        · refine next.mono ?_
          rintro r q2 ⟨again, out', err, result, value⟩
          refine ⟨read.trans again, out', err, result, ?_⟩
          intro silent
          rw [read.file] at value
          exact value (read.keeps.quiet silent)
        · rw [read.file, length_append, slice_length, slice_append, ← sofar]
      · rintro err q1 ⟨read, noisy⟩
        exact ⟨read, out, some err, rfl, fun silent => absurd silent noisy⟩
    · simp only [more, if_false, wp_pure]
      have full : out.length = remaining := by omega
      rw [full] at sofar
      exact ⟨Read.refl inv, out, none, rfl, fun _ => ⟨sofar, rfl⟩⟩

/-! ## Writes -/

/-- The bytes `buf` were written at `pos`; see `Writable` for the tables. -/
structure Wrote (g : Geometry) (q : Image) (pos n : Nat) (buf : Bytes) (q' : Image) : Prop where
  inv : Inv g q'
  guest : guestByte g q'.file = overlay (guestByte g q.file) pos buf
  quiet : q.replies = [] → q'.replies = []
  table : l1At g q'.file (g.row pos) ≠ 0
  rows : ∀ i, i ≠ g.row pos → l1At g q'.file i = l1At g q.file i
  entries : ∀ i j, ¬(i = g.row pos ∧ j = g.column pos) → l2At g q'.file i j = l2At g q.file i j
  budget : Budget g (metadataOf g q'.file) n

theorem Writable.wrote {q'' : Image} (writable : Writable g q pos n q')
    (within : pos % g.clusterSize + buf.length ≤ g.clusterSize) (heard : Heard { q' with
      file := q'.file.write (clusterOffset (entryAt g q'.file pos) + pos % g.clusterSize) buf } q'') :
    Wrote g q pos n buf q'' := by
  have used : clusterOffset (entryAt g q'.file pos) ≠ 0 := fun none => writable.mapped (.inr none)
  have start : clusterOffset (entryAt g q'.file pos) ≤
      clusterOffset (entryAt g q'.file pos) + pos % g.clusterSize := le_add_right _ _
  obtain ⟨inv, metadata, _⟩ := writable.keeps.inv.write_data buf used start
    (show _ ≤ clusterOffset (entryAt g q'.file pos) + g.clusterSize by omega)
  have file : q''.file = q'.file.write (clusterOffset (entryAt g q'.file pos) + pos % g.clusterSize)
    buf := heard.file
  have kept := heard.keeps inv
  rw [← file] at metadata
  have l1 : l1At g q''.file = l1At g q'.file := congrArg Metadata.l1 metadata
  have l2 : l2At g q''.file = l2At g q'.file := congrArg Metadata.l2 metadata
  exact
    { inv := kept.inv
      guest := by
        rw [file, guestByte_write writable.keeps.inv.valid writable.mapped within, writable.keeps.guest]
      quiet := fun silent => kept.quiet (writable.keeps.quiet silent)
      table := by rw [l1]; exact writable.table
      rows := fun i other => by rw [l1, writable.rows i other]
      entries := fun i j other => by rw [l2, writable.entries i j other]
      budget := by rw [metadata]; exact writable.budget }

/-- The write of a data chunk failed after some of its bytes. -/
def Torn (g : Geometry) (q : Image) (pos : Nat) (buf : Bytes) (err : GoError) (q' : Image) : Prop :=
  q.replies ≠ [] ∧ Inv g q' ∧ (∃ off, err = .host .write off) ∧
    ∃ m, guestByte g q'.file = overlay (guestByte g q.file) pos (buf.take m)

theorem writeChunk_spec (inv : Inv g q) (inside : pos < g.size)
    (within : pos % g.clusterSize + buf.length ≤ g.clusterSize) (budget : Budget g (metadataOf g q.file)
      (n + missingData g q.file (pos / g.clusterSize) + missingL2 g q.file (g.row pos))) :
    Wp (writeChunk pos buf) q (fun r q' =>
      match r with
      | .ok _ => Wrote g q pos n buf q'
      | .error err => Failed g q err q' ∨ Torn g q pos buf err q') := by
  refine (ensureWritableCluster_spec inv inside budget).bind ?_ ?_
  · rintro _ q1 ⟨rfl, writable⟩
    refine (fileWriteAt_spec _ _ q1).mono ?_
    intro r q2 post
    cases r with
    | ok _ => exact writable.wrote within post
    | error err =>
      obtain ⟨noisy, cause, m, heard⟩ := post
      have short := length_take_le' m buf
      have wrote := writable.wrote (by omega) heard
      refine .inr ⟨fun silent => noisy (writable.keeps.quiet silent), wrote.inv, ⟨_, cause⟩, m, ?_⟩
      exact wrote.guest
  · intro err q1 failed
    exact .inl failed

/-! ### Clusters a request appends -/

/-- Clusters a write of `len` bytes at `off` appends, refcount blocks aside: missing data clusters
    and L2 tables. -/
def demand (g : Geometry) (f : Store) (off len : Nat) : Nat :=
  if len = 0 then 0
  else
    (∑ c ∈ Finset.Ico (off / g.clusterSize) ((off + len - 1) / g.clusterSize + 1),
      missingData g f c) +
    ∑ i ∈ Finset.Ico (g.row off) (g.row (off + len - 1) + 1), missingL2 g f i

/-- What is left of the demand behind the first cluster and the first row. -/
def laterDemand (g : Geometry) (f : Store) (off len : Nat) : Nat :=
  (∑ c ∈ Finset.Ico (off / g.clusterSize + 1) ((off + len - 1) / g.clusterSize + 1),
    missingData g f c) +
  ∑ i ∈ Finset.Ico (g.row off + 1) (g.row (off + len - 1) + 1), missingL2 g f i

theorem Geometry.row_mono (g : Geometry) {a b : Nat} (le : a ≤ b) : g.row a ≤ g.row b :=
  Nat.div_le_div_right (Nat.div_le_div_right le)

theorem demand_split {f : Store} {len : Nat} (more : 0 < len) :
    demand g f off len = laterDemand g f off len + missingData g f (off / g.clusterSize) +
      missingL2 g f (g.row off) := by
  have clusters : off / g.clusterSize < (off + len - 1) / g.clusterSize + 1 :=
    Nat.lt_succ_of_le (Nat.div_le_div_right (by omega))
  have rows : g.row off < g.row (off + len - 1) + 1 := Nat.lt_succ_of_le (g.row_mono (by omega))
  rw [demand, if_neg (by omega), Finset.sum_eq_sum_Ico_succ_bot clusters,
    Finset.sum_eq_sum_Ico_succ_bot rows, laterDemand]
  omega

/-- The part of a request behind its first chunk needs no more than was left. -/
theorem Wrote.demand_le {len : Nat} (wrote : Wrote g q pos n buf q')
    (size : chunk = min len (g.clusterSize - pos % g.clusterSize)) :
    demand g q'.file (pos + chunk) (len - chunk) ≤ laterDemand g q.file pos len := by
  by_cases finished : len - chunk = 0
  · rw [demand, if_pos finished]
    exact zero_le _
  have positive := g.clusterSize_pos
  have offset := mod_lt pos positive
  have split := div_add_mod pos g.clusterSize
  rw [mul_comm] at split
  have next : pos + chunk = (pos / g.clusterSize + 1) * g.clusterSize := by
    rw [add_mul]
    omega
  have last : pos + chunk + (len - chunk) - 1 = pos + len - 1 := by omega
  have cluster : (pos + chunk) / g.clusterSize = pos / g.clusterSize + 1 := by
    rw [next, g.mul_clusterSize_div]
  rw [demand, if_neg finished, last, cluster, laterDemand]
  apply Nat.add_le_add
  · -- Entries of later clusters are as before.
    apply Finset.sum_le_sum
    intro c member
    have later := (Finset.mem_Ico.mp member).1
    rw [missingData, missingData, wrote.entries]
    rintro ⟨row, column⟩
    have same := g.cluster_position row column
    omega
  · have firstRow : g.row pos ≤ g.row (pos + chunk) := g.row_mono (by omega)
    have lastRow : g.row pos < g.row (pos + len - 1) + 1 := Nat.lt_succ_of_le (g.row_mono (by omega))
    calc
      ∑ i ∈ Finset.Ico (g.row (pos + chunk)) (g.row (pos + len - 1) + 1), missingL2 g q'.file i
          ≤ ∑ i ∈ Finset.Ico (g.row pos) (g.row (pos + len - 1) + 1), missingL2 g q'.file i :=
        Finset.sum_le_sum_of_subset (Finset.Ico_subset_Ico_left firstRow)
      _ = ∑ i ∈ Finset.Ico (g.row pos + 1) (g.row (pos + len - 1) + 1), missingL2 g q'.file i := by
        rw [Finset.sum_eq_sum_Ico_succ_bot lastRow, missingL2, if_neg wrote.table, zero_add]
      _ ≤ ∑ i ∈ Finset.Ico (g.row pos + 1) (g.row (pos + len - 1) + 1), missingL2 g q.file i := by
        apply Finset.sum_le_sum
        intro i member
        have later := (Finset.mem_Ico.mp member).1
        rw [missingL2, missingL2, wrote.rows i (by omega)]

/-! ### Whole requests -/

/-- The image after a write that stopped with an error after `n` bytes. `v` is what the guest read
    before. -/
def Stopped (g : Geometry) (q : Image) (v : Nat → UInt8) (b : Bytes) (off n : Nat) (err : GoError)
    (q' : Image) : Prop :=
  (q.replies ≠ [] ∧ q'.writeFault ≠ none) ∨
  (Inv g q' ∧ (q.replies = [] → q'.replies = [] ∧ CapacityError err) ∧
    ∃ m, guestByte g q'.file = overlay v off (b.take (n + m)) ∧
      m ≤ g.clusterSize - (off + n) % g.clusterSize ∧
      (m ≠ 0 → ∃ place, err = .host .write place))

theorem take_part (b : Bytes) (done m : Nat) :
    b.take done ++ (part b done m) = b.take (done + m) := by
  rw [part, take_add]

theorem writeLoop_spec {b : Bytes} {v : Nat → UInt8} (fits : off + b.length ≤ g.size) :
    ∀ (fuel : Nat) (q : Image) (done : Nat), Inv g q → b.length ≤ done + fuel → done ≤ b.length →
      guestByte g q.file = overlay v off (b.take done) →
      Budget g (metadataOf g q.file) (demand g q.file (off + done) (b.length - done)) →
      Wp (writeLoop b off fuel done) q (fun r q' =>
        ∃ n err, r = .ok (n, err) ∧ n ≤ b.length ∧
          match err with
          | none => n = b.length ∧ Inv g q' ∧ guestByte g q'.file = overlay v off b ∧
              (q.replies = [] → q'.replies = [])
          | some e => n < b.length ∧ Stopped g q v b off n e q') := by
  intro fuel
  induction fuel with
  | zero =>
    intro q done inv enough short guest _
    have full : done = b.length := by omega
    subst full
    rw [take_length] at guest
    exact ⟨b.length, none, rfl, le_refl _, rfl, inv, guest, id⟩
  | succ fuel ih =>
    intro q done inv enough short guest budget
    unfold writeLoop
    by_cases more : done < b.length
    · simp only [more, if_true, wp_read_bind, chunkLength_eq inv]
      have positive := g.clusterSize_pos
      have offset := mod_lt (off + done) positive
      generalize size : min (b.length - done) (g.clusterSize - (off + done) % g.clusterSize) = chunk
      have length : (part b done chunk).length = chunk := part_length (by omega)
      rw [demand_split (by omega)] at budget
      refine (writeChunk_spec inv (by omega) (by omega) budget).attempt ?_ ?_
      · rintro _ q1 wrote
        have guest1 : guestByte g q1.file = overlay v off (b.take (done + chunk)) := by
          have before : (b.take done).length = done := length_take_of_le short
          have laid := overlay_append v off (b.take done) (part b done chunk)
          rw [before] at laid
          rw [wrote.guest, guest, laid, take_part]
        have later := wrote.demand_le size.symm
        have budget1 := wrote.budget.mono later
        rw [show b.length - done - chunk = b.length - (done + chunk) by omega,
          show off + done + chunk = off + (done + chunk) by omega] at budget1
        refine (ih q1 (done + chunk) wrote.inv (by omega) (by omega) guest1 budget1).mono ?_
        rintro r q2 ⟨n, err, result, bound, post⟩
        refine ⟨n, err, result, bound, ?_⟩
        cases err with
        | none =>
          obtain ⟨all, inv2, guest2, quiet⟩ := post
          exact ⟨all, inv2, guest2, fun silent => quiet (wrote.quiet silent)⟩
        | some e =>
          obtain ⟨less, stopped⟩ := post
          refine ⟨less, ?_⟩
          rcases stopped with ⟨noisy, fault⟩ | ⟨inv2, capacity, rest⟩
          · exact .inl ⟨fun silent => noisy (wrote.quiet silent), fault⟩
          · exact .inr ⟨inv2, fun silent => capacity (wrote.quiet silent), rest⟩
      · rintro err q1 failed
        simp only [wp_pure]
        refine ⟨done, some err, rfl, short, more, ?_⟩
        rcases failed with (broken | ⟨kept, capacity⟩) | ⟨noisy, inv1, cause, m, torn⟩
        · exact .inl broken
        · refine .inr ⟨kept.inv, fun silent => ⟨kept.quiet silent, capacity silent⟩, 0, ?_,
            zero_le _, fun none => absurd rfl none⟩
          rw [kept.guest, guest, add_zero]
        · refine .inr ⟨inv1, fun silent => absurd silent noisy, min m chunk, ?_, by omega,
            fun _ => cause⟩
          have before : (b.take done).length = done := length_take_of_le short
          have laid := overlay_append v off (b.take done) ((part b done chunk).take m)
          have piece : (part b done chunk).take m = part b done (min m chunk) := by
            rw [part, part, take_take]
          rw [before, piece, take_part] at laid
          rw [torn, guest, piece, laid]
    · simp only [more, if_false, wp_pure]
      have full : done = b.length := by omega
      subst full
      rw [take_length] at guest
      exact ⟨b.length, none, rfl, le_refl _, rfl, inv, guest, id⟩

def guestDisk (g : Geometry) (f : Store) : FlatDisk where
  size := g.size
  byte := guestByte g f

theorem readAt_spec (inv : Inv g q) (n : Nat) (off : Int) :
    Wp (readAt n off) q (fun r q' => Read g q q' ∧
      ∃ out err, r = .ok (out, err) ∧
        (q.replies = [] → (out, err) = (guestDisk g q.file).readAt n off)) := by
  have size : q.size = (guestDisk g q.file).size := inv.size
  simp only [readAt, wp_read_bind, FlatDisk.readAt, size]
  by_cases empty : n = 0
  · simp only [empty, if_true, wp_pure]
    exact ⟨Read.refl inv, [], none, rfl, fun _ => rfl⟩
  simp only [empty, if_false]
  by_cases negative : off < 0
  · simp only [negative, if_true, wp_pure]
    exact ⟨Read.refl inv, [], _, rfl, fun _ => rfl⟩
  simp only [negative, if_false]
  by_cases past : off.toNat ≥ (guestDisk g q.file).size
  · simp only [past, if_true, wp_pure]
    exact ⟨Read.refl inv, [], _, rfl, fun _ => rfl⟩
  simp only [past, if_false]
  have fits : off.toNat + min n ((guestDisk g q.file).size - off.toNat) ≤ g.size := by
    have : (guestDisk g q.file).size = g.size := rfl
    omega
  refine (readLoop_spec fits _ q [] inv (by simp) (by simp) rfl).bind ?_ ?_
  · rintro _ q1 ⟨read, out, err, result, value⟩
    injection result with result
    subst result
    cases err with
    | some e =>
      simp only [wp_pure]
      refine ⟨read, out, some e, rfl, fun silent => ?_⟩
      cases (value silent).2
    | none =>
      by_cases short : out.length < n
      · simp only [short, if_true, wp_pure]
        refine ⟨read, out, some .eof, rfl, fun silent => ?_⟩
        rw [(value silent).1, slice_length] at short
        exact Prod.ext (value silent).1 (if_pos short).symm
      · simp only [short, if_false, wp_pure]
        refine ⟨read, out, none, rfl, fun silent => ?_⟩
        rw [(value silent).1, slice_length] at short
        exact Prod.ext (value silent).1 (if_neg short).symm
  · rintro err q1 ⟨_, _, _, bad, _⟩
    cases bad

/-- How a write request left an image that was sound. -/
structure Served (g : Geometry) (q : Image) (b : Bytes) (off : Int) (n : Nat) (err : Option GoError)
    (q' : Image) : Prop where
  inv : Inv g q'
  flat : q.replies = [] → q'.replies = [] ∧
    (guestDisk g q.file).WriteAt b off n err (guestDisk g q'.file)
  stored : ∃ m, guestByte g q'.file = overlay (guestByte g q.file) off.toNat (b.take (n + m)) ∧
    m ≤ g.clusterSize - (off.toNat + n) % g.clusterSize ∧
    (m ≠ 0 → ∃ place, err = some (.host .write place))

theorem writeAt_spec (inv : Inv g q) (b : Bytes) (off : Int)
    (budget : 0 ≤ off → off.toNat + b.length ≤ g.size →
      Budget g (metadataOf g q.file) (demand g q.file off.toNat b.length)) :
    Wp (writeAt b off) q (fun r q' => ∃ n err, r = .ok (n, err) ∧ n ≤ b.length ∧
      ((q.replies ≠ [] ∧ q'.writeFault ≠ none ∧ err ≠ none) ∨ Served g q b off n err q')) := by
  have refused : ∀ {err : Option GoError},
      (guestDisk g q.file).WriteAt b off 0 err (guestDisk g q.file) →
      Wp (pure (0, err) : Op (Nat × Option GoError)) q (fun r q' => ∃ n err, r = .ok (n, err) ∧
        n ≤ b.length ∧
        ((q.replies ≠ [] ∧ q'.writeFault ≠ none ∧ err ≠ none) ∨ Served g q b off n err q')) := by
    intro err written
    refine ⟨0, err, rfl, zero_le _, .inr ⟨inv, fun silent => ⟨silent, written⟩, 0, ?_, ?_, ?_⟩⟩
    · simp [pure]
    · exact zero_le _
    · exact fun none => absurd rfl none
  simp only [writeAt, wp_read_bind, inv.healthy, inv.size]
  by_cases empty : b.length = 0
  · simp only [empty, if_true]
    exact empty ▸ refused (.empty (length_eq_zero_iff.mp empty))
  have something : b ≠ [] := fun nil => empty (by rw [nil]; rfl)
  simp only [empty, if_false]
  by_cases negative : off < 0
  · simp only [negative, if_true]
    exact refused (.negative something negative)
  simp only [negative, if_false]
  by_cases outside : off.toNat ≥ g.size ∨ b.length > g.size - off.toNat
  · simp only [outside, if_true]
    exact refused (.outside something (by omega) (by simp only [guestDisk]; omega))
  simp only [outside, if_false]
  have inside : off.toNat + b.length ≤ g.size := by omega
  have enough := budget (by omega) inside
  refine (writeLoop_spec (v := guestByte g q.file) inside b.length q 0 inv (by omega)
    (zero_le _) (by simp) enough).mono ?_
  rintro r q1 ⟨n, err, result, bound, post⟩
  refine ⟨n, err, result, bound, ?_⟩
  cases err with
  | none =>
    obtain ⟨rfl, inv1, guest, quiet⟩ := post
    refine .inr ⟨inv1, fun silent => ⟨quiet silent, ?_⟩, 0, by rw [guest, add_zero,
      take_length], zero_le _, fun none => absurd rfl none⟩
    have done : FlatDisk.WriteAt (guestDisk g q.file) b off _ _ _ := .done (by omega) inside
    rwa [FlatDisk.write, show (guestDisk g q.file).byte = guestByte g q.file from rfl, ← guest] at done
  | some e =>
    obtain ⟨less, stopped⟩ := post
    rcases stopped with ⟨noisy, fault⟩ | ⟨inv1, capacity, m, guest, bound', cause⟩
    · exact .inl ⟨noisy, fault, by simp⟩
    · refine .inr ⟨inv1, fun silent => ⟨(capacity silent).1, ?_⟩, m, guest, bound', ?_⟩
      · -- A silent host tears no write.
        have whole : m = 0 := by
          by_contra torn
          obtain ⟨place, host⟩ := cause torn
          rcases (capacity silent).2 with text | text <;> rw [host] at text <;> cases text
        rw [whole, add_zero] at guest
        have full : FlatDisk.WriteAt (guestDisk g q.file) b off _ _ _ :=
          .full (by omega) inside less (capacity silent).2
        rwa [FlatDisk.write, show (guestDisk g q.file).byte = guestByte g q.file from rfl,
          ← guest] at full
      · intro torn
        obtain ⟨place, host⟩ := cause torn
        exact ⟨place, by rw [host]⟩

end Gokvm.Disk
