import Gokvm.Disk.Owners

/-! # What the layout validation accepts

`validateLayout` succeeds on a silent host exactly when the layout of the file is valid and its
ownership bitmap fits in memory. Each step says which clusters it claims or checks; the list of
all owners ties them to `Valid`.
-/

namespace Gokvm.Disk

open Lib List
open Prog

variable {g : Geometry} {q q' : Image} {owners : ClusterOwners} {clusters : List Nat}

/-! ## Clusters of each kind of owner -/

/-- Clusters that `length` bytes from the aligned `offset` on take. -/
def clusterRange (g : Geometry) (offset length : Nat) : List Nat :=
  range' (offset / g.clusterSize) ((length + g.clusterSize - 1) / g.clusterSize)

def blockClusters (g : Geometry) (entry : Nat) : List Nat :=
  if entry = 0 then [] else [entry / g.clusterSize]

def tableClusters (g : Geometry) (entry : Nat) : List Nat :=
  if entry = 0 then [] else [clusterOffset entry / g.clusterSize]

def dataClusters (g : Geometry) (entry : Nat) : List Nat :=
  if clusterOffset entry = 0 then [] else [clusterOffset entry / g.clusterSize]

theorem clusterRange_one (g : Geometry) (offset : Nat) :
    clusterRange g offset g.clusterSize = [offset / g.clusterSize] := by
  have one : (g.clusterSize + g.clusterSize - 1) / g.clusterSize = 1 := by
    have positive := g.clusterSize_pos
    rw [Nat.div_eq_iff positive]
    omega
  rw [clusterRange, one]
  rfl

/-- Entries of the L2 table that an L1 entry points to. -/
def l2Words (g : Geometry) (f : Store) (entry : Nat) : List Nat :=
  (range g.l2Entries).map (fun j => beNat (f.read (clusterOffset entry + j * 8) 8))

/-! ## Claims of the validation -/

section

variable (holds : Holds owners clusters)
include holds

theorem fileRange_claim (fileSize offset length : Nat) (kind : String) :
    Claims clusters (clusterRange g offset length) (offset + length ≤ fileSize)
      (do
        qcow2FileRange fileSize offset length kind
        claim owners offset length g.clusterSize kind) := by
  cases range : qcow2FileRange fileSize offset length kind with
  | error err =>
    rintro ⟨inside, _⟩
    rw [qcow2FileRange_ok.mpr inside] at range
    cases range
  | ok _ =>
    have inside := qcow2FileRange_ok.mp range
    have claimed := claim_spec holds offset length g.clusterSize kind
    simp only [bind, Except.bind]
    cases result : claim owners offset length g.clusterSize kind with
    | error err =>
      rw [result] at claimed
      exact fun both => claimed ⟨trivial, both.2⟩
    | ok owners' =>
      rw [result] at claimed
      exact ⟨inside, claimed.2⟩

theorem claimRegion_spec (size : q.clusterSize = g.clusterSize) (fileSize : Nat)
    (region : Nat × Nat × String) :
    Claims clusters (clusterRange g region.1 region.2.1) (region.1 + region.2.1 ≤ fileSize)
      (claimRegion q fileSize owners region) := by
  rw [claimRegion, size]
  exact fileRange_claim holds fileSize _ _ _

theorem Claims.skip {good : Prop} (fine : good) :
    Claims clusters [] good (.ok owners) := by
  refine ⟨fine, ?_⟩
  rw [append_nil]
  exact holds

theorem claimRefcountBlock_spec (size : q.clusterSize = g.clusterSize) (f : Store) (entry : Nat) :
    Claims clusters (blockClusters g entry) (entry ≠ 0 → Placed g (metadataOf g f) entry)
      (claimRefcountBlock q f.size owners entry) := by
  unfold claimRefcountBlock blockClusters
  by_cases zero : entry = 0
  · simp only [zero, if_true]
    exact Claims.skip holds (fun used => absurd rfl used)
  · rw [if_neg zero, if_neg zero, size, reservedRefcount_eq]
    by_cases aligned : entry % g.clusterSize = 0
    · have region := fileRange_claim (g := g) holds f.size entry g.clusterSize "refcount block"
      rw [if_neg (by simp [aligned, g.aligned_512 aligned]), ← clusterRange_one]
      have same : (entry ≠ 0 → Placed g (metadataOf g f) entry) ↔ entry + g.clusterSize ≤ f.size :=
        ⟨fun placed => (placed zero).2, fun inside _ => ⟨aligned, inside⟩⟩
      rw [same]
      exact region
    · rw [if_pos (.inr aligned)]
      exact fun both => aligned (both.1 zero).1

theorem claimL2Table_spec (size : q.clusterSize = g.clusterSize) (f : Store) (entry : Nat) :
    Claims clusters (tableClusters g entry) (entry ≠ 0 → L1EntryOk g (metadataOf g f) entry)
      (claimL2Table q f.size owners entry) := by
  unfold claimL2Table tableClusters
  by_cases zero : entry = 0
  · simp only [zero, if_true]
    exact Claims.skip holds (fun used => absurd rfl used)
  · rw [if_neg zero, if_neg zero, size]
    by_cases reserved : entry &&& not64 (qcow2OffsetMask ||| qcow2OFlagCopied) = 0
    · rw [if_neg (not_not.mpr reserved)]
      by_cases bad : clusterOffset entry = 0 ∨ clusterOffset entry % g.clusterSize ≠ 0
      · simp only [if_pos bad]
        rintro ⟨good, _⟩
        obtain ⟨_, nonzero, aligned, _⟩ := good zero
        exact bad.elim nonzero (fun unaligned => unaligned aligned)
      · have region := fileRange_claim (g := g) holds f.size (clusterOffset entry) g.clusterSize "l2 table"
        simp only [if_neg bad]
        rw [← clusterRange_one]
        have same : (entry ≠ 0 → L1EntryOk g (metadataOf g f) entry) ↔
            clusterOffset entry + g.clusterSize ≤ f.size := by
          refine ⟨fun good => (good zero).2.2.2, fun inside _ => ⟨reserved, fun none => bad (.inl none), ?_, inside⟩⟩
          by_contra unaligned
          exact bad (.inr unaligned)
        rw [same]
        exact region
    · rw [if_pos reserved]
      exact fun both => reserved (both.1 zero).1

end

/-! ## Checks of the validation -/

/-- Every refcount block lies inside the file, and so does the header. -/
def BlocksPlaced (g : Geometry) (f : Store) : Prop :=
  ∀ t, Placed g (metadataOf g f) (refcountTableAt g f t)

theorem checkRefcount_spec (loaded : Loaded g q) (blocks : BlocksPlaced g q.file) (c : Nat) :
    Wp (checkRefcount (c * g.clusterSize)) q (fun r q' => Looked g q q' ∧
      Decides (q.replies ≠ []) (refcountAt g q.file c = 1) r) := by
  refine (refcount_spec loaded (fun t => (blocks t).1) c).bind ?_ ?_
  · rintro _ q1 ⟨looked, rfl⟩
    by_cases one : refcountAt g q.file c = 1
    · rw [if_neg (not_not.mpr one)]
      exact ⟨looked, one⟩
    · rw [if_pos one]
      exact ⟨looked, .inr one⟩
  · rintro err q1 ⟨looked, cause⟩
    refine ⟨looked, ?_⟩
    rcases cause with noisy | outside | beyond
    · exact .inl noisy
    · -- Clusters that the refcount table does not reach have no refcount.
      refine .inr ?_
      rw [refcountAt, if_neg (not_not.mpr (refcountTableAt_outside outside))]
      decide
    · have room : _ ≤ q.file.size := (blocks (c / g.blockEntries)).2
      omega

section Checks

variable {q0 : Image}

theorem Looked.noisy (looked : Looked g q0 q) (noisy : q.replies ≠ []) : q0.replies ≠ [] :=
  fun silent => noisy (looked.quiet silent)

variable (blocks : BlocksPlaced g q0.file) (looked : Looked g q0 q)
include blocks looked

theorem checkRefcounts_spec {offset : Nat} (aligned : offset % g.clusterSize = 0) (length : Nat) :
    Wp (checkRefcounts offset length) q (fun r q' => Looked g q0 q' ∧
      Decides (q0.replies ≠ []) (∀ c ∈ clusterRange g offset length, refcountAt g q0.file c = 1) r) := by
  have start := g.aligned_eq aligned
  have offsets : clusterOffsets g.clusterSize offset length =
      (clusterRange g offset length).map (· * g.clusterSize) := by
    rw [clusterOffsets, clusterRange, range'_eq_map_range, map_map]
    apply map_congr_left
    intro k _
    rw [Function.comp_apply, Nat.add_mul, start]
  simp only [checkRefcounts, wp_read_bind, looked.loaded.clusterSize, offsets]
  refine (wp_each (I := Looked g q0) (N := q0.replies ≠ [])
    (P := fun x => refcountAt g q0.file (x / g.clusterSize) = 1) ?_ q looked).mono ?_
  · intro x member q1 looked1
    obtain ⟨c, _, rfl⟩ := mem_map.mp member
    refine (checkRefcount_spec looked1.loaded (by rwa [looked1.file]) c).mono ?_
    rintro r q2 ⟨looked2, decides⟩
    rw [looked1.file] at decides
    refine ⟨looked1.trans looked2, decides.mono looked1.noisy ?_⟩
    rw [g.mul_clusterSize_div]
  · rintro r q1 ⟨looked1, decides⟩
    refine ⟨looked1, decides.mono id ?_⟩
    simp only [forall_mem_map, g.mul_clusterSize_div]

/-- The condition on an L2 entry, with the refcount of its cluster. -/
def MappingOk (g : Geometry) (f : Store) (entry : Nat) : Prop :=
  L2EntryOk g (metadataOf g f) entry ∧ ∀ c ∈ dataClusters g entry, refcountAt g f c = 1

/-- A part of the validation, which claims `more` clusters. -/
abbrev Validates (g : Geometry) (q0 : Image) (clusters more : List Nat) (good : Prop)
    (r : Except GoError ClusterOwners) (q' : Image) : Prop :=
  Looked g q0 q' ∧ Builds (q0.replies ≠ []) good (Claimable (clusters ++ more))
    (fun o => Holds o (clusters ++ more)) r

variable (holds : Holds owners clusters)
include holds

theorem validateDataMapping_spec (entry : Nat) :
    Wp (validateDataMapping q0.file.size owners entry) q
      (Validates g q0 clusters (dataClusters g entry) (MappingOk g q0.file entry)) := by
  simp only [validateDataMapping, wp_read_bind, wp_query_bind, looked.loaded.version,
    looked.loaded.clusterSize]
  cases checked : validateL2Entry g.version entry with
  | error err =>
    refine ⟨looked, .inr ?_⟩
    rintro ⟨⟨⟨accepted, _⟩, _⟩, _⟩
    rw [accepted] at checked
    cases checked
  | ok _ =>
    by_cases zero : clusterOffset entry = 0
    · simp only [zero, if_true, wp_pure]
      have none : dataClusters g entry = [] := if_pos zero
      rw [none, Validates, append_nil]
      refine ⟨looked, ⟨⟨checked, fun used => absurd zero used⟩, ?_⟩, holds⟩
      rw [none]
      exact fun _ absent => absurd absent not_mem_nil
    · have one : dataClusters g entry = clusterRange g (clusterOffset entry) g.clusterSize := by
        rw [clusterRange_one]
        exact if_neg zero
      by_cases aligned : clusterOffset entry % g.clusterSize = 0
      · have claimed := fileRange_claim (g := g) holds q0.file.size (clusterOffset entry)
          g.clusterSize "data cluster"
        simp only [zero, if_false, aligned, ne_eq, not_true, wp_query_bind,
          looked.loaded.clusterSize]
        rw [one]
        cases range : qcow2FileRange q0.file.size (clusterOffset entry) g.clusterSize
            "data cluster" with
        | error err =>
          refine ⟨looked, .inr ?_⟩
          rintro ⟨⟨⟨_, placed⟩, _⟩, _⟩
          have inside : _ ≤ q0.file.size := (placed zero).2
          rw [qcow2FileRange_ok.mpr inside] at range
          cases range
        | ok _ =>
          have fine : L2EntryOk g (metadataOf g q0.file) entry :=
            ⟨checked, fun _ => ⟨aligned, qcow2FileRange_ok.mp range⟩⟩
          rw [range] at claimed
          simp only [bind, Except.bind] at claimed
          cases result : claim owners (clusterOffset entry) g.clusterSize g.clusterSize
              "data cluster" with
          | error err =>
            rw [result] at claimed
            exact ⟨looked, .inr fun both => claimed ⟨qcow2FileRange_ok.mp range, both.2⟩⟩
          | ok owners' =>
            rw [result] at claimed
            refine (checkRefcounts_spec blocks looked aligned g.clusterSize).bind ?_ ?_
            · rintro _ q1 ⟨looked1, counted⟩
              rw [← one] at counted
              exact ⟨looked1, ⟨fine, counted⟩, claimed.2⟩
            · rintro err q1 ⟨looked1, bad⟩
              rw [← one] at bad
              exact ⟨looked1, bad.imp id (fun bad both => bad both.1.2)⟩
      · simp only [zero, if_false, aligned, ne_eq, not_false_eq_true, if_true, wp_fail]
        refine ⟨looked, .inr ?_⟩
        rintro ⟨⟨⟨_, placed⟩, _⟩, _⟩
        exact aligned (placed zero).1

theorem validateDataMappings_spec (l2 : List Nat) :
    Wp (validateDataMappings q0.file.size owners l2) q (Validates g q0 clusters
      (l2.flatMap (dataClusters g)) (∀ entry ∈ l2, MappingOk g q0.file entry)) := by
  refine wp_fold (I := Looked g q0) (H := fun done o => Holds o done)
    (fun _ _ => Claimable.of_append) ?_ q owners clusters looked holds
  intro entry _ q1 owners1 clusters1 looked1 holds1
  exact validateDataMapping_spec blocks looked1 holds1 entry

/-- The condition on the L2 table of an L1 entry: its own refcount and its entries. -/
def TableOk (g : Geometry) (f : Store) (entry : Nat) : Prop :=
  entry ≠ 0 → (∀ c ∈ tableClusters g entry, refcountAt g f c = 1) ∧
    ∀ word ∈ l2Words g f entry, MappingOk g f word

/-- Data clusters that the L2 table of an L1 entry maps. -/
def mappedClusters (g : Geometry) (f : Store) (entry : Nat) : List Nat :=
  if entry = 0 then [] else (l2Words g f entry).flatMap (dataClusters g)

theorem validateL2_spec {entry : Nat} (place : entry ≠ 0 → L1EntryOk g (metadataOf g q0.file) entry) :
    Wp (validateL2 q0.file.size owners entry) q
      (Validates g q0 clusters (mappedClusters g q0.file entry) (TableOk g q0.file entry)) := by
  unfold validateL2 mappedClusters
  by_cases zero : entry = 0
  · rw [if_pos zero, if_pos zero, wp_pure, Validates, append_nil]
    exact ⟨looked, fun used => absurd zero used, holds⟩
  · obtain ⟨_, _, aligned, room⟩ := place zero
    have whole := g.clusterSize_l2
    have one : tableClusters g entry = clusterRange g (clusterOffset entry) g.clusterSize := by
      rw [clusterRange_one]
      exact if_neg zero
    simp only [if_neg zero, wp_read_bind, looked.loaded.clusterSize, looked.loaded.l2Entries]
    refine (checkRefcounts_spec blocks looked aligned g.clusterSize).bind ?_ ?_
    · rintro _ q1 ⟨looked1, counted⟩
      rw [← one] at counted
      refine (readUint64Table_spec _ _ q1).bind ?_ ?_
      · rintro l2 q2 ⟨heard, _, words⟩
        rw [looked1.file] at words
        have looked2 := looked1.trans (heard.looked looked1.loaded)
        refine (validateDataMappings_spec blocks looked2 holds l2).mono ?_
        rintro r q3 ⟨looked3, builds⟩
        rw [show l2 = l2Words g q0.file entry from words] at builds
        refine ⟨looked3, ?_⟩
        cases r with
        | ok owners' => exact ⟨fun _ => ⟨counted, builds.1⟩, builds.2⟩
        | error err => exact builds.imp id (fun bad both => bad ⟨(both.1 zero).2, both.2⟩)
      · rintro err q2 ⟨heard, cause⟩
        refine ⟨looked1.trans (heard.looked looked1.loaded), .inl ?_⟩
        rcases cause with noisy | large | outside
        · exact looked1.noisy noisy
        · have small := g.l2Entries_high
          simp only [qcow2MaxL1Bytes] at large
          omega
        · rw [looked1.file] at outside
          have inside : _ ≤ q0.file.size := room
          omega
    · rintro err q1 ⟨looked1, bad⟩
      rw [← one] at bad
      exact ⟨looked1, bad.imp id (fun bad both => bad (both.1 zero).1)⟩

end Checks

/-! ## The whole validation -/

/-- The regions whose place the header gives. -/
def regions (g : Geometry) : List (Nat × Nat) :=
  [(0, g.clusterSize), (g.l1TableOffset, g.l1Size * 8),
    (g.refcountTableOffset, g.refcountTableClusters * g.clusterSize)]

/-- Everything the validation claims, in its order. -/
def claimedClusters (g : Geometry) (f : Store) : List Nat :=
  (regions g).flatMap (fun region => clusterRange g region.1 region.2) ++
    (((range g.refcountEntries).map (refcountTableAt g f)).flatMap (blockClusters g) ++
      ((range g.l1Size).map (l1At g f)).flatMap (tableClusters g)) ++
    ((range g.l1Size).map (l1At g f)).flatMap (mappedClusters g f)

/-- Everything the validation checks apart from the claims. -/
structure LayoutChecked (g : Geometry) (f : Store) : Prop where
  fits : ∀ region ∈ regions g, region.1 + region.2 ≤ f.size
  blocks : ∀ entry ∈ (range g.refcountEntries).map (refcountTableAt g f),
    entry ≠ 0 → Placed g (metadataOf g f) entry
  tables : ∀ entry ∈ (range g.l1Size).map (l1At g f),
    entry ≠ 0 → L1EntryOk g (metadataOf g f) entry
  regionCounts : ∀ region ∈ regions g, ∀ c ∈ clusterRange g region.1 region.2, refcountAt g f c = 1
  blockCounts : ∀ entry ∈ (range g.refcountEntries).map (refcountTableAt g f),
    ∀ c ∈ blockClusters g entry, refcountAt g f c = 1
  mappings : ∀ entry ∈ (range g.l1Size).map (l1At g f), TableOk g f entry

theorem regions_aligned (g : Geometry) : ∀ region ∈ regions g, region.1 % g.clusterSize = 0 := by
  intro region member
  simp only [regions, mem_cons, not_mem_nil, or_false] at member
  rcases member with rfl | rfl | rfl
  · exact Nat.zero_mod _
  · exact g.l1_aligned
  · exact g.refcount_aligned

section Layout

variable {h : Header}

theorem metadataRegions_eq (loaded : Loaded g q) (l1 : h.l1Size = g.l1Size)
    (table : h.refcountTableClusters = g.refcountTableClusters) :
    regions g = (metadataRegions q h).map (fun region => (region.1, region.2.1)) := by
  simp [metadataRegions, regions, loaded.clusterSize, loaded.l1TableOffset,
    loaded.refcountTableOffset, l1, table]

theorem claimMetadata_spec (loaded : Loaded g q) (l1 : h.l1Size = g.l1Size)
    (table : h.refcountTableClusters = g.refcountTableClusters) :
    Claims [] ((regions g).flatMap (fun region => clusterRange g region.1 region.2) ++
        (q.refcountTable.flatMap (blockClusters g) ++ q.l1.flatMap (tableClusters g)))
      ((∀ region ∈ regions g, region.1 + region.2 ≤ q.file.size) ∧
        (∀ entry ∈ q.refcountTable, entry ≠ 0 → Placed g (metadataOf g q.file) entry) ∧
        ∀ entry ∈ q.l1, entry ≠ 0 → L1EntryOk g (metadataOf g q.file) entry)
      (claimMetadata q h q.file.size) := by
  have first := foldlM_claims (fun region : Nat × Nat × String => clusterRange g region.1 region.2.1)
    (fun region => region.1 + region.2.1 ≤ q.file.size)
    (fun o done region held => claimRegion_spec held loaded.clusterSize q.file.size region)
    (metadataRegions q h) ∅ [] Holds.empty
  rw [metadataRegions_eq loaded l1 table, flatMap_map, forall_mem_map]
  refine first.bind fun o held => ?_
  refine Claims.bind (foldlM_claims (blockClusters g) _
    (fun o done entry held => claimRefcountBlock_spec held loaded.clusterSize q.file entry)
    q.refcountTable o _ held) fun o held => ?_
  exact foldlM_claims (tableClusters g) _
    (fun o done entry held => claimL2Table_spec held loaded.clusterSize q.file entry)
    q.l1 o _ held

theorem blocksPlaced {f : Store} (fits : ∀ region ∈ regions g, region.1 + region.2 ≤ f.size)
    (blocks : ∀ entry ∈ (range g.refcountEntries).map (refcountTableAt g f),
      entry ≠ 0 → Placed g (metadataOf g f) entry) : BlocksPlaced g f := by
  intro t
  by_cases used : refcountTableAt g f t = 0
  · rw [used]
    exact ⟨Nat.zero_mod _, fits (0, g.clusterSize) mem_cons_self⟩
  · have inside := refcountTableAt_inside used
    exact blocks _ (mem_map_of_mem (mem_range.mpr inside)) used

section Loops

variable {q0 : Image}

theorem checkRegions_spec (placed : BlocksPlaced g q0.file) (l1 : h.l1Size = g.l1Size)
    (table : h.refcountTableClusters = g.refcountTableClusters) (looked : Looked g q0 q) :
    Wp (each (fun region => checkRefcounts region.1 region.2.1) (metadataRegions q h)) q
      (fun r q' => Looked g q0 q' ∧ Decides (q0.replies ≠ [])
        (∀ region ∈ regions g, ∀ c ∈ clusterRange g region.1 region.2, refcountAt g q0.file c = 1) r) := by
  rw [metadataRegions_eq looked.loaded l1 table, forall_mem_map]
  refine wp_each (I := Looked g q0) (fun region member q1 looked1 => ?_) q looked
  refine checkRefcounts_spec placed looked1 ?_ region.2.1
  refine regions_aligned g (region.1, region.2.1) ?_
  rw [metadataRegions_eq looked.loaded l1 table]
  exact mem_map_of_mem member

theorem checkBlocks_spec (placed : BlocksPlaced g q0.file) {entries : List Nat}
    (aligned : ∀ entry ∈ entries, entry ≠ 0 → entry % g.clusterSize = 0) (looked : Looked g q0 q) :
    Wp (each (fun entry => do if entry ≠ 0 then checkRefcounts entry g.clusterSize) entries) q
      (fun r q' => Looked g q0 q' ∧ Decides (q0.replies ≠ [])
        (∀ entry ∈ entries, ∀ c ∈ blockClusters g entry, refcountAt g q0.file c = 1) r) := by
  refine wp_each (I := Looked g q0) (fun entry member q1 looked1 => ?_) q looked
  by_cases zero : entry = 0
  · have none : blockClusters g entry = [] := if_pos zero
    rw [none, if_neg (not_not.mpr zero)]
    exact ⟨looked1, fun _ absent => absurd absent not_mem_nil⟩
  · have one : blockClusters g entry = clusterRange g entry g.clusterSize := by
      rw [clusterRange_one]
      exact if_neg zero
    rw [one, if_pos zero]
    exact checkRefcounts_spec placed looked1 (aligned entry member zero) g.clusterSize

theorem validateTables_spec (placed : BlocksPlaced g q0.file) {entries : List Nat}
    (tables : ∀ entry ∈ entries, entry ≠ 0 → L1EntryOk g (metadataOf g q0.file) entry)
    (looked : Looked g q0 q) (holds : Holds owners clusters) :
    Wp (fold (validateL2 q0.file.size) owners entries) q (Validates g q0 clusters
      (entries.flatMap (mappedClusters g q0.file)) (∀ entry ∈ entries, TableOk g q0.file entry)) := by
  refine wp_fold (I := Looked g q0) (H := fun done o => Holds o done)
    (fun _ _ => Claimable.of_append) ?_ q owners clusters looked holds
  intro entry member q1 owners1 clusters1 looked1 holds1
  exact validateL2_spec placed looked1 holds1 (tables entry member)

end Loops

theorem validateLayout_spec (loaded : Loaded g q) (l1 : h.l1Size = g.l1Size)
    (table : h.refcountTableClusters = g.refcountTableClusters) :
    Wp (validateLayout h) q (fun r q' => Looked g q q' ∧
      Decides (q.replies ≠ []) (LayoutChecked g q.file ∧ Claimable (claimedClusters g q.file)) r) := by
  refine (fileStat_spec q).bind ?_ ?_
  · rintro _ q1 ⟨heard, rfl⟩
    have looked1 := heard.looked loaded
    have claimed := claimMetadata_spec looked1.loaded l1 table
    rw [looked1.loaded.refcountTable, looked1.loaded.l1, looked1.file] at claimed
    simp only [wp_query_bind]
    cases result : claimMetadata q1 h q.file.size with
    | error err =>
      rw [result] at claimed
      refine ⟨looked1, .inr ?_⟩
      rintro ⟨checked, claimable⟩
      exact claimed ⟨⟨checked.fits, checked.blocks, checked.tables⟩, claimable.of_append⟩
    | ok owners =>
      rw [result] at claimed
      obtain ⟨⟨fits, blocks, tables⟩, holds⟩ := claimed
      have placed := blocksPlaced fits blocks
      simp only [wp_read_bind, looked1.loaded.clusterSize, looked1.loaded.refcountTable,
        looked1.loaded.l1, looked1.file]
      refine (checkRegions_spec placed l1 table looked1).bind ?_ ?_
      · rintro _ q2 ⟨looked2, regionCounts⟩
        refine (checkBlocks_spec placed (fun entry member used => (blocks entry member used).1)
          looked2).bind ?_ ?_
        · rintro _ q3 ⟨looked3, blockCounts⟩
          refine (validateTables_spec placed tables looked3 holds).bind ?_ ?_
          · rintro owners' q4 ⟨looked4, mappings, holds'⟩
            exact ⟨looked4, ⟨fits, blocks, tables, regionCounts, blockCounts, mappings⟩,
              holds'.claimable⟩
          · rintro err q4 ⟨looked4, bad⟩
            exact ⟨looked4, bad.imp id fun bad both => bad ⟨both.1.mappings, both.2⟩⟩
        · rintro err q3 ⟨looked3, bad⟩
          exact ⟨looked3, bad.imp id fun bad both => bad both.1.blockCounts⟩
      · rintro err q2 ⟨looked2, bad⟩
        exact ⟨looked2, bad.imp id fun bad both => bad both.1.regionCounts⟩
  · rintro err q1 ⟨heard, noisy⟩
    exact ⟨heard.looked loaded, .inl noisy⟩

end Layout

end Gokvm.Disk
