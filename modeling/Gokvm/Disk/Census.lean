import Gokvm.Disk.Accept

/-! # The census of an image

The list of all owners with their clusters, each owner once. Its clusters are those the layout
validation claims and its pairs those of `Owns`, so the validation accepts the valid layouts whose
ownership bitmap fits in memory.
-/

namespace Gokvm.Disk

open Lib List Nat
open Prog

/-- The owners `o 0`, `o 1`, … with their clusters. -/
def tagged (o : Nat → Owner) (clusters : Nat → List Nat) (n : Nat) : List (Owner × Nat) :=
  (List.range n).flatMap (fun i => (clusters i).map (fun c => (o i, c)))

section Tagged

variable {o : Nat → Owner} {clusters : Nat → List Nat} {n : Nat}

theorem mem_tagged {owner : Owner} {c : Nat} :
    (owner, c) ∈ tagged o clusters n ↔ ∃ i < n, owner = o i ∧ c ∈ clusters i := by
  simp only [tagged, mem_flatMap, mem_range, mem_map, Prod.mk.injEq]
  constructor
  · rintro ⟨i, inside, d, member, rfl, rfl⟩
    exact ⟨i, inside, rfl, member⟩
  · rintro ⟨i, inside, rfl, member⟩
    exact ⟨i, inside, c, member, rfl, rfl⟩

theorem map_snd_tagged : (tagged o clusters n).map Prod.snd = (List.range n).flatMap clusters := by
  simp only [tagged, map_flatMap, map_map, Function.comp_def, map_id']

theorem pairwise_tagged (injective : Function.Injective o) (short : ∀ i, (clusters i).length ≤ 1) :
    (tagged o clusters n).Pairwise (fun x y => x.1 ≠ y.1) := by
  rw [tagged, pairwise_flatMap]
  constructor
  · intro i _
    have single := short i
    match clusters i, single with
    | [], _ => exact List.Pairwise.nil
    | [c], _ => exact pairwise_singleton _ _
  · refine pairwise_lt_range.imp ?_
    intro i j less x left y right
    obtain ⟨_, _, rfl⟩ := mem_map.mp left
    obtain ⟨_, _, rfl⟩ := mem_map.mp right
    exact fun same => Nat.ne_of_lt less (injective same)

end Tagged

variable {g : Geometry} {f : Store}

def regionCensus (g : Geometry) : List (Owner × Nat) :=
  [(.header, 0)] ++
    (tagged .l1 (fun k => [g.l1TableOffset / g.clusterSize + k]) g.l1Clusters ++
      tagged .refcountTable (fun k => [g.refcountTableOffset / g.clusterSize + k])
        g.refcountTableClusters)

def tableCensus (g : Geometry) (f : Store) : List (Owner × Nat) :=
  tagged .refcountBlock (fun t => blockClusters g (refcountTableAt g f t)) g.refcountEntries ++
    tagged .l2Table (fun i => tableClusters g (l1At g f i)) g.l1Size

def dataCensus (g : Geometry) (f : Store) : List (Owner × Nat) :=
  (List.range g.l1Size).flatMap
    (fun i => tagged (.data i) (fun j => dataClusters g (l2At g f i j)) g.l2Entries)

/-- Every owner with its clusters, in the order of the validation. -/
def census (g : Geometry) (f : Store) : List (Owner × Nat) :=
  regionCensus g ++ tableCensus g f ++ dataCensus g f

variable {i entry c : Nat}

theorem l2At_unmapped (none : l1At g f i = 0) (j : Nat) : l2At g f i j = 0 :=
  if_neg (fun both => both.1 none)

theorem l2Words_eq (used : l1At g f i ≠ 0) :
    l2Words g f (l1At g f i) = (List.range g.l2Entries).map (l2At g f i) := by
  apply map_congr_left
  intro j member
  rw [l2At, if_pos ⟨used, mem_range.mp member⟩]

theorem dataClusters_zero (g : Geometry) : dataClusters g 0 = [] := if_pos clusterOffset_zero

theorem mappedClusters_eq (i : Nat) :
    mappedClusters g f (l1At g f i) =
      (List.range g.l2Entries).flatMap (fun j => dataClusters g (l2At g f i j)) := by
  by_cases none : l1At g f i = 0
  · rw [mappedClusters, if_pos none]
    simp [l2At_unmapped none, dataClusters_zero]
  · rw [mappedClusters, if_neg none, l2Words_eq none, flatMap_map]

theorem regionCensus_clusters (g : Geometry) : (regionCensus g).map Prod.snd =
    (regions g).flatMap (fun region => clusterRange g region.1 region.2) := by
  have count : (g.refcountTableClusters * g.clusterSize + g.clusterSize - 1) / g.clusterSize =
      g.refcountTableClusters := g.clustersFor_mul _
  simp only [regionCensus, regions, map_append, map_snd_tagged, flatMap_cons,
    flatMap_nil, append_nil, clusterRange_one, Nat.zero_div, map_cons, map_nil]
  simp only [clusterRange, count, range'_eq_map_range, map_eq_flatMap, Geometry.l1Clusters]

theorem census_clusters : (census g f).map Prod.snd = claimedClusters g f := by
  rw [census, claimedClusters, map_append, map_append, regionCensus_clusters]
  congr 1
  · congr 1
    simp only [tableCensus, map_append, map_snd_tagged, flatMap_map]
  · simp only [dataCensus, map_flatMap, map_snd_tagged, flatMap_map, mappedClusters_eq]

/-! ## The census lists the owners -/

theorem l1At_inside (used : l1At g f i ≠ 0) : i < g.l1Size := by
  by_contra outside
  exact used (if_neg outside)

theorem l2At_inside {j : Nat} (used : l2At g f i j ≠ 0) : l1At g f i ≠ 0 ∧ j < g.l2Entries := by
  by_contra outside
  exact used (if_neg outside)

theorem mem_blockClusters :
    c ∈ blockClusters g entry ↔ entry ≠ 0 ∧ c = entry / g.clusterSize := by
  by_cases zero : entry = 0 <;> simp [blockClusters, zero]

theorem mem_tableClusters :
    c ∈ tableClusters g entry ↔ entry ≠ 0 ∧ c = clusterOffset entry / g.clusterSize := by
  by_cases zero : entry = 0 <;> simp [tableClusters, zero]

theorem mem_dataClusters :
    c ∈ dataClusters g entry ↔ clusterOffset entry ≠ 0 ∧ c = clusterOffset entry / g.clusterSize := by
  by_cases zero : clusterOffset entry = 0 <;> simp [dataClusters, zero]

theorem mem_census {o : Owner} : (o, c) ∈ census g f ↔ Owns g (metadataOf g f) o c := by
  simp only [census, regionCensus, tableCensus, dataCensus, mem_append, mem_flatMap,
    mem_range, mem_tagged, mem_singleton, Prod.mk.injEq, mem_blockClusters,
    mem_tableClusters, mem_dataClusters]
  constructor
  · rintro (((⟨rfl, rfl⟩ | ⟨k, inside, rfl, rfl⟩ | ⟨k, inside, rfl, rfl⟩) |
      ⟨t, _, rfl, used, rfl⟩ | ⟨i, _, rfl, used, rfl⟩) | ⟨i, _, j, _, rfl, used, rfl⟩)
    · exact .header
    · exact .l1 k inside
    · exact .refcountTable k inside
    · exact .refcountBlock t used
    · exact .l2Table i used
    · exact .data i j used
  · intro owns
    cases owns with
    | header => exact .inl (.inl (.inl ⟨rfl, rfl⟩))
    | l1 k inside => exact .inl (.inl (.inr (.inl ⟨k, inside, rfl, rfl⟩)))
    | refcountTable k inside => exact .inl (.inl (.inr (.inr ⟨k, inside, rfl, rfl⟩)))
    | refcountBlock t used => exact .inl (.inr (.inl ⟨t, refcountTableAt_inside used, rfl, used, rfl⟩))
    | l2Table i used => exact .inl (.inr (.inr ⟨i, l1At_inside used, rfl, used, rfl⟩))
    | data i j used =>
      have entry : l2At g f i j ≠ 0 := fun zero => used (by
        rw [show (metadataOf g f).l2 i j = 0 from zero, clusterOffset_zero])
      obtain ⟨table, inside⟩ := l2At_inside entry
      exact .inr ⟨i, l1At_inside table, j, inside, rfl, used, rfl⟩

/-- Owners of the parts of the census, by kind. -/
def Owner.rank : Owner → Nat
  | .header => 0
  | .l1 _ => 1
  | .refcountTable _ => 2
  | .refcountBlock _ => 3
  | .l2Table _ => 4
  | .data _ _ => 5

theorem pairwise_append {xs ys : List (Owner × Nat)} {r : Nat}
    (left : xs.Pairwise (fun x y => x.1 ≠ y.1)) (right : ys.Pairwise (fun x y => x.1 ≠ y.1))
    (low : ∀ x ∈ xs, x.1.rank < r) (high : ∀ y ∈ ys, r ≤ y.1.rank) :
    (xs ++ ys).Pairwise (fun x y => x.1 ≠ y.1) := by
  refine List.pairwise_append.mpr ⟨left, right, ?_⟩
  intro x inXs y inYs same
  have below := low x inXs
  have above := high y inYs
  rw [same] at below
  omega

theorem rank_tagged {o : Nat → Owner} {clusters : Nat → List Nat} {n r : Nat}
    (rank : ∀ i, (o i).rank = r) : ∀ x ∈ tagged o clusters n, x.1.rank = r := by
  rintro ⟨owner, c⟩ member
  obtain ⟨i, _, rfl, _⟩ := mem_tagged.mp member
  exact rank i

theorem pairwise_regionCensus (g : Geometry) : (regionCensus g).Pairwise (fun x y => x.1 ≠ y.1) := by
  refine pairwise_append (r := 1) (pairwise_singleton _ _) (pairwise_append (r := 2) ?_ ?_ ?_ ?_) ?_ ?_
  · exact pairwise_tagged (fun _ _ same => by injection same) (fun _ => le_refl _)
  · exact pairwise_tagged (fun _ _ same => by injection same) (fun _ => le_refl _)
  · exact fun x member => (rank_tagged (r := 1) (fun _ => rfl) x member).trans_lt (by decide)
  · exact fun x member => (rank_tagged (r := 2) (fun _ => rfl) x member).ge
  · intro x member
    rw [mem_singleton.mp member]
    decide
  · intro x member
    rcases mem_append.mp member with left | right
    · exact (rank_tagged (r := 1) (fun _ => rfl) x left).ge
    · exact (rank_tagged (r := 2) (fun _ => rfl) x right).ge.trans' (by decide)

theorem pairwise_tableCensus : (tableCensus g f).Pairwise (fun x y => x.1 ≠ y.1) := by
  refine pairwise_append (r := 4) ?_ ?_ ?_ ?_
  · refine pairwise_tagged (fun _ _ same => by injection same) (fun t => ?_)
    rw [blockClusters]
    split <;> simp
  · refine pairwise_tagged (fun _ _ same => by injection same) (fun i => ?_)
    rw [tableClusters]
    split <;> simp
  · exact fun x member => (rank_tagged (r := 3) (fun _ => rfl) x member).trans_lt (by decide)
  · exact fun x member => (rank_tagged (r := 4) (fun _ => rfl) x member).ge

theorem pairwise_dataCensus : (dataCensus g f).Pairwise (fun x y => x.1 ≠ y.1) := by
  rw [dataCensus, pairwise_flatMap]
  constructor
  · intro i _
    refine pairwise_tagged (fun _ _ same => by injection same) (fun j => ?_)
    rw [dataClusters]
    split <;> simp
  · refine pairwise_lt_range.imp ?_
    rintro i i' less ⟨o, c⟩ left ⟨o', c'⟩ right same
    obtain ⟨_, _, rfl, _⟩ := mem_tagged.mp left
    obtain ⟨_, _, rfl, _⟩ := mem_tagged.mp right
    injection same with row
    exact Nat.ne_of_lt less row

theorem pairwise_census : (census g f).Pairwise (fun x y => x.1 ≠ y.1) := by
  refine pairwise_append (r := 5)
    (pairwise_append (r := 3) (pairwise_regionCensus g) pairwise_tableCensus ?_ ?_)
    pairwise_dataCensus ?_ ?_
  all_goals
    rintro ⟨o, c⟩ member
    simp only [regionCensus, tableCensus, dataCensus, mem_append, mem_flatMap,
      mem_tagged, mem_singleton, Prod.mk.injEq] at member
  · rcases member with ⟨rfl, _⟩ | ⟨_, _, rfl, _⟩ | ⟨_, _, rfl, _⟩ <;> simp [Owner.rank]
  · rcases member with ⟨_, _, rfl, _⟩ | ⟨_, _, rfl, _⟩ <;> simp [Owner.rank]
  · rcases member with (⟨rfl, _⟩ | ⟨_, _, rfl, _⟩ | ⟨_, _, rfl, _⟩) | ⟨_, _, rfl, _⟩ | ⟨_, _, rfl, _⟩ <;>
      simp [Owner.rank]
  · obtain ⟨_, _, _, _, rfl, _⟩ := member
    simp [Owner.rank]

theorem claimedClusters_nodup : (claimedClusters g f).Nodup ↔
    ∀ o o' c, Owns g (metadataOf g f) o c → Owns g (metadataOf g f) o' c → o = o' := by
  rw [← census_clusters]
  constructor
  · intro nodup o o' c left right
    have same := inj_on_of_nodup_map nodup (mem_census.mpr left) (mem_census.mpr right) rfl
    exact congrArg Prod.fst same
  · intro distinct
    rw [List.Nodup, pairwise_map]
    refine pairwise_census.imp_of_mem ?_
    rintro ⟨o, c⟩ ⟨o', c'⟩ left right other rfl
    exact other (distinct o o' c (mem_census.mp left) (mem_census.mp right))

theorem mem_claimedClusters :
    c ∈ claimedClusters g f ↔ ∃ o, Owns g (metadataOf g f) o c := by
  rw [← census_clusters, mem_map]
  constructor
  · rintro ⟨⟨o, _⟩, member, rfl⟩
    exact ⟨o, mem_census.mp member⟩
  · rintro ⟨o, owns⟩
    exact ⟨(o, c), mem_census.mpr owns, rfl⟩

/-! ## The accepted layouts -/

theorem L2EntryOk.zero {m : Metadata} : L2EntryOk g m 0 := by
  refine ⟨validateL2Entry_ok.mpr (by simp), fun used => absurd clusterOffset_zero used⟩

/-- The refcounts the validation checks are those of the claimed clusters. -/
theorem layoutChecked_iff : LayoutChecked g f ↔
    (∀ region ∈ regions g, region.1 + region.2 ≤ f.size) ∧
    (∀ t, refcountTableAt g f t ≠ 0 → Placed g (metadataOf g f) (refcountTableAt g f t)) ∧
    (∀ i, l1At g f i ≠ 0 → L1EntryOk g (metadataOf g f) (l1At g f i)) ∧
    (∀ i j, L2EntryOk g (metadataOf g f) (l2At g f i j)) ∧
    ∀ c ∈ claimedClusters g f, refcountAt g f c = 1 := by
  constructor
  · intro checked
    refine ⟨checked.fits, ?_, ?_, ?_, ?_⟩
    · intro t used
      have inside := mem_range.mpr (refcountTableAt_inside used)
      exact checked.blocks _ (mem_map_of_mem inside) used
    · intro i used
      exact checked.tables _ (mem_map_of_mem (mem_range.mpr (l1At_inside used))) used
    · intro i j
      by_cases empty : l2At g f i j = 0
      · rw [empty]
        exact L2EntryOk.zero
      · obtain ⟨table, inside⟩ := l2At_inside empty
        have row := mem_map_of_mem (f := l1At g f) (mem_range.mpr (l1At_inside table))
        refine ((checked.mappings _ row table).2 (l2At g f i j) ?_).1
        rw [l2Words_eq table]
        exact mem_map_of_mem (mem_range.mpr inside)
    · intro c member
      simp only [claimedClusters, mem_append, mem_flatMap] at member
      rcases member with (⟨region, known, member⟩ | ⟨entry, known, member⟩ | ⟨entry, known, member⟩) |
        ⟨entry, known, member⟩
      · exact checked.regionCounts region known c member
      · exact checked.blockCounts entry known c member
      · exact (checked.mappings entry known (mem_tableClusters.mp member).1).1 c member
      · by_cases zero : entry = 0
        · rw [mappedClusters, if_pos zero] at member
          exact absurd member not_mem_nil
        · rw [mappedClusters, if_neg zero, mem_flatMap] at member
          obtain ⟨word, inTable, member⟩ := member
          exact ((checked.mappings entry known zero).2 word inTable).2 c member
  · rintro ⟨fits, blocks, tables, entries, counts⟩
    simp only [claimedClusters, mem_append, mem_flatMap] at counts
    refine
      { fits
        blocks := ?_
        tables := ?_
        regionCounts := fun region known c member => counts c (.inl (.inl ⟨region, known, member⟩))
        blockCounts := fun entry known c member =>
          counts c (.inl (.inr (.inl ⟨entry, known, member⟩)))
        mappings := ?_ }
    · intro entry known used
      obtain ⟨t, _, rfl⟩ := mem_map.mp known
      exact blocks t used
    · intro entry known used
      obtain ⟨i, _, rfl⟩ := mem_map.mp known
      exact tables i used
    · intro entry known used
      refine ⟨fun c member => counts c (.inl (.inr (.inr ⟨entry, known, member⟩))), ?_⟩
      intro word inTable
      have mapped : ∀ c ∈ dataClusters g word, refcountAt g f c = 1 := by
        intro c member
        refine counts c (.inr ⟨entry, known, ?_⟩)
        rw [mappedClusters, if_neg used]
        exact mem_flatMap.mpr ⟨word, inTable, member⟩
      obtain ⟨i, _, rfl⟩ := mem_map.mp known
      rw [l2Words_eq used] at inTable
      obtain ⟨j, _, rfl⟩ := mem_map.mp inTable
      exact ⟨entries i j, mapped⟩

/-- The validation accepts the valid layouts whose bitmap fits in memory. -/
theorem layout_accepted_iff (header : f.read 0 g.clusterSize = g.header) :
    LayoutChecked g f ∧ Claimable (claimedClusters g f) ↔
      Valid g (metadataOf g f) ∧ (pages (claimedClusters g f)).card ≤ qcow2MaxOwnershipPages := by
  rw [layoutChecked_iff, Claimable, claimedClusters_nodup]
  constructor
  · rintro ⟨⟨fits, blocks, tables, entries, counts⟩, distinct, limit⟩
    simp only [regions, forall_mem_cons, not_mem_nil, zero_add] at fits
    exact ⟨
      { header
        headerFits := fits.1
        l1Fits := fits.2.1
        tableFits := fits.2.2.1
        block := fun t used => ⟨refcountTableAt_inside used, blocks t used⟩
        l2Table := fun i used => ⟨l1At_inside used, tables i used⟩
        entry := entries
        entryInside := fun i j used => l2At_inside used
        stored := fun c used none => used (if_neg (not_not.mpr none))
        distinct
        counted := fun o c owns => counts c (mem_claimedClusters.mpr ⟨o, owns⟩) }, limit⟩
  · rintro ⟨valid, limit⟩
    refine ⟨⟨?_, fun t used => (valid.block t used).2, fun i used => (valid.l2Table i used).2,
      valid.entry, ?_⟩, valid.distinct, limit⟩
    · simp only [regions, forall_mem_cons, zero_add]
      exact ⟨valid.headerFits, valid.l1Fits, valid.tableFits, fun _ absent => absurd absent not_mem_nil⟩
    · intro c member
      obtain ⟨o, owns⟩ := mem_claimedClusters.mp member
      exact valid.counted o c owns

end Gokvm.Disk
