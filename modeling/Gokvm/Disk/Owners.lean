import Gokvm.Disk.Mapping

/-! # Claimed clusters

The ownership bitmap of the layout validation represents a list of clusters
without duplicates, spread over a bounded number of pages. A claim succeeds
exactly when its clusters extend that list.
-/

namespace Gokvm.Disk

open Lib List Function Nat

/-- The bit of a host cluster is set. -/
def Claimed (owners : ClusterOwners) (c : Nat) : Prop :=
  ∃ page, owners.lookup (c / qcow2OwnershipPageClusters) = some page ∧
    (page (c % qcow2OwnershipPageClusters / 64)).testBit (c % qcow2OwnershipPageClusters % 64)

/-- Pages that the bits of these clusters take. -/
def pages (clusters : List Nat) : Finset Nat :=
  (clusters.map (· / qcow2OwnershipPageClusters)).toFinset

/-- The clusters are claimed once each and their bits fit in memory. -/
def Claimable (clusters : List Nat) : Prop :=
  clusters.Nodup ∧ (pages clusters).card ≤ qcow2MaxOwnershipPages

/-- The bitmap holds these clusters. -/
structure Holds (owners : ClusterOwners) (clusters : List Nat) : Prop where
  claimable : Claimable clusters
  claimed : ∀ c, Claimed owners c ↔ c ∈ clusters
  keys : owners.keys.toFinset = pages clusters

variable {owners : ClusterOwners}

theorem Holds.length {clusters : List Nat} (holds : Holds owners clusters) :
    owners.entries.length = (pages clusters).card := by
  rw [← holds.keys, toFinset_card_of_nodup owners.keys_nodup]
  exact (length_map _).symm

theorem Holds.empty : Holds ∅ [] where
  claimable := ⟨nodup_nil, by decide⟩
  claimed := by
    intro c
    simp [Claimed]
  keys := rfl

theorem pages_append (xs ys : List Nat) : pages (xs ++ ys) = pages xs ∪ pages ys := by
  simp [pages]

theorem Claimable.of_append {xs ys : List Nat} (both : Claimable (xs ++ ys)) : Claimable xs := by
  refine ⟨(nodup_append.mp both.1).1, le_trans (Finset.card_le_card ?_) both.2⟩
  rw [pages_append]
  exact Finset.subset_union_left

theorem bit_set {word bit : Nat} : word &&& (1 <<< bit) ≠ 0 ↔ word.testBit bit := by
  rw [and_bit, testBit_eq_decide_div_mod_eq, decide_eq_true_eq]
  have positive := Nat.two_pow_pos bit
  rcases mod_two_eq_zero_or_one (word / 2 ^ bit) with zero | one
  · simp [zero]
  · simp [one]

/-- The page is the one of the bitmap, or a new and empty one. -/
def PageOf (owners : ClusterOwners) (p : Nat) (page : OwnershipPage) : Prop :=
  owners.lookup p = some page ∨ owners.lookup p = none ∧ page = fun _ => 0

theorem PageOf.claimed {page : OwnershipPage} {c : Nat} (old : PageOf owners (c / qcow2OwnershipPageClusters) page) :
    Claimed owners c ↔
      (page (c % qcow2OwnershipPageClusters / 64)).testBit (c % qcow2OwnershipPageClusters % 64) := by
  rcases old with found | ⟨missing, rfl⟩
  · simp [Claimed, found]
  · simp [Claimed, missing]

/-- Setting the bit of `c` claims `c` and nothing else. -/
theorem claimed_insert {page : OwnershipPage} {c : Nat}
    (old : PageOf owners (c / qcow2OwnershipPageClusters) page) (d : Nat) :
    Claimed (owners.insert (c / qcow2OwnershipPageClusters)
        (update page (c % qcow2OwnershipPageClusters / 64)
          (page (c % qcow2OwnershipPageClusters / 64) |||
            1 <<< (c % qcow2OwnershipPageClusters % 64)))) d ↔
      d = c ∨ Claimed owners d := by
  by_cases here : d / qcow2OwnershipPageClusters = c / qcow2OwnershipPageClusters
  · -- The bits of one page, before and after.
    have mine : PageOf owners (d / qcow2OwnershipPageClusters) page := here ▸ old
    rw [mine.claimed, Claimed, here, AList.lookup_insert]
    simp only [Option.some.injEq, exists_eq_left']
    by_cases word : d % qcow2OwnershipPageClusters / 64 = c % qcow2OwnershipPageClusters / 64
    · rw [word, update_self, testBit_or, one_shiftLeft, testBit_two_pow,
        Bool.or_eq_true, decide_eq_true_eq, or_comm]
      have same : c % qcow2OwnershipPageClusters % 64 = d % qcow2OwnershipPageClusters % 64 ↔
          d = c := by
        simp only [qcow2OwnershipPageClusters] at *
        omega
      rw [same]
    · have other : d ≠ c := fun same => word (by rw [same])
      rw [update_of_ne word]
      simp [other]
  · have other : d ≠ c := fun same => here (by rw [same])
    rw [Claimed, AList.lookup_insert_ne here, ← Claimed]
    simp [other]

theorem keys_insert_toFinset (p : Nat) (page : OwnershipPage) :
    (owners.insert p page).keys.toFinset = insert p owners.keys.toFinset := by
  ext key
  simp only [mem_toFinset, AList.mem_keys.symm, AList.mem_insert, Finset.mem_insert]

section Claim

variable {owners : ClusterOwners} {clusters : List Nat} {c : Nat}

theorem ownershipPage_spec (holds : Holds owners clusters) :
    match ownershipPage owners (c / qcow2OwnershipPageClusters) with
    | .ok page => PageOf owners (c / qcow2OwnershipPageClusters) page ∧
        (pages (clusters ++ [c])).card ≤ qcow2MaxOwnershipPages
    | .error _ => ¬Claimable (clusters ++ [c]) := by
  have member : c / qcow2OwnershipPageClusters ∈ pages clusters ↔
      (owners.lookup (c / qcow2OwnershipPageClusters)).isSome := by
    rw [← holds.keys, mem_toFinset, ← AList.mem_keys, ← AList.lookup_isSome]
  have single : pages [c] = {c / qcow2OwnershipPageClusters} := rfl
  have limit := holds.claimable.2
  unfold ownershipPage
  cases found : owners.lookup (c / qcow2OwnershipPageClusters) with
  | some page =>
    rw [found] at member
    have same : pages (clusters ++ [c]) = pages clusters := by
      rw [pages_append, single]
      exact Finset.union_eq_left.mpr (Finset.singleton_subset_iff.mpr (member.mpr rfl))
    exact ⟨.inl found, by rwa [same]⟩
  | none =>
    rw [found] at member
    have count : (pages (clusters ++ [c])).card = (pages clusters).card + 1 := by
      rw [pages_append, single, Finset.union_comm, ← Finset.insert_eq]
      exact Finset.card_insert_of_notMem (fun old => by simpa using member.mp old)
    rw [holds.length]
    by_cases full : (pages clusters).card ≥ qcow2MaxOwnershipPages
    · simp only [full, if_true]
      intro claimable
      have := claimable.2
      omega
    · simp only [full, if_false]
      exact ⟨.inr ⟨found, rfl⟩, by omega⟩

theorem markCluster_spec (holds : Holds owners clusters) {page : OwnershipPage}
    (old : PageOf owners (c / qcow2OwnershipPageClusters) page)
    (limit : (pages (clusters ++ [c])).card ≤ qcow2MaxOwnershipPages) (size : Nat) (kind : String) :
    match markCluster size kind owners c page with
    | .ok owners' => Holds owners' (clusters ++ [c])
    | .error _ => ¬Claimable (clusters ++ [c]) := by
  have mine : Claimed owners c ↔ page (c % qcow2OwnershipPageClusters / 64) &&&
      1 <<< (c % qcow2OwnershipPageClusters % 64) ≠ 0 := by
    rw [bit_set, old.claimed]
  unfold markCluster
  by_cases twice : page (c % qcow2OwnershipPageClusters / 64) &&&
      1 <<< (c % qcow2OwnershipPageClusters % 64) ≠ 0
  · simp only [twice, if_true, ne_eq, not_false_eq_true]
    intro claimable
    have member := (holds.claimed c).mp (mine.mpr twice)
    exact (nodup_append.mp claimable.1).2.2 c member c (by simp) rfl
  · simp only [twice, if_false]
    have absent : c ∉ clusters := fun member => twice (mine.mp ((holds.claimed c).mpr member))
    refine
      { claimable := ⟨?_, limit⟩
        claimed := ?_
        keys := ?_ }
    · rw [nodup_append]
      refine ⟨holds.claimable.1, by simp, ?_⟩
      rintro a member b last rfl
      exact absent (mem_singleton.mp last ▸ member)
    · intro d
      rw [claimed_insert old, holds.claimed]
      simp [or_comm]
    · rw [keys_insert_toFinset, holds.keys, pages_append, Finset.insert_eq, Finset.union_comm]
      rfl

/-- The result of a step that claims the clusters `adds` if `good` holds. -/
def Claims (clusters adds : List Nat) (good : Prop) : Except GoError ClusterOwners → Prop
  | .ok owners => good ∧ Holds owners (clusters ++ adds)
  | .error _ => ¬(good ∧ Claimable (clusters ++ adds))

theorem Claims.bind {adds more : List Nat} {good good' : Prop} {r : Except GoError ClusterOwners}
    {next : ClusterOwners → Except GoError ClusterOwners} (first : Claims clusters adds good r)
    (second : ∀ o, Holds o (clusters ++ adds) → Claims (clusters ++ adds) more good' (next o)) :
    Claims clusters (adds ++ more) (good ∧ good') (r >>= next) := by
  cases r with
  | error err =>
    rintro ⟨⟨fine, _⟩, claimable⟩
    rw [← append_assoc] at claimable
    exact first ⟨fine, claimable.of_append⟩
  | ok owners =>
    have rest := second owners first.2
    change Claims _ _ _ (next owners)
    cases result : next owners with
    | error err =>
      rw [result] at rest
      rintro ⟨⟨_, fine⟩, claimable⟩
      rw [← append_assoc] at claimable
      exact rest ⟨fine, claimable⟩
    | ok owners' =>
      rw [result] at rest
      refine ⟨⟨first.1, rest.1⟩, ?_⟩
      rw [← append_assoc]
      exact rest.2

theorem Claims.congr {adds : List Nat} {good good' : Prop} {r : Except GoError ClusterOwners}
    (claims : Claims clusters adds good r) (same : good ↔ good') : Claims clusters adds good' r :=
  propext same ▸ claims

/-- One claim: the cluster extends the list, or it cannot. -/
theorem claimCluster_spec (holds : Holds owners clusters) (size : Nat) (kind : String) (c : Nat) :
    Claims clusters [c] True (claimCluster size kind owners c) := by
  have found := ownershipPage_spec (c := c) holds
  unfold claimCluster
  cases result : ownershipPage owners (c / qcow2OwnershipPageClusters) with
  | error err =>
    rw [result] at found
    exact fun both => found both.2
  | ok page =>
    rw [result] at found
    have marked := markCluster_spec holds found.1 found.2 size kind
    simp only [bind, Except.bind]
    cases outcome : markCluster size kind owners c page with
    | error err =>
      rw [outcome] at marked
      exact fun both => marked both.2
    | ok owners' =>
      rw [outcome] at marked
      exact ⟨trivial, marked⟩

/-! ## Loops of claims -/

/-- A loop whose passes each claim some clusters claims them all. -/
theorem foldlM_claims {α : Type} {step : ClusterOwners → α → Except GoError ClusterOwners}
    (adds : α → List Nat) (good : α → Prop)
    (pass : ∀ owners clusters a, Holds owners clusters →
      Claims clusters (adds a) (good a) (step owners a)) (items : List α) :
    ∀ owners clusters, Holds owners clusters →
      Claims clusters (items.flatMap adds) (∀ a ∈ items, good a) (items.foldlM step owners) := by
  induction items with
  | nil =>
    intro owners clusters holds
    refine ⟨fun _ absent => absurd absent not_mem_nil, ?_⟩
    rw [flatMap_nil, append_nil]
    exact holds
  | cons a items ih =>
    intro owners clusters holds
    rw [foldlM_cons, flatMap_cons]
    exact ((pass owners clusters a holds).bind (fun o held => ih o _ held)).congr
      forall_mem_cons.symm

theorem claim_spec (holds : Holds owners clusters) (offset length size : Nat) (kind : String) :
    Claims clusters (range' (offset / size) ((length + size - 1) / size)) True
      (claim owners offset length size kind) := by
  have all := foldlM_claims (fun c => [c]) (fun _ => True)
    (fun owners clusters c holds => claimCluster_spec holds size kind c)
    (range' (offset / size) ((length + size - 1) / size)) owners clusters holds
  simpa [claim] using all

end Claim

end Gokvm.Disk
