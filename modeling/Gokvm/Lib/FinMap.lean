import Mathlib.Data.List.AList
import Mathlib.Tactic

/-! # Finite maps with bulk deletion, counting and sums

Association lists with distinct keys, as Mathlib has them, with what a program does by
ranging over a map: deleting every entry that meets a condition, counting the entries
that meet one, and adding up a quantity over all of them.
-/

namespace Gokvm.Lib

open List AList

abbrev FinMap (κ ν : Type*) := AList (fun _ : κ => ν)

namespace FinMap

variable {κ ν : Type*} (p q : κ → ν → Bool) (m : FinMap κ ν)

/-- The map without the entries that meet the condition. -/
def discard : FinMap κ ν :=
  ⟨m.entries.filter (fun e => !p e.1 e.2), m.nodupKeys.sublist filter_sublist⟩

def countIf : Nat := m.entries.countP (fun e => p e.1 e.2)

/-- A quantity of the values, added up over the map. -/
def total (weight : ν → Nat) : Nat := (m.entries.map fun e => weight e.2).sum

variable [DecidableEq κ]

variable {k : κ} {v : ν}

theorem lookup_eq_some_iff : m.lookup k = some v ↔ ⟨k, v⟩ ∈ m.entries :=
  mem_lookup_iff

theorem lookup_discard_eq_some :
    (m.discard p).lookup k = some v ↔ m.lookup k = some v ∧ p k v = false := by
  simp only [lookup_eq_some_iff, discard, mem_filter, Bool.not_eq_true']

theorem lookup_erase_eq_some {j : κ} :
    lookup k (erase j m) = some v ↔ k ≠ j ∧ m.lookup k = some v := by
  by_cases same : k = j
  · subst same
    simp [lookup_erase]
  · simp [lookup_erase_ne same, same]

theorem erase_of_lookup_eq_none (free : m.lookup k = none) : erase k m = m := by
  apply ext
  exact kerase_of_notMem_keys (lookup_eq_none.mp free)

theorem lookup_insert_eq_some {k' : κ} {v' : ν} :
    lookup k (insert k' v' m) = some v ↔
      (k = k' ∧ v = v') ∨ (k ≠ k' ∧ m.lookup k = some v) := by
  by_cases same : k = k'
  · subst same
    simp [lookup_insert, eq_comm]
  · simp [lookup_insert_ne same, same]

theorem forall_insert {m : FinMap κ ν} {P : κ → ν → Prop} (new : P k v)
    (old : ∀ j w, m.lookup j = some w → P j w) (j : κ) (w : ν)
    (found : lookup j (insert k v m) = some w) : P j w := by
  rcases m.lookup_insert_eq_some.mp found with ⟨rfl, rfl⟩ | ⟨_, before⟩
  · exact new
  · exact old j w before

omit [DecidableEq κ] in
theorem countIf_discard : (m.discard q).countIf p = m.countIf (fun k v => p k v && !q k v) := by
  simp only [countIf, discard, countP_filter]

omit [DecidableEq κ] in
theorem countIf_discard_le : (m.discard q).countIf p ≤ m.countIf p :=
  List.Sublist.countP_le filter_sublist

theorem countIf_erase_le (k : κ) : countIf p (erase k m) ≤ m.countIf p :=
  List.Sublist.countP_le (kerase_sublist k m.entries)

theorem countIf_insert_le (k : κ) (v : ν) :
    countIf p (insert k v m) ≤ m.countIf p + if p k v then 1 else 0 := by
  have rest := countIf_erase_le p m k
  simp only [countIf, entries_insert, countP_cons] at rest ⊢
  exact Nat.add_le_add_right rest _

variable (weight : ν → Nat)

theorem total_erase (found : m.lookup k = some v) :
    total (erase k m) weight + weight v = m.total weight := by
  have member := m.lookup_eq_some_iff.mp found
  obtain ⟨value, before, after, away, entries, rest⟩ := exists_of_kerase (mem_keys_of_mem member)
  have same : value = v := by
    have other : (⟨k, value⟩ : Sigma fun _ : κ => ν) ∈ m.entries := by
      rw [entries]
      exact mem_append_right _ mem_cons_self
    exact Option.some.inj ((m.lookup_eq_some_iff.mpr other).symm.trans found)
  have erased : (erase k m).entries = before ++ after := rest
  simp only [total, erased, entries, map_append, map_cons, sum_append, sum_cons, same]
  omega

theorem total_insert (k : κ) (v : ν) :
    total (insert k v m) weight = weight v + total (erase k m) weight := by
  simp only [total, entries_insert, map_cons, sum_cons]
  rfl

theorem total_replace {old : ν} (new : ν) (found : m.lookup k = some old) :
    total (insert k new m) weight + weight old = m.total weight + weight new := by
  have rest := m.total_erase weight found
  rw [total_insert]
  omega

theorem total_insert_new (v : ν) (free : m.lookup k = none) :
    total (insert k v m) weight = weight v + m.total weight := by
  rw [total_insert, erase_of_lookup_eq_none m free]

theorem total_eq_zero (light : ∀ k v, m.lookup k = some v → weight v = 0) : m.total weight = 0 := by
  apply sum_eq_zero
  intro n member
  obtain ⟨e, entry, rfl⟩ := mem_map.mp member
  exact light e.1 e.2 (m.lookup_eq_some_iff.mpr entry)

theorem weight_le_total (found : m.lookup k = some v) : weight v ≤ m.total weight := by
  have rest := m.total_erase weight found
  omega

theorem length_insert_of_lookup (new : ν) (found : m.lookup k = some v) :
    (insert k new m).entries.length = m.entries.length := by
  have ones := m.total_replace (fun _ => 1) new found
  simp only [total, map_const', sum_replicate, smul_eq_mul, mul_one] at ones
  omega

theorem length_insert_new (v : ν) (free : m.lookup k = none) :
    (insert k v m).entries.length = m.entries.length + 1 := by
  rw [entries_insert_of_notMem (lookup_eq_none.mp free), length_cons]

end FinMap

end Gokvm.Lib
