import Mathlib.Tactic

/-! # Counting entries of a table

A table is a function on natural numbers of which the first `n` entries are in use. How many
of them meet a condition changes by one entry at a time. The flags of a finite table are
counted in the same way.
-/

namespace Gokvm.Lib

open List Function

variable {α : Type*} (p : α → Bool)

/-- How many of the first `n` entries meet the condition. -/
def tally (f : Nat → α) (n : Nat) : Nat := (range n).countP fun i => p (f i)

theorem tally_congr {f g : Nat → α} {n : Nat} (same : ∀ i, i < n → p (f i) = p (g i)) :
    tally p f n = tally p g n :=
  countP_congr fun i member => by rw [same i (mem_range.mp member)]

theorem tally_succ (f : Nat → α) (n : Nat) : tally p f (n + 1) = tally p f n + (p (f n)).toNat := by
  rw [tally, range_succ, countP_append, countP_singleton, ← tally]
  cases p (f n) <;> rfl

theorem tally_update_out {f : Nat → α} {i n : Nat} (out : n ≤ i) (a : α) :
    tally p (update f i a) n = tally p f n := by
  apply tally_congr
  intro j small
  rw [update_of_ne (by omega)]

theorem tally_update {f : Nat → α} {i n : Nat} (inside : i < n) (a : α) :
    tally p (update f i a) n + (p (f i)).toNat = tally p f n + (p a).toNat := by
  induction n with
  | zero => omega
  | succ n ih =>
    rw [tally_succ, tally_succ]
    by_cases last : i = n
    · subst last
      rw [tally_update_out p le_rfl, update_self]
      omega
    · rw [update_of_ne (Ne.symm last)]
      have rest := ih (by omega)
      omega

theorem tally_update_new (f : Nat → α) (n : Nat) (a : α) :
    tally p (update f n a) (n + 1) = tally p f n + (p a).toNat := by
  rw [tally_succ, tally_update_out p le_rfl, update_self]

theorem length_le_tally {f : Nat → α} {n : Nat} {indices : List Nat} (distinct : indices.Nodup)
    (counted : ∀ i ∈ indices, i < n ∧ p (f i) = true) : indices.length ≤ tally p f n := by
  rw [tally, countP_eq_length_filter]
  apply List.Subperm.length_le
  apply subperm_of_subset distinct
  intro i member
  obtain ⟨small, meets⟩ := counted i member
  exact mem_filter.mpr ⟨mem_range.mpr small, meets⟩

section Flags

variable {κ : Type*} [Fintype κ]

/-- How many flags of a finite table are set. -/
def flagCount (flags : κ → Bool) : Nat := ∑ k, (flags k).toNat

theorem flagCount_update [DecidableEq κ] (flags : κ → Bool) (k : κ) (flag : Bool) :
    flagCount (update flags k flag) + (flags k).toNat = flagCount flags + flag.toNat := by
  have changed : (fun j => (update flags k flag j).toNat) =
      update (fun j => (flags j).toNat) k flag.toNat :=
    funext fun j => apply_update (fun _ => Bool.toNat) flags k flag j
  have whole : flagCount flags = (flags k).toNat + ∑ j ∈ Finset.univ \ {k}, (flags j).toNat :=
    Finset.sum_eq_add_sum_sdiff_singleton_of_mem (Finset.mem_univ k) _
  rw [whole, flagCount, changed, Finset.sum_update_of_mem (Finset.mem_univ k)]
  omega

theorem flagCount_eq_zero_iff (flags : κ → Bool) :
    flagCount flags = 0 ↔ ∀ k, flags k = false := by
  rw [flagCount, Finset.sum_eq_zero_iff]
  constructor
  · intro zero k
    have none := zero k (Finset.mem_univ k)
    cases flag : flags k with
    | false => rfl
    | true =>
      rw [flag] at none
      cases none
  · intro unset k _
    rw [unset k]
    rfl

end Flags

end Gokvm.Lib
