import Mathlib.Data.Nat.ModEq

/-! # Rings

A ring of cells is read from a position that only ever grows: the cell of a position is
its remainder. A window of at most as many positions as there are cells names each
cell once, so the next cell is written without touching the window.
-/

namespace Gokvm.Lib

variable {α β : Type}

def window (cell : Nat → α) (size start count : Nat) : List α :=
  (List.range count).map fun i => cell ((start + i) % size)

theorem window_getElem? (cell : Nat → α) (size start count i : Nat) :
    (window cell size start count)[i]? =
      if i < count then some (cell ((start + i) % size)) else none := by
  by_cases inside : i < count <;> simp [window, inside]

theorem window_congr {cell other : Nat → α} {size start count : Nat}
    (same : ∀ i, i < count → cell ((start + i) % size) = other ((start + i) % size)) :
    window cell size start count = window other size start count := by
  apply List.map_congr_left
  intro i member
  exact same i (List.mem_range.mp member)

theorem window_succ (cell : Nat → α) (size start count : Nat) :
    window cell size start (count + 1) =
      window cell size start count ++ [cell ((start + count) % size)] := by
  simp [window, List.range_succ]

theorem cell_injective {size start i j : Nat} (less : i < j + size) (more : j < i + size)
    (same : (start + i) % size = (start + j) % size) : i = j := by
  have congruent : i ≡ j [MOD size] := Nat.ModEq.add_left_cancel' start same
  rcases Nat.le_total i j with low | low
  · have divides := (Nat.modEq_iff_dvd' low).mp congruent
    have none := Nat.eq_zero_of_dvd_of_lt divides (by omega)
    omega
  · have divides := (Nat.modEq_iff_dvd' low).mp congruent.symm
    have none := Nat.eq_zero_of_dvd_of_lt divides (by omega)
    omega

end Gokvm.Lib
