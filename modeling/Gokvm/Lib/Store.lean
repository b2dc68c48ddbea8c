import Gokvm.Lib.Bytes

/-! # Sparse byte stores

A store is a byte array of a given size that can be cut and extended, such as a
file. Bytes past its end read as zero, so extending it never reveals old
contents: this is a field of the structure and not a hypothesis of its lemmas.
-/

namespace Gokvm.Lib

open List

@[ext] structure Store where
  size : Nat
  byte : Nat → UInt8
  beyond : ∀ i, size ≤ i → byte i = 0

namespace Store

variable (f g : Store)

/-- The `n` bytes from `off` on, zeros past the end. -/
def read (off n : Nat) : Bytes := (range n).map (fun i => f.byte (off + i))

/-- Write `data` at `off`, extending the store where needed. Writing nothing does not extend it. -/
def write (off : Nat) (data : Bytes) : Store where
  size := if data.length = 0 then f.size else max f.size (off + data.length)
  byte i := if off ≤ i ∧ i < off + data.length then data.getD (i - off) 0 else f.byte i
  beyond := by
    intro i past
    split at past
    next empty =>
      rw [if_neg (by omega)]
      exact f.beyond i past
    · rw [if_neg (by omega)]
      exact f.beyond i (by omega)

def resize (n : Nat) : Store where
  size := n
  byte i := if i < n then f.byte i else 0
  beyond := by
    intro i past
    rw [if_neg (by omega)]

variable {f g}

@[simp] theorem read_length (off n : Nat) : (f.read off n).length = n := by
  simp only [read, length_map, length_range]

theorem read_getElem? (off n i : Nat) :
    (f.read off n)[i]? = if i < n then some (f.byte (off + i)) else none := by
  by_cases inside : i < n <;> simp [read, inside]

theorem byte_write (off : Nat) (data : Bytes) (i : Nat) :
    (f.write off data).byte i =
      if off ≤ i ∧ i < off + data.length then data.getD (i - off) 0 else f.byte i := rfl

variable {off n a : Nat} {data : Bytes}

theorem byte_write_outside {i : Nat} (outside : i < off ∨ off + data.length ≤ i) : (f.write off data).byte i = f.byte i := by
  rw [byte_write, if_neg (by omega)]

theorem size_write_inside (inside : off + data.length ≤ f.size) :
    (f.write off data).size = f.size := by
  simp only [write]
  split
  · rfl
  · omega

theorem size_le_write (off : Nat) (data : Bytes) : f.size ≤ (f.write off data).size := by
  simp only [write]
  split <;> omega

@[simp] theorem write_nil (off : Nat) : f.write off [] = f := by
  apply Store.ext
  · simp [write]
  · funext i
    simp [byte_write]

theorem byte_resize (n i : Nat) : (f.resize n).byte i = if i < n then f.byte i else 0 := rfl

theorem byte_resize_grow (grow : f.size ≤ n) (i : Nat) :
    (f.resize n).byte i = f.byte i := by
  rw [byte_resize]
  split
  · rfl
  · exact (f.beyond i (by omega)).symm

theorem read_congr (same : ∀ i, off ≤ i → i < off + n → f.byte i = g.byte i) :
    f.read off n = g.read off n := by
  apply map_congr_left
  intro i member
  have inside : i < n := mem_range.mp member
  exact same (off + i) (by omega) (by omega)

theorem read_write_disjoint (apart : a + n ≤ off ∨ off + data.length ≤ a) :
    (f.write off data).read a n = f.read a n := by
  apply read_congr
  intro i low high
  exact byte_write_outside (by omega)

theorem read_write_self (off : Nat) (data : Bytes) :
    (f.write off data).read off data.length = data := by
  apply ext_getElem?
  intro i
  rw [read_getElem?, byte_write]
  split
  next inside =>
    rw [if_pos (by omega), Nat.add_sub_cancel_left, getD_eq_getElem?_getD,
      getElem?_eq_getElem inside, Option.getD_some]
  · exact (getElem?_eq_none (by omega)).symm

/-- A read around a write sees the old bytes with the new ones put in place. -/
theorem read_write_inside (data : Bytes) (low : a ≤ off) (high : off + data.length ≤ a + n) :
    (f.write off data).read a n = put (f.read a n) (off - a) data := by
  apply ext_getElem?
  intro i
  rw [put_getElem? (by rw [read_length]; omega), read_getElem?, read_getElem?, byte_write]
  by_cases within : off ≤ a + i ∧ a + i < off + data.length
  · have inside : i - (off - a) < data.length := by omega
    have same : a + i - off = i - (off - a) := by omega
    rw [if_pos (by omega), if_pos within, if_pos (by omega), same, getD_eq_getElem?_getD,
      getElem?_eq_getElem inside, Option.getD_some]
  · rw [if_neg within, if_neg (show ¬(off - a ≤ i ∧ i < off - a + data.length) by omega)]

theorem part_read {k m : Nat} (inside : k + m ≤ n) :
    part (f.read a n) k m = f.read (a + k) m := by
  apply ext_getElem?
  intro i
  rw [part, getElem?_take, getElem?_drop, read_getElem?, read_getElem?, Nat.add_assoc]
  by_cases within : i < m
  · rw [if_pos within, if_pos within, if_pos (by omega)]
  · rw [if_neg within, if_neg within]

theorem read_write_left (off : Nat) (first second : Bytes) :
    (f.write off (first ++ second)).read off first.length = first := by
  have whole := read_write_self (f := f) off (first ++ second)
  have left : part ((f.write off (first ++ second)).read off (first ++ second).length) 0 first.length =
      (f.write off (first ++ second)).read off first.length := by
    rw [part_read (by simp), Nat.add_zero]
  rw [← left, whole, part, drop_zero, take_left]

/-- Putting back what stood in a range undoes any partial overwrite of it. -/
theorem write_restore (inside : off + data.length ≤ f.size) (k : Nat) :
    (f.write off (data.take k)).write off (f.read off data.length) = f := by
  have prefixInside : off + (data.take k).length ≤ f.size := by
    have shorter : (data.take k).length ≤ data.length := length_take_le' k data
    omega
  apply Store.ext
  · rw [size_write_inside, size_write_inside prefixInside]
    rw [size_write_inside prefixInside, read_length]
    exact inside
  · funext i
    rw [byte_write, read_length]
    by_cases within : off ≤ i ∧ i < off + data.length
    · have place : off + (i - off) = i := by omega
      rw [if_pos within, getD_eq_getElem?_getD, read_getElem?, if_pos (by omega),
        Option.getD_some, place]
    · rw [if_neg within]
      apply byte_write_outside
      have shorter : (data.take k).length ≤ data.length := length_take_le' k data
      omega

theorem resize_write_beyond (past : f.size ≤ off) :
    (f.write off data).resize f.size = f := by
  apply Store.ext
  · rfl
  · funext i
    rw [byte_resize]
    split
    · exact byte_write_outside (by omega)
    · exact (f.beyond i (by omega)).symm

/-! ## Sparse stores -/

def blank (n : Nat) : Store where
  size := n
  byte _ := 0
  beyond _ _ := rfl

/-- Several pieces written one after the other. -/
def writes (f : Store) (pieces : List (Nat × Bytes)) : Store :=
  pieces.foldl (fun f piece => f.write piece.1 piece.2) f

theorem read_blank (n off len : Nat) : (blank n).read off len = replicate len 0 := by
  simp [read, blank, map_const']

theorem read_writes_apart {pieces : List (Nat × Bytes)} :
    ∀ {f : Store}, (∀ piece ∈ pieces, off + n ≤ piece.1 ∨ piece.1 + piece.2.length ≤ off) →
      (f.writes pieces).read off n = f.read off n := by
  induction pieces with
  | nil => exact fun _ => rfl
  | cons piece pieces ih =>
    intro f apart
    have rest := ih (f := f.write piece.1 piece.2)
      (fun other member => apart other (mem_cons_of_mem _ member))
    exact rest.trans (read_write_disjoint (apart piece mem_cons_self))

theorem size_writes_inside {pieces : List (Nat × Bytes)} :
    ∀ {f : Store}, (∀ piece ∈ pieces, piece.1 + piece.2.length ≤ f.size) →
      (f.writes pieces).size = f.size := by
  induction pieces with
  | nil => exact fun _ => rfl
  | cons piece pieces ih =>
    intro f inside
    have first := size_write_inside (f := f) (inside piece mem_cons_self)
    have rest := ih (f := f.write piece.1 piece.2)
      (fun other member => by rw [first]; exact inside other (mem_cons_of_mem _ member))
    exact rest.trans first

end Store

end Gokvm.Lib
