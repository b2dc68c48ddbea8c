import Mathlib.Tactic

/-! # Fixed-width integers in byte strings

Little- and big-endian numbers of a given width, and overwriting a part of a
byte string. Values are natural numbers; encoding keeps the low `8 * width`
bits, so decoding an encoded number reduces it modulo `256 ^ width`.
-/

namespace Gokvm.Lib

open List Nat

abbrev Bytes := List UInt8

/-- The number whose little-endian digits are the bytes. -/
def leNat : Bytes → Nat
  | [] => 0
  | b :: bs => b.toNat + 256 * leNat bs

/-- The low `width` bytes of a number, least significant first. -/
def leBytes : (width : Nat) → Nat → Bytes
  | 0, _ => []
  | width + 1, v => UInt8.ofNat v :: leBytes width (v / 256)

/-- The number whose big-endian digits are the bytes. -/
def beNat (bs : Bytes) : Nat := leNat bs.reverse

/-- The low `width` bytes of a number, most significant first. -/
def beBytes (width v : Nat) : Bytes := (leBytes width v).reverse

@[simp] theorem leBytes_length (width v : Nat) : (leBytes width v).length = width := by
  induction width generalizing v with
  | zero => rfl
  | succ width ih => simp only [leBytes, length_cons, ih]

@[simp] theorem beBytes_length (width v : Nat) : (beBytes width v).length = width := by
  simp only [beBytes, length_reverse, leBytes_length]

theorem leNat_lt (bs : Bytes) : leNat bs < 256 ^ bs.length := by
  induction bs with
  | nil => simp [leNat]
  | cons b bs ih =>
    have byte : b.toNat < 256 := b.toNat_lt
    simp only [leNat, length_cons, pow_succ]
    omega

theorem beNat_lt (bs : Bytes) : beNat bs < 256 ^ bs.length := by
  simpa only [beNat, length_reverse] using leNat_lt bs.reverse

theorem leNat_append (a b : Bytes) : leNat (a ++ b) = leNat a + 256 ^ a.length * leNat b := by
  induction a with
  | nil => simp [leNat]
  | cons x a ih =>
    simp only [cons_append, leNat, ih, length_cons, pow_succ]
    ring

theorem leNat_leBytes (width v : Nat) : leNat (leBytes width v) = v % 256 ^ width := by
  induction width generalizing v with
  | zero => simp [leBytes, leNat, mod_one]
  | succ width ih =>
    have split : 256 ^ (width + 1) = 256 * 256 ^ width := pow_succ'
    simp only [leBytes, leNat, ih, UInt8.toNat_ofNat']
    rw [split, mod_mul]

theorem beNat_beBytes (width v : Nat) : beNat (beBytes width v) = v % 256 ^ width := by
  simp only [beNat, beBytes, reverse_reverse, leNat_leBytes]

theorem leBytes_leNat (bs : Bytes) : leBytes bs.length (leNat bs) = bs := by
  induction bs with
  | nil => rfl
  | cons b bs ih =>
    have byte : b.toNat < 256 := b.toNat_lt
    have rest : (b.toNat + 256 * leNat bs) / 256 = leNat bs := by omega
    have head : UInt8.ofNat (b.toNat + 256 * leNat bs) = b := by
      apply UInt8.toNat_inj.mp
      rw [UInt8.toNat_ofNat']
      omega
    simp only [length_cons, leNat, leBytes, rest, head, ih]

theorem beBytes_beNat (bs : Bytes) : beBytes bs.length (beNat bs) = bs := by
  have reversed := leBytes_leNat bs.reverse
  rw [length_reverse] at reversed
  simp only [beBytes, beNat, reversed, reverse_reverse]

/-- Overwrite the bytes from `off` on. `data` past the end would lengthen the string; callers stay
    inside. -/
def put (bs : Bytes) (off : Nat) (data : Bytes) : Bytes :=
  bs.take off ++ data ++ bs.drop (off + data.length)

variable {bs data : Bytes} {off n : Nat}

theorem put_length (inside : off + data.length ≤ bs.length) :
    (put bs off data).length = bs.length := by
  simp only [put, length_append, length_take, length_drop]
  omega

theorem put_getElem? (inside : off ≤ bs.length) (i : Nat) :
    (put bs off data)[i]? =
      if off ≤ i ∧ i < off + data.length then data[i - off]? else bs[i]? := by
  have front : (bs.take off).length = off := by simp only [length_take]; omega
  by_cases before : i < off
  · rw [if_neg (by omega), put, append_assoc, getElem?_append_left (by omega)]
    exact getElem?_take_of_lt before
  · by_cases within : i < off + data.length
    · rw [if_pos (by omega), put, append_assoc, getElem?_append_right (by omega), front]
      exact getElem?_append_left (by omega)
    · have middle : (bs.take off ++ data).length = off + data.length := by
        rw [length_append, front]
      rw [if_neg (by omega), put, getElem?_append_right (by omega), middle, getElem?_drop]
      congr 1
      omega

theorem put_middle (a : Bytes) {b : Bytes} (c : Bytes) (same : b.length = data.length) :
    put (a ++ (b ++ c)) a.length data = a ++ (data ++ c) := by
  rw [put, take_left, ← drop_drop, drop_left, ← same, drop_left,
    append_assoc]

theorem put_append (a rest data : Bytes) (behind : off = a.length) :
    put (a ++ rest) off data = a ++ data ++ rest.drop data.length := by
  rw [behind, put, take_left, ← drop_drop, drop_left]

def part (bs : Bytes) (off n : Nat) : Bytes := (bs.drop off).take n

theorem part_length (inside : off + n ≤ bs.length) :
    (part bs off n).length = n := by
  simp only [part, length_take, length_drop]
  omega

theorem part_getElem? (bs : Bytes) (off n i : Nat) :
    (part bs off n)[i]? = if i < n then bs[off + i]? else none := by
  rw [part, getElem?_take, getElem?_drop]

theorem part_put_same (data : Bytes) (inside : off ≤ bs.length) :
    part (put bs off data) off data.length = data := by
  apply ext_getElem?
  intro i
  rw [part_getElem?, put_getElem? inside]
  split
  · rw [if_pos (by omega), Nat.add_sub_cancel_left]
  · exact (getElem?_eq_none (by omega)).symm

theorem part_put_other {a : Nat} (inside : off ≤ bs.length) (apart : a + n ≤ off ∨ off + data.length ≤ a) : part (put bs off data) a n = part bs a n := by
  apply ext_getElem?
  intro i
  rw [part_getElem?, part_getElem?, put_getElem? inside]
  split
  · rw [if_neg (by omega)]
  · rfl

theorem part_append_left {a : Bytes} (b : Bytes) (inside : off + n ≤ a.length) :
    part (a ++ b) off n = part a off n := by
  rw [part, part, drop_append_of_le_length (by omega), take_append_of_le_length]
  rw [length_drop]
  omega

theorem part_append_right (a b : Bytes) (off n : Nat) :
    part (a ++ b) (a.length + off) n = part b off n := by
  rw [part, part, ← drop_drop, drop_left]

theorem part_append_part (bs : Bytes) (off n m : Nat) :
    part bs off n ++ part bs (off + n) m = part bs off (n + m) := by
  rw [part, part, part, ← drop_drop, take_add]

theorem part_part (bs : Bytes) {m : Nat} (start : Nat) (inside : off + n ≤ m) :
    part (part bs start m) off n = part bs (start + off) n := by
  rw [part, part, part, drop_take, drop_drop, take_take, min_eq_left (by omega)]

/-- The start of block `i` of a string of blocks of one length. -/
theorem part_flatMap {α : Type} {blocks : List α} {block : α → Bytes} {size : Nat}
    (sizes : ∀ a ∈ blocks, (block a).length = size) {i : Nat} {a : α} (here : blocks[i]? = some a)
    (inside : n ≤ size) (rest : Bytes) :
    part (blocks.flatMap block ++ rest) (i * size) n = part (block a) 0 n := by
  induction blocks generalizing i with
  | nil => cases here
  | cons first blocks ih =>
    have length := sizes first mem_cons_self
    rw [flatMap_cons, append_assoc]
    cases i with
    | zero =>
      obtain rfl : first = a := Option.some.inj here
      rw [zero_mul]
      exact part_append_left _ (by omega)
    | succ i =>
      have past : (i + 1) * size = (block first).length + i * size := by rw [length, succ_mul, add_comm]
      rw [past, part_append_right]
      exact ih (fun b member => sizes b (mem_cons_of_mem _ member)) here

theorem leNat_zeros (n : Nat) : leNat (replicate n 0) = 0 := by
  induction n with
  | zero => rfl
  | succ n ih => simp [replicate_succ, leNat, ih]

theorem beNat_zeros (n : Nat) : beNat (replicate n 0) = 0 := by
  rw [beNat, reverse_replicate, leNat_zeros]

theorem part_zeros {len : Nat} (inside : off + n ≤ len) :
    part (replicate len 0) off n = replicate n 0 := by
  rw [part, drop_replicate, take_replicate]
  congr 1
  omega

/-- The `n` bytes of some contents from `off` on. -/
def slice (v : Nat → UInt8) (off n : Nat) : Bytes := (range n).map (fun i => v (off + i))

@[simp] theorem slice_length (v : Nat → UInt8) (off n : Nat) : (slice v off n).length = n := by
  rw [slice, length_map, length_range]

theorem slice_append (v : Nat → UInt8) (off n m : Nat) :
    slice v off (n + m) = slice v off n ++ slice v (off + n) m := by
  simp only [slice, range_add, map_append, map_map, Function.comp_def, add_assoc]

/-- Byte contents with `data` laid over them from `off` on. -/
def overlay (v : Nat → UInt8) (off : Nat) (data : Bytes) (i : Nat) : UInt8 :=
  if off ≤ i ∧ i < off + data.length then data.getD (i - off) 0 else v i

@[simp] theorem overlay_nil (v : Nat → UInt8) (off : Nat) : overlay v off [] = v := by
  funext i
  rw [overlay, if_neg (by simp)]

theorem overlay_append (v : Nat → UInt8) (off : Nat) (a b : Bytes) :
    overlay (overlay v off a) (off + a.length) b = overlay v off (a ++ b) := by
  funext i
  simp only [overlay, length_append]
  by_cases second : off + a.length ≤ i ∧ i < off + a.length + b.length
  · rw [if_pos second, if_pos (by omega), getD_eq_getElem?_getD, getD_eq_getElem?_getD,
      getElem?_append_right (by omega)]
    congr 2
    omega
  · rw [if_neg second]
    by_cases first : off ≤ i ∧ i < off + a.length
    · rw [if_pos first, if_pos (by omega), getD_eq_getElem?_getD, getD_eq_getElem?_getD,
        getElem?_append_left (by omega)]
    · rw [if_neg first, if_neg (by omega)]

end Gokvm.Lib
