import Gokvm.Virtio.GpuFrame

/-! # Transfers as a copy byte by byte

A transfer walks the regions behind a resource with a cursor that only moves forward, and a
transfer of whole rows from the start reads them in one piece. Both leave the resource as
if every byte had been looked up on its own.
-/

namespace Gokvm.Virtio

open Lib Nat UInt32 GpuBackingReader

/-- The byte at a position of consecutive regions, the first of which starts at `pos`. -/
def backingByte (mem : Store) : (pos : Nat) → List GpuMemEntry → Nat → Option UInt8
  | _, [], _ => none
  | pos, e :: rest, s =>
    if s < pos + e.length.toNat then some (mem.byte (e.addr.toNat + (s - pos)))
    else backingByte mem (pos + e.length.toNat) rest s

def backingSize (entries : List GpuMemEntry) : Nat := (entries.map fun e => e.length.toNat).sum

def EntriesValid (mem : Store) (entries : List GpuMemEntry) : Prop :=
  ∀ e ∈ entries, validRange mem e.addr.toNat e.length.toNat = true

/-! ## The cursor -/

/-- A cursor from which the bytes from `start` on can be read. -/
structure Continues (mem : Store) (entries : List GpuMemEntry) (pos start : Nat)
    (reader : GpuBackingReader) : Prop where
  valid : EntriesValid mem reader.entries
  reached : reader.pos.toNat ≤ start
  small : reader.pos.toNat + backingSize reader.entries < 2 ^ 63
  bytes : ∀ s, start ≤ s →
    backingByte mem reader.pos.toNat reader.entries s = backingByte mem pos entries s

/-- The bytes after a read of `left` bytes at position `off` into place `start`. -/
def Copies (mem : Store) (entries : List GpuMemEntry) (pos off start left : Nat) (data data' : Store) :
    Prop :=
  ∀ i, data'.byte i =
    if start ≤ i ∧ i < start + left then
      (backingByte mem pos entries (off + (i - start))).getD (data.byte i)
    else data.byte i

variable {mem : Store}

theorem copies_write {e : GpuMemEntry} {rest : List GpuMemEntry} {pos off n : Nat}
    (reached : pos ≤ off) (inside : off + n ≤ pos + e.length.toNat) (start : Nat) (data : Store) :
    Copies mem (e :: rest) pos off start n data
      (data.write start (mem.read (e.addr.toNat + (off - pos)) n)) := by
  intro i
  simp only [Store.byte_write, Store.read_length, List.getD_eq_getElem?_getD, Store.read_getElem?,
    backingByte]
  grind

/-- The rest of a read comes from the regions behind the first one. -/
theorem Copies.append {e : GpuMemEntry} {rest : List GpuMemEntry} {pos off start n left : Nat}
    {data data1 data' : Store} (used : off + n = pos + e.length.toNat) (short : n ≤ left)
    (first : Copies mem (e :: rest) pos off start n data data1)
    (second : Copies mem rest (pos + e.length.toNat) (off + n) (start + n) (left - n) data1 data') :
    Copies mem (e :: rest) pos off start left data data' := by
  intro i
  have early := first i
  have late := second i
  rw [backingByte] at early ⊢
  grind

theorem GpuBackingReader.read_copies (signed : mem.size < 2 ^ 63) (entries : List GpuMemEntry) :
    ∀ (pos off : UInt64) (start left : Nat) (data : Store), EntriesValid mem entries →
      pos.toNat ≤ off.toNat → pos.toNat + backingSize entries < 2 ^ 63 →
      off.toNat + left < 2 ^ 63 →
        Continues mem entries pos.toNat (off.toNat + left)
            (read mem entries pos off start left data).1 ∧
          Copies mem entries pos.toNat off.toNat start left data
            (read mem entries pos off start left data).2 := by
  induction entries with
  | nil =>
      intro pos off start left data valid reached small _
      exact ⟨⟨valid, le_add_right_of_le reached, small, fun _ _ => rfl⟩,
        fun i => by simp [read, backingByte]⟩
  | cons e rest ih =>
      intro pos off start left data valid reached small bound
      have total : backingSize (e :: rest) = e.length.toNat + backingSize rest := rfl
      have inMemory := (validRange_iff.mp (valid e List.mem_cons_self)).1
      have entryEnd : (pos + e.length.toUInt64).toNat = pos.toNat + e.length.toNat := by
        simp
        omega
      have behind := ih (pos + e.length.toUInt64)
      simp only [entryEnd] at behind
      have restValid : EntriesValid mem rest := fun other member => valid other (List.mem_cons_of_mem e member)
      have past (s : Nat) (beyond : pos.toNat + e.length.toNat ≤ s) :
          backingByte mem pos.toNat (e :: rest) s =
            backingByte mem (pos.toNat + e.length.toNat) rest s := by
        rw [backingByte, if_neg (not_lt.mpr beyond)]
      simp only [read]
      split
      next done =>
        subst done
        exact ⟨⟨valid, reached, small, fun _ _ => rfl⟩, fun i => by rw [if_neg (by omega)]⟩
      split
      next beyond =>
        rw [UInt64.le_iff_toNat_le, entryEnd] at beyond
        obtain ⟨continues, copies⟩ := behind off start left data restValid beyond (by omega) bound
        refine ⟨{ continues with bytes := fun s later => ?_ }, fun i => ?_⟩
        · rw [continues.bytes s later, past s (by omega)]
        · rw [copies i, past _ (by omega)]
      next ahead =>
        rw [UInt64.not_le, UInt64.lt_iff_toNat_lt, entryEnd] at ahead
        have skip : (off - pos).toNat = off.toNat - pos.toNat :=
          UInt64.toNat_sub_of_le _ _ (UInt64.le_iff_toNat_le.mpr reached)
        have remains : (e.length.toUInt64 - (off - pos)).toNat =
            e.length.toNat - (off.toNat - pos.toNat) := by
          rw [UInt64.toNat_sub_of_le _ _ (by rw [UInt64.le_iff_toNat_le, skip]; simp; omega), skip,
            toNat_toUInt64]
        have place : (e.addr + (off - pos)).toNat = e.addr.toNat + (off.toNat - pos.toNat) := by
          rw [UInt64.toNat_add, skip]
          omega
        rw [remains, place]
        generalize amount : min (e.length.toNat - (off.toNat - pos.toNat)) left = n
        have readable : validRange mem (e.addr.toNat + (off.toNat - pos.toNat)) n = true := by
          have whole := validRange_iff.mp (valid e List.mem_cons_self)
          rw [validRange_iff]
          omega
        have first : Copies mem (e :: rest) pos.toNat off.toNat start n data _ :=
          copies_write reached (by omega) start data
        simp only [readable, if_true]
        split
        next all =>
          subst all
          exact ⟨⟨valid, le_add_right_of_le reached, small, fun _ _ => rfl⟩, first⟩
        next more =>
          have next : (off + UInt64.ofNat n).toNat = off.toNat + n := by
            simp
            omega
          obtain ⟨continues, copies⟩ := behind (off + UInt64.ofNat n) (start + n) (left - n) _ restValid
            (by omega) (by omega) (by omega)
          rw [next] at continues copies
          refine ⟨{ continues with reached := by have := continues.reached; omega, bytes := ?_ },
            first.append (by omega) (by omega) copies⟩
          intro s later
          rw [continues.bytes s (by omega), past s (by omega)]

/-! ## Rows -/

/-- A resource as creation and attachment leave it. -/
structure Attached (mem : Store) (res : GpuResource) : Prop where
  width : res.width.toNat ≤ gpuMaxDimension.toNat
  height : res.height.toNat ≤ gpuMaxDimension.toNat
  full : res.Full
  few : res.backing.length ≤ gpuMaxBacking.toNat
  valid : EntriesValid mem res.backing

def rowStart (res : GpuResource) (r : GpuRect) (row : Nat) : Nat :=
  (r.y.toNat + row) * (res.width.toNat * 4) + r.x.toNat * 4

/-- The rows from `row` on are copied, and nothing else changes. -/
structure RowsCopied (mem : Store) (res : GpuResource) (r : GpuRect) (offset row : Nat)
    (data data' : Store) : Prop where
  inside : ∀ line k, row ≤ line → line < r.h.toNat → k < r.w.toNat * 4 →
    data'.byte (rowStart res r line + k) =
      (backingByte mem 0 res.backing (offset + res.width.toNat * 4 * line + k)).getD
        (data.byte (rowStart res r line + k))
  outside : ∀ i, (∀ line k, row ≤ line → line < r.h.toNat → k < r.w.toNat * 4 →
    i ≠ rowStart res r line + k) → data'.byte i = data.byte i

section Rows

variable {res : GpuResource} {r : GpuRect} {offset : UInt64}

theorem rowStart_lt (res : GpuResource) (r : GpuRect) {row later : Nat} (order : row < later) :
    rowStart res r row + res.width.toNat * 4 ≤ rowStart res r later := by
  have steps := Nat.mul_le_mul_right (res.width.toNat * 4)
    (show r.y.toNat + row + 1 ≤ r.y.toNat + later by omega)
  rw [succ_mul] at steps
  unfold rowStart
  omega

theorem RowsCopied.cons {offset row : Nat} {data data1 data' : Store}
    (narrow : r.w.toNat ≤ res.width.toNat) (here : row < r.h.toNat)
    (first : Copies mem res.backing 0 (offset + res.width.toNat * 4 * row) (rowStart res r row)
      (r.w.toNat * 4) data data1)
    (later : RowsCopied mem res r offset (row + 1) data1 data') :
    RowsCopied mem res r offset row data data' where
  inside line k low high short := by
    rcases eq_or_lt_of_le low with rfl | after
    · rw [later.outside, first, if_pos (by omega), Nat.add_sub_cancel_left]
      intro other k' above _ _ same
      have apart := rowStart_lt res r (show row < other from above)
      omega
    · have apart := rowStart_lt res r after
      rw [later.inside line k after high short, first, if_neg (by omega)]
  outside i free := by
    rw [later.outside i fun line k low => free line k (by omega), first, if_neg]
    rintro ⟨low, high⟩
    exact free row (i - rowStart res r row) le_rfl here (by omega) (by omega)

theorem rowStart_le {row : Nat} (full : res.Full) (fits : r.fits res = true) (here : row < r.h.toNat) :
    rowStart res r row + r.w.toNat * 4 ≤ res.data.size := by
  obtain ⟨columns, lines⟩ := GpuRect.fits_spec fits
  have bottom := Nat.mul_le_mul_right (res.width.toNat * 4)
    (show r.y.toNat + row + 1 ≤ res.height.toNat by omega)
  rw [full, mul_comm res.width.toNat, mul_assoc]
  rw [succ_mul] at bottom
  unfold rowStart
  omega

theorem Attached.size_le (attached : Attached mem res) : res.data.size ≤ 4096 * 4096 * 4 := by
  rw [attached.full]
  exact Nat.mul_le_mul_right 4 (Nat.mul_le_mul attached.width attached.height)

/-- Where the code puts a row and how much of it, and where it reads it. -/
theorem Attached.row_place (attached : Attached mem res) (fits : r.fits res = true) {row : UInt32}
    (here : row.toNat < r.h.toNat) (bound : offset.toNat ≤ res.data.size) :
    ((r.y + row) * (res.width * gpuBytesPerPixel) + r.x * gpuBytesPerPixel).toNat =
        rowStart res r row.toNat ∧
      (r.w * gpuBytesPerPixel).toNat = r.w.toNat * 4 ∧
      (offset + (res.width * gpuBytesPerPixel).toUInt64 * row.toUInt64).toNat =
        offset.toNat + res.width.toNat * 4 * row.toNat ∧
      (row + 1).toNat = row.toNat + 1 := by
  obtain ⟨columns, lines⟩ := GpuRect.fits_spec fits
  have wide : res.width.toNat ≤ 4096 := attached.width
  have high : res.height.toNat ≤ 4096 := attached.height
  have four : gpuBytesPerPixel.toNat = 4 := rfl
  have small := attached.size_le
  have placed := rowStart_le attached.full fits here
  have src : res.width.toNat * 4 * row.toNat ≤ 4096 * 4 * 4096 :=
    Nat.mul_le_mul (by omega) (by omega)
  have stride : res.width.toNat * 4 % 2 ^ 32 = res.width.toNat * 4 := mod_eq_of_lt (by omega)
  have line : (r.y.toNat + row.toNat) % 2 ^ 32 = r.y.toNat + row.toNat := mod_eq_of_lt (by omega)
  unfold rowStart at placed ⊢
  simp only [UInt32.toNat_add, UInt32.toNat_mul, UInt64.toNat_add, UInt64.toNat_mul,
    toNat_toUInt64, four, stride, line, toNat_one]
  omega

theorem transferRows_copies (signed : mem.size < 2 ^ 63) (attached : Attached mem res)
    (fits : r.fits res = true) (bound : offset.toNat ≤ res.data.size) (rows : Nat) :
    ∀ (row : UInt32) (reader : GpuBackingReader) (data : Store), data.size = res.data.size →
      row.toNat + rows = r.h.toNat →
      Continues mem res.backing 0 (offset.toNat + res.width.toNat * 4 * row.toNat) reader →
        RowsCopied mem res r offset.toNat row.toNat data
          (transferRows mem r.x r.y r.w (res.width * gpuBytesPerPixel) offset rows row reader data) := by
  have small := attached.size_le
  obtain ⟨columns, lines⟩ := GpuRect.fits_spec fits
  induction rows with
  | zero =>
      intro row reader data size last continues
      exact ⟨fun line k low high _ => by omega, fun i _ => rfl⟩
  | succ rows ih =>
      intro row reader data size last continues
      obtain ⟨dst, n, src, next⟩ := attached.row_place fits (show row.toNat < r.h.toNat by omega) bound
      have placed := rowStart_le attached.full fits (show row.toNat < r.h.toNat by omega)
      have reached := continues.reached
      have stride : res.width.toNat * 4 * (row + 1).toNat =
          res.width.toNat * 4 * row.toNat + res.width.toNat * 4 := by rw [next, mul_succ]
      have far : res.width.toNat * 4 * row.toNat ≤ rowStart res r row.toNat := by
        unfold rowStart
        rw [add_mul, mul_comm row.toNat]
        omega
      simp only [transferRows, dst, n]
      split
      next full => exact ⟨fun line k low high short => by omega, fun i _ => rfl⟩
      rw [min_eq_left (by omega)]
      generalize offset + (res.width * gpuBytesPerPixel).toUInt64 * row.toUInt64 = off at src ⊢
      obtain ⟨moved, copied⟩ := read_copies signed reader.entries reader.pos off
        (rowStart res r row.toNat) (r.w.toNat * 4) data continues.valid (by omega) continues.small
        (by omega)
      have kept := size_read mem reader.entries reader.pos off
        (rowStart res r row.toNat) (r.w.toNat * 4) data (by omega)
      have rest := ih (row + 1) _ _ (kept.trans size) (by omega)
        { moved with
            reached := by have := moved.reached; omega
            bytes := fun s later => by rw [moved.bytes s (by omega), continues.bytes s (by omega)] }
      rw [next] at rest
      refine RowsCopied.cons (by omega) (by omega) (fun i => ?_) rest
      rw [copied i, src, continues.bytes _ (by omega)]

/-- Whole rows from the start on lie one after the other on both sides. -/
theorem Copies.rows {data' : Store} (left : r.x = 0) (top : r.y = 0) (whole : r.w = res.width)
    (copied : Copies mem res.backing 0 0 0 (res.width.toNat * 4 * r.h.toNat) res.data data') :
    RowsCopied mem res r 0 0 res.data data' := by
  have start (line : Nat) : rowStart res r line = res.width.toNat * 4 * line := by
    simp [rowStart, left, top, mul_comm line]
  constructor
  · intro line k _ inside short
    have bottom := mul_le_mul_left (res.width.toNat * 4) (succ_le_of_lt inside)
    rw [mul_succ] at bottom
    rw [whole] at short
    rw [start, copied, if_pos (by omega), Nat.sub_zero, Nat.zero_add, Nat.zero_add]
  · intro i free
    rw [copied, if_neg]
    rintro ⟨_, inside⟩
    have positive : 0 < res.width.toNat * 4 := pos_of_ne_zero fun none => by simp [none] at inside
    refine free (i / (res.width.toNat * 4)) (i % (res.width.toNat * 4)) (zero_le _)
      (Nat.div_lt_of_lt_mul (by omega)) ?_ ?_
    · rw [whole]
      exact mod_lt i positive
    · rw [start, div_add_mod]

theorem backingSize_le (entries : List GpuMemEntry) :
    backingSize entries ≤ entries.length * 2 ^ 32 := by
  induction entries with
  | nil => exact zero_le _
  | cons e rest ih =>
      have wide := e.length.toNat_lt
      have total : backingSize (e :: rest) = e.length.toNat + backingSize rest := rfl
      rw [total, List.length_cons]
      omega

/-- An accepted transfer copies the rows of its rectangle byte by byte and changes nothing else. -/
theorem transfer_is_naive_copy (signed : mem.size < 2 ^ 63) (attached : Attached mem res)
    (fits : r.fits res = true) (bound : offset.toNat ≤ res.data.size) :
    (transferToHost2D mem res r.x r.y r.w r.h offset).size = res.data.size ∧
      RowsCopied mem res r offset.toNat 0 res.data (transferToHost2D mem res r.x r.y r.w r.h offset) := by
  have few : backingSize res.backing < 2 ^ 63 := by
    have count : res.backing.length ≤ 8640 := attached.few
    have total := backingSize_le res.backing
    omega
  have start : Continues mem res.backing 0 0 { entries := res.backing } :=
    ⟨attached.valid, le_rfl, by simpa using few, fun _ _ => rfl⟩
  obtain ⟨_, lines⟩ := GpuRect.fits_spec fits
  have small := attached.size_le
  refine ⟨size_transferToHost2D mem res r.x r.y r.w r.h offset, ?_⟩
  simp only [transferToHost2D]
  split
  next fast =>
    obtain ⟨rfl, left, top, whole⟩ := fast
    have wide : res.width.toNat ≤ 4096 := attached.width
    have stride : (res.width * gpuBytesPerPixel).toNat = res.width.toNat * 4 := by
      rw [UInt32.toNat_mul]
      exact mod_eq_of_lt (by change _ * 4 < _; omega)
    have inside : res.width.toNat * 4 * r.h.toNat ≤ res.data.size := by
      rw [attached.full, mul_right_comm]
      exact Nat.mul_le_mul_right 4 (mul_le_mul_left _ (by omega))
    rw [stride, min_eq_left (show r.h.toNat ≤ res.height.toNat by omega), min_eq_left inside]
    exact Copies.rows left top whole (read_copies signed res.backing 0 0 0 _ res.data
      start.valid le_rfl start.small (by change 0 + _ < _; omega)).2
  · exact transferRows_copies signed attached fits bound r.h.toNat 0 _ res.data rfl (Nat.zero_add _)
      { start with reached := zero_le _, bytes := fun _ _ => rfl }

end Rows

/-- Two by two pixels over twelve bytes in three regions, one of them empty. -/
def scattered : GpuResource where
  width := 2
  height := 2
  format := 1
  data := Store.blank 16
  backing := [⟨16, 6⟩, ⟨0, 0⟩, ⟨4, 6⟩]

def scatteredMemory : Store := (Store.blank 32).write 0 ((List.range 32).map UInt8.ofNat)

/-- The first row is in two regions, and the second lies behind all of them. -/
theorem scattered_row_copied :
    let data := transferToHost2D scatteredMemory scattered 1 0 1 2 4
    data.byte 5 = 21 ∧ data.byte 6 = 4 ∧ data.byte 12 = 0 := by
  have attached : Attached scatteredMemory scattered :=
    ⟨by decide, by decide, rfl, by decide, by unfold EntriesValid; decide⟩
  have copied := (transfer_is_naive_copy (r := ⟨1, 0, 1, 2⟩) (by decide) attached (by decide)
    (show (4 : UInt64).toNat ≤ _ by decide)).2.inside
  exact ⟨copied 0 1 (by decide) (by decide) (by decide), copied 0 2 (by decide) (by decide) (by decide),
    copied 1 0 (by decide) (by decide) (by decide)⟩

end Gokvm.Virtio
