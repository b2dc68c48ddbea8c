import Gokvm.Lib.Bytes

/-! # Packed length prefixes

The aligned PER length of a payload below 32 KiB: one byte below 128, otherwise two
bytes with the top bit of the first one set.
-/

namespace Gokvm.Lib

open List Nat

/-- The length at the front and the bytes it takes; `none` when the string is too short. -/
def perLength : Bytes → Option (Nat × Nat)
  | [] => none
  | b :: rest =>
    if b &&& 0x80 = 0 then some (b.toNat, 1)
    else match rest with
      | [] => none
      | c :: _ => some ((b &&& 0x7f).toNat <<< 8 ||| c.toNat, 2)

def perBytes (n : Nat) : Bytes :=
  if n < 128 then [UInt8.ofNat n] else [UInt8.ofNat (n >>> 8) ||| 0x80, UInt8.ofNat n]

theorem perBytes_length (n : Nat) : (perBytes n).length = if n < 128 then 1 else 2 := by
  unfold perBytes
  split <;> rfl

theorem forall_byte {P : UInt8 → Prop} (all : ∀ n : Fin 256, P (UInt8.ofNat n)) (b : UInt8) :
    P b := by
  have value : UInt8.ofNat b.toNat = b := UInt8.ofNat_toNat
  exact value ▸ all ⟨b.toNat, b.toNat_lt⟩

private theorem top_bit : ∀ b : UInt8, b &&& 0x80 = 0 ↔ b.toNat < 128 :=
  forall_byte (by decide +kernel)

private theorem top_bit_set : ∀ b : UInt8, b.toNat < 128 →
    (b ||| 0x80) &&& 0x80 ≠ 0 ∧ ((b ||| 0x80) &&& 0x7f).toNat = b.toNat :=
  forall_byte (by decide +kernel)

private theorem low_bits_lt : ∀ b : UInt8, (b &&& 0x7f).toNat < 128 :=
  forall_byte (by decide +kernel)

theorem perLength_lt {bs : Bytes} {n off : Nat} (packed : perLength bs = some (n, off)) :
    n < 32768 ∧ 1 ≤ off ∧ off ≤ bs.length := by
  cases bs with
  | nil => cases packed
  | cons b rest =>
    simp only [perLength] at packed
    by_cases short : b &&& 0x80 = 0
    · have low := (top_bit b).mp short
      rw [if_pos short] at packed
      cases packed
      exact ⟨by omega, le_rfl, succ_le_succ (zero_le _)⟩
    · rw [if_neg short] at packed
      cases rest with
      | nil => cases packed
      | cons c rest =>
        have high := low_bits_lt b
        have low := c.toNat_lt
        cases packed
        refine ⟨?_, by decide, by simp⟩
        rw [← shiftLeft_add_eq_or_of_lt (by omega : c.toNat < 2 ^ 8), shiftLeft_eq]
        omega

theorem perLength_perBytes {n : Nat} (small : n < 32768) (rest : Bytes) :
    perLength (perBytes n ++ rest) = some (n, (perBytes n).length) := by
  unfold perBytes
  split
  next short =>
    have value : (UInt8.ofNat n).toNat = n := by
      rw [UInt8.toNat_ofNat']
      omega
    simp only [singleton_append, perLength, if_pos ((top_bit _).mpr (value.symm ▸ short)), value,
      length_singleton]
  next long =>
    have high : (UInt8.ofNat (n >>> 8)).toNat = n / 256 := by
      rw [UInt8.toNat_ofNat', shiftRight_eq_div_pow]
      omega
    have low : (UInt8.ofNat n).toNat = n % 256 := UInt8.toNat_ofNat'
    obtain ⟨marked, kept⟩ := top_bit_set (UInt8.ofNat (n >>> 8)) (by omega)
    have whole : (n / 256) <<< 8 ||| n % 256 = n := by
      rw [← shiftLeft_add_eq_or_of_lt (by omega : n % 256 < 2 ^ 8), shiftLeft_eq]
      omega
    simp only [cons_append, nil_append, perLength, if_neg marked, kept, high, low, whole,
      length_cons, length_nil]

end Gokvm.Lib
