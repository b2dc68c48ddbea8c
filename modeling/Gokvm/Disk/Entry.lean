import Gokvm.Disk.Layout

/-! # The bits of table entries

Masks and flags of table entries as arithmetic. An entry published by the writer is a cluster
offset with the copied flag; it decodes to its offset if that fits in the 56 bits it has.
-/

namespace Gokvm.Disk

open Nat

theorem and_shiftLeft (x width n : Nat) :
    x &&& ((2 ^ width - 1) <<< n) = x / 2 ^ n % 2 ^ width * 2 ^ n := by
  have moved : x &&& ((2 ^ width - 1) <<< n) = ((x >>> n) &&& (2 ^ width - 1)) <<< n := by
    apply eq_of_testBit_eq
    intro i
    simp only [testBit_and, testBit_shiftLeft, testBit_shiftRight]
    by_cases low : n ≤ i
    · simp [low, Nat.add_sub_cancel' low]
    · simp [low]
  rw [moved, and_two_pow_sub_one_eq_mod, shiftRight_eq_div_pow, shiftLeft_eq]

theorem and_bit (x n : Nat) : x &&& (1 <<< n) = x / 2 ^ n % 2 * 2 ^ n := by
  simpa using and_shiftLeft x 1 n

theorem clusterOffset_eq (entry : Nat) : clusterOffset entry = entry / 512 % 2 ^ 47 * 512 :=
  and_shiftLeft entry 47 9

theorem zeroFlag_eq (entry : Nat) : entry &&& qcow2OFlagZero = entry % 2 := by
  simp [qcow2OFlagZero]

theorem copiedFlag_eq (entry : Nat) :
    entry &&& qcow2OFlagCopied = entry / 2 ^ 63 % 2 * 2 ^ 63 :=
  and_bit entry 63

theorem compressedFlag_eq (entry : Nat) :
    entry &&& qcow2OFlagCompressed = entry / 2 ^ 62 % 2 * 2 ^ 62 :=
  and_bit entry 62

theorem reservedL2_eq_zero (entry : Nat) :
    entry &&& qcow2ReservedL2Mask = 0 ↔ entry / 2 ^ 56 % 64 = 0 ∧ entry / 2 % 256 = 0 := by
  have mask : qcow2ReservedL2Mask = (2 ^ 6 - 1) <<< 56 ||| (2 ^ 8 - 1) <<< 1 := by decide
  rw [mask, and_or_distrib_left, and_shiftLeft, and_shiftLeft, or_eq_zero_iff]
  omega

theorem reservedL1_eq_zero (entry : Nat) :
    entry &&& not64 (qcow2OffsetMask ||| qcow2OFlagCopied) = 0 ↔
      entry / 2 ^ 56 % 128 = 0 ∧ entry % 512 = 0 := by
  have mask : not64 (qcow2OffsetMask ||| qcow2OFlagCopied) =
      (2 ^ 7 - 1) <<< 56 ||| (2 ^ 9 - 1) <<< 0 := by decide
  rw [mask, and_or_distrib_left, and_shiftLeft, and_shiftLeft, or_eq_zero_iff]
  omega

theorem reservedRefcount_eq (entry : Nat) :
    entry &&& not64 qcow2RefcountOffsetMask = entry % 512 := by
  have mask : not64 qcow2RefcountOffsetMask = (2 ^ 9 - 1) <<< 0 := by decide
  rw [mask, and_shiftLeft]
  omega

theorem refcountOffset_eq {entry : Nat} (word : entry < 2 ^ 64) (aligned : entry % 512 = 0) :
    entry &&& qcow2RefcountOffsetMask = entry := by
  have mask : qcow2RefcountOffsetMask = (2 ^ 55 - 1) <<< 9 := by decide
  rw [mask, and_shiftLeft]
  omega

theorem clusterOffset_lt (entry : Nat) : clusterOffset entry < 2 ^ 56 := by
  rw [clusterOffset_eq]
  omega

/-- What an accepted L2 entry looks like. -/
theorem validateL2Entry_ok {version entry : Nat} :
    validateL2Entry version entry = .ok () ↔
      ¬(version = 2 ∧ entry % 2 ≠ 0) ∧ ¬(clusterOffset entry = 0 ∧ entry / 2 ^ 63 % 2 ≠ 0) ∧
        entry / 2 ^ 62 % 2 = 0 ∧ entry / 2 ^ 56 % 64 = 0 ∧ entry / 2 % 256 = 0 := by
  have copied : entry &&& qcow2OFlagCopied ≠ 0 ↔ entry / 2 ^ 63 % 2 ≠ 0 := by
    rw [copiedFlag_eq]
    omega
  have compressed : entry &&& qcow2OFlagCompressed ≠ 0 ↔ entry / 2 ^ 62 % 2 ≠ 0 := by
    rw [compressedFlag_eq]
    omega
  simp only [validateL2Entry, refuse_ok, List.forall_mem_cons, decide_eq_false_iff_not,
    zeroFlag_eq, copied, compressed, qcow2Version2, ne_eq, Decidable.not_not, reservedL2_eq_zero]
  simp

variable {offset : Nat}

theorem copied_eq (small : offset < 2 ^ 63) :
    offset ||| qcow2OFlagCopied = offset + 2 ^ 63 := by
  have sum := two_pow_add_eq_or_of_lt (i := 63) small 1
  rw [Nat.or_comm, Nat.add_comm]
  simpa [qcow2OFlagCopied, shiftLeft_eq] using sum.symm

section

variable (aligned : offset % 512 = 0) (fits : offset < 2 ^ 56)
include aligned fits

theorem clusterOffset_copied :
    clusterOffset (offset ||| qcow2OFlagCopied) = offset := by
  rw [copied_eq (by omega), clusterOffset_eq]
  omega

theorem zeroFlag_copied :
    (offset ||| qcow2OFlagCopied) &&& qcow2OFlagZero = 0 := by
  rw [zeroFlag_eq, copied_eq (by omega)]
  omega

theorem validateL2Entry_copied {version : Nat} (nonzero : offset ≠ 0) :
    validateL2Entry version (offset ||| qcow2OFlagCopied) = .ok () := by
  rw [validateL2Entry_ok, clusterOffset_copied aligned fits, copied_eq (by omega)]
  omega

theorem reservedL1_copied :
    (offset ||| qcow2OFlagCopied) &&& not64 (qcow2OffsetMask ||| qcow2OFlagCopied) = 0 := by
  rw [reservedL1_eq_zero, copied_eq (by omega)]
  omega

end

theorem copied_ne_zero (offset : Nat) : offset ||| qcow2OFlagCopied ≠ 0 := by
  intro zero
  have flag := (or_eq_zero_iff.mp zero).2
  exact absurd flag (by decide)

end Gokvm.Disk
