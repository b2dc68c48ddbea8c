import Gokvm.Disk.Host

/-! # A disk as an array of bytes

What an image is for: a guest reads and writes an array of bytes. A read is cut short at the end
of the disk; a write outside it is refused as a whole; one that runs out of capacity has stored a
prefix.
-/

namespace Gokvm.Disk

open Lib

def CapacityError (err : GoError) : Prop :=
  err = .new "qcow2: refcount table is too small" ∨ err = .new "qcow2: host image is too large"

structure FlatDisk where
  size : Nat
  byte : Nat → UInt8

namespace FlatDisk

/-- `ReadAt` into a buffer of `n` bytes: the bytes stored in it and the error. -/
def readAt (d : FlatDisk) (n : Nat) (off : Int) : Bytes × Option GoError :=
  if n = 0 then ([], none)
  else if off < 0 then ([], some (.new "qcow2: negative read offset"))
  else if off.toNat ≥ d.size then ([], some .eof)
  else
    let count := min n (d.size - off.toNat)
    (slice d.byte off.toNat count, if count < n then some .eof else none)

/-- The array with the bytes from `off` on replaced by `b`. -/
def write (d : FlatDisk) (off : Nat) (b : Bytes) : FlatDisk :=
  { d with byte := overlay d.byte off b }

/-- `WriteAt d b off n err d'`: writing `b` at `off` may return `n` and `err` and leave `d'`. -/
inductive WriteAt (d : FlatDisk) (b : Bytes) (off : Int) : Nat → Option GoError → FlatDisk → Prop where
  | empty (nothing : b = []) : WriteAt d b off 0 none d
  | negative (something : b ≠ []) (before : off < 0) :
      WriteAt d b off 0 (some (.new "qcow2: negative write offset")) d
  | outside (something : b ≠ []) (start : 0 ≤ off) (past : d.size < off.toNat + b.length) :
      WriteAt d b off 0 (some (.new "qcow2: write exceeds virtual disk size")) d
  | done (start : 0 ≤ off) (inside : off.toNat + b.length ≤ d.size) :
      WriteAt d b off b.length none (d.write off.toNat b)
  | full (start : 0 ≤ off) (inside : off.toNat + b.length ≤ d.size) {n : Nat} (less : n < b.length)
      {err : GoError} (capacity : CapacityError err) :
      WriteAt d b off n (some err) (d.write off.toNat (b.take n))

theorem WriteAt.stored {d d' : FlatDisk} {b : Bytes} {off : Int} {n : Nat} {err : Option GoError}
    (written : WriteAt d b off n err d') : d' = d.write off.toNat (b.take n) := by
  cases written with
  | empty nothing => simp [nothing, write]
  | negative | outside => simp [write]
  | done => rw [List.take_length]
  | full => rfl

end FlatDisk

end Gokvm.Disk
