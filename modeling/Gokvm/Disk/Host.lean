import Gokvm.Lib.Prog
import Gokvm.Lib.Store

/-! # The host file under a disk image

Errors of the disk package, and the answers a host gives to operations on an open file. Each
operation consumes one `Reply`; a host that never fails is the empty list of replies.
-/

namespace Gokvm.Disk

open Lib

/-- The host operation an operating-system error comes from. -/
inductive HostOp where
  | stat
  | read
  | write
  | truncate
  deriving Repr, DecidableEq

/-- The `error` values of the package; a formatted error keeps its format and its numbers apart. -/
inductive GoError where
  | new (text : String)
  | errorf (format : String) (args : List Nat)
  | wrap (format : String) (err : GoError)
  | join (left right : GoError)
  /-- `io.EOF` -/
  | eof
  /-- `io.ErrShortWrite` -/
  | shortWrite
  /-- An operating-system error of one file operation at a file offset. -/
  | host (op : HostOp) (offset : Nat)
  /-- Not an error value of the source: an index expression panicked. -/
  | indexPanic
  /-- Not an error value of the source: an unbounded loop was cut short. -/
  | outOfFuel
  deriving Repr, DecidableEq

/-- How the host answers one operation. A failed write persists a prefix of its data; another failed
    operation has no effect. -/
inductive Reply where
  | done
  /-- A write of `n` bytes reported without an error. -/
  | short (n : Nat)
  /-- A failure after `n` bytes were written. -/
  | failed (n : Nat)
  deriving Repr, DecidableEq

/-- Reject with the error of the first condition that holds. -/
def refuse (checks : List (Bool × GoError)) : Except GoError Unit :=
  match checks.find? (fun check => check.1) with
  | some check => .error check.2
  | none => .ok ()

theorem refuse_ok {checks : List (Bool × GoError)} :
    refuse checks = .ok () ↔ ∀ check ∈ checks, check.1 = false := by
  unfold refuse
  cases found : checks.find? (fun check => check.1) with
  | none =>
    simp only [List.find?_eq_none, Bool.not_eq_true] at found
    exact ⟨fun _ => found, fun _ => rfl⟩
  | some check =>
    have holds : check.1 = true := List.find?_some (p := fun check : Bool × GoError => check.1) found
    have member := List.mem_of_find?_eq_some found
    constructor
    · exact nofun
    · intro all
      rw [all check member] at holds
      cases holds

theorem refuse_then {checks : List (Bool × GoError)} {next : Except GoError Unit} :
    (do refuse checks; next) = .ok () ↔ refuse checks = .ok () ∧ next = .ok () := by
  cases refuse checks with
  | ok _ => exact ⟨fun rest => ⟨rfl, rest⟩, fun both => both.2⟩
  | error err =>
    constructor
    · exact nofun
    · rintro ⟨bad, _⟩
      cases bad

end Gokvm.Disk
