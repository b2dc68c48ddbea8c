import Mathlib.Tactic

/-! # Memory admission

A start is admitted when the full charge of every active desktop fits in the budget that was
taken when the first of them started, and when what the desktops do not have yet is
available on the host. The numbers are the machine words of the source.
-/

namespace Gokvm.Gateway

def hostMemoryHeadroom : UInt64 := (1 : UInt64) <<< 30

def vmMemoryOverhead : UInt64 := (256 : UInt64) <<< 20

/-- The limits of a manager, in the ranges that `normalizeManagerLimits` accepts. -/
structure ManagerLimits where
  memoryMiB : Nat
  memoryBudgetMiB : Nat
  maxVMsPerUser : Nat
  maxRunning : Nat
  memory_le : memoryMiB ≤ 1048576
  memory_ge : 256 ≤ memoryMiB
  budget_le : memoryBudgetMiB ≤ 2 ^ 30
  vms_pos : 1 ≤ maxVMsPerUser
  running_pos : 1 ≤ maxRunning

structure HostMemory where
  total : UInt64
  available : UInt64

/-- What a check reads, if it can: the host's memory and every child's resident memory. -/
structure MemoryReport where
  host : Option HostMemory
  resident : Nat → Option UInt64

inductive MemoryRefusal where
  | unreadable
  | budget (chargeMiB active budgetMiB : UInt64)
  | available (uncommittedMiB headroomMiB availableMiB : UInt64)

namespace ManagerLimits

variable (limits : ManagerLimits)

def charge : UInt64 := UInt64.ofNat limits.memoryMiB <<< 20 + vmMemoryOverhead

/-- The resident pages of the children, at most a charge for each. -/
def residentTotal (resident : Nat → Option UInt64) (processes : List Nat) : UInt64 :=
  processes.foldl
    (fun total run => match resident run with
      | some used => total + min used limits.charge
      | none => total) 0

/-- The budget of a group of desktops, taken when its first one starts. -/
def snapshot (memory : HostMemory) : UInt64 :=
  let budget := if memory.available > hostMemoryHeadroom then memory.available - hostMemoryHeadroom else 0
  if limits.memoryBudgetMiB > 0 then min budget (UInt64.ofNat limits.memoryBudgetMiB <<< 20) else budget

/-- The budget as far as the host's memory still allows it. -/
def currentBudget (memoryBudget : UInt64) (memory : HostMemory) : UInt64 :=
  if memory.total ≤ hostMemoryHeadroom then 0 else min memoryBudget (memory.total - hostMemoryHeadroom)

/-- What the reservations, one more included, have not made resident. -/
def uncommitted (active : UInt64) (resident : UInt64) : UInt64 :=
  (active + 1) * limits.charge - resident

/-- `checkMemory`: the budget after the check, and why the start is refused. -/
def checkMemory (active : Int) (memoryBudget : UInt64) (processes : List Nat) (report : MemoryReport) :
    UInt64 × Option MemoryRefusal :=
  let resident := limits.residentTotal report.resident processes
  match report.host with
  | none => (memoryBudget, some .unreadable)
  | some memory =>
    let memoryBudget := if active = 0 then limits.snapshot memory else memoryBudget
    let budget := currentBudget memoryBudget memory
    let count := UInt64.ofInt active
    if budget / limits.charge ≤ count then
      (memoryBudget, some (.budget (limits.charge >>> 20) count (budget >>> 20)))
    else
      let uncommitted := limits.uncommitted count resident
      if memory.available < hostMemoryHeadroom ∨ memory.available - hostMemoryHeadroom < uncommitted then
        (memoryBudget,
          some (.available (uncommitted >>> 20) (hostMemoryHeadroom >>> 20) (memory.available >>> 20)))
      else (memoryBudget, none)

end ManagerLimits

end Gokvm.Gateway
