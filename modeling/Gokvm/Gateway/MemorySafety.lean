import Gokvm.Gateway.ManagerCounts

/-! # Memory is never over-committed

The invariant of whole runs: while a child is active, the full charge of all active ones
fits in the budget that was taken when the first of them started. It bounds every number
that a check computes, so no machine word wraps; a check that passes renews it.
-/

namespace Gokvm.Gateway

open List Nat Manager ManagerLimits

namespace ManagerLimits

variable {limits : ManagerLimits}

theorem toNat_shiftLeft_MiB {n : Nat} (small : n ≤ 2 ^ 30) :
    (UInt64.ofNat n <<< 20).toNat = n * 2 ^ 20 := by
  have low : (UInt64.ofNat n).toNat = n := UInt64.toNat_ofNat_of_lt' (by simp only [UInt64.size]; omega)
  have shift : ((20 : UInt64).toNat % 64) = 20 := rfl
  rw [UInt64.toNat_shiftLeft, low, shift, shiftLeft_eq]
  exact mod_eq_of_lt (by omega)

theorem toNat_charge (limits : ManagerLimits) :
    limits.charge.toNat = limits.memoryMiB * 2 ^ 20 + vmMemoryOverhead.toNat := by
  have small := limits.memory_le
  have overhead : vmMemoryOverhead.toNat = 2 ^ 28 := rfl
  have shifted := toNat_shiftLeft_MiB (n := limits.memoryMiB) (by omega)
  rw [charge, UInt64.toNat_add, shifted, overhead]
  exact mod_eq_of_lt (by omega)

theorem charge_pos (limits : ManagerLimits) : 0 < limits.charge.toNat := by
  have overhead : vmMemoryOverhead.toNat = 2 ^ 28 := rfl
  rw [toNat_charge, overhead]
  omega

def credit (limits : ManagerLimits) (resident : Nat → Option UInt64) (run : Nat) : Nat :=
  match resident run with
  | some used => min used.toNat limits.charge.toNat
  | none => 0

theorem credit_le (limits : ManagerLimits) (resident : Nat → Option UInt64) (run : Nat) :
    limits.credit resident run ≤ limits.charge.toNat := by
  rw [credit]
  split
  · exact min_le_right ..
  · exact zero_le _

theorem credits_le (limits : ManagerLimits) (resident : Nat → Option UInt64) (processes : List Nat) :
    (processes.map (limits.credit resident)).sum ≤ processes.length * limits.charge.toNat := by
  have bound := sum_le_card_nsmul (processes.map (limits.credit resident)) limits.charge.toNat
  rw [length_map, smul_eq_mul] at bound
  apply bound
  intro amount member
  obtain ⟨run, -, rfl⟩ := mem_map.mp member
  exact limits.credit_le resident run

theorem toNat_min (a b : UInt64) : (min a b).toNat = min a.toNat b.toNat := by
  change (if a ≤ b then a else b).toNat = min a.toNat b.toNat
  split
  next le => exact (min_eq_left (UInt64.le_iff_toNat_le.mp le)).symm
  next not_le =>
    have lt : b.toNat < a.toNat := by
      rw [UInt64.le_iff_toNat_le] at not_le
      omega
    exact (min_eq_right lt.le).symm

/-- The credits are added up without wrapping when a full charge for each child fits. -/
theorem toNat_residentTotal (resident : Nat → Option UInt64) {processes : List Nat}
    (fits : processes.length * limits.charge.toNat < 2 ^ 64) :
    (limits.residentTotal resident processes).toNat = (processes.map (limits.credit resident)).sum := by
  induction processes using reverseRecOn with
  | nil => rfl
  | append_singleton processes last ih =>
    rw [length_append, length_singleton, add_mul, one_mul] at fits
    have before := ih (by omega)
    have bound := limits.credits_le resident processes
    have one := limits.credit_le resident last
    rw [map_append, List.sum_append_nat, map_singleton, sum_singleton, ← before]
    rw [residentTotal, foldl_append, ← residentTotal, foldl_cons, foldl_nil, credit]
    rw [credit] at one
    cases read : resident last with
    | none => rfl
    | some used =>
      rw [read] at one
      simp only at one ⊢
      rw [UInt64.toNat_add, toNat_min]
      exact mod_eq_of_lt (by omega)

theorem toNat_sub_headroom {amount : UInt64} (enough : hostMemoryHeadroom ≤ amount) :
    (amount - hostMemoryHeadroom).toNat + hostMemoryHeadroom.toNat = amount.toNat := by
  rw [UInt64.toNat_sub_of_le _ _ enough]
  exact Nat.sub_add_cancel (UInt64.le_iff_toNat_le.mp enough)

theorem mul_charge_le {budget : UInt64} {n : Nat} (room : n < (budget / limits.charge).toNat) :
    (n + 1) * limits.charge.toNat ≤ budget.toNat := by
  rw [UInt64.toNat_div] at room
  exact (le_div_iff_mul_le limits.charge_pos).mp room

theorem toNat_product {count budget : UInt64} (fits : (count.toNat + 1) * limits.charge.toNat ≤ budget.toNat) :
    ((count + 1) * limits.charge).toNat = (count.toNat + 1) * limits.charge.toNat := by
  have word := budget.toNat_lt
  have one : count.toNat + 1 ≤ (count.toNat + 1) * limits.charge.toNat :=
    Nat.le_mul_of_pos_right _ limits.charge_pos
  have next : (count + 1).toNat = count.toNat + 1 := by
    rw [UInt64.toNat_add]
    exact mod_eq_of_lt (lt_of_le_of_lt (one.trans fits) word)
  rw [UInt64.toNat_mul, next]
  exact mod_eq_of_lt (lt_of_le_of_lt fits word)

theorem currentBudget_le (memoryBudget : UInt64) (memory : HostMemory) :
    (currentBudget memoryBudget memory).toNat ≤ memoryBudget.toNat ∧
      (currentBudget memoryBudget memory ≠ 0 →
        (currentBudget memoryBudget memory).toNat + hostMemoryHeadroom.toNat ≤ memory.total.toNat) := by
  rw [currentBudget]
  split
  · exact ⟨zero_le _, fun nonzero => absurd rfl nonzero⟩
  next above =>
    have enough := toNat_sub_headroom (UInt64.le_of_lt (UInt64.not_le.mp above))
    rw [toNat_min]
    exact ⟨min_le_left .., fun _ => by omega⟩

end ManagerLimits

/-! ## One check -/

/-- The budget that a check compares with. -/
def ManagerLimits.groupBudget (limits : ManagerLimits) (active : Int) (memoryBudget : UInt64)
    (memory : HostMemory) : UInt64 :=
  if active = 0 then limits.snapshot memory else memoryBudget

/-- When a check is made, the charges fit the budget and every listed child is active. -/
structure Funded (limits : ManagerLimits) (active : Int) (memoryBudget : UInt64) (processes : List Nat) :
    Prop where
  nonnegative : 0 ≤ active
  funded : 0 < active → active * limits.charge.toNat ≤ memoryBudget.toNat
  listed : (processes.length : Int) ≤ active

structure Exact (limits : ManagerLimits) (active : Int) (memoryBudget : UInt64) (processes : List Nat)
    (report : MemoryReport) : Prop where
  charge : limits.charge.toNat = limits.memoryMiB * 2 ^ 20 + vmMemoryOverhead.toNat
  configured : (UInt64.ofNat limits.memoryBudgetMiB <<< 20).toNat = limits.memoryBudgetMiB * 2 ^ 20
  count : ((UInt64.ofInt active).toNat : Int) = active
  resident : (limits.residentTotal report.resident processes).toNat =
    (processes.map (limits.credit report.resident)).sum
  /-- Every subtraction of the headroom is guarded. -/
  headroom : ∀ amount : UInt64, hostMemoryHeadroom ≤ amount →
    (amount - hostMemoryHeadroom).toNat + hostMemoryHeadroom.toNat = amount.toNat
  /-- The product is computed only after the division has bounded it. -/
  product : ∀ memory, report.host = some memory →
    ¬ currentBudget (limits.groupBudget active memoryBudget memory) memory / limits.charge ≤
      UInt64.ofInt active →
    (((UInt64.ofInt active + 1) * limits.charge).toNat : Int) = (active + 1) * limits.charge.toNat
  /-- The credits are never more than what is reserved. -/
  uncommitted : ∀ memory, report.host = some memory →
    ¬ currentBudget (limits.groupBudget active memoryBudget memory) memory / limits.charge ≤
      UInt64.ofInt active →
    ((limits.uncommitted (UInt64.ofInt active) (limits.residentTotal report.resident processes)).toNat : Int) +
      (limits.residentTotal report.resident processes).toNat = (active + 1) * limits.charge.toNat

section Check

variable {limits : ManagerLimits} {active : Int} {memoryBudget : UInt64} {processes : List Nat}

variable (funded : Funded limits active memoryBudget processes)
include funded

theorem Funded.active_lt :
    active * limits.charge.toNat < 2 ^ 64 := by
  have word := memoryBudget.toNat_lt
  rcases Int.lt_or_eq_of_le funded.nonnegative with some | none
  · have fits := funded.funded some
    omega
  · rw [← none, Int.zero_mul]
    decide

theorem Funded.toNat_active :
    ((UInt64.ofInt active).toNat : Int) = active := by
  have charge : (1 : Int) ≤ limits.charge.toNat := by exact_mod_cast limits.charge_pos
  have one : active * 1 ≤ active * limits.charge.toNat :=
    Int.mul_le_mul_of_nonneg_left charge funded.nonnegative
  have small : active < 2 ^ 64 := by
    have product := funded.active_lt
    omega
  rw [UInt64.ofInt, Int.emod_eq_of_lt funded.nonnegative small, UInt64.toNat_ofNat_of_lt']
  · exact Int.toNat_of_nonneg funded.nonnegative
  · have size : UInt64.size = 2 ^ 64 := rfl
    omega

theorem Funded.resident_exact
    (resident : Nat → Option UInt64) :
    (limits.residentTotal resident processes).toNat = (processes.map (limits.credit resident)).sum ∧
      ((limits.residentTotal resident processes).toNat : Int) ≤ active * limits.charge.toNat := by
  have charges : (processes.length : Int) * limits.charge.toNat ≤ active * limits.charge.toNat :=
    Int.mul_le_mul_of_nonneg_right funded.listed (Int.natCast_nonneg _)
  have small := funded.active_lt
  have fits : processes.length * limits.charge.toNat < 2 ^ 64 := by
    have := lt_of_le_of_lt charges small
    exact_mod_cast this
  have sum := toNat_residentTotal resident fits
  have bound := limits.credits_le resident processes
  refine ⟨sum, ?_⟩
  rw [sum]
  exact le_trans (by exact_mod_cast bound) charges

/-- What a passed division says: one more charge fits the budget of the group and the host. -/
theorem Funded.room {memory : HostMemory}
    {budget : UInt64}
    (room : ¬ currentBudget budget memory / limits.charge ≤ UInt64.ofInt active) :
    (active + 1) * limits.charge.toNat ≤ budget.toNat ∧
      (active + 1) * limits.charge.toNat + hostMemoryHeadroom.toNat ≤ memory.total.toNat := by
  rw [UInt64.not_le, UInt64.lt_iff_toNat_lt] at room
  have fits := mul_charge_le room
  have exactActive := funded.toNat_active
  obtain ⟨within, host⟩ := currentBudget_le budget memory
  have nonzero : currentBudget budget memory ≠ 0 := by
    intro zero
    rw [zero] at fits
    have charge := limits.charge_pos
    have positive : 0 < ((UInt64.ofInt active).toNat + 1) * limits.charge.toNat :=
      mul_pos (succ_pos _) charge
    have nothing : (0 : UInt64).toNat = 0 := rfl
    omega
  have fits' : (active + 1) * limits.charge.toNat ≤ ((currentBudget budget memory).toNat : Int) := by
    rw [← exactActive]
    exact_mod_cast fits
  have bound := host nonzero
  omega

/-- No machine word of a check wraps. -/
theorem Funded.exact (report : MemoryReport) :
    Exact limits active memoryBudget processes report := by
  obtain ⟨resident, covered⟩ := funded.resident_exact report.resident
  have product memory
      (room : ¬ currentBudget (limits.groupBudget active memoryBudget memory) memory / limits.charge ≤
        UInt64.ofInt active) :
      (((UInt64.ofInt active + 1) * limits.charge).toNat : Int) = (active + 1) * limits.charge.toNat := by
    obtain ⟨fits, -⟩ := funded.room room
    have count := funded.toNat_active
    have fits' : ((UInt64.ofInt active).toNat + 1) * limits.charge.toNat ≤
        (limits.groupBudget active memoryBudget memory).toNat := by
      zify
      rw [count]
      exact fits
    rw [toNat_product fits']
    push_cast
    rw [count]
  refine
    { charge := limits.toNat_charge, configured := toNat_shiftLeft_MiB limits.budget_le
      count := funded.toNat_active, resident
      headroom := fun _ enough => toNat_sub_headroom enough
      product := fun memory _ => product memory, uncommitted := ?_ }
  intro memory _ room
  have whole := product memory room
  have enough : limits.residentTotal report.resident processes ≤ (UInt64.ofInt active + 1) * limits.charge := by
    rw [UInt64.le_iff_toNat_le]
    have distributes : (active + 1) * (limits.charge.toNat : Int) =
        active * limits.charge.toNat + limits.charge.toNat := by ring
    omega
  rw [uncommitted, UInt64.toNat_sub_of_le _ _ enough, ← whole]
  have := UInt64.le_iff_toNat_le.mp enough
  omega

/-- What a check that passes has established. -/
theorem Funded.admitted {report : MemoryReport}
    {budget : UInt64} (passes : limits.checkMemory active memoryBudget processes report = (budget, none)) :
    ∃ memory, report.host = some memory ∧ budget = limits.groupBudget active memoryBudget memory ∧
      (active + 1) * limits.charge.toNat ≤ budget.toNat ∧
      (active + 1) * limits.charge.toNat + hostMemoryHeadroom.toNat ≤ memory.total.toNat ∧
      (active + 1) * limits.charge.toNat + hostMemoryHeadroom.toNat ≤
        memory.available.toNat + ((processes.map (limits.credit report.resident)).sum : Nat) := by
  have exact := funded.exact report
  rw [checkMemory] at passes
  cases read : report.host with
  | none =>
    rw [read] at passes
    cases passes
  | some memory =>
    rw [read] at passes
    dsimp only at passes
    rw [← groupBudget] at passes
    split at passes
    · cases passes
    next room =>
      split at passes
      · cases passes
      next plenty =>
        cases passes
        obtain ⟨fits, host⟩ := funded.room room
        obtain ⟨above, covers⟩ := not_or.mp plenty
        have headroom := toNat_sub_headroom (UInt64.not_lt.mp above)
        have uncommitted := exact.uncommitted memory read room
        rw [exact.resident] at uncommitted
        rw [UInt64.not_lt, UInt64.le_iff_toNat_le] at covers
        refine ⟨memory, rfl, rfl, fits, host, ?_⟩
        omega

end Check

/-! ## Runs -/

section Runs

variable {limits : ManagerLimits} {s t : Manager} {vm call run : Nat} {place : Place}

structure Calm (s t : Manager) : Prop where
  memoryBudget : t.memoryBudget = s.memoryBudget
  active : t.active ≤ s.active

theorem stepInside_calm {answer : Reply} (other : place ≠ .reserve)
    (step : s.stepInside limits call vm answer place = some t) : Calm s t := by
  have fewer : s.active - 1 ≤ s.active := Int.sub_le_self _ (by decide)
  cases place with
  | reserve => exact absurd rfl other
  | check _ | record _ | publish _ | unlock _ =>
    cases step
    exact ⟨rfl, le_rfl⟩
  | spawn =>
    cases step
    split <;> exact ⟨rfl, le_rfl⟩
  | unreserve =>
    cases step
    exact ⟨rfl, fewer⟩
  | reserveVM =>
    cases step
    rw [reserveVM]
    repeat' split
    all_goals exact ⟨rfl, le_rfl⟩
  | _ =>
    obtain ⟨v, next, passes⟩ := stepInside_passing rfl step
    exact ⟨passes.memoryBudget, passes.active.le⟩

theorem stepCall_calm {answer : Reply} (step : s.stepCall limits call answer = some t) :
    Calm s t ∨ ∃ vm, t = s.reserve limits call vm answer.memory := by
  cases callStep step with
  | finish | enter | find | lock | load | create | close => exact Or.inl ⟨rfl, le_rfl⟩
  | inside vm place _ here held step =>
    by_cases reserving : place = .reserve
    · subst reserving
      cases step
      exact Or.inr ⟨vm, rfl⟩
    · exact Or.inl (stepInside_calm reserving step)

theorem stepWatcher_calm {answer : Reply} (step : s.stepWatcher run answer = some t) : Calm s t := by
  cases watcherStep step with
  | ends | publish | lock | settle => exact ⟨rfl, le_rfl⟩
  | forget => exact ⟨rfl, Int.sub_le_self _ (by decide)⟩

/-- Only the critical section of a start touches the budget or takes a slot. -/
theorem act_calm (limits : ManagerLimits) (s : Manager) (event : Manager.Event) :
    Calm s (act limits s event) ∨
      ∃ call vm answer, event = .call call answer ∧
        act limits s event = s.reserve limits call vm answer.memory := by
  rw [act]
  cases taken : s.step limits event with
  | none => exact Or.inl ⟨rfl, le_rfl⟩
  | some t =>
    cases event with
    | begin request =>
      cases taken
      exact Or.inl ⟨rfl, le_rfl⟩
    | call number answer =>
      rcases stepCall_calm taken with calm | ⟨vm, reserves⟩
      · exact Or.inl calm
      · exact Or.inr ⟨number, vm, answer, rfl, reserves⟩
    | watcher run answer => exact Or.inl (stepWatcher_calm taken)

theorem checkMemory_latched (limits : ManagerLimits) {active : Int} (memoryBudget : UInt64)
    (processes : List Nat) (report : MemoryReport) (some_ : active ≠ 0) :
    (limits.checkMemory active memoryBudget processes report).1 = memoryBudget := by
  rw [checkMemory]
  cases report.host with
  | none => rfl
  | some memory =>
    dsimp only
    rw [if_neg some_]
    split
    · rfl
    · split <;> rfl

theorem reserve_cases (limits : ManagerLimits) (s : Manager) (call vm : Nat) (report : MemoryReport) :
    ((s.reserve limits call vm report).active = s.active ∧
        (s.active ≠ 0 → (s.reserve limits call vm report).memoryBudget = s.memoryBudget)) ∨
      ((s.reserve limits call vm report).active = s.active + 1 ∧
        limits.checkMemory s.active s.memoryBudget s.processes report =
          ((s.reserve limits call vm report).memoryBudget, none)) := by
  rw [reserve]
  split
  · exact Or.inl ⟨rfl, fun _ => rfl⟩
  · dsimp only
    split
    · exact Or.inl ⟨rfl, checkMemory_latched limits s.memoryBudget s.processes report⟩
    next passes => exact Or.inr ⟨rfl, Prod.ext rfl passes⟩

def Manager.Funded (limits : ManagerLimits) (s : Manager) : Prop :=
  Gateway.Funded limits s.active s.memoryBudget s.processes

/-- A step of a start that is admitted, and what the host reported to it. -/
structure Admitted (limits : ManagerLimits) (s t : Manager) (report : MemoryReport) (memory : HostMemory) :
    Prop where
  read : report.host = some memory
  counted : t.active = s.active + 1
  /-- The first child of a group takes the budget, the others keep it. -/
  group : t.memoryBudget = if s.active = 0 then limits.snapshot memory else s.memoryBudget
  budget : t.active * limits.charge.toNat ≤ t.memoryBudget.toNat
  host : t.active * limits.charge.toNat + hostMemoryHeadroom.toNat ≤ memory.total.toNat
  available : t.active * limits.charge.toNat + hostMemoryHeadroom.toNat ≤
    memory.available.toNat + ((s.processes.map (limits.credit report.resident)).sum : Nat)

theorem reserve_admitted (funded : s.Funded limits) {report : MemoryReport}
    (grows : s.active < (s.reserve limits call vm report).active) :
    ∃ memory, Admitted limits s (s.reserve limits call vm report) report memory := by
  rcases reserve_cases limits s call vm report with ⟨same, -⟩ | ⟨counted, passes⟩
  · omega
  · obtain ⟨memory, read, group, budget, host, available⟩ := Gateway.Funded.admitted funded passes
    refine ⟨memory, read, counted, group, ?_, ?_, ?_⟩ <;> rw [counted] <;> assumption

/-- The budget holds after every step, because the other steps only give memory back. -/
theorem Manager.Funded.act (funded : s.Funded limits) (orderly : Orderly limits s) (event : Manager.Event) :
    (act limits s event).Funded limits := by
  have after := (orderly.act event).tallied
  refine { nonnegative := ?_, funded := ?_, listed := after.processes_le }
  · rw [after.active]
    exact Int.natCast_nonneg _
  · intro some_
    rcases act_calm limits s event with calm | ⟨call, vm, answer, rfl, reserves⟩
    · have before := funded.funded (lt_of_lt_of_le some_ calm.active)
      rw [calm.memoryBudget]
      exact le_trans (Int.mul_le_mul_of_nonneg_right calm.active (Int.natCast_nonneg _)) before
    · rw [reserves] at some_ ⊢
      rcases reserve_cases limits s call vm answer.memory with ⟨same, latched⟩ | ⟨counted, -⟩
      · rw [same] at some_ ⊢
        rw [latched (by omega)]
        exact funded.funded some_
      · have grows : s.active < (s.reserve limits call vm answer.memory).active := by omega
        obtain ⟨memory, admitted⟩ := reserve_admitted funded grows
        exact admitted.budget

theorem load_idle (saved : List Manager.SavedVM) :
    (load saved).active = 0 ∧ (load saved).processes = [] := by
  rw [load]
  induction saved using reverseRecOn with
  | nil => exact ⟨rfl, rfl⟩
  | append_singleton saved last ih =>
    rw [foldl_append]
    exact ih

theorem funded_run (limits : ManagerLimits) (saved : List Manager.SavedVM) (events : List Manager.Event) :
    (Manager.run limits (.load saved) events).Funded limits := by
  induction events using reverseRecOn with
  | nil =>
    obtain ⟨idle, empty⟩ := load_idle saved
    refine { nonnegative := idle.ge, funded := fun some_ => absurd idle some_.ne', listed := ?_ }
    rw [Manager.run, foldl_nil, idle, empty]
    exact le_rfl
  | append_singleton events last ih =>
    rw [Manager.run, foldl_append]
    exact ih.act (orderly_run limits saved events) last

/-- What holds of the memory at every moment of a run. -/
structure MemorySafe (limits : ManagerLimits) (s : Manager) : Prop where
  funded : 0 < s.active → s.active * limits.charge.toNat ≤ s.memoryBudget.toNat
  exact : ∀ report, Exact limits s.active s.memoryBudget s.processes report
  admitted : ∀ event, s.active < (act limits s event).active →
    ∃ call answer memory, event = .call call answer ∧
      Admitted limits s (act limits s event) answer.memory memory
  latched : ∀ event, 0 < s.active → (act limits s event).memoryBudget = s.memoryBudget

theorem Manager.memory_safe_run (limits : ManagerLimits) (saved : List Manager.SavedVM)
    (events : List Manager.Event) : MemorySafe limits (Manager.run limits (.load saved) events) := by
  have funded := funded_run limits saved events
  generalize Manager.run limits (.load saved) events = s at funded
  refine { funded := funded.funded, exact := Gateway.Funded.exact funded, admitted := ?_, latched := ?_ }
  · intro event grows
    rcases act_calm limits s event with calm | ⟨call, vm, answer, rfl, reserves⟩
    · have same := calm.active
      omega
    · rw [reserves] at grows ⊢
      obtain ⟨memory, admitted⟩ := reserve_admitted funded grows
      exact ⟨call, answer, memory, rfl, admitted⟩
  · intro event some_
    rcases act_calm limits s event with calm | ⟨call, vm, answer, rfl, reserves⟩
    · exact calm.memoryBudget
    · rw [reserves]
      rcases reserve_cases limits s call vm answer.memory with ⟨-, latched⟩ | ⟨-, passes⟩
      · exact latched (by omega)
      · have same := checkMemory_latched limits s.memoryBudget s.processes answer.memory
          (show s.active ≠ 0 by omega)
        rw [passes] at same
        exact same

end Runs

end Gokvm.Gateway
