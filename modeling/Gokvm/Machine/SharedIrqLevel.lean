import Gokvm.Machine.SharedIrq

/-! # The level of the shared line

The line counts the asserted sources, and the level is high when the count is not zero. A source
outside an operation is asserted exactly when it has something pending; one in the middle is about
to ask for just that. So when no operation is in the middle, the level tells whether anything is
pending.
-/

namespace Gokvm.Machine

open Lib List Function Board UefiPower

def Event.Succeeds {n : Nat} : Event n → Prop
  | .start _ => True
  | .call _ kvm => kvm = true

def Event.operation {n : Nat} : Event n → Option (Operation n)
  | .start op => some op
  | .call _ _ => none

/-- The bits of a device that are raised and not read or reset, after one more operation. -/
def DeviceOp.raises (bits : UInt8) : DeviceOp → UInt8
  | .interrupt => bits ||| 1
  | .configChanged => bits ||| 2
  | .reinjectIfPending => bits
  | .readISR => 0
  | .reset => 0

/-- The bits that a device raised since its last status read or reset. -/
def raisedSince {n : Nat} (i : Fin n) (ops : List (Operation n)) : UInt8 :=
  ops.foldl (fun bits op =>
    match op with
    | .device j op => if j = i then op.raises bits else bits
    | .power _ => bits) 0

/-! ## The count -/

/-- The line counts the asserted sources, and its level tells whether there are any. -/
structure Counted {κ : Type} [Fintype κ] (line : SharedIRQLine) (level : Bool) (raised : κ → Bool) :
    Prop where
  count : line.asserted = flagCount raised
  high : line.high = decide (line.asserted ≠ 0)
  level : level = line.high

namespace Counted

variable {κ : Type} [Fintype κ] {line : SharedIRQLine} {level : Bool}
  {raised : κ → Bool}

theorem source [DecidableEq κ] (counted : Counted line level raised) (k : κ) (wanted : Bool) :
    let driven := line.source level (raised k) wanted true
    driven.ok = true ∧ Counted driven.line driven.level (update raised k wanted) := by
  have changed := flagCount_update raised k wanted
  have asserted : (if wanted ≠ raised k then if wanted then line.asserted + 1 else line.asserted - 1
      else line.asserted) = (flagCount (update raised k wanted) : Int) := by
    rw [counted.count]
    cases was : raised k <;> cases wanted <;> simp [was] at changed ⊢ <;> omega
  simp only [SharedIRQLine.source, asserted, if_true]
  split
  next same => exact ⟨rfl, { count := rfl, high := same.symm, level := counted.level }⟩
  · exact ⟨rfl, { count := rfl, high := rfl, level := rfl }⟩

theorem level_iff (counted : Counted line level raised) :
    level = true ↔ ∃ k, raised k = true := by
  rw [counted.level, counted.high, counted.count, decide_eq_true_iff, Ne, Nat.cast_eq_zero,
    flagCount_eq_zero_iff, not_forall]
  simp

end Counted

/-! ## Sources -/

namespace Board

variable {n : Nat}

def wants (s : Board n) : Option (Fin n) → Bool
  | some i => (s.devices i).isr ≠ 0
  | none => s.power.eventPending

structure Wired (s : Board n) : Prop where
  counted : Counted s.line s.level s.raised
  idle : ∀ k, s.calling k = none → s.raised k = s.wants k
  busy : ∀ k wanted, s.calling k = some wanted → wanted = s.wants k
  healthy : ∀ i, (s.devices i).irqError = false
  settled : s.power.sciPending = false
  known : s.raised none = s.power.sciHigh

theorem wired_initial (n : Nat) : (initial n).Wired where
  counted := {
    count := by simp [initial, flagCount]
    high := rfl
    level := rfl }
  idle := by
    have nothing : UefiPower.initial.eventPending = false := by decide
    intro k _
    cases k with
    | none => exact nothing.symm
    | some i => rfl
  busy := nofun
  healthy := fun _ => rfl
  settled := rfl
  known := rfl

/-- What a device asks for is what it has pending, and without a call nothing changed. -/
theorem start_device {d : Intx} (healthy : d.irqError = false) (op : DeviceOp) :
    (d.start op).device.irqError = false ∧
      match (d.start op).call with
      | some wanted => wanted = decide ((d.start op).device.isr ≠ 0)
      | none => (d.start op).device.isr = d.isr := by
  have or_ne_zero : ∀ bits : UInt32, bits ≠ 0 → d.isr ||| bits ≠ 0 := by
    intro bits set none
    exact set (UInt32.or_eq_zero_iff.mp none).2
  cases op with
  | interrupt =>
    have set := or_ne_zero 1 (by decide)
    simp [Intx.start, Intx.setPendingInterrupt, Intx.raiseIRQ, healthy, set]
  | configChanged =>
    have set := or_ne_zero 2 (by decide)
    simp [Intx.start, Intx.setPendingInterrupt, Intx.raiseIRQ, healthy, set]
  | reinjectIfPending =>
    by_cases pending : d.isr = 0
    · simp [Intx.start, pending, healthy]
    · simp [Intx.start, pending, healthy, Intx.raiseIRQ]
  | readISR | reset => exact ⟨healthy, rfl⟩

/-- The record that the power registers keep of the line. -/
def sci (p : UefiPower) : Bool × Bool := (p.sciHigh, p.sciPending)

theorem sci_writeByte (p : UefiPower) (addr : UInt64) (b : UInt8) : sci (p.writeByte addr b) = sci p := by
  unfold writeByte
  split
  · rfl
  · split
    · rfl
    · split <;> rfl

theorem sci_writeBytes (data : Bytes) (addr : UInt64) (p : UefiPower) :
    sci (writeBytes addr data p) = sci p := by
  induction data generalizing addr p with
  | nil => rfl
  | cons b rest ih => exact (ih (addr + 1) (p.writeByte addr b)).trans (sci_writeByte p addr b)

theorem sci_start (p : UefiPower) (op : PowerOp) : sci (p.start op) = sci p := by
  cases op with
  | pressPowerButton => rfl
  | write port data => exact sci_writeBytes data port p
  | smi data =>
    simp only [UefiPower.start, UefiPower.smi]
    split <;> rfl

namespace Wired

variable {s next : Board n} (wired : s.Wired)
include wired

/-- A source that is about to ask for what it has pending, or that has nothing to ask for. -/
theorem asks {k : Option (Fin n)} {asked : Option Bool}
    (raised : next.raised = s.raised) (calling : next.calling = update s.calling k asked)
    (others : ∀ j, j ≠ k → next.wants j = s.wants j)
    (pending : ∀ wanted, asked = some wanted → wanted = next.wants k)
    (nothing : asked = none → s.raised k = next.wants k) :
    (∀ j, next.calling j = none → next.raised j = next.wants j) ∧
      ∀ j wanted, next.calling j = some wanted → wanted = next.wants j := by
  rw [raised, calling]
  constructor
  · intro j quiet
    by_cases same : j = k
    · subst same
      rw [update_self] at quiet
      exact nothing quiet
    · rw [update_of_ne same] at quiet
      rw [others j same]
      exact wired.idle j quiet
  · intro j wanted busy
    by_cases same : j = k
    · subst same
      rw [update_self] at busy
      exact pending wanted busy
    · rw [update_of_ne same] at busy
      rw [others j same]
      exact wired.busy j wanted busy

theorem startDevice (i : Fin n) (free : s.calling (some i) = none) (op : DeviceOp) :
    (s.startDevice i op).Wired := by
  obtain ⟨healthy, asked⟩ := start_device (wired.healthy i) op
  have own : (s.startDevice i op).wants (some i) =
      decide (((s.devices i).start op).device.isr ≠ 0) := by
    simp only [wants, Board.startDevice, update_self]
  have others : ∀ j, j ≠ some i → (s.startDevice i op).wants j = s.wants j := by
    intro j other
    cases j with
    | none => rfl
    | some j =>
      have apart : j ≠ i := fun same => other (congrArg some same)
      simp only [wants, Board.startDevice, update_of_ne apart]
  have pending : ∀ wanted, ((s.devices i).start op).call = some wanted →
      wanted = (s.startDevice i op).wants (some i) := by
    intro wanted call
    rw [call] at asked
    exact asked.trans own.symm
  have nothing : ((s.devices i).start op).call = none →
      s.raised (some i) = (s.startDevice i op).wants (some i) := by
    intro call
    rw [call] at asked
    rw [own, asked]
    exact wired.idle (some i) free
  have raised : (s.startDevice i op).raised = s.raised := rfl
  obtain ⟨idle, busy⟩ := wired.asks raised rfl others pending nothing
  refine { wired with idle, busy, healthy := ?_ }
  intro j
  by_cases same : j = i
  · subst same
    simp only [Board.startDevice, update_self]
    exact healthy
  · simp only [Board.startDevice, update_of_ne same]
    exact wired.healthy j

theorem startPower (op : PowerOp) : (s.startPower op).Wired := by
  have high : (s.power.start op).sciHigh = s.power.sciHigh := congrArg Prod.fst (sci_start s.power op)
  have unsettled : (s.power.start op).sciPending = s.power.sciPending :=
    congrArg Prod.snd (sci_start s.power op)
  have others : ∀ j, j ≠ none → (s.startPower op).wants j = s.wants j := by
    intro j other
    cases j with
    | none => exact absurd rfl other
    | some j => rfl
  have pending : ∀ wanted, (s.power.start op).updateSCILocked = some wanted →
      wanted = (s.startPower op).wants none := by
    intro wanted call
    unfold updateSCILocked at call
    split at call
    · cases call
    · exact (Option.some.inj call).symm
  have nothing : (s.power.start op).updateSCILocked = none →
      s.raised none = (s.startPower op).wants none := by
    intro call
    unfold updateSCILocked at call
    split at call
    next same =>
      rw [wired.known, ← high]
      exact same.1.symm
    · cases call
  have raised : (s.startPower op).raised = s.raised := rfl
  obtain ⟨idle, busy⟩ := wired.asks raised rfl others pending nothing
  exact
    { wired with
        idle, busy, settled := unsettled.trans wired.settled, known := wired.known.trans high.symm }

theorem start {op : Operation n} {status : Option UInt8}
    (started : s.start op = some (next, status)) : next.Wired := by
  unfold Board.start at started
  split at started
  · cases started
  next free =>
    cases op with
    | device i op =>
      simp only [Option.some.injEq, Prod.mk.injEq] at started
      obtain ⟨rfl, -⟩ := started
      exact wired.startDevice i free op
    | power op =>
      simp only [Option.some.injEq, Prod.mk.injEq] at started
      obtain ⟨rfl, -⟩ := started
      exact wired.startPower op

theorem call {k : Option (Fin n)} (called : s.call k true = some next) :
    next.Wired := by
  unfold Board.call at called
  split at called
  · cases called
  next wanted asks =>
    obtain ⟨ok, counted⟩ := wired.counted.source k wanted
    have truth := wired.busy k wanted asks
    simp only [Option.some.injEq] at called
    rw [ok] at called
    have idle : ∀ j, update s.calling k none j = none →
        update s.raised k wanted j = s.wants j := by
      intro j quiet
      by_cases same : j = k
      · subst same
        rw [update_self]
        exact truth
      · rw [update_of_ne same] at quiet ⊢
        exact wired.idle j quiet
    have busy : ∀ j other, update s.calling k none j = some other → other = s.wants j := by
      intro j other calling
      by_cases same : j = k
      · subst same
        rw [update_self] at calling
        cases calling
      · rw [update_of_ne same] at calling
        exact wired.busy j other calling
    cases k with
    | none =>
      subst called
      exact
        { wired with
            counted, idle, busy, settled := rfl, known := by simp [finish, UefiPower.finish] }
    | some i =>
      have unchanged : update s.devices i ((s.devices i).finish wanted true) = s.devices := by
        simp [Intx.finish]
      simp only [finish, unchanged] at called
      subst called
      refine { wired with counted, idle, busy, known := ?_ }
      simp only [update_of_ne (by simp : (none : Option (Fin n)) ≠ some i)]
      exact wired.known

theorem step {e : Event n} (succeeds : e.Succeeds) (stepped : s.step e = some next) :
    next.Wired := by
  cases e with
  | start op =>
    simp only [Board.step, Option.map_eq_some_iff] at stepped
    obtain ⟨⟨reached, status⟩, started, rfl⟩ := stepped
    exact wired.start started
  | call k kvm =>
    rw [Event.Succeeds] at succeeds
    subst succeeds
    exact wired.call stepped

theorem level_iff (quiet : ∀ k, s.calling k = none) :
    s.level = true ↔ (∃ i, (s.devices i).isr ≠ 0) ∨ s.power.eventPending = true := by
  rw [wired.counted.level_iff, Option.exists, or_comm]
  simp only [wired.idle _ (quiet _), wants, decide_eq_true_iff]

end Wired

/-! ## Runs -/

theorem run_concat (events : List (Event n)) (e : Event n) :
    run (events ++ [e]) = (run events).bind fun s => s.step e := by
  simp [run]

variable {events : List (Event n)} {s next : Board n}

theorem wired_run (succeed : ∀ e ∈ events, e.Succeeds) (ran : run events = some s) : s.Wired := by
  induction events using reverseRecOn generalizing s with
  | nil =>
    obtain rfl : initial n = s := Option.some.inj ran
    exact wired_initial n
  | append_singleton events e ih =>
    rw [run_concat, Option.bind_eq_some_iff] at ran
    obtain ⟨before, earlier, stepped⟩ := ran
    have wired := ih (fun e mem => succeed e (mem_append_left _ mem)) earlier
    exact wired.step (succeed e (by simp)) stepped

theorem raisedSince_concat (i : Fin n) (ops : List (Operation n)) (op : Operation n) :
    raisedSince i (ops ++ [op]) =
      match op with
      | .device j op => if j = i then op.raises (raisedSince i ops) else raisedSince i ops
      | .power _ => raisedSince i ops := by
  simp only [raisedSince, foldl_append, foldl_cons, foldl_nil]

theorem isr_start (d : Intx) {bits : UInt8} (isr : d.isr = bits.toUInt32) (op : DeviceOp) :
    (d.start op).device.isr = (op.raises bits).toUInt32 := by
  cases op with
  | interrupt | configChanged =>
    simp only [Intx.start, Intx.setPendingInterrupt, DeviceOp.raises, isr, UInt8.toUInt32_or]
    rfl
  | reinjectIfPending =>
    simp only [Intx.start]
    split <;> exact isr
  | readISR | reset => rfl

def operations (events : List (Event n)) : List (Operation n) := events.filterMap Event.operation

theorem devices_start {op : Operation n} {status : Option UInt8} (started : s.start op = some (next, status))
    (i : Fin n) :
    next.devices i =
      match op with
      | .device j op => if j = i then ((s.devices i).start op).device else s.devices i
      | .power _ => s.devices i := by
  unfold Board.start at started
  split at started
  · cases started
  · cases op with
    | device j op =>
      simp only [Option.some.injEq, Prod.mk.injEq] at started
      obtain ⟨rfl, -⟩ := started
      by_cases same : j = i
      · subst same
        simp [startDevice]
      · simp [startDevice, same, update_of_ne (Ne.symm same)]
    | power op =>
      simp only [Option.some.injEq, Prod.mk.injEq] at started
      obtain ⟨rfl, -⟩ := started
      rfl

theorem isr_call {k : Option (Fin n)} {kvm : Bool} (called : s.call k kvm = some next) (i : Fin n) : (next.devices i).isr = (s.devices i).isr := by
  unfold Board.call at called
  split at called
  · cases called
  · simp only [Option.some.injEq] at called
    subst called
    cases k with
    | none => rfl
    | some j =>
      by_cases same : i = j
      · subst same
        simp only [finish, update_self, Intx.finish]
        split <;> rfl
      · simp only [finish, update_of_ne same]

/-- The status of a device is what it raised since it was last read or reset. -/
theorem isr_run (ran : run events = some s) (i : Fin n) :
    (s.devices i).isr = (raisedSince i (operations events)).toUInt32 := by
  induction events using reverseRecOn generalizing s with
  | nil =>
    obtain rfl : initial n = s := Option.some.inj ran
    rfl
  | append_singleton events e ih =>
    rw [run_concat, Option.bind_eq_some_iff] at ran
    obtain ⟨before, earlier, stepped⟩ := ran
    have known := ih earlier
    rw [operations, filterMap_append, ← operations]
    cases e with
    | start op =>
      simp only [Board.step, Option.map_eq_some_iff] at stepped
      obtain ⟨⟨reached, status⟩, started, rfl⟩ := stepped
      have device := devices_start started i
      simp only [filterMap_cons, Event.operation, filterMap_nil, raisedSince_concat]
      rw [device]
      cases op with
      | device j op =>
        simp only
        split
        · exact isr_start _ known op
        · exact known
      | power op => exact known
    | call k kvm =>
      rw [isr_call stepped i]
      simpa only [filterMap_cons, Event.operation, filterMap_nil, append_nil]
        using known

theorem status_readISR (ran : run events = some s) {i : Fin n} {status : Option UInt8}
    (started : s.start (.device i .readISR) = some (next, status)) :
    status = some (raisedSince i (operations events)) := by
  unfold Board.start at started
  split at started
  · cases started
  · simp only [Option.some.injEq, Prod.mk.injEq] at started
    obtain ⟨-, rfl⟩ := started
    simp [Intx.start, Intx.clearInterrupt, isr_run ran i]

/-! ## Operations without interruption -/

theorem start_of_free {op : Operation n} (free : s.calling op.source = none) :
    ∃ next status, s.start op = some (next, status) ∧
      ∀ k, k ≠ op.source → next.calling k = s.calling k := by
  unfold Board.start
  rw [free]
  cases op with
  | device _ _ | power _ => exact ⟨_, _, rfl, fun k other => update_of_ne other _ _⟩

theorem calling_call {k : Option (Fin n)} {wanted : Bool} (asks : s.calling k = some wanted) (kvm : Bool) :
    ∃ next, s.call k kvm = some next ∧ next.calling = update s.calling k none := by
  unfold Board.call
  rw [asks]
  cases k with
  | none | some _ => exact ⟨_, rfl, rfl⟩

/-- Operations in sequence are an interleaving, and leave none in the middle. -/
theorem performAll_run (ops : List (Operation n)) :
    ∃ events s, performAll ops = some s ∧ run events = some s ∧ operations events = ops ∧
      (∀ e ∈ events, e.Succeeds) ∧ ∀ k, s.calling k = none := by
  induction ops using reverseRecOn with
  | nil => exact ⟨[], initial n, rfl, rfl, rfl, by simp, fun _ => rfl⟩
  | append_singleton ops op ih =>
    obtain ⟨events, s, performed, ran, same, succeed, quiet⟩ := ih
    obtain ⟨next, status, started, others⟩ := start_of_free (quiet op.source)
    have begun : run (events ++ [.start op]) = some next := by
      rw [run_concat, ran]
      simp [Board.step, started]
    have named : operations (events ++ [.start op]) = ops ++ [op] := by
      rw [operations, filterMap_append, ← operations, same]
      rfl
    have good : ∀ e ∈ events ++ [.start op], Event.Succeeds e := by
      intro e mem
      rcases mem_append.mp mem with earlier | last
      · exact succeed e earlier
      · rw [mem_singleton.mp last]
        trivial
    have one : performAll (ops ++ [op]) = s.perform op := by
      simp only [performAll, foldlM_append, foldlM_cons, foldlM_nil] at performed ⊢
      rw [performed]
      simp
    rw [one]
    unfold perform
    rw [started]
    simp only
    cases asks : next.calling op.source with
    | none =>
      refine ⟨_, next, rfl, begun, named, good, ?_⟩
      intro k
      by_cases own : k = op.source
      · rw [own]
        exact asks
      · rw [others k own]
        exact quiet k
    | some wanted =>
      obtain ⟨last, called, calling⟩ := calling_call asks true
      refine ⟨events ++ [.start op] ++ [.call op.source true], last, called, ?_, ?_, ?_, ?_⟩
      · rw [run_concat, begun]
        exact called
      · rw [operations, filterMap_append, ← operations, named]
        exact append_nil _
      · intro e mem
        rcases mem_append.mp mem with earlier | last
        · exact good e earlier
        · rw [mem_singleton.mp last]
          rfl
      · intro k
        rw [calling]
        by_cases own : k = op.source
        · rw [own, update_self]
        · rw [update_of_ne own, others k own]
          exact quiet k

end Board

/-- After every operation the level is high exactly when some device's status is not zero or the
    ACPI event is enabled and pending; a status read returns the bits raised since the last read or
    reset. When operations overlap, a source with something pending keeps the level high from the
    end of its operation on, and the level is exact as soon as none is in the middle. -/
theorem shared_line_level (n : Nat) :
    (∀ ops : List (Operation n), ∃ s, performAll ops = some s ∧
      (s.level = true ↔ (∃ i, (s.devices i).isr ≠ 0) ∨ s.power.eventPending = true) ∧
      ∀ i next status, s.start (.device i .readISR) = some (next, status) →
        status = some (raisedSince i ops)) ∧
    (∀ (events : List (Event n)) (s : Board n), (∀ e ∈ events, e.Succeeds) →
      run events = some s →
      ((∀ k, s.calling k = none) →
        (s.level = true ↔ (∃ i, (s.devices i).isr ≠ 0) ∨ s.power.eventPending = true)) ∧
      (∀ k, s.calling k = none → s.wants k = true → s.level = true) ∧
      ∀ i next status, s.start (.device i .readISR) = some (next, status) →
        status = some (raisedSince i (operations events))) := by
  constructor
  · intro ops
    obtain ⟨events, s, performed, ran, same, succeed, quiet⟩ := performAll_run ops
    refine ⟨s, performed, (wired_run succeed ran).level_iff quiet, ?_⟩
    intro i next status started
    rw [← same]
    exact status_readISR ran started
  · intro events s succeed ran
    have wired := wired_run succeed ran
    refine ⟨wired.level_iff, ?_, fun i next status => status_readISR ran⟩
    intro k idle pending
    exact wired.counted.level_iff.mpr ⟨k, (wired.idle k idle).trans pending⟩

end Gokvm.Machine
