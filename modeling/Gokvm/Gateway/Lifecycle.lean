import Gokvm.Gateway.ManagerCounts

/-! # The lifecycle of machines

What a caller of the manager may rely on at every moment of every interleaving.
-/

namespace Gokvm.Gateway

open Lib

variable {limits : ManagerLimits} {s t : Manager} {vm call run : Nat}

theorem ManagedProcess.live_of_unreaped {process : ManagedProcess} (unreaped : process.unreaped = true) :
    process.done = false := by
  cases phase : process.phase <;> simp_all [ManagedProcess.unreaped, ManagedProcess.done]

/-- A child that is not done is the machine's, or the one that is being started. -/
theorem Arranged.live_child (arranged : Arranged s) (mine : (s.runs run).vm = vm)
    (live : (s.runs run).done = false) :
    (s.objects vm).run = some run ∨
      (s.objects vm).run = none ∧
        ∃ call place, (s.objects vm).mutation = some (.call call place) ∧ place.starting run := by
  have ok := arranged.objects vm
  by_cases watched : (s.runs run).phase = .unwatched
  · obtain ⟨call, place, held, starting⟩ := ok.unwatched run mine watched
    have placeOk := ok.place call place held
    cases place with
    | record _ | publish _ => exact Or.inr ⟨placeOk.1, call, _, held, starting⟩
    | _ => exact starting.elim
  · exact Or.inl (ok.current run mine live watched)

theorem Place.starting_unique {place : Place} {a b : Nat} (first : place.starting a)
    (second : place.starting b) : a = b := by
  cases place with
  | record _ | publish _ => exact first.symm.trans second
  | _ => exact first.elim

theorem Arranged.one_child (arranged : Arranged s) {a b : Nat} (liveA : (s.runs a).done = false)
    (liveB : (s.runs b).done = false) (same : (s.runs a).vm = (s.runs b).vm) : a = b := by
  rcases arranged.live_child rfl liveA with mineA | ⟨noneA, call, place, heldA, startingA⟩ <;>
    rcases arranged.live_child rfl liveB with mineB | ⟨noneB, call', place', heldB, startingB⟩ <;>
    rw [same] at *
  · exact Option.some.inj (mineA.symm.trans mineB)
  · cases mineA.symm.trans noneB
  · cases noneA.symm.trans mineB
  · cases heldA.symm.trans heldB
    exact Place.starting_unique startingA startingB

theorem Arranged.childless_of_remove (arranged : Arranged s)
    (held : (s.objects vm).mutation = some (.call call .remove)) (mine : (s.runs run).vm = vm) :
    (s.runs run).done = true := by
  by_contra live
  obtain ⟨idle, -⟩ := (arranged.objects vm).place call .remove held
  rcases arranged.live_child mine (Bool.not_eq_true _ ▸ live) with child | ⟨-, _, _, held', starting⟩
  · cases idle.symm.trans child
  · cases held.symm.trans held'
    exact starting

/-- A machine apart from who has its lock. -/
def ManagedVM.unheld (v : ManagedVM) : ManagedVM := { v with mutation := none }

/-- The same machines to everyone, and the same children but one. -/
structure Undisturbed (s t : Manager) (run : Nat) : Prop where
  vms : t.vms = s.vms
  objects : ∀ vm, (t.objects vm).unheld = (s.objects vm).unheld
  runs : ∀ other, other ≠ run → t.runs other = s.runs other
  processes : t.processes = s.processes
  active : t.active = s.active

theorem Undisturbed.refl (s : Manager) (run : Nat) : Undisturbed s s run :=
  ⟨rfl, fun _ => rfl, fun _ _ => rfl, rfl, rfl⟩

theorem undisturbed_setVM {v : ManagedVM} (same : v.unheld = (s.objects vm).unheld) (phase : ChildPhase) :
    Undisturbed s ((s.setVM vm v).setPhase run phase) run := by
  refine
    { vms := rfl, objects := ?_, runs := fun _ different => Function.update_of_ne different _ _
      processes := rfl, active := rfl }
  intro other
  by_cases here : other = vm
  · have object : ((s.setVM vm v).setPhase run phase).objects other = v := by
      rw [here]
      exact Manager.setVM_objects s vm v
    rw [object, same, here]
  · exact congrArg ManagedVM.unheld (Function.update_of_ne here _ _)

/-- The watcher of a child that is not the machine's any more. -/
theorem Arranged.old_watcher (arranged : Arranged s) (answer : Reply)
    (old : (s.objects (s.runs run).vm).run ≠ some run) :
    Undisturbed s (Manager.act limits s (.watcher run answer)) run := by
  have ok := arranged.objects (s.runs run).vm
  have unstarted (live : (s.runs run).done = false) : (s.runs run).phase = .unwatched := by
    by_contra watched
    exact old (ok.current run rfl live watched)
  rw [Manager.act, Manager.step, Manager.stepWatcher]
  cases phase : (s.runs run).phase with
  | unwatched | ended => exact Undisturbed.refl s run
  | alive | waited | recorded => cases phase.symm.trans (unstarted (by simp [ManagedProcess.done, phase]))
  | published =>
    dsimp only
    split
    · apply undisturbed_setVM
      rfl
    · exact Undisturbed.refl s run
  | settling =>
    have synced := ok.synced (by simp [ok.settling run rfl phase])
    change Undisturbed s (s.settleExited run answer.fail) run
    rw [Manager.settleExited, if_neg old]
    apply undisturbed_setVM
    rw [ManagedVM.unheld, ManagedVM.unheld, synced]
    rfl

theorem Arranged.resolved (arranged : Arranged s) {owner : String} {view : ManagedView} {cancel : Bool}
    (place : s.calls call = .resolve owner vm view) (found : s.resolve view cancel = .endpoint run) :
    (s.objects vm).record.owner = owner ∧ (s.objects vm).record.state = .running ∧
      (s.objects vm).run = some run ∧ (s.runs run).done = false := by
  have ok := arranged.calls call
  rw [place] at ok
  obtain ⟨-, owned, shown⟩ := ok
  rw [Manager.resolve] at found
  split at found
  · cases found
  · split at found
    · cases found
    next child mine =>
      split at found
      · cases found
      next open_ =>
        cases found
        obtain ⟨running, live⟩ := not_or.mp open_
        have isLive : (s.runs run).done = false := by simpa using live
        obtain ⟨current, state⟩ := shown.live run mine (not_not.mp running) isLive
        exact ⟨owned, state, current, isLive⟩

/-- The machines and children at every moment. -/
structure Lifecycle (limits : ManagerLimits) (s : Manager) : Prop where
  /-- At most one child of a machine is started and not yet reaped. -/
  oneChild : ∀ a b, (s.runs a).unreaped = true → (s.runs b).unreaped = true →
    (s.runs a).vm = (s.runs b).vm → a = b
  /-- The counter is the starts without a child and the children whose end is not recorded. -/
  counter : s.active = s.reservedStarts + s.countedChildren
  nonnegative : 0 ≤ s.active
  limit : s.active ≤ limits.maxRunning
  /-- The watcher of an old child changes nothing of a newer one, nor of any machine. -/
  oldWatcher : ∀ run newer answer, (s.objects (s.runs run).vm).run = some newer → newer ≠ run →
    Undisturbed s (Manager.act limits s (.watcher run answer)) run
  /-- Files are removed only when every child of the machine is over. -/
  removal : ∀ vm call, (s.objects vm).mutation = some (.call call .remove) →
    ∀ run, (s.runs run).vm = vm → (s.runs run).done = true
  /-- An endpoint is of a running machine of the caller, and its child is not done. -/
  resolution : ∀ call owner vm view cancel run, s.calls call = .resolve owner vm view →
    s.resolve view cancel = .endpoint run →
    (s.objects vm).record.owner = owner ∧ (s.objects vm).record.state = .running ∧
      (s.objects vm).run = some run ∧ (s.runs run).done = false

namespace Manager

/-- Room for one machine of one owner. -/
def smallLimits : ManagerLimits where
  memoryMiB := 256
  memoryBudgetMiB := 0
  maxVMsPerUser := 1
  maxRunning := 1
  memory_le := by decide
  memory_ge := by decide
  budget_le := by decide
  vms_pos := by decide
  running_pos := by decide

/-- Nothing fails, and the host has a terabyte. -/
def granted : Reply where
  cancel := false
  fail := false
  memory := { host := some { total := 1099511627776, available := 1099511627776 }, resident := fun _ => none }
  text := ""

def savedDesktop : SavedVM := { id := "aaaaaaaaaaaaaaaaaaaaaaaaaa", name := "desktop", owner := "alice" }

/-- A machine is started, its child ends and is reaped, and then its owner asks for it. -/
def reapedTooEarly : List Event :=
  .begin (.op .start "alice" savedDesktop.id) :: List.replicate 11 (.call 0 granted) ++
    .watcher 0 granted :: .begin (.op .rdp "alice" savedDesktop.id) :: List.replicate 3 (.call 1 granted)

end Manager

end Gokvm.Gateway
