import Gokvm.Gateway.Manager

/-! # What the lock of a machine protects

Everything said of a machine is about its object and its own children, so a step that touches one
machine leaves the others. The child of a machine is the only one that is not done; a view that a
reader has loaded may be old, but its child is done or still the machine's.
-/

namespace Gokvm.Gateway

open Lib Function

/-! ## What a step does -/

namespace Manager

/-- Everything that a step of a call can do. -/
inductive CallStep (limits : ManagerLimits) (s : Manager) (call : Nat) (answer : Reply) : Manager → Prop
  | finish (outcome : Outcome) (outside : ∀ vm, s.calls call ≠ .inside vm)
      (unfinished : ∀ outcome, s.calls call ≠ .finished outcome) :
      CallStep limits s call answer (s.goto call (.finished outcome))
  | enter (op : Op) (owner id : String) (here : s.calls call = .enter op owner id) :
      CallStep limits s call answer (s.goto call (.find op owner id))
  | find (op : Op) (owner id : String) (vm : Nat) (here : s.calls call = .find op owner id)
      (found : s.lookup owner id = .ok vm) :
      CallStep limits s call answer (s.goto call (if op = .rdp then .load owner vm else .lock op vm))
  | lock (op : Op) (vm : Nat) (here : s.calls call = .lock op vm) (free : (s.objects vm).mutation = none) :
      CallStep limits s call answer ((s.move call vm (.check op)).goto call (.inside vm))
  | inside (vm : Nat) (place : Place) (t : Manager) (here : s.calls call = .inside vm)
      (held : (s.objects vm).mutation = some (.call call place))
      (step : s.stepInside limits call vm answer place = some t) : CallStep limits s call answer t
  | load (owner : String) (vm : Nat) (here : s.calls call = .load owner vm) :
      CallStep limits s call answer (s.goto call (.resolve owner vm (s.objects vm).view))
  | create (owner name : String) (here : s.calls call = .create owner name)
      (fresh : s.fresh answer.text = true) :
      CallStep limits s call answer (s.newVM call owner name answer.text)
  | close (here : s.calls call = .close) :
      CallStep limits s call answer ({ s with closed := true }.goto call (.finished .ok))

variable {limits : ManagerLimits} {s t : Manager} {call : Nat} {answer : Reply}

theorem CallStep.ends {now : ManagerCall} (here : s.calls call = now) (outside : ∀ vm, now ≠ .inside vm)
    (unfinished : ∀ outcome, now ≠ .finished outcome) (outcome : Outcome) :
    CallStep limits s call answer (s.goto call (.finished outcome)) :=
  .finish outcome (here ▸ outside) (here ▸ unfinished)

theorem callStep (step : s.stepCall limits call answer = some t) : CallStep limits s call answer t := by
  rw [stepCall] at step
  split at step <;> rename_i here
  · cases step
  · cases step
  · -- enter
    split at step
    · cases step
      exact .ends here nofun nofun _
    · split at step <;> cases step
      · exact .ends here nofun nofun _
      · exact .enter _ _ _ here
  · -- find
    split at step <;> cases step
    · exact .ends here nofun nofun _
    next found => exact .find _ _ _ _ here found
  · -- lock
    split at step
    · cases step
      exact .ends here nofun nofun _
    · split at step <;> cases step
      next free => exact .lock _ _ here (Option.isNone_iff_eq_none.mp free)
  · -- inside
    split at step
    next number place held =>
      split at step
      next same =>
        subst same
        exact .inside _ place t here held step
      · cases step
    · cases step
  · cases step
    exact .load _ _ here
  · cases step
    exact .ends here nofun nofun _
  · -- create
    split at step
    · cases step
      exact .ends here nofun nofun _
    · split at step
      · cases step
        exact .ends here nofun nofun _
      · split at step <;> cases step
        next fresh => exact .create _ _ here fresh
  · cases step
    exact .close here

/-- Everything that a step of the watcher of a child can do. -/
inductive WatcherStep (s : Manager) (run : Nat) (answer : Reply) : Manager → Prop
  | ends (phase : (s.runs run).phase = .alive) :
      WatcherStep s run answer (s.setRun run { s.runs run with phase := .waited, failed := answer.fail })
  | forget (phase : (s.runs run).phase = .waited) :
      WatcherStep s run answer
        ({ s with processes := s.processes.erase run, active := s.active - 1 }.setPhase run .recorded)
  | publish (phase : (s.runs run).phase = .recorded) :
      WatcherStep s run answer (s.setPhase run .published)
  | lock (phase : (s.runs run).phase = .published) (free : (s.objects (s.runs run).vm).mutation = none) :
      WatcherStep s run answer ((s.setVM (s.runs run).vm
        { s.objects (s.runs run).vm with mutation := some (.watcher run) }).setPhase run .settling)
  | settle (phase : (s.runs run).phase = .settling) :
      WatcherStep s run answer (s.settleExited run answer.fail)

theorem watcherStep {run : Nat} (step : s.stepWatcher run answer = some t) : WatcherStep s run answer t := by
  rw [stepWatcher] at step
  split at step <;> rename_i phase
  · cases step
  · cases step
    exact .ends phase
  · cases step
    exact .forget phase
  · cases step
    exact .publish phase
  · dsimp only at step
    split at step <;> cases step
    next free => exact .lock phase (Option.isNone_iff_eq_none.mp free)
  · cases step
    exact .settle phase
  · cases step

end Manager

/-! ## Machines and their children -/

/-- What a machine is for its whole life. -/
def VmRecord.identity (record : VmRecord) : String × String × String := (record.id, record.name, record.owner)

/-- What a reader can rely on that has loaded a view, now or earlier. -/
structure Shown (s : Manager) (vm : Nat) (v : ManagedVM) (view : ManagedView) : Prop where
  identity : view.record.identity = v.record.identity
  child : ∀ run, view.run = some run → run < s.runCount ∧ (s.runs run).vm = vm
  live : ∀ run, view.run = some run → view.record.state = .running → (s.runs run).done = false →
    v.run = some run ∧ v.record.state = .running

/-- What the holder of the lock has found out about the machine. -/
def Place.Ok (s : Manager) (vm : Nat) (v : ManagedVM) : Place → Prop
  | .reserve | .spawn | .unreserve | .remove | .forget => v.run = none ∧ v.record.state = .stopped
  | .record run | .publish run =>
    v.run = none ∧ run < s.runCount ∧ (s.runs run).vm = vm ∧ (s.runs run).phase = .unwatched
  | .await run | .save run | .failed run | .signal run | .shutdown run => v.run = some run
  | .reserveVM | .prepare | .prepared | .saveNew | .abandon => v.run = none
  | .check _ | .unlock _ => True

/-- The places at which a child is started and not yet the machine's. -/
def Place.starting (run : Nat) : Place → Prop
  | .record child | .publish child => child = run
  | _ => False

/-- A machine agrees with its children and with the holder of its lock. -/
structure ManagedVM.Ok (s : Manager) (vm : Nat) (v : ManagedVM) : Prop where
  child : ∀ run, v.run = some run →
    run < s.runCount ∧ (s.runs run).vm = vm ∧ (s.runs run).phase ≠ .unwatched
  current : ∀ run, (s.runs run).vm = vm → (s.runs run).done = false → (s.runs run).phase ≠ .unwatched →
    v.run = some run
  unwatched : ∀ run, (s.runs run).vm = vm → (s.runs run).phase = .unwatched →
    ∃ call place, v.mutation = some (.call call place) ∧ place.starting run
  settling : ∀ run, (s.runs run).vm = vm → (s.runs run).phase = .settling →
    v.mutation = some (.watcher run)
  place : ∀ call place, v.mutation = some (.call call place) → place.Ok s vm v
  synced : (∀ call place, v.mutation ≠ some (.call call place)) → v.view = { record := v.record, run := v.run }
  view : Shown s vm v v.view

/-- What a call without a lock relies on. -/
def ManagerCall.Ok (s : Manager) : ManagerCall → Prop
  | .lock _ vm => vm < s.objectCount
  | .load owner vm => vm < s.objectCount ∧ (s.objects vm).record.owner = owner
  | .resolve owner vm view =>
    vm < s.objectCount ∧ (s.objects vm).record.owner = owner ∧ Shown s vm (s.objects vm) view
  | _ => True

/-- The machines, the children and the calls agree. -/
structure Arranged (s : Manager) : Prop where
  objects : ∀ vm, (s.objects vm).Ok s vm
  calls : ∀ call, (s.calls call).Ok s
  saved : ∀ id vm, s.vms.lookup id = some vm → vm < s.objectCount
  spare : ∀ vm, s.objectCount ≤ vm → s.objects vm = .blank
  started : ∀ run, (s.runs run).phase ≠ .ended → run < s.runCount ∧ (s.runs run).vm < s.objectCount

variable {s t : Manager} {vm : Nat} {v : ManagedVM}

theorem VmRecord.owner_eq {a b : VmRecord} (same : a.identity = b.identity) : a.owner = b.owner := by
  simp only [identity, Prod.mk.injEq] at same
  exact same.2.2

/-! ## A step that touches one machine -/

/-- Only the machine and its own children change. -/
structure Touches (s t : Manager) (vm : Nat) : Prop where
  objects : ∀ other, other ≠ vm → t.objects other = s.objects other
  runs : ∀ run, t.runs run = s.runs run ∨
    run < t.runCount ∧ (t.runs run).vm = vm ∧ ((s.runs run).vm = vm ∨ s.runCount ≤ run)
  runCount : s.runCount ≤ t.runCount

/-- The children of a machine stay as they are. -/
structure Untouched (s t : Manager) (vm : Nat) : Prop where
  child : ∀ run, run < s.runCount → (s.runs run).vm = vm → t.runs run = s.runs run
  after : ∀ run, (t.runs run).vm = vm → t.runs run = s.runs run
  runCount : s.runCount ≤ t.runCount

theorem Touches.untouched (touches : Touches s t vm) {other : Nat} (different : other ≠ vm) : Untouched s t other where
  child run known child := by
    rcases touches.runs run with same | ⟨-, -, mine | new⟩
    · exact same
    · exact absurd (child.symm.trans mine) different
    · omega
  after run child := by
    rcases touches.runs run with same | ⟨-, mine, -⟩
    · exact same
    · exact absurd (child.symm.trans mine) different
  runCount := touches.runCount

theorem Untouched.of_runs (runs : t.runs = s.runs) (count : t.runCount = s.runCount) : Untouched s t vm where
  child _ _ _ := by rw [runs]
  after _ _ := by rw [runs]
  runCount := count.ge

theorem Shown.other (untouched : Untouched s t vm) {view : ManagedView} (shown : Shown s vm v view) :
    Shown t vm v view := by
  refine { identity := shown.identity, child := ?_, live := ?_ }
  · intro run child
    obtain ⟨known, mine⟩ := shown.child run child
    rw [untouched.child run known mine]
    exact ⟨lt_of_lt_of_le known untouched.runCount, mine⟩
  · intro run child running live
    obtain ⟨known, mine⟩ := shown.child run child
    rw [untouched.child run known mine] at live
    exact shown.live run child running live

theorem Place.Ok.other (untouched : Untouched s t vm) {place : Place} (ok : place.Ok s vm v) : place.Ok t vm v := by
  cases place with
  | record run | publish run =>
    rw [Place.Ok, untouched.child run ok.2.1 ok.2.2.1]
    exact ⟨ok.1, lt_of_lt_of_le ok.2.1 untouched.runCount, ok.2.2⟩
  | _ => exact ok

theorem ManagedVM.Ok.other (untouched : Untouched s t vm) (ok : v.Ok s vm) : v.Ok t vm := by
  refine
    { child := ?_, current := ?_, unwatched := ?_, settling := ?_
      place := fun call place held => (ok.place call place held).other untouched
      synced := ok.synced, view := ok.view.other untouched }
  · intro run child
    obtain ⟨known, mine, watched⟩ := ok.child run child
    rw [untouched.child run known mine]
    exact ⟨lt_of_lt_of_le known untouched.runCount, mine, watched⟩
  · intro run mine
    have same := untouched.after run mine
    rw [same] at mine ⊢
    exact ok.current run mine
  · intro run mine
    have same := untouched.after run mine
    rw [same] at mine ⊢
    exact ok.unwatched run mine
  · intro run mine
    have same := untouched.after run mine
    rw [same] at mine ⊢
    exact ok.settling run mine

theorem ManagerCall.Ok.mono {place : ManagerCall} (ok : place.Ok s) (count : s.objectCount ≤ t.objectCount)
    (owner : ∀ vm < s.objectCount, (t.objects vm).record.owner = (s.objects vm).record.owner)
    (shown : ∀ vm < s.objectCount, ∀ view, Shown s vm (s.objects vm) view → Shown t vm (t.objects vm) view) :
    place.Ok t := by
  cases place with
  | lock op vm => exact lt_of_lt_of_le ok count
  | load name vm => exact ⟨lt_of_lt_of_le ok.1 count, (owner vm ok.1).trans ok.2⟩
  | resolve name vm view =>
    exact ⟨lt_of_lt_of_le ok.1 count, (owner vm ok.1).trans ok.2.1, shown vm ok.1 view ok.2.2⟩
  | _ => trivial

/-- The machine after a step that touched it. -/
structure Kept (s t : Manager) (vm : Nat) : Prop where
  ok : (t.objects vm).Ok t vm
  identity : (t.objects vm).record.identity = (s.objects vm).record.identity
  shown : ∀ view, Shown s vm (s.objects vm) view → Shown t vm (t.objects vm) view

theorem Touches.owner (touches : Touches s t vm) (kept : Kept s t vm) (other : Nat) :
    (t.objects other).record.owner = (s.objects other).record.owner := by
  by_cases same : other = vm
  · subst same
    exact VmRecord.owner_eq kept.identity
  · rw [touches.objects other same]

theorem Touches.shown (touches : Touches s t vm) (kept : Kept s t vm) {other : Nat} {view : ManagedView}
    (shown : Shown s other (s.objects other) view) : Shown t other (t.objects other) view := by
  by_cases same : other = vm
  · subst same
    exact kept.shown view shown
  · rw [touches.objects other same]
    exact shown.other (touches.untouched same)

/-- A step that touches a machine in use, and takes its call to a place without assumptions. -/
theorem Arranged.touch (arranged : Arranged s) (touches : Touches s t vm) (kept : Kept s t vm)
    (inUse : vm < s.objectCount) (count : t.objectCount = s.objectCount)
    (saved : ∀ id other, t.vms.lookup id = some other → s.vms.lookup id = some other ∨ other = vm)
    (calls : ∀ call, t.calls call = s.calls call ∨ (t.calls call).Ok t) : Arranged t := by
  constructor
  · intro other
    by_cases same : other = vm
    · rw [same]
      exact kept.ok
    · rw [touches.objects other same]
      exact (arranged.objects other).other (touches.untouched same)
  · intro call
    rcases calls call with same | ok
    · rw [same]
      exact (arranged.calls call).mono count.ge (fun other _ => touches.owner kept other)
        fun _ _ _ => touches.shown kept
    · exact ok
  · intro id other found
    rw [count]
    rcases saved id other found with before | mine
    · exact arranged.saved id other before
    · omega
  · intro other unused
    rw [count] at unused
    rw [touches.objects other (by omega)]
    exact arranged.spare other unused
  · intro run started
    rw [count]
    rcases touches.runs run with same | ⟨known, mine, -⟩
    · rw [same] at started ⊢
      obtain ⟨known, parent⟩ := arranged.started run started
      exact ⟨lt_of_lt_of_le known touches.runCount, parent⟩
    · exact ⟨known, by omega⟩

theorem Arranged.inUse (arranged : Arranged s) {holder : Holder}
    (held : (s.objects vm).mutation = some holder) : vm < s.objectCount := by
  by_contra unused
  rw [arranged.spare vm (by omega)] at held
  cases held

@[simp] theorem Manager.setVM_objects (s : Manager) (vm : Nat) (v : ManagedVM) :
    (s.setVM vm v).objects vm = v := update_self ..

@[simp] theorem Manager.setRun_runs (s : Manager) (run : Nat) (process : ManagedProcess) :
    (s.setRun run process).runs run = process := update_self ..

/-! ## Steps that edit the object of a machine -/

/-- An edit of an object: a child that is not done stays, and so does the running state with it. -/
structure Edit (s : Manager) (old new : ManagedVM) : Prop where
  identity : new.record.identity = old.record.identity
  child : ∀ run, new.run = some run → old.run = some run
  live : ∀ run, old.run = some run → (s.runs run).done = false →
    new.run = some run ∧ (old.record.state = .running → new.record.state = .running)

theorem Edit.same {old new : ManagedVM} (identity : new.record.identity = old.record.identity)
    (run : new.run = old.run) (state : new.record.state = old.record.state) : Edit s old new where
  identity := identity
  child _ mine := run.symm.trans mine
  live _ mine _ := ⟨run.trans mine, state.trans⟩

theorem Edit.shown {old new : ManagedVM} (edit : Edit s old new) {view : ManagedView}
    (shown : Shown s vm old view) : Shown s vm new view where
  identity := shown.identity.trans edit.identity.symm
  child := shown.child
  live run child running live := by
    obtain ⟨mine, state⟩ := shown.live run child running live
    obtain ⟨still, keeps⟩ := edit.live run mine live
    exact ⟨still, keeps state⟩

theorem shown_self (child : ∀ run, v.run = some run → run < s.runCount ∧ (s.runs run).vm = vm) :
    Shown s vm v { record := v.record, run := v.run } where
  identity := rfl
  child := child
  live _ mine running _ := ⟨mine, running⟩

/-- The object after an edit: a holder that is left to it is where it was. -/
theorem ManagedVM.Ok.edit {old new : ManagedVM} (ok : old.Ok s vm) (edit : Edit s old new)
    (settling : ∀ run, (s.runs run).vm = vm → (s.runs run).phase = .settling →
      new.mutation = some (.watcher run))
    (starting : ∀ run call place, old.mutation = some (.call call place) → place.starting run →
      ∃ call place, new.mutation = some (.call call place) ∧ place.starting run)
    (placed : ∀ call place, new.mutation = some (.call call place) → place.Ok s vm new)
    (synced : (∀ call place, new.mutation ≠ some (.call call place)) →
      new.view = { record := new.record, run := new.run })
    (view : new.view = old.view ∨ new.view = { record := new.record, run := new.run }) : new.Ok s vm := by
  have child run (mine : new.run = some run) := ok.child run (edit.child run mine)
  refine
    { child, current := ?_, unwatched := ?_, settling, place := placed
      synced, view := ?_ }
  · intro run mine live watched
    exact (edit.live run (ok.current run mine live watched) live).1
  · intro run mine unwatched
    obtain ⟨call, place, held, at_⟩ := ok.unwatched run mine unwatched
    exact starting run call place held at_
  · rcases view with same | own
    · rw [same]
      exact edit.shown ok.view
    · rw [own]
      exact shown_self fun run mine => ⟨(child run mine).1, (child run mine).2.1⟩

/-- Only the object of one machine changes. -/
structure Edits (s t : Manager) (vm : Nat) (v : ManagedVM) : Prop where
  objects : t.objects = update s.objects vm v
  runs : t.runs = s.runs
  runCount : t.runCount = s.runCount
  objectCount : t.objectCount = s.objectCount

theorem edits_setVM (s : Manager) (vm : Nat) (v : ManagedVM) : Edits s (s.setVM vm v) vm v :=
  ⟨rfl, rfl, rfl, rfl⟩

theorem Edits.touches (edits : Edits s t vm v) : Touches s t vm where
  objects other different := by rw [edits.objects, update_of_ne different]
  runs run := Or.inl (by rw [edits.runs])
  runCount := edits.runCount.ge

theorem Edits.kept (edits : Edits s t vm v) (edit : Edit s (s.objects vm) v) (ok : v.Ok s vm) :
    Kept s t vm := by
  have object : t.objects vm = v := by rw [edits.objects, update_self]
  refine { ok := ?_, identity := ?_, shown := ?_ } <;> rw [object]
  · exact ok.other (.of_runs edits.runs edits.runCount)
  · exact edit.identity
  · intro view shown
    exact (edit.shown shown).other (.of_runs edits.runs edits.runCount)

/-- The machines of a step that adds at most the one it touches. -/
def Adds (s t : Manager) (vm : Nat) : Prop :=
  ∀ id other, t.vms.lookup id = some other → s.vms.lookup id = some other ∨ other = vm

end Gokvm.Gateway
