import Gokvm.Gateway.ManagerLocks

/-! # Every step keeps the machines in order

One lemma for every step of a call and of a watcher, and from them that machines, children
and calls agree in every run from a saved state.
-/

namespace Gokvm.Gateway

open Lib Function Nat Manager

variable {s t : Manager} {vm call run : Nat} {v : ManagedVM} {place next : Place}

/-! ## What a step changes -/

theorem Edit.childless {old new : ManagedVM} (identity : new.record.identity = old.record.identity)
    (before : old.run = none) (after : new.run = none) : Edit s old new where
  identity := identity
  child run mine := by
    rw [after] at mine
    cases mine
  live run mine := by
    rw [before] at mine
    cases mine

theorem Edit.gone {old new : ManagedVM} {run : Nat} (identity : new.record.identity = old.record.identity)
    (before : old.run = some run) (done : (s.runs run).done = true) (after : new.run = none) :
    Edit s old new where
  identity := identity
  child other mine := by
    rw [after] at mine
    cases mine
  live other mine live := by
    rw [before] at mine
    cases mine
    rw [done] at live
    cases live

theorem edit_exited (mine : v.run = some run) (done : (s.runs run).done = true) (failed saveFails : Bool) :
    Edit s v (exited v failed saveFails) := by
  refine Edit.gone ?_ mine done ?_
  · simp only [exited]
    split <;> split <;> rfl
  · simp only [exited]
    split <;> split <;> rfl

theorem adds_rfl (s : Manager) (vm : Nat) : Adds s s vm := fun _ _ found => Or.inl found

theorem adds_erase (s : Manager) (vm : Nat) (id : String) : Adds s { s with vms := s.vms.erase id } vm :=
  fun _ _ found => Or.inl ((FinMap.lookup_erase_eq_some _).mp found).2

theorem check_ok (s : Manager) (vm : Nat) (op : Op) (cancel : Bool) :
    (check op (s.objects vm) cancel).Ok s vm (s.objects vm) := by
  have idle : Place.Ok s vm (s.objects vm)
      (if cancel then .unlock .cancelled
        else if (s.objects vm).run ≠ none ∨ (s.objects vm).record.state ≠ .stopped then .unlock .conflict
        else if op = .start then .reserve else .remove) := by
    split
    · trivial
    · split
      · trivial
      next free =>
        simp only [ne_eq, not_or, not_not] at free
        split <;> exact free
  cases op with
  | start | delete => exact idle
  | rdp => trivial
  | stop =>
    rw [check]
    split
    · trivial
    next run mine =>
      split
      · trivial
      · exact mine

/-- The owner of a new machine may have it. -/
structure Room (limits : ManagerLimits) (s : Manager) (record : VmRecord) : Prop where
  quota : s.vms.countIf (fun _ vm => decide ((s.objects vm).view.record.owner = record.owner)) <
    limits.maxVMsPerUser
  name : ∀ id vm, s.vms.lookup id = some vm → (s.objects vm).view.record.owner = record.owner →
    (s.objects vm).view.record.name ≠ record.name
  free : s.vms.lookup record.id = none

theorem reserveVM_cases (limits : ManagerLimits) (s : Manager) (call vm : Nat) :
    s.reserveVM limits call vm = s.move call vm (.unlock .conflict) ∨
      Room limits s (s.objects vm).record ∧
        s.reserveVM limits call vm =
          { s with vms := s.vms.insert (s.objects vm).record.id vm }.move call vm .prepare := by
  rw [reserveVM]
  split
  · exact Or.inl rfl
  · split
    · exact Or.inl rfl
    · split
      · exact Or.inl rfl
      · split
        · exact Or.inl rfl
        next unnamed below free =>
          refine Or.inr ⟨{ quota := ?_, name := ?_, free := by simpa using free }, rfl⟩
          · rw [FinMap.countIf, List.countP_eq_length_filter]
            exact not_le.mp below
          · intro id other found owned named
            apply unnamed
            rw [List.any_eq_true]
            refine ⟨⟨id, other⟩, List.mem_filter.mpr ⟨?_, by simpa using owned⟩, by simpa using named⟩
            exact (FinMap.lookup_eq_some_iff s.vms).mp found

theorem touches_spawn (s : Manager) (call vm : Nat) : Touches s (s.spawn call vm) vm := by
  refine { objects := fun other different => update_of_ne different _ _, runs := ?_, runCount := ?_ }
  · intro run
    by_cases fresh : run = s.runCount
    · right
      have new : (s.spawn call vm).runs run = { vm, phase := .unwatched, failed := false } := by
        rw [fresh]
        exact update_self ..
      rw [new, fresh]
      exact ⟨lt_succ_self _, rfl, Or.inr le_rfl⟩
    · exact Or.inl (update_of_ne fresh _ _)
  · exact le_succ _

theorem touches_publish (known : run < s.runCount) (mine : (s.runs run).vm = vm) :
    Touches s (s.publish call vm run) vm := by
  refine
    { objects := fun other different => update_of_ne different _ _, runs := ?_, runCount := le_rfl }
  intro other
  by_cases same : other = run
  · right
    have new : (s.publish call vm run).runs other = { s.runs run with phase := .alive } := by
      rw [same]
      exact update_self ..
    rw [new, same]
    exact ⟨known, mine, Or.inl mine⟩
  · exact Or.inl (update_of_ne same _ _)

structure Still (s t : Manager) : Prop where
  objects : t.objects = s.objects
  objectCount : t.objectCount = s.objectCount
  runs : t.runs = s.runs
  runCount : t.runCount = s.runCount
  vms : t.vms = s.vms

theorem Still.untouched (still : Still s t) : Untouched s t vm := .of_runs still.runs still.runCount

theorem Still.call_ok (still : Still s t) {place : ManagerCall} (ok : place.Ok s) : place.Ok t := by
  refine ok.mono still.objectCount.ge (fun _ _ => by rw [still.objects]) fun vm _ view shown => ?_
  rw [still.objects]
  exact shown.other still.untouched

/-- A new object takes the first place that is not in use. -/
structure Extends (s t : Manager) (new : ManagedVM) : Prop where
  objects : t.objects = update s.objects s.objectCount new
  objectCount : t.objectCount = s.objectCount + 1
  runs : t.runs = s.runs
  runCount : t.runCount = s.runCount
  calls : t.calls = s.calls
  adds : Adds s t s.objectCount

theorem Extends.object_of_lt (grows : Extends s t v) (old : vm < s.objectCount) :
    t.objects vm = s.objects vm := by
  rw [grows.objects, update_of_ne (by omega)]

theorem Extends.untouched (grows : Extends s t v) : Untouched s t vm := .of_runs grows.runs grows.runCount

theorem extends_newVM (s : Manager) (v : ManagedVM) :
    Extends s ({ s with objectCount := s.objectCount + 1 }.setVM s.objectCount v) v :=
  ⟨rfl, rfl, rfl, rfl, rfl, adds_rfl s _⟩

theorem lookup_ok {owner id : String} (found : s.lookup owner id = .ok vm) :
    s.vms.lookup id = some vm ∧ (s.objects vm).view.record.owner = owner := by
  rw [lookup] at found
  split at found
  · cases found
  · split at found
    · cases found
    next other here =>
      split at found
      · cases found
      next owned =>
        split at found
        · cases found
        · cases found
          exact ⟨here, not_not.mp owned⟩

section

variable (arranged : Arranged s)
include arranged

/-! ## Steps of a call that has the lock -/

/-- The holder of the lock edits the object, and goes on. -/
theorem Arranged.edit (held : (s.objects vm).mutation = some (.call call place))
    (edits : Edits s t vm (v.hold call next)) (edit : Edit s (s.objects vm) v)
    (view : v.view = (s.objects vm).view) (starting : ∀ run, place.starting run → next.starting run)
    (nextOk : next.Ok s vm (v.hold call next)) (adds : Adds s t vm) (calls : t.calls = s.calls) :
    Arranged t := by
  have held' : Edit s (s.objects vm) (v.hold call next) := { edit with }
  refine arranged.touch edits.touches (edits.kept held' ?_) (arranged.inUse held) edits.objectCount adds
    fun number => Or.inl (by rw [calls])
  refine (arranged.objects vm).edit held' ?_ ?_ ?_ ?_ (Or.inl view)
  · intro run mine settling
    cases held.symm.trans ((arranged.objects vm).settling run mine settling)
  · intro run call' place' held' at_
    rw [held] at held'
    cases held'
    exact ⟨call, next, rfl, starting run at_⟩
  · rintro _ _ ⟨⟩
    exact nextOk
  · intro free
    exact absurd rfl (free call next)

theorem Arranged.move (held : (s.objects vm).mutation = some (.call call place))
    (starting : ∀ run, place.starting run → next.starting run) (nextOk : next.Ok s vm (s.objects vm)) :
    Arranged (s.move call vm next) := by
  refine arranged.edit held (edits_setVM ..) (.same rfl rfl rfl) rfl starting ?_ (adds_rfl s vm) rfl
  cases next <;> exact nextOk

theorem Arranged.reserve (held : (s.objects vm).mutation = some (.call call .reserve))
    (limits : ManagerLimits) (report : MemoryReport) : Arranged (s.reserve limits call vm report) := by
  have idle := (arranged.objects vm).place call .reserve held
  rw [Manager.reserve]
  split
  · exact arranged.move held (fun _ => False.elim) trivial
  · dsimp only
    split
    · exact arranged.edit held ⟨rfl, rfl, rfl, rfl⟩ (.same rfl rfl rfl) rfl (fun _ => False.elim) trivial
        (adds_rfl s vm) rfl
    · exact arranged.edit held ⟨rfl, rfl, rfl, rfl⟩ (.same rfl rfl rfl) rfl (fun _ => False.elim) idle
        (adds_rfl s vm) rfl

theorem Arranged.spawn (held : (s.objects vm).mutation = some (.call call .spawn)) :
    Arranged (s.spawn call vm) := by
  have ok := arranged.objects vm
  have idle := ok.place call .spawn held
  have new : (s.spawn call vm).runs s.runCount = { vm, phase := .unwatched, failed := false } :=
    update_self ..
  have old run (known : run ≠ s.runCount) : (s.spawn call vm).runs run = s.runs run :=
    update_of_ne known _ _
  have object : (s.spawn call vm).objects vm = (s.objects vm).hold call (.record s.runCount) :=
    update_self ..
  have shown view (shown : Shown s vm (s.objects vm) view) :
      Shown (s.spawn call vm) vm ((s.objects vm).hold call (.record s.runCount)) view := by
    refine { identity := shown.identity, child := ?_, live := ?_ }
    · intro run child
      obtain ⟨known, mine⟩ := shown.child run child
      rw [old run (by omega)]
      exact ⟨lt_succ_of_lt known, mine⟩
    · intro run child running
      obtain ⟨known, mine⟩ := shown.child run child
      rw [old run (by omega)]
      exact shown.live run child running
  refine arranged.touch (touches_spawn s call vm) { ok := ?_, identity := ?_, shown := ?_ } (arranged.inUse held) rfl
    (adds_rfl s vm) fun _ => Or.inl rfl
  · rw [object]
    refine
      { child := ?_, current := ?_, unwatched := ?_, settling := ?_, place := ?_, synced := ?_
        view := shown _ ok.view }
    · intro run mine
      cases idle.1.symm.trans mine
    · intro run mine live watched
      by_cases fresh : run = s.runCount
      · rw [fresh, new] at watched
        exact absurd rfl watched
      · rw [old run fresh] at mine live watched
        exact ok.current run mine live watched
    · intro run mine unwatched
      by_cases fresh : run = s.runCount
      · exact ⟨call, .record s.runCount, rfl, fresh.symm⟩
      · rw [old run fresh] at mine unwatched
        obtain ⟨_, _, held', at_⟩ := ok.unwatched run mine unwatched
        rw [held] at held'
        cases held'
        exact at_.elim
    · intro run mine settling
      by_cases fresh : run = s.runCount
      · rw [fresh, new] at settling
        cases settling
      · rw [old run fresh] at mine settling
        cases held.symm.trans (ok.settling run mine settling)
    · rintro _ _ ⟨⟩
      refine ⟨idle.1, lt_succ_self _, ?_⟩
      rw [new]
      exact ⟨rfl, rfl⟩
    · intro free
      exact absurd rfl (free call _)
  · rw [object]
    rfl
  · rw [object]
    exact shown

theorem Arranged.publish {run : Nat}
    (held : (s.objects vm).mutation = some (.call call (.publish run))) :
    Arranged (s.publish call vm run) := by
  have ok := arranged.objects vm
  obtain ⟨idle, known, mine, unwatched⟩ := ok.place call (.publish run) held
  have new : (s.publish call vm run).runs run = { s.runs run with phase := .alive } := update_self ..
  have old other (different : other ≠ run) : (s.publish call vm run).runs other = s.runs other :=
    update_of_ne different _ _
  have object : (s.publish call vm run).objects vm =
      ((((s.objects vm).setState .starting).setError "").setRun (some run)).publish.hold call (.await run) :=
    update_self ..
  -- before the step every child but the new one is done
  have done other (child : (s.runs other).vm = vm) (different : other ≠ run) : (s.runs other).done = true := by
    by_contra live
    rw [Bool.not_eq_true] at live
    by_cases watched : (s.runs other).phase = .unwatched
    · obtain ⟨_, _, held', at_⟩ := ok.unwatched other child watched
      rw [held] at held'
      cases held'
      exact different at_.symm
    · cases idle.symm.trans (ok.current other child live watched)
  refine arranged.touch (touches_publish known mine) { ok := ?_, identity := ?_, shown := ?_ } (arranged.inUse held) rfl
    (adds_rfl s vm) fun _ => Or.inl rfl
  · rw [object]
    have child : (s.publish call vm run).runs run = { s.runs run with phase := .alive } ∧
        ((s.publish call vm run).runs run).vm = vm := ⟨new, by rw [new]; exact mine⟩
    refine
      { child := ?_, current := ?_, unwatched := ?_, settling := ?_, place := ?_, synced := ?_
        view := shown_self ?_ }
    · rintro _ ⟨⟩
      refine ⟨known, child.2, ?_⟩
      rw [new]
      exact nofun
    · intro other mine' live watched
      by_cases same : other = run
      · rw [same]
        rfl
      · rw [old other same] at mine' live
        rw [done other mine' same] at live
        cases live
    · intro other mine' unwatched'
      by_cases same : other = run
      · rw [same, new] at unwatched'
        cases unwatched'
      · rw [old other same] at mine' unwatched'
        have isDone := done other mine' same
        simp [ManagedProcess.done, unwatched'] at isDone
    · intro other mine' settling
      by_cases same : other = run
      · rw [same, new] at settling
        cases settling
      · rw [old other same] at mine' settling
        cases held.symm.trans (ok.settling other mine' settling)
    · rintro _ _ ⟨⟩
      rfl
    · intro free
      exact absurd rfl (free call _)
    · rintro _ ⟨⟩
      exact ⟨known, child.2⟩
  · rw [object]
    rfl
  · rw [object]
    intro view shown
    refine { identity := shown.identity, child := ?_, live := ?_ }
    · intro other child
      obtain ⟨known', mine'⟩ := shown.child other child
      by_cases same : other = run
      · rw [same, new]
        exact ⟨known, mine⟩
      · rw [old other same]
        exact ⟨known', mine'⟩
    · intro other child running live
      by_cases same : other = run
      · subst same
        have before : (s.runs other).done = false := by simp [ManagedProcess.done, unwatched]
        cases idle.symm.trans (shown.live other child running before).1
      · rw [old other same] at live
        rw [done other (shown.child other child).2 same] at live
        cases live

theorem Arranged.settleFailed {run : Nat}
    (held : (s.objects vm).mutation = some (.call call (.failed run))) :
    Arranged (s.settleFailed call vm run) := by
  have mine := (arranged.objects vm).place call (.failed run) held
  rw [Manager.settleFailed]
  refine arranged.edit held (edits_setVM ..) ?_ ?_ (fun _ => False.elim) trivial (adds_rfl s vm) rfl
  · split
    next done => exact Edit.gone rfl mine done rfl
    · exact .same rfl rfl rfl
  · split <;> rfl

theorem Arranged.reserveVM
    (held : (s.objects vm).mutation = some (.call call .reserveVM)) (limits : ManagerLimits) :
    Arranged (s.reserveVM limits call vm) := by
  have idle := (arranged.objects vm).place call .reserveVM held
  rcases reserveVM_cases limits s call vm with refused | ⟨_, added⟩
  · rw [refused]
    exact arranged.move held (fun _ => False.elim) trivial
  · rw [added]
    refine arranged.edit held ⟨rfl, rfl, rfl, rfl⟩ (.same rfl rfl rfl) rfl (fun _ => False.elim) idle ?_ rfl
    exact FinMap.forall_insert (Or.inr rfl) fun _ _ => Or.inl

theorem Arranged.unlock {outcome : Outcome}
    (held : (s.objects vm).mutation = some (.call call (.unlock outcome))) :
    Arranged ((s.setVM vm (s.objects vm).unlock).finish call outcome) := by
  have ok := arranged.objects vm
  have edits : Edits s ((s.setVM vm (s.objects vm).unlock).finish call outcome) vm (s.objects vm).unlock :=
    ⟨rfl, rfl, rfl, rfl⟩
  have edit : Edit s (s.objects vm) (s.objects vm).unlock := .same rfl rfl rfl
  refine arranged.touch edits.touches (edits.kept edit ?_) (arranged.inUse held) rfl (adds_rfl s vm) ?_
  · refine ok.edit edit ?_ ?_ nofun (fun _ => rfl) (Or.inr rfl)
    · intro run mine settling
      cases held.symm.trans (ok.settling run mine settling)
    · intro run _ _ held' at_
      rw [held] at held'
      cases held'
      exact at_.elim
  · intro number
    by_cases same : number = call
    · subst same
      right
      have finished : ((s.setVM vm (s.objects vm).unlock).finish number outcome).calls number =
          .finished outcome := update_self ..
      rw [finished]
      trivial
    · exact Or.inl (update_of_ne same _ _)

theorem Arranged.stepInside (limits : ManagerLimits) (answer : Reply)
    (held : (s.objects vm).mutation = some (.call call place))
    (step : s.stepInside limits call vm answer place = some t) : Arranged t := by
  have ok := (arranged.objects vm).place call place held
  cases place with
  | check op =>
    cases step
    exact arranged.move held (fun _ => False.elim) (check_ok s vm op answer.cancel)
  | reserve =>
    cases step
    exact arranged.reserve held limits answer.memory
  | spawn =>
    cases step
    split
    · exact arranged.move held (fun _ => False.elim) ok
    · exact arranged.spawn held
  | unreserve =>
    cases step
    exact arranged.edit held ⟨rfl, rfl, rfl, rfl⟩ (.same rfl rfl rfl) rfl (fun _ => False.elim) trivial
      (adds_rfl s vm) rfl
  | record run =>
    cases step
    exact arranged.edit held ⟨rfl, rfl, rfl, rfl⟩ (.same rfl rfl rfl) rfl (fun _ same => same) ok
      (adds_rfl s vm) rfl
  | publish run =>
    cases step
    exact arranged.publish held
  | await run =>
    rw [stepInside] at step
    split at step
    · cases step
      exact arranged.move held (fun _ => False.elim) ok
    · cases step
      refine arranged.edit held (edits_setVM ..) ?_ rfl (fun _ => False.elim) ok (adds_rfl s vm) rfl
      exact ⟨rfl, fun _ mine => mine, fun _ mine _ => ⟨mine, fun _ => rfl⟩⟩
  | save _ | saveNew =>
    cases step
    split
    · exact arranged.move held (fun _ => False.elim) ok
    · exact arranged.move held (fun _ => False.elim) trivial
  | failed run =>
    cases step
    exact arranged.settleFailed held
  | signal _ | remove =>
    cases step
    split
    · exact arranged.move held (fun _ => False.elim) trivial
    · exact arranged.move held (fun _ => False.elim) ok
  | shutdown run =>
    rw [stepInside] at step
    split at step
    · cases step
      exact arranged.move held (fun _ => False.elim) trivial
    · split at step
      next done =>
        cases step
        exact arranged.edit held (edits_setVM ..) (Edit.gone rfl ok done rfl) rfl (fun _ => False.elim)
          trivial (adds_rfl s vm) rfl
      · cases step
  | forget =>
    cases step
    exact arranged.edit held ⟨rfl, rfl, rfl, rfl⟩ (Edit.childless rfl ok.1 ok.1) rfl (fun _ => False.elim)
      trivial (adds_erase s vm _) rfl
  | reserveVM =>
    cases step
    exact arranged.reserveVM held limits
  | prepare =>
    cases step
    split <;> exact arranged.move held (fun _ => False.elim) ok
  | prepared =>
    rw [stepInside] at step
    split at step
    · cases step
      exact arranged.move held (fun _ => False.elim) ok
    · cases step
      exact arranged.edit held (edits_setVM ..) (Edit.childless rfl ok ok) rfl (fun _ => False.elim) ok
        (adds_rfl s vm) rfl
  | abandon =>
    cases step
    exact arranged.edit held ⟨rfl, rfl, rfl, rfl⟩ (.same rfl rfl rfl) rfl (fun _ => False.elim) trivial
      (adds_erase s vm _) rfl
  | unlock outcome =>
    cases step
    exact arranged.unlock held

/-! ## Steps of a watcher -/

theorem Arranged.advance {process : ManagedProcess}
    (sameVM : process.vm = (s.runs run).vm) (before : (s.runs run).phase ≠ .unwatched)
    (started : (s.runs run).phase ≠ .ended) (watched : process.phase ≠ .unwatched)
    (done : process.done = false → (s.runs run).done = false)
    (settling : process.phase = .settling →
      (s.objects (s.runs run).vm).mutation = some (.watcher run)) :
    Arranged (s.setRun run process) := by
  have ok := arranged.objects (s.runs run).vm
  obtain ⟨known, inUse⟩ := arranged.started run started
  have new : (s.setRun run process).runs run = process := update_self ..
  have old other (different : other ≠ run) : (s.setRun run process).runs other = s.runs other :=
    update_of_ne different _ _
  have sameOwner other : ((s.setRun run process).runs other).vm = (s.runs other).vm := by
    by_cases same : other = run
    · rw [same, new, sameVM]
    · rw [old other same]
  have stillLive other (live : ((s.setRun run process).runs other).done = false) :
      (s.runs other).done = false := by
    by_cases same : other = run
    · rw [same, new] at live
      rw [same]
      exact done live
    · rwa [old other same] at live
  have unwatched other : ((s.setRun run process).runs other).phase = .unwatched ↔
      (s.runs other).phase = .unwatched := by
    by_cases same : other = run
    · rw [same, new]
      exact ⟨fun h => absurd h watched, fun h => absurd h before⟩
    · rw [old other same]
  have touches : Touches s (s.setRun run process) (s.runs run).vm := by
    refine { objects := fun _ _ => rfl, runs := ?_, runCount := le_rfl }
    intro other
    by_cases same : other = run
    · rw [same, new]
      exact Or.inr ⟨known, sameVM, Or.inl rfl⟩
    · exact Or.inl (old other same)
  have shown view (shown : Shown s (s.runs run).vm (s.objects (s.runs run).vm) view) :
      Shown (s.setRun run process) (s.runs run).vm (s.objects (s.runs run).vm) view := by
    refine { identity := shown.identity, child := ?_, live := ?_ }
    · intro other child
      rw [sameOwner]
      exact shown.child other child
    · intro other child running live
      exact shown.live other child running (stillLive other live)
  refine arranged.touch touches { ok := ?_, identity := rfl, shown } inUse rfl (adds_rfl s _)
    fun _ => Or.inl rfl
  refine
    { child := ?_, current := ?_, unwatched := ?_, settling := ?_, place := ?_, synced := ok.synced
      view := shown _ ok.view }
  · intro other child
    rw [sameOwner, ne_eq, unwatched]
    exact ok.child other child
  · intro other mine live
    rw [sameOwner] at mine
    rw [ne_eq, unwatched]
    exact ok.current other mine (stillLive other live)
  · intro other mine
    rw [sameOwner] at mine
    rw [unwatched]
    exact ok.unwatched other mine
  · intro other mine isSettling
    rw [sameOwner] at mine
    by_cases same : other = run
    · rw [same, new] at isSettling
      rw [same]
      exact settling isSettling
    · rw [old other same] at isSettling
      exact ok.settling other mine isSettling
  · intro call place held
    have placeOk := ok.place call place held
    cases place with
    | record child | publish child =>
      rw [Place.Ok, sameOwner, unwatched]
      exact placeOk
    | _ => exact placeOk

theorem Arranged.still (still : Still s t)
    (calls : ∀ call, t.calls call = s.calls call ∨ (t.calls call).Ok s) : Arranged t := by
  constructor
  · intro vm
    rw [still.objects]
    exact (arranged.objects vm).other still.untouched
  · intro call
    apply still.call_ok
    rcases calls call with same | ok
    · rw [same]
      exact arranged.calls call
    · exact ok
  · rw [still.vms, still.objectCount]
    exact arranged.saved
  · rw [still.objects, still.objectCount]
    exact arranged.spare
  · rw [still.runs, still.runCount, still.objectCount]
    exact arranged.started

theorem Arranged.settle (free : (s.objects (s.runs run).vm).mutation = none)
    (published : (s.runs run).phase = .published) :
    Arranged ((s.setVM (s.runs run).vm
      { s.objects (s.runs run).vm with mutation := some (.watcher run) }).setPhase run .settling) := by
  have ok := arranged.objects (s.runs run).vm
  obtain ⟨-, inUse⟩ := arranged.started run (published.trans_ne nofun)
  have edit : Edit s (s.objects (s.runs run).vm)
      { s.objects (s.runs run).vm with mutation := some (.watcher run) } := .same rfl rfl rfl
  have synced : (s.objects (s.runs run).vm).view =
      { record := (s.objects (s.runs run).vm).record, run := (s.objects (s.runs run).vm).run } := by
    apply ok.synced
    intro call place held
    cases free.symm.trans held
  have locked := arranged.touch (edits_setVM ..).touches
    ((edits_setVM ..).kept edit (ok.edit edit
      (fun other mine settling => nomatch free.symm.trans (ok.settling other mine settling))
      (fun other call place held => nomatch free.symm.trans held) nofun (fun _ => synced) (Or.inl rfl)))
    inUse rfl (adds_rfl s _) fun _ => Or.inl rfl
  refine locked.advance rfl (published.trans_ne nofun) (published.trans_ne nofun) nofun nofun fun _ => ?_
  have object := setVM_objects s (s.runs run).vm
    { s.objects (s.runs run).vm with mutation := some (.watcher run) }
  exact congrArg ManagedVM.mutation object

theorem Arranged.settleExited (settling : (s.runs run).phase = .settling)
    (saveFails : Bool) : Arranged (s.settleExited run saveFails) := by
  have before := arranged.objects (s.runs run).vm
  have held := before.settling run rfl settling
  have started : (s.runs run).phase ≠ .ended := settling.trans_ne nofun
  -- the child ends first, with the lock still held
  have ended : Arranged (s.setPhase run .ended) :=
    arranged.advance rfl (settling.trans_ne nofun) started nofun nofun nofun
  have new : (s.setPhase run .ended).runs run = { s.runs run with phase := .ended } := update_self ..
  have old other (different : other ≠ run) : (s.setPhase run .ended).runs other = s.runs other :=
    update_of_ne different _ _
  have ok : (s.objects (s.runs run).vm).Ok (s.setPhase run .ended) (s.runs run).vm := ended.objects _
  have done : ((s.setPhase run .ended).runs run).done = true := by
    rw [new]
    rfl
  let object :=
    if (s.objects (s.runs run).vm).run = some run then
      exited (s.objects (s.runs run).vm) (s.runs run).failed saveFails
    else s.objects (s.runs run).vm
  have edit : Edit (s.setPhase run .ended) (s.objects (s.runs run).vm) object := by
    simp only [object]
    split
    next mine => exact edit_exited mine done _ _
    · exact .same rfl rfl rfl
  have unlocked : Edit (s.setPhase run .ended) (s.objects (s.runs run).vm) object.unlock := { edit with }
  have edits : Edits (s.setPhase run .ended) (s.settleExited run saveFails) (s.runs run).vm object.unlock :=
    ⟨rfl, rfl, rfl, rfl⟩
  refine ended.touch edits.touches (edits.kept unlocked ?_) (arranged.started run started).2 rfl
    (adds_rfl s _) fun _ => Or.inl rfl
  refine ok.edit unlocked ?_ ?_ nofun (fun _ => rfl) (Or.inr rfl)
  · intro other mine settling'
    by_cases same : other = run
    · rw [same, new] at settling'
      cases settling'
    · rw [old other same] at mine settling'
      cases held.symm.trans (before.settling other mine settling')
      exact absurd rfl same
  · intro other call place held'
    cases held.symm.trans held'

theorem Arranged.stepWatcher (answer : Reply)
    (step : s.stepWatcher run answer = some t) : Arranged t := by
  cases watcherStep step with
  | ends phase =>
    exact arranged.advance rfl (phase.trans_ne nofun) (phase.trans_ne nofun) nofun
      (fun _ => by simp [ManagedProcess.done, phase]) nofun
  | forget phase =>
    have recounted : Arranged { s with processes := s.processes.erase run, active := s.active - 1 } :=
      arranged.still (s := s) ⟨rfl, rfl, rfl, rfl, rfl⟩ fun _ => Or.inl rfl
    exact recounted.advance rfl (phase.trans_ne nofun) (phase.trans_ne nofun) nofun
      (fun _ => by simp [ManagedProcess.done, phase]) nofun
  | publish phase =>
    exact arranged.advance rfl (phase.trans_ne nofun) (phase.trans_ne nofun) nofun nofun nofun
  | lock phase free => exact arranged.settle free phase
  | settle phase => exact arranged.settleExited phase answer.fail

/-! ## Steps of a call without a lock -/

theorem Arranged.goto {next : ManagerCall} (ok : next.Ok s) : Arranged (s.goto call next) := by
  refine arranged.still ⟨rfl, rfl, rfl, rfl, rfl⟩ ?_
  intro number
  by_cases same : number = call
  · right
    have here : (s.goto call next).calls number = next := by
      rw [same]
      exact update_self ..
    rw [here]
    exact ok
  · exact Or.inl (update_of_ne same _ _)

theorem Arranged.lock {op : Op} (inUse : vm < s.objectCount)
    (free : (s.objects vm).mutation = none) :
    Arranged ((s.move call vm (.check op)).goto call (.inside vm)) := by
  have ok := arranged.objects vm
  have edit : Edit s (s.objects vm) ((s.objects vm).hold call (.check op)) := .same rfl rfl rfl
  have edits := edits_setVM s vm ((s.objects vm).hold call (.check op))
  refine Arranged.goto (arranged.touch edits.touches (edits.kept edit ?_) inUse rfl (adds_rfl s vm)
    fun _ => Or.inl rfl) trivial
  refine ok.edit edit ?_ ?_ ?_ ?_ (Or.inl rfl)
  · intro run mine settling
    cases free.symm.trans (ok.settling run mine settling)
  · intro run _ _ held
    cases free.symm.trans held
  · rintro _ _ ⟨⟩
    trivial
  · intro unheld
    exact absurd rfl (unheld call _)

theorem Arranged.extend (grows : Extends s t v) (childless : v.run = none)
    (view : v.view = { record := v.record, run := v.run })
    (placed : ∀ call place, v.mutation = some (.call call place) → place.Ok s s.objectCount v) : Arranged t := by
  have ok : v.Ok s s.objectCount := by
    have spare := arranged.objects s.objectCount
    rw [arranged.spare _ le_rfl] at spare
    refine
      { child := fun run mine => (nomatch childless.symm.trans mine), current := ?_, unwatched := ?_
        settling := ?_, place := placed, synced := fun _ => view, view := ?_ }
    · intro run mine live watched
      cases spare.current run mine live watched
    · intro run mine unwatched
      obtain ⟨_, _, held, -⟩ := spare.unwatched run mine unwatched
      cases held
    · intro run mine settling
      cases spare.settling run mine settling
    · rw [view]
      exact shown_self fun run mine => nomatch childless.symm.trans mine
  constructor
  · intro other
    rw [grows.objects]
    by_cases same : other = s.objectCount
    · rw [same, update_self]
      exact ok.other grows.untouched
    · rw [update_of_ne same]
      exact (arranged.objects other).other grows.untouched
  · intro call
    rw [grows.calls]
    refine (arranged.calls call).mono (by rw [grows.objectCount]; exact le_succ _)
      (fun vm old => by rw [grows.object_of_lt old]) fun vm old view shown => ?_
    rw [grows.object_of_lt old]
    exact shown.other grows.untouched
  · intro id other found
    rw [grows.objectCount]
    rcases grows.adds id other found with before | new
    · exact lt_succ_of_lt (arranged.saved id other before)
    · omega
  · intro other unused
    rw [grows.objectCount] at unused
    rw [grows.objects, update_of_ne (by omega)]
    exact arranged.spare other (by omega)
  · intro run started
    rw [grows.runs] at started
    rw [grows.runs, grows.runCount, grows.objectCount]
    obtain ⟨known, parent⟩ := arranged.started run started
    exact ⟨known, lt_succ_of_lt parent⟩

theorem Arranged.newVM (owner name id : String) :
    Arranged (s.newVM call owner name id) := by
  refine Arranged.goto (arranged.extend (extends_newVM s _) rfl rfl ?_) trivial
  rintro _ _ ⟨⟩
  rfl

theorem Arranged.stepCall (limits : ManagerLimits) (answer : Reply)
    (step : s.stepCall limits call answer = some t) : Arranged t := by
  have ok := arranged.calls call
  cases callStep step with
  | finish _ | enter _ _ _ _ => exact arranged.goto trivial
  | find op owner id vm here found =>
    obtain ⟨saved, owned⟩ := lookup_ok found
    have inUse := arranged.saved _ vm saved
    split
    · exact arranged.goto ⟨inUse, (VmRecord.owner_eq (arranged.objects vm).view.identity).symm.trans owned⟩
    · exact arranged.goto inUse
  | lock op vm here free =>
    rw [here] at ok
    exact arranged.lock ok free
  | inside vm place _ here held step => exact arranged.stepInside limits answer held step
  | load owner vm here =>
    rw [here] at ok
    exact arranged.goto ⟨ok.1, ok.2, (arranged.objects _).view⟩
  | create owner name here fresh => exact arranged.newVM ..
  | close here =>
    have closed : Arranged { s with closed := true } :=
      arranged.still (s := s) ⟨rfl, rfl, rfl, rfl, rfl⟩ fun _ => Or.inl rfl
    exact closed.goto trivial

/-! ## Runs -/

theorem Arranged.act (limits : ManagerLimits) (event : Manager.Event) :
    Arranged (Manager.act limits s event) := by
  rw [Manager.act]
  cases taken : s.step limits event with
  | none => exact arranged
  | some t =>
    cases event with
    | begin request =>
      cases taken
      have entered : Arranged { s with callCount := s.callCount + 1 } :=
        arranged.still (s := s) ⟨rfl, rfl, rfl, rfl, rfl⟩ fun _ => Or.inl rfl
      refine entered.goto ?_
      cases request <;> trivial
    | call number answer => exact arranged.stepCall limits answer taken
    | watcher run answer => exact arranged.stepWatcher answer taken

end

theorem arranged_empty : Arranged .empty := by
  refine
    { objects := fun vm => ?_, calls := fun _ => trivial, saved := nofun, spare := fun _ _ => rfl
      started := fun _ started => absurd rfl started }
  exact
    { child := nofun, current := nofun, unwatched := nofun, settling := nofun, place := nofun
      synced := fun _ => rfl, view := shown_self nofun }

theorem extends_add (s : Manager) (saved : Manager.SavedVM) : Extends s (s.add saved) saved.object := by
  exact ⟨rfl, rfl, rfl, rfl, rfl, FinMap.forall_insert (Or.inr rfl) fun _ _ => Or.inl⟩

theorem arranged_load (saved : List Manager.SavedVM) : Arranged (.load saved) := by
  rw [load]
  induction saved using List.reverseRecOn with
  | nil => exact arranged_empty
  | append_singleton saved last ih =>
    rw [List.foldl_append]
    exact ih.extend (extends_add _ last) rfl rfl nofun

end Gokvm.Gateway
