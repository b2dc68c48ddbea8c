import Gokvm.Gateway.ManagerSteps

/-! # The set of machines

A machine enters the set where the quota and the names of its owner are checked, and leaves
it where it is deleted or its creation is given up. Every step of a call that has a lock
stays with its own machine, in the set as everywhere else.
-/

namespace Gokvm.Gateway

open Lib Manager

variable {limits : ManagerLimits} {s t : Manager} {vm call run : Nat} {v : ManagedVM} {place next : Place}

/-- The places of a creation before its end. -/
def Place.creation : Place → Bool
  | .reserveVM | .prepare | .prepared | .saveNew | .abandon => true
  | _ => false

/-- What a step of the holder of a lock does to the set. -/
inductive SetEffect (limits : ManagerLimits) (s t : Manager) (vm : Nat) (place next : Place) : Prop
  /-- The set stays; a creation that has its machine in it goes on or succeeds. -/
  | keep (same : t.vms = s.vms)
      (onward : place.creation = true → place ≠ .reserveVM → next.creation = true ∨ next = .unlock .ok)
  | erase (erased : t.vms = s.vms.erase (s.objects vm).record.id)
  | insert (reserving : place = .reserveVM) (prepares : next = .prepare)
      (room : Room limits s (s.objects vm).record)
      (inserted : t.vms = s.vms.insert (s.objects vm).record.id vm)

/-- A step of the holder of a lock stays with its machine. -/
structure Inside (limits : ManagerLimits) (s t : Manager) (vm call : Nat) (place : Place) : Prop where
  touches : Touches s t vm
  objectCount : t.objectCount = s.objectCount
  callCount : t.callCount = s.callCount
  identity : (t.objects vm).record.identity = (s.objects vm).record.identity
  creator : (t.objects vm).creator = (s.objects vm).creator
  onward : (∃ next, (t.objects vm).mutation = some (.call call next) ∧ t.calls = s.calls ∧
      (∀ outcome, place ≠ .unlock outcome) ∧
      (place.creation = true → next.creation = true ∨ ∃ outcome, next = .unlock outcome) ∧
      (next.creation = true → place.creation = true ∧ next ≠ .reserveVM) ∧
      SetEffect limits s t vm place next) ∨
    ∃ outcome, place = .unlock outcome ∧ (t.objects vm).mutation = none ∧ t.vms = s.vms ∧
      t.calls = Function.update s.calls call (.finished outcome)

section

variable (edits : Edits s t vm (v.hold call next)) (calls : t.calls = s.calls) (callCount : t.callCount = s.callCount)
  (identity : v.record.identity = (s.objects vm).record.identity) (creator : v.creator = (s.objects vm).creator)
include edits calls callCount identity creator

theorem inside_hold (held : ∀ outcome, place ≠ .unlock outcome)
    (ends : place.creation = true → next.creation = true ∨ ∃ outcome, next = .unlock outcome)
    (begins : next.creation = true → place.creation = true ∧ next ≠ .reserveVM)
    (vms : SetEffect limits s t vm place next) : Inside limits s t vm call place := by
  have object : t.objects vm = v.hold call next := by rw [edits.objects, Function.update_self]
  refine
    { edits with
      touches := edits.touches, callCount, identity := ?_, creator := ?_, onward := Or.inl ⟨next, ?_, calls, held, ends, begins, vms⟩ }
  · rw [object]
    exact identity
  · rw [object]
    exact creator
  · rw [object]
    rfl

theorem inside_plain (held : ∀ outcome, place ≠ .unlock outcome)
    (plain : place.creation = false) (plain' : next.creation = false) (vms : t.vms = s.vms) :
    Inside limits s t vm call place := by
  have no {flag : Bool} {p : Prop} (off : flag = false) (on : flag = true) : p := by
    rw [off] at on
    cases on
  exact inside_hold edits calls callCount identity creator held (no plain) (no plain')
    (.keep vms fun creation _ => no plain creation)

/-- A step of a creation that goes on or succeeds. -/
theorem inside_creation (creation : place.creation = true) (vms : t.vms = s.vms)
    (goesOn : next.creation = true ∧ next ≠ .reserveVM ∨ next = .unlock .ok) :
    Inside limits s t vm call place := by
  refine inside_hold edits calls callCount identity creator ?_ ?_ ?_ (.keep vms ?_)
  · rintro outcome rfl
    cases creation
  · intro _
    rcases goesOn with ⟨more, -⟩ | success
    · exact Or.inl more
    · exact Or.inr ⟨.ok, success⟩
  · intro more
    rcases goesOn with ⟨-, later⟩ | success
    · exact ⟨creation, later⟩
    · rw [success] at more
      cases more
  · intro _ _
    exact goesOn.imp_left And.left

end

theorem inside_move (held : ∀ outcome, place ≠ .unlock outcome) (plain : place.creation = false)
    (plain' : next.creation = false) : Inside limits s (s.move call vm next) vm call place :=
  inside_plain (edits_setVM ..) rfl rfl rfl rfl held plain plain' rfl

theorem check_creation (op : Op) (object : ManagedVM) (cancel : Bool) :
    (check op object cancel).creation = false := by
  cases op <;> simp only [check] <;> repeat' split
  all_goals rfl

theorem Arranged.inside (arranged : Arranged s) (answer : Reply)
    (held : (s.objects vm).mutation = some (.call call place))
    (step : s.stepInside limits call vm answer place = some t) : Inside limits s t vm call place := by
  have ok := (arranged.objects vm).place call place held
  cases place with
  | check op =>
    cases step
    exact inside_move nofun rfl (check_creation ..)
  | reserve =>
    cases step
    unfold Manager.reserve
    split
    · exact inside_move nofun rfl rfl
    · dsimp only
      split <;> exact inside_plain ⟨rfl, rfl, rfl, rfl⟩ rfl rfl rfl rfl nofun rfl rfl rfl
  | spawn =>
    cases step
    split
    · exact inside_move nofun rfl rfl
    · have object : (s.spawn call vm).objects vm = (s.objects vm).hold call (.record s.runCount) :=
        Function.update_self ..
      refine
        { touches := touches_spawn s call vm, objectCount := rfl, callCount := rfl, identity := ?_
          creator := ?_, onward := Or.inl ⟨.record s.runCount, ?_, rfl, nofun, nofun, nofun, .keep rfl nofun⟩ }
      all_goals
        rw [object]
        rfl
  | unreserve | record _ =>
    cases step
    exact inside_plain ⟨rfl, rfl, rfl, rfl⟩ rfl rfl rfl rfl nofun rfl rfl rfl
  | publish run =>
    cases step
    have object : (s.publish call vm run).objects vm =
        ((((s.objects vm).setState .starting).setError "").setRun (some run)).publish.hold call (.await run) :=
      Function.update_self ..
    refine
      { touches := touches_publish ok.2.1 ok.2.2.1, objectCount := rfl, callCount := rfl, identity := ?_
        creator := ?_, onward := Or.inl ⟨.await run, ?_, rfl, nofun, nofun, nofun, .keep rfl nofun⟩ }
    all_goals
      rw [object]
      rfl
  | await run =>
    unfold Manager.stepInside at step
    dsimp only at step
    split at step <;> cases step
    · exact inside_move nofun rfl rfl
    · exact inside_plain (edits_setVM ..) rfl rfl rfl rfl nofun rfl rfl rfl
  | save _ | signal _ | remove =>
    cases step
    split <;> exact inside_move nofun rfl rfl
  | failed run =>
    cases step
    unfold Manager.settleFailed
    refine inside_plain (edits_setVM ..) rfl rfl ?_ ?_ nofun rfl rfl rfl <;> split <;> rfl
  | shutdown run =>
    unfold Manager.stepInside at step
    dsimp only at step
    split at step
    · cases step
      exact inside_move nofun rfl rfl
    · split at step <;> cases step
      exact inside_plain (edits_setVM ..) rfl rfl rfl rfl nofun rfl rfl rfl
  | forget =>
    cases step
    exact inside_hold ⟨rfl, rfl, rfl, rfl⟩ rfl rfl rfl rfl nofun nofun nofun (.erase rfl)
  | reserveVM =>
    cases step
    rcases reserveVM_cases limits s call vm with refused | ⟨room, inserted⟩
    · rw [refused]
      exact inside_hold (edits_setVM ..) rfl rfl rfl rfl nofun (fun _ => Or.inr ⟨_, rfl⟩) nofun
        (.keep rfl fun _ other => absurd rfl other)
    · rw [inserted]
      exact inside_hold ⟨rfl, rfl, rfl, rfl⟩ rfl rfl rfl rfl nofun (fun _ => Or.inl rfl) (fun _ => ⟨rfl, nofun⟩)
        (.insert rfl rfl room rfl)
  | prepare =>
    cases step
    split <;> exact inside_creation (edits_setVM ..) rfl rfl rfl rfl rfl rfl (Or.inl ⟨rfl, nofun⟩)
  | prepared =>
    unfold Manager.stepInside at step
    dsimp only at step
    split at step <;> cases step <;>
      exact inside_creation (edits_setVM ..) rfl rfl rfl rfl rfl rfl (Or.inl ⟨rfl, nofun⟩)
  | saveNew =>
    cases step
    split
    · exact inside_creation (edits_setVM ..) rfl rfl rfl rfl rfl rfl (Or.inl ⟨rfl, nofun⟩)
    · exact inside_creation (edits_setVM ..) rfl rfl rfl rfl rfl rfl (Or.inr rfl)
  | abandon =>
    cases step
    exact inside_hold ⟨rfl, rfl, rfl, rfl⟩ rfl rfl rfl rfl nofun (fun _ => Or.inr ⟨_, rfl⟩) nofun (.erase rfl)
  | unlock outcome =>
    cases step
    have edits : Edits s ((s.setVM vm (s.objects vm).unlock).finish call outcome) vm (s.objects vm).unlock :=
      ⟨rfl, rfl, rfl, rfl⟩
    have object : ((s.setVM vm (s.objects vm).unlock).finish call outcome).objects vm =
        (s.objects vm).unlock := Function.update_self ..
    refine
      { touches := edits.touches, objectCount := rfl, callCount := rfl, identity := ?_, creator := ?_
        onward := Or.inr ⟨outcome, rfl, ?_, rfl, rfl⟩ }
    all_goals
      rw [object]
      rfl

/-! ## The other steps -/

/-- A step that leaves the set, the identities and every object that a call has locked. -/
structure Aside (s t : Manager) : Prop where
  vms : t.vms = s.vms
  objectCount : t.objectCount = s.objectCount
  identity : ∀ vm, (t.objects vm).record.identity = (s.objects vm).record.identity
  creator : ∀ vm, (t.objects vm).creator = (s.objects vm).creator
  held : ∀ vm call place, (s.objects vm).mutation = some (.call call place) →
    (t.objects vm).mutation = some (.call call place)
  taken : ∀ vm call place, (t.objects vm).mutation = some (.call call place) →
    (s.objects vm).mutation = some (.call call place) ∨ place.creation = false
  callCount : s.callCount ≤ t.callCount
  calls : ∀ call, t.calls call = s.calls call ∨
    call < t.callCount ∧ (∀ vm, s.calls call ≠ .inside vm) ∧ ∀ outcome, s.calls call ≠ .finished outcome

theorem aside_goto {next : ManagerCall} (known : call < s.callCount) (outside : ∀ vm, s.calls call ≠ .inside vm)
    (unfinished : ∀ outcome, s.calls call ≠ .finished outcome) : Aside s (s.goto call next) where
  vms := rfl
  objectCount := rfl
  identity _ := rfl
  creator _ := rfl
  held _ _ _ held := held
  taken _ _ _ held := Or.inl held
  callCount := le_rfl
  calls number := by
    by_cases same : number = call
    · rw [same]
      exact Or.inr ⟨known, outside, unfinished⟩
    · exact Or.inl (Function.update_of_ne same _ _)

theorem aside_edit (objects : t.objects = Function.update s.objects vm v) (vms : t.vms = s.vms)
    (objectCount : t.objectCount = s.objectCount) (callCount : t.callCount = s.callCount)
    (calls : ∀ call, t.calls call = s.calls call ∨
      call < t.callCount ∧ (∀ vm, s.calls call ≠ .inside vm) ∧ ∀ outcome, s.calls call ≠ .finished outcome)
    (free : ∀ call place, (s.objects vm).mutation ≠ some (.call call place))
    (identity : v.record.identity = (s.objects vm).record.identity)
    (creator : v.creator = (s.objects vm).creator)
    (taken : ∀ call place, v.mutation = some (.call call place) → place.creation = false) : Aside s t := by
  have object other : t.objects other = if other = vm then v else s.objects other := by
    rw [objects]
    exact Function.update_apply ..
  refine
    { vms, objectCount, identity := ?_, creator := ?_, held := ?_, taken := ?_
      callCount := callCount.ge, calls }
  · intro other
    rw [object]
    split
    next same => rw [same, identity]
    · rfl
  · intro other
    rw [object]
    split
    next same => rw [same, creator]
    · rfl
  · intro other number place held
    rw [object]
    split
    next same =>
      rw [same] at held
      exact absurd held (free number place)
    · exact held
  · intro other number place held
    rw [object] at held
    split at held
    · exact Or.inr (taken number place held)
    · exact Or.inl held

theorem aside_runs (runs : Nat → ManagedProcess) (processes : List Nat) (active : Int) :
    Aside s { s with runs, processes, active } :=
  ⟨rfl, rfl, fun _ => rfl, fun _ => rfl, fun _ _ _ held => held, fun _ _ _ held => Or.inl held, le_rfl,
    fun _ => Or.inl rfl⟩

theorem exited_same (v : ManagedVM) (failed saveFails : Bool) :
    (exited v failed saveFails).record.identity = v.record.identity ∧
      (exited v failed saveFails).creator = v.creator := by
  simp only [exited]
  split <;> split <;> exact ⟨rfl, rfl⟩

theorem Arranged.aside_watcher (arranged : Arranged s) {answer : Reply}
    (step : s.stepWatcher run answer = some t) : Aside s t := by
  cases watcherStep step with
  | ends | forget | publish => exact aside_runs ..
  | lock phase free =>
    refine aside_edit rfl rfl rfl rfl (fun _ => Or.inl rfl) ?_ rfl rfl ?_
    · intro call place held
      cases free.symm.trans held
    · exact nofun
  | settle phase =>
    have held := (arranged.objects _).settling run rfl phase
    have same := exited_same (s.objects (s.runs run).vm) (s.runs run).failed answer.fail
    refine aside_edit rfl rfl rfl rfl (fun _ => Or.inl rfl) ?_ ?_ ?_ ?_
    · intro call place held'
      cases held.symm.trans held'
    · split
      · exact same.1
      · rfl
    · split
      · exact same.2
      · rfl
    · exact nofun

/-- Everything that an event can do to the set of machines. -/
inductive Happens (limits : ManagerLimits) (s t : Manager) (event : Manager.Event) : Prop
  | inside (vm call : Nat) (place : Place) (answer : Reply) (acts : event = .call call answer)
      (held : (s.objects vm).mutation = some (.call call place))
      (here : s.calls call = .inside vm) (inside : Inside limits s t vm call place)
  | create (call : Nat) (owner name id : String) (here : s.calls call = .create owner name)
      (fresh : s.fresh id = true) (created : t = s.newVM call owner name id)
  | aside (aside : Aside s t)

theorem Arranged.happens_call (arranged : Arranged s)
    (idle : ∀ call, s.callCount ≤ call → s.calls call = .idle) {answer : Reply}
    (step : s.stepCall limits call answer = some t) : Happens limits s t (.call call answer) := by
  have known : call < s.callCount := by
    by_contra unknown
    unfold Manager.stepCall at step
    rw [idle call (not_lt.mp unknown)] at step
    cases step
  have moves {here : ManagerCall} (place : s.calls call = here) (outside : ∀ vm, here ≠ .inside vm)
      (unfinished : ∀ outcome, here ≠ .finished outcome) (next : ManagerCall) : Aside s (s.goto call next) :=
    aside_goto known (place ▸ outside) (place ▸ unfinished)
  cases callStep step with
  | finish outcome outside unfinished => exact .aside (aside_goto known outside unfinished)
  | enter _ _ _ here | find _ _ _ _ here _ | load _ _ here => exact .aside (moves here nofun nofun _)
  | lock op vm here free =>
    have calls := (moves here nofun nofun (.inside vm)).calls
    refine .aside (aside_edit rfl rfl rfl rfl calls ?_ rfl rfl ?_)
    · intro number place held
      cases free.symm.trans held
    · rintro _ _ ⟨⟩
      rfl
  | inside vm place _ here held step =>
    exact .inside vm call place answer rfl held here (arranged.inside answer held step)
  | create owner name here fresh => exact .create call _ _ _ here fresh rfl
  | close here =>
    have calls := (moves here nofun nofun (.finished .ok)).calls
    exact .aside ⟨rfl, rfl, fun _ => rfl, fun _ => rfl, fun _ _ _ held => held,
      fun _ _ _ held => Or.inl held, le_rfl, calls⟩

theorem Arranged.happens (arranged : Arranged s) (idle : ∀ call, s.callCount ≤ call → s.calls call = .idle)
    (event : Manager.Event) : Happens limits s (Manager.act limits s event) event := by
  unfold Manager.act
  cases taken : s.step limits event with
  | none => exact .aside (aside_runs s.runs s.processes s.active)
  | some t =>
    cases event with
    | begin request =>
      cases taken
      refine .aside ⟨rfl, rfl, fun _ => rfl, fun _ => rfl, fun _ _ _ held => held,
        fun _ _ _ held => Or.inl held, Nat.le_succ _, ?_⟩
      intro call
      by_cases same : call = s.callCount
      · subst same
        have unused := idle s.callCount le_rfl
        exact Or.inr ⟨Nat.lt_succ_self _, fun _ => unused.trans_ne nofun, fun _ => unused.trans_ne nofun⟩
      · exact Or.inl (Function.update_of_ne same _ _)
    | call number answer => exact arranged.happens_call idle taken
    | watcher run answer => exact .aside (arranged.aside_watcher taken)

end Gokvm.Gateway
