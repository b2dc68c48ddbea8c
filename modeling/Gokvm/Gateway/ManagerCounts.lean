import Gokvm.Gateway.ManagerSteps

/-! # The counter of active children

The counter is the number of starts that have a slot and no child yet, and of children whose
end no watcher has recorded. It is compared with its limit where it grows.
-/

namespace Gokvm.Gateway

open Lib List Function Int Manager ManagedProcess

/-- A start has a slot and no child yet. -/
def Place.reserved : Place → Bool
  | .spawn | .unreserve => true
  | _ => false

def ManagedVM.reserved (v : ManagedVM) : Bool :=
  match v.mutation with
  | some (.call _ place) => place.reserved
  | _ => false

def Manager.reservedStarts (s : Manager) : Nat := tally ManagedVM.reserved s.objects s.objectCount

def Manager.countedChildren (s : Manager) : Nat := tally ManagedProcess.counted s.runs s.runCount

structure Tallied (limits : ManagerLimits) (s : Manager) : Prop where
  active : s.active = s.reservedStarts + s.countedChildren
  limit : s.active ≤ limits.maxRunning
  distinct : s.processes.Nodup
  recorded : ∀ run ∈ s.processes, run < s.runCount ∧ (s.runs run).counted = true
  unrecorded : ∀ vm call run, (s.objects vm).mutation = some (.call call (.record run)) → run ∉ s.processes

variable {limits : ManagerLimits} {s t : Manager} {vm call run : Nat} {v : ManagedVM} {place next : Place}

theorem Edits.reservedStarts (edits : Edits s t vm v) (inUse : vm < s.objectCount) :
    t.reservedStarts + (s.objects vm).reserved.toNat = s.reservedStarts + v.reserved.toNat := by
  rw [Manager.reservedStarts, edits.objects, edits.objectCount]
  exact tally_update _ inUse v

theorem ManagedVM.reserved_of_held (held : v.mutation = some (.call call place)) :
    v.reserved = place.reserved := by
  rw [ManagedVM.reserved, held]

theorem check_plain (op : Op) (object : ManagedVM) (cancel : Bool) :
    (check op object cancel).reserved = false ∧ ∀ run, check op object cancel ≠ .record run := by
  cases op <;> unfold check <;> repeat' split
  all_goals exact ⟨rfl, nofun⟩

/-- The holder of a lock goes on without counting anything. -/
structure Passes (s t : Manager) (vm call : Nat) (v : ManagedVM) (next : Place) : Prop where
  edits : Edits s t vm (v.hold call next)
  reserved : next.reserved = false
  unrecorded : ∀ run, next ≠ .record run
  active : t.active = s.active
  processes : t.processes = s.processes
  memoryBudget : t.memoryBudget = s.memoryBudget

/-- The places of which the step counts nothing. -/
def Place.passing : Place → Bool
  | .await _ | .save _ | .failed _ | .signal _ | .shutdown _ | .remove | .forget => true
  | .prepare | .prepared | .saveNew | .abandon => true
  | _ => false

theorem passes_setVM (s : Manager) (vms : FinMap String Nat) (vm call : Nat) (v : ManagedVM)
    (reserved : next.reserved = false) (unrecorded : ∀ run, next ≠ .record run) :
    Passes s ({ s with vms }.setVM vm (v.hold call next)) vm call v next :=
  ⟨⟨rfl, rfl, rfl, rfl⟩, reserved, unrecorded, rfl, rfl, rfl⟩

theorem stepInside_passing {answer : Reply} (passing : place.passing = true)
    (step : s.stepInside limits call vm answer place = some t) : ∃ v next, Passes s t vm call v next := by
  cases place with
  | await _ | prepared =>
    unfold stepInside at step
    dsimp only at step
    split at step <;> cases step <;> exact ⟨_, _, passes_setVM s s.vms vm call _ rfl nofun⟩
  | save _ | signal _ | remove | prepare | saveNew =>
    cases step
    split <;> exact ⟨_, _, passes_setVM s s.vms vm call _ rfl nofun⟩
  | failed run =>
    cases step
    exact ⟨_, _, passes_setVM s s.vms vm call _ rfl nofun⟩
  | shutdown run =>
    unfold stepInside at step
    dsimp only at step
    split at step
    · cases step
      exact ⟨_, _, passes_setVM s s.vms vm call _ rfl nofun⟩
    · split at step <;> cases step
      exact ⟨_, _, passes_setVM s s.vms vm call _ rfl nofun⟩
  | forget | abandon =>
    cases step
    exact ⟨_, _, passes_setVM s (s.vms.erase _) vm call _ rfl nofun⟩
  | _ => cases passing

section

variable (tallied : Tallied limits s)
include tallied

theorem Tallied.processes_le : (s.processes.length : Int) ≤ s.active := by
  have short : s.processes.length ≤ s.countedChildren := length_le_tally _ tallied.distinct tallied.recorded
  have sum := tallied.active
  omega

theorem Tallied.object (objects : t.objects = update s.objects vm v)
    (runs : t.runs = s.runs) (runCount : t.runCount = s.runCount)
    (active : t.active + s.reservedStarts = s.active + t.reservedStarts)
    (limit : t.active ≤ limits.maxRunning)
    (unrecorded : ∀ call run, v.mutation ≠ some (.call call (.record run)))
    (processes : t.processes = s.processes) : Tallied limits t := by
  refine { active := ?_, limit, distinct := ?_, recorded := ?_, unrecorded := ?_ }
  · have before := tallied.active
    have children : t.countedChildren = s.countedChildren := by
      rw [countedChildren, runs, runCount, countedChildren]
    omega
  · rw [processes]
    exact tallied.distinct
  · rw [processes, runs, runCount]
    exact tallied.recorded
  · intro other number run held
    rw [processes]
    rw [objects] at held
    by_cases same : other = vm
    · rw [same, update_self] at held
      exact absurd held (unrecorded number run)
    · rw [update_of_ne same] at held
      exact tallied.unrecorded other number run held

theorem Tallied.edit (edits : Edits s t vm v) (inUse : vm < s.objectCount)
    (active : t.active + (s.objects vm).reserved.toNat = s.active + v.reserved.toNat)
    (limit : t.active ≤ limits.maxRunning)
    (unrecorded : ∀ call run, v.mutation ≠ some (.call call (.record run)))
    (processes : t.processes = s.processes) : Tallied limits t := by
  have starts := edits.reservedStarts inUse
  exact tallied.object edits.objects edits.runs edits.runCount (by omega) limit unrecorded processes

theorem Tallied.advance {process : ManagedProcess}
    (counted : process.counted = (s.runs run).counted) (known : run < s.runCount) :
    Tallied limits (s.setRun run process) := by
  have children : (s.setRun run process).countedChildren = s.countedChildren := by
    have update := tally_update ManagedProcess.counted (f := s.runs) known process
    rw [counted] at update
    exact Nat.add_right_cancel update
  have same other : ((s.setRun run process).runs other).counted = (s.runs other).counted := by
    by_cases here : other = run
    · rw [here, setRun_runs, counted]
    · exact congrArg ManagedProcess.counted (update_of_ne here _ _)
  refine { tallied with active := ?_, recorded := ?_ }
  · rw [children]
    exact tallied.active
  · intro other member
    rw [same]
    exact tallied.recorded other member

section

variable (arranged : Arranged s)
include arranged

theorem Tallied.go (held : (s.objects vm).mutation = some (.call call place))
    (edits : Edits s t vm (v.hold call next)) (reserved : next.reserved = place.reserved)
    (unrecorded : ∀ run, next ≠ .record run) (active : t.active = s.active)
    (processes : t.processes = s.processes) : Tallied limits t := by
  have same : (v.hold call next).reserved = (s.objects vm).reserved := by
    rw [ManagedVM.reserved_of_held held]
    exact reserved
  refine tallied.edit edits (arranged.inUse held) (by rw [active, same]) (active ▸ tallied.limit) ?_ processes
  rintro _ run ⟨⟩
  exact unrecorded run rfl

theorem Tallied.move (held : (s.objects vm).mutation = some (.call call place))
    (reserved : next.reserved = place.reserved) (unrecorded : ∀ run, next ≠ .record run) :
    Tallied limits (s.move call vm next) :=
  tallied.go arranged held (edits_setVM ..) reserved unrecorded rfl rfl

/-! ## Steps of a call that has the lock -/

theorem Tallied.reserve (held : (s.objects vm).mutation = some (.call call .reserve)) (report : MemoryReport) :
    Tallied limits (s.reserve limits call vm report) := by
  unfold Manager.reserve
  split
  · exact tallied.move arranged held rfl nofun
  next room =>
    dsimp only
    split
    · exact tallied.go arranged held ⟨rfl, rfl, rfl, rfl⟩ rfl nofun rfl rfl
    · refine tallied.edit (v := (s.objects vm).hold call .spawn) ⟨rfl, rfl, rfl, rfl⟩ (arranged.inUse held) ?_ ?_
        nofun rfl
      · rw [ManagedVM.reserved_of_held held]
        exact add_zero _
      · have below : s.active < limits.maxRunning := by simpa using (not_or.mp room).2
        exact below

theorem Tallied.spawn (held : (s.objects vm).mutation = some (.call call .spawn)) : Tallied limits (s.spawn call vm) := by
  have starts : (s.spawn call vm).reservedStarts + (s.objects vm).reserved.toNat = s.reservedStarts + 0 :=
    tally_update _ (arranged.inUse held) _
  have children : (s.spawn call vm).countedChildren = s.countedChildren + 1 := tally_update_new ..
  have old other (known : other < s.runCount) : (s.spawn call vm).runs other = s.runs other :=
    update_of_ne (by omega) _ _
  rw [ManagedVM.reserved_of_held held] at starts
  refine { tallied with active := ?_, recorded := ?_, unrecorded := ?_ }
  · have before := tallied.active
    have slot : Place.spawn.reserved.toNat = 1 := rfl
    have same : (s.spawn call vm).active = s.active := rfl
    omega
  · intro other member
    obtain ⟨known, counted⟩ := tallied.recorded other member
    rw [old other known]
    exact ⟨Nat.lt_succ_of_lt known, counted⟩
  · intro other number child held' member
    by_cases same : other = vm
    · have here : (s.spawn call vm).objects other = (s.objects vm).hold call (.record s.runCount) := by
        rw [same]
        exact update_self ..
      rw [here] at held'
      cases held'
      exact absurd (tallied.recorded _ member).1 (Nat.lt_irrefl _)
    · have here : (s.spawn call vm).objects other = s.objects other := update_of_ne same _ _
      rw [here] at held'
      exact tallied.unrecorded other number child held' member

/-- The started child is listed: it was not, and only its own call was about to. -/
theorem Tallied.record (held : (s.objects vm).mutation = some (.call call (.record run))) :
    Tallied limits ({ s with processes := run :: s.processes }.move call vm (.publish run)) := by
  obtain ⟨-, known, mine, unwatched⟩ := (arranged.objects vm).place call (.record run) held
  have moved : Tallied limits (s.move call vm (.publish run)) := tallied.move arranged held rfl nofun
  refine
    { moved with
      distinct := nodup_cons.mpr ⟨tallied.unrecorded vm call run held, tallied.distinct⟩
      recorded := ?_, unrecorded := ?_ }
  · intro other member
    rcases mem_cons.mp member with same | before
    · rw [same]
      exact ⟨known, by simp [Manager.move, Manager.setVM, ManagedProcess.counted, unreaped, unwatched]⟩
    · exact tallied.recorded other before
  · intro other number child held' member
    rcases mem_cons.mp member with same | before
    · -- another call at this place has a child of another machine
      by_cases here : other = vm
      · have object : (s.move call vm (.publish run)).objects other = (s.objects vm).hold call (.publish run) := by
          rw [here]
          exact update_self ..
        cases (congrArg ManagedVM.mutation object).symm.trans held'
      · have object : (s.move call vm (.publish run)).objects other = s.objects other :=
          update_of_ne here _ _
        have theirs := (congrArg ManagedVM.mutation object).symm.trans held'
        obtain ⟨-, -, parent, -⟩ := (arranged.objects other).place number (.record child) theirs
        rw [same, mine] at parent
        exact here parent.symm
    · exact moved.unrecorded other number child held' before

theorem Tallied.publish (held : (s.objects vm).mutation = some (.call call (.publish run))) :
    Tallied limits (s.publish call vm run) := by
  obtain ⟨-, known, mine, unwatched⟩ := (arranged.objects vm).place call (.publish run) held
  refine Tallied.advance (tallied.go arranged held (edits_setVM ..) ?_ ?_ rfl rfl) ?_ known
  · rfl
  · exact nofun
  change ManagedProcess.counted { s.runs run with phase := .alive } = (s.runs run).counted
  simp [ManagedProcess.counted, unreaped, unwatched]

theorem Tallied.reserveVM (held : (s.objects vm).mutation = some (.call call .reserveVM)) :
    Tallied limits (s.reserveVM limits call vm) := by
  unfold Manager.reserveVM
  dsimp only
  repeat' split
  all_goals exact tallied.go arranged held ⟨rfl, rfl, rfl, rfl⟩ rfl nofun rfl rfl

theorem Tallied.unlock {outcome : Outcome}
    (held : (s.objects vm).mutation = some (.call call (.unlock outcome))) :
    Tallied limits ((s.setVM vm (s.objects vm).unlock).finish call outcome) := by
  refine tallied.edit (v := (s.objects vm).unlock) ⟨rfl, rfl, rfl, rfl⟩ (arranged.inUse held) ?_ tallied.limit
    nofun rfl
  rw [ManagedVM.reserved_of_held held]
  rfl

theorem Tallied.stepInside (answer : Reply)
    (held : (s.objects vm).mutation = some (.call call place))
    (step : s.stepInside limits call vm answer place = some t) : Tallied limits t := by
  cases place with
  | check op =>
    cases step
    obtain ⟨reserved, unrecorded⟩ := check_plain op (s.objects vm) answer.cancel
    exact tallied.move arranged held reserved unrecorded
  | reserve =>
    cases step
    exact tallied.reserve arranged held answer.memory
  | spawn =>
    cases step
    split
    · exact tallied.move arranged held rfl nofun
    · exact tallied.spawn arranged held
  | unreserve =>
    cases step
    refine tallied.edit (v := (s.objects vm).hold call (.unlock .failure)) ⟨rfl, rfl, rfl, rfl⟩
      (arranged.inUse held) ?_ ?_ nofun rfl
    · rw [ManagedVM.reserved_of_held held]
      exact (sub_add_cancel s.active 1).trans (add_zero _).symm
    · exact le_trans (sub_le_self _ (by decide)) tallied.limit
  | record run =>
    cases step
    exact tallied.record arranged held
  | publish run =>
    cases step
    exact tallied.publish arranged held
  | reserveVM =>
    cases step
    exact tallied.reserveVM arranged held
  | unlock outcome =>
    cases step
    exact tallied.unlock arranged held
  | _ =>
    obtain ⟨v, next, passes⟩ := stepInside_passing rfl step
    exact tallied.go arranged held passes.edits passes.reserved passes.unrecorded passes.active
      passes.processes

end

/-! ## Steps of a watcher -/

theorem Tallied.forgetChild (known : run < s.runCount)
    (waited : (s.runs run).phase = .waited) :
    Tallied limits
      ({ s with processes := s.processes.erase run, active := s.active - 1 }.setPhase run .recorded) := by
  have children := tally_update ManagedProcess.counted (f := s.runs) known { s.runs run with phase := .recorded }
  have before : (s.runs run).counted = true := by simp [ManagedProcess.counted, waited]
  have after : ManagedProcess.counted { s.runs run with phase := .recorded } = false := rfl
  rw [before, after] at children
  refine
    { active := ?_, limit := le_trans (sub_le_self _ (by decide)) tallied.limit
      distinct := tallied.distinct.erase run, recorded := ?_, unrecorded := ?_ }
  · have sum := tallied.active
    simp only [countedChildren, Manager.reservedStarts] at sum ⊢
    simp only [setPhase, setRun]
    simp only [Bool.toNat_true, Bool.toNat_false] at children
    omega
  · intro other member
    obtain ⟨different, listed⟩ := tallied.distinct.mem_erase_iff.mp member
    obtain ⟨known', counted⟩ := tallied.recorded other listed
    have here : (s.setPhase run .recorded).runs other = s.runs other := update_of_ne different _ _
    exact ⟨known', (congrArg ManagedProcess.counted here).trans counted⟩
  · intro vm call child held member
    exact tallied.unrecorded vm call child held (mem_of_mem_erase member)

theorem Tallied.settle {phase : ChildPhase} (known : run < s.runCount ∧ (s.runs run).vm < s.objectCount)
    (counted : ManagedProcess.counted { s.runs run with phase } = (s.runs run).counted)
    (before : (s.objects (s.runs run).vm).reserved = false) (after : v.reserved = false)
    (unrecorded : ∀ call run, v.mutation ≠ some (.call call (.record run))) :
    Tallied limits ((s.setVM (s.runs run).vm v).setPhase run phase) := by
  refine Tallied.advance (tallied.edit (edits_setVM ..) known.2 ?_ tallied.limit unrecorded rfl) counted known.1
  rw [before, after]
  rfl

theorem Tallied.stepWatcher (arranged : Arranged s) (answer : Reply)
    (step : s.stepWatcher run answer = some t) : Tallied limits t := by
  have known (started : (s.runs run).phase ≠ .ended) := arranged.started run started
  cases watcherStep step with
  | ends phase | publish phase =>
    refine tallied.advance ?_ (known (phase.trans_ne nofun)).1
    simp [ManagedProcess.counted, unreaped, phase]
  | forget phase => exact tallied.forgetChild (known (phase.trans_ne nofun)).1 phase
  | lock phase free =>
    refine tallied.settle (known (phase.trans_ne nofun)) ?_ ?_ rfl ?_
    · simp [ManagedProcess.counted, unreaped, phase]
    · rw [ManagedVM.reserved, free]
    · exact nofun
  | settle phase =>
    refine tallied.settle (known (phase.trans_ne nofun)) ?_ ?_ rfl ?_
    · simp [ManagedProcess.counted, unreaped, phase]
    · rw [ManagedVM.reserved, (arranged.objects _).settling run rfl phase]
    · exact nofun

/-! ## Steps of a call without a lock -/

theorem Tallied.goto {next : ManagerCall} : Tallied limits (s.goto call next) :=
  { tallied with }

theorem Tallied.extend (grows : Extends s t v) (unreserved : v.reserved = false)
    (unrecorded : ∀ call run, v.mutation ≠ some (.call call (.record run))) (active : t.active = s.active)
    (processes : t.processes = s.processes) : Tallied limits t := by
  have starts : t.reservedStarts = s.reservedStarts := by
    rw [Manager.reservedStarts, grows.objects, grows.objectCount, tally_update_new, unreserved]
    rfl
  refine tallied.object grows.objects grows.runs grows.runCount (by omega) ?_ unrecorded processes
  rw [active]
  exact tallied.limit

theorem Tallied.stepCall (arranged : Arranged s) (answer : Reply)
    (step : s.stepCall limits call answer = some t) : Tallied limits t := by
  have ok := arranged.calls call
  cases callStep step with
  | finish | enter | find | load => exact tallied.goto
  | lock op vm here free =>
    rw [here] at ok
    have unreserved : (s.objects vm).reserved = false := by
      rw [ManagedVM.reserved, free]
    refine Tallied.goto (tallied.edit (edits_setVM ..) ok ?_ tallied.limit ?_ rfl)
    · rw [unreserved]
      rfl
    · exact nofun
  | inside vm place _ here held step => exact tallied.stepInside arranged answer held step
  | create owner name here fresh =>
    refine Tallied.goto (tallied.extend (extends_newVM s _) rfl ?_ rfl rfl)
    exact nofun
  | close here =>
    exact { tallied with }

end

/-! ## Runs -/

/-- The machines agree with the children, and the counter with both. -/
structure Orderly (limits : ManagerLimits) (s : Manager) : Prop where
  arranged : Arranged s
  tallied : Tallied limits s

theorem Orderly.act (orderly : Orderly limits s) (event : Manager.Event) :
    Orderly limits (Manager.act limits s event) := by
  refine ⟨orderly.arranged.act limits event, ?_⟩
  rw [Manager.act]
  cases taken : s.step limits event with
  | none => exact orderly.tallied
  | some t =>
    cases event with
    | begin request =>
      cases taken
      exact { orderly.tallied with }
    | call number answer => exact orderly.tallied.stepCall orderly.arranged answer taken
    | watcher run answer => exact orderly.tallied.stepWatcher orderly.arranged answer taken

theorem tallied_load (limits : ManagerLimits) (saved : List Manager.SavedVM) :
    Tallied limits (.load saved) := by
  unfold load
  induction saved using reverseRecOn with
  | nil =>
    exact
      { active := rfl, limit := natCast_nonneg _, distinct := nodup_nil, recorded := nofun
        unrecorded := nofun }
  | append_singleton saved last ih =>
    rw [foldl_append]
    exact ih.extend (extends_add _ last) rfl nofun rfl rfl

theorem orderly_run (limits : ManagerLimits) (saved : List Manager.SavedVM) (events : List Manager.Event) :
    Orderly limits (Manager.run limits (.load saved) events) := by
  induction events using reverseRecOn with
  | nil => exact ⟨arranged_load saved, tallied_load limits saved⟩
  | append_singleton events last ih =>
    rw [Manager.run, foldl_append]
    exact ih.act last

end Gokvm.Gateway
