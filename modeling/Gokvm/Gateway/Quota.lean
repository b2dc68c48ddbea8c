import Gokvm.Gateway.ManagerSets

/-! # Quotas and names hold at every moment

The quota and the names of an owner are checked in the critical section that adds a machine, and
nothing else adds one. A creation that fails has never added its machine or has taken it out
again, and its lock keeps every other call away until then.
-/

namespace Gokvm.Gateway

open Lib List Function FinMap Manager VmRecord

variable {limits : ManagerLimits} {s t : Manager} {vm call : Nat} {v : ManagedVM} {place next : Place}

/-- How many machines of the set are an owner's, those being created included. -/
def Manager.ownedBy (s : Manager) (owner : String) : Nat :=
  s.vms.countIf fun _ vm => decide ((s.objects vm).record.owner = owner)

structure SetRules (limits : ManagerLimits) (s : Manager) : Prop where
  keys : ∀ id vm, s.vms.lookup id = some vm → (s.objects vm).record.id = id
  quota : ∀ owner, s.ownedBy owner ≤ limits.maxVMsPerUser
  names : ∀ id id' vm vm', s.vms.lookup id = some vm → s.vms.lookup id' = some vm' →
    (s.objects vm).record.owner = (s.objects vm').record.owner →
    (s.objects vm).record.name = (s.objects vm').record.name → id = id'

theorem VmRecord.identity_eq {a b : VmRecord} (same : a.identity = b.identity) :
    a.id = b.id ∧ a.name = b.name ∧ a.owner = b.owner := by
  simpa only [identity, Prod.mk.injEq] using same

theorem ownedBy_congr (identity : ∀ id vm, s.vms.lookup id = some vm →
      (t.objects vm).record.identity = (s.objects vm).record.identity) (owner : String) :
    s.vms.countIf (fun _ vm => decide ((t.objects vm).record.owner = owner)) = s.ownedBy owner := by
  apply countP_congr
  rintro ⟨id, vm⟩ member
  have same := identity id vm ((lookup_eq_some_iff s.vms).mpr member)
  simp only [owner_eq same]

def Manager.Has (s : Manager) (vm : Nat) : Prop := ∃ id, s.vms.lookup id = some vm

/-- What a creation owes at the place where it is. -/
def Place.Owes (s : Manager) (vm : Nat) : Place → Prop
  | .reserveVM => ¬ s.Has vm
  | .unlock outcome => outcome ≠ .ok → ¬ s.Has vm
  | .prepare | .prepared | .saveNew | .abandon => True
  | _ => False

/-- The creations, under way and over. -/
structure Creations (s : Manager) : Prop where
  idle : ∀ call, s.callCount ≤ call → s.calls call = .idle
  distinct : ∀ a b, a < s.objectCount → b < s.objectCount →
    (s.objects a).record.id = (s.objects b).record.id → a = b
  creating : ∀ vm call place, (s.objects vm).mutation = some (.call call place) → place.creation = true →
    (s.objects vm).creator = some call ∧ s.calls call = .inside vm
  created : ∀ vm call, (s.objects vm).creator = some call →
    (∃ place, (s.objects vm).mutation = some (.call call place) ∧ s.calls call = .inside vm ∧ place.Owes s vm) ∨
      ∃ outcome, s.calls call = .finished outcome ∧ (outcome ≠ .ok → ¬ s.Has vm)

theorem Place.Owes.mono {place : Place} (owes : place.Owes s vm) (sub : t.Has vm → s.Has vm) :
    place.Owes t vm := by
  cases place with
  | reserveVM => exact fun has => owes (sub has)
  | unlock outcome => exact fun failed has => owes failed (sub has)
  | _ => exact owes

theorem SetEffect.has (effect : SetEffect limits s t vm place next) {other : Nat} (has : t.Has other) :
    s.Has other ∨ other = vm ∧ place = .reserveVM := by
  obtain ⟨id, found⟩ := has
  cases effect with
  | keep same onward =>
    rw [same] at found
    exact Or.inl ⟨id, found⟩
  | erase erased =>
    rw [erased] at found
    exact Or.inl ⟨id, ((lookup_erase_eq_some _).mp found).2⟩
  | insert reserving prepares room inserted =>
    rw [inserted] at found
    rcases (lookup_insert_eq_some _).mp found with ⟨-, mine⟩ | ⟨-, before⟩
    · exact Or.inr ⟨mine, reserving⟩
    · exact Or.inl ⟨id, before⟩

theorem Inside.has (inside : Inside limits s t vm call place) {other : Nat} (has : t.Has other) :
    s.Has other ∨ other = vm ∧ place = .reserveVM := by
  rcases inside.onward with ⟨next, -, -, -, -, -, effect⟩ | ⟨outcome, -, -, same, -⟩
  · exact effect.has has
  · obtain ⟨id, found⟩ := has
    rw [same] at found
    exact Or.inl ⟨id, found⟩

theorem Inside.identities (inside : Inside limits s t vm call place) (other : Nat) :
    (t.objects other).record.identity = (s.objects other).record.identity := by
  by_cases same : other = vm
  · rw [same]
    exact inside.identity
  · rw [inside.touches.objects other same]

section

variable (rules : SetRules limits s)
include rules

theorem SetRules.shrink (sub : ∀ id vm, t.vms.lookup id = some vm → s.vms.lookup id = some vm)
    (fewer : ∀ p, t.vms.countIf p ≤ s.vms.countIf p)
    (identity : ∀ id vm, s.vms.lookup id = some vm →
      (t.objects vm).record.identity = (s.objects vm).record.identity) : SetRules limits t := by
  have same id vm (found : t.vms.lookup id = some vm) := identity_eq (identity id vm (sub id vm found))
  constructor
  · intro id vm found
    rw [(same id vm found).1]
    exact rules.keys id vm (sub id vm found)
  · intro owner
    calc t.ownedBy owner
        ≤ s.vms.countIf (fun _ vm => decide ((t.objects vm).record.owner = owner)) := fewer _
      _ = s.ownedBy owner := ownedBy_congr identity owner
      _ ≤ limits.maxVMsPerUser := rules.quota owner
  · intro id id' vm vm' found found' owner name
    rw [(same id vm found).2.2, (same id' vm' found').2.2] at owner
    rw [(same id vm found).2.1, (same id' vm' found').2.1] at name
    exact rules.names id id' vm vm' (sub id vm found) (sub id' vm' found') owner name

theorem SetRules.insert (room : Room limits s (s.objects vm).record)
    (views : ∀ other, (s.objects other).view.record.identity = (s.objects other).record.identity)
    (inserted : t.vms = s.vms.insert (s.objects vm).record.id vm)
    (identity : ∀ other, (t.objects other).record.identity = (s.objects other).record.identity) :
    SetRules limits t := by
  have same other := identity_eq (identity other)
  have seen other := identity_eq (views other)
  have found_cases id other (found : t.vms.lookup id = some other) :
      id = (s.objects vm).record.id ∧ other = vm ∨
        id ≠ (s.objects vm).record.id ∧ s.vms.lookup id = some other := by
    rw [inserted] at found
    exact (lookup_insert_eq_some _).mp found
  constructor
  · intro id other found
    rw [(same other).1]
    rcases found_cases id other found with ⟨rfl, rfl⟩ | ⟨-, before⟩
    · rfl
    · exact rules.keys id other before
  · intro owner
    have count : t.ownedBy owner ≤ s.ownedBy owner + if (s.objects vm).record.owner = owner then 1 else 0 := by
      have bound := countIf_insert_le (fun _ other => decide ((t.objects other).record.owner = owner)) s.vms
        (s.objects vm).record.id vm
      rw [ownedBy_congr (fun _ other _ => identity other) owner] at bound
      rw [ownedBy, inserted]
      simpa only [(same vm).2.2, decide_eq_true_eq] using bound
    by_cases own : (s.objects vm).record.owner = owner
    · have below : s.ownedBy owner < limits.maxVMsPerUser := by
        have quota := room.quota
        simp only [(seen _).2.2, own] at quota
        exact quota
      rw [if_pos own] at count
      omega
    · rw [if_neg own] at count
      exact count.trans (rules.quota owner)
  · intro id id' a b foundA foundB owner name
    rw [(same a).2.2, (same b).2.2] at owner
    rw [(same a).2.1, (same b).2.1] at name
    rcases found_cases id a foundA with ⟨rfl, rfl⟩ | ⟨-, beforeA⟩ <;>
      rcases found_cases id' b foundB with ⟨rfl, rfl⟩ | ⟨-, beforeB⟩
    · rfl
    · have other := room.name id' b beforeB ((seen b).2.2.trans owner.symm)
      exact absurd ((seen b).2.1.trans name.symm) other
    · have other := room.name id a beforeA ((seen a).2.2.trans owner)
      exact absurd ((seen a).2.1.trans name) other
    · exact rules.names id id' a b beforeA beforeB owner name

/-! ## Steps of a call that has a lock -/

theorem not_has_erase (erased : t.vms = s.vms.erase (s.objects vm).record.id) :
    ¬ t.Has vm := by
  rintro ⟨id, found⟩
  rw [erased] at found
  obtain ⟨different, before⟩ := (lookup_erase_eq_some _).mp found
  exact different (rules.keys id vm before).symm

theorem SetRules.inside (arranged : Arranged s) (inside : Inside limits s t vm call place) :
    SetRules limits t := by
  have keep (same : t.vms = s.vms) : SetRules limits t := by
    refine rules.shrink ?_ ?_ fun _ other _ => inside.identities other <;> rw [same]
    · exact fun _ _ found => found
    · exact fun _ => le_rfl
  rcases inside.onward with ⟨next, -, -, -, -, -, effect⟩ | ⟨outcome, -, -, same, -⟩
  · cases effect with
    | keep same onward => exact keep same
    | erase erased =>
      refine rules.shrink ?_ ?_ fun _ other _ => inside.identities other <;> rw [erased]
      · exact fun _ _ found => ((lookup_erase_eq_some _).mp found).2
      · exact fun p => countIf_erase_le p s.vms _
    | insert reserving prepares room inserted =>
      exact rules.insert room (fun other => (arranged.objects other).view.identity) inserted inside.identities
  · exact keep same

theorem owes_next (owes : place.Owes s vm) (held : ∀ outcome, place ≠ .unlock outcome)
    (ends : place.creation = true → next.creation = true ∨ ∃ outcome, next = .unlock outcome)
    (begins : next.creation = true → place.creation = true ∧ next ≠ .reserveVM)
    (effect : SetEffect limits s t vm place next) : next.Owes t vm := by
  have creation : place.creation = true := by
    cases place with
    | reserveVM | prepare | prepared | saveNew | abandon => rfl
    | unlock outcome => exact absurd rfl (held outcome)
    | _ => exact owes.elim
  rcases ends creation with more | ⟨outcome, rfl⟩
  · have later := (begins more).2
    cases next with
    | reserveVM => exact absurd rfl later
    | prepare | prepared | saveNew | abandon => trivial
    | _ => cases more
  · intro failed has
    cases effect with
    | keep same onward =>
      by_cases first : place = .reserveVM
      · subst first
        obtain ⟨id, found⟩ := has
        rw [same] at found
        exact owes ⟨id, found⟩
      · rcases onward creation first with more | success
        · cases more
        · cases success
          exact failed rfl
    | erase erased => exact not_has_erase rules erased has
    | insert reserving prepares room inserted => cases prepares

theorem Creations.inside (creations : Creations s)
    (held : (s.objects vm).mutation = some (.call call place)) (here : s.calls call = .inside vm)
    (inside : Inside limits s t vm call place) : Creations t := by
  -- calls that are elsewhere stay where they are
  have elsewhere number (other : s.calls number ≠ .inside vm) : t.calls number = s.calls number := by
    rcases inside.onward with ⟨_, -, calls, -⟩ | ⟨outcome, -, -, -, calls⟩
    · rw [calls]
    · rw [calls, update_of_ne]
      rintro rfl
      exact other here
  have subset other (different : other ≠ vm) (has : t.Has other) : s.Has other := by
    rcases inside.has has with before | ⟨mine, -⟩
    · exact before
    · exact absurd mine different
  constructor
  · intro number unused
    rw [inside.callCount] at unused
    have idle := creations.idle number unused
    rw [elsewhere number (idle.trans_ne nofun)]
    exact idle
  · intro a b knownA knownB same
    rw [inside.objectCount] at knownA knownB
    rw [(identity_eq (inside.identities a)).1, (identity_eq (inside.identities b)).1] at same
    exact creations.distinct a b knownA knownB same
  · intro other number at_ held' creation
    by_cases same : other = vm
    · subst same
      rcases inside.onward with ⟨next, held'', calls, -, -, begins, -⟩ | ⟨outcome, -, free, -⟩
      · cases held''.symm.trans held'
        rw [calls, inside.creator]
        exact creations.creating other call place held (begins creation).1
      · cases free.symm.trans held'
    · rw [inside.touches.objects other same] at held' ⊢
      obtain ⟨mine, there⟩ := creations.creating other number at_ held' creation
      refine ⟨mine, (elsewhere number ?_).trans there⟩
      rw [there]
      exact fun equal => same (by simpa using equal)
  · intro other number mine
    by_cases same : other = vm
    · subst same
      rw [inside.creator] at mine
      rcases creations.created other number mine with ⟨at_, held', there, owes⟩ | ⟨outcome, finished, gone⟩
      · cases held.symm.trans held'
        rcases inside.onward with ⟨next, held'', calls, notEnd, ends, begins, effect⟩ | ⟨outcome, rfl, -, same, calls⟩
        · exact Or.inl ⟨next, held'', by rw [calls]; exact here, owes_next rules owes notEnd ends begins effect⟩
        · refine Or.inr ⟨outcome, by rw [calls, update_self], ?_⟩
          rintro failed ⟨id, found⟩
          rw [same] at found
          exact owes failed ⟨id, found⟩
      · refine Or.inr ⟨outcome, (elsewhere number (finished.trans_ne nofun)).trans finished, ?_⟩
        intro failed has
        rcases inside.has has with before | ⟨-, rfl⟩
        · exact gone failed before
        · -- only its own creation could add it, and that one is over
          obtain ⟨mine', there⟩ := creations.creating other call .reserveVM held rfl
          cases mine.symm.trans mine'
          cases finished.symm.trans there
    · rw [inside.touches.objects other same] at mine ⊢
      rcases creations.created other number mine with ⟨at_, held', there, owes⟩ | ⟨outcome, finished, gone⟩
      · refine Or.inl ⟨at_, held', (elsewhere number ?_).trans there, owes.mono (subset other same)⟩
        rw [there]
        exact fun equal => same (by simpa using equal)
      · exact Or.inr ⟨outcome, (elsewhere number (finished.trans_ne nofun)).trans finished,
          fun failed has => gone failed (subset other same has)⟩

/-! ## The other steps -/

theorem SetRules.aside (aside : Aside s t) : SetRules limits t := by
  refine rules.shrink ?_ ?_ fun _ other _ => aside.identity other <;> rw [aside.vms]
  · exact fun _ _ found => found
  · exact fun _ => le_rfl

end

theorem Creations.aside (creations : Creations s) (aside : Aside s t) : Creations t := by
  have stays call (fixed : (∃ vm, s.calls call = .inside vm) ∨ ∃ outcome, s.calls call = .finished outcome) :
      t.calls call = s.calls call := by
    rcases aside.calls call with same | ⟨-, outside, unfinished⟩
    · exact same
    · rcases fixed with ⟨vm, inside⟩ | ⟨outcome, finished⟩
      · exact absurd inside (outside vm)
      · exact absurd finished (unfinished outcome)
  have subset vm (has : t.Has vm) : s.Has vm := by
    obtain ⟨id, found⟩ := has
    rw [aside.vms] at found
    exact ⟨id, found⟩
  constructor
  · intro call unused
    have idle := creations.idle call (aside.callCount.trans unused)
    rcases aside.calls call with same | ⟨known, -⟩
    · rw [same]
      exact idle
    · omega
  · intro a b knownA knownB same
    rw [aside.objectCount] at knownA knownB
    rw [(identity_eq (aside.identity a)).1, (identity_eq (aside.identity b)).1] at same
    exact creations.distinct a b knownA knownB same
  · intro vm call place held creation
    rcases aside.taken vm call place held with before | plain
    · obtain ⟨mine, here⟩ := creations.creating vm call place before creation
      exact ⟨(aside.creator vm).trans mine, (stays call (Or.inl ⟨vm, here⟩)).trans here⟩
    · cases plain.symm.trans creation
  · intro vm call mine
    rw [aside.creator] at mine
    rcases creations.created vm call mine with ⟨place, held, here, owes⟩ | ⟨outcome, finished, gone⟩
    · exact Or.inl ⟨place, aside.held vm call place held, (stays call (Or.inl ⟨vm, here⟩)).trans here,
        owes.mono (subset vm)⟩
    · exact Or.inr ⟨outcome, (stays call (Or.inr ⟨outcome, finished⟩)).trans finished,
        fun failed has => gone failed (subset vm has)⟩

section Create

variable {owner name id : String}

theorem newVM_object (old : vm ≠ s.objectCount) :
    (s.newVM call owner name id).objects vm = s.objects vm :=
  update_of_ne old _ _

theorem newVM_new :
    (s.newVM call owner name id).objects s.objectCount =
      (ManagedVM.new { id, name, owner, state := .creating } (some call)).hold call .reserveVM :=
  update_self ..

theorem SetRules.newVM (rules : SetRules limits s) (arranged : Arranged s) :
    SetRules limits (s.newVM call owner name id) := by
  refine rules.shrink (fun _ _ found => found) (fun _ => le_rfl) ?_
  intro key vm found
  have known := arranged.saved key vm found
  rw [newVM_object (by omega)]

theorem Creations.newVM (creations : Creations s) (arranged : Arranged s)
    (here : s.calls call = .create owner name) (fresh : s.fresh id = true) :
    Creations (s.newVM call owner name id) := by
  have moved : (s.newVM call owner name id).calls call = .inside s.objectCount := update_self ..
  have elsewhere number (other : number ≠ call) : (s.newVM call owner name id).calls number = s.calls number :=
    update_of_ne other _ _
  have unlike a (known : a < s.objectCount) : (s.objects a).record.id ≠ id := by
    have all := all_eq_true.mp fresh a (mem_range.mpr known)
    simpa using all
  constructor
  · intro number unused
    have idle := creations.idle number unused
    rw [elsewhere number]
    · exact idle
    · rintro rfl
      cases here.symm.trans idle
  · intro a b knownA knownB same
    have knownA' : a < s.objectCount + 1 := knownA
    have knownB' : b < s.objectCount + 1 := knownB
    by_cases newA : a = s.objectCount <;> by_cases newB : b = s.objectCount
    · rw [newA, newB]
    · rw [newA, newVM_new, newVM_object newB] at same
      exact absurd same.symm (unlike b (by omega))
    · rw [newB, newVM_new, newVM_object newA] at same
      exact absurd same (unlike a (by omega))
    · rw [newVM_object newA, newVM_object newB] at same
      exact creations.distinct a b (by omega) (by omega) same
  · intro vm number place held creation
    by_cases new : vm = s.objectCount
    · subst new
      rw [newVM_new] at held ⊢
      cases held
      exact ⟨rfl, moved⟩
    · rw [newVM_object new] at held ⊢
      obtain ⟨mine, there⟩ := creations.creating vm number place held creation
      refine ⟨mine, (elsewhere number ?_).trans there⟩
      rintro rfl
      cases here.symm.trans there
  · intro vm number mine
    by_cases new : vm = s.objectCount
    · subst new
      rw [newVM_new] at mine ⊢
      cases mine
      refine Or.inl ⟨.reserveVM, rfl, moved, ?_⟩
      rintro ⟨key, found⟩
      exact absurd (arranged.saved key _ found) (Nat.lt_irrefl _)
    · rw [newVM_object new] at mine ⊢
      rcases creations.created vm number mine with ⟨place, held, there, owes⟩ | ⟨outcome, finished, gone⟩
      · refine Or.inl ⟨place, held, (elsewhere number ?_).trans there, owes.mono fun has => has⟩
        rintro rfl
        cases here.symm.trans there
      · refine Or.inr ⟨outcome, (elsewhere number ?_).trans finished, gone⟩
        rintro rfl
        cases here.symm.trans finished

end Create

/-! ## Runs -/

/-- What is known of the machines and of the set between two steps. -/
structure Ruled (limits : ManagerLimits) (s : Manager) : Prop where
  arranged : Arranged s
  rules : SetRules limits s
  creations : Creations s

theorem Ruled.act (ruled : Ruled limits s) (event : Manager.Event) :
    Ruled limits (Manager.act limits s event) := by
  obtain ⟨arranged, rules, creations⟩ := ruled
  have happens : Happens limits s (Manager.act limits s event) event := arranged.happens creations.idle event
  have after := arranged.act limits event
  rcases happens with
    ⟨vm, call, place, -, -, held, here, inside⟩ | ⟨call, owner, name, id, here, fresh, created⟩ | aside
  · exact ⟨after, rules.inside arranged inside, creations.inside rules held here inside⟩
  · rw [created] at after ⊢
    exact ⟨after, rules.newVM arranged, creations.newVM arranged here fresh⟩
  · exact ⟨after, rules.aside aside, creations.aside aside⟩

/-- Saved machines within the quotas, with names and directories of their own. -/
structure SavedVMs (limits : ManagerLimits) where
  list : List Manager.SavedVM
  ids : (list.map Manager.SavedVM.id).Nodup
  quota : ∀ owner, list.countP (fun saved => decide (saved.owner = owner)) ≤ limits.maxVMsPerUser
  names : list.Pairwise fun a b => ¬ (a.owner = b.owner ∧ a.name = b.name)

/-- The manager has loaded a list of saved machines. -/
structure Loaded (list : List Manager.SavedVM) (s : Manager) : Prop where
  objectCount : s.objectCount = list.length
  objects : ∀ (vm : Nat) saved, list[vm]? = some saved → s.objects vm = saved.object
  blank : ∀ vm, list.length ≤ vm → s.objects vm = .blank
  found : ∀ id vm, s.vms.lookup id = some vm → vm < list.length ∧ (s.objects vm).record.id = id
  owned : ∀ owner, s.ownedBy owner ≤ list.countP fun saved => decide (saved.owner = owner)
  calls : ∀ call, s.calls call = .idle

theorem Loaded.add {list : List Manager.SavedVM} (loaded : Loaded list s) (last : Manager.SavedVM) :
    Loaded (list ++ [last]) (s.add last) := by
  have count := loaded.objectCount
  have new : (s.add last).objects s.objectCount = last.object := update_self ..
  have old vm (different : vm ≠ s.objectCount) : (s.add last).objects vm = s.objects vm :=
    update_of_ne different _ _
  refine { objectCount := ?_, objects := ?_, blank := ?_, found := ?_, owned := ?_, calls := loaded.calls }
  · rw [length_append, ← count]
    rfl
  · intro vm saved at_
    by_cases last_ : vm < list.length
    · rw [getElem?_append_left last_] at at_
      rw [old vm (by omega)]
      exact loaded.objects vm saved at_
    · have same : vm = s.objectCount := by
        have bound := (List.getElem?_eq_some_iff.mp at_).1
        rw [length_append, length_singleton] at bound
        omega
      subst same
      rw [getElem?_append_right (by omega), count, Nat.sub_self] at at_
      cases at_
      exact new
  · intro vm unused
    rw [length_append, length_singleton] at unused
    rw [old vm (by omega)]
    exact loaded.blank vm (by omega)
  · intro id vm found
    rw [length_append, length_singleton]
    rcases (lookup_insert_eq_some _).mp found with ⟨rfl, rfl⟩ | ⟨-, before⟩
    · rw [new]
      exact ⟨by omega, rfl⟩
    · obtain ⟨known, key⟩ := loaded.found id vm before
      rw [old vm (by omega)]
      exact ⟨Nat.lt_succ_of_lt known, key⟩
  · intro owner
    have bound := countIf_insert_le (fun _ vm => decide (((s.add last).objects vm).record.owner = owner))
      s.vms last.id s.objectCount
    have same := ownedBy_congr (s := s) (t := s.add last)
      (fun id vm found => by rw [old vm (by have := (loaded.found id vm found).1; omega)]) owner
    rw [same, new] at bound
    have before := loaded.owned owner
    rw [countP_append, countP_singleton]
    calc (s.add last).ownedBy owner ≤ s.ownedBy owner + if decide (last.owner = owner) = true then 1 else 0 := bound
      _ ≤ _ := Nat.add_le_add_right before _

theorem loaded_load (list : List Manager.SavedVM) : Loaded list (.load list) := by
  unfold load
  induction list using reverseRecOn with
  | nil =>
    exact
      { objectCount := rfl, objects := nofun, blank := fun _ _ => rfl, found := nofun
        owned := fun _ => le_rfl, calls := fun _ => rfl }
  | append_singleton list last ih =>
    rw [foldl_append]
    exact ih.add last

theorem ruled_load (saved : SavedVMs limits) : Ruled limits (.load saved.list) := by
  have loaded := loaded_load saved.list
  have object vm (known : vm < saved.list.length) : (load saved.list).objects vm = saved.list[vm].object :=
    loaded.objects vm _ (getElem?_eq_getElem known)
  have free vm : ((load saved.list).objects vm).mutation = none ∧
      ((load saved.list).objects vm).creator = none := by
    by_cases known : vm < saved.list.length
    · rw [object vm known]
      exact ⟨rfl, rfl⟩
    · rw [loaded.blank vm (not_lt.mp known)]
      exact ⟨rfl, rfl⟩
  refine
    { arranged := arranged_load saved.list
      rules :=
        { keys := fun id vm found => (loaded.found id vm found).2
          quota := fun owner => (loaded.owned owner).trans (saved.quota owner), names := ?_ }
      creations := { idle := fun call _ => loaded.calls call, distinct := ?_, creating := ?_, created := ?_ } }
  · intro id id' a b foundA foundB owner name
    obtain ⟨knownA, keyA⟩ := loaded.found id a foundA
    obtain ⟨knownB, keyB⟩ := loaded.found id' b foundB
    rw [object a knownA, object b knownB] at owner name
    rw [← keyA, ← keyB]
    rcases Nat.lt_trichotomy a b with less | rfl | more
    · exact absurd ⟨owner, name⟩ (pairwise_iff_getElem.mp saved.names a b knownA knownB less)
    · rfl
    · exact absurd ⟨owner.symm, name.symm⟩ (pairwise_iff_getElem.mp saved.names b a knownB knownA more)
  · intro a b knownA knownB same
    rw [loaded.objectCount] at knownA knownB
    rw [object a knownA, object b knownB] at same
    have index : (saved.list.map Manager.SavedVM.id)[a]? = (saved.list.map Manager.SavedVM.id)[b]? := by
      rw [getElem?_map, getElem?_map, getElem?_eq_getElem knownA, getElem?_eq_getElem knownB]
      exact congrArg some same
    exact (getElem?_inj (by rwa [length_map]) saved.ids).mp index
  · intro vm call place held
    cases (free vm).1.symm.trans held
  · intro vm call mine
    cases (free vm).2.symm.trans mine

theorem ruled_run (saved : SavedVMs limits) (events : List Manager.Event) :
    Ruled limits (Manager.run limits (.load saved.list) events) := by
  induction events using reverseRecOn with
  | nil => exact ruled_load saved
  | append_singleton events last ih =>
    rw [Manager.run, foldl_append]
    exact ih.act last

/-! ## What a caller may rely on -/

/-- The same object, children and place in the set. -/
structure SameMachine (s t : Manager) (vm : Nat) : Prop where
  object : t.objects vm = s.objects vm
  children : ∀ run, run < s.runCount → (s.runs run).vm = vm → t.runs run = s.runs run
  listed : ∀ id, t.vms.lookup id = some vm ↔ s.vms.lookup id = some vm

theorem Ruled.inside_or_rest (ruled : Ruled limits s) (here : s.calls call = .inside vm) (answer : Reply) :
    Manager.act limits s (.call call answer) = s ∨
      ∃ place, (s.objects vm).mutation = some (.call call place) ∧
        Inside limits s (Manager.act limits s (.call call answer)) vm call place := by
  rw [Manager.act, step, stepCall, here]
  dsimp only
  split
  next number place held =>
    split
    next same =>
      subst same
      cases step : s.stepInside limits number vm answer place with
      | none => exact Or.inl rfl
      | some t => exact Or.inr ⟨place, held, ruled.arranged.inside answer held step⟩
    · exact Or.inl rfl
  · exact Or.inl rfl

/-- In the set, a step inside a machine is about its own identity. -/
theorem Ruled.listed (ruled : Ruled limits s) (held : (s.objects vm).mutation = some (.call call place))
    (inside : Inside limits s t vm call place) {other : Nat} (different : other ≠ vm) (id : String) :
    t.vms.lookup id = some other ↔ s.vms.lookup id = some other := by
  have mine := ruled.arranged.inUse held
  rcases inside.onward with ⟨next, -, -, -, -, -, effect⟩ | ⟨outcome, -, -, same, -⟩
  · cases effect with
    | keep same onward => rw [same]
    | erase erased =>
      rw [erased]
      refine (lookup_erase_eq_some _).trans ⟨And.right, fun found => ⟨?_, found⟩⟩
      rintro rfl
      have key := ruled.rules.keys _ other found
      exact different (ruled.creations.distinct other vm (ruled.arranged.saved _ other found) mine key)
    | insert reserving prepares room inserted =>
      rw [inserted]
      refine (lookup_insert_eq_some _).trans ⟨?_, fun found => Or.inr ⟨?_, found⟩⟩
      · rintro (⟨-, equal⟩ | ⟨-, found⟩)
        · exact absurd equal different
        · exact found
      · rintro rfl
        cases room.free.symm.trans found
  · rw [same]

theorem Ruled.alone (ruled : Ruled limits s) (here : s.calls call = .inside vm) (answer : Reply) {other : Nat}
    (different : other ≠ vm) : SameMachine s (Manager.act limits s (.call call answer)) other := by
  rcases ruled.inside_or_rest here answer with rest | ⟨place, held, inside⟩
  · rw [rest]
    exact ⟨rfl, fun _ _ _ => rfl, fun _ => Iff.rfl⟩
  · exact
      { object := inside.touches.objects other different
        children := fun run known child => (inside.touches.untouched different).child run known child
        listed := ruled.listed held inside different }

theorem check_refused {op : Op} (kind : op = .start ∨ op = .delete) (unready : v.record.state ≠ .stopped)
    (cancel : Bool) : ∃ outcome, outcome ≠ Outcome.ok ∧ check op v cancel = .unlock outcome := by
  have refused : v.run ≠ none ∨ v.record.state ≠ .stopped := Or.inr unready
  rcases kind with rfl | rfl
  all_goals
    unfold check
    simp only [if_pos refused]
    split
    · exact ⟨.cancelled, nofun, rfl⟩
    · exact ⟨.conflict, nofun, rfl⟩

/-- What holds of the set at every moment. -/
structure QuotaKept (limits : ManagerLimits) (s : Manager) : Prop where
  quota : ∀ owner, s.ownedBy owner ≤ limits.maxVMsPerUser
  names : ∀ id id' vm vm', s.vms.lookup id = some vm → s.vms.lookup id' = some vm' →
    (s.objects vm).record.owner = (s.objects vm').record.owner →
    (s.objects vm).record.name = (s.objects vm').record.name → id = id'
  /-- The machine of a creation that has returned an error is not in the set. -/
  failed : ∀ vm call outcome, (s.objects vm).creator = some call → s.calls call = .finished outcome →
    outcome ≠ .ok → ∀ id, s.vms.lookup id ≠ some vm
  /-- A call changes the set and the machines only inside a machine, and only that one. -/
  outside : ∀ event, (∀ call answer vm, event = .call call answer → s.calls call ≠ .inside vm) →
    (Manager.act limits s event).vms = s.vms
  alone : ∀ call answer vm other, s.calls call = .inside vm → other ≠ vm →
    SameMachine s (Manager.act limits s (.call call answer)) other
  /-- Until a creation is over it has the lock of its machine. -/
  locked : ∀ vm call, (s.objects vm).creator = some call → (∀ outcome, s.calls call ≠ .finished outcome) →
    ∃ place, (s.objects vm).mutation = some (.call call place)
  /-- A start or a deletion is refused by a machine that is not stopped. -/
  refused : ∀ vm call op answer, s.calls call = .inside vm →
    (s.objects vm).mutation = some (.call call (.check op)) → op = .start ∨ op = .delete →
    (s.objects vm).record.state ≠ .stopped →
    ∃ outcome, outcome ≠ .ok ∧ Manager.act limits s (.call call answer) = s.move call vm (.unlock outcome)

theorem Manager.quota_kept_run (limits : ManagerLimits) (saved : SavedVMs limits) (events : List Manager.Event) :
    QuotaKept limits (Manager.run limits (.load saved.list) events) := by
  have ruled := ruled_run saved events
  generalize Manager.run limits (.load saved.list) events = s at ruled
  refine
    { ruled.rules with
      failed := ?_, outside := ?_
      alone := fun call answer vm other here different => ruled.alone here answer different
      locked := ?_, refused := ?_ }
  · intro vm call outcome mine finished failed id found
    rcases ruled.creations.created vm call mine with ⟨_, -, here, -⟩ | ⟨outcome', finished', gone⟩
    · cases finished.symm.trans here
    · cases finished.symm.trans finished'
      exact gone failed ⟨id, found⟩
  · intro event elsewhere
    have happens : Happens limits s (Manager.act limits s event) event :=
      ruled.arranged.happens ruled.creations.idle event
    rcases happens with
      ⟨vm, call, place, answer, acts, -, here, -⟩ | ⟨call, owner, name, id, -, -, created⟩ | aside
    · exact absurd here (elsewhere call answer vm acts)
    · rw [created]
      rfl
    · exact aside.vms
  · intro vm call mine unfinished
    rcases ruled.creations.created vm call mine with ⟨place, held, -⟩ | ⟨outcome, finished, -⟩
    · exact ⟨place, held⟩
    · exact absurd finished (unfinished outcome)
  · intro vm call op answer here held kind unready
    obtain ⟨outcome, failure, refused⟩ := check_refused kind unready answer.cancel
    refine ⟨outcome, failure, ?_⟩
    rw [Manager.act, step, stepCall, here]
    simp only [held, stepInside, refused, if_true, Option.getD_some]

end Gokvm.Gateway
