import Gokvm.Gateway.StateDir

/-! # Interrupted operations on a root

Every operation changes one published folder. After any number of its steps that folder is as
before, or complete, or gone, or it is being removed: only then can it lack a file that the
next start needs.
-/

namespace Gokvm.Gateway

open Lib List Function Folder

variable {pre staging id : String} {folders folders' : Folders Content}

/-- Among the published folders only `id` has changed, and it is now `now`. -/
def Sets (pre : String) (folders folders' : Folders Content) (id : String) (now : Option (Folder Content)) : Prop :=
  ∀ name, isStaging pre name = false → folders'.lookup name = if name = id then now else folders.lookup name

theorem SameLive.sets (same : SameLive pre folders folders') (id : String) :
    Sets pre folders folders' id (folders.lookup id) := by
  intro name live
  rw [same name live]
  split
  next isId => rw [isId]
  · rfl

theorem Sets.trans {middle : Folders Content} {now then' : Option (Folder Content)}
    (first : Sets pre folders middle id then') (second : Sets pre middle folders' id now) :
    Sets pre folders folders' id now := by
  intro name live
  rw [second name live]
  split
  · rfl
  next other => rw [first name live, if_neg other]

/-! ## Removing a published folder -/

section Removal

variable {files : Folder Content} {order : List String} {k : Nat}

theorem sets_removing (found : folders.lookup id = some files) (early : k ≤ (folders.listing id order).length) :
    Sets pre folders (folders.applyAll ((removal id (folders.listing id order)).take k)) id
      (some (applyAll files (((folders.listing id order).take k).map .unlink))) := by
  intro name _
  split
  next same => rw [same, Folders.lookup_removing folders early, found, Option.map_some]
  next other =>
    refine Folders.lookup_applyAll_untouched _ fun step member => ?_
    rw [Folders.touches_removal (mem_of_mem_take member), mem_singleton]
    exact other

theorem sets_removed (late : (folders.listing id order).length < k) :
    Sets pre folders (folders.applyAll ((removal id (folders.listing id order)).take k)) id none := by
  have all : (removal id (folders.listing id order) : List (FsStep Content)).length ≤ k := by
    simp only [removal, length_append, length_map, length_singleton]
    omega
  intro name _
  rw [take_of_length_le all, lookup_removal]

end Removal

namespace Plan

theorem applyAll_take (plan : Plan) (k : Nat) (folders : Folders Content) :
    folders.applyAll (plan.steps.take k) =
      (folders.applyAll (plan.work.take k)).applyAll (plan.removing.take (k - plan.work.length)) := by
  rw [steps, take_append, Folders.applyAll_append]

theorem tears_of_le {plan : Plan} {k : Nat} (early : k ≤ plan.work.length) (needed : List String) :
    plan.tears needed k = false := by
  rw [tears]
  split
  · rw [Nat.sub_eq_zero_of_le early]
    simp
  · rfl

end Plan

/-- A published folder during an operation: unchanged, steps are made in it, being removed, or gone.
    -/
inductive Stage (plan : Plan) (needed : List String) (k : Nat) (before : Option (Folder Content)) (files : Folder Content)
    (saves : List (FileStep Content)) : Option (Folder Content) → Prop where
  | unchanged (whole : plan.tears needed k = false) : Stage plan needed k before files saves before
  | saving (n : Nat) (whole : plan.tears needed k = false) :
      Stage plan needed k before files saves (some (applyAll files (saves.take n)))
  | removing (gone : List String) (torn : plan.tears needed k = gone.any (· ∈ needed)) :
      Stage plan needed k before files saves (some (applyAll (applyAll files saves) (gone.map .unlink)))
  | removed (whole : plan.tears needed k = false) : Stage plan needed k before files saves none

section Stages

variable {needed : List String} {k : Nat} {before : Option (Folder Content)} {files : Folder Content}
  {order : List String}

theorem stage_removal {saves : List (FileStep Content)} {work : List (FsStep Content)} (late : work.length ≤ k)
    (worked : Sets pre folders (folders.applyAll work) id (some (applyAll files saves)))
    (live : isStaging pre id = false) :
    let plan : Plan := ⟨work, some (id, (folders.applyAll work).listing id order)⟩
    ∃ now, Sets pre folders (folders.applyAll (plan.steps.take k)) id now ∧ Stage plan needed k before files saves now := by
  intro plan
  have found : (folders.applyAll work).lookup id = some (applyAll files saves) := by
    rw [worked id live, if_pos rfl]
  rw [plan.applyAll_take, take_of_length_le late]
  by_cases early : k - work.length ≤ ((folders.applyAll work).listing id order).length
  · refine ⟨_, worked.trans (sets_removing found early), .removing _ ?_⟩
    simp only [Plan.tears, plan, early, decide_true, Bool.true_and]
  · refine ⟨_, worked.trans (sets_removed (not_le.mp early)), .removed ?_⟩
    simp only [Plan.tears, plan, early, decide_false, Bool.false_and]

/-- A folder that is published and perhaps removed again. -/
theorem stage_publish (staged : isStaging pre staging = true) (live : isStaging pre id = false)
    (free : folders.lookup id = none) (steps saves : List (FileStep Content)) (keep : Bool) :
    ∃ now, Sets pre folders (folders.applyAll ((publish folders staging id steps saves keep order).steps.take k)) id now ∧
      Stage (publish folders staging id steps saves keep order) needed k none (applyAll ∅ steps) saves now := by
  have away : staging ≠ id := (ne_of_live staged live).symm
  have published : ∀ saves, Sets pre folders
      (folders.applyAll (stage staging steps ++ [.rename staging id] ++ saves.map (.file id))) id
      (some (applyAll (applyAll ∅ steps) saves)) := by
    intro saves name nameLive
    rw [lookup_published away, ← applyAll_append, if_neg (ne_of_live staged nameLive)]
  generalize made : publish folders staging id steps saves keep order = plan
  have work : plan.work = stage staging steps ++ [.rename staging id] ++ saves.map (.file id) := by
    rw [← made]
    rfl
  have length : plan.work.length = (stage staging steps).length + 1 + saves.length := by
    rw [work, length_append, length_append, length_singleton, length_map]
  by_cases early : k ≤ plan.work.length
  · have whole := Plan.tears_of_le early needed
    have prefix_eq : folders.applyAll (plan.steps.take k) = folders.applyAll (plan.work.take k) := by
      rw [Plan.applyAll_take, Nat.sub_eq_zero_of_le early, take_zero, Folders.applyAll_nil]
    rw [prefix_eq, work]
    by_cases staging_only : k ≤ (stage staging steps).length
    · refine ⟨_, ?_, .unchanged whole⟩
      rw [append_assoc, take_append_of_le_length staging_only, ← free]
      exact SameLive.sets (sameLive_of_touches staged fun step member => touches_stage (mem_of_mem_take member)) id
    · have split : (stage staging steps ++ [FsStep.rename staging id] ++ saves.map (FsStep.file id)).take k =
          stage staging steps ++ [.rename staging id] ++ (saves.take (k - ((stage staging steps).length + 1))).map (.file id) := by
        have inner : (stage staging steps ++ [(.rename staging id : FsStep Content)]).length = (stage staging steps).length + 1 := by
          rw [length_append, length_singleton]
        rw [take_append, inner, map_take, take_of_length_le (by rw [inner]; omega)]
      rw [split]
      exact ⟨_, published _, .saving _ whole⟩
  · subst made
    cases keep with
    | true =>
      refine ⟨_, ?_, .saving saves.length rfl⟩
      rw [publish_steps_kept, take_of_length_le (by rw [← work]; omega), take_length]
      exact published saves
    | false => exact stage_removal (not_le.mp early).le (published saves) live

theorem sets_inside (found : folders.lookup id = some files) (steps : List (FileStep Content)) :
    Sets pre folders (folders.applyAll (steps.map (.file id))) id (some (applyAll files steps)) := by
  intro name _
  split
  next same => rw [same, Folders.lookup_applyAll_file, found, Option.map_some]
  next other =>
    refine Folders.lookup_applyAll_untouched _ fun step member => ?_
    obtain ⟨_, _, rfl⟩ := mem_map.mp member
    exact not_mem_cons_of_ne_of_not_mem other not_mem_nil

theorem stage_inside (found : folders.lookup id = some files) (steps : List (FileStep Content)) :
    ∃ files', Sets pre folders (folders.applyAll ((⟨steps.map (.file id), none⟩ : Plan).steps.take k)) id (some files') ∧
      Stage ⟨steps.map (.file id), none⟩ needed k before files steps (some files') := by
  refine ⟨_, ?_, .saving k rfl⟩
  rw [Plan.steps, Plan.removing, append_nil, ← map_take]
  exact sets_inside found (steps.take k)

theorem stage_delete (found : folders.lookup id = some files) (live : isStaging pre id = false) :
    ∃ now, Sets pre folders (folders.applyAll ((⟨[], some (id, folders.listing id order)⟩ : Plan).steps.take k)) id now ∧
      Stage ⟨[], some (id, folders.listing id order)⟩ needed k before files [] now := by
  have worked : Sets pre folders (folders.applyAll []) id (some (applyAll files [])) := by
    intro name _
    split
    next same =>
      rw [same]
      exact found
    · rfl
  exact stage_removal (Nat.zero_le k) worked live

end Stages

/-! ## What the next start reads -/

section Reading

variable {α : Type*} {read : String → Folder Content → Option α} {base : FinMap String α} {set : String → Option α}
  {entry : α}

theorem Describes.same (describes : Describes pre read base folders set) (long : 0 < pre.length)
    (sets : Sets pre folders folders' id (folders.lookup id)) : Describes pre read base folders' set := by
  have lookup : ∀ name, isStaging pre name = false → folders'.lookup name = folders.lookup name := by
    intro name live
    rw [sets name live]
    split
    next same => rw [same]
    · rfl
  refine { entries := ?_, known := describes.known, complete := ?_ }
  · intro name files found
    by_cases live : isStaging pre name = false
    · rw [lookup name live] at found
      exact describes.entries name files found
    · exact .inl (Bool.of_not_eq_false live)
  · intro name entry member
    refine (describes.complete name entry member).imp_right fun ⟨isValid, files, found⟩ => ⟨isValid, files, ?_⟩
    rw [lookup name (live_of_validID long isValid), found]

theorem Describes.set_at (describes : Describes pre read base folders set) (long : 0 < pre.length)
    (outside : ∀ id entry, base.lookup id = some entry → Manager.validID id = false)
    {now : Option (Folder Content)} (sets : Sets pre folders folders' id now) (isValid : Manager.validID id = true)
    {value : Option α} (reads : ∀ files, now = some files → ∃ entry, read id files = some entry ∧ value = some entry)
    (gone : now = none → value = none) : Describes pre read base folders' (update set id value) := by
  constructor
  · intro name files found
    by_cases live : isStaging pre name = false
    · rw [sets name live] at found
      split at found
      next same =>
        obtain ⟨entry, reading, member⟩ := reads files found
        rw [same, update_self]
        exact .inr ⟨isValid, entry, reading, member⟩
      next other =>
        rw [update_of_ne other]
        exact describes.entries name files found
    · exact .inl (Bool.of_not_eq_false live)
  · intro name existing found
    rw [update_of_ne (ne_of_validID isValid (outside name existing found))]
    exact describes.known name existing found
  · intro name existing member
    by_cases same : name = id
    · rw [same, update_self] at member
      have here := sets id (live_of_validID long isValid)
      rw [if_pos rfl] at here
      cases found : now with
      | none =>
        rw [gone found] at member
        cases member
      | some files =>
        rw [same]
        exact .inr ⟨isValid, files, here.trans found⟩
    · rw [update_of_ne same] at member
      refine (describes.complete name existing member).imp_right fun ⟨nameValid, files, found⟩ => ⟨nameValid, files, ?_⟩
      rw [sets name (live_of_validID long nameValid), if_neg same, found]

theorem not_describes {files : Folder Content} (long : 0 < pre.length) (found : folders.lookup id = some files)
    (isValid : Manager.validID id = true) (unreadable : read id files = none) :
    ¬Describes pre read base folders set := by
  intro describes
  obtain ⟨_, entry, reads, _⟩ := (describes.entries id files found).resolve_left (not_staging long isValid)
  rw [unreadable] at reads
  cases reads

/-- Reading a folder looks at certain files only, and at all of them. -/
structure Needs (read : String → Folder Content → Option α) (needed : List String) : Prop where
  congr : ∀ id files files', (∀ file ∈ needed, files'.lookup file = files.lookup file) → read id files' = read id files
  missing : ∀ id files file, file ∈ needed → files.lookup file = none → read id files = none

variable {needed : List String} {plan : Plan} {k : Nat} {before : Option (Folder Content)} {files : Folder Content}
  {saves : List (FileStep Content)} {now : Option (Folder Content)}

theorem Stage.torn (stage : Stage plan needed k before files saves now) (long : 0 < pre.length)
    (sets : Sets pre folders folders' id now) (isValid : Manager.validID id = true) (needs : Needs read needed)
    (tears : plan.tears needed k = true) : ¬Describes pre read base folders' set := by
  have here := sets id (live_of_validID long isValid)
  rw [if_pos rfl] at here
  cases stage with
  | unchanged whole | saving _ whole | removed whole => rw [tears] at whole; cases whole
  | removing gone torn =>
    rw [tears, eq_comm, any_eq_true] at torn
    obtain ⟨file, unlinked, member⟩ := torn
    refine not_describes long here isValid (needs.missing id _ file (of_decide_eq_true member) ?_)
    rw [lookup_unlinked, if_pos unlinked]

/-- What the next start finds after an interruption: the set from before or after, or nothing if a
    published folder is torn. -/
structure Resumes (pre : String) (read : String → Folder Content → Option α) (base : FinMap String α)
    (folders : Folders Content) (before after : String → Option α) (torn : Bool) : Prop where
  whole : torn = false → Describes pre read base folders before ∨ Describes pre read base folders after
  fails : torn = true → ∀ set, ¬Describes pre read base folders set

theorem Describes.resumes_staging (describes : Describes pre read base folders set) (long : 0 < pre.length)
    (staged : isStaging pre staging = true) (touch : ∀ step ∈ plan.steps, step.touches = [staging])
    (kept : plan.removed = none) (after : String → Option α) :
    Resumes pre read base (folders.applyAll (plan.steps.take k)) set after (plan.tears needed k) where
  whole _ := by
    have same : SameLive pre folders (folders.applyAll (plan.steps.take k)) :=
      sameLive_of_touches staged fun step member => touch step (mem_of_mem_take member)
    exact .inl (describes.same long (same.sets staging))
  fails torn := by
    rw [Plan.tears, kept] at torn
    cases torn

theorem Describes.resumes_refused (describes : Describes pre read base folders set) (after : String → Option α) :
    Resumes pre read base (folders.applyAll (Plan.refused.steps.take k)) set after (Plan.refused.tears needed k) where
  whole _ := by
    rw [show Plan.refused.steps.take k = [] from take_nil]
    exact .inl describes
  fails := nofun

variable (stage : Stage plan needed k (folders.lookup id) files saves now)
  (described : Describes pre read base folders set) (long : 0 < pre.length)
  (outside : ∀ id entry, base.lookup id = some entry → Manager.validID id = false)
  (sets : Sets pre folders folders' id now) (isValid : Manager.validID id = true) (needs : Needs read needed)
  (reads : ∀ n, read id (applyAll files (saves.take n)) = some entry)

include stage described long outside sets isValid needs reads

/-- Unless the folder is torn, the next start finds the old set, or the set with or without the
    entry. -/
theorem Stage.describes (whole : plan.tears needed k = false) :
    Describes pre read base folders' set ∨ Describes pre read base folders' (update set id (some entry)) ∨
      now = none ∧ Describes pre read base folders' (update set id none) := by
  have complete : ∀ files', read id files' = some entry → now = some files' →
      Describes pre read base folders' (update set id (some entry)) := by
    intro files' reading here
    refine described.set_at long outside sets isValid (fun other same => ?_) fun gone => ?_
    · rw [here] at same
      cases same
      exact ⟨entry, reading, rfl⟩
    · rw [here] at gone
      cases gone
  cases stage with
  | unchanged _ => exact .inl (described.same long sets)
  | saving n _ => exact .inr (.inl (complete _ (reads n) rfl))
  | removing gone torn =>
    refine .inr (.inl (complete _ ?_ rfl))
    have all := reads saves.length
    rw [take_length] at all
    rw [← all]
    apply needs.congr
    intro file member
    have kept : file ∉ gone := by
      intro unlinked
      rw [whole, eq_comm, any_eq_false] at torn
      exact torn file unlinked (decide_eq_true member)
    rw [lookup_unlinked, if_neg kept]
  | removed _ => exact .inr (.inr ⟨rfl, described.set_at long outside sets isValid nofun fun _ => rfl⟩)

theorem Stage.resumes {after : String → Option α}
    (put : update set id (some entry) = set ∨ update set id (some entry) = after)
    (drop : now = none → update set id none = set ∨ update set id none = after) :
    Resumes pre read base folders' set after (plan.tears needed k) where
  whole whole := by
    rcases stage.describes described long outside sets isValid needs reads whole with old | with_entry | ⟨gone, without⟩
    · exact .inl old
    · rcases put with same | same
      · exact .inl (same ▸ with_entry)
      · exact .inr (same ▸ with_entry)
    · rcases drop gone with same | same
      · exact .inl (same ▸ without)
      · exact .inr (same ▸ without)
  fails torn _ := stage.torn long sets isValid needs torn

end Reading

end Gokvm.Gateway
