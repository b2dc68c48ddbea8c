import Gokvm.Lib.FinMap

/-! # Folders on a disk that may lose power

A root directory of folders, and a folder of files. An operation on the root is a list of
steps, each of which happens as a whole; a crash leaves the effect of some first steps of the
list. What holds after every first part of a list is proved step by step.
-/

namespace Gokvm.Lib

open List AList

inductive FileStep (γ : Type*) where
  | write (file : String) (content : γ)
  | move (old new : String)
  | unlink (file : String)

inductive FsStep (γ : Type*) where
  | mkdir (folder : String)
  | file (folder : String) (step : FileStep γ)
  | rename (old new : String)
  | rmdir (folder : String)

abbrev Folder (γ : Type*) := FinMap String γ

abbrev Folders (γ : Type*) := FinMap String (Folder γ)

variable {γ : Type*}

namespace Folder

def apply (files : Folder γ) : FileStep γ → Folder γ
  | .write file content => files.insert file content
  | .move old new =>
    match files.lookup old with
    | some content => (files.erase old).insert new content
    | none => files
  | .unlink file => files.erase file

def applyAll (files : Folder γ) (steps : List (FileStep γ)) : Folder γ := steps.foldl apply files

variable (files : Folder γ)

@[simp] theorem applyAll_nil : applyAll files [] = files := rfl

@[simp] theorem applyAll_cons (step : FileStep γ) (steps : List (FileStep γ)) :
    applyAll files (step :: steps) = applyAll (apply files step) steps := rfl

theorem applyAll_append (steps more : List (FileStep γ)) :
    applyAll files (steps ++ more) = applyAll (applyAll files steps) more := foldl_append

theorem lookup_unlinked (names : List String) (file : String) :
    (applyAll files (names.map .unlink)).lookup file = if file ∈ names then none else files.lookup file := by
  induction names generalizing files with
  | nil => simp
  | cons name names ih =>
    rw [map_cons, applyAll_cons, ih, apply]
    by_cases same : file = name
    · subst same
      simp [lookup_erase]
    · simp [same, lookup_erase_ne same]

end Folder

/-- The folders that a step creates, changes or removes. -/
def FsStep.touches : FsStep γ → List String
  | .mkdir folder => [folder]
  | .file folder _ => [folder]
  | .rename old new => [old, new]
  | .rmdir folder => [folder]

namespace Folders

/-- The effect of a step. Only an empty folder is removed. -/
def apply (folders : Folders γ) : FsStep γ → Folders γ
  | .mkdir folder => folders.insert folder ∅
  | .file folder step =>
    match folders.lookup folder with
    | some files => folders.insert folder (Folder.apply files step)
    | none => folders
  | .rename old new =>
    match folders.lookup old with
    | some files => (folders.erase old).insert new files
    | none => folders
  | .rmdir folder =>
    match folders.lookup folder with
    | some files => if files.entries.isEmpty then folders.erase folder else folders
    | none => folders

def applyAll (folders : Folders γ) (steps : List (FsStep γ)) : Folders γ := steps.foldl apply folders

/-- The files of a folder in the order in which they are removed: first those of `order`. -/
def listing (folders : Folders γ) (folder : String) (order : List String) : List String :=
  match folders.lookup folder with
  | some files => order.dedup.filter (· ∈ files.keys) ++ files.keys.filter (· ∉ order)
  | none => []

variable (folders : Folders γ)

@[simp] theorem applyAll_nil : applyAll folders [] = folders := rfl

@[simp] theorem applyAll_cons (step : FsStep γ) (steps : List (FsStep γ)) :
    applyAll folders (step :: steps) = applyAll (apply folders step) steps := rfl

theorem applyAll_append (steps more : List (FsStep γ)) :
    applyAll folders (steps ++ more) = applyAll (applyAll folders steps) more := foldl_append

/-- A step leaves every folder that it does not touch. -/
theorem lookup_apply_untouched {step : FsStep γ} {name : String} (away : name ∉ step.touches) :
    (apply folders step).lookup name = folders.lookup name := by
  cases step with
  | mkdir folder => exact lookup_insert_ne (ne_of_not_mem_cons away)
  | file folder step =>
    rw [apply]
    split
    · exact lookup_insert_ne (ne_of_not_mem_cons away)
    · rfl
  | rename old new =>
    simp only [FsStep.touches, mem_cons, not_mem_nil, or_false, not_or] at away
    rw [apply]
    split
    · rw [lookup_insert_ne away.2, lookup_erase_ne away.1]
    · rfl
  | rmdir folder =>
    rw [apply]
    split
    · split
      · exact lookup_erase_ne (ne_of_not_mem_cons away)
      · rfl
    · rfl

theorem lookup_applyAll_untouched {steps : List (FsStep γ)} {name : String}
    (away : ∀ step ∈ steps, name ∉ step.touches) : (applyAll folders steps).lookup name = folders.lookup name := by
  induction steps generalizing folders with
  | nil => rfl
  | cons step steps ih =>
    rw [applyAll_cons, ih _ fun other member => away other (mem_cons_of_mem _ member),
      lookup_apply_untouched folders (away step mem_cons_self)]

theorem lookup_applyAll_file (folder : String) (steps : List (FileStep γ)) :
    (applyAll folders (steps.map (.file folder))).lookup folder =
      (folders.lookup folder).map fun files => Folder.applyAll files steps := by
  induction steps generalizing folders with
  | nil => simp
  | cons step steps ih =>
    rw [map_cons, applyAll_cons, ih, apply]
    cases found : folders.lookup folder with
    | none => simp [found]
    | some files => simp [lookup_insert]

theorem lookup_rename_new {old new : String} {files : Folder γ} (found : folders.lookup old = some files) :
    (apply folders (.rename old new)).lookup new = some files := by
  rw [apply, found]
  exact lookup_insert _

theorem lookup_rename_old {old new : String} (away : old ≠ new) :
    (apply folders (.rename old new)).lookup old = none := by
  rw [apply]
  split
  · rw [lookup_insert_ne away]
    exact lookup_erase _ _
  · assumption

theorem lookup_applyAll_staged (staging : String) (steps : List (FileStep γ)) :
    (applyAll folders (.mkdir staging :: steps.map (.file staging))).lookup staging =
      some (Folder.applyAll ∅ steps) := by
  rw [applyAll_cons, lookup_applyAll_file, apply, lookup_insert, Option.map_some]

end Folders

/-- Removing a folder: its files one by one, then the folder. -/
def removal (folder : String) (names : List String) : List (FsStep γ) :=
  (names.map .unlink).map (.file folder) ++ [.rmdir folder]

namespace Folders

variable (folders : Folders γ)

theorem mem_listing {folder file : String} {files : Folder γ} {order : List String}
    (found : folders.lookup folder = some files) (member : file ∈ files.keys) : file ∈ folders.listing folder order := by
  rw [listing, found]
  simp only [mem_append, mem_filter, mem_dedup, decide_eq_true_eq]
  by_cases early : file ∈ order
  · exact .inl ⟨early, member⟩
  · exact .inr ⟨member, early⟩

theorem touches_removal {folder : String} {names : List String} {step : FsStep γ} (member : step ∈ removal folder names) :
    step.touches = [folder] := by
  simp only [removal, map_map, mem_append, mem_map, mem_singleton] at member
  rcases member with ⟨_, _, rfl⟩ | rfl <;> rfl

theorem lookup_removing {folder : String} {names : List String} {k : Nat} (early : k ≤ names.length) :
    (applyAll folders ((removal folder names).take k)).lookup folder =
      (folders.lookup folder).map fun files => Folder.applyAll files ((names.take k).map .unlink) := by
  have short : k ≤ ((names.map .unlink).map (FsStep.file folder) : List (FsStep γ)).length := by
    rwa [length_map, length_map]
  rw [removal, take_append_of_le_length short, ← map_take, ← map_take, lookup_applyAll_file]

theorem lookup_removed {folder : String} {order : List String} :
    (applyAll folders (removal folder (folders.listing folder order))).lookup folder = none := by
  rw [removal, applyAll_append, applyAll_cons, applyAll_nil]
  cases found : folders.lookup folder with
  | none =>
    have unlinked := lookup_applyAll_file folders folder ((folders.listing folder order).map .unlink)
    rw [found, Option.map_none] at unlinked
    rw [apply, unlinked]
    exact unlinked
  | some files =>
    have unlinked := lookup_applyAll_file folders folder ((folders.listing folder order).map .unlink)
    rw [found, Option.map_some] at unlinked
    have empty : (Folder.applyAll files ((folders.listing folder order).map .unlink)).entries.isEmpty = true := by
      rw [List.isEmpty_iff]
      apply eq_nil_iff_forall_not_mem.mpr
      rintro ⟨file, content⟩ member
      have there := (FinMap.lookup_eq_some_iff _).mpr member
      rw [Folder.lookup_unlinked] at there
      split at there
      · cases there
      next unlisted =>
        have key : file ∈ files.keys := lookup_isSome.mp (by rw [there]; rfl)
        exact unlisted (mem_listing folders found key)
    rw [apply, unlinked]
    simp only [empty, if_true]
    exact lookup_erase _ _

end Folders

end Gokvm.Lib
