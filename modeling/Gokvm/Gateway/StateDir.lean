import Gokvm.Lib.Folders
import Gokvm.Lib.Store
import Gokvm.Lib.JsonString
import Gokvm.Gateway.Manager

/-! # The state directory

Two roots, each with one folder for every machine or image. An operation first builds a
folder under a staging name, which the next start removes, and a start refuses the whole
directory when one of the other folders is not complete.
-/

namespace Gokvm.Gateway

open Lib List Folders Bool String Manager

/-- Nanoseconds since the zero time. -/
abbrev Time := Nat

namespace Time

/-- The first moment of the year 10000, from which on a time has no JSON text. -/
def maxJSON : Time := 3652059 * 86400 * 10 ^ 9

/-- The bytes of the time in RFC 3339 form, with the fraction as short as it can be. -/
def textLength (t : Time) : Nat :=
  match (range 10).find? fun digits => t % 10 ^ (9 - digits) = 0 with
  | some 0 => 20
  | some digits => 21 + digits
  | none => 30

end Time

structure VM where
  id : String
  name : String
  owner : String
  state : VmState
  error : String
  createdAt : Time
  imageId : String
  imageName : Bytes

structure Image where
  id : String
  name : Bytes
  sizeBytes : Nat
  virtualSizeBytes : Nat
  createdAt : Time
  isDefault : Bool
deriving DecidableEq

/-- What a file holds. In `vm.json` and `image.json` an image name is a JSON string. -/
inductive Content where
  | vm (record : VM)
  | image (record : Image)
  | disk (file : Store)
  | other

/-- `strings.CutPrefix`. -/
def cutPrefix (pre name : String) : Option String :=
  if pre.toList.isPrefixOf name.toList then some (ofList (name.toList.drop pre.toList.length)) else none

@[simp] theorem cutPrefix_append (pre name : String) : cutPrefix pre (pre ++ name) = some name := by
  rw [cutPrefix, toList_append, if_pos (by simp), drop_left, ofList_toList]

variable {pre name staging : String} {step : FsStep Content} {folders : Folders Content}

theorem eq_of_cutPrefix {rest : String} (cut : cutPrefix pre name = some rest) : name = pre ++ rest := by
  rw [cutPrefix] at cut
  split at cut
  next starts =>
    cases cut
    obtain ⟨tail, split⟩ := isPrefixOf_iff_prefix.mp starts
    apply toList_inj.mp
    rw [toList_append, toList_ofList, ← split, drop_left]
  · cases cut

/-- The name of a folder that is being made or removed: a prefix and a generated identity. -/
def isStaging (pre name : String) : Bool :=
  match cutPrefix pre name with
  | some id => validID id
  | none => false

/-- An identity that was drawn at random. -/
abbrev RandomID := { id : String // validID id = true }

theorem isStaging_append (pre : String) (id : RandomID) : isStaging pre (pre ++ id.1) = true := by
  rw [isStaging, cutPrefix_append]
  exact id.2

theorem validID_length {id : String} (isValid : validID id = true) : id.length = 26 := by
  simp only [validID, and_eq_true, decide_eq_true_eq] at isValid
  exact isValid.1

theorem not_validID_of_isStaging (long : 0 < pre.length) (staging : isStaging pre name = true) :
    validID name = false := by
  rw [isStaging] at staging
  split at staging
  next id cut =>
    apply eq_false_iff.mpr
    intro isValid
    have whole := validID_length isValid
    rw [eq_of_cutPrefix cut, String.length_append, validID_length staging] at whole
    omega
  · cases staging

theorem ne_of_validID {id other : String} (isValid : validID id = true)
    (invalid : validID other = false) : other ≠ id := by
  rintro rfl
  rw [invalid] at isValid
  cases isValid

theorem not_staging {id : String} (long : 0 < pre.length) (isValid : validID id = true) :
    ¬isStaging pre id = true :=
  fun staging => ne_of_validID isValid (not_validID_of_isStaging long staging) rfl

theorem live_of_validID {id : String} (long : 0 < pre.length) (isValid : validID id = true) :
    isStaging pre id = false :=
  eq_false_iff.mpr (not_staging long isValid)

theorem staging_ne (long : 0 < pre.length) (id : RandomID) : pre ++ id.1 ≠ id.1 := by
  intro same
  have live := live_of_validID long id.2
  rw [← same, isStaging_append] at live
  cases live

theorem ne_of_live (staged : isStaging pre staging = true) (live : isStaging pre name = false) : name ≠ staging := by
  rintro rfl
  rw [staged] at live
  cases live

/-- The file that `writeAtomic` renames; its random suffix is never read. -/
def tempFile : String := ".write-*"

def writeAtomic (name : String) (content : Content) : List (FileStep Content) :=
  [.write tempFile .other, .write tempFile content, .move tempFile name]

/-- The steps of an operation below one root, and the removal of a published folder that may end it,
    its files in order. -/
structure Plan where
  work : List (FsStep Content)
  removed : Option (String × List String)

namespace Plan

def refused : Plan := ⟨[], none⟩

def removing (plan : Plan) : List (FsStep Content) :=
  match plan.removed with
  | some (folder, names) => removal folder names
  | none => []

def steps (plan : Plan) : List (FsStep Content) := plan.work ++ plan.removing

/-- After `k` steps the published folder is there without a file that the loader needs. -/
def tears (plan : Plan) (needed : List String) (k : Nat) : Bool :=
  match plan.removed with
  | some (_, names) =>
    k - plan.work.length ≤ names.length && (names.take (k - plan.work.length)).any (· ∈ needed)
  | none => false

end Plan

/-! ## Building and removing folders -/

/-- How an operation on the directory goes on after its checks. -/
structure Fate where
  /-- It fails after this many steps in the staging folder. -/
  stops : Option Nat
  /-- The new entry of the root could be synced. -/
  synced : Bool
  /-- The order in which `os.RemoveAll` takes the files of a folder. -/
  order : List String
  /-- `os.RemoveAll` of a staging folder fails after this many steps. -/
  removes : Option Nat

def Fate.smooth : Fate := ⟨none, true, [], none⟩

/-- Steps in a new staging folder. -/
def stage (staging : String) (files : List (FileStep Content)) : List (FsStep Content) :=
  .mkdir staging :: files.map (.file staging)

/-- `os.RemoveAll` of a staging folder, as far as it gets. -/
def discard (folders : Folders Content) (staging : String) (fate : Fate) : List (FsStep Content) :=
  let steps := removal staging (folders.listing staging fate.order)
  steps.take (fate.removes.getD steps.length)

/-- A staging folder that is made and given up. -/
def abandon (folders : Folders Content) (staging : String) (files : List (FileStep Content)) (fate : Fate) : Plan :=
  let work := stage staging files
  ⟨work ++ discard (folders.applyAll work) staging fate, none⟩

/-- A folder that is published, with some steps in it afterwards, and removed again unless kept. -/
def publish (folders : Folders Content) (staging id : String) (files saves : List (FileStep Content)) (keep : Bool)
    (order : List String) : Plan :=
  let work := stage staging files ++ [.rename staging id] ++ saves.map (.file id)
  ⟨work, if keep then none else some (id, (folders.applyAll work).listing id order)⟩

theorem touches_stage {files : List (FileStep Content)} (member : step ∈ stage staging files) : step.touches = [staging] := by
  rcases mem_cons.mp member with rfl | inside
  · rfl
  · obtain ⟨_, _, rfl⟩ := mem_map.mp inside
    rfl

theorem touches_discard {fate : Fate} (member : step ∈ discard folders staging fate) : step.touches = [staging] :=
  touches_removal (mem_of_mem_take member)

theorem touches_abandon {files : List (FileStep Content)} {fate : Fate}
    (member : step ∈ (abandon folders staging files fate).steps) : step.touches = [staging] := by
  simp only [abandon, Plan.steps, Plan.removing, append_nil, mem_append] at member
  rcases member with staged | discarded
  · exact touches_stage staged
  · exact touches_discard discarded

section Publish

variable {folders : Folders Content} {staging id : String} {files saves : List (FileStep Content)} {keep : Bool}
  {order : List String}

theorem lookup_staged_other (files : List (FileStep Content)) {name : String} (old : name ≠ staging) :
    (folders.applyAll (stage staging files)).lookup name = folders.lookup name := by
  refine lookup_applyAll_untouched _ fun step member => ?_
  rw [touches_stage member, mem_singleton]
  exact old

theorem lookup_published (away : staging ≠ id) (files saves : List (FileStep Content)) (name : String) :
    (folders.applyAll (stage staging files ++ [.rename staging id] ++ saves.map (.file id))).lookup name =
      if name = id then some (Folder.applyAll ∅ (files ++ saves))
      else if name = staging then none else folders.lookup name := by
  have renamed : folders.applyAll (stage staging files ++ [.rename staging id]) =
      (folders.applyAll (stage staging files)).apply (.rename staging id) := applyAll_append _ _ _
  have staged : (folders.applyAll (stage staging files)).lookup staging = some (Folder.applyAll ∅ files) :=
    lookup_applyAll_staged folders staging files
  rw [applyAll_append, renamed]
  by_cases new : name = id
  · rw [if_pos new, new, lookup_applyAll_file, lookup_rename_new _ staged, Option.map_some,
      Folder.applyAll_append]
  · have inside : ∀ step ∈ saves.map (FsStep.file id), name ∉ step.touches := by
      intro step member
      obtain ⟨_, _, rfl⟩ := mem_map.mp member
      exact not_mem_cons_of_ne_of_not_mem new not_mem_nil
    rw [if_neg new, lookup_applyAll_untouched _ inside]
    by_cases old : name = staging
    · rw [if_pos old, old]
      exact lookup_rename_old _ away
    · have apart : name ∉ (FsStep.rename staging id : FsStep Content).touches := by
        simp [FsStep.touches, old, new]
      rw [if_neg old, lookup_apply_untouched _ apart, lookup_staged_other files old]

theorem publish_steps_kept :
    (publish folders staging id files saves true order).steps =
      stage staging files ++ [.rename staging id] ++ saves.map (.file id) := by
  simp only [Plan.steps, Plan.removing, publish, if_true, append_nil]

theorem lookup_removal (order : List String) (name : String) :
    (folders.applyAll (removal id (folders.listing id order))).lookup name =
      if name = id then none else folders.lookup name := by
  by_cases same : name = id
  · rw [if_pos same, same]
    exact lookup_removed _
  · rw [if_neg same]
    refine lookup_applyAll_untouched _ fun step member => ?_
    rw [touches_removal member, mem_singleton]
    exact same

theorem lookup_publish_undone (away : staging ≠ id) (name : String) :
    (folders.applyAll (publish folders staging id files saves false order).steps).lookup name =
      if name = id then none else if name = staging then none else folders.lookup name := by
  have steps : folders.applyAll (publish folders staging id files saves false order).steps =
      (folders.applyAll (publish folders staging id files saves false order).work).applyAll
        (removal id ((folders.applyAll (publish folders staging id files saves false order).work).listing id order)) := by
    simp only [Plan.steps, Plan.removing, publish, false_eq_true, if_false, applyAll_append]
  rw [steps, lookup_removal]
  split
  · rfl
  next other => rw [publish, lookup_published away, if_neg other]

end Publish

/-- Nothing but staging folders has changed. -/
def SameLive (pre : String) (folders folders' : Folders Content) : Prop :=
  ∀ name, isStaging pre name = false → folders'.lookup name = folders.lookup name

theorem sameLive_of_touches (staged : isStaging pre staging = true) {steps : List (FsStep Content)}
    (touch : ∀ step ∈ steps, step.touches = [staging]) :
    SameLive pre folders (folders.applyAll steps) := by
  intro name live
  refine lookup_applyAll_untouched _ fun step member => ?_
  rw [touch step member, mem_singleton]
  exact ne_of_live staged live

/-! ## Reading a root -/

section Scan

variable {α : Type*} (pre unexpected : String) (load : FinMap String α → String → Folder Content → Except String α)

/-- The loop of a loader over the entries of a root. -/
def scan : List (Sigma fun _ : String => Folder Content) → FinMap String α → Except String (FinMap String α)
  | [], loaded => .ok loaded
  | ⟨name, files⟩ :: rest, loaded =>
    if isStaging pre name then scan rest loaded
    else if !validID name then .error unexpected
    else
      match load loaded name files with
      | .ok entry => scan rest (loaded.insert name entry)
      | .error err => .error err

/-- `os.ReadDir`: the entries of a root, sorted by their names. -/
def readDir (folders : Folders Content) : List (Sigma fun _ : String => Folder Content) :=
  folders.entries.insertionSort fun left right => left.1 ≤ right.1

theorem mem_readDir {folders : Folders Content} {name : String} {files : Folder Content} :
    ⟨name, files⟩ ∈ readDir folders ↔ folders.lookup name = some files := by
  rw [readDir, mem_insertionSort, FinMap.lookup_eq_some_iff]

theorem nodupKeys_readDir (folders : Folders Content) : (readDir folders).NodupKeys :=
  (perm_nodupKeys (perm_insertionSort _ _)).mpr folders.nodupKeys

/-- Reading one entry is reading its folder and comparing it with what is loaded already. -/
def Splits (read : String → Folder Content → Option α) (clash : α → α → Bool) : Prop :=
  ∀ loaded name files entry, load loaded name files = .ok entry ↔
    read name files = some entry ∧ ∀ id other, loaded.lookup id = some other → clash entry other = false

variable {pre unexpected load} {read : String → Folder Content → Option α} {clash : α → α → Bool}
  {entries : List (Sigma fun _ : String => Folder Content)} {loaded out : FinMap String α}

theorem scan_other (done : scan pre unexpected load entries loaded = .ok out) {id : String}
    (away : ∀ files, ⟨id, files⟩ ∈ entries → isStaging pre id = true) : out.lookup id = loaded.lookup id := by
  induction entries generalizing loaded with
  | nil =>
    cases done
    rfl
  | cons entry rest ih =>
    obtain ⟨name, files⟩ := entry
    have later : ∀ files, ⟨id, files⟩ ∈ rest → isStaging pre id = true :=
      fun other member => away other (mem_cons_of_mem _ member)
    rw [scan] at done
    split at done
    · exact ih done later
    next live =>
      have other : id ≠ name := by
        rintro rfl
        exact live (away files mem_cons_self)
      split at done
      · cases done
      · split at done
        · rw [ih done later, AList.lookup_insert_ne other]
        · cases done

variable (splits : Splits load read clash)
include splits

theorem scan_sound (nodup : entries.NodupKeys)
    (done : scan pre unexpected load entries loaded = .ok out) {name : String}
    {files : Folder Content} (member : ⟨name, files⟩ ∈ entries) :
    isStaging pre name = true ∨
      validID name = true ∧ ∃ entry, read name files = some entry ∧ out.lookup name = some entry := by
  induction entries generalizing loaded with
  | nil => cases member
  | cons entry rest ih =>
    obtain ⟨first, firstFiles⟩ := entry
    rw [nodupKeys_cons] at nodup
    rw [scan] at done
    rcases mem_cons.mp member with same | later
    · cases same
      split at done
      · exact .inl ‹_›
      · split at done
        · cases done
        next isValid =>
          split at done
          next entry loads =>
            have away : ∀ other, ⟨name, other⟩ ∈ rest → isStaging pre name = true :=
              fun other found => absurd (mem_keys_of_mem found) nodup.1
            refine .inr ⟨by simpa using isValid, entry, ((splits _ _ _ _).mp loads).1, ?_⟩
            rw [scan_other done away, AList.lookup_insert]
          · cases done
    · split at done
      · exact ih nodup.2 done later
      · split at done
        · cases done
        · split at done
          · exact ih nodup.2 done later
          · cases done

variable {set : String → Option α}
  (apart : ∀ id other x y, id ≠ other → set id = some x → set other = some y → clash x y = false)
include apart

/-- A start succeeds when every folder can be read and no two entries clash. -/
theorem scan_complete (nodup : entries.NodupKeys)
    (readable : ∀ name files, ⟨name, files⟩ ∈ entries → isStaging pre name = true ∨
      validID name = true ∧ ∃ entry, read name files = some entry ∧ set name = some entry)
    (known : ∀ id entry, loaded.lookup id = some entry →
      set id = some entry ∧ ∀ files, ⟨id, files⟩ ∈ entries → isStaging pre id = true) :
    ∃ out, scan pre unexpected load entries loaded = .ok out := by
  induction entries generalizing loaded with
  | nil => exact ⟨loaded, rfl⟩
  | cons entry rest ih =>
    obtain ⟨name, files⟩ := entry
    rw [nodupKeys_cons] at nodup
    have later : ∀ other files, ⟨other, files⟩ ∈ rest → isStaging pre other = true ∨
        validID other = true ∧ ∃ entry, read other files = some entry ∧ set other = some entry :=
      fun other files member => readable other files (mem_cons_of_mem _ member)
    have stillKnown : ∀ id entry, loaded.lookup id = some entry →
        set id = some entry ∧ ∀ files, ⟨id, files⟩ ∈ rest → isStaging pre id = true :=
      fun id entry found => ⟨(known id entry found).1, fun files here =>
        (known id entry found).2 files (mem_cons_of_mem _ here)⟩
    rw [scan]
    by_cases staging : isStaging pre name = true
    · rw [if_pos staging]
      exact ih nodup.2 later stillKnown
    · obtain ⟨isValid, entry, reads, member⟩ := (readable name files mem_cons_self).resolve_left staging
      have loads : load loaded name files = .ok entry := by
        refine (splits _ _ _ _).mpr ⟨reads, fun id other found => ?_⟩
        have different : name ≠ id := by
          rintro rfl
          exact staging ((known name other found).2 files mem_cons_self)
        exact apart name id entry other different member (known id other found).1
      rw [if_neg staging, if_neg (by simp [isValid]), loads]
      refine ih nodup.2 later (FinMap.forall_insert ⟨member, fun files here => ?_⟩ stillKnown)
      exact absurd (mem_keys_of_mem here) nodup.1

/-- A root holds exactly the entries of a set, beside what is known from elsewhere. -/
structure Describes (pre : String) (read : String → Folder Content → Option α) (base : FinMap String α)
    (folders : Folders Content) (set : String → Option α) : Prop where
  entries : ∀ name files, folders.lookup name = some files → isStaging pre name = true ∨
    validID name = true ∧ ∃ entry, read name files = some entry ∧ set name = some entry
  known : ∀ id entry, base.lookup id = some entry → set id = some entry
  complete : ∀ id entry, set id = some entry →
    base.lookup id = some entry ∨ validID id = true ∧ ∃ files, folders.lookup id = some files

/-- A start restores a set exactly when the root describes it. -/
theorem scan_iff (long : 0 < pre.length) {base : FinMap String α}
    (outside : ∀ id entry, base.lookup id = some entry → validID id = false)
    {folders : Folders Content} :
    (∃ out, scan pre unexpected load (readDir folders) base = .ok out ∧ ∀ id, out.lookup id = set id) ↔
      Describes pre read base folders set := by
  constructor
  · rintro ⟨out, done, same⟩
    have sound := fun {name files} (found : folders.lookup name = some files) =>
      scan_sound splits (nodupKeys_readDir folders) done (mem_readDir.mpr found)
    constructor
    · intro name files found
      rcases sound found with staging | ⟨isValid, entry, reads, there⟩
      · exact .inl staging
      · exact .inr ⟨isValid, entry, reads, same name ▸ there⟩
    · intro id entry found
      rw [← same id, ← found]
      refine scan_other done fun files member => ?_
      rcases sound (mem_readDir.mp member) with staging | ⟨isValid, _⟩
      · exact staging
      · rw [outside id entry found] at isValid
        cases isValid
    · intro id entry member
      by_cases live : ∃ files, folders.lookup id = some files ∧ isStaging pre id = false
      · obtain ⟨files, found, notStaging⟩ := live
        rcases sound found with staging | ⟨isValid, _⟩
        · rw [notStaging] at staging
          cases staging
        · exact .inr ⟨isValid, files, found⟩
      · have same_base := scan_other done fun files there =>
          of_not_eq_false fun notStaging => live ⟨files, mem_readDir.mp there, notStaging⟩
        exact .inl (same_base.symm.trans ((same id).trans member))
  · intro describes
    have outside_staging : ∀ id entry, base.lookup id = some entry →
        ∀ files, folders.lookup id = some files → isStaging pre id = true := by
      intro id entry found files there
      rcases describes.entries id files there with staging | ⟨isValid, _⟩
      · exact staging
      · rw [outside id entry found] at isValid
        cases isValid
    obtain ⟨out, done⟩ := scan_complete splits apart (nodupKeys_readDir folders)
      (fun name files member => describes.entries name files (mem_readDir.mp member))
      (fun id entry found => ⟨describes.known id entry found, fun files member =>
        outside_staging id entry found files (mem_readDir.mp member)⟩)
    refine ⟨out, done, fun id => ?_⟩
    by_cases live : ∃ files, folders.lookup id = some files ∧ isStaging pre id = false
    · obtain ⟨files, found, notStaging⟩ := live
      have read_out := scan_sound splits (nodupKeys_readDir folders) done (mem_readDir.mpr found)
      have read_set := describes.entries id files found
      rw [notStaging] at read_out read_set
      obtain ⟨_, entry, reads, there⟩ := read_out.resolve_left false_ne_true
      obtain ⟨_, entry', reads', there'⟩ := read_set.resolve_left false_ne_true
      rw [there, there', ← reads, ← reads']
    · have same_base := scan_other done fun files there =>
        of_not_eq_false fun notStaging => live ⟨files, mem_readDir.mp there, notStaging⟩
      rw [same_base]
      cases member : set id with
      | none =>
        cases found : base.lookup id with
        | none => rfl
        | some entry =>
          rw [describes.known id entry found] at member
          cases member
      | some entry =>
        rcases describes.complete id entry member with found | ⟨isValid, files, found⟩
        · exact found
        · refine absurd ⟨files, found, ?_⟩ live
          exact live_of_validID long isValid

end Scan

end Gokvm.Gateway
