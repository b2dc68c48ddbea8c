import Gokvm.Gateway.ImageReload
import Gokvm.Gateway.Interrupted
import Gokvm.Gateway.Machines

/-! # Crashes

Whatever operation a crash interrupts, and wherever, the next start finds the machines and the
images from before the operation or from after it, with one exception: while a published folder
is being removed, the start fails.
-/

namespace Gokvm.Gateway

open Lib Utf8 List Function AList FinMap Folder Manager JsonString

/-! ## Reading a machine -/

/-- What a folder alone says about its machine. -/
def readMachine (defaultName : Bytes) (id : String) (files : Folder Content) : Option VM :=
  (readVM defaultName id files).toOption

theorem loadVM_splits (defaultName : Bytes) :
    Splits (loadVM defaultName) (readMachine defaultName) fun vm other => vm.key = other.key := by
  intro loaded name files entry
  rw [loadVM, readMachine]
  cases readVM defaultName name files with
  | error err => simp [Except.toOption]
  | ok vm =>
    have apart : (loaded.entries.any fun existing => vm.key = existing.2.key) = false ↔
        ∀ id other, loaded.lookup id = some other → decide (vm.key = other.key) = false := by
      simp only [any_eq_false, decide_eq_true_eq, lookup_eq_some_iff, decide_eq_false_iff_not]
      exact ⟨fun none id other member => none ⟨id, other⟩ member, fun none e member => none e.1 e.2 member⟩
    dsimp only
    cases clash : loaded.entries.any fun existing => vm.key = existing.2.key with
    | true =>
      rw [clash] at apart
      simp only [Bool.true_eq_false, false_iff] at apart
      simp only [if_true, reduceCtorEq, false_iff, not_and, Except.toOption, Option.some.injEq]
      rintro rfl
      exact apart
    | false =>
      rw [clash] at apart
      simp only [Bool.false_eq_true, if_false, Except.ok.injEq, Except.toOption, Option.some.injEq]
      constructor
      · rintro rfl
        exact ⟨rfl, apart.mp rfl⟩
      · exact And.left

theorem readMachine_needs (defaultName : Bytes) : Needs (readMachine defaultName) ["vm.json"] where
  congr id files files' same := by
    rw [readMachine, readMachine, readVM, readVM, same "vm.json" mem_cons_self]
  missing id files file member none := by
    rw [mem_singleton] at member
    rw [readMachine, readVM, ← member, none]
    rfl

theorem readImage_needs : Needs readImage ["image.json", "disk.qcow2"] where
  congr id files files' same := by
    have json := same "image.json" mem_cons_self
    have disk := same "disk.qcow2" (mem_cons_of_mem _ mem_cons_self)
    have metadata : readImageMetadata id files' = readImageMetadata id files := by
      rw [readImageMetadata, readImageMetadata, json]
    have check : ∀ image, checkSavedDisk image files' = checkSavedDisk image files := by
      intro image
      rw [checkSavedDisk, checkSavedDisk, disk]
    simp only [readImage, metadata, check]
  missing id files file member none := by
    rw [readImage]
    split
    · rfl
    next image found =>
      rcases mem_cons.mp member with rfl | later
      · rw [readImageMetadata, none] at found
        cases found
      · rw [mem_singleton] at later
        rw [checkSavedDisk, ← later, none]
        rfl

/-- What every record in memory satisfies. -/
structure VM.Good (id : String) (vm : VM) : Prop where
  isId : vm.id = id
  valid : validID id = true
  owner : validOwner vm.owner = true
  name : validVMName vm.name = true
  time : vm.createdAt ≠ 0
  year : vm.createdAt < Time.maxJSON
  error : vm.error ∈ vmErrors
  imageId : vm.imageId = defaultImageID ∨ validID vm.imageId = true
  imageName : vm.imageName.length ≤ 255

def VM.written (vm : VM) : VM := { vm with imageName := quote vm.imageName }

variable {id : String} {vm : VM} {files : Folder Content}

theorem validOwner_length {owner : String} (isValid : validOwner owner = true) : owner.length ≤ 32 := by
  rw [validOwner] at isValid
  split at isValid
  · cases isValid
  · simp only [Bool.and_eq_true, decide_eq_true_eq] at isValid
    exact isValid.1.1

theorem validVMName_length {name : String} (isValid : validVMName name = true) : name.length ≤ 63 := by
  simp only [validVMName, Bool.and_eq_true, decide_eq_true_eq] at isValid
  exact isValid.1.1.1

theorem vmErrors_length {error : String} (member : error ∈ vmErrors) : error.length ≤ 29 := by
  have all : ∀ error ∈ vmErrors, error.length ≤ 29 := by decide
  exact all error member

theorem VmState.text_length (state : VmState) : state.text.length ≤ 8 := by
  cases state <;> decide

theorem VM.Good.length_le (good : vm.Good id) : vmFileLength vm.written ≤ 4096 := by
  have idLength : vm.id.length = 26 := good.isId ▸ validID_length good.valid
  have owner := validOwner_length good.owner
  have name := validVMName_length good.name
  have error := vmErrors_length good.error
  have state := vm.state.text_length
  have time := Time.textLength_le vm.createdAt
  have imageId : vm.imageId.length ≤ 26 := by
    rcases good.imageId with default | isValid
    · rw [default]
      decide
    · exact (validID_length isValid).le
  have imageName : (quote vm.imageName).length ≤ 6 * 255 :=
    (quote_length _).trans (Nat.mul_le_mul_left 6 good.imageName)
  have errorField : (if vm.error = "" then 0 else 15 + vm.error.length) ≤ 44 := by split <;> omega
  have imageIdField : (if vm.imageId = "" then 0 else 17 + vm.imageId.length) ≤ 43 := by split <;> omega
  have imageNameField : (if quote vm.imageName = [] then 0 else 19 + (quote vm.imageName).length) ≤
      1549 := by split <;> omega
  rw [vmFileLength, VM.written]
  dsimp only
  omega

theorem imageId_ne_empty (good : vm.Good id) : vm.imageId ≠ "" := by
  rcases good.imageId with default | isValid
  · rw [default]
    decide
  · intro empty
    have length := validID_length isValid
    rw [empty] at length
    cases length

/-- A start shows a machine as it was written. -/
theorem VM.Good.reads (good : vm.Good id) (found : files.lookup "vm.json" = some (.vm vm.written)) (defaultName : Bytes) :
    readMachine defaultName id files = some vm.restored := by
  have read : unmarshalVM vm.written = some { vm with imageName := coerce vm.imageName } := by
    rw [unmarshalVM, VM.written, unquote_quote]
  have short := good.length_le
  have saved : savedVMOk id { vm with imageName := coerce vm.imageName } = true := by
    simp [savedVMOk, good.isId, good.owner, good.name, good.time]
  have image : (vm.imageId ≠ defaultImageID && !validID vm.imageId) = false := by
    rcases good.imageId with default | isValid
    · simp [default]
    · simp [isValid]
  rw [readMachine, readVM, found]
  dsimp only
  rw [if_neg (by omega), read]
  simp only [saved, Bool.not_true, Bool.false_eq_true, if_false, imageId_ne_empty good, image]
  rfl

theorem slash_notMem {owner : String} (isValid : validOwner owner = true) : '/' ∉ owner.toList := by
  intro member
  rw [validOwner] at isValid
  split at isValid
  · cases isValid
  · simp only [Bool.and_eq_true, all_eq_true] at isValid
    have allowed := isValid.2 '/' member
    revert allowed
    decide

theorem slash_notMem_name {name : String} (isValid : validVMName name = true) : '/' ∉ name.toList := by
  intro member
  simp only [validVMName, Bool.and_eq_true, all_eq_true] at isValid
  have allowed := isValid.2 '/' member
  revert allowed
  decide

theorem VM.Good.key_inj {other : VM} (good : vm.Good id) (same : vm.key = other.key) : vm.owner = other.owner ∧ vm.name = other.name := by
  have lists : vm.owner.toList ++ '/' :: vm.name.toList = other.owner.toList ++ '/' :: other.name.toList := by
    have texts := congrArg String.toList same
    simpa [VM.key, String.toList_append] using texts
  rw [append_cons_inj_of_notMem (slash_notMem good.owner) (slash_notMem_name good.name)] at lists
  exact ⟨String.toList_inj.mp lists.1, String.toList_inj.mp lists.2.2⟩

/-! ## Saving a machine -/

theorem lookup_writeAtomic_take (files : Folder Content) (name : String) (content : Content) (away : name ≠ tempFile)
    (n : Nat) :
    (applyAll files ((writeAtomic name content).take n)).lookup name = files.lookup name ∨
      (applyAll files ((writeAtomic name content).take n)).lookup name = some content := by
  match n with
  | 0 => exact .inl rfl
  | 1 => exact .inl (lookup_insert_ne away)
  | 2 => exact .inl ((lookup_insert_ne away).trans (lookup_insert_ne away))
  | n + 3 =>
    right
    rw [take_of_length_le (by simp [writeAtomic]), lookup_writeAtomic, if_pos rfl]

/-- Whatever part of a save is done, the record is the old one or the new one. -/
theorem lookup_saving (files : Folder Content) (metadata : VM) (fails : Option Nat) (n : Nat) :
    (applyAll files ((saveSteps metadata fails).take n)).lookup "vm.json" = files.lookup "vm.json" ∨
      (applyAll files ((saveSteps metadata fails).take n)).lookup "vm.json" = some (.vm metadata) := by
  cases fails with
  | none => exact lookup_writeAtomic_take files "vm.json" _ (by decide) n
  | some m =>
    have unlink : ∀ (files : Folder Content) (k : Nat),
        (applyAll files ([.unlink tempFile].take k)).lookup "vm.json" = files.lookup "vm.json" := by
      intro files k
      cases k with
      | zero => rfl
      | succ k =>
        rw [take_succ_cons, take_nil]
        exact lookup_erase_ne (by decide)
    rw [saveSteps, take_append, take_take, applyAll_append, unlink]
    exact lookup_writeAtomic_take files "vm.json" _ (by decide) _

theorem reads_saving {saved : VM} {defaultName : Bytes} (good : saved.Good id)
    (old : readMachine defaultName id files = some saved.restored) (fails : Option Nat) (n : Nat) :
    readMachine defaultName id (applyAll files ((saveSteps saved.written fails).take n)) = some saved.restored := by
  rcases lookup_saving files saved.written fails n with same | new
  · rw [← old]
    refine (readMachine_needs defaultName).congr _ _ _ fun file member => ?_
    rw [mem_singleton.mp member, same]
  · exact good.reads new defaultName

theorem lookup_prepareVM (metadata : VM) :
    (applyAll ∅ (prepareVM metadata)).lookup "vm.json" = some (.vm metadata) := by
  rw [prepareVM, applyAll_append, lookup_writeAtomic, if_pos rfl]

namespace Site

variable {config : SiteConfig} {s : Site}

/-- The machines that a start shows for a set. -/
def shown (vms : FinMap String VM) (id : String) : Option VM := (vms.lookup id).map VM.restored

theorem shown_insert (vms : FinMap String VM) (id : String) (vm : VM) :
    shown (vms.insert id vm) = update (shown vms) id (some vm.restored) := by
  funext other
  by_cases same : other = id
  · rw [same, shown, lookup_insert, update_self, Option.map_some]
  · rw [shown, lookup_insert_ne same, update_of_ne same, shown]

theorem shown_erase (vms : FinMap String VM) (id : String) :
    shown (vms.erase id) = update (shown vms) id none := by
  funext other
  by_cases same : other = id
  · rw [same, shown, lookup_erase, update_self, Option.map_none]
  · rw [shown, lookup_erase_ne same, update_of_ne same, shown]

theorem shown_of_lookup {vms : FinMap String VM} (found : vms.lookup id = some vm) :
    update (shown vms) id (some vm.restored) = shown vms := by
  rw [← Option.map_some, ← found]
  exact update_eq_self id (shown vms)

theorem shown_of_free {vms : FinMap String VM} (free : vms.lookup id = none) :
    update (shown vms) id none = shown vms := by
  have same : shown vms id = none := by rw [shown, free, Option.map_none]
  rw [← same]
  exact update_eq_self id (shown vms)

/-- How memory and the two roots agree. -/
structure Kept (config : SiteConfig) (s : Site) : Prop where
  catalog : Catalog.Kept config.images s.catalog
  sound : ∀ id upload, s.catalog.uploads.lookup id = some upload → upload.Sound config.images
  machines : ∀ defaultName, Describes creating (readMachine defaultName) ∅ s.folders (shown s.vms)
  good : ∀ id vm, s.vms.lookup id = some vm → vm.Good id
  apart : ∀ id other x y, id ≠ other → s.vms.lookup id = some x → s.vms.lookup other = some y →
    ¬(x.owner = y.owner ∧ x.name = y.name)

theorem creating_pos : 0 < creating.length := by decide

/-- What a creation that publishes a folder has checked. -/
structure Creates (config : SiteConfig) (s : Site) (creation : Creation) (record : VM) : Prop where
  good : record.Good creation.id.1
  stoppedGood : VM.Good creation.id.1 { record with state := .stopped }
  new : ∀ id existing, s.vms.lookup id = some existing → ¬(existing.owner = record.owner ∧ existing.name = record.name)
  freeVM : s.vms.lookup creation.id.1 = none
  freeFolder : s.folders.lookup creation.id.1 = none
  smooth : (s.createPlan config creation .smooth none).2 = some { record with state := .stopped }

/-- The image of a catalogue has an identity that a record may name. -/
theorem catalog_image (kept : Catalog.Kept config.images s.catalog) {image : Image}
    (found : s.catalog.images.lookup id = some image) :
    (image.id = defaultImageID ∨ validID image.id = true) ∧ image.name.length ≤ 255 := by
  rcases kept.images id image found with base | ⟨isValid, files, there⟩
  · rw [ImageConfig.catalog] at base
    split at base
    next base' _ =>
      rcases (lookup_insert_eq_some _).mp base with ⟨_, rfl⟩ | ⟨_, none⟩
      · exact ⟨.inl rfl, base'.short⟩
      · cases none
    · cases base
  · obtain ⟨upload, image', _, found', published⟩ :=
      (kept.entries id files there).resolve_left (not_staging importing_pos isValid)
    have same : image' = image := Option.some.inj (found'.symm.trans found)
    obtain ⟨metadata, file, ready, _⟩ := published.ready
    have shape := (prepareImage_ok ready).shape
    rw [same] at shape
    have name := validImageName_length published.named
    rw [shape]
    exact ⟨.inr upload.id.2, name.trans (by decide)⟩

theorem empty_outside {α : Type*} (id : String) (entry : α) (found : (∅ : FinMap String α).lookup id = some entry) :
    validID id = false := nomatch found

/-- A machine that is created can be read from the moment its folder is published. -/
theorem Creates.reads {creation : Creation} {record : VM} (creates : Creates config s creation record)
    {saves : List (FileStep Content)} {fails : Option Nat}
    (saving : saves = [] ∨ saves = saveSteps (VM.written { record with state := .stopped }) fails)
    (defaultName : Bytes) (n : Nat) :
    readMachine defaultName creation.id.1
      (applyAll (applyAll ∅ (prepareVM record.written)) (saves.take n)) = some record.restored := by
  have first := creates.good.reads (lookup_prepareVM record.written) defaultName
  rcases saving with rfl | rfl
  · rw [take_nil]
    exact first
  · exact reads_saving creates.stoppedGood first fails n

theorem deletePlan_cases (s : Site) (owner id : String) (order : List String) :
    s.deletePlan owner id order = (.refused, false) ∨
    ∃ vm, s.vms.lookup id = some vm ∧
      s.deletePlan owner id order = (⟨[], some (id, s.folders.listing id order)⟩, true) := by
  rw [deletePlan]
  split
  · exact .inl rfl
  next vm found =>
    split
    · exact .inr ⟨vm, found, rfl⟩
    · exact .inl rfl

variable {op : Op} {k : Nat}

/-- The images that are imported are not changed by a restart. -/
def Op.Sound (config : SiteConfig) : Op → Prop
  | .image (.importImage upload _) => upload.Sound config.images
  | _ => True

theorem sound_act {catalog : Catalog} (sound : ∀ id upload, catalog.uploads.lookup id = some upload → upload.Sound config.images)
    {op : Catalog.Op} (opSound : Op.Sound config (.image op)) (id : String) (upload : Upload)
    (found : (catalog.act config.images op).uploads.lookup id = some upload) : upload.Sound config.images := by
  cases op with
  | importImage new fate =>
    simp only [Catalog.act] at found
    split at found
    · rcases (lookup_insert_eq_some _).mp found with ⟨_, rfl⟩ | ⟨_, before⟩
      · exact opSound
      · exact sound id upload before
    · exact sound id upload found
  | deleteImage gone fate =>
    simp only [Catalog.act] at found
    split at found
    · exact sound id upload ((lookup_erase_eq_some _).mp found).2
    · exact sound id upload found

theorem kept_initial : Kept config (initial config) where
  catalog := Catalog.kept_initial
  sound := nofun
  machines _ := { entries := nofun, known := nofun, complete := nofun }
  good := nofun
  apart := nofun

theorem Op.smooth_sound (sound : op.Sound config) : op.smooth.Sound config := by
  cases op with
  | image op =>
    cases op with
    | importImage upload fate => exact sound
    | deleteImage id fate => trivial
  | _ => trivial

section

variable (kept : Kept config s)
include kept

/-- A creation either leaves at most a staging folder, or publishes one. -/
theorem createPlan_cases (creation : Creation) (fate : Fate) (saveFails : Option Nat) :
    ((∀ step ∈ (s.createPlan config creation fate saveFails).1.steps, step.touches = [creating ++ creation.id.1]) ∧
      (s.createPlan config creation fate saveFails).1.removed = none ∧
      (s.createPlan config creation fate saveFails).2 = none) ∨
    ∃ record fails keep saves, Creates config s creation record ∧
      (saves = [] ∧ keep = false ∨ saves = saveSteps (VM.written { record with state := .stopped }) fails) ∧
      s.createPlan config creation fate saveFails =
        (publish s.folders (creating ++ creation.id.1) creation.id.1 (prepareVM record.written) saves keep fate.order,
          if keep then some { record with state := .stopped } else none) := by
  have refused : ∀ step ∈ Plan.refused.steps, step.touches = [creating ++ creation.id.1] := nofun
  rw [createPlan]
  dsimp only
  split
  · exact .inl ⟨refused, rfl, rfl⟩
  next named =>
    split
    · exact .inl ⟨refused, rfl, rfl⟩
    next image selected =>
      split
      · exact .inl ⟨refused, rfl, rfl⟩
      next available =>
        split
        · exact .inl ⟨fun step => touches_abandon, rfl, rfl⟩
        next metadata marshalled =>
          split
          · exact .inl ⟨fun step => touches_abandon, rfl, rfl⟩
          next free =>
            have checked : validOwner creation.owner = true ∧ validVMName creation.name = true := by simpa using named
            obtain ⟨year, written⟩ := ok_of_check marshalled
            cases written
            have creates : Creates config s creation (creation.record image) := by
              obtain ⟨imageId, imageName⟩ := catalog_image kept.catalog selected
              simp only [Bool.or_eq_true, not_or, Bool.not_eq_true] at available free
              have good : (creation.record image).Good creation.id.1 :=
                ⟨rfl, creation.id.2, checked.1, checked.2, creation.now_ne_zero, not_le.mp year,
                  mem_cons_self, imageId, imageName⟩
              refine {
                good
                stoppedGood := { good with }
                new := ?_
                freeVM := ?_
                freeFolder := by simpa using free.2
                smooth := ?_ }
              · intro id existing found same
                have taken := available.1
                simp only [unavailable, Bool.or_eq_false_iff, any_eq_false, Bool.and_eq_true, decide_eq_true_eq] at taken
                exact taken.1.1 ⟨id, existing⟩ ((lookup_eq_some_iff _).mp found) same
              · have taken := available.1
                simp only [unavailable, Bool.or_eq_false_iff] at taken
                simpa using taken.2
              · simp [createPlan, checked, selected, available, marshalled, Fate.smooth, free]
            split
            · exact .inr ⟨_, none, false, [], creates, .inl ⟨rfl, rfl⟩, rfl⟩
            · exact .inr ⟨_, saveFails, saveFails.isNone, _, creates, .inr rfl, rfl⟩

theorem Kept.folder (found : s.vms.lookup id = some vm) :
    ∃ files, s.folders.lookup id = some files ∧
      ∀ defaultName, readMachine defaultName id files = some vm.restored := by
  have member : shown s.vms id = some vm.restored := by rw [shown, found, Option.map_some]
  rcases (kept.machines []).complete id _ member with none | ⟨isValid, files, there⟩
  · cases none
  · refine ⟨files, there, fun defaultName => ?_⟩
    obtain ⟨_, entry, reads, same⟩ :=
      ((kept.machines defaultName).entries id files there).resolve_left (not_staging creating_pos isValid)
    rw [reads, ← same, member]

theorem Kept.resumes_create (creation : Creation) (fate : Fate) (saveFails : Option Nat) (k : Nat)
    (defaultName : Bytes) :
    Resumes creating (readMachine defaultName) ∅
      (s.folders.applyAll ((s.createPlan config creation fate saveFails).1.steps.take k)) (shown s.vms)
      (shown (s.vmsAfter config (.create creation .smooth none)))
      ((s.createPlan config creation fate saveFails).1.tears ["vm.json"] k) := by
  have staged := isStaging_append creating creation.id
  have live := live_of_validID creating_pos creation.id.2
  rcases createPlan_cases kept creation fate saveFails with
    ⟨touch, none, _⟩ | ⟨record, fails, keep, saves, creates, saving, plan⟩
  · exact (kept.machines defaultName).resumes_staging creating_pos staged touch none _
  · have after : shown (s.vmsAfter config (.create creation .smooth none)) =
        update (shown s.vms) creation.id.1 (some record.restored) := by
      rw [vmsAfter, creates.smooth, shown_insert]
      rfl
    obtain ⟨now, sets, stage⟩ := stage_publish (k := k) staged live creates.freeFolder (prepareVM record.written) saves keep
    rw [plan, after]
    rw [← creates.freeFolder] at stage
    exact stage.resumes (kept.machines defaultName) creating_pos empty_outside sets creation.id.2
      (readMachine_needs defaultName) (creates.reads (saving.imp_left And.left) defaultName) (.inr rfl)
      fun _ => .inl (shown_of_free creates.freeVM)

/-- A save either does nothing, or writes a good record of a machine. -/
theorem savePlan_cases (id : String) (state : VmState) (error : String) (fails : Option Nat) :
    s.savePlan id state error fails = (.refused, none) ∨
    ∃ vm, s.vms.lookup id = some vm ∧ VM.Good id { vm with state, error } ∧
      s.savePlan id state error fails =
        (⟨(saveSteps (VM.written { vm with state, error }) fails).map (.file id), none⟩, some { vm with state, error }) := by
  rw [savePlan]
  split
  · exact .inl rfl
  next vm found =>
    have good := kept.good id vm found
    split
    · exact .inl rfl
    next metadata marshalled =>
      split
      next known =>
        obtain ⟨_, written⟩ := ok_of_check marshalled
        cases written
        exact .inr ⟨vm, found, { good with error := known }, rfl⟩
      · exact .inl rfl

theorem Kept.resumes_save (id : String) (state : VmState) (error : String) (fails : Option Nat) (k : Nat)
    (after : String → Option VM) (defaultName : Bytes) :
    Resumes creating (readMachine defaultName) ∅
      (s.folders.applyAll ((s.savePlan id state error fails).1.steps.take k)) (shown s.vms) after
      ((s.savePlan id state error fails).1.tears ["vm.json"] k) := by
  rcases savePlan_cases kept id state error fails with refused | ⟨vm, found, good, plan⟩
  · rw [refused]
    exact (kept.machines defaultName).resumes_refused _
  · obtain ⟨files, there, reads⟩ := kept.folder found
    obtain ⟨files', sets, stage⟩ := stage_inside (k := k) there (saveSteps (VM.written { vm with state, error }) fails)
    have unchanged := shown_of_lookup found
    rw [plan]
    exact stage.resumes (kept.machines defaultName) creating_pos empty_outside sets good.valid
      (readMachine_needs defaultName) (reads_saving good (reads defaultName) fails) (.inl unchanged) nofun

theorem Kept.resumes_delete (owner id : String) (order : List String) (k : Nat) (defaultName : Bytes) :
    Resumes creating (readMachine defaultName) ∅
      (s.folders.applyAll ((s.deletePlan owner id order).1.steps.take k)) (shown s.vms)
      (shown (s.vmsAfter config (.delete owner id order))) ((s.deletePlan owner id order).1.tears ["vm.json"] k) := by
  rcases deletePlan_cases s owner id order with refused | ⟨vm, found, plan⟩
  · rw [refused]
    exact (kept.machines defaultName).resumes_refused _
  · have isValid := (kept.good id vm found).valid
    have after : shown (s.vmsAfter config (.delete owner id order)) = update (shown s.vms) id none := by
      rw [vmsAfter, plan, if_pos rfl, shown_erase]
    obtain ⟨files, there, reads⟩ := kept.folder found
    obtain ⟨now, sets, stage⟩ := stage_delete (k := k) there (live_of_validID creating_pos isValid)
    rw [plan, after]
    refine stage.resumes (kept.machines defaultName) creating_pos empty_outside sets isValid
      (readMachine_needs defaultName) (fun n => ?_) (.inl (shown_of_lookup found)) fun _ => .inr rfl
    rw [take_nil]
    exact reads defaultName

/-- What a start finds of the machines after an interruption. -/
theorem Kept.resumes_machines (op : Op) (k : Nat) (defaultName : Bytes) :
    Resumes creating (readMachine defaultName) ∅ (s.crash config op k).vms (shown s.vms)
      (shown (s.act config op.smooth).vms) ((s.plan config op).tears ["vm.json"] k) := by
  cases op with
  | create creation fate saveFails => exact kept.resumes_create creation fate saveFails k defaultName
  | save id state error fails => exact kept.resumes_save id state error fails k _ defaultName
  | delete owner id order => exact kept.resumes_delete owner id order k defaultName
  | image op => exact (kept.machines defaultName).resumes_refused _

/-! ## Operations that run to their end -/

theorem Kept.insert {folders : Folders Content} (good : vm.Good id)
    (new : ∀ other existing, other ≠ id → s.vms.lookup other = some existing →
      ¬(existing.owner = vm.owner ∧ existing.name = vm.name))
    (machines : ∀ defaultName, Describes creating (readMachine defaultName) ∅ folders
      (update (shown s.vms) id (some vm.restored))) :
    Kept config { s with vms := s.vms.insert id vm, folders } where
  catalog := kept.catalog
  sound := kept.sound
  machines defaultName := by
    rw [shown_insert]
    exact machines defaultName
  good := forall_insert good kept.good
  apart left right x y different leftFound rightFound := by
    rcases (lookup_insert_eq_some _).mp leftFound with ⟨rfl, rfl⟩ | ⟨leftOther, leftBefore⟩
    · rcases (lookup_insert_eq_some _).mp rightFound with ⟨rfl, rfl⟩ | ⟨rightOther, rightBefore⟩
      · exact absurd rfl different
      · exact fun same => new right y rightOther rightBefore ⟨same.1.symm, same.2.symm⟩
    · rcases (lookup_insert_eq_some _).mp rightFound with ⟨rfl, rfl⟩ | ⟨_, rightBefore⟩
      · exact new left x leftOther leftBefore
      · exact kept.apart left right x y different leftBefore rightBefore

theorem Kept.refolder {folders : Folders Content}
    (machines : ∀ defaultName, Describes creating (readMachine defaultName) ∅ folders (shown s.vms)) :
    Kept config { s with folders } :=
  { kept with machines }

theorem Kept.create (creation : Creation) (fate : Fate) (saveFails : Option Nat) :
    Kept config (s.act config (.create creation fate saveFails)) := by
  have staged := isStaging_append creating creation.id
  have live := live_of_validID creating_pos creation.id.2
  have away := staging_ne creating_pos creation.id
  rcases createPlan_cases kept creation fate saveFails with
    ⟨touch, none, result⟩ | ⟨record, fails, keep, saves, creates, saving, plan⟩
  · simp only [act, Site.plan, vmsAfter, catalogAfter, result]
    refine kept.refolder fun defaultName => ?_
    exact (kept.machines defaultName).same creating_pos ((sameLive_of_touches staged touch).sets creation.id.1)
  · cases keep with
    | false =>
      simp only [act, Site.plan, vmsAfter, catalogAfter, plan, Bool.false_eq_true, if_false]
      have undone : Sets creating s.folders
          (s.folders.applyAll (publish s.folders (creating ++ creation.id.1) creation.id.1 (prepareVM record.written)
            saves false fate.order).steps) creation.id.1 (s.folders.lookup creation.id.1) := by
        intro name nameLive
        rw [lookup_publish_undone away, creates.freeFolder, if_neg (ne_of_live staged nameLive)]
      exact kept.refolder fun defaultName => (kept.machines defaultName).same creating_pos undone
    | true =>
      simp only [act, Site.plan, vmsAfter, catalogAfter, plan, if_true, publish_steps_kept]
      refine kept.insert creates.stoppedGood (fun other existing _ found => creates.new other existing found) ?_
      intro defaultName
      have reads := creates.reads (saving.imp_left And.left) defaultName saves.length
      rw [take_length, ← applyAll_append] at reads
      have published : Sets creating s.folders
          (s.folders.applyAll (stage (creating ++ creation.id.1) (prepareVM record.written) ++
            [.rename (creating ++ creation.id.1) creation.id.1] ++ saves.map (.file creation.id.1))) creation.id.1
          (some (applyAll ∅ (prepareVM record.written ++ saves))) := by
        intro name nameLive
        rw [lookup_published away, if_neg (ne_of_live staged nameLive)]
      refine (kept.machines defaultName).set_at creating_pos empty_outside published creation.id.2 ?_ nofun
      rintro files here
      cases here
      exact ⟨_, reads, rfl⟩

theorem Kept.save (id : String) (state : VmState) (error : String) (fails : Option Nat) :
    Kept config (s.act config (.save id state error fails)) := by
  rcases savePlan_cases kept id state error fails with refused | ⟨vm, found, good, plan⟩
  · simp only [act, Site.plan, vmsAfter, catalogAfter, refused]
    exact kept.refolder kept.machines
  · simp only [act, Site.plan, vmsAfter, catalogAfter, plan]
    refine kept.insert good (fun other existing different there => kept.apart other id existing vm different there found) ?_
    intro defaultName
    -- the record that a start shows is the same before and after
    have resumes := kept.resumes_save id state error fails (s.savePlan id state error fails).1.steps.length (shown s.vms)
      defaultName
    rw [take_length, plan] at resumes
    exact (shown_of_lookup found).symm ▸ or_self_iff.mp (resumes.whole rfl)

theorem Kept.delete (owner id : String) (order : List String) :
    Kept config (s.act config (.delete owner id order)) := by
  rcases deletePlan_cases s owner id order with refused | ⟨vm, found, plan⟩
  · simp only [act, Site.plan, vmsAfter, catalogAfter, refused]
    exact kept.refolder kept.machines
  · simp only [act, Site.plan, vmsAfter, catalogAfter, plan, if_true]
    refine { kept with
      machines := fun defaultName => ?_
      good := fun other existing there => kept.good other existing ((lookup_erase_eq_some _).mp there).2
      apart := fun left right x y different leftFound rightFound => kept.apart left right x y different
        ((lookup_erase_eq_some _).mp leftFound).2 ((lookup_erase_eq_some _).mp rightFound).2 }
    have removed : Sets creating s.folders
        (s.folders.applyAll (⟨[], some (id, s.folders.listing id order)⟩ : Plan).steps) id none :=
      fun name _ => lookup_removal order name
    rw [shown_erase]
    exact (kept.machines defaultName).set_at creating_pos empty_outside removed (kept.good id vm found).valid nofun
      fun _ => rfl

theorem kept_act (sound : op.Sound config) : Kept config (s.act config op) := by
  cases op with
  | create creation fate saveFails => exact kept.create creation fate saveFails
  | save id state error fails => exact kept.save id state error fails
  | delete owner id order => exact kept.delete owner id order
  | image op =>
    exact { kept with catalog := Catalog.kept_act kept.catalog op, sound := sound_act kept.sound sound }

/-! ## Images -/

theorem Kept.describes_images :
    Describes importing readImage config.images.catalog s.catalog.folders fun id => s.catalog.images.lookup id :=
  kept.catalog.describes.mpr kept.sound

/-- What a start finds of the images after an interrupted import. -/
theorem Kept.resumes_import (upload : Upload) (fate : Fate) (sound : upload.Sound config.images)
    (k : Nat) :
    Resumes importing readImage config.images.catalog
      (s.catalog.folders.applyAll ((s.catalog.importPlan config.images upload fate).1.steps.take k))
      (fun id => s.catalog.images.lookup id)
      (fun id => (s.catalog.act config.images (.importImage upload .smooth)).images.lookup id)
      ((s.catalog.importPlan config.images upload fate).1.tears ["image.json", "disk.qcow2"] k) := by
  have staged := isStaging_append importing upload.id
  have live := live_of_validID importing_pos upload.id.2
  rcases Catalog.importPlan_cases config.images s.catalog upload fate with
    ⟨touch, none, _⟩ | ⟨image, metadata, file, ready, named, _, free, smooth, plan⟩
  · exact kept.describes_images.resumes_staging importing_pos staged touch none _
  · have imageId : image.id = upload.id.1 := by rw [(prepareImage_ok ready).shape, Upload.image]
    have absent : s.catalog.images.lookup upload.id.1 = none := by
      cases found : s.catalog.images.lookup upload.id.1 with
      | none => rfl
      | some existing =>
        rcases kept.catalog.images _ _ found with base | ⟨_, files, there⟩
        · have outside := catalog_outside base
          rw [upload.id.2] at outside
          cases outside
        · rw [free] at there
          cases there
    have after : (fun id => (s.catalog.act config.images (.importImage upload .smooth)).images.lookup id) =
        update s.catalog.images.lookup upload.id.1 (some image) := by
      funext id
      simp only [Catalog.act, smooth, imageId]
      by_cases same : id = upload.id.1
      · rw [same, lookup_insert, update_self]
      · rw [lookup_insert_ne same, update_of_ne same]
    have dropped : update s.catalog.images.lookup upload.id.1 none =
        fun id => s.catalog.images.lookup id := by
      rw [← absent]
      exact update_eq_self upload.id.1 fun id => s.catalog.images.lookup id
    obtain ⟨json, disk⟩ := (prepareImage_ok ready).published
    obtain ⟨now, sets, stage⟩ := stage_publish (k := k) staged live free
      (prepareFiles upload ++ writeAtomic "image.json" (.image metadata)) [] fate.synced
    rw [plan, after]
    rw [← free] at stage
    refine stage.resumes kept.describes_images importing_pos (fun _ _ => catalog_outside) sets upload.id.2 readImage_needs
      (fun n => ?_) (.inr rfl) fun _ => .inl dropped
    rw [take_nil]
    exact (readImage_published ready named json disk).mpr sound

/-- What a start finds of the images after an interrupted deletion. -/
theorem Kept.resumes_deleteImage (id : String) (fate : Fate) (k : Nat) :
    Resumes importing readImage config.images.catalog
      (s.catalog.folders.applyAll ((s.catalog.deletePlan id fate).1.steps.take k))
      (fun id => s.catalog.images.lookup id)
      (fun other => (s.catalog.act config.images (.deleteImage id .smooth)).images.lookup other)
      ((s.catalog.deletePlan id fate).1.tears ["image.json", "disk.qcow2"] k) := by
  by_cases refused : (id = defaultImageID || !validID id || (s.catalog.images.lookup id).isNone ||
      (s.catalog.folders.lookup (importing ++ id)).isSome) = true
  · rw [Catalog.deletePlan, if_pos refused]
    exact kept.describes_images.resumes_refused _
  · have isValid : validID id = true := by
      simp only [Bool.or_eq_true, Bool.not_eq_true', not_or, Bool.not_eq_false] at refused
      exact refused.1.1.2
    have after : (fun other => (s.catalog.act config.images (.deleteImage id .smooth)).images.lookup other) =
        update s.catalog.images.lookup id none := by
      funext other
      rw [Catalog.act, Catalog.deletePlan, if_neg refused]
      by_cases same : other = id
      · rw [same, update_self]
        exact lookup_erase _ _
      · rw [update_of_ne same]
        exact lookup_erase_ne same
    rw [after, Catalog.deletePlan, if_neg refused]
    refine ⟨fun _ => ?_, by simp [Plan.tears]⟩
    cases k with
    | zero => exact .inl kept.describes_images
    | succ k =>
      simp only [Plan.steps, Plan.removing, append_nil, cons_append, nil_append, take_succ_cons]
      have moved : ∀ steps : List (FsStep Content), (∀ step ∈ steps, step.touches = [importing ++ id]) →
          Sets importing s.catalog.folders (s.catalog.folders.applyAll (.rename id (importing ++ id) :: steps)) id none :=
        fun steps touch name nameLive => Catalog.lookup_delete isValid nameLive _ touch
      exact .inr (kept.describes_images.set_at importing_pos (fun _ _ => catalog_outside)
        (moved _ fun step member => touches_discard (mem_of_mem_take member)) isValid (by simp) fun _ => rfl)

theorem Kept.resumes_images {op : Catalog.Op} (sound : Op.Sound config (.image op)) (k : Nat) :
    Resumes importing readImage config.images.catalog (s.crash config (.image op) k).images
      (fun id => s.catalog.images.lookup id) (fun id => (s.act config (Op.smooth (.image op))).catalog.images.lookup id)
      (s.tears config (.image op) k) := by
  cases op with
  | importImage upload fate => exact kept.resumes_import upload fate sound k
  | deleteImage id fate => exact kept.resumes_deleteImage id fate k

/-! ## The next start -/

theorem Kept.apart_shown (id other : String) (x y : VM) (different : id ≠ other)
    (left : shown s.vms id = some x) (right : shown s.vms other = some y) : decide (x.key = y.key) = false := by
  obtain ⟨vm, found, rfl⟩ := Option.map_eq_some_iff.mp left
  obtain ⟨vm', found', rfl⟩ := Option.map_eq_some_iff.mp right
  refine decide_eq_false fun same => ?_
  have sameKey : vm.key = vm'.key := same
  exact kept.apart id other vm vm' different found found' ((kept.good id vm found).key_inj sameKey)

theorem Kept.loads_images (folders : Folders Content) :
    (∃ images, loadImages config.images folders = .ok images ∧ ShowsImages images s.catalog.images) ↔
      Describes importing readImage config.images.catalog folders fun id => s.catalog.images.lookup id :=
  scan_iff (loadImage_splits config.images.fold) kept.catalog.apart importing_pos fun _ _ => catalog_outside

theorem Kept.loads_machines (images : FinMap String Image) (folders : Folders Content) :
    (∃ vms, loadVMs images folders = .ok vms ∧ ShowsVMs vms s.vms) ↔
      Describes creating (readMachine (((images.lookup defaultImageID).map Image.name).getD [])) ∅ folders (shown s.vms) :=
  scan_iff (loadVM_splits _) kept.apart_shown creating_pos empty_outside

theorem Kept.finds_images (sound : op.Sound config) (whole : s.tears config op k = false) :
    Describes importing readImage config.images.catalog (s.crash config op k).images
        (fun id => s.catalog.images.lookup id) ∨
      Describes importing readImage config.images.catalog (s.crash config op k).images
        (fun id => (s.act config op.smooth).catalog.images.lookup id) := by
  cases op with
  | image op => exact (kept.resumes_images sound k).whole whole
  | _ => exact .inl kept.describes_images

theorem Kept.finds_machines (whole : s.tears config op k = false) (defaultName : Bytes) :
    Describes creating (readMachine defaultName) ∅ (s.crash config op k).vms (shown s.vms) ∨
      Describes creating (readMachine defaultName) ∅ (s.crash config op k).vms (shown (s.act config op.smooth).vms) := by
  refine (kept.resumes_machines op k defaultName).whole ?_
  cases op with
  | image op => rfl
  | _ => exact whole

/-- A torn folder keeps the next start from succeeding. -/
theorem Kept.fails (sound : op.Sound config) (torn : s.tears config op k = true) :
    ¬Recovers config s op k := by
  have after := kept_act kept (Op.smooth_sound sound)
  rintro ⟨images, vms, done, showsVMs, showsImages⟩
  obtain ⟨_, loadedImages, done⟩ := ok_of_bind done
  obtain ⟨_, loadedVMs, done⟩ := ok_of_bind done
  cases done
  have noMachines : (s.plan config op).tears ["vm.json"] k = true → False := by
    intro torn
    have fails := fun defaultName => (kept.resumes_machines op k defaultName).fails torn
    rcases showsVMs with shows | shows
    · exact fails _ _ ((kept.loads_machines images _).mp ⟨vms, loadedVMs, shows⟩)
    · exact fails _ _ ((after.loads_machines images _).mp ⟨vms, loadedVMs, shows⟩)
  cases op with
  | image op =>
    have fails := (kept.resumes_images sound k).fails torn
    rcases showsImages with shows | shows
    · exact fails _ ((kept.loads_images _).mp ⟨images, loadedImages, shows⟩)
    · exact fails _ ((after.loads_images _).mp ⟨images, loadedImages, shows⟩)
  | _ => exact noMachines torn

end

theorem kept_run {ops : List Op} (sound : ∀ op ∈ ops, op.Sound config) : Kept config (run config ops) := by
  induction ops using reverseRecOn with
  | nil => exact kept_initial
  | append_singleton ops op ih =>
    rw [run, foldl_append]
    exact kept_act (ih fun other member => sound other (mem_append_left _ member))
      (sound op (mem_append_right _ mem_cons_self))

/-- Whatever operation is interrupted after whatever step: the next start succeeds, with the sets
    from before the operation or from after it, unless a published folder is torn. -/
theorem recovers_iff (config : SiteConfig) (ops : List Op) (op : Op) (k : Nat)
    (sound : ∀ other ∈ op :: ops, other.Sound config) :
    Recovers config (run config ops) op k ↔ (run config ops).tears config op k = false := by
  have kept : Kept config (run config ops) := kept_run fun other member => sound other (mem_cons_of_mem _ member)
  have opSound := sound op mem_cons_self
  have after := kept_act kept (Op.smooth_sound opSound)
  constructor
  · intro recovers
    exact Bool.eq_false_iff.mpr fun torn => kept.fails opSound torn recovers
  · intro whole
    have images : ∃ images, loadImages config.images ((run config ops).crash config op k).images = .ok images ∧
        (ShowsImages images (run config ops).catalog.images ∨
          ShowsImages images ((run config ops).act config op.smooth).catalog.images) := by
      simp only [and_or_left, exists_or]
      exact (kept.finds_images opSound whole).imp (kept.loads_images _).mpr (after.loads_images _).mpr
    obtain ⟨images, loadedImages, showsImages⟩ := images
    have vms : ∃ vms, loadVMs images ((run config ops).crash config op k).vms = .ok vms ∧
        (ShowsVMs vms (run config ops).vms ∨ ShowsVMs vms ((run config ops).act config op.smooth).vms) := by
      simp only [and_or_left, exists_or]
      exact (kept.finds_machines whole _).imp (kept.loads_machines images _).mpr (after.loads_machines images _).mpr
    obtain ⟨vms, loadedVMs, showsVMs⟩ := vms
    refine ⟨images, vms, ?_, showsVMs, showsImages⟩
    rw [newManager, loadedImages]
    exact congrArg (· >>= fun vms => pure (images, vms)) loadedVMs

def sampleConfig : SiteConfig where
  images := { Catalog.sampleConfig with base := some ⟨[0x62], by decide, 4096, 4096, 1⟩ }
  maxVMsPerUser := 3

theorem validID_sample : validID "aaaaaaaaaaaaaaaaaaaaaaaaaa" = true := by decide

def sampleCreation : Creation where
  owner := "ada"
  name := "desk"
  imageId := ""
  id := ⟨"aaaaaaaaaaaaaaaaaaaaaaaaaa", validID_sample⟩
  now := 1
  now_ne_zero := Nat.one_ne_zero

def sampleDelete : Op := .delete "ada" sampleCreation.id.1 ["vm.json"]

/-- A crash before the first step of a deletion is harmless. -/
theorem recovers_before_delete : (∀ other ∈ [sampleDelete, .create sampleCreation .smooth none], other.Sound sampleConfig) ∧
    Recovers sampleConfig (run sampleConfig [.create sampleCreation .smooth none]) sampleDelete 0 := by
  have sound : ∀ other ∈ [sampleDelete, .create sampleCreation .smooth none], other.Sound sampleConfig := by
    simp [sampleDelete, Op.Sound]
  exact ⟨sound, (recovers_iff sampleConfig _ sampleDelete 0 sound).mpr (by decide +kernel)⟩

/-- A machine is created and stopped. A crash in its deletion, after the first file was removed,
    keeps the manager from starting. -/
theorem crash_in_delete_blocks_start :
    ((run sampleConfig [.create sampleCreation .smooth none]).vms.lookup sampleCreation.id.1).map VM.state =
        some .stopped ∧
      (match newManager sampleConfig.images
          ((run sampleConfig [.create sampleCreation .smooth none]).crash sampleConfig sampleDelete 1) with
        | .ok _ => none
        | .error err => some err) = some "read VM metadata" := by
  decide +kernel

end Site

end Gokvm.Gateway
