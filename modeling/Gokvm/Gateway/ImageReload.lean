import Gokvm.Disk.Guarantees
import Gokvm.Gateway.Images

/-! # Restarting with the same images

What an import checked the next start checks again, after the name went through JSON and the disk
perhaps through the conversion tool. The start shows an image unchanged exactly when the name is
valid UTF-8 and the published disk passes the header checks with the size of the upload.
-/

namespace Gokvm.Gateway

open Lib Utf8 List AList FinMap Folder Manager

variable {config : ImageConfig} {upload : Upload} {image metadata : Image} {file : Store}

/-! ## What an import has checked -/

theorem normalizeUploadedQCOW2_ok {limit : Nat} {source : Store} {converted : Option Store}
    (ok : normalizeUploadedQCOW2 limit source converted = .ok file) :
    (file = source ∧ ∃ size, openReadOnly source = .ok size) ∨
      (file.size ≤ limit ∧ converted = some file ∧ ∃ err, openReadOnly source = .error err) := by
  unfold normalizeUploadedQCOW2 at ok
  split at ok
  next opened =>
    cases ok
    exact .inl ⟨rfl, _, opened⟩
  · cases ok
  next failed =>
    obtain ⟨small, ok⟩ := ok_of_check ok
    split at ok
    · cases ok
      exact .inr ⟨not_lt.mp small, rfl, _, failed⟩
    · cases ok

/-- An upload that passed the checks of an import. -/
structure Prepared (config : ImageConfig) (upload : Upload) (image metadata : Image) (file : Store) : Prop where
  uploaded : upload.content.size ≤ config.maxImageUploadBytes
  virtualSize : validateUploadedQCOW2 upload.content = .ok image.virtualSizeBytes
  normalized : normalizeUploadedQCOW2 config.maxImageUploadBytes upload.content upload.converted = .ok file
  shape : image = upload.image file.size image.virtualSizeBytes
  written : metadata = { image with name := JsonString.quote image.name }

theorem prepareImage_ok (ok : prepareImage config upload = .ok (image, metadata, file)) :
    Prepared config upload image metadata file := by
  obtain ⟨_, saved, ok⟩ := ok_of_bind ok
  obtain ⟨virtualSize, valid, ok⟩ := ok_of_bind ok
  obtain ⟨output, normal, ok⟩ := ok_of_bind ok
  obtain ⟨written, marshalled, ok⟩ := ok_of_bind ok
  obtain ⟨_, marshalled⟩ := ok_of_check marshalled
  cases marshalled
  cases ok
  exact {
    uploaded := not_lt.mp (ok_of_check saved).1
    virtualSize := valid
    normalized := normal
    shape := rfl
    written := rfl }

theorem lookup_writeAtomic (files : Folder Content) (name : String) (content : Content) (other : String) :
    (applyAll files (writeAtomic name content)).lookup other =
      if other = name then some content else if other = tempFile then none else files.lookup other := by
  simp only [writeAtomic, applyAll_cons, applyAll_nil, apply, lookup_insert]
  by_cases same : other = name
  · rw [if_pos same, same, lookup_insert]
  · rw [if_neg same, lookup_insert_ne same]
    by_cases temp : other = tempFile
    · rw [if_pos temp, temp, lookup_erase]
    · rw [if_neg temp, lookup_erase_ne temp, lookup_insert_ne temp, lookup_insert_ne temp]

theorem Time.textLength_le (t : Time) : t.textLength ≤ 30 := by
  rw [Time.textLength]
  split
  · omega
  next digits found =>
    have range := mem_range.mp (mem_of_find?_eq_some found)
    omega
  · exact le_rfl

theorem decimalLength_le {n : Nat} (small : n ≤ maxImageVirtualSize) : decimalLength n ≤ 13 := by
  have log : Nat.log 10 maxImageVirtualSize = 12 := by
    rw [maxImageVirtualSize, Nat.log_eq_iff (.inl (by decide))]
    decide
  have mono := Nat.log_mono_right (b := 10) small
  rw [decimalLength]
  omega

theorem validImageName_length {name : Bytes} (isValid : validImageName name = true) : name.length ≤ 128 := by
  rw [validImageName] at isValid
  split at isValid
  · cases isValid
  next accepted =>
    simp only [Bool.or_eq_true, decide_eq_true_eq, not_or] at accepted
    omega

variable {id : String} {files : Folder Content}

section

variable (prepared : Prepared config upload image metadata file)
include prepared

theorem Prepared.size_le :
    file.size ≤ config.maxImageUploadBytes := by
  rcases normalizeUploadedQCOW2_ok prepared.normalized with ⟨rfl, _⟩ | ⟨small, _⟩
  · exact prepared.uploaded
  · exact small

/-! ## What an import leaves in the folder -/

theorem Prepared.disk :
    (applyAll ∅ (prepareFiles upload)).lookup "disk.qcow2" = some (.disk file) := by
  rcases normalizeUploadedQCOW2_ok prepared.normalized with ⟨rfl, size, opened⟩ | ⟨_, converted, err, failed⟩
  · simp only [prepareFiles, opened, cons_append, nil_append, applyAll_cons, applyAll_nil,
      apply, lookup_insert]
  · simp only [prepareFiles, failed, converted, cons_append, nil_append, applyAll_cons,
      applyAll_nil, apply, lookup_insert, lookup_erase_ne, ne_eq, String.reduceEq, not_false_eq_true]

theorem Prepared.published :
    (applyAll ∅ (prepareFiles upload ++ writeAtomic "image.json" (.image metadata))).lookup "image.json" =
        some (.image metadata) ∧
      (applyAll ∅ (prepareFiles upload ++ writeAtomic "image.json" (.image metadata))).lookup "disk.qcow2" =
        some (.disk file) := by
  rw [applyAll_append, lookup_writeAtomic, lookup_writeAtomic, if_pos rfl, if_neg (by decide),
    if_neg (by decide)]
  exact ⟨rfl, prepared.disk⟩

/-! ## What the next start makes of it -/

theorem Prepared.length_le (named : validImageName upload.name = true) :
    imageFileLength metadata ≤ 4096 := by
  have id := validID_length upload.id.2
  have name : (JsonString.quote upload.name).length ≤ 6 * 128 :=
    (JsonString.quote_length _).trans (Nat.mul_le_mul_left 6 (validImageName_length named))
  have size := decimalLength_le (prepared.size_le.trans config.limit_le)
  have virtualSize := decimalLength_le (validateUploadedQCOW2_ok prepared.virtualSize).2.2.2.2
  have time := Time.textLength_le upload.now
  rw [prepared.written, prepared.shape, imageFileLength]
  simp only [Upload.image, Bool.false_eq_true, if_false]
  omega

/-- The image after its name went through JSON. -/
def Image.restored (image : Image) : Image := { image with name := coerce image.name }

theorem readImageMetadata_published (named : validImageName upload.name = true)
    (found : files.lookup "image.json" = some (.image metadata)) :
    readImageMetadata id files =
      if savedImageOk id image.restored then .ok image.restored else .error "invalid saved image metadata" := by
  have read : unmarshalImage metadata = some image.restored := by
    rw [unmarshalImage, prepared.written, JsonString.unquote_quote]
    rfl
  have short := prepared.length_le named
  rw [readImageMetadata, found]
  dsimp only
  rw [if_neg (by omega), read]

theorem checkSavedDisk_published (found : files.lookup "disk.qcow2" = some (.disk file)) :
    checkSavedDisk image.restored files = .ok () ↔
      (∃ size, validateUploadedQCOW2 file = .ok size) ∧ openReadOnly file = .ok image.virtualSizeBytes := by
  have size : file.size = image.restored.sizeBytes := by rw [Image.restored, prepared.shape, Upload.image]
  have virtualSize : image.restored.virtualSizeBytes = image.virtualSizeBytes := rfl
  rw [checkSavedDisk, found]
  dsimp only
  rw [if_neg (not_not.mpr size), virtualSize]
  cases validateUploadedQCOW2 file with
  | error err => simp
  | ok size =>
    cases openReadOnly file with
    | error _ | ok _ => simp

theorem savedImageOk_published (named : validImageName upload.name = true)
    (nonempty : 0 < file.size) :
    savedImageOk upload.id.1 image = true := by
  obtain ⟨_, _, _, pos, small⟩ := validateUploadedQCOW2_ok prepared.virtualSize
  rw [prepared.shape]
  simp [savedImageOk, Upload.image, named, upload.now_ne_zero, nonempty, pos, small]

end

/-- An upload whose image is not changed by a restart. -/
structure Upload.Sound (config : ImageConfig) (upload : Upload) : Prop where
  name : valid upload.name = true
  disk : ∀ image metadata file, prepareImage config upload = .ok (image, metadata, file) →
    (∃ size, validateUploadedQCOW2 file = .ok size) ∧ openReadOnly file = .ok image.virtualSizeBytes

theorem Upload.sound_of_opened {size : Nat} (named : valid upload.name = true)
    (opened : openReadOnly upload.content = .ok size) : upload.Sound config where
  name := named
  disk image metadata file ready := by
    have prepared := prepareImage_ok ready
    rcases normalizeUploadedQCOW2_ok prepared.normalized with ⟨rfl, _⟩ | ⟨_, _, err, failed⟩
    · exact ⟨⟨_, prepared.virtualSize⟩, openReadOnly_size prepared.virtualSize opened ▸ opened⟩
    · rw [opened] at failed
      cases failed

/-- A start reads back the image that was published exactly when the upload is sound. -/
theorem readImage_published (ready : prepareImage config upload = .ok (image, metadata, file))
    (named : validImageName upload.name = true) (json : files.lookup "image.json" = some (.image metadata))
    (disk : files.lookup "disk.qcow2" = some (.disk file)) :
    readImage upload.id.1 files = some image ↔ upload.Sound config := by
  have prepared := prepareImage_ok ready
  have imageName : image.name = upload.name := by rw [prepared.shape, Upload.image]
  have passes : (checkSavedDisk image.restored files).toBool = true ↔ checkSavedDisk image.restored files = .ok () := by
    cases checkSavedDisk image.restored files <;> simp [Except.toBool]
  have checked := passes.trans (checkSavedDisk_published prepared disk)
  rw [readImage, readImageMetadata_published prepared named json]
  constructor
  · intro reads
    by_cases saved : savedImageOk upload.id.1 image.restored = true
    · rw [if_pos saved] at reads
      dsimp only at reads
      split at reads
      next checks =>
        have same : coerce image.name = image.name := congrArg Image.name (Option.some.inj reads)
        refine { name := imageName ▸ coerce_eq_self.mp same, disk := ?_ }
        intro image' metadata' file' again
        rw [ready] at again
        cases again
        exact checked.mp checks
      · cases reads
    · rw [if_neg saved] at reads
      cases reads
  · intro sound
    have onDisk := sound.disk image metadata file ready
    obtain ⟨size, isValid⟩ := onDisk.1
    have large := (validateUploadedQCOW2_ok isValid).1
    have same : image.restored = image := by
      rw [Image.restored, coerce_of_valid (imageName ▸ sound.name)]
    have checks := checked.mpr onDisk
    rw [same] at checks ⊢
    rw [if_pos (savedImageOk_published prepared named (by omega))]
    dsimp only
    rw [if_pos checks]

/-! ## Runs -/

/-- A folder holds what an import published. -/
structure Published (config : ImageConfig) (id : String) (upload : Upload) (image : Image) (files : Folder Content) :
    Prop where
  id : upload.id.1 = id
  named : validImageName upload.name = true
  ready : ∃ metadata file, prepareImage config upload = .ok (image, metadata, file) ∧
    files.lookup "image.json" = some (.image metadata) ∧ files.lookup "disk.qcow2" = some (.disk file)

theorem Published.reads (published : Published config id upload image files) :
    readImage id files = some image ↔ upload.Sound config := by
  obtain ⟨metadata, file, ready, json, disk⟩ := published.ready
  rw [← published.id]
  exact readImage_published ready published.named json disk

theorem catalog_outside {image : Image} (found : config.catalog.lookup id = some image) : validID id = false := by
  rw [ImageConfig.catalog] at found
  split at found
  · rcases (lookup_insert_eq_some _).mp found with ⟨rfl, _⟩ | ⟨_, none⟩
    · decide
    · cases none
  · cases found

theorem importing_pos : 0 < importing.length := by decide

namespace Catalog

/-- How memory, folders and imports agree. -/
structure Kept (config : ImageConfig) (s : Catalog) : Prop where
  entries : ∀ name files, s.folders.lookup name = some files → isStaging importing name = true ∨
    ∃ upload image, s.uploads.lookup name = some upload ∧ s.images.lookup name = some image ∧
      Published config name upload image files
  known : ∀ id image, config.catalog.lookup id = some image → s.images.lookup id = some image
  images : ∀ id image, s.images.lookup id = some image → config.catalog.lookup id = some image ∨
    validID id = true ∧ ∃ files, s.folders.lookup id = some files
  uploads : ∀ id upload, s.uploads.lookup id = some upload →
    validID id = true ∧ ∃ files, s.folders.lookup id = some files
  apart : ∀ id other x y, id ≠ other → s.images.lookup id = some x → s.images.lookup other = some y →
    equalFold config.fold x.name y.name = false

variable {s : Catalog}

theorem kept_initial : Kept config (initial config) where
  entries := nofun
  known _ _ found := found
  images _ _ found := .inl found
  uploads := nofun
  apart id other x y different left right := by
    have only : ∀ {id image}, config.catalog.lookup id = some image → id = defaultImageID := by
      intro id image found
      rw [ImageConfig.catalog] at found
      split at found
      · exact ((lookup_insert_eq_some _).mp found).elim And.left nofun
      · cases found
    exact absurd ((only left).trans (only right).symm) different

variable {folders : Folders Content}

theorem Kept.sameLive (kept : Kept config s) (same : SameLive importing s.folders folders) :
    Kept config { s with folders } where
  entries name files found := by
    by_cases live : isStaging importing name = false
    · rw [same name live] at found
      exact kept.entries name files found
    · exact .inl (Bool.of_not_eq_false live)
  known := kept.known
  images id image found := (kept.images id image found).imp_right fun ⟨isValid, files, there⟩ =>
    ⟨isValid, files, by rw [same id (live_of_validID importing_pos isValid), there]⟩
  uploads id upload found := by
    obtain ⟨isValid, files, there⟩ := kept.uploads id upload found
    exact ⟨isValid, files, by rw [same id (live_of_validID importing_pos isValid), there]⟩
  apart := kept.apart

/-- An import either leaves at most a staging folder, or publishes one. -/
theorem importPlan_cases (config : ImageConfig) (s : Catalog) (upload : Upload) (fate : Fate) :
    ((∀ step ∈ (s.importPlan config upload fate).1.steps, step.touches = [importing ++ upload.id.1]) ∧
      (s.importPlan config upload fate).1.removed = none ∧ (s.importPlan config upload fate).2 = none) ∨
    ∃ image metadata file, prepareImage config upload = .ok (image, metadata, file) ∧
      validImageName upload.name = true ∧
      (∀ id existing, s.images.lookup id = some existing → equalFold config.fold existing.name upload.name = false) ∧
      s.folders.lookup upload.id.1 = none ∧ (s.importPlan config upload .smooth).2 = some image ∧
      s.importPlan config upload fate =
        (publish s.folders (importing ++ upload.id.1) upload.id.1
          (prepareFiles upload ++ writeAtomic "image.json" (.image metadata)) [] fate.synced fate.order,
          if fate.synced then some image else none) := by
  have refused : ∀ step ∈ Plan.refused.steps, step.touches = [importing ++ upload.id.1] := nofun
  rw [importPlan]
  dsimp only
  split
  · exact .inl ⟨refused, rfl, rfl⟩
  next named =>
    split
    · exact .inl ⟨refused, rfl, rfl⟩
    next new =>
      split
      · exact .inl ⟨refused, rfl, rfl⟩
      next fresh =>
        split
        · exact .inl ⟨fun step => touches_abandon, rfl, rfl⟩
        next image metadata file ready =>
          have imageId : image.id = upload.id.1 := by rw [(prepareImage_ok ready).shape, Upload.image]
          rw [imageId]
          split
          · exact .inl ⟨fun step => touches_abandon, rfl, rfl⟩
          next free =>
            simp only [Bool.or_eq_true, not_or, Bool.not_eq_true, Option.isSome_eq_false_iff, Option.isNone_iff_eq_none] at free
            refine .inr ⟨image, metadata, file, ready, by simpa using named, ?_, free.2, ?_, rfl⟩
            · intro id existing found
              simp only [any_eq_true, not_exists, not_and, Bool.not_eq_true] at new
              exact new ⟨id, existing⟩ ((lookup_eq_some_iff _).mp found)
            · have vacant : (s.folders.lookup image.id).isSome = false := by
                rw [imageId, free.2]
                rfl
              simp only [importPlan, named, new, fresh, ready, vacant, Fate.smooth, Bool.false_eq_true, if_false, if_true,
                Option.isSome_none, Bool.or_self]

theorem Kept.insert (kept : Kept config s) (published : Published config id upload image files)
    (new : ∀ other existing, s.images.lookup other = some existing →
      equalFold config.fold existing.name upload.name = false)
    (there : ∀ name, isStaging importing name = false →
      folders.lookup name = if name = id then some files else s.folders.lookup name) :
    Kept config { images := s.images.insert id image, folders, uploads := s.uploads.insert id upload } := by
  have isValid : validID id = true := published.id ▸ upload.id.2
  have name : image.name = upload.name := by
    obtain ⟨metadata, file, ready, _⟩ := published.ready
    rw [(prepareImage_ok ready).shape, Upload.image]
  have still : ∀ {other files}, validID other = true → s.folders.lookup other = some files →
      ∃ files, folders.lookup other = some files := by
    intro other files otherValid found
    rw [there other (live_of_validID importing_pos otherValid)]
    split
    · exact ⟨_, rfl⟩
    · exact ⟨files, found⟩
  have here : ∃ files, folders.lookup id = some files :=
    ⟨files, by rw [there id (live_of_validID importing_pos isValid), if_pos rfl]⟩
  constructor
  · intro other files found
    refine or_iff_not_imp_left.mpr fun live => ?_
    rw [there other (Bool.eq_false_of_not_eq_true live)] at found
    split at found
    next same =>
      cases found
      cases same
      exact ⟨upload, image, lookup_insert _, lookup_insert _, published⟩
    next different =>
      rw [lookup_insert_ne different, lookup_insert_ne different]
      exact (kept.entries other files found).resolve_left live
  · intro other existing found
    rw [lookup_insert_ne (ne_of_validID isValid (catalog_outside found))]
    exact kept.known other existing found
  · refine forall_insert (.inr ⟨isValid, here⟩) fun other existing before => ?_
    exact (kept.images other existing before).imp_right fun ⟨otherValid, _, found⟩ =>
      ⟨otherValid, still otherValid found⟩
  · refine forall_insert ⟨isValid, here⟩ fun other source before => ?_
    obtain ⟨otherValid, _, found⟩ := kept.uploads other source before
    exact ⟨otherValid, still otherValid found⟩
  · intro left right x y different leftFound rightFound
    rcases (lookup_insert_eq_some _).mp leftFound with ⟨rfl, rfl⟩ | ⟨_, leftBefore⟩
    · rcases (lookup_insert_eq_some _).mp rightFound with ⟨rfl, rfl⟩ | ⟨_, rightBefore⟩
      · exact absurd rfl different
      · rw [equalFold_comm, name]
        exact new right y rightBefore
    · rcases (lookup_insert_eq_some _).mp rightFound with ⟨rfl, rfl⟩ | ⟨_, rightBefore⟩
      · rw [name]
        exact new left x leftBefore
      · exact kept.apart left right x y different leftBefore rightBefore

theorem Kept.erase (kept : Kept config s) (isValid : validID id = true)
    (there : ∀ name, isStaging importing name = false →
      folders.lookup name = if name = id then none else s.folders.lookup name) :
    Kept config { images := s.images.erase id, folders, uploads := s.uploads.erase id } := by
  have still : ∀ {other files}, other ≠ id → validID other = true → s.folders.lookup other = some files →
      folders.lookup other = some files := by
    intro other files different otherValid found
    rw [there other (live_of_validID importing_pos otherValid), if_neg different, found]
  constructor
  · intro other files found
    refine or_iff_not_imp_left.mpr fun live => ?_
    rw [there other (Bool.eq_false_of_not_eq_true live)] at found
    split at found
    · cases found
    next different =>
      rw [lookup_erase_ne different, lookup_erase_ne different]
      exact (kept.entries other files found).resolve_left live
  · intro other existing found
    rw [lookup_erase_ne (ne_of_validID isValid (catalog_outside found))]
    exact kept.known other existing found
  · intro other existing found
    obtain ⟨different, before⟩ := (lookup_erase_eq_some _).mp found
    exact (kept.images other existing before).imp_right fun ⟨otherValid, files, found⟩ =>
      ⟨otherValid, files, still different otherValid found⟩
  · intro other source found
    obtain ⟨different, before⟩ := (lookup_erase_eq_some _).mp found
    obtain ⟨otherValid, files, found⟩ := kept.uploads other source before
    exact ⟨otherValid, files, still different otherValid found⟩
  · intro left right x y different leftFound rightFound
    exact kept.apart left right x y different ((lookup_erase_eq_some _).mp leftFound).2
      ((lookup_erase_eq_some _).mp rightFound).2

/-- A deletion leaves at most a staging folder. -/
theorem lookup_delete {name : String} (isValid : validID id = true) (live : isStaging importing name = false)
    (folders : Folders Content) {steps : List (FsStep Content)}
    (touch : ∀ step ∈ steps, step.touches = [importing ++ id]) :
    (folders.applyAll (.rename id (importing ++ id) :: steps)).lookup name =
      if name = id then none else folders.lookup name := by
  have staging : isStaging importing (importing ++ id) = true := isStaging_append importing ⟨id, isValid⟩
  have away : id ≠ importing ++ id := (staging_ne importing_pos ⟨id, isValid⟩).symm
  rw [Folders.applyAll_cons, sameLive_of_touches staging touch name live]
  by_cases same : name = id
  · rw [if_pos same, same]
    exact Folders.lookup_rename_old _ away
  · have apart : name ∉ (FsStep.rename id (importing ++ id) : FsStep Content).touches := by
      simp [FsStep.touches, same, ne_of_live staging live]
    rw [if_neg same]
    exact Folders.lookup_apply_untouched _ apart

theorem kept_act (kept : Kept config s) (op : Op) : Kept config (s.act config op) := by
  cases op with
  | importImage upload fate =>
    have staging := isStaging_append importing upload.id
    rcases importPlan_cases config s upload fate with ⟨touch, _, none⟩ | ⟨image, metadata, file, ready, named, new, free, _, plan⟩
    · simp only [act, Catalog.plan, none]
      exact kept.sameLive (sameLive_of_touches staging touch)
    · have imageId : image.id = upload.id.1 := by rw [(prepareImage_ok ready).shape, Upload.image]
      cases synced : fate.synced with
      | true =>
        simp only [act, Catalog.plan, plan, synced, if_true, imageId, publish_steps_kept]
        refine kept.insert ⟨rfl, named, metadata, file, ready, (prepareImage_ok ready).published⟩ new ?_
        intro name live
        rw [lookup_published (staging_ne importing_pos upload.id), append_nil, if_neg (ne_of_live staging live)]
      | false =>
        simp only [act, Catalog.plan, plan, synced, Bool.false_eq_true, if_false]
        refine kept.sameLive fun name live => ?_
        rw [lookup_publish_undone (staging_ne importing_pos upload.id), if_neg (ne_of_live staging live)]
        split
        next same => rw [same, free]
        · rfl
  | deleteImage id fate =>
    simp only [act, Catalog.plan]
    by_cases refused : (id = defaultImageID || !validID id || (s.images.lookup id).isNone ||
        (s.folders.lookup (importing ++ id)).isSome) = true
    · rw [deletePlan, if_pos refused]
      exact kept
    · rw [deletePlan, if_neg refused]
      simp only [Bool.or_eq_true, Bool.not_eq_true', not_or, Bool.not_eq_false] at refused
      simp only [Plan.steps, Plan.removing, append_nil, if_true]
      exact kept.erase refused.1.1.2 fun name live =>
        lookup_delete refused.1.1.2 live _ fun step => touches_discard

theorem kept_run (ops : List Op) : Kept config (run config ops) := by
  induction ops using reverseRecOn with
  | nil => exact kept_initial
  | append_singleton ops op ih =>
    rw [run, foldl_append]
    exact kept_act ih op

/-- The folders describe the catalogue exactly when every image comes from a sound upload. -/
theorem Kept.describes (kept : Kept config s) :
    Describes importing readImage config.catalog s.folders (fun id => s.images.lookup id) ↔
      ∀ id upload, s.uploads.lookup id = some upload → upload.Sound config := by
  constructor
  · intro describes id upload source
    obtain ⟨isValid, files, found⟩ := kept.uploads id upload source
    have live := not_staging importing_pos isValid
    obtain ⟨upload', image, source', shown, published⟩ := (kept.entries id files found).resolve_left live
    obtain ⟨_, entry, reads, member⟩ := (describes.entries id files found).resolve_left live
    have sameUpload : upload' = upload := Option.some.inj (source'.symm.trans source)
    have sameImage : entry = image := Option.some.inj (member.symm.trans shown)
    rw [← sameUpload]
    exact published.reads.mp (sameImage ▸ reads)
  · intro sound
    refine { entries := ?_, known := kept.known, complete := kept.images }
    intro name files found
    rcases kept.entries name files found with staging | ⟨upload, image, source, shown, published⟩
    · exact .inl staging
    · exact .inr ⟨(kept.uploads name upload source).1, image, published.reads.mpr (sound name upload source), shown⟩

/-- After any sequence of imports and deletions, the next start restores exactly the images of the
    catalogue if and only if each of them comes from a sound upload. -/
theorem reload_iff (config : ImageConfig) (ops : List Op) :
    (∃ loaded, loadImages config (run config ops).folders = .ok loaded ∧
      ∀ id, loaded.lookup id = (run config ops).images.lookup id) ↔
      ∀ id upload, (run config ops).uploads.lookup id = some upload → upload.Sound config := by
  have kept : Kept config (run config ops) := kept_run ops
  rw [← kept.describes]
  exact scan_iff (loadImage_splits config.fold) kept.apart importing_pos fun _ _ => catalog_outside

def sampleConfig : ImageConfig where
  maxImageUploadBytes := 20 <<< 30
  limit_pos := by decide
  limit_le := by decide
  fold := Char.toLower
  base := none

/-- A name of 43 bytes that are not UTF-8. JSON makes 129 bytes of it. -/
def unreadableUpload : Upload where
  name := replicate 43 0xff
  content := Disk.sampleFile
  converted := none
  id := ⟨"aaaaaaaaaaaaaaaaaaaaaaaaaa", by decide⟩
  now := 1
  now_ne_zero := by decide

/-- The import succeeds, and then no start does. -/
theorem import_blocks_restart :
    ((run sampleConfig [.importImage unreadableUpload .smooth]).images.lookup unreadableUpload.id.1).map Image.name =
        some (replicate 43 0xff) ∧
      (match loadImages sampleConfig (run sampleConfig [.importImage unreadableUpload .smooth]).folders with
        | .ok _ => none
        | .error err => some err) = some "invalid saved image metadata" := by
  decide +kernel

end Catalog

end Gokvm.Gateway
