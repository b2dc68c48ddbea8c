import Gokvm.Disk.Open
import Gokvm.Gateway.StateDir

/-! # The image catalogue

An import checks the name and the header of an upload, brings the disk into a layout that the
gateway can open, and publishes a folder with the disk and its metadata. A start reads every
folder again, with checks of its own.
-/

namespace Gokvm.Gateway

open Lib Utf8

def defaultImageID : String := "default"

def maxImageVirtualSize : Nat := 1 <<< 40

/-! ## Names -/

/-- `unicode.IsSpace`. -/
def isSpace (c : Char) : Bool :=
  (9 ≤ c.toNat && c.toNat ≤ 13) || c.toNat = 0x20 || c.toNat = 0x85 || c.toNat = 0xa0 || c.toNat = 0x1680 ||
    (0x2000 ≤ c.toNat && c.toNat ≤ 0x200a) || c.toNat = 0x2028 || c.toNat = 0x2029 || c.toNat = 0x202f ||
    c.toNat = 0x205f || c.toNat = 0x3000

/-- `strings.TrimSpace`. -/
def trimSpace (cs : List Char) : List Char := ((cs.dropWhile isSpace).reverse.dropWhile isSpace).reverse

def validImageName (name : Bytes) : Bool :=
  if name.isEmpty || 128 < name.length || trimSpace (text name) ≠ text name || name = [0x2e] || name = [0x2e, 0x2e] then
    false
  else (text name).all fun c => !(c.toNat < 32 || c.toNat = 127 || c = '/' || c = '\\')

/-- `strings.EqualFold`, for a representative of each class of letters that differ in case. -/
def equalFold (fold : Char → Char) (a b : Bytes) : Bool := (text a).map fold = (text b).map fold

theorem equalFold_comm (fold : Char → Char) (a b : Bytes) : equalFold fold a b = equalFold fold b a := by
  simp only [equalFold, eq_comm]

/-! ## Disks -/

/-- `validateQCOW2Extensions`. The fuel is enough for every extension before `limit`. -/
def validateQCOW2Extensions (file : Store) (limit : Nat) : (fuel offset : Nat) → Except String Unit
  | 0, _ => .error "missing QCOW2 extension terminator"
  | fuel + 1, offset =>
    if limit < offset + 8 then .error "missing QCOW2 extension terminator"
    else if file.size < offset + 8 then .error "truncated QCOW2 extensions"
    else
      let kind := beNat (file.read offset 4)
      let length := beNat (file.read (offset + 4) 4)
      let next := offset + 8 + (length + 7) / 8 * 8
      if kind = 0 then
        if length ≠ 0 then .error "invalid QCOW2 extension terminator" else .ok ()
      else if kind = 0xe2792aca ∨ kind = 0x44415441 ∨ kind = 0x0537be77 then
        .error "backing file, external data and encryption extensions are unsupported"
      else if limit < next then .error "invalid QCOW2 extension bounds"
      else validateQCOW2Extensions file limit fuel next

/-- The bits of a 64-bit word outside `allowed`. -/
def otherBits (word allowed : Nat) : Nat := word &&& (2 ^ 64 - 1 - allowed)

/-- `validateUploadedQCOW2`: the virtual size. -/
def validateUploadedQCOW2 (file : Store) : Except String Nat :=
  let version := beNat (file.read 4 4)
  let clusterBits := beNat (file.read 20 4)
  let virtualSize := beNat (file.read 24 8)
  let headerLength := if version = 3 then beNat (file.read 100 4) else 72
  let clusterSize := 1 <<< clusterBits
  if file.size < 72 ∨ file.read 0 4 ≠ Disk.qcow2Magic then .error "upload must be a QCOW2 disk image"
  else if version ≠ 2 ∧ version ≠ 3 then .error "unsupported QCOW2 version"
  else if beNat (file.read 8 8) ≠ 0 ∨ beNat (file.read 16 4) ≠ 0 then
    .error "upload must not reference a backing file"
  else if clusterBits < 9 ∨ 21 < clusterBits then .error "invalid QCOW2 cluster size"
  else if virtualSize = 0 ∨ maxImageVirtualSize < virtualSize then
    .error "virtual image size must be between 1 byte and 1 TiB"
  else if beNat (file.read 32 4) ≠ 0 then .error "encrypted images are unsupported"
  else if beNat (file.read 60 4) ≠ 0 ∨ beNat (file.read 64 8) ≠ 0 then
    .error "images with internal snapshots are unsupported"
  else if version = 3 ∧ file.size < 104 then .error "truncated QCOW2 header"
  else if version = 3 ∧ otherBits (beNat (file.read 72 8)) (1 <<< 3 ||| 1 <<< 4) ≠ 0 then
    .error "dirty, corrupt or externally backed images are unsupported"
  else if version = 3 ∧ otherBits (beNat (file.read 88 8)) 1 ≠ 0 then
    .error "external data or unknown QCOW2 features are unsupported"
  else if version = 3 ∧ (headerLength < 104 ∨ headerLength % 8 ≠ 0) then .error "invalid QCOW2 header length"
  else if clusterSize - 8 < headerLength then .error "invalid QCOW2 header bounds"
  else
    match validateQCOW2Extensions file clusterSize clusterSize headerLength with
    | .ok () => .ok virtualSize
    | .error err => .error err

/-- `disk.OpenReadOnly`: the size of the disk. A file without the magic is a raw disk. -/
def openReadOnly (file : Store) : Except Disk.GoError Nat :=
  if 4 ≤ file.size ∧ file.read 0 4 = Disk.qcow2Magic then (Disk.openQCOW2 file []).map Disk.Image.size
  else .ok file.size

theorem ok_of_check {ε α : Type*} {c : Prop} [Decidable c] {err : ε} {rest : Except ε α} {a : α}
    (ok : (if c then .error err else rest) = .ok a) : ¬c ∧ rest = .ok a := by
  by_cases failed : c
  · rw [if_pos failed] at ok
    cases ok
  · rw [if_neg failed] at ok
    exact ⟨failed, ok⟩

theorem ok_of_bind {ε α β : Type} {first : Except ε α} {rest : α → Except ε β} {b : β}
    (ok : first >>= rest = .ok b) : ∃ a, first = .ok a ∧ rest a = .ok b := by
  cases first with
  | error err => cases ok
  | ok a => exact ⟨a, rfl, ok⟩

theorem validateUploadedQCOW2_ok {file : Store} {virtualSize : Nat} (ok : validateUploadedQCOW2 file = .ok virtualSize) :
    72 ≤ file.size ∧ file.read 0 4 = Disk.qcow2Magic ∧ virtualSize = beNat (file.read 24 8) ∧
      0 < virtualSize ∧ virtualSize ≤ maxImageVirtualSize := by
  obtain ⟨start, ok⟩ := ok_of_check ok
  obtain ⟨_, ok⟩ := ok_of_check ok
  obtain ⟨_, ok⟩ := ok_of_check ok
  obtain ⟨_, ok⟩ := ok_of_check ok
  obtain ⟨size, ok⟩ := ok_of_check ok
  iterate 7 replace ok := (ok_of_check ok).2
  rw [not_or, not_lt, not_not] at start
  rw [not_or, not_lt] at size
  split at ok
  · cases ok
    exact ⟨start.1, start.2, rfl, Nat.pos_of_ne_zero size.1, size.2⟩
  · cases ok

/-- The disk of an upload that can be opened has the size that the header checks found. -/
theorem openReadOnly_size {file : Store} {virtualSize size : Nat} (valid : validateUploadedQCOW2 file = .ok virtualSize)
    (opened : openReadOnly file = .ok size) : size = virtualSize := by
  obtain ⟨large, magic, rfl, _⟩ := validateUploadedQCOW2_ok valid
  rw [openReadOnly, if_pos ⟨by omega, magic⟩] at opened
  cases read : Disk.openQCOW2 file [] with
  | error err =>
    rw [read] at opened
    cases opened
  | ok q =>
    rw [read] at opened
    cases opened
    obtain ⟨g, describes, inv, _⟩ := Disk.open_sound read
    have header : (Disk.headerOf file).size = beNat (file.read 24 8) := by
      have field : (Disk.headerOf file).size = beNat (part (file.read 0 Disk.qcow2HeaderV2Len) 24 8) := by
        rw [Disk.headerOf]
        split <;> rfl
      rw [field, Store.part_read (by decide), Nat.zero_add]
    rw [inv.size, ← describes.size, header]

def saveImageUpload (limit : Nat) (content : Store) : Except String Unit :=
  if limit < content.size then .error "image exceeds the upload or normalized size limit"
  else if content.size = 0 then .error "image upload is empty"
  else .ok ()

/-- `normalizeUploadedQCOW2`, when the conversion tool leaves `converted`. -/
def normalizeUploadedQCOW2 (limit : Nat) (source : Store) (converted : Option Store) : Except String Store :=
  match openReadOnly source, converted with
  | .ok _, _ => .ok source
  | .error _, none => .error "install qemu-utils to import compressed or unsupported QCOW2 layouts"
  | .error _, some output =>
    if limit < output.size then .error "image exceeds the upload or normalized size limit"
    else
      match openReadOnly output with
      | .ok _ => .ok output
      | .error _ => .error "image could not be converted to a supported QCOW2 layout"

/-! ## Metadata -/

/-- The operator's template, as opening it shows it. -/
structure BaseImage where
  name : Bytes
  /-- It is the name of a file of the host. -/
  short : name.length ≤ 255
  sizeBytes : Nat
  virtualSizeBytes : Nat
  modTime : Time

def BaseImage.image (base : BaseImage) : Image where
  id := defaultImageID
  name := base.name
  sizeBytes := base.sizeBytes
  virtualSizeBytes := base.virtualSizeBytes
  createdAt := base.modTime
  isDefault := true

structure ImageConfig where
  maxImageUploadBytes : Nat
  limit_pos : 1 ≤ maxImageUploadBytes
  limit_le : maxImageUploadBytes ≤ maxImageVirtualSize
  fold : Char → Char
  base : Option BaseImage

def ImageConfig.catalog (config : ImageConfig) : FinMap String Image :=
  match config.base with
  | some base => AList.insert defaultImageID base.image ∅
  | none => ∅

def decimalLength (n : Nat) : Nat := Nat.log 10 n + 1

/-- The bytes of `image.json`; the braces, the names of the fields and the blanks are 103. -/
def imageFileLength (file : Image) : Nat :=
  103 + file.id.length + file.name.length + decimalLength file.sizeBytes + decimalLength file.virtualSizeBytes +
    file.createdAt.textLength + if file.isDefault then 4 else 5

/-- `json.MarshalIndent` of an image. -/
def marshalImage (image : Image) : Except String Image :=
  if Time.maxJSON ≤ image.createdAt then .error "year outside of range"
  else .ok { image with name := JsonString.quote image.name }

/-- `json.Unmarshal` of an image. -/
def unmarshalImage (file : Image) : Option Image :=
  match JsonString.unquote file.name with
  | some name => some { file with name }
  | none => none

/-- The checks of `loadImage` on the metadata alone. -/
def savedImageOk (id : String) (image : Image) : Bool :=
  image.id = id && validImageName image.name && !image.isDefault && image.createdAt ≠ 0 && 0 < image.sizeBytes &&
    0 < image.virtualSizeBytes && image.virtualSizeBytes ≤ maxImageVirtualSize

/-- The first part of `loadImage`. -/
def readImageMetadata (id : String) (files : Folder Content) : Except String Image :=
  match files.lookup "image.json" with
  | some (.image file) =>
    if 4096 < imageFileLength file then .error "read image metadata"
    else
      match unmarshalImage file with
      | some image => if savedImageOk id image then .ok image else .error "invalid saved image metadata"
      | none => .error "decode image metadata"
  | some _ => .error "decode image metadata"
  | none => .error "read image metadata"

/-- The last part of `loadImage`. -/
def checkSavedDisk (image : Image) (files : Folder Content) : Except String Unit :=
  match files.lookup "disk.qcow2" with
  | some (.disk file) =>
    if file.size ≠ image.sizeBytes then .error "saved image size changed"
    else
      match validateUploadedQCOW2 file, openReadOnly file with
      | .error err, _ => .error err
      | .ok _, .error _ => .error "saved image is unsupported"
      | .ok _, .ok size =>
        if size ≠ image.virtualSizeBytes then .error "saved image virtual size changed" else .ok ()
  | some _ => .error "upload must be a QCOW2 disk image"
  | none => .error "no such file or directory"

def loadImage (fold : Char → Char) (images : FinMap String Image) (id : String) (files : Folder Content) :
    Except String Image :=
  match readImageMetadata id files with
  | .error err => .error err
  | .ok image =>
    if images.entries.any fun existing => equalFold fold image.name existing.2.name then
      .error "duplicate saved image name"
    else
      match checkSavedDisk image files with
      | .ok () => .ok image
      | .error err => .error err

def importing : String := ".importing-"

def loadImages (config : ImageConfig) (folders : Folders Content) : Except String (FinMap String Image) :=
  scan importing "unexpected image catalog entry" (loadImage config.fold) (readDir folders) config.catalog

/-- What a folder alone says about its image. -/
def readImage (id : String) (files : Folder Content) : Option Image :=
  match readImageMetadata id files with
  | .error _ => none
  | .ok image => if (checkSavedDisk image files).toBool then some image else none

theorem loadImage_splits (fold : Char → Char) :
    Splits (loadImage fold) readImage fun image other => equalFold fold image.name other.name := by
  intro loaded name files entry
  rw [loadImage, readImage]
  cases readImageMetadata name files with
  | error err => simp
  | ok image =>
    have apart : (loaded.entries.any fun existing => equalFold fold image.name existing.2.name) = false ↔
        ∀ id other, loaded.lookup id = some other → equalFold fold image.name other.name = false := by
      simp only [List.any_eq_false, Bool.not_eq_true, FinMap.lookup_eq_some_iff]
      exact ⟨fun none id other member => none ⟨id, other⟩ member, fun none e member => none e.1 e.2 member⟩
    dsimp only
    cases clash : loaded.entries.any fun existing => equalFold fold image.name existing.2.name with
    | true =>
      rw [clash] at apart
      simp only [Bool.true_eq_false, false_iff] at apart
      simp only [if_true, reduceCtorEq, false_iff, not_and]
      intro reads none
      split at reads
      · cases reads
        exact apart none
      · cases reads
    | false =>
      rw [clash] at apart
      have none := apart.mp rfl
      cases disk : checkSavedDisk image files with
      | error err => simp [Except.toBool]
      | ok _ =>
        simp only [Bool.false_eq_true, if_false, Except.ok.injEq, Except.toBool, if_true, Option.some.injEq]
        constructor
        · rintro rfl
          exact ⟨rfl, none⟩
        · exact fun both => both.1

/-! ## Operations -/

/-- What an import is given: by its caller, by the conversion tool, and by the clock. -/
structure Upload where
  name : Bytes
  content : Store
  converted : Option Store
  id : RandomID
  now : Time
  now_ne_zero : now ≠ 0

def Upload.image (upload : Upload) (sizeBytes virtualSizeBytes : Nat) : Image where
  id := upload.id.1
  name := upload.name
  sizeBytes := sizeBytes
  virtualSizeBytes := virtualSizeBytes
  createdAt := upload.now
  isDefault := false

/-- The checks of `ImportImage`: the image, its metadata file and its disk. -/
def prepareImage (config : ImageConfig) (upload : Upload) : Except String (Image × Image × Store) := do
  saveImageUpload config.maxImageUploadBytes upload.content
  let virtualSizeBytes ← validateUploadedQCOW2 upload.content
  let file ← normalizeUploadedQCOW2 config.maxImageUploadBytes upload.content upload.converted
  let image := upload.image file.size virtualSizeBytes
  let metadata ← marshalImage image
  return (image, metadata, file)

/-- The steps of `saveImageUpload` and `normalizeUploadedQCOW2`. -/
def prepareFiles (upload : Upload) : List (FileStep Content) :=
  [.write "upload.qcow2" .other, .write "upload.qcow2" (.disk upload.content)] ++
    match openReadOnly upload.content, upload.converted with
    | .ok _, _ => [.move "upload.qcow2" "disk.qcow2"]
    | .error _, some output =>
      [.write "disk.qcow2" .other, .write "disk.qcow2" (.disk output), .unlink "upload.qcow2"]
    | .error _, none => []

/-- The catalogue in memory, its root, and which import each image comes from. -/
structure Catalog where
  images : FinMap String Image
  folders : Folders Content
  uploads : FinMap String Upload

namespace Catalog

variable (config : ImageConfig) (s : Catalog)

def initial : Catalog where
  images := config.catalog
  folders := ∅
  uploads := ∅

/-- `ImportImage`: its steps, and the image that it adds. -/
def importPlan (upload : Upload) (fate : Fate) : Plan × Option Image :=
  let staging := importing ++ upload.id.1
  let prepared := prepareFiles upload
  if !validImageName upload.name then (.refused, none)
  else if s.images.entries.any fun existing => equalFold config.fold existing.2.name upload.name then (.refused, none)
  else if (s.folders.lookup staging).isSome then (.refused, none)
  else
    match prepareImage config upload with
    | .error _ => (abandon s.folders staging (prepared.take (fate.stops.getD prepared.length)) fate, none)
    | .ok (image, metadata, _) =>
      let files := prepared ++ writeAtomic "image.json" (.image metadata)
      if fate.stops.isSome || (s.folders.lookup image.id).isSome then
        (abandon s.folders staging (files.take (fate.stops.getD files.length)) fate, none)
      else (publish s.folders staging image.id files [] fate.synced fate.order, if fate.synced then some image else none)

/-- `DeleteImage`: its steps, and whether it takes the image out. -/
def deletePlan (id : String) (fate : Fate) : Plan × Bool :=
  let staging := importing ++ id
  if id = defaultImageID || !Manager.validID id || (s.images.lookup id).isNone ||
      (s.folders.lookup staging).isSome then (.refused, false)
  else
    let work : List (FsStep Content) := [.rename id staging]
    (⟨work ++ discard (s.folders.applyAll work) staging fate, none⟩, true)

inductive Op where
  | importImage (upload : Upload) (fate : Fate)
  | deleteImage (id : String) (fate : Fate)

def plan : Op → Plan
  | .importImage upload fate => (s.importPlan config upload fate).1
  | .deleteImage id fate => (s.deletePlan id fate).1

def act (op : Op) : Catalog :=
  let folders := s.folders.applyAll (s.plan config op).steps
  match op with
  | .importImage upload fate =>
    match (s.importPlan config upload fate).2 with
    | some image =>
      { images := s.images.insert image.id image, folders, uploads := s.uploads.insert image.id upload }
    | none => { s with folders }
  | .deleteImage id fate =>
    if (s.deletePlan id fate).2 then { images := s.images.erase id, folders, uploads := s.uploads.erase id }
    else { s with folders }

def run (ops : List Op) : Catalog := ops.foldl (act config) (initial config)

end Catalog

end Gokvm.Gateway
