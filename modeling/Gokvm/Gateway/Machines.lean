import Gokvm.Gateway.Images

/-! # Machines in the state directory

The folders of the machines next to the catalogue of images. A creation publishes a folder and
then saves the record once more; a deletion removes the published folder file by file. A start
reads the images first, then the machines.
-/

namespace Gokvm.Gateway

open Lib

/-! ## Records -/

def validOwner (s : String) : Bool :=
  match s.toList with
  | [] => false
  | first :: _ =>
    s.length ≤ 32 && (first = '_' || 'a' ≤ first && first ≤ 'z') &&
      s.toList.all fun c => c = '_' || c = '.' || c = '-' || ('a' ≤ c && c ≤ 'z') || ('0' ≤ c && c ≤ '9')

/-- `validVMName`: letters, digits and inner hyphens. -/
def validVMName (name : String) : Bool :=
  let plain := fun c : Char => ('a' ≤ c && c ≤ 'z') || ('0' ≤ c && c ≤ '9')
  name.length ≤ 63 && (name.toList.head?.any plain) && (name.toList.getLast?.any plain) &&
    name.toList.all fun c => plain c || c = '-'

def VmState.text : VmState → String
  | .creating => "creating"
  | .stopped => "stopped"
  | .starting => "starting"
  | .running => "running"
  | .deleted => "deleted"

/-- The errors that a record can hold. -/
def vmErrors : List String :=
  ["", "Desktop stopped unexpectedly.", "Could not save desktop state.", "Desktop startup failed."]

/-- The bytes of `vm.json`; a field that is left out takes none. -/
def vmFileLength (file : VM) : Nat :=
  77 + file.id.length + file.name.length + file.owner.length + file.state.text.length + file.createdAt.textLength +
    (if file.error = "" then 0 else 15 + file.error.length) +
    (if file.imageId = "" then 0 else 17 + file.imageId.length) +
    (if file.imageName = [] then 0 else 19 + file.imageName.length)

/-- `json.MarshalIndent` of a machine. -/
def marshalVM (vm : VM) : Except String VM :=
  if Time.maxJSON ≤ vm.createdAt then .error "year outside of range"
  else .ok { vm with imageName := JsonString.quote vm.imageName }

/-- `json.Unmarshal` of a machine. -/
def unmarshalVM (file : VM) : Option VM :=
  match JsonString.unquote file.imageName with
  | some imageName => some { file with imageName }
  | none => none

/-! ## Loading -/

def creating : String := ".creating-"

/-- The checks of `load` on the metadata alone. -/
def savedVMOk (id : String) (vm : VM) : Bool :=
  vm.id = id && validOwner vm.owner && validVMName vm.name && vm.createdAt ≠ 0

/-- What `load` reads from one folder. -/
def readVM (defaultName : Bytes) (id : String) (files : Folder Content) : Except String VM :=
  match files.lookup "vm.json" with
  | some (.vm file) =>
    if 4096 < vmFileLength file then .error "read VM metadata"
    else
      match unmarshalVM file with
      | some record =>
        if !savedVMOk id record then .error "invalid saved VM metadata"
        else
          let vm := if record.imageId = "" then
            { record with imageId := defaultImageID, imageName := defaultName } else record
          if vm.imageId ≠ defaultImageID && !Manager.validID vm.imageId then
            .error "invalid saved VM image identity"
          else .ok { vm with state := .stopped, error := "" }
      | none => .error "decode VM metadata"
  | some _ => .error "decode VM metadata"
  | none => .error "read VM metadata"

/-- The key under which `load` remembers a name. -/
def VM.key (vm : VM) : String := vm.owner ++ "/" ++ vm.name

def loadVM (defaultName : Bytes) (vms : FinMap String VM) (id : String) (files : Folder Content) : Except String VM :=
  match readVM defaultName id files with
  | .error err => .error err
  | .ok vm =>
    if vms.entries.any fun existing => vm.key = existing.2.key then .error "duplicate saved desktop name"
    else .ok vm

/-- `load`. -/
def loadVMs (images : FinMap String Image) (folders : Folders Content) : Except String (FinMap String VM) :=
  let defaultName := ((images.lookup defaultImageID).map Image.name).getD []
  scan creating "unexpected entry in VM state directory" (loadVM defaultName) (readDir folders) ∅

/-- The two roots of the state directory. -/
structure Roots where
  images : Folders Content
  vms : Folders Content

/-- The loading of `NewManager`. -/
def newManager (config : ImageConfig) (roots : Roots) : Except String (FinMap String Image × FinMap String VM) := do
  let images ← loadImages config roots.images
  let vms ← loadVMs images roots.vms
  return (images, vms)

/-! ## Operations -/

/-- What `CreateWithProgress` is given by its caller and by the clock. -/
structure Creation where
  owner : String
  name : String
  imageId : String
  id : RandomID
  now : Time
  now_ne_zero : now ≠ 0

def Creation.record (creation : Creation) (image : Image) : VM where
  id := creation.id.1
  name := creation.name
  owner := creation.owner
  state := .creating
  error := ""
  createdAt := creation.now
  imageId := image.id
  imageName := image.name

def cloneFiles : List (FileStep Content) := [.write "disk.img" .other, .write "vars.fd" .other]

/-- The steps of `prepareOpenImageWithProgress` in the staging folder. -/
def prepareVM (metadata : VM) : List (FileStep Content) :=
  cloneFiles ++ writeAtomic "seed.iso" .other ++ writeAtomic "rdp.crt" .other ++ writeAtomic "rdp.key" .other ++
    writeAtomic "vm.json" (.vm metadata)

/-- `save`, which may fail after some steps. -/
def saveSteps (metadata : VM) : Option Nat → List (FileStep Content)
  | none => writeAtomic "vm.json" (.vm metadata)
  | some n => (writeAtomic "vm.json" (.vm metadata)).take n ++ [.unlink tempFile]

structure SiteConfig where
  images : ImageConfig
  maxVMsPerUser : Nat

/-- The manager's view of its state directory, and the directory. -/
structure Site where
  catalog : Catalog
  vms : FinMap String VM
  folders : Folders Content

namespace Site

variable (config : SiteConfig) (s : Site)

def initial : Site where
  catalog := .initial config.images
  vms := ∅
  folders := ∅

def selectedImage (id : String) : Option Image :=
  s.catalog.images.lookup (if id = "" then defaultImageID else id)

/-- `reserveVM` refuses. -/
def unavailable (creation : Creation) : Bool :=
  (s.vms.entries.any fun existing => existing.2.owner = creation.owner && existing.2.name = creation.name) ||
    config.maxVMsPerUser ≤ s.vms.countIf (fun _ vm => vm.owner = creation.owner) ||
    (s.vms.lookup creation.id.1).isSome

/-- `CreateWithProgress`: its steps, and the machine that it adds. -/
def createPlan (creation : Creation) (fate : Fate) (saveFails : Option Nat) : Plan × Option VM :=
  let staging := creating ++ creation.id.1
  if !(validOwner creation.owner && validVMName creation.name) then (.refused, none)
  else
    match s.selectedImage creation.imageId with
    | none => (.refused, none)
    | some image =>
      let record := creation.record image
      if s.unavailable config creation || (s.folders.lookup staging).isSome then (.refused, none)
      else
        match marshalVM record with
        | .error _ => (abandon s.folders staging (cloneFiles.take (fate.stops.getD cloneFiles.length)) fate, none)
        | .ok metadata =>
          let files := prepareVM metadata
          if fate.stops.isSome || (s.folders.lookup creation.id.1).isSome then
            (abandon s.folders staging (files.take (fate.stops.getD files.length)) fate, none)
          else if !fate.synced then
            (publish s.folders staging creation.id.1 files [] false fate.order, none)
          else
            let saves := saveSteps { metadata with state := .stopped } saveFails
            (publish s.folders staging creation.id.1 files saves saveFails.isNone fate.order,
              if saveFails.isNone then some { record with state := .stopped } else none)

/-- A state change that is saved: its steps, and the new record. -/
def savePlan (id : String) (state : VmState) (error : String) (fails : Option Nat) : Plan × Option VM :=
  match s.vms.lookup id with
  | none => (.refused, none)
  | some vm =>
    match marshalVM { vm with state, error } with
    | .error _ => (.refused, none)
    | .ok metadata =>
      if error ∈ vmErrors then
        (⟨(saveSteps metadata fails).map (.file id), none⟩, some { vm with state, error })
      else (.refused, none)

/-- `Delete`: its steps, and whether it takes the machine out. -/
def deletePlan (owner id : String) (order : List String) : Plan × Bool :=
  match s.vms.lookup id with
  | none => (.refused, false)
  | some vm =>
    if Manager.validID id && vm.owner = owner && vm.state = .stopped then
      (⟨[], some (id, s.folders.listing id order)⟩, true)
    else (.refused, false)

inductive Op where
  | create (creation : Creation) (fate : Fate) (saveFails : Option Nat)
  | save (id : String) (state : VmState) (error : String) (fails : Option Nat)
  | delete (owner id : String) (order : List String)
  | image (op : Catalog.Op)

/-- The same operation when nothing fails. -/
def Op.smooth : Op → Op
  | .create creation _ _ => .create creation .smooth none
  | .save id state error _ => .save id state error none
  | .delete owner id order => .delete owner id order
  | .image (.importImage upload _) => .image (.importImage upload .smooth)
  | .image (.deleteImage id _) => .image (.deleteImage id .smooth)

/-- The steps of an operation below the root of the machines. -/
def plan : Op → Plan
  | .create creation fate saveFails => (s.createPlan config creation fate saveFails).1
  | .save id state error fails => (s.savePlan id state error fails).1
  | .delete owner id order => (s.deletePlan owner id order).1
  | .image _ => .refused

def vmsAfter : Op → FinMap String VM
  | .create creation fate saveFails =>
    match (s.createPlan config creation fate saveFails).2 with
    | some vm => s.vms.insert creation.id.1 vm
    | none => s.vms
  | .save id state error fails =>
    match (s.savePlan id state error fails).2 with
    | some vm => s.vms.insert id vm
    | none => s.vms
  | .delete owner id order => if (s.deletePlan owner id order).2 then s.vms.erase id else s.vms
  | .image _ => s.vms

def catalogAfter : Op → Catalog
  | .image op => s.catalog.act config.images op
  | _ => s.catalog

def act (op : Op) : Site where
  catalog := s.catalogAfter config op
  vms := s.vmsAfter config op
  folders := s.folders.applyAll (s.plan config op).steps

def run (ops : List Op) : Site := ops.foldl (act config) (initial config)

/-- What a crash after `k` steps of an operation leaves of the directory. -/
def crash (op : Op) (k : Nat) : Roots where
  images :=
    match op with
    | .image op => s.catalog.folders.applyAll ((s.catalog.plan config.images op).steps.take k)
    | _ => s.catalog.folders
  vms := s.folders.applyAll ((s.plan config op).steps.take k)

/-- The crash comes during the removal of a published folder: it is there without a file that the
    next start reads. -/
def tears (op : Op) (k : Nat) : Bool :=
  match op with
  | .image op => (s.catalog.plan config.images op).tears ["image.json", "disk.qcow2"] k
  | op => (s.plan config op).tears ["vm.json"] k

end Site

/-- A machine as the next start shows it. -/
def VM.restored (vm : VM) : VM := { vm with state := .stopped, error := "", imageName := Utf8.coerce vm.imageName }

def ShowsVMs (loaded vms : FinMap String VM) : Prop := ∀ id, loaded.lookup id = (vms.lookup id).map VM.restored

def ShowsImages (loaded images : FinMap String Image) : Prop := ∀ id, loaded.lookup id = images.lookup id

/-- After a crash during an operation the next start succeeds, with the machines and images from
    before it or after it. -/
def Site.Recovers (config : SiteConfig) (s : Site) (op : Site.Op) (k : Nat) : Prop :=
  ∃ images vms, newManager config.images (s.crash config op k) = .ok (images, vms) ∧
    (ShowsVMs vms s.vms ∨ ShowsVMs vms (s.act config op.smooth).vms) ∧
    (ShowsImages images s.catalog.images ∨ ShowsImages images (s.act config op.smooth).catalog.images)

end Gokvm.Gateway
