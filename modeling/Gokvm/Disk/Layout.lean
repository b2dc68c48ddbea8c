import Mathlib.Data.List.AList
import Gokvm.Disk.Image

/-! # Opening a QCOW2 image

`readHeader` and `open` of `qcow2.go` and the layout validation of
`qcow2_layout.go`: every host cluster is claimed by at most one owner, and every
claimed cluster has refcount one.
-/

namespace Gokvm.Disk

open Lib
open Prog (fail read update query attempt)

def qcow2OwnershipPageClusters : Nat := 4096
def qcow2MaxOwnershipPages : Nat := (64 <<< 20) / (qcow2OwnershipPageClusters / 8)

/-- The words of an ownership page: one bit for each of its host clusters. -/
abbrev OwnershipPage := Nat → Nat

abbrev ClusterOwners := AList (fun _ : Nat => OwnershipPage)

/-- The page of a cluster, a new one where the map has none. -/
def ownershipPage (owners : ClusterOwners) (pageIndex : Nat) : Except GoError OwnershipPage :=
  match owners.lookup pageIndex with
  | some page => .ok page
  | none =>
    if owners.entries.length ≥ qcow2MaxOwnershipPages then
      .error (.new "qcow2: fragmented image exceeds validation memory limit")
    else .ok (fun _ => 0)

/-- Sets the bit of a cluster in its page, unless it is set already. -/
def markCluster (clusterSize : Nat) (kind : String) (owners : ClusterOwners) (cluster : Nat)
    (page : OwnershipPage) : Except GoError ClusterOwners :=
  let bit := cluster % qcow2OwnershipPageClusters
  let mask := 1 <<< (bit % 64)
  if page (bit / 64) &&& mask ≠ 0 then
    .error (.errorf ("qcow2: overlapping " ++ kind ++ " at host offset %#x") [cluster * clusterSize])
  else
    .ok (owners.insert (cluster / qcow2OwnershipPageClusters)
      (Function.update page (bit / 64) (page (bit / 64) ||| mask)))

/-- One pass of the loop of `claim`. -/
def claimCluster (clusterSize : Nat) (kind : String) (owners : ClusterOwners) (cluster : Nat) :
    Except GoError ClusterOwners := do
  let page ← ownershipPage owners (cluster / qcow2OwnershipPageClusters)
  markCluster clusterSize kind owners cluster page

/-- Rejects every second reference to a host cluster. -/
def claim (owners : ClusterOwners) (offset length clusterSize : Nat) (kind : String) :
    Except GoError ClusterOwners :=
  let first := offset / clusterSize
  let count := (length + clusterSize - 1) / clusterSize
  (List.range' first count).foldlM (claimCluster clusterSize kind) owners

/-- One pass of the loop of `claimRefcountBlocks`. -/
def claimRefcountBlock (q : Image) (fileSize : Nat) (owners : ClusterOwners) (entry : Nat) :
    Except GoError ClusterOwners :=
  if entry = 0 then .ok owners
  else if entry &&& not64 qcow2RefcountOffsetMask ≠ 0 ∨ entry % q.clusterSize ≠ 0 then
    .error (.new "qcow2: invalid refcount block offset or reserved bits")
  else do
    qcow2FileRange fileSize entry q.clusterSize "refcount block"
    claim owners entry q.clusterSize q.clusterSize "refcount block"

def claimRefcountBlocks (q : Image) (owners : ClusterOwners) (fileSize : Nat) :
    Except GoError ClusterOwners :=
  q.refcountTable.foldlM (claimRefcountBlock q fileSize) owners

/-- One pass of the loop of `claimL2Tables`. -/
def claimL2Table (q : Image) (fileSize : Nat) (owners : ClusterOwners) (entry : Nat) :
    Except GoError ClusterOwners :=
  if entry = 0 then .ok owners
  else if entry &&& not64 (qcow2OffsetMask ||| qcow2OFlagCopied) ≠ 0 then
    .error (.new "qcow2: reserved l1 bits set")
  else
    let offset := clusterOffset entry
    if offset = 0 ∨ offset % q.clusterSize ≠ 0 then
      .error (.new "qcow2: invalid l2 table offset")
    else do
      qcow2FileRange fileSize offset q.clusterSize "l2 table"
      claim owners offset q.clusterSize q.clusterSize "l2 table"

def claimL2Tables (q : Image) (owners : ClusterOwners) (fileSize : Nat) :
    Except GoError ClusterOwners :=
  q.l1.foldlM (claimL2Table q fileSize) owners

/-- One pass of the loop of `checkRefcounts`. -/
def checkRefcount (cluster : Nat) : Op Unit := do
  let count ← refcount cluster
  if count ≠ 1 then
    fail (.errorf "qcow2: host cluster %#x has refcount %d, expected 1" [cluster, count])

/-- Host offsets of the clusters that `length` bytes at `offset` touch. -/
def clusterOffsets (clusterSize offset length : Nat) : List Nat :=
  (List.range ((length + clusterSize - 1) / clusterSize)).map (fun k => offset + k * clusterSize)

def checkRefcounts (offset length : Nat) : Op Unit := do
  let q ← read
  Prog.each checkRefcount (clusterOffsets q.clusterSize offset length)

/-- One pass of the loop of `validateDataMappings`. -/
def validateDataMapping (fileSize : Nat) (owners : ClusterOwners) (entry : Nat) :
    Op ClusterOwners := do
  let q ← read
  query (fun q => validateL2Entry q.version entry)
  let offset := clusterOffset entry
  if offset = 0 then pure owners
  else if offset % q.clusterSize ≠ 0 then fail (.new "qcow2: unaligned data cluster")
  else
    query (fun q => qcow2FileRange fileSize offset q.clusterSize "data cluster")
    let owners ← query (fun q => claim owners offset q.clusterSize q.clusterSize "data cluster")
    checkRefcounts offset q.clusterSize
    pure owners

def validateDataMappings (fileSize : Nat) (owners : ClusterOwners) (l2 : List Nat) :
    Op ClusterOwners :=
  Prog.fold (validateDataMapping fileSize) owners l2

/-- The three regions whose place the header gives. -/
def metadataRegions (q : Image) (h : Header) : List (Nat × Nat × String) :=
  [(0, q.clusterSize, "header"),
   (q.l1TableOffset, h.l1Size * 8, "l1 table"),
   (q.refcountTableOffset, h.refcountTableClusters * q.clusterSize, "refcount table")]

def claimRegion (q : Image) (fileSize : Nat) (owners : ClusterOwners)
    (region : Nat × Nat × String) : Except GoError ClusterOwners := do
  qcow2FileRange fileSize region.1 region.2.1 region.2.2
  claim owners region.1 region.2.1 q.clusterSize region.2.2

/-- The claims of `validateLayout` before it checks refcounts. -/
def claimMetadata (q : Image) (h : Header) (fileSize : Nat) : Except GoError ClusterOwners := do
  let owners ← (metadataRegions q h).foldlM (claimRegion q fileSize) ∅
  let owners ← claimRefcountBlocks q owners fileSize
  claimL2Tables q owners fileSize

/-- The last loop of `validateLayout`, over the L1 table. -/
def validateL2 (fileSize : Nat) (owners : ClusterOwners) (entry : Nat) : Op ClusterOwners := do
  if entry = 0 then pure owners
  else
    let q ← read
    let offset := clusterOffset entry
    checkRefcounts offset q.clusterSize
    let l2 ← readUint64Table offset q.l2Entries
    validateDataMappings fileSize owners l2

def validateLayout (h : Header) : Op Unit := do
  let fileSize ← fileStat
  let owners ← query (fun q => claimMetadata q h fileSize)
  let q ← read
  Prog.each (fun region => checkRefcounts region.1 region.2.1) (metadataRegions q h)
  Prog.each (fun entry => do
    if entry ≠ 0 then checkRefcounts entry q.clusterSize) q.refcountTable
  let _ ← Prog.fold (validateL2 fileSize) owners q.l1
  pure ()

/-- The fixed part of a header, decoded from its first 72 bytes. -/
def decodeHeader (b : Bytes) : Header where
  version := beNat (part b 4 4)
  backingFileOffset := beNat (part b 8 8)
  backingFileSize := beNat (part b 16 4)
  clusterBits := beNat (part b 20 4)
  size := beNat (part b 24 8)
  cryptMethod := beNat (part b 32 4)
  l1Size := beNat (part b 36 4)
  l1TableOffset := beNat (part b 40 8)
  refcountTableOffset := beNat (part b 48 8)
  refcountTableClusters := beNat (part b 56 4)
  nbSnapshots := beNat (part b 60 4)
  snapshotsOffset := beNat (part b 64 8)
  incompatibleFeatures := 0
  autoclearFeatures := 0
  refcountOrder := qcow2RefcountOrder16
  headerLength := qcow2HeaderV2Len

/-- The fields that only version 3 has; `b` starts at byte 72 of the file. -/
def decodeHeaderV3 (h : Header) (b : Bytes) : Header :=
  { h with
    incompatibleFeatures := beNat (part b 0 8)
    autoclearFeatures := beNat (part b 16 8)
    refcountOrder := beNat (part b 24 4)
    headerLength := beNat (part b 28 4) }

/-- The switch over the version in `readHeader`. -/
def readHeaderVersion (fixed : Header) : Op Header := do
  if fixed.version = qcow2Version2 then pure fixed
  else if fixed.version = qcow2Version3 then
    match ← attempt (fileReadAt (qcow2HeaderV3Len - qcow2HeaderV2Len) qcow2HeaderV2Len) with
    | .error err => fail (.wrap "qcow2: read v3 header: %w" err)
    | .ok b => pure (decodeHeaderV3 fixed b)
  else fail (.errorf "qcow2: unsupported version %d" [fixed.version])

def validateHeaderCluster (h : Header) : Op Unit := do
  match ← attempt (fileReadAt (1 <<< h.clusterBits) 0) with
  | .error err => fail (.wrap "qcow2: read header cluster: %w" err)
  | .ok cluster => query (fun _ => checkHeaderCluster h cluster)

def readHeader : Op Header := do
  match ← attempt (fileReadAt qcow2HeaderV2Len 0) with
  | .error err => fail (.wrap "qcow2: read header: %w" err)
  | .ok b =>
    if part b 0 4 ≠ qcow2Magic then fail (.new "qcow2: invalid magic")
    else
      let h ← readHeaderVersion (decodeHeader b)
      query (fun _ => validateHeader h)
      validateHeaderCluster h
      pure h

/-- `wrap` around a table read of `open`. -/
def readTable (what : String) (off entries : Nat) : Op (List Nat) := do
  match ← attempt (readUint64Table off entries) with
  | .error err => fail (.wrap what err)
  | .ok table => pure table

/-- The part of `open` after the header has been read. -/
def openTables (h : Header) : Op Unit := do
  let clusterSize := 1 <<< h.clusterBits
  update (fun q =>
    { q with
      version := h.version
      size := h.size
      clusterSize := clusterSize
      l1TableOffset := h.l1TableOffset
      refcountTableOffset := h.refcountTableOffset
      l2Entries := clusterSize / 8
      refcountBlockEntries := clusterSize / 2 })
  let l1Size ← query (fun _ => checkedInt h.l1Size)
  let l1 ← readTable "qcow2: read l1 table: %w" h.l1TableOffset l1Size
  update (fun q => { q with l1 := l1 })
  let refcountLen ← query (fun _ => checkedInt (h.refcountTableClusters * clusterSize / 8))
  let refcountTable ← readTable "qcow2: read refcount table: %w" h.refcountTableOffset refcountLen
  update (fun q => { q with refcountTable := refcountTable })
  validateLayout h

def openImage : Op Unit := do
  let h ← readHeader
  openTables h

/-- The image value `openQCOW2` starts from. -/
def newImage (file : Store) (replies : List Reply) : Image where
  file := file
  replies := replies
  version := 0
  writeFault := none
  size := 0
  clusterSize := 0
  l1TableOffset := 0
  l1 := []
  refcountTableOffset := 0
  refcountTable := []
  refcountBlockEntries := 0
  refcountCache := fun _ => none
  refcountBlocks := []
  refcountCacheNext := 0
  l2Entries := 0
  l2Cache := fun _ => none

/-- `openQCOW2` on a host that answers with `replies`. -/
def openQCOW2 (file : Store) (replies : List Reply) : Except GoError Image :=
  match openImage (newImage file replies) with
  | (.ok (), q) => .ok q
  | (.error err, _) => .error err

end Gokvm.Disk
