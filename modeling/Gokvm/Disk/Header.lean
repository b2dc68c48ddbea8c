import Gokvm.Disk.Host

/-! # QCOW2 headers

The header of `qcow2.go` and the checks of `qcow2_header.go`. Sums and products of its fields stay
far under 2^64, so they are natural numbers here.
-/

namespace Gokvm.Disk

open Lib

def maxInt64 : Nat := 2 ^ 63 - 1

/-- `^x` of a `uint64`. -/
def not64 (x : Nat) : Nat := 2 ^ 64 - 1 - x

def qcow2Version2 : Nat := 2
def qcow2Version3 : Nat := 3

def qcow2HeaderV2Len : Nat := 72
def qcow2HeaderV3Len : Nat := 104

def qcow2CryptNone : Nat := 0

def qcow2IncompatibleDirty : Nat := 1 <<< 0
def qcow2IncompatibleCorrupt : Nat := 1 <<< 1
def qcow2IncompatibleExternal : Nat := 1 <<< 2
def qcow2IncompatibleCompression : Nat := 1 <<< 3
def qcow2IncompatibleExtendedL2 : Nat := 1 <<< 4

def qcow2RefcountOrder16 : Nat := 4

def qcow2MaxL1Bytes : Nat := 32 <<< 20
def qcow2MaxRefcountTableBytes : Nat := 8 <<< 20

def qcow2ExtensionBackingFormat : Nat := 0xe2792aca
def qcow2ExtensionFeatureNames : Nat := 0x6803f857
def qcow2ExtensionBitmaps : Nat := 0x23852875
def qcow2ExtensionEncryption : Nat := 0x0537be77
def qcow2ExtensionExternalData : Nat := 0x44415441

def qcow2FeatureNameEntrySize : Nat := 48

/-- `"QFI\xfb"` -/
def qcow2Magic : Bytes := [0x51, 0x46, 0x49, 0xfb]

structure Header where
  version : Nat
  backingFileOffset : Nat
  backingFileSize : Nat
  clusterBits : Nat
  size : Nat
  cryptMethod : Nat
  l1Size : Nat
  l1TableOffset : Nat
  refcountTableOffset : Nat
  refcountTableClusters : Nat
  nbSnapshots : Nat
  snapshotsOffset : Nat
  incompatibleFeatures : Nat
  autoclearFeatures : Nat
  refcountOrder : Nat
  headerLength : Nat
  deriving Repr, DecidableEq

def alignUp (v align : Nat) : Nat :=
  if v % align = 0 then v else v + align - v % align

def validateHeaderGeometry (h : Header) : Except GoError Unit :=
  let clusterSize := 1 <<< h.clusterBits
  let l1Bytes := h.l1Size * 8
  let refcountBytes := h.refcountTableClusters * clusterSize
  let l1Coverage := clusterSize * (clusterSize / 8)
  let requiredL1 := h.size / l1Coverage + (if h.size % l1Coverage ≠ 0 then 1 else 0)
  refuse [
    (h.headerLength > clusterSize, .new "qcow2: header exceeds cluster size"),
    (l1Bytes > qcow2MaxL1Bytes, .new "qcow2: l1 table exceeds supported size"),
    (refcountBytes > qcow2MaxRefcountTableBytes,
      .new "qcow2: refcount table exceeds supported size"),
    (h.l1TableOffset > maxInt64 - l1Bytes ∨ h.refcountTableOffset > maxInt64 - refcountBytes,
      .new "qcow2: metadata table offset exceeds supported file size"),
    (h.l1Size < requiredL1, .new "qcow2: l1 table is too small for virtual disk size")]

def knownIncompatible : Nat :=
  qcow2IncompatibleDirty ||| qcow2IncompatibleCorrupt ||| qcow2IncompatibleExternal |||
    qcow2IncompatibleCompression ||| qcow2IncompatibleExtendedL2

def validateHeader (h : Header) : Except GoError Unit := do
  refuse [
    (h.backingFileOffset ≠ 0 ∨ h.backingFileSize ≠ 0,
      .new "qcow2: backing files are unsupported"),
    (h.clusterBits < 9 ∨ h.clusterBits > 21,
      .errorf "qcow2: unsupported cluster_bits %d" [h.clusterBits]),
    (h.size > maxInt64, .new "qcow2: virtual disk is too large"),
    (h.cryptMethod ≠ qcow2CryptNone, .new "qcow2: encryption is unsupported"),
    (h.l1Size = 0, .new "qcow2: empty l1 table"),
    (h.l1TableOffset = 0 ∨ h.refcountTableOffset = 0, .new "qcow2: missing metadata table"),
    (h.refcountTableClusters = 0, .new "qcow2: missing refcount table"),
    (h.nbSnapshots ≠ 0 ∨ h.snapshotsOffset ≠ 0,
      .new "qcow2: internal snapshots are unsupported"),
    (h.incompatibleFeatures &&& qcow2IncompatibleDirty ≠ 0,
      .new "qcow2: dirty images are unsupported"),
    (h.incompatibleFeatures &&& qcow2IncompatibleCorrupt ≠ 0,
      .new "qcow2: corrupt images are unsupported"),
    (h.incompatibleFeatures &&& qcow2IncompatibleExternal ≠ 0,
      .new "qcow2: external data files are unsupported"),
    (h.incompatibleFeatures &&& qcow2IncompatibleCompression ≠ 0,
      .new "qcow2: non-default compression is unsupported"),
    (h.incompatibleFeatures &&& qcow2IncompatibleExtendedL2 ≠ 0,
      .new "qcow2: extended l2 entries are unsupported"),
    (h.incompatibleFeatures &&& not64 knownIncompatible ≠ 0,
      .errorf "qcow2: unknown incompatible features %#x"
        [h.incompatibleFeatures &&& not64 knownIncompatible]),
    (h.autoclearFeatures ≠ 0,
      .errorf "qcow2: autoclear features are unsupported: %#x" [h.autoclearFeatures]),
    (h.refcountOrder ≠ qcow2RefcountOrder16,
      .errorf "qcow2: unsupported refcount_order %d" [h.refcountOrder]),
    (h.version = qcow2Version3 ∧ (h.headerLength < qcow2HeaderV3Len ∨ h.headerLength % 8 ≠ 0),
      .errorf "qcow2: invalid header_length %d" [h.headerLength]),
    (h.l1TableOffset % (1 <<< h.clusterBits) ≠ 0 ∨
        h.refcountTableOffset % (1 <<< h.clusterBits) ≠ 0,
      .new "qcow2: unaligned metadata table")]
  validateHeaderGeometry h

/-- Entry of the feature name table at `offset`: its type and its bit number. -/
def featureNameValid (data : Bytes) (offset : Nat) : Bool :=
  (data.getD offset 0).toNat ≤ 2 && (data.getD (offset + 1) 0).toNat ≤ 63

def validateHeaderExtension (kind : Nat) (data : Bytes) : Except GoError Unit :=
  if kind = qcow2ExtensionBackingFormat then
    .error (.new "qcow2: backing format extension is unsupported without a backing file")
  else if kind = qcow2ExtensionFeatureNames then
    if data.length % qcow2FeatureNameEntrySize ≠ 0 then
      .error (.new "qcow2: invalid feature name table length")
    else if (List.range (data.length / qcow2FeatureNameEntrySize)).all
        (fun i => featureNameValid data (i * qcow2FeatureNameEntrySize)) then
      .ok ()
    else
      .error (.new "qcow2: invalid feature name table entry")
  else if kind = qcow2ExtensionBitmaps then
    .error (.new "qcow2: bitmap extensions are unsupported")
  else if kind = qcow2ExtensionEncryption then
    .error (.new "qcow2: encryption extension requires unsupported encryption method")
  else if kind = qcow2ExtensionExternalData then
    .error (.new "qcow2: external data extension requires unsupported external data feature")
  else
    -- Unknown extensions are compatible metadata and are left alone.
    .ok ()

/-- The extension loop. Every pass consumes eight bytes or more, so the area's length is enough
    fuel. -/
def validateHeaderExtensionsFrom : (fuel : Nat) → (seen : List Nat) → Bytes → Except GoError Unit
  | 0, _, area => if area.length ≠ 0 then .error .outOfFuel else .ok ()
  | fuel + 1, seen, area =>
    if area.length = 0 then .ok ()
    else if area.length < 8 then .error (.new "qcow2: truncated header extension")
    else
      let kind := beNat (part area 0 4)
      let length := beNat (part area 4 4)
      if kind = 0 then
        if length ≠ 0 then .error (.new "qcow2: invalid header extension terminator")
        else .ok ()
      else if kind ∈ seen then
        .error (.errorf "qcow2: duplicate header extension %#x" [kind])
      else
        let padded := alignUp length 8
        if padded > area.length - 8 then
          .error (.new "qcow2: header extension exceeds first cluster")
        else do
          validateHeaderExtension kind (part area 8 length)
          validateHeaderExtensionsFrom fuel (kind :: seen) (area.drop (8 + padded))

def validateHeaderExtensions (area : Bytes) : Except GoError Unit :=
  validateHeaderExtensionsFrom area.length [] area

/-- The part of `validateHeaderCluster` after the first cluster has been read. -/
def checkHeaderCluster (h : Header) (cluster : Bytes) : Except GoError Unit := do
  if h.version = qcow2Version3 ∧ h.headerLength > qcow2HeaderV3Len then
    refuse [
      ((cluster.getD 104 0) ≠ 0,
        .new "qcow2: compression type requires unsupported incompatible feature"),
      ((part cluster 105 7).any (fun value => value ≠ 0), .new "qcow2: nonzero header padding")]
  validateHeaderExtensions (cluster.drop h.headerLength)

end Gokvm.Disk
