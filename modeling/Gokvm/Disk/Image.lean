import Gokvm.Disk.Header

/-! # QCOW2 images

The image state of `qcow2.go`, its metadata writes (`qcow2_write.go`), and the `ReadAt` and
`WriteAt` that serve the guest. `Op` programs run under the image mutex, so one call is one
program; a failing program keeps the changes it made before, as a Go function that returns an
error does.
-/

namespace Gokvm.Disk

open Lib Function

def qcow2RefcountCacheBytes : Nat := 4 * 1024 * 1024

def qcow2OFlagZero : Nat := 1
def qcow2OFlagCompressed : Nat := 1 <<< 62
def qcow2OFlagCopied : Nat := 1 <<< 63

def qcow2OffsetMask : Nat := 0x00fffffffffffe00
def qcow2RefcountOffsetMask : Nat := not64 0x1ff
def qcow2ReservedL2Mask : Nat := 0x3f000000000001fe

/-- A cached refcount block; `data` is `none` once it is invalidated. -/
structure RefcountBlock where
  offset : Nat
  data : Option Bytes
  deriving Repr, DecidableEq

/-- The fields of `qcow2Image`, with the open file and what its host will answer. -/
structure Image where
  file : Store
  replies : List Reply
  version : Nat
  writeFault : Option GoError
  size : Nat
  clusterSize : Nat
  l1TableOffset : Nat
  l1 : List Nat
  refcountTableOffset : Nat
  refcountTable : List Nat
  refcountBlockEntries : Nat
  refcountCache : Nat → Option Nat
  refcountBlocks : List RefcountBlock
  refcountCacheNext : Nat
  l2Entries : Nat
  l2Cache : Nat → Option (List Nat)

abbrev Op (α : Type) := Prog Image GoError α

open Prog (fail read update query attempt)

/-- An index expression of the source. -/
def item (table : List Nat) (i : Nat) : Except GoError Nat :=
  match table[i]? with
  | some v => .ok v
  | none => .error .indexPanic

/-! ## Host operations -/

def nextReply : Op Reply := fun q =>
  match q.replies with
  | [] => (.ok .done, q)
  | reply :: rest => (.ok reply, { q with replies := rest })

def fileStat : Op Nat := do
  match ← nextReply with
  | .done => query (fun q => .ok q.file.size)
  | _ => fail (.host .stat 0)

/-- `ReadAt` of `n` bytes: all of them, or `io.EOF` when the file ends first. -/
def fileReadAt (n off : Nat) : Op Bytes := do
  match ← nextReply with
  | .done =>
    query (fun q =>
      if n = 0 ∨ off + n ≤ q.file.size then .ok (q.file.read off n) else .error .eof)
  | _ => fail (.host .read off)

/-- `os.File.WriteAt`, which reports an error whenever it writes less than asked. -/
def fileWriteAt (data : Bytes) (off : Nat) : Op Unit := do
  match ← nextReply with
  | .done => update (fun q => { q with file := q.file.write off data })
  | .short n | .failed n =>
    update (fun q => { q with file := q.file.write off (data.take n) })
    fail (.host .write off)

def fileTruncate (n : Nat) : Op Unit := do
  match ← nextReply with
  | .done => update (fun q => { q with file := q.file.resize n })
  | _ => fail (.host .truncate n)

/-! ## Metadata writes -/

/-- A metadata writer may also report a short write without an error. -/
def writeMetadata (data : Bytes) (offset : Nat) : Op Unit := do
  match ← nextReply with
  | .done => update (fun q => { q with file := q.file.write offset data })
  | .short n =>
    update (fun q => { q with file := q.file.write offset (data.take n) })
    if n < data.length then fail .shortWrite
  | .failed n =>
    update (fun q => { q with file := q.file.write offset (data.take n) })
    fail (.host .write offset)

def disableWrites {α : Type} (err : GoError) : Op α := do
  let fault := GoError.wrap "qcow2: metadata recovery failed; further writes disabled: %w" err
  update (fun q => { q with writeFault := some fault })
  fail fault

/-- Restores the previous pointer even after a short write: the entry must be known before its
    target is reclaimed or cached metadata reused. -/
def writeMetadataEntry (offset previous next : Nat) : Op Unit := do
  match ← attempt (writeMetadata (beBytes 8 next) offset) with
  | .ok () => pure ()
  | .error err =>
    match ← attempt (writeMetadata (beBytes 8 previous) offset) with
    | .error restoreErr => disableWrites (.join err restoreErr)
    | .ok () => fail err

/-! ## Table entries -/

def clusterOffset (entry : Nat) : Nat := entry &&& qcow2OffsetMask

def checkedInt (v : Nat) : Except GoError Nat :=
  if v > maxInt64 then .error (.new "qcow2: value is too large") else .ok v

def validateL2Entry (version entry : Nat) : Except GoError Unit :=
  refuse [
    (version = qcow2Version2 ∧ entry &&& qcow2OFlagZero ≠ 0,
      .new "qcow2: zero cluster flag is invalid in version 2"),
    (clusterOffset entry = 0 ∧ entry &&& qcow2OFlagCopied ≠ 0,
      .new "qcow2: copied cluster has no host offset"),
    (entry &&& qcow2OFlagCompressed ≠ 0, .new "qcow2: compressed clusters are unsupported"),
    (entry &&& qcow2ReservedL2Mask ≠ 0,
      .errorf "qcow2: reserved l2 bits set: %#x" [entry &&& qcow2ReservedL2Mask])]

def qcow2FileRange (fileSize offset length : Nat) (kind : String) : Except GoError Unit :=
  refuse [(offset > fileSize ∨ length > fileSize - offset,
    .new ("qcow2: " ++ kind ++ " exceeds image file bounds"))]

/-- The `entries` big-endian words of a byte string. -/
def uint64Table (buf : Bytes) (entries : Nat) : List Nat :=
  (List.range entries).map (fun i => beNat (part buf (i * 8) 8))

def readUint64Table (off entries : Nat) : Op (List Nat) := do
  if entries > qcow2MaxL1Bytes / 8 then fail (.new "qcow2: table is too large")
  let fileSize ← fileStat
  query (fun _ => qcow2FileRange fileSize off (entries * 8) "metadata table")
  let buf ← fileReadAt (entries * 8) off
  pure (uint64Table buf entries)

/-! ## Refcounts -/

/-- Where a host cluster's refcount is stored: the offset of its block, its index, and whether the
    block exists. -/
def refcountLocation (q : Image) (clusterOff : Nat) : Except GoError (Nat × Nat × Bool) :=
  if clusterOff % q.clusterSize ≠ 0 then .error (.new "qcow2: unaligned cluster")
  else
    let clusterIndex := clusterOff / q.clusterSize
    let tableIndex := clusterIndex / q.refcountBlockEntries
    let blockIndex := clusterIndex % q.refcountBlockEntries
    match q.refcountTable[tableIndex]? with
    | none => .error (.new "qcow2: refcount table is too small")
    | some entry =>
      if entry = 0 then .ok (0, blockIndex, false)
      else
        let refBlockOff := entry &&& qcow2RefcountOffsetMask
        if refBlockOff % q.clusterSize ≠ 0 then
          .error (.new "qcow2: unaligned refcount block")
        else .ok (refBlockOff, blockIndex, true)

/-- The index map without the block at `index`. An invalidated block has left the
    map already. -/
def evictRefcountBlock (q : Image) (index : Nat) : Nat → Option Nat :=
  match q.refcountBlocks[index]? with
  | some ⟨oldOffset, some _⟩ => update q.refcountCache oldOffset none
  | _ => q.refcountCache

/-- FIFO replacement over a bounded number of blocks. -/
def cacheRefcountBlock (offset : Nat) (block : Bytes) (q : Image) : Image :=
  match q.refcountCache offset with
  | some index =>
    { q with
      refcountBlocks := q.refcountBlocks.modify index (fun old => { old with data := some block }) }
  | none =>
    let limit := qcow2RefcountCacheBytes / q.clusterSize
    let entry : RefcountBlock := { offset := offset, data := some block }
    if q.refcountBlocks.length < limit then
      { q with
        refcountBlocks := q.refcountBlocks ++ [entry]
        refcountCache := update q.refcountCache offset (some q.refcountBlocks.length) }
    else
      let index := q.refcountCacheNext
      { q with
        refcountBlocks := q.refcountBlocks.set index entry
        refcountCacheNext := (index + 1) % limit
        refcountCache := update (evictRefcountBlock q index) offset (some index) }

def invalidateRefcountBlock (offset : Nat) (q : Image) : Image :=
  match q.refcountCache offset with
  | some index =>
    { q with
      refcountBlocks := q.refcountBlocks.modify index (fun old => { old with data := none })
      refcountCache := update q.refcountCache offset none }
  | none => q

def blockRefcount (block : Bytes) (blockIndex : Nat) : Nat := beNat (part block (blockIndex * 2) 2)

def cachedBlock (q : Image) (index : Nat) : Except GoError Bytes :=
  match q.refcountBlocks[index]? with
  | some ⟨_, some data⟩ => .ok data
  | _ => .error .indexPanic

def refcount (clusterOff : Nat) : Op Nat := do
  let (refBlockOff, blockIndex, ok) ← query (fun q => refcountLocation q clusterOff)
  if ¬ ok then pure 0
  else
    let q ← read
    match q.refcountCache refBlockOff with
    | some index => do
      let block ← query (fun q => cachedBlock q index)
      pure (blockRefcount block blockIndex)
    | none => do
      let block ← fileReadAt q.clusterSize refBlockOff
      update (cacheRefcountBlock refBlockOff block)
      pure (blockRefcount block blockIndex)

def setRefcount (clusterOff count : Nat) : Op Unit := do
  let (refBlockOff, blockIndex, ok) ← query (fun q => refcountLocation q clusterOff)
  if ¬ ok then fail (.new "qcow2: missing refcount block")
  else
    match ← attempt (writeMetadata (beBytes 2 count) (refBlockOff + blockIndex * 2)) with
    | .error err => do
      -- A partial write may have changed the stored value.
      update (invalidateRefcountBlock refBlockOff)
      fail err
    | .ok () =>
      update (fun q =>
        match q.refcountCache refBlockOff with
        | some index =>
          { q with
            refcountBlocks := q.refcountBlocks.modify index (fun old =>
              { old with data := old.data.map (fun d => put d (blockIndex * 2) (beBytes 2 count)) }) }
        | none => q)

/-! ## Allocation -/

/-- The capacity loop. Every pass enters the next refcount block, so the table's length and one is
    enough fuel. -/
def validateAppendCapacityFrom (q : Image) : (fuel offset : Nat) → Except GoError Unit
  | 0, _ => .error .outOfFuel
  | fuel + 1, offset =>
    if offset > maxInt64 - q.clusterSize then .error (.new "qcow2: host image is too large")
    else
      match refcountLocation q offset with
      | .error err => .error err
      | .ok (_, _, true) => .ok ()
      | .ok (_, _, false) =>
        if offset > maxInt64 - 2 * q.clusterSize then
          .error (.new "qcow2: host image is too large")
        else
          let next := offset + q.clusterSize
          if next / q.clusterSize / q.refcountBlockEntries =
              offset / q.clusterSize / q.refcountBlockEntries then .ok ()
          else validateAppendCapacityFrom q fuel next

def validateAppendCapacity (q : Image) (offset : Nat) : Except GoError Unit :=
  validateAppendCapacityFrom q (q.refcountTable.length + 1) offset

def appendRefcountBlock (offset oldSize : Nat) : Op Unit := do
  let q ← read
  let clusterIndex := offset / q.clusterSize
  let tableIndex := clusterIndex / q.refcountBlockEntries
  let blockIndex := clusterIndex % q.refcountBlockEntries
  let block := put (List.replicate q.clusterSize 0) (blockIndex * 2) (beBytes 2 1)
  match ← attempt (writeMetadata block offset) with
  | .error err =>
    let writeErr := GoError.wrap "qcow2: append refcount block: %w" err
    match ← attempt (fileTruncate oldSize) with
    | .error truncateErr => disableWrites (.join writeErr truncateErr)
    | .ok () => fail writeErr
  | .ok () =>
    let tableOffset := q.refcountTableOffset + tableIndex * 8
    match ← attempt (writeMetadataEntry tableOffset 0 offset) with
    | .error err =>
      let q ← read
      if q.writeFault.isSome then fail err
      else
        match ← attempt (fileTruncate oldSize) with
        | .error truncateErr => disableWrites (.join err truncateErr)
        | .ok () => fail err
    | .ok () =>
      update (fun q => { q with refcountTable := q.refcountTable.set tableIndex offset })
      update (cacheRefcountBlock offset block)

/-- The append loop: the final offset and the size to cut back to. Every pass fills a free table
    entry. -/
def appendRefcountBlocks : (fuel offset oldSize : Nat) → Op (Nat × Nat)
  | 0, _, _ => fail .outOfFuel
  | fuel + 1, offset, oldSize => do
    let (_, _, found) ← query (fun q => refcountLocation q offset)
    if found then pure (offset, oldSize)
    else
      appendRefcountBlock offset oldSize
      let q ← read
      appendRefcountBlocks fuel (offset + q.clusterSize) (offset + q.clusterSize)

/-- The recovery that `allocateCluster` and `rollbackNewCluster` share: the refcount is cleared,
    then the cluster is cut off. If that fails it stays and later writes are rejected. -/
def reclaimCluster {α : Type} (offset oldSize : Nat) (err : GoError) : Op α := do
  match ← attempt (setRefcount offset 0) with
  | .error restoreErr => disableWrites (.join err restoreErr)
  | .ok () =>
    match ← attempt (fileTruncate oldSize) with
    | .error truncateErr => disableWrites (.join err truncateErr)
    | .ok () => fail err

/-- The end of `allocateCluster`, behind its loop. -/
def extendFile (offset oldSize : Nat) : Op Nat := do
  let q ← read
  fileTruncate (offset + q.clusterSize)
  match ← attempt (setRefcount offset 1) with
  | .ok () => pure offset
  | .error err => reclaimCluster offset oldSize err

/-- Appends a zeroed and counted cluster, after missing refcount blocks, which count themselves. -/
def allocateCluster : Op Nat := do
  let size ← fileStat
  let q ← read
  let aligned := alignUp size q.clusterSize
  query (fun q => validateAppendCapacity q aligned)
  let (offset, oldSize) ← appendRefcountBlocks (q.refcountTable.length + 1) aligned size
  extendFile offset oldSize

/-- A newly appended cluster is reclaimed only after its pointer was restored. -/
def rollbackNewCluster {α : Type} (offset : Nat) (writeErr : GoError) : Op α := do
  let q ← read
  if q.writeFault.isSome then fail writeErr
  else reclaimCluster offset offset writeErr

/-! ## L1 and L2 tables -/

def tableIndexes (q : Image) (guestOff : Nat) : Except GoError (Nat × Nat) :=
  let guestCluster := guestOff / q.clusterSize
  let l1Index := guestCluster / q.l2Entries
  let l2Index := guestCluster % q.l2Entries
  if l1Index ≥ q.l1.length then .error (.new "qcow2: l1 table is too small")
  else .ok (l1Index, l2Index)

def loadL2 (l1Index : Nat) : Op (List Nat) := do
  let q ← read
  match q.l2Cache l1Index with
  | some l2 => pure l2
  | none => do
    let entry ← query (fun q => item q.l1 l1Index)
    let l2Off := clusterOffset entry
    if l2Off = 0 then fail (.new "qcow2: missing l2 table")
    else if l2Off % q.clusterSize ≠ 0 then fail (.new "qcow2: unaligned l2 table")
    else
      let l2Len ← query (fun q => checkedInt q.l2Entries)
      match ← attempt (readUint64Table l2Off l2Len) with
      | .error err => fail (.wrap "qcow2: read l2 table: %w" err)
      | .ok l2 =>
        update (fun q => { q with l2Cache := update q.l2Cache l1Index (some l2) })
        pure l2

/-- `none` when the guest region has no L2 table. -/
def l2Table (guestOff : Nat) : Op (Option (List Nat) × Nat) := do
  let (l1Index, l2Index) ← query (fun q => tableIndexes q guestOff)
  let entry ← query (fun q =>
    if l1Index ≥ q.l1.length then .error (.new "qcow2: l1 table is too small")
    else item q.l1 l1Index)
  if clusterOffset entry = 0 then pure (none, l2Index)
  else
    let l2 ← loadL2 l1Index
    pure (some l2, l2Index)

def updateL1Entry (l1Index entry : Nat) : Op Unit := do
  let q ← read
  let previous ← query (fun q => item q.l1 l1Index)
  writeMetadataEntry (q.l1TableOffset + l1Index * 8) previous entry
  update (fun q => { q with l1 := q.l1.set l1Index entry })

def updateL2Entry (l1Index l2Index entry : Nat) : Op Unit := do
  let l2 ← loadL2 l1Index
  let l1Entry ← query (fun q => item q.l1 l1Index)
  let l2Off := clusterOffset l1Entry
  if l2Off = 0 then fail (.new "qcow2: cannot update an unpublished l2 table")
  else
    let previous ← query (fun _ => item l2 l2Index)
    writeMetadataEntry (l2Off + l2Index * 8) previous entry
    -- The cached table is the same slice.
    update (fun q =>
      { q with l2Cache := update q.l2Cache l1Index (some (l2.set l2Index entry)) })

def zeroCluster (clusterOff : Nat) : Op Unit := do
  let zeroLen ← query (fun q => checkedInt q.clusterSize)
  fileWriteAt (List.replicate zeroLen 0) clusterOff

def prepareMappedCluster (l1Index l2Index entry clusterOff : Nat) : Op Unit := do
  let count ← refcount clusterOff
  if count ≠ 1 then fail (.errorf "qcow2: copy-on-write refcount %d is unsupported" [count])
  else if entry &&& qcow2OFlagZero = 0 then pure ()
  else
    zeroCluster clusterOff
    updateL2Entry l1Index l2Index (clusterOff ||| qcow2OFlagCopied)

def ensureL2Table (l1Index : Nat) : Op (List Nat) := do
  let q ← read
  match q.l2Cache l1Index with
  | some l2 => pure l2
  | none => do
    if l1Index ≥ q.l1.length then fail (.new "qcow2: l1 table is too small")
    let entry ← query (fun q => item q.l1 l1Index)
    if entry ≠ 0 then
      let l2Off := clusterOffset entry
      if l2Off = 0 then fail (.new "qcow2: invalid l1 entry")
      else
        let count ← refcount l2Off
        if count ≠ 1 then
          fail (.errorf "qcow2: l2 copy-on-write refcount %d is unsupported" [count])
        else loadL2 l1Index
    else
      let l2Len ← query (fun q => checkedInt q.l2Entries)
      let l2Off ← allocateCluster
      let l2 := List.replicate l2Len 0
      match ← attempt (updateL1Entry l1Index (l2Off ||| qcow2OFlagCopied)) with
      | .error err => rollbackNewCluster l2Off err
      | .ok () =>
        update (fun q => { q with l2Cache := update q.l2Cache l1Index (some l2) })
        pure l2

/-! ## Guest accesses -/

/-- Host offset of a guest byte, or `none` where the guest reads zeros. -/
def hostOffset (guestOff : Nat) : Op (Option Nat) := do
  let (l2, l2Index) ← l2Table guestOff
  match l2 with
  | none => pure none
  | some l2 => do
    let entry ← query (fun _ => item l2 l2Index)
    if entry = 0 then pure none
    else
      query (fun q => validateL2Entry q.version entry)
      if entry &&& qcow2OFlagZero ≠ 0 then pure none
      else
        let clusterOff := clusterOffset entry
        if clusterOff = 0 then pure none
        else
          let q ← read
          pure (some (clusterOff + (guestOff &&& (q.clusterSize - 1))))

def ensureWritableCluster (guestOff : Nat) : Op Nat := do
  let (l1Index, l2Index) ← query (fun q => tableIndexes q guestOff)
  let l2 ← ensureL2Table l1Index
  let entry ← query (fun _ => item l2 l2Index)
  query (fun q => validateL2Entry q.version entry)
  let q ← read
  let clusterOff := clusterOffset entry
  if entry ≠ 0 ∧ clusterOff ≠ 0 then
    prepareMappedCluster l1Index l2Index entry clusterOff
    pure (clusterOff + (guestOff &&& (q.clusterSize - 1)))
  else
    let clusterOff ← allocateCluster
    match ← attempt (updateL2Entry l1Index l2Index (clusterOff ||| qcow2OFlagCopied)) with
    | .error err => rollbackNewCluster clusterOff err
    | .ok () => pure (clusterOff + (guestOff &&& (q.clusterSize - 1)))

/-- Bytes of a request from `guestOff` on that lie in one guest cluster. -/
def chunkLength (q : Image) (guestOff left : Nat) : Nat :=
  min left (q.clusterSize - (guestOff &&& (q.clusterSize - 1)))

def readChunk (guestOff chunk : Nat) : Op Bytes := do
  match ← hostOffset guestOff with
  | none => pure (List.replicate chunk 0)
  | some hostOff => fileReadAt chunk hostOff

/-- The read loop: `out` holds the bytes read so far. Every pass reads a byte or more, so their
    number is enough fuel. -/
def readLoop (off remaining : Nat) : (fuel : Nat) → Bytes → Op (Bytes × Option GoError)
  | 0, out => pure (out, none)
  | fuel + 1, out => do
    if out.length < remaining then
      let q ← read
      let guestOff := off + out.length
      match ← attempt (readChunk guestOff (chunkLength q guestOff (remaining - out.length))) with
      | .error err => pure (out, some err)
      | .ok bytes => readLoop off remaining fuel (out ++ bytes)
    else pure (out, none)

/-- `ReadAt` into a buffer of `n` bytes: the bytes stored in it and the error. -/
def readAt (n : Nat) (off : Int) : Op (Bytes × Option GoError) := do
  let q ← read
  if n = 0 then pure ([], none)
  else if off < 0 then pure ([], some (.new "qcow2: negative read offset"))
  else if off.toNat ≥ q.size then pure ([], some .eof)
  else
    let remaining := min n (q.size - off.toNat)
    match ← readLoop off.toNat remaining remaining [] with
    | (out, some err) => pure (out, some err)
    | (out, none) => if out.length < n then pure (out, some .eof) else pure (out, none)

def writeChunk (guestOff : Nat) (buf : Bytes) : Op Unit := do
  let hostOff ← ensureWritableCluster guestOff
  fileWriteAt buf hostOff

/-- The write loop: `done` bytes of `b` are on the disk. -/
def writeLoop (b : Bytes) (off : Nat) : (fuel done : Nat) → Op (Nat × Option GoError)
  | 0, done => pure (done, none)
  | fuel + 1, done => do
    if done < b.length then
      let q ← read
      let guestOff := off + done
      let chunk := chunkLength q guestOff (b.length - done)
      match ← attempt (writeChunk guestOff (part b done chunk)) with
      | .error err => pure (done, some err)
      | .ok () => writeLoop b off fuel (done + chunk)
    else pure (done, none)

/-- `WriteAt`: the number of bytes written and the error. -/
def writeAt (b : Bytes) (off : Int) : Op (Nat × Option GoError) := do
  let q ← read
  if b.length = 0 then pure (0, none)
  else
    match q.writeFault with
    | some fault => pure (0, some fault)
    | none =>
      if off < 0 then pure (0, some (.new "qcow2: negative write offset"))
      else if off.toNat ≥ q.size ∨ b.length > q.size - off.toNat then
        pure (0, some (.new "qcow2: write exceeds virtual disk size"))
      else writeLoop b off.toNat b.length 0

end Gokvm.Disk
