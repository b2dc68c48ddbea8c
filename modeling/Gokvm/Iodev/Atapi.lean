import Gokvm.Lib.Store

/-! # The ATAPI CD-ROM drive

A read-only primary-master drive behind the task-file ports. The host writes a packet
command through the data port and reads the answer from it; `lbaMid` and `lbaHigh`
carry the byte-count limit before a command and the size of the data phase after it.
The log lines of the drive are left out.
-/

namespace Gokvm.Iodev

open Lib

/-! ## Registers -/

def ataRegData : Nat := 0x1f0
def ataRegError : Nat := 0x1f1
def ataRegFeatures : Nat := 0x1f1
def ataRegSectorCnt : Nat := 0x1f2
def ataRegLBALow : Nat := 0x1f3
def ataRegLBAMid : Nat := 0x1f4
def ataRegLBAHigh : Nat := 0x1f5
def ataRegDriveHead : Nat := 0x1f6
def ataRegStatus : Nat := 0x1f7
def ataRegCommand : Nat := 0x1f7
def ataRegAltStatus : Nat := 0x3f6
def ataRegDevControl : Nat := 0x3f6

def ataStatusErr : UInt8 := 0x01
def ataStatusDRQ : UInt8 := 0x08
def ataStatusDSC : UInt8 := 0x10
def ataStatusDRDY : UInt8 := 0x40

def ataErrABRT : UInt8 := 0x04

def ataCmdDeviceReset : UInt8 := 0x08
def ataCmdExecuteDiag : UInt8 := 0x90
def ataCmdPacket : UInt8 := 0xa0
def ataCmdIdentifyPacket : UInt8 := 0xa1
def ataCmdIdentifyDevice : UInt8 := 0xec

def atapiSectorSize : Nat := 2048

inductive ReadEnd where
  | complete
  | eof
  | failed
deriving DecidableEq

/-- `io.ReaderAt`: what a read of some length at some offset leaves at the buffer's front, and how
    it ended. -/
abbrev ReaderAt := (off len : Nat) → Bytes × ReadEnd

structure ATAPICDROM where
  r : ReaderAt
  size : Int
  errorReg : UInt8
  featuresReg : UInt8
  sectorCount : UInt8
  lbaLow : UInt8
  lbaMid : UInt8
  lbaHigh : UInt8
  driveHead : UInt8
  status : UInt8
  devControl : UInt8
  data : Bytes
  dataOffset : Nat
  awaitingPacket : Bool
  packet : Bytes
  senseKey : UInt8
  senseASC : UInt8
  senseASCQ : UInt8
  interrupts : Nat

namespace ATAPICDROM

def slaveSelected (c : ATAPICDROM) : Bool := c.driveHead &&& 0x10 ≠ 0

def interrupt (c : ATAPICDROM) : ATAPICDROM :=
  if c.devControl &&& 0x02 ≠ 0 then c else { c with interrupts := c.interrupts + 1 }

def clearSense (c : ATAPICDROM) : ATAPICDROM :=
  { c with senseKey := 0, senseASC := 0, senseASCQ := 0 }

def setSense (c : ATAPICDROM) (key asc : UInt8) : ATAPICDROM :=
  { c with senseKey := key, senseASC := asc, senseASCQ := 0 }

def reset (c : ATAPICDROM) : ATAPICDROM :=
  { c with
      errorReg := 0x01
      featuresReg := 0
      sectorCount := 0x01
      lbaLow := 0x01
      lbaMid := 0x14
      lbaHigh := 0xeb
      driveHead := 0xa0
      status := ataStatusDRDY ||| ataStatusDSC
      data := []
      dataOffset := 0
      awaitingPacket := false
      packet := [] }.clearSense

/-- `NewATAPICDROM`: a drive with its disc. -/
def new (r : ReaderAt) (size : Int) : ATAPICDROM :=
  reset
    { r, size, errorReg := 0, featuresReg := 0, sectorCount := 0, lbaLow := 0, lbaMid := 0
      lbaHigh := 0, driveHead := 0, status := 0, devControl := 0, data := [], dataOffset := 0
      awaitingPacket := false, packet := [], senseKey := 0, senseASC := 0, senseASCQ := 0
      interrupts := 0 }

/-! ## Answers -/

def asciiBytes (s : String) : Bytes := s.toList.map fun c => UInt8.ofNat c.toNat

/-- A field of `n` bytes, padded with blanks. -/
def copyPadded (n : Nat) (s : String) : Bytes :=
  (asciiBytes s ++ List.replicate n 0x20).take n

def swapPairs : Bytes → Bytes
  | a :: b :: rest => b :: a :: swapPairs rest
  | rest => rest

/-- ATA strings have their bytes swapped in pairs. -/
def copyATAString (n : Nat) (s : String) : Bytes := swapPairs (copyPadded n s)

def blockWith (n : Nat) (fields : List (Nat × Bytes)) : Bytes :=
  fields.foldl (fun data field => put data field.1 field.2) (List.replicate n 0)

def identifyPacket : Bytes :=
  blockWith 512
    [(0 * 2, leBytes 2 0x85c0), (49 * 2, leBytes 2 0x0200), (53 * 2, leBytes 2 0x0003),
      (64 * 2, leBytes 2 0x0003), (80 * 2, leBytes 2 0x007e), (82 * 2, leBytes 2 0x4000),
      (83 * 2, leBytes 2 0x4000), (84 * 2, leBytes 2 0x4000), (93 * 2, leBytes 2 0x4041),
      (23 * 2, copyATAString 8 "1.0"), (27 * 2, copyATAString 40 "gokvm ATAPI CD-ROM")]

def inquiry : Bytes :=
  blockWith 36
    [(0, [0x05]), (1, [0x80]), (2, [0x05]), (3, [0x02]), (4, [31]), (8, copyPadded 8 "GOKVM"),
      (16, copyPadded 16 "VIRTUAL CD-ROM"), (32, copyPadded 4 "1.0")]

def requestSense (c : ATAPICDROM) : Bytes :=
  blockWith 18
    [(0, [0x70]), (2, [c.senseKey]), (7, [10]), (12, [c.senseASC]), (13, [c.senseASCQ])]

def blockCount (c : ATAPICDROM) : Nat :=
  if c.size ≤ 0 then 0
  else min ((c.size.toNat + atapiSectorSize - 1) / atapiSectorSize) (2 ^ 32 - 1)

def readCapacity (c : ATAPICDROM) : Bytes :=
  beBytes 4 (c.blockCount - 1) ++ beBytes 4 atapiSectorSize

def lbaToMSF (lba : Nat) : Bytes :=
  [UInt8.ofNat (lba / (60 * 75)), UInt8.ofNat (lba % (60 * 75) / 75),
    UInt8.ofNat (lba % (60 * 75) % 75)]

def putTOCAddress (lba : Nat) (msf : Bool) : Bytes :=
  if msf then 0 :: lbaToMSF ((lba + 150) % 2 ^ 32) else beBytes 4 lba

def readTOC (c : ATAPICDROM) (msf : Bool) : Bytes :=
  blockWith 20
    [(0, beBytes 2 18), (2, [1]), (3, [1]), (5, [0x14]), (6, [1]), (8, putTOCAddress 0 msf),
      (13, [0x14]), (14, [0xaa]), (16, putTOCAddress c.blockCount msf)]

def getConfiguration : Bytes := blockWith 8 [(0, beBytes 4 4), (6, beBytes 2 0x0008)]

def readDiscInformation : Bytes :=
  blockWith 34 [(0, beBytes 2 32), (2, [0x0e]), (3, [1]), (4, [1]), (5, [1])]

/-! ## Commands -/

/-- The byte-count limit; zero stands for 64 KiB. -/
def maxTransfer (c : ATAPICDROM) : Nat :=
  if leNat [c.lbaMid, c.lbaHigh] = 0 then 65536 else leNat [c.lbaMid, c.lbaHigh]

/-- Starts the data phase: what is past the limit is not kept. -/
def prepareData (c : ATAPICDROM) (data : Bytes) (alloc : Nat) : ATAPICDROM :=
  let data := if 0 < alloc ∧ alloc < data.length then data.take alloc else data
  let data := if c.maxTransfer < data.length then data.take c.maxTransfer else data
  let c := { c with
    data
    dataOffset := 0
    lbaMid := UInt8.ofNat data.length
    lbaHigh := UInt8.ofNat (data.length / 256) }
  let c :=
    if data.length = 0 then
      { c with status := ataStatusDRDY ||| ataStatusDSC, sectorCount := 0x03 }
    else { c with status := ataStatusDRDY ||| ataStatusDRQ, sectorCount := 0x02 }
  c.interrupt

def finishPacket (c : ATAPICDROM) (data : Bytes) (alloc : Nat) : ATAPICDROM :=
  { c with errorReg := 0 }.prepareData data alloc

def abort (c : ATAPICDROM) : ATAPICDROM :=
  ({ c with
      errorReg := ataErrABRT
      status := ataStatusDRDY ||| ataStatusDSC ||| ataStatusErr }.setSense 0x05 0x20).interrupt

def failRead (c : ATAPICDROM) (key asc : UInt8) : ATAPICDROM :=
  { c.setSense key asc with
      errorReg := ataErrABRT
      status := ataStatusDRDY ||| ataStatusDSC ||| ataStatusErr }.interrupt

def readBlocks (c : ATAPICDROM) (lba blocks : Nat) : ATAPICDROM :=
  if blocks = 0 then c.clearSense.finishPacket [] 0
  else
    let byteCount := blocks * atapiSectorSize
    if 2 ^ 63 - 1 < byteCount then c.failRead 0x05 0x21
    else
      let (filled, ended) := c.r (lba * atapiSectorSize) byteCount
      if ended = .failed then c.failRead 0x03 0x11
      else
        -- the rest of the buffer is cleared
        let data := (filled ++ List.replicate (byteCount - filled.length) 0).take byteCount
        c.clearSense.finishPacket data 0

def handlePacket (c : ATAPICDROM) (cmd : Bytes) : ATAPICDROM :=
  let byte (i : Nat) : Nat := (cmd.getD i 0).toNat
  let be (off n : Nat) : Nat := beNat (part cmd off n)
  match byte 0 with
  | 0x00 => c.clearSense.finishPacket [] 0
  | 0x03 => (c.finishPacket c.requestSense (byte 4)).clearSense
  | 0x12 => c.clearSense.finishPacket inquiry (byte 4)
  | 0x1a => c.clearSense.finishPacket [3, 0, 0, 0] (byte 4)
  | 0x1b => c.clearSense.finishPacket [] 0
  | 0x1e => c.clearSense.finishPacket [] 0
  | 0x25 => c.clearSense.finishPacket c.readCapacity 8
  | 0x28 => c.readBlocks (be 2 4) (be 7 2)
  | 0x43 => c.clearSense.finishPacket (c.readTOC (cmd.getD 1 0 &&& 0x02 ≠ 0)) (be 7 2)
  | 0x46 => c.clearSense.finishPacket getConfiguration (be 7 2)
  | 0x51 => c.clearSense.finishPacket readDiscInformation (be 7 2)
  | 0xa8 => c.readBlocks (be 2 4) (be 6 4)
  | _ =>
    { c.setSense 0x05 0x20 with
        errorReg := ataErrABRT
        status := ataStatusDRDY ||| ataStatusDSC ||| ataStatusErr
        sectorCount := 0x03 }.interrupt

def command (c : ATAPICDROM) (cmd : UInt8) : ATAPICDROM :=
  if c.slaveSelected then c
  else if cmd = ataCmdDeviceReset then c.reset.interrupt
  else if cmd = ataCmdExecuteDiag then
    { c with errorReg := 0x01, status := ataStatusDRDY ||| ataStatusDSC }.interrupt
  else if cmd = ataCmdIdentifyDevice then c.abort
  else if cmd = ataCmdIdentifyPacket then c.prepareData identifyPacket 0
  else if cmd = ataCmdPacket then
    { c with
        awaitingPacket := true
        packet := []
        errorReg := 0
        status := ataStatusDRDY ||| ataStatusDRQ
        sectorCount := 0x01 }
  else c.abort

/-! ## Ports -/

/-- The loop of `readData`: `n` bytes from an offset, zeros after the end, and the next offset. -/
def takeBytes (data : Bytes) : (n offset : Nat) → Bytes × Nat
  | 0, offset => ([], offset)
  | n + 1, offset =>
    if data.length ≤ offset then
      let (rest, offset) := takeBytes data n offset
      (0 :: rest, offset)
    else
      let (rest, after) := takeBytes data n (offset + 1)
      (data.getD offset 0 :: rest, after)

def readData (c : ATAPICDROM) (n : Nat) : Bytes × ATAPICDROM :=
  let (dst, offset) := takeBytes c.data n c.dataOffset
  if c.data.length ≤ offset then
    (dst, { c with
      data := []
      dataOffset := 0
      status := ataStatusDRDY ||| ataStatusDSC
      sectorCount := 0x03 })
  else (dst, { c with dataOffset := offset })

def writeData (c : ATAPICDROM) (src : Bytes) : ATAPICDROM :=
  if c.awaitingPacket = false then c
  else
    let packet := c.packet ++ src
    if packet.length < 12 then { c with packet }
    else { c with awaitingPacket := false, packet := [] }.handlePacket (packet.take 12)

/-- `Read`: the data after an access, given what it held. -/
def read (c : ATAPICDROM) (port : Nat) (data : Bytes) : Bytes × ATAPICDROM :=
  if data.length = 0 then (data, c)
  else if c.slaveSelected then (List.replicate data.length 0, c)
  else if port = ataRegData then c.readData data.length
  else if port = ataRegError then (data.set 0 c.errorReg, c)
  else if port = ataRegSectorCnt then (data.set 0 c.sectorCount, c)
  else if port = ataRegLBALow then (data.set 0 c.lbaLow, c)
  else if port = ataRegLBAMid then (data.set 0 c.lbaMid, c)
  else if port = ataRegLBAHigh then (data.set 0 c.lbaHigh, c)
  else if port = ataRegDriveHead then (data.set 0 c.driveHead, c)
  else if port = ataRegStatus ∨ port = ataRegAltStatus then (data.set 0 c.status, c)
  else (List.replicate data.length 0xff, c)

/-- `Write` of some data; its first byte goes to the one-byte registers. -/
def write (c : ATAPICDROM) (port : Nat) : Bytes → ATAPICDROM
  | [] => c
  | first :: rest =>
    if port = ataRegData then c.writeData (first :: rest)
    else if port = ataRegFeatures then { c with featuresReg := first }
    else if port = ataRegSectorCnt then { c with sectorCount := first }
    else if port = ataRegLBALow then { c with lbaLow := first }
    else if port = ataRegLBAMid then { c with lbaMid := first }
    else if port = ataRegLBAHigh then { c with lbaHigh := first }
    else if port = ataRegDriveHead then { c with driveHead := first }
    else if port = ataRegCommand then c.command first
    else if port = ataRegDevControl then
      let c := { c with devControl := first }
      if first &&& 0x04 ≠ 0 then c.reset else c
    else c

end ATAPICDROM

end Gokvm.Iodev
