import Gokvm.Iodev.AtapiTransfer

/-! # What the drive requests and what it refuses

The data request bit tells the host whether the data port has something to do: packet bytes
to take or data to give. It is right as long as the host starts a command only while
nothing is requested and leaves the data port alone until its packet is whole.

The range of a read is not checked at all.
-/

namespace Gokvm.Iodev

open Lib List Nat

namespace ATAPICDROM

/-! ## Accesses -/

inductive PortAccess where
  | read (port : Nat) (data : Bytes)
  | write (port : Nat) (data : Bytes)

def act (c : ATAPICDROM) : PortAccess → ATAPICDROM
  | .read port data => (c.read port data).2
  | .write port data => c.write port data

def run (c : ATAPICDROM) (accesses : List PortAccess) : ATAPICDROM := accesses.foldl act c

/-- An orderly access: no data is read while a packet is awaited, and no command but a reset is
    written while something is requested. -/
def Orderly (c : ATAPICDROM) : PortAccess → Prop
  | .read port _ => port = ataRegData → c.awaitingPacket = false
  | .write port data => port = ataRegCommand → data.head? ≠ some ataCmdDeviceReset → c.drq = false

def OrderlyRun : ATAPICDROM → List PortAccess → Prop
  | _, [] => True
  | c, access :: rest => c.Orderly access ∧ OrderlyRun (c.act access) rest

instance (c : ATAPICDROM) (access : PortAccess) : Decidable (c.Orderly access) := by
  cases access <;> (unfold Orderly; infer_instance)

instance decidableOrderlyRun : (c : ATAPICDROM) → (accesses : List PortAccess) →
    Decidable (OrderlyRun c accesses)
  | _, [] => instDecidableTrue
  | c, access :: rest =>
    @instDecidableAnd _ _ inferInstance (decidableOrderlyRun (c.act access) rest)

def unread (c : ATAPICDROM) : Prop := c.dataOffset < c.data.length

/-! ## The data request bit -/

/-- The bit is set while a packet is awaited or data is left, and never for both. -/
structure Tells (c : ATAPICDROM) : Prop where
  bit : c.drq = true ↔ c.awaitingPacket = true ∨ c.unread
  apart : c.awaitingPacket = true → ¬ c.unread

variable {c d : ATAPICDROM}

theorem Tells.interrupt (tells : Tells c) : Tells c.interrupt := by
  unfold ATAPICDROM.interrupt
  split
  · exact tells
  · exact { tells with }

theorem tells_idle (quiet : c.drq = false) (awaiting : c.awaitingPacket = false)
    (read : ¬ c.unread) : Tells c := by
  constructor <;> simp [quiet, awaiting, read]

theorem drq_of_error (failed : c.status = ataStatusDRDY ||| ataStatusDSC ||| ataStatusErr) :
    c.drq = false := by
  rw [drq, failed]
  decide

theorem tells_reset (c : ATAPICDROM) : Tells c.reset :=
  tells_idle (drq_of_done rfl) rfl (lt_irrefl 0)

theorem Tells.idle (tells : Tells c) (quiet : c.drq = false) :
    c.awaitingPacket = false ∧ ¬ c.unread := by
  have bit := tells.bit
  rw [quiet] at bit
  simpa using bit

section

variable (awaiting : c.awaitingPacket = false)
include awaiting

theorem tells_prepareData (data : Bytes) (alloc : Nat) :
    Tells (c.prepareData data alloc) := by
  unfold prepareData
  simp only
  generalize (if c.maxTransfer < _ then _ else _ : Bytes) = kept
  apply Tells.interrupt
  split
  case isTrue empty => exact tells_idle (drq_of_done rfl) awaiting (by simp [unread, empty])
  case isFalse full =>
    constructor
    · simp [drq_of_request, unread, pos_of_ne_zero full]
    · simp [awaiting]

theorem tells_failRead (read : ¬ c.unread)
    (key asc : UInt8) : Tells (c.failRead key asc) := by
  unfold failRead
  apply Tells.interrupt
  exact tells_idle (drq_of_error rfl) awaiting read

theorem tells_abort (read : ¬ c.unread) : Tells c.abort := by
  unfold abort
  apply Tells.interrupt
  exact tells_idle (drq_of_error rfl) awaiting read

theorem tells_finishPacket (data : Bytes) (alloc : Nat) :
    Tells (c.finishPacket data alloc) := by
  unfold finishPacket
  apply tells_prepareData
  exact awaiting

theorem tells_readBlocks (read : ¬ c.unread)
    (lba blocks : Nat) : Tells (c.readBlocks lba blocks) := by
  have finished (data : Bytes) : Tells (c.clearSense.finishPacket data 0) := by
    apply tells_finishPacket
    exact awaiting
  unfold readBlocks
  generalize c.r (lba * atapiSectorSize) (blocks * atapiSectorSize) = outcome
  simp only
  split_ifs
  · exact finished _
  · exact tells_failRead awaiting read _ _
  · exact tells_failRead awaiting read _ _
  · exact finished _

theorem tells_handlePacket (read : ¬ c.unread)
    (cmd : Bytes) : Tells (c.handlePacket cmd) := by
  have finished (data : Bytes) (alloc : Nat) : Tells (c.clearSense.finishPacket data alloc) := by
    apply tells_finishPacket
    exact awaiting
  unfold handlePacket
  simp only
  split
  case h_2 => exact { tells_finishPacket awaiting _ _ with }
  case h_8 | h_12 => exact tells_readBlocks awaiting read _ _
  case h_13 =>
    apply Tells.interrupt
    exact tells_idle (drq_of_error rfl) awaiting read
  all_goals exact finished _ _

end

section

variable (tells : Tells c)
include tells

theorem tells_command (cmd : UInt8) (orderly : cmd ≠ ataCmdDeviceReset → c.drq = false) :
    Tells (c.command cmd) := by
  unfold command
  split
  · exact tells
  split
  · exact (tells_reset c).interrupt
  next other =>
    obtain ⟨awaiting, read⟩ := tells.idle (orderly other)
    split_ifs
    · apply Tells.interrupt
      exact tells_idle (drq_of_done rfl) awaiting read
    · exact tells_abort awaiting read
    · exact tells_prepareData awaiting _ _
    · refine ⟨?_, fun _ => read⟩
      simp [drq_of_request]
    · exact tells_abort awaiting read

theorem tells_writeData (src : Bytes) : Tells (c.writeData src) := by
  unfold writeData
  split
  · exact tells
  next awaiting =>
    have waits : c.awaitingPacket = true := by simpa using awaiting
    simp only
    split
    · exact { tells with }
    · apply tells_handlePacket
      · rfl
      · exact tells.apart waits

/-- Data that is left after a read was left before it, so that its bit is set already. -/
theorem tells_readData (awaiting : c.awaitingPacket = false) (n : Nat) :
    Tells (c.readData n).2 := by
  unfold readData
  simp only [takeBytes_eq]
  split
  · exact tells_idle (drq_of_done rfl) awaiting (lt_irrefl 0)
  next left =>
    have before : c.unread := by unfold unread; omega
    constructor
    · have after : c.dataOffset + min n (c.data.length - c.dataOffset) < c.data.length := by omega
      simpa [drq, unread, awaiting, after] using tells.bit.mpr (Or.inr before)
    · simp [awaiting]

theorem Tells.read {port : Nat} (orderly : port = ataRegData → c.awaitingPacket = false)
    (data : Bytes) :
    Tells (c.read port data).2 := by
  unfold ATAPICDROM.read
  split
  · exact tells
  split
  · exact tells
  split
  next asked => exact tells_readData tells (orderly asked) _
  · split_ifs <;> exact tells

theorem Tells.write {port : Nat} {data : Bytes}
    (orderly : port = ataRegCommand → data.head? ≠ some ataCmdDeviceReset → c.drq = false) :
    Tells (c.write port data) := by
  cases data with
  | nil => exact tells
  | cons first rest =>
      rw [ATAPICDROM.write]
      split
      · exact tells_writeData tells _
      iterate 6
        split
        · exact { tells with }
      split
      next asked =>
        exact tells_command tells first fun other => orderly asked (by simpa using other)
      split
      · simp only
        split
        · exact tells_reset _
        · exact { tells with }
      · exact tells

theorem Tells.act {access : PortAccess} (orderly : c.Orderly access) :
    Tells (c.act access) := by
  cases access with
  | read port data => exact tells.read orderly data
  | write port data => exact tells.write orderly

end

theorem tells_run (accesses : List PortAccess) :
    ∀ {c : ATAPICDROM}, Tells c → OrderlyRun c accesses → Tells (c.run accesses) := by
  induction accesses with
  | nil => exact fun tells _ => tells
  | cons access rest ih => exact fun tells orderly => ih (tells.act orderly.1) orderly.2

theorem write_ignored (awaiting : c.awaitingPacket = false) (data : Bytes) :
    c.write ataRegData data = c := by
  cases data <;> simp [write, writeData, awaiting]

theorem read_nothing (master : c.slaveSelected = false) (read : ¬ c.unread) (data : Bytes) :
    (c.read ataRegData data).1 = replicate data.length 0 := by
  have none : c.data.drop c.dataOffset = [] := drop_eq_nil_of_le (not_lt.mp read)
  unfold ATAPICDROM.read
  split
  next empty => simp [length_eq_zero_iff.mp empty]
  · simp only [master, Bool.false_eq_true, if_false, if_true, readData, takeBytes_eq, none]
    split <;> simp

/-- The bit that the host reads is right, and while it is clear the data port neither takes
    packet bytes nor gives data. -/
theorem request_bit_tells (r : ReaderAt) (size : Int) (accesses : List PortAccess)
    (orderly : OrderlyRun (new r size) accesses) :
    let c := (new r size).run accesses
    (c.drq = true ↔ c.awaitingPacket = true ∨ c.unread) ∧
      (c.drq = false → ∀ data : Bytes, c.write ataRegData data = c ∧
        (c.slaveSelected = false →
          (c.read ataRegData data).1 = replicate data.length 0)) := by
  have tells := tells_run accesses (tells_reset _) orderly
  refine ⟨tells.bit, fun quiet data => ?_⟩
  obtain ⟨awaiting, read⟩ := tells.idle quiet
  constructor
  · exact write_ignored awaiting data
  · exact fun master => read_nothing master read data

/-- INQUIRY for 36 bytes. -/
def inquiryPacket : Bytes := [0x12, 0, 0, 0, 36, 0, 0, 0, 0, 0, 0, 0]

theorem request_bit_after_inquiry :
    ((new (fileReader twoBlocks) 4096).run
      [.write ataRegCommand [ataCmdPacket], .write ataRegData inquiryPacket]).unread := by
  have told := (request_bit_tells (fileReader twoBlocks) 4096
    [.write ataRegCommand [ataCmdPacket], .write ataRegData inquiryPacket] (by decide)).1
  exact (told.mp (by decide)).resolve_left (by decide)

/-- EXECUTE DEVICE DIAGNOSTIC clears the bit and keeps the awaited packet: the next bytes
    start an INQUIRY. A read of the data port clears it as well. An aborted command clears
    it and keeps the data of the one before. -/
theorem request_bit_lost :
    let diagnosed := (new (fileReader twoBlocks) 4096).run
      [.write ataRegCommand [ataCmdPacket], .write ataRegCommand [ataCmdExecuteDiag]]
    let peeked := (new (fileReader twoBlocks) 4096).run
      [.write ataRegCommand [ataCmdPacket], .read ataRegData [0, 0]]
    let aborted := (new (fileReader twoBlocks) 4096).run
      [.write ataRegCommand [ataCmdIdentifyPacket], .write ataRegCommand [ataCmdIdentifyDevice]]
    (diagnosed.slaveSelected = false ∧ diagnosed.drq = false ∧ diagnosed.awaitingPacket = true ∧
      (diagnosed.write ataRegData inquiryPacket).drq = true) ∧
    (peeked.slaveSelected = false ∧ peeked.drq = false ∧ peeked.awaitingPacket = true) ∧
    (aborted.slaveSelected = false ∧ aborted.drq = false ∧
      (aborted.read ataRegData [0, 0]).1 = [0xc0, 0x85]) := by
  decide +kernel

/-! ## The range of a read -/

def readBuffer (blocks : Nat) : Nat :=
  if blocks = 0 ∨ 2 ^ 63 - 1 < blocks * atapiSectorSize then 0 else blocks * atapiSectorSize

@[simp] theorem interrupt_status (c : ATAPICDROM) : c.interrupt.status = c.status := by
  unfold ATAPICDROM.interrupt
  split <;> rfl

@[simp] theorem interrupt_senseKey (c : ATAPICDROM) : c.interrupt.senseKey = c.senseKey := by
  unfold ATAPICDROM.interrupt
  split <;> rfl

theorem maxTransfer_pos (c : ATAPICDROM) : 0 < c.maxTransfer := by
  unfold maxTransfer
  split <;> omega

theorem prepareData_succeeds (c : ATAPICDROM) (data : Bytes) :
    (c.prepareData data 0).status &&& ataStatusErr = 0 ∧
      (c.prepareData data 0).senseKey = c.senseKey ∧
      ((c.prepareData data 0).drq = true ↔ data ≠ []) := by
  have kept : (if c.maxTransfer < data.length then data.take c.maxTransfer else data).length = 0 ↔
      data = [] := by
    have positive := c.maxTransfer_pos
    split <;> simp [ne_of_gt positive]
  simp only [prepareData, lt_irrefl, false_and, if_false, drq, interrupt_status,
    interrupt_senseKey]
  generalize (if c.maxTransfer < data.length then data.take c.maxTransfer else data) = cut at *
  by_cases empty : data = []
  · simp only [kept.mpr empty, if_true, empty, ne_eq, not_true, iff_false]
    exact ⟨by decide, trivial, by decide⟩
  · simp only [mt kept.mp empty, if_false, ne_eq, empty, not_false_eq_true, iff_true]
    exact ⟨by decide, trivial, by decide⟩

theorem finishPacket_succeeds (c : ATAPICDROM) (data : Bytes) :
    (c.finishPacket data 0).status &&& ataStatusErr = 0 ∧
      (c.finishPacket data 0).senseKey = c.senseKey ∧
      ((c.finishPacket data 0).drq = true ↔ data ≠ []) :=
  { c with errorReg := 0 }.prepareData_succeeds data

variable {packet : Bytes} {lba count : Nat}

/-- READ(12) of a block far past the end, and of as many blocks as the field can hold. -/
def farPacket : Bytes := [0xa8, 0, 0, 0, 0, 100, 0, 0, 0, 1, 0, 0]

def widePacket : Bytes := [0xa8, 0, 0, 0, 0, 0, 0xff, 0xff, 0xff, 0xff, 0, 0]

end ATAPICDROM

end Gokvm.Iodev
