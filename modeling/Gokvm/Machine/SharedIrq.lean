import Gokvm.Lib.Bytes
import Gokvm.Lib.Tally

/-! # A shared interrupt line

Virtio devices and the ACPI power registers share one level-triggered interrupt line. Each works
under its own lock and calls into the line, which has a lock too. So an operation has two parts:
what it does before the call, and the call with what follows it; other operations, but none of the
same device, may run in between.
-/

namespace Gokvm.Machine

open Lib

/-! ## The line -/

structure SharedIRQLine where
  asserted : Int
  high : Bool

/-- The line, the level at the interrupt controller and whether the call succeeded. -/
structure Driven where
  line : SharedIRQLine
  level : Bool
  ok : Bool

/-- The callback of a source that last asked for `raised` and now for `wanted`; `kvm`: a call of
    `kvm.IRQLineStatus` succeeds. -/
def SharedIRQLine.source (line : SharedIRQLine) (level raised wanted kvm : Bool) : Driven :=
  let asserted :=
    if wanted ≠ raised then if wanted then line.asserted + 1 else line.asserted - 1
    else line.asserted
  let high := decide (asserted ≠ 0)
  if high = line.high then { line := { line with asserted := asserted }, level := level, ok := true }
  else if kvm then { line := { asserted := asserted, high := high }, level := high, ok := true }
  else { line := { line with asserted := asserted }, level := level, ok := false }

/-! ## Virtio devices -/

/-- The interrupt state of a transport whose level callback is installed. -/
structure Intx where
  isr : UInt32
  configGen : UInt32
  irqWake : Bool
  irqError : Bool

inductive DeviceOp where
  | interrupt
  | configChanged
  | reinjectIfPending
  | readISR
  | reset
deriving DecidableEq

namespace Intx

def initial : Intx := { isr := 0, configGen := 0, irqWake := false, irqError := false }

variable (d : Intx)

def setPendingInterrupt (bits : UInt32) : Intx :=
  { d with isr := d.isr ||| bits, irqWake := d.irqWake || d.isr = 0 }

/-- The level that `raiseIRQ` asks the line for, unless an earlier error stops it. -/
def raiseIRQ : Option Bool := if d.irqError then none else some true

/-- What an operation leaves before its call into the line, the level it asks for and the status it
    returns. -/
structure Started where
  device : Intx
  call : Option Bool
  status : Option UInt8

/-- `clearInterrupt` up to its call. -/
def clearInterrupt : Started :=
  { device := { d with isr := 0 }, call := some false, status := some (UInt8.ofNat d.isr.toNat) }

def start : DeviceOp → Started
  | .interrupt =>
    let d := d.setPendingInterrupt 0x1
    { device := d, call := d.raiseIRQ, status := none }
  | .configChanged =>
    let d := { d with configGen := d.configGen + 1 }.setPendingInterrupt 0x2
    { device := d, call := d.raiseIRQ, status := none }
  | .reinjectIfPending =>
    if d.isr ≠ 0 then { device := d, call := d.raiseIRQ, status := none }
    else { device := d, call := none, status := none }
  | .readISR => d.clearInterrupt
  | .reset => { d.clearInterrupt with status := none }

/-- After the call: only `clearInterrupt` keeps an error, and it asks for the low level. -/
def finish (wanted ok : Bool) : Intx := if !wanted ∧ !ok then { d with irqError := true } else d

end Intx

/-! ## ACPI power management -/

structure UefiPower where
  status : UInt16
  enable : UInt16
  control : UInt16
  sciHigh : Bool
  sciPending : Bool
  /-- The guest asked for `S5`. -/
  stopped : Bool

inductive PowerOp where
  | pressPowerButton
  | write (port : UInt64) (data : Bytes)
  | smi (data : Bytes)

namespace UefiPower

def initial : UefiPower :=
  { status := 0, enable := 0, control := 0, sciHigh := false, sciPending := false, stopped := false }

variable (p : UefiPower)

def replaceByte (register : UInt16) (shift : UInt16) (b : UInt8) : UInt16 :=
  (register &&& ~~~ (0xff <<< shift)) ||| (b.toUInt16 <<< shift)

def writeByte (addr : UInt64) (b : UInt8) : UefiPower :=
  if 0xb000 ≤ addr ∧ addr < 0xb002 then
    -- PM1_STS is write-one-to-clear
    { p with status := p.status &&& ~~~ (b.toUInt16 <<< (8 * (addr - 0xb000)).toUInt16) }
  else if 0xb002 ≤ addr ∧ addr < 0xb004 then
    { p with enable := replaceByte p.enable (8 * (addr - 0xb002)).toUInt16 b }
  else if 0xb004 ≤ addr ∧ addr < 0xb006 then
    { p with control := replaceByte p.control (8 * (addr - 0xb004)).toUInt16 b }
  else p

def writeBytes : UInt64 → Bytes → UefiPower → UefiPower
  | _, [], p => p
  | addr, b :: rest, p => writeBytes (addr + 1) rest (p.writeByte addr b)

/-- `SLP_EN` is a write-only trigger. -/
def sleep : UefiPower :=
  { p with
    control := p.control &&& ~~~ 0x2000
    stopped := p.stopped || (p.control &&& 0x2000 ≠ 0 && (p.control >>> 10) &&& 7 = 0) }

/-- ACPI is enabled, and the power button event is enabled and pending. -/
def eventPending : Bool := p.control &&& 1 ≠ 0 && p.status &&& p.enable &&& 0x0100 ≠ 0

/-- The level that `updateSCILocked` asks the line for, if it does. -/
def updateSCILocked : Option Bool :=
  if p.eventPending = p.sciHigh ∧ !p.sciPending then none else some p.eventPending

def smi (data : Bytes) : UefiPower :=
  match data with
  | 0xf1 :: _ => { p with control := p.control ||| 1 }
  | 0xf0 :: _ => { p with control := p.control &&& ~~~ 1 }
  | _ => p

def start : PowerOp → UefiPower
  | .pressPowerButton => { p with status := p.status ||| 0x0100 }
  | .write port data => (writeBytes port data p).sleep
  | .smi data => p.smi data

def finish (wanted ok : Bool) : UefiPower :=
  if ok then { p with sciHigh := wanted, sciPending := false } else { p with sciPending := true }

end UefiPower

/-! ## The machine -/

/-- `n` devices and the power registers (`none`) on one line: `raised` is what a source's callback
    remembers, `calling` the level it is about to ask for under its own lock. -/
structure Board (n : Nat) where
  line : SharedIRQLine
  level : Bool
  raised : Option (Fin n) → Bool
  calling : Option (Fin n) → Option Bool
  devices : Fin n → Intx
  power : UefiPower

inductive Operation (n : Nat) where
  | device (i : Fin n) (op : DeviceOp)
  | power (op : PowerOp)

def Operation.source {n : Nat} : Operation n → Option (Fin n)
  | .device i _ => some i
  | .power _ => none

inductive Event (n : Nat) where
  | start (op : Operation n)
  | call (k : Option (Fin n)) (kvm : Bool)

namespace Board

variable {n : Nat}

def initial (n : Nat) : Board n where
  line := { asserted := 0, high := false }
  level := false
  raised := fun _ => false
  calling := fun _ => none
  devices := fun _ => .initial
  power := .initial

variable (s : Board n)

def startDevice (i : Fin n) (op : DeviceOp) : Board n :=
  { s with
    devices := Function.update s.devices i ((s.devices i).start op).device
    calling := Function.update s.calling (some i) ((s.devices i).start op).call }

def startPower (op : PowerOp) : Board n :=
  { s with
    power := s.power.start op
    calling := Function.update s.calling none (s.power.start op).updateSCILocked }

/-- The first part of an operation and its status; it waits while another one of its source runs. -/
def start (op : Operation n) : Option (Board n × Option UInt8) :=
  match s.calling op.source with
  | some _ => none
  | none =>
    match op with
    | .device i op => some (s.startDevice i op, ((s.devices i).start op).status)
    | .power op => some (s.startPower op, none)

/-- What a source does with the result of its call. -/
def finish (k : Option (Fin n)) (wanted ok : Bool) : Board n :=
  match k with
  | some i => { s with devices := Function.update s.devices i ((s.devices i).finish wanted ok) }
  | none => { s with power := s.power.finish wanted ok }

/-- The call of a source into the line, and the rest of its operation. -/
def call (k : Option (Fin n)) (kvm : Bool) : Option (Board n) :=
  match s.calling k with
  | none => none
  | some wanted =>
    let driven := s.line.source s.level (s.raised k) wanted kvm
    let s := { s with
      line := driven.line
      level := driven.level
      raised := Function.update s.raised k wanted
      calling := Function.update s.calling k none }
    some (s.finish k wanted driven.ok)

def step : Event n → Option (Board n)
  | .start op => (s.start op).map Prod.fst
  | .call k kvm => s.call k kvm

def run (events : List (Event n)) : Option (Board n) := events.foldlM step (initial n)

/-- An operation that nothing interrupts, when the calls of KVM succeed. -/
def perform (op : Operation n) : Option (Board n) :=
  match s.start op with
  | none => none
  | some (s, _) =>
    match s.calling op.source with
    | none => some s
    | some _ => s.call op.source true

def performAll (ops : List (Operation n)) : Option (Board n) := ops.foldlM perform (initial n)

end Board

end Gokvm.Machine
