import Gokvm.Lib.Prog
import Gokvm.Rdp.Parsers

/-! # The graphics channel

The state that the frame writer, the network reader and a resize share under one lock, and
the reader's handling of client messages. Frames that the client has not acknowledged are
tracked in a window of two; the rest of the state adapts the pace of the writer.
-/

namespace Gokvm.Rdp

open Lib

def graphicsMaxFrames : Nat := 2

/-- Durations are nanoseconds. -/
def graphicsMinFrameInterval : Int := 1000000000 / 60

def graphicsMaxFrameInterval : Int := 250000000

/-- `sentAt` is missing until the write of the frame has returned. -/
structure PendingFrame where
  id : UInt32
  sentAt : Option Int

structure GraphicsState where
  ackGeneration : UInt64
  supported : Bool
  ready : Bool
  closed : Bool
  ackOff : Bool
  frameID : UInt32
  inFlight : List PendingFrame
  averageBytes : Nat
  ackTurnaround : Int
  frameInterval : Int
  baseInterval : Int

namespace GraphicsState

def initial (supported : Bool) : GraphicsState :=
  { ackGeneration := 0, supported := supported, ready := false, closed := false, ackOff := false
    frameID := 0, inFlight := [], averageBytes := 0, ackTurnaround := 0, frameInterval := 0
    baseInterval := 0 }

variable (g : GraphicsState)

def canSend : Bool := g.ready && (g.ackOff || decide (g.inFlight.length < graphicsMaxFrames))

def resetAcknowledgments : GraphicsState :=
  { g with
    ackGeneration := g.ackGeneration + 1, inFlight := [], averageBytes := 0, ackTurnaround := 0
    frameInterval := 0 }

def observeFrame (bytes : Nat) : GraphicsState :=
  if g.averageBytes = 0 then { g with averageBytes := bytes }
  else { g with averageBytes := (7 * g.averageBytes + bytes) / 8 }

/-- The turnaround after an acknowledgment; Go's division truncates. -/
def turnaround (frame : PendingFrame) (now : Int) : Int :=
  match frame.sentAt with
  | none => g.ackTurnaround
  | some sentAt =>
    if now - sentAt ≤ 0 then g.ackTurnaround
    else if g.ackTurnaround = 0 then now - sentAt
    else g.ackTurnaround + (now - sentAt - g.ackTurnaround).tdiv 8

def adaptAcknowledgments (queueDepth : Nat) (frame : PendingFrame) (now : Int) : GraphicsState :=
  let base := if g.baseInterval ≤ 0 then graphicsMinFrameInterval else g.baseInterval
  let ackTurnaround := g.turnaround frame now
  let target := max base (ackTurnaround.tdiv graphicsMaxFrames)
  let target :=
    if queueDepth ≠ 0 ∧ g.averageBytes ≠ 0 then
      let buffered := (queueDepth + g.averageBytes - 1) / g.averageBytes
      let maxBuffered :=
        if base < graphicsMaxFrameInterval then (graphicsMaxFrameInterval.tdiv base).toNat - 1 else 0
      max target (base * (1 + (min buffered maxBuffered : Nat)))
    else target
  let target := min target graphicsMaxFrameInterval
  let current := max g.frameInterval base
  let frameInterval :=
    if target ≥ current then target
    else max target (current - max (base.tdiv 4) ((current - target).tdiv 4))
  { g with ackTurnaround := ackTurnaround, frameInterval := frameInterval }

/-- Retires the frame with the given number and those before it, if it is tracked. -/
def acknowledge (queueDepth : Nat) (id : UInt32) (now : Int) : GraphicsState :=
  match g.inFlight.findIdx? fun frame => frame.id == id with
  | none => g
  | some i =>
    let frame := g.inFlight.getD i { id := id, sentAt := none }
    { g with inFlight := g.inFlight.drop (i + 1) }.adaptAcknowledgments queueDepth frame now

/-- The writer counts a frame and reserves its place before it writes. -/
def reserve : GraphicsState :=
  let id := g.frameID + 1
  { g with
    frameID := id
    inFlight := if g.ackOff then g.inFlight else g.inFlight ++ [{ id := id, sentAt := none }] }

/-- The end of a write that began in the given generation. -/
def complete (id : UInt32) (generation : UInt64) (failed : Bool) (bytes : Nat) (now : Int) : GraphicsState :=
  if generation ≠ g.ackGeneration then g
  else
    let i := g.inFlight.findIdx fun frame => frame.id == id
    if failed then { g with inFlight := g.inFlight.eraseIdx i }
    else
      let sent (frame : PendingFrame) : PendingFrame := { frame with sentAt := some now }
      { g with inFlight := g.inFlight.modify i sent }.observeFrame bytes

def close : GraphicsState := { g with ready := false, closed := true }.resetAcknowledgments

/-- `GraphicsFrameInterval` with a positive base. -/
def pace (base : Int) : GraphicsState :=
  { g with baseInterval := base, frameInterval := if g.frameInterval < base then base else g.frameInterval }

end GraphicsState

/-! ## Client messages -/

open Lib.Checked in
/-- The command of the first PDU of a message, its payload and the rest of the message. -/
def nextGraphicsPDU (data : Bytes) : Parser.Parsed (Nat × Bytes × Bytes) :=
  if data.length < 8 then refuse "rdp: truncated graphics header"
  else do
    let field ← sliceFrom data 4
    let size ← little 4 field
    let field ← sliceFrom data 2
    let flags ← little 2 field
    if size < 8 ∨ size > data.length ∨ flags ≠ 0 then refuse "rdp: invalid graphics PDU size or flags"
    else do
      let command ← little 2 data
      let payload ← slice data 8 size
      let rest ← sliceFrom data size
      pure (command, payload, rest)

/-- A reader of graphics messages, over the shared state. -/
abbrev GraphicsReader (α : Type) := Prog GraphicsState (Stop String) α

def parsing {α : Type} (parsed : Parser.Parsed α) : GraphicsReader α := Prog.query fun _ => parsed

def refusing {α : Type} (reason : String) : GraphicsReader α := Prog.fail (.refused reason)

/-- A write to the client, which may fail. -/
def writing (writes : Bool) : GraphicsReader Unit := if writes then pure () else refusing "write failed"

/-- `writes` tells whether the answer of the server can be written. -/
def readGraphicsPDU (command : Nat) (data : Bytes) (now : Int) (writes : Bool) : GraphicsReader Unit :=
  match command with
  | 0x12 => do
    let g ← Prog.read
    if g.ready then refusing "rdp: duplicate graphics capabilities"
    else do
      let selected ← parsing (Parser.selectGraphicsCapabilities data)
      if selected.1 = 0 then do
        Prog.update fun g => { g with closed := true }
        writing writes
      else do
        writing writes
        Prog.update fun g => { g with ready := true }
  | 0x0d => do
    let g ← Prog.read
    if !g.ready || data.length != 12 then refusing "rdp: invalid graphics frame acknowledgment"
    else do
      let queueDepth ← parsing (Checked.little 4 data)
      if queueDepth = 0xffffffff then
        Prog.update fun g => { g with ackOff := true }.resetAcknowledgments
      else do
        Prog.update fun g => { g with ackOff := false }
        let field ← parsing (Checked.sliceFrom data 4)
        let id ← parsing (Checked.little 4 field)
        Prog.update fun g => g.acknowledge queueDepth (UInt32.ofNat id) now
  | 0x10 =>
    if data.length < 2 then refusing "rdp: invalid graphics cache offer"
    else do
      let count ← parsing (Checked.little 2 data)
      if data.length ≠ 2 + count * 12 then refusing "rdp: invalid graphics cache offer"
      else writing writes
  | 0x16 => if data.length ≠ 12 then refusing "rdp: invalid graphics quality acknowledgment" else pure ()
  | _ => refusing "rdp: unsupported client graphics command"

/-- The PDUs of a message, one after the other, for at most so many rounds. -/
def readGraphicsFor (now : Int) (writes : Bool) : Nat → Bytes → GraphicsReader Unit
  | 0, data => if data.length = 0 then pure () else Prog.fail .stuck
  | fuel + 1, data =>
    if data.length = 0 then pure ()
    else do
      let pdu ← parsing (nextGraphicsPDU data)
      readGraphicsPDU pdu.1 pdu.2.1 now writes
      readGraphicsFor now writes fuel pdu.2.2

/-- A message has no more PDUs than bytes. -/
def readGraphics (data : Bytes) (now : Int) (writes : Bool) : GraphicsReader Unit :=
  readGraphicsFor now writes data.length data

end Gokvm.Rdp
