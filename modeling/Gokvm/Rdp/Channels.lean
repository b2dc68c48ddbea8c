import Gokvm.Rdp.Transport

/-! # Virtual channels

A message of a static channel is cut into chunks of at most 1600 bytes. The dynamic channels
share one static channel: their messages are cut into fragments that fit a chunk each. Both
kinds of reassembly use the same buffer.
-/

namespace Gokvm.Rdp

open Lib Checked

def graphicsMaxIncoming : Nat := 1048576

/-! ## Reassembly -/

/-- The declared length of the message under way, or 0, and what came of it. -/
structure FragmentBuffer where
  total : Nat
  data : Bytes
deriving DecidableEq

namespace FragmentBuffer

def idle : FragmentBuffer := { total := 0, data := [] }

variable (b : FragmentBuffer)

/-- The message, if it is complete, and the buffer afterwards. -/
def first (total : Nat) (data : Bytes) : Checked String (Option Bytes × FragmentBuffer) :=
  if b.total ≠ 0 ∨ total = 0 ∨ total > graphicsMaxIncoming ∨ data.length > total then
    refuse "rdp: invalid channel fragment length or sequence"
  else if data.length = total then pure (some data, b)
  else pure (none, { total := total, data := data })

def next (data : Bytes) : Checked String (Option Bytes × FragmentBuffer) :=
  if b.total = 0 then
    if data.length = 0 ∨ data.length > graphicsMaxIncoming then
      refuse "rdp: invalid dynamic channel data length"
    else pure (some data, b)
  else if data.length = 0 ∨ b.data.length + data.length > b.total then
    refuse "rdp: channel fragment exceeds declared length"
  else if (b.data ++ data).length ≠ b.total then pure (none, { b with data := b.data ++ data })
  else pure (some (b.data ++ data), idle)

/-- A chunk of a static channel, by its flag for the first one. -/
def chunk (isFirst : Bool) (total : Nat) (data : Bytes) :
    Checked String (Option Bytes × FragmentBuffer) :=
  if isFirst then b.first total data
  else if b.total = 0 ∨ total ≠ b.total then refuse "rdp: unexpected static channel continuation"
  else b.next data

def static (data : Bytes) : Checked String (Option Bytes × FragmentBuffer) :=
  if data.length < 8 then refuse "rdp: truncated static channel header"
  else do
    let total ← little 4 data
    let rest ← sliceFrom data 4
    let flags ← little 4 rest
    if flags &&& 0x00ff0000 ≠ 0 then refuse "rdp: unsupported static channel compression"
    else do
      let rest ← sliceFrom data 8
      let (message, b) ← b.chunk (flags &&& 1 ≠ 0) total rest
      if message.isSome ≠ decide (flags &&& 2 ≠ 0) then
        refuse "rdp: static channel last-fragment mismatch"
      else pure (message, b)

end FragmentBuffer

def readDynamicInteger (data : Bytes) (code : UInt8) : Checked String (Nat × Bytes) :=
  if code > 2 ∨ data.length < 1 <<< code.toNat then refuse "rdp: invalid dynamic channel integer"
  else if code = 0 then do
    let value ← index data 0
    let rest ← sliceFrom data 1
    pure (value.toNat, rest)
  else if code = 1 then do
    let value ← little 2 data
    let rest ← sliceFrom data 2
    pure (value, rest)
  else do
    let value ← little 4 data
    let rest ← sliceFrom data 4
    pure (value, rest)

def readDynamicFragment (b : FragmentBuffer) (header : UInt8) (payload : Bytes) :
    Checked String (Option Bytes × FragmentBuffer) :=
  if header >>> 4 = 2 then do
    let (total, fragment) ← readDynamicInteger payload ((header >>> 2) &&& 3)
    b.first total fragment
  else b.next payload

/-! ## Readers -/

/-- The buffers of the static channel and of the dynamic channels on it. -/
structure DynamicReader where
  static : FragmentBuffer
  endpoint : Nat → FragmentBuffer

namespace DynamicReader

def idle : DynamicReader := { static := .idle, endpoint := fun _ => .idle }

/-- `readDynamic` on an open channel, for `DYNVC_DATA` and `DYNVC_DATA_FIRST`. -/
def readDynamic (r : DynamicReader) (message : Bytes) :
    Checked String (Option (Nat × Bytes) × DynamicReader) :=
  if message.length = 0 then refuse "rdp: empty dynamic channel PDU"
  else do
    let header ← index message 0
    let rest ← sliceFrom message 1
    let (id, payload) ← readDynamicInteger rest (header &&& 3)
    if header >>> 4 ≠ 2 ∧ header >>> 4 ≠ 3 then refuse "rdp: unsupported dynamic channel command"
    else do
      let (complete, b) ← readDynamicFragment (r.endpoint id) header payload
      pure (complete.map (id, ·), { r with endpoint := Function.update r.endpoint id b })

def read (r : DynamicReader) (data : Bytes) :
    Checked String (Option (Nat × Bytes) × DynamicReader) := do
  let (message, static) ← r.static.static data
  match message with
  | none => pure (none, { r with static := static })
  | some message => DynamicReader.readDynamic { r with static := static } message

end DynamicReader

section Receive

variable {σ α : Type} (read : σ → Bytes → Checked String (Option α × σ))

/-- Reads one packet: its channel, what its data completes, the state and the rest of the stream. -/
def receiveOne (s : σ) (stream : Bytes) : Checked String ((Nat × Option α) × σ × Bytes) := do
  let ((packet, fast), stream) ← readTransport stream
  if fast then refuse "rdp: fast-path packet"
  else do
    let mcs ← unwrapX224 packet
    let channel ← slice mcs 3 5
    let rest ← sliceFrom mcs 6
    let data ← orRefuse (takePER rest)
    let (message, s) ← read s data
    pure ((beNat channel, message), s, stream)

/-- Reads a stream to its end; what each packet completed, in order. -/
def receive : Nat → σ → Bytes → Checked String (List (Nat × Option α) × σ)
  | _, s, [] => pure ([], s)
  | 0, _, _ :: _ => .error .stuck
  | fuel + 1, s, b :: stream => do
    let (output, s, rest) ← receiveOne read s (b :: stream)
    let (outputs, s) ← receive fuel s rest
    pure (output :: outputs, s)

end Receive

/-! ## Writers -/

def dynamicTransportBatchSize : Nat := 16384

/-- The batch being built, its capacity, and the batches written. -/
structure Outgoing where
  batch : Bytes
  capacity : Nat
  written : List Bytes

/-- Writes the batch when the next packet would not fit. -/
def Outgoing.flushFor (out : Outgoing) (packetSize : Nat) : Outgoing :=
  if out.batch ≠ [] ∧ out.batch.length + packetSize > out.capacity then
    { out with batch := [], written := out.written ++ [out.batch] }
  else out

/-- The static header and the dynamic header of a fragment; `wide` for `DYNVC_DATA_FIRST`. -/
def dynamicHeader (id : UInt32) (total size : Nat) (wide : Bool) : Bytes :=
  leBytes 4 ((if wide then 6 else 2) + size) ++ leBytes 4 3 ++
    if wide then [0x28, UInt8.ofNat id.toNat] ++ leBytes 4 total
    else [0x30, UInt8.ofNat id.toNat]

/-- The loop of `writeDynamic`; every turn takes some of the data. -/
def writeFragments (channel : UInt16) (id : UInt32) (total : Nat) :
    Nat → Bool → Bytes → Outgoing → Checked String Outgoing
  | _, _, [], out => pure out
  | 0, _, _ :: _, _ => .error .stuck
  | fuel + 1, first, b :: rest, out => do
    let data := b :: rest
    let wide := first && data.length > 1598
    let headerLength := if wide then 14 else 10
    let size := min (1600 - (headerLength - 8)) data.length
    let out := out.flushFor (channelTPKTSize (headerLength + size))
    let (batch, capacity) ←
      appendChannelTPKT out.batch out.capacity channel (dynamicHeader id total size wide)
        (data.take size)
    writeFragments channel id total fuel false (data.drop size)
      { out with batch := batch, capacity := capacity }

/-- What `writeDynamic` writes when no write fails, and the capacity of the batch it keeps. -/
def writeDynamic (channel : UInt16) (capacity : Nat) (id : UInt32) (data : Bytes) :
    Checked String (List Bytes × Nat) := do
  let capacity :=
    if data.length ≠ 0 ∧ capacity < dynamicTransportBatchSize then dynamicTransportBatchSize
    else capacity
  let out ← writeFragments channel id data.length data.length true data
    { batch := [], capacity := capacity, written := [] }
  if out.batch.length = 0 then pure (out.written, out.capacity)
  else pure (out.written ++ [out.batch], out.capacity)

/-- The loop of `writeAudioMessage`. -/
def writeChunks (channel : UInt16) (total : Nat) : Nat → Bool → Bytes → Checked String (List Bytes)
  | _, _, [] => pure []
  | 0, _, _ :: _ => .error .stuck
  | fuel + 1, first, b :: rest => do
    let data := b :: rest
    let size := min 1600 data.length
    let flags := (if first then 1 else 0) + if size = data.length then 2 else 0
    let packet ← writeChannel channel (leBytes 4 total ++ leBytes 4 flags ++ data.take size)
    let packets ← writeChunks channel total fuel false (data.drop size)
    pure (packet :: packets)

/-- The writes of `writeAudioMessage` when none fails. -/
def writeAudioMessage (channel : UInt16) (data : Bytes) : Checked String (List Bytes) :=
  writeChunks channel data.length data.length true data

end Gokvm.Rdp
