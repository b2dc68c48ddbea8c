import Gokvm.Rdp.Parsers
import Gokvm.Rdp.Transport

/-! # Activation of a connection

After the negotiation a client erects the domain, attaches, joins channels, sends its Client Info,
confirms the server's capabilities and finishes with control and font messages. `Activation`
records how far it got; a packet that does not fit, or a reply that cannot be written, ends the
activation.
-/

namespace Gokvm.Rdp

open Lib Checked

def clientUser : Nat := 1001

def globalChannel : Nat := 1003

/-- `%#x`. -/
def hexText (n : Nat) : String := "0x" ++ String.ofList (Nat.toDigits 16 n)

def shareType (p : Bytes) : Checked String Nat :=
  if p.length < 6 then refuse "rdp: invalid Share Control length"
  else do
    let head ← slice p 0 2
    let length ← little 2 head
    let field ← slice p 2 4
    let kind ← little 2 field
    if length ≠ p.length ∨ kind &&& 0xfff0 ≠ 0x10 then refuse "rdp: invalid Share Control length"
    else pure (kind &&& 15)

inductive Reply where
  | mcs (data : Bytes)
  | global (data : Bytes)
  | demandActive
  | shareData (pduType : UInt8) (payload : Bytes)

structure QueuedPacket where
  data : Bytes
  fast : Bool

structure ClientPacket where
  data : Bytes
  fast : Bool
  written : Bool

/-- The flags of the activation and the fields of the session that it sets. -/
structure Activation where
  channels : Nat
  erected : Bool
  attached : Bool
  info : Bool
  confirmed : Bool
  controlled : Bool
  reactivation : Bool
  joined : Finset Nat
  pending : List QueuedPacket
  audioDisabled : Bool
  bitsPerPixel : Nat
  pointer : Parser.PointerCapabilities
  sent : List Reply

namespace Activation

def initial (channels : Nat) : Activation where
  channels := channels
  erected := false
  attached := false
  info := false
  confirmed := false
  controlled := false
  reactivation := false
  joined := ∅
  pending := []
  audioDisabled := false
  bitsPerPixel := 24
  pointer := { colors := 0, alpha := 0 }
  sent := []

variable (a : Activation)

/-- Writes replies; the activation goes on. -/
def answer (written : Bool) (replies : List Reply) : Checked String (Bool × Activation) :=
  if written then pure (false, { a with sent := a.sent ++ replies }) else refuse "write failed"

def queueInput (data : Bytes) (fast : Bool) : Checked String (Bool × Activation) :=
  if a.pending.length ≥ 16 then refuse "excessive input before activation"
  else pure (false, { a with pending := a.pending ++ [{ data := data, fast := fast }] })

/-! ## Finalization -/

def control (data : Bytes) (written : Bool) : Checked String (Bool × Activation) :=
  if data.length ≠ 26 then refuse "invalid Control"
  else do
    let field ← slice data 18 20
    let action ← little 2 field
    if action = 1 then
      answer { a with controlled := true } written [.shareData 0x14 [2, 0, 0xe9, 3, 0xea, 3, 0, 0]]
    else if action = 4 then pure (false, a)
    else refuse "unsupported activation control action"

/-- The final list activates the connection. -/
def fontList (data : Bytes) (written : Bool) : Checked String (Bool × Activation) :=
  if !a.controlled ∨ data.length ≠ 26 then refuse "invalid Font List"
  else do
    let field ← slice data 22 24
    let flags ← little 2 field
    if flags &&& 2 ≠ 0 then do
      let (_, a) ← a.answer written [.shareData 0x28 [0, 0, 0, 0, 3, 0, 4, 0]]
      pure (true, a)
    else pure (false, a)

def finalize (data : Bytes) (written : Bool) : Checked String (Bool × Activation) := do
  let pduType ← index data 14
  if pduType = 0x1f then
    if data.length ≠ 22 then refuse "invalid Synchronize" else pure (false, a)
  else if pduType = 0x14 then a.control data written
  else if pduType = 0x27 then a.fontList data written
  else if pduType = 0x2b then pure (false, a)
  else if pduType = 0x1c then a.queueInput data false
  else refuse ("unexpected activation data PDU " ++ hexText pduType.toNat)

def shareData (kind : Nat) (data : Bytes) (written : Bool) : Checked String (Bool × Activation) :=
  if !a.confirmed ∨ kind ≠ 7 ∨ data.length < 18 then refuse "unexpected activation Share Data"
  else do
    let compressed ← index data 15
    if compressed ≠ 0 then refuse "unexpected activation Share Data" else a.finalize data written

/-! ## The global channel -/

def license : Bytes := [0x80, 0, 0, 0, 0xff, 3, 16, 0, 7, 0, 0, 0, 2, 0, 0, 0, 4, 0, 0, 0]

def clientInfo (data : Bytes) (written : Bool) : Checked String (Bool × Activation) := do
  let _ ← Parser.validateClientInfo data
  let field ← slice data 8 12
  let flags ← little 4 field
  answer { a with audioDisabled := flags &&& (0x80000 ||| 0x2000) ≠ 0, info := true } written
    [.global license, .demandActive]

def confirmActive (data : Bytes) (written : Bool) : Checked String (Bool × Activation) :=
  if a.confirmed then refuse "duplicate Confirm Active"
  else do
    let (bitsPerPixel, pointer) ← Parser.confirmActiveDepth data a.bitsPerPixel (!a.reactivation)
    answer { a with confirmed := true, bitsPerPixel := bitsPerPixel, pointer := pointer } written
      [.shareData 0x1f [1, 0, 0xe9, 3], .shareData 0x14 [4, 0, 0, 0, 0, 0, 0, 0]]

def globalData (data : Bytes) (written : Bool) : Checked String (Bool × Activation) :=
  if !a.info then a.clientInfo data written
  else do
    let kind ← shareType data
    if kind = 3 then a.confirmActive data written else a.shareData kind data written

/-! ## Units of the connection -/

def erectDomain (mcs : Bytes) : Checked String (Bool × Activation) :=
  if a.erected ∨ a.attached ∨ mcs ≠ [4, 1, 0, 1, 0] then refuse "unexpected Erect Domain"
  else pure (false, { a with erected := true })

def attachUser (mcs : Bytes) (written : Bool) : Checked String (Bool × Activation) :=
  if !a.erected ∨ a.attached ∨ mcs.length ≠ 1 then refuse "unexpected Attach User"
  else answer { a with attached := true } written [.mcs [0x2e, 0, 0, 0]]

def channelJoin (mcs : Bytes) (written : Bool) : Checked String (Bool × Activation) :=
  if !a.attached ∨ a.info ∨ mcs.length ≠ 5 ∨ beNat (part mcs 1 2) ≠ 0 then
    refuse "invalid Channel Join"
  else
    let channel := beNat (part mcs 3 2)
    if channel ≠ clientUser ∧ (channel < globalChannel ∨ channel ≥ globalChannel + 1 + a.channels) then
      refuse "unknown MCS channel"
    else
      answer { a with joined := insert channel a.joined } written
        [.mcs ([0x3e, 0] ++ mcs.drop 1 ++ part mcs 3 2)]

def sendData (mcs : Bytes) (written : Bool) : Checked String (Bool × Activation) :=
  if !a.attached ∨ clientUser ∉ a.joined ∨ globalChannel ∉ a.joined then
    refuse "MCS data before channel join"
  else do
    let (channel, data) ← orRefuse (parseSendData mcs)
    if channel ∉ a.joined then refuse "data on unjoined MCS channel"
    else if channel ≠ globalChannel then pure (false, a)
    else a.globalData data written

def handle (mcs : Bytes) (written : Bool) : Checked String (Bool × Activation) :=
  match mcs with
  | [] => refuse "empty MCS PDU"
  | first :: _ =>
    if first >>> 2 = 1 then a.erectDomain mcs
    else if first >>> 2 = 10 then a.attachUser mcs written
    else if first >>> 2 = 14 then a.channelJoin mcs written
    else if first >>> 2 = 25 then a.sendData mcs written
    else if first >>> 2 = 8 then refuse "EOF"
    else refuse ("unexpected MCS PDU " ++ hexText first.toNat)

/-- One packet; the flag tells whether the connection is active. -/
def step (p : ClientPacket) : Checked String (Bool × Activation) :=
  if p.fast then
    if !a.confirmed then refuse "input before Confirm Active" else a.queueInput p.data true
  else do
    let mcs ← unwrapX224 p.data
    a.handle mcs p.written

/-- The loop over at most `count` packets; a stream that ends is an error of the read. -/
def activateLoop : (count : Nat) → Activation → List ClientPacket → Checked String Activation
  | 0, _, _ => refuse "too many activation packets"
  | _ + 1, _, [] => refuse "EOF"
  | count + 1, a, p :: rest => do
    let (done, a) ← a.step p
    if done then pure a else activateLoop count a rest

end Activation

def activate (channels : Nat) (packets : List ClientPacket) : Checked String Activation :=
  Activation.activateLoop 256 (.initial channels) packets

end Gokvm.Rdp
