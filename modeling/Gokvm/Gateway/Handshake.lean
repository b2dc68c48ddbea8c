import Gokvm.Lib.Prog
import Gokvm.Gateway.ClientInfo

/-! # The exchange before authentication

`verifyRDPClient` stands between a client and the desktop's console until the password has been
checked. It relays the connection messages one by one and, at the end, the Client Info PDU without
its password.

Each peer sends a byte string; a shorter one is a peer that closed the connection or let the
deadline pass. A list of outcomes says how each `Write` ends; the trace records what was written
and when the password check passed.
-/

namespace Gokvm.Gateway

open Lib Rdp

inductive Side where
  | front
  | backend
deriving DecidableEq

inductive Signal where
  /-- A packet was written; all of it or a part got through. -/
  | wrote (side : Side) (packet through : Bytes)
  /-- The authenticator accepted the credentials. -/
  | verified (credentials : Credentials)
deriving DecidableEq

/-- The two connections, and the handshake's budget. -/
structure Wire where
  front : Bytes
  backend : Bytes
  writes : List (Nat × Bool)
  remaining : Nat
  reads : Nat
  trace : List Signal

/-- What the exchange asks of its surroundings. -/
structure Surroundings where
  authenticate : Option (Credentials → Bool)
  liveBefore : Bool
  liveAfter : Bool

abbrev Exchange := Prog Wire GateFault

/-! ## Reading and writing -/

def Wire.stream (w : Wire) : Side → Bytes
  | .front => w.front
  | .backend => w.backend

def Wire.advance (w : Wire) (n : Nat) : Side → Wire
  | .front => { w with front := w.front.drop n }
  | .backend => { w with backend := w.backend.drop n }

def readFull (side : Side) (n : Nat) : Exchange Bytes := fun w =>
  if n ≤ (w.stream side).length then (.ok ((w.stream side).take n), w.advance n side)
  else (.error .transport, w.advance (w.stream side).length side)

/-- `rdpHandshake.read`: the packet and the MCS message in it. -/
def readPacket (side : Side) : Exchange (Bytes × Bytes) := do
  Prog.update fun w => { w with reads := w.reads + 1 }
  let header ← readFull side 4
  let n := beNat (part header 2 2)
  let w ← Prog.read
  if header.getD 0 0 ≠ 3 ∨ header.getD 1 0 ≠ 0 ∨ n < 8 ∨ n > w.remaining then
    Prog.fail .authentication
  else
    Prog.update fun w => { w with remaining := w.remaining - n }
    let rest ← readFull side (n - 4)
    let packet := header ++ rest
    if part packet 4 3 ≠ [2, 0xf0, 0x80] then Prog.fail .authentication
    else return (packet, packet.drop 7)

/-- The loop of `writePacket`: how it ends, what got through, and the outcomes not used. -/
def deliver : List (Nat × Bool) → Bytes → Bytes → Except GateFault Unit × Bytes × List (Nat × Bool)
  | writes, [], sent => (.ok (), sent, writes)
  | [], packet, sent => (.ok (), sent ++ packet, [])
  | (n, failed) :: writes, packet, sent =>
    let sent := sent ++ packet.take n
    if failed then (.error .transport, sent, writes)
    else if n = 0 then (.error .shortWrite, sent, writes)
    else deliver writes (packet.drop n) sent

def writePacket (side : Side) (packet : Bytes) : Exchange Unit := fun w =>
  let (result, sent, writes) := deliver w.writes packet []
  (result, { w with writes, trace := w.trace ++ [.wrote side packet sent] })

/-! ## The messages -/

def validMCSConnect (mcs : Bytes) (kind : UInt8) : Bool :=
  if mcs.length < 3 ∨ mcs.getD 0 0 ≠ 0x7f ∨ mcs.getD 1 0 ≠ kind then false
  else
    let n := (mcs.getD 2 0).toNat
    if n &&& 0x80 ≠ 0 then
      let count := n &&& 0x7f
      if count = 0 ∨ count > 2 ∨ mcs.length < 3 + count then false
      else (part mcs 3 count).foldl (fun n b => n <<< 8 ||| b.toNat) 0 = mcs.length - (3 + count)
    else n = mcs.length - 3

def connect : Exchange Unit := do
  let (request, body) ← readPacket .front
  if ¬ validMCSConnect body 0x65 then Prog.fail .authentication
  else
    writePacket .backend request
    let (reply, body) ← readPacket .backend
    if ¬ validMCSConnect body 0x66 then Prog.fail .authentication
    else writePacket .front reply

def erectDomain : Bytes := [4, 1, 0, 1, 0]

def attachUser : Bytes := [0x28]

def attachConfirm : Bytes := [0x2e, 0, 0, 0]

/-- One pass of the loop in `attach`. -/
def relayExactly (want : Bytes) : Exchange Unit := do
  let (request, body) ← readPacket .front
  if body ≠ want then Prog.fail .authentication
  else writePacket .backend request

def attach : Exchange Unit := do
  Prog.each relayExactly [erectDomain, attachUser]
  let (reply, body) ← readPacket .backend
  if body ≠ attachConfirm then Prog.fail .authentication
  else writePacket .front reply

def authenticatedClientInfo (around : Surroundings) (authenticate : Credentials → Bool)
    (mcs : Bytes) : Exchange Bytes := do
  let (credentials, sanitized) ← Prog.query fun _ => parseClientInfo mcs
  if ¬ around.liveBefore then Prog.fail .cancelled
  else if ¬ authenticate credentials then Prog.fail .authentication
  else
    Prog.update fun w => { w with trace := w.trace ++ [.verified credentials] }
    if ¬ around.liveAfter then Prog.fail .cancelled
    else return sanitized

/-- The loop over channel joins, with the passes left and the channels joined so far. -/
def joinChannels (around : Surroundings) (authenticate : Credentials → Bool) :
    Nat → List Nat → Exchange Unit
  | 0, _ => Prog.fail .authentication
  | packets + 1, joined => do
    let (packet, mcs) ← readPacket .front
    if mcs.getD 0 0 = 0x64 then
      if 1001 ∉ joined ∨ 1003 ∉ joined then Prog.fail .authentication
      else
        let sanitized ← authenticatedClientInfo around authenticate mcs
        writePacket .backend sanitized
    else if mcs.length ≠ 5 ∨ mcs.getD 0 0 ≠ 0x38 ∨ beNat (part mcs 1 2) ≠ 0 then
      Prog.fail .authentication
    else
      let channel := beNat (part mcs 3 2)
      if channel ∈ joined then Prog.fail .authentication
      else
        writePacket .backend packet
        let (reply, body) ← readPacket .backend
        if body ≠ [0x3e, 0] ++ mcs.drop 1 ++ part mcs 3 2 then Prog.fail .authentication
        else
          writePacket .front reply
          joinChannels around authenticate packets (channel :: joined)

def verifyRDPClient (around : Surroundings) : Exchange Unit :=
  match around.authenticate with
  | none => Prog.fail .authentication
  | some authenticate => do
    Prog.update fun w => { w with remaining := 256 <<< 10 }
    connect
    attach
    joinChannels around authenticate 34 []

def Wire.fresh (front backend : Bytes) (writes : List (Nat × Bool)) : Wire :=
  { front, backend, writes, remaining := 0, reads := 0, trace := [] }

/-! ## What may be written -/

/-- How far the exchange has come, as the peers and the authenticator see it. -/
inductive Phase where
  | start
  | connecting
  | connected
  | erected
  | attaching
  | joining (joined : List Nat)
  | confirming (channel : Nat) (joined : List Nat)
  | verified
  | finished
  | broken
deriving DecidableEq

/-- A frame of a Client Info PDU whose password is empty. -/
def passwordless (packet : Bytes) : Bool :=
  match parseSendData (packet.drop 7) with
  | .ok (1003, body) =>
    match ClientInfo.walk body with
    | some f => f.password = []
    | none => false
  | _ => false

def channelJoinRequest (channel : Nat) : Bytes := [0x38, 0, 0] ++ beBytes 2 channel

def channelJoinConfirm (channel : Nat) : Bytes :=
  [0x3e, 0, 0, 0] ++ (beBytes 2 channel ++ beBytes 2 channel)

/-- The one packet that may be written next, and to whom. -/
def Phase.next (packet : Bytes) : Side → Phase → Option Phase
  | .backend, .start =>
    if packet = tpkt (packet.drop 7) ∧ validMCSConnect (packet.drop 7) 0x65 then some .connecting
    else none
  | .front, .connecting =>
    if packet = tpkt (packet.drop 7) ∧ validMCSConnect (packet.drop 7) 0x66 then some .connected
    else none
  | .backend, .connected => if packet = tpkt erectDomain then some .erected else none
  | .backend, .erected => if packet = tpkt attachUser then some .attaching else none
  | .front, .attaching => if packet = tpkt attachConfirm then some (.joining []) else none
  | .backend, .joining joined =>
    let channel := beNat (part packet 10 2)
    if packet = tpkt (channelJoinRequest channel) ∧ channel ∉ joined then
      some (.confirming channel joined)
    else none
  | .front, .confirming channel joined =>
    if packet = tpkt (channelJoinConfirm channel) then some (.joining (channel :: joined))
    else none
  | .backend, .verified => if passwordless packet then some .finished else none
  | _, _ => none

/-- The password check comes after both joins; nothing follows the Client Info or a cut packet. -/
def Phase.observe (phase : Phase) : Signal → Option Phase
  | .wrote side packet through =>
    match phase.next packet side with
    | none => none
    | some next =>
      if through = packet then some next
      else if through <+: packet then some .broken
      else none
  | .verified _ =>
    match phase with
    | .joining joined => if 1001 ∈ joined ∧ 1003 ∈ joined then some .verified else none
    | _ => none

end Gokvm.Gateway
