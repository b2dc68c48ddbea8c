import Gokvm.Lib.FinMap

/-! # Admission of connections

The listener tracks every connection it admits: pending until it is authenticated, then
authenticated until it is closed; global and per-peer counters bound both. Each operation is the
part of a source function under the server's mutex, or a step outside of it, so a list of events
is an interleaving of the goroutines.

Times are nanoseconds. An access through a nil pointer is `none`.
-/

namespace Gokvm.Gateway

open Lib

def maxAdmissionPeers : Nat := 4096

def admissionPeerTTL : Int := 60 * 1000000000

/-! ## Configuration -/

structure ConnectionConfig where
  maxConnections : Int
  maxHandshakes : Int
  maxConnectionsPerIP : Int
  maxHandshakesPerIP : Int
  connectionRateLimit : Int
  connectionRateLimitPerIP : Int
  handshakeTimeout : Int

/-- A limit that passed its check. -/
abbrev Limit := { value : Int // 1 ≤ value }

/-- A limit of zero stands for the fallback; others lie between one and a maximum. -/
def limitOf (value fallback most : Int) : Option Limit :=
  let value := if value = 0 then fallback else value
  if valid : 1 ≤ value ∧ value ≤ most then some ⟨value, valid.1⟩ else none

structure AdmissionLimits where
  maxConnections : Limit
  maxHandshakes : Limit
  maxConnectionsPerIP : Limit
  maxHandshakesPerIP : Limit
  connectionRateLimit : Limit
  connectionRateLimitPerIP : Limit
  handshakeTimeout : Int

/-- `validateConnectionConfig`, with the check of the connections that `NewServer` makes. -/
def validateConnectionConfig (c : ConnectionConfig) : Option AdmissionLimits := do
  let maxConnections ← limitOf c.maxConnections 128 4096
  let maxHandshakes ← limitOf c.maxHandshakes 64 4096
  let maxConnectionsPerIP ← limitOf c.maxConnectionsPerIP 32 4096
  let maxHandshakesPerIP ← limitOf c.maxHandshakesPerIP 8 4096
  let connectionRateLimit ← limitOf c.connectionRateLimit 128 100000
  let connectionRateLimitPerIP ← limitOf c.connectionRateLimitPerIP 8 100000
  let handshakeTimeout := if c.handshakeTimeout = 0 then 10 * 1000000000 else c.handshakeTimeout
  if handshakeTimeout < 1000000000 ∨ handshakeTimeout > 60 * 1000000000 then none
  else
    some
      { maxConnections, maxHandshakes, maxConnectionsPerIP, maxHandshakesPerIP
        connectionRateLimit, connectionRateLimitPerIP, handshakeTimeout }

/-! ## Peers -/

/-- `netip.Addr` without its zone. -/
inductive Addr where
  | v4 (bits : BitVec 32)
  | v6 (bits : BitVec 128)
deriving DecidableEq

/-- `Unmap`: an IPv4 address in IPv6 form. -/
def Addr.unmap : Addr → Addr
  | v4 bits => .v4 bits
  | v6 bits => if bits.extractLsb' 32 96 = 0xffff#96 then .v4 (bits.extractLsb' 0 32) else .v6 bits

/-- `admissionIP`: one IPv6 network is one peer. An address that cannot be parsed is absent. -/
def admissionIP (remote : Option Addr) : Option Addr :=
  remote.map fun addr => match addr.unmap with
    | .v4 bits => .v4 bits
    | .v6 bits => .v6 (bits >>> 64 <<< 64)

/-- At most one second of the rate can be used at once. -/
structure ConnectionBucket where
  tokens : Float := 0
  last : Option Int := none

/-- `time.Duration.Seconds`. -/
def seconds (duration : Int) : Float :=
  Float.ofInt (duration.tdiv 1000000000) + Float.ofInt (duration.tmod 1000000000) / 1e9

def ConnectionBucket.available (b : ConnectionBucket) (now rate : Int) : Bool × ConnectionBucket :=
  let rate := Float.ofInt rate
  let tokens := match b.last with
    | none => rate
    | some last => min rate (b.tokens + max 0 (seconds (now - last)) * rate)
  (decide (1 ≤ tokens), { tokens, last := some now })

def ConnectionBucket.take (b : ConnectionBucket) : ConnectionBucket := { b with tokens := b.tokens - 1 }

structure ConnectionPeer where
  pending : Int := 0
  total : Int := 0
  lastSeen : Int := 0
  bucket : ConnectionBucket := {}

structure TrackedConn where
  ip : Addr
  deadline : Int
  authenticated : Bool := false
  expired : Bool := false
  /-- The connection's context has been cancelled. -/
  cancelled : Bool := false

/-- What the server's mutex guards. The `once` of a connection's `Close` has run exactly when it is
    no longer tracked. -/
structure ConnectionAdmission where
  pending : Int
  authenticated : Int
  peers : FinMap Addr ConnectionPeer
  global : ConnectionBucket
  nextPrune : Int
  connections : FinMap Nat TrackedConn
  issued : Nat
  draining : Bool

namespace ConnectionAdmission

def initial : ConnectionAdmission where
  pending := 0
  authenticated := 0
  peers := ∅
  global := {}
  nextPrune := 0
  connections := ∅
  issued := 0
  draining := false

/-- `pruneAdmissionLocked`. -/
def prune (s : ConnectionAdmission) (now : Int) : ConnectionAdmission :=
  { s with
      peers := s.peers.discard fun _ peer => peer.total = 0 && admissionPeerTTL ≤ now - peer.lastSeen
      nextPrune := now + admissionPeerTTL }

/-- The connection of a peer that is within all limits. -/
def track (s : ConnectionAdmission) (limits : AdmissionLimits) (ip : Addr) (peer : ConnectionPeer)
    (now : Int) : ConnectionAdmission :=
  let peer :=
    { peer with
        bucket := peer.bucket.take, total := peer.total + 1, pending := peer.pending + 1, lastSeen := now }
  { s with
      global := s.global.take
      peers := s.peers.insert ip peer
      pending := s.pending + 1
      connections := s.connections.insert s.issued { ip, deadline := now + limits.handshakeTimeout }
      issued := s.issued + 1 }

/-- A known peer is changed in the table; a new one is not in it yet. -/
def asked (s : ConnectionAdmission) (ip : Addr) (peer : ConnectionPeer) (known : Bool) : ConnectionAdmission :=
  if known then { s with peers := s.peers.insert ip peer } else s

/-- Asks the buckets for a peer with room. A known peer's bucket changes even when the connection is
    refused. -/
def admitPeer (s : ConnectionAdmission) (limits : AdmissionLimits) (ip : Addr) (peer : ConnectionPeer)
    (known : Bool) (now : Int) : ConnectionAdmission × Option Nat :=
  if peer.total ≥ limits.maxConnectionsPerIP.1 ∨ peer.pending ≥ limits.maxHandshakesPerIP.1 then (s, none)
  else
    let (free, bucket) := peer.bucket.available now limits.connectionRateLimitPerIP.1
    let peer := { peer with bucket }
    let s := s.asked ip peer known
    if !free then (s, none)
    else
      let (free, global) := s.global.available now limits.connectionRateLimit.1
      let s := { s with global }
      if !free then (s, none) else (s.track limits ip peer now, some s.issued)

/-- `admitConnection`: the number of the connection when it is admitted. -/
def admitConnection (s : ConnectionAdmission) (limits : AdmissionLimits) (remote : Option Addr) (ctxErr : Bool)
    (now : Int) : ConnectionAdmission × Option Nat :=
  match admissionIP remote with
  | none => (s, none)
  | some ip =>
    if s.draining ∨ ctxErr ∨ s.pending ≥ limits.maxHandshakes.1 then (s, none)
    else
      let s := if now < s.nextPrune then s else s.prune now
      match s.peers.lookup ip with
      | some peer => s.admitPeer limits ip peer true now
      | none =>
        if s.peers.entries.length ≥ maxAdmissionPeers then (s, none)
        else s.admitPeer limits ip {} false now

def mark (s : ConnectionAdmission) (id : Nat) (conn : TrackedConn) : ConnectionAdmission :=
  { s with connections := s.connections.insert id conn }

/-- `expireConnection` under the mutex; the `Close` that follows is another event. -/
def expire (s : ConnectionAdmission) (id : Nat) : ConnectionAdmission :=
  match s.connections.lookup id with
  | some conn => if conn.authenticated then s else s.mark id { conn with expired := true }
  | none => s

/-- The context of a connection is cancelled: by its `Close`, or by the server's context. -/
def cancel (s : ConnectionAdmission) (id : Nat) : ConnectionAdmission :=
  match s.connections.lookup id with
  | some conn => s.mark id { conn with cancelled := true }
  | none => s

/-- `promoteConnection`. -/
def promote (s : ConnectionAdmission) (limits : AdmissionLimits) (id : Nat) (now : Int) :
    Option (ConnectionAdmission × Bool) :=
  match s.connections.lookup id with
  | none => some (s, false)
  | some conn =>
    if conn.expired ∨ s.draining ∨ conn.cancelled then some (s, false)
    else if conn.authenticated then some (s, true)
    else if conn.deadline ≤ now ∨ s.authenticated ≥ limits.maxConnections.1 then some (s, false)
    else do
      let peer ← s.peers.lookup conn.ip
      let s := s.mark id { conn with authenticated := true }
      some
        ({ s with
            pending := s.pending - 1
            authenticated := s.authenticated + 1
            peers := s.peers.insert conn.ip { peer with pending := peer.pending - 1 } }, true)

/-- The part of `Close` that runs once. -/
def close (s : ConnectionAdmission) (id : Nat) (now : Int) : Option ConnectionAdmission :=
  match s.connections.lookup id with
  | none => some s
  | some conn => do
    let peer ← s.peers.lookup conn.ip
    let s := { s with connections := s.connections.erase id }
    let peer := { peer with total := peer.total - 1, lastSeen := now }
    if conn.authenticated then
      some { s with authenticated := s.authenticated - 1, peers := s.peers.insert conn.ip peer }
    else
      some
        { s with
            pending := s.pending - 1
            peers := s.peers.insert conn.ip { peer with pending := peer.pending - 1 } }

inductive Event where
  | arrive (remote : Option Addr) (ctxErr : Bool) (now : Int)
  | expire (id : Nat)
  | cancel (id : Nat)
  | promote (id : Nat) (now : Int)
  | close (id : Nat) (now : Int)
  | prune (now : Int)
  | drain

def act (s : ConnectionAdmission) (limits : AdmissionLimits) : Event → Option ConnectionAdmission
  | .arrive remote ctxErr now => some (s.admitConnection limits remote ctxErr now).1
  | .expire id => some (s.expire id)
  | .cancel id => some (s.cancel id)
  | .promote id now => (s.promote limits id now).map Prod.fst
  | .close id now => s.close id now
  | .prune now => some (s.prune now)
  | .drain => some { s with draining := true }

def run (limits : AdmissionLimits) : ConnectionAdmission → List Event → Option ConnectionAdmission
  | s, [] => some s
  | s, event :: rest => do
    let s ← s.act limits event
    run limits s rest

end ConnectionAdmission

end Gokvm.Gateway
