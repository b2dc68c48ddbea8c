import Gokvm.Lib.FinMap

/-! # Browser sessions, connection grants and leases

The gateway's session store. A browser session is kept under the digest of its cookie; a grant
under the digest of the one-time token a desktop client presents, with the session that issued it.
Every operation runs under the store's mutex, so each is one function on the store.

Times are nanoseconds. Clock readings, random draws and SHA-256 are arguments.
-/

namespace Gokvm.Gateway

open Lib

def minute : Nat := 60 * 1000000000

def connectWindow : Nat := 2 * minute

/-- A connection's cancellation handle. -/
abbrev Lease := Nat

structure Identity where
  username : String
  isAdmin : Bool

structure BrowserSession where
  owner : String
  login : String
  clientIP : String
  csrf : String
  passwordHash : String
  isAdmin : Bool
  expires : Nat
  connections : List Lease

structure ConnectGrant (Digest : Type) where
  session : Digest
  vm : String
  expires : Nat

structure LoginWindow where
  start : Nat
  count : Nat

/-- The three maps, and the leases whose `cancel` has been called. -/
structure SessionStore (Digest : Type) where
  sessions : FinMap Digest BrowserSession
  grants : FinMap Digest (ConnectGrant Digest)
  attempts : FinMap String LoginWindow
  cancelled : List Lease

structure Config where
  maxSessions : Nat
  sessionTTL : Nat

inductive Failure where
  | entropy (reason : String)
  | invalid
  | authentication
  | conflict
  | tooManySessions
deriving DecidableEq

def Failure.text : Failure → String
  | .entropy reason => reason
  | .invalid => "invalid gateway configuration or request"
  | .authentication => "authentication failed"
  | .conflict => "virtual machine operation conflicts with its current state"
  | .tooManySessions =>
    "virtual machine operation conflicts with its current state: too many active sessions"

def newSessionStore {Digest : Type} : SessionStore Digest :=
  { sessions := ∅, grants := ∅, attempts := ∅, cancelled := [] }

/-! ## Tokens -/

/-- What a read of 32 bytes from the random source gives. -/
abbrev Random := Except String (Vector UInt8 32)

def hexDigit (n : Nat) : Char := if n < 10 then Char.ofNat (48 + n) else Char.ofNat (87 + n)

def hexEncode (bytes : List UInt8) : String :=
  String.ofList (bytes.flatMap fun b => [hexDigit (b.toNat / 16), hexDigit (b.toNat % 16)])

def randomToken (random : Random) : Except Failure String :=
  match random with
  | .error reason => .error (.entropy reason)
  | .ok bytes => .ok (hexEncode bytes.toList)

/-- Sixty-four lower-case hexadecimal digits. -/
def tokenShaped (raw : String) : Bool :=
  raw.utf8ByteSize = 64 &&
    raw.toList.all fun c => ('0' ≤ c && c ≤ '9') || ('a' ≤ c && c ≤ 'f')

/-- Login names that no session is opened for. -/
def loginRejected (login : String) : Bool :=
  login = "" || login.utf8ByteSize > 128 || login.toList.any (· ∈ ['\r', '\n', '\x00'])

variable {Digest : Type} (sha256 : String → Digest)

def tokenKey (raw : String) : Option Digest :=
  if tokenShaped raw then some (sha256 raw) else none

theorem tokenKey_eq_some {raw : String} {key : Digest} :
    tokenKey sha256 raw = some key ↔ tokenShaped raw = true ∧ sha256 raw = key := by
  unfold tokenKey
  split <;> simp_all

/-! ## Operations -/

variable [DecidableEq Digest]

namespace SessionStore

def revokeLocked (key : Digest) (s : SessionStore Digest) : SessionStore Digest :=
  let s := match s.sessions.lookup key with
    | some sess =>
      { s with
          cancelled := sess.connections ++ s.cancelled
          sessions := AList.erase key s.sessions }
    | none => s
  { s with grants := s.grants.discard fun _ grant => grant.session = key }

def revoke (key : Digest) (s : SessionStore Digest) : SessionStore Digest := s.revokeLocked key

def pruneLocked (now : Nat) (s : SessionStore Digest) : SessionStore Digest :=
  -- The range visits every session once; a revocation removes only the one visited.
  let s := s.sessions.entries.foldl
    (fun s e => if now < e.2.expires then s else s.revokeLocked e.1) s
  { s with
      grants := s.grants.discard fun _ grant => !(now < grant.expires)
      attempts := s.attempts.discard fun _ window => minute ≤ now - window.start }

/-- `newLoginSession`; the clock is read once to prune and once more to stamp. -/
def newLoginSession (config : Config) (identity : Identity) (login ip hash : String)
    (random csrfRandom : Random) (now stamp : Nat) (s : SessionStore Digest) :
    Except Failure String × SessionStore Digest :=
  if loginRejected login then (.error .invalid, s)
  else match randomToken random with
  | .error failure => (.error failure, s)
  | .ok raw => match randomToken csrfRandom with
    | .error failure => (.error failure, s)
    | .ok csrf =>
      let s := s.pruneLocked now
      if config.maxSessions ≤ s.sessions.entries.length then (.error .tooManySessions, s)
      else
        (.ok raw, { s with
          sessions := AList.insert (sha256 raw)
            { owner := identity.username
              login
              clientIP := ip
              csrf
              passwordHash := hash
              isAdmin := identity.isAdmin
              expires := stamp + config.sessionTTL
              connections := [] } s.sessions })

def session (raw ip : String) (now : Nat) (s : SessionStore Digest) :
    Option (Digest × BrowserSession) × SessionStore Digest :=
  match tokenKey sha256 raw with
  | none => (none, s)
  | some key =>
    if ip = "" then (none, s)
    else match s.sessions.lookup key with
    | none => (none, s)
    | some sess =>
      if sess.clientIP ≠ ip then (none, s)
      else if ¬ now < sess.expires then (none, s.revokeLocked key)
      else (some (key, { sess with connections := [] }), s)

def allowLogin (ip : String) (now : Nat) (s : SessionStore Digest) :
    Bool × SessionStore Digest :=
  let s := s.pruneLocked now
  let found := s.attempts.lookup ip
  if ip = "" ∨ (found.isNone ∧ 4096 ≤ s.attempts.entries.length) then (false, s)
  else
    let window := found.getD { start := now, count := 0 }
    let window := { window with count := window.count + 1 }
    (window.count ≤ 10, { s with attempts := AList.insert ip window s.attempts })

def grant (key : Digest) (vm : String) (random : Random) (now : Nat) (s : SessionStore Digest) :
    Except Failure String × SessionStore Digest :=
  match randomToken random with
  | .error failure => (.error failure, s)
  | .ok raw =>
    let s := s.pruneLocked now
    match s.sessions.lookup key with
    | none => (.error .authentication, s)
    | some sess =>
      let count := s.grants.countIf fun _ grant => grant.session = key && grant.vm ≠ vm
      let s := { s with
        grants := s.grants.discard fun _ grant => grant.session = key && grant.vm = vm }
      if 32 ≤ count then (.error .conflict, s)
      else
        (.ok raw, { s with
          grants := AList.insert (sha256 raw)
            { session := key, vm, expires := min (now + connectWindow) sess.expires }
            s.grants })

/-- Registers the lease with the session kept under the key. -/
def register (key : Digest) (sess : BrowserSession) (lease : Lease) (s : SessionStore Digest) :
    SessionStore Digest :=
  { s with
      sessions := AList.insert key { sess with connections := lease :: sess.connections }
        s.sessions }

/-- The checks of a token that `pendingGrant` and `claimGrant` share: its grant and session, after
    pruning. -/
def presented (raw ip : String) (now : Nat) (s : SessionStore Digest) :
    Option (ConnectGrant Digest × BrowserSession) × SessionStore Digest :=
  match tokenKey sha256 raw with
  | none => (none, s)
  | some verifier =>
    if ip = "" then (none, s)
    else
      let s := s.pruneLocked now
      match s.grants.lookup verifier with
      | none => (none, s)
      | some grant => match s.sessions.lookup grant.session with
        | none => (none, s)
        | some sess => if sess.clientIP ≠ ip then (none, s) else (some (grant, sess), s)

/-- `pendingGrant`; answers the session's owner and the grant's machine. -/
def pendingGrant (raw ip : String) (lease : Lease) (now : Nat) (s : SessionStore Digest) :
    Option (String × String) × SessionStore Digest :=
  match s.presented sha256 raw ip now with
  | (none, s) => (none, s)
  | (some (grant, sess), s) =>
    (some (sess.owner, grant.vm), s.register grant.session sess lease)

def claimGrant (raw ip : String) (now : Nat) (s : SessionStore Digest) :
    Bool × SessionStore Digest :=
  match s.presented sha256 raw ip now with
  | (none, s) => (false, s)
  | (some _, s) => (true, { s with grants := AList.erase (sha256 raw) s.grants })

/-- `uploadContext` of the administration pages: the other holder of leases. -/
def uploadContext (key : Digest) (lease : Lease) (now : Nat) (s : SessionStore Digest) :
    Bool × SessionStore Digest :=
  let s := s.pruneLocked now
  match s.sessions.lookup key with
  | none => (false, s)
  | some sess => if sess.isAdmin then (true, s.register key sess lease) else (false, s)

def cancel (lease : Lease) (s : SessionStore Digest) : SessionStore Digest :=
  { s with cancelled := lease :: s.cancelled }

/-- The `release` of a registered lease: it is cancelled, then dropped from its session. -/
def release (key : Digest) (lease : Lease) (s : SessionStore Digest) : SessionStore Digest :=
  let s := s.cancel lease
  match s.sessions.lookup key with
  | none => s
  | some sess =>
    { s with
        sessions := AList.insert key
          { sess with connections := sess.connections.filter (· ≠ lease) } s.sessions }

end SessionStore

end Gokvm.Gateway
