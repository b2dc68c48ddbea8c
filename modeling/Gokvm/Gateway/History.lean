import Gokvm.Gateway.Revocation

/-! # Runs of the session store

The gateway's goroutines share the store and its mutex, so together they make some sequence of
calls, in any order and with any arguments. A run keeps the store and the history of calls and
answers, and what the store promises is said about the history: which sessions were opened, which
tokens were issued and accepted, and which sessions had ended by then.
-/

namespace Gokvm.Gateway

open Lib List

inductive Call (Digest : Type) where
  | newLoginSession (identity : Identity) (login ip hash : String) (random csrfRandom : Random)
      (now stamp : Nat)
  | session (raw ip : String) (now : Nat)
  | revoke (key : Digest)
  | prune (now : Nat)
  | allowLogin (ip : String) (now : Nat)
  | grant (key : Digest) (vm : String) (random : Random) (now : Nat)
  | pendingGrant (raw ip : String) (now : Nat)
  | claimGrant (raw ip : String) (now : Nat)
  | uploadContext (key : Digest) (now : Nat)
  | cancel (lease : Lease)
  | release (key : Digest) (lease : Lease)

inductive Answer (Digest : Type) where
  | token (result : Except Failure String)
  | session (found : Option (Digest × BrowserSession))
  | pending (found : Option (String × String))
  | verdict (accepted : Bool)
  | done

structure Event (Digest : Type) where
  call : Call Digest
  answer : Answer Digest

/-- The calls made so far, newest first. -/
abbrev History (Digest : Type) := List (Event Digest)

structure World (Digest : Type) where
  store : SessionStore Digest
  history : History Digest

section Run

variable {Digest : Type} [DecidableEq Digest] (sha256 : String → Digest) (config : Config)

/-- One call. A release is two actions: `cancel`, and one that takes the mutex. -/
def perform (lease : Lease) (s : SessionStore Digest) :
    Call Digest → Answer Digest × SessionStore Digest
  | .newLoginSession identity login ip hash random csrfRandom now stamp =>
    (s.newLoginSession sha256 config identity login ip hash random csrfRandom now stamp).map
      .token id
  | .session raw ip now => (s.session sha256 raw ip now).map .session id
  | .revoke key => (.done, s.revoke key)
  | .prune now => (.done, s.pruneLocked now)
  | .allowLogin ip now => (s.allowLogin ip now).map .verdict id
  | .grant key vm random now => (s.grant sha256 key vm random now).map .token id
  | .pendingGrant raw ip now => (s.pendingGrant sha256 raw ip lease now).map .pending id
  | .claimGrant raw ip now => (s.claimGrant sha256 raw ip now).map .verdict id
  | .uploadContext key now => (s.uploadContext key lease now).map .verdict id
  | .cancel lease => (.done, s.cancel lease)
  | .release key lease => (.done, s.release key lease)

/-- The lease a call makes is numbered by the calls before it. -/
def World.step (w : World Digest) (call : Call Digest) : World Digest :=
  let (answer, store) := perform sha256 config w.history.length w.store call
  { store, history := ⟨call, answer⟩ :: w.history }

def run (calls : List (Call Digest)) : World Digest :=
  calls.foldl (World.step sha256 config) { store := newSessionStore, history := [] }

end Run

/-! ## What a history says -/

structure Opening (Digest : Type) where
  key : Digest
  ip : String
  expires : Nat

structure Issue (Digest : Type) where
  raw : String
  key : Digest
  vm : String
  time : Nat

structure Admission where
  raw : String
  ip : String
  vm : String
  now : Nat

structure Claim where
  raw : String
  ip : String
  now : Nat

section Facts

variable {Digest : Type} (sha256 : String → Digest) (config : Config)

/-- The session or grant token a call draws. -/
def Call.drawn : Call Digest → List String
  | .newLoginSession _ login _ _ random _ _ _ =>
    if loginRejected login then [] else (randomToken random).toOption.toList
  | .grant _ _ random _ => (randomToken random).toOption.toList
  | _ => []

/-- When the call prunes the store, by its own reading of the clock. -/
def Call.prunesAt : Call Digest → Option Nat
  | .newLoginSession _ login _ _ random csrfRandom now _ =>
    if loginRejected login then none
    else match randomToken random, randomToken csrfRandom with
    | .ok _, .ok _ => some now
    | _, _ => none
  | .prune now => some now
  | .allowLogin _ now => some now
  | .grant _ _ random now => (randomToken random).toOption.map fun _ => now
  | .pendingGrant raw ip now => if tokenShaped raw ∧ ip ≠ "" then some now else none
  | .claimGrant raw ip now => if tokenShaped raw ∧ ip ≠ "" then some now else none
  | .uploadContext _ now => some now
  | _ => none

namespace Event

/-- The session a login opened. -/
def opened (e : Event Digest) : Option (Opening Digest) :=
  match e.call, e.answer with
  | .newLoginSession _ _ ip _ _ _ _ stamp, .token (.ok raw) =>
    some ⟨sha256 raw, ip, stamp + config.sessionTTL⟩
  | _, _ => none

/-- The token a session issued for a machine. -/
def issued (e : Event Digest) : Option (Issue Digest) :=
  match e.call, e.answer with
  | .grant key vm _ now, .token (.ok raw) => some ⟨raw, key, vm, now⟩
  | _, _ => none

/-- The connection a token let in to authenticate. -/
def admitted (e : Event Digest) : Option Admission :=
  match e.call, e.answer with
  | .pendingGrant raw ip now, .pending (some (_, vm)) => some ⟨raw, ip, vm, now⟩
  | _, _ => none

/-- The token a connection spent. -/
def claimed (e : Event Digest) : Option Claim :=
  match e.call, e.answer with
  | .claimGrant raw ip now, .verdict true => some ⟨raw, ip, now⟩
  | _, _ => none

/-- The session an upload was bound to. -/
def uploaded (e : Event Digest) : Option Digest :=
  match e.call, e.answer with
  | .uploadContext key _, .verdict true => some key
  | _, _ => none

end Event

namespace History

def drawn (h : History Digest) : List String := h.flatMap fun e => e.call.drawn

def claims (h : History Digest) : List String := h.filterMap fun e => e.claimed.map Claim.raw

def Opened (h : History Digest) (o : Opening Digest) : Prop :=
  ∃ e ∈ h, e.opened sha256 config = some o

def Issued (h : History Digest) (i : Issue Digest) : Prop := ∃ e ∈ h, e.issued = some i

/-- The token was issued, and its session issued no other one for the machine since. -/
def Newest : History Digest → Issue Digest → Prop
  | [], _ => False
  | e :: h, i =>
    e.issued = some i ∨
      (Newest h i ∧ ∀ j, e.issued = some j → ¬ (j.key = i.key ∧ j.vm = i.vm))

/-- The call ends the session: it revokes it, or looks it up or prunes after its time. -/
def Ends (h : History Digest) (call : Call Digest) (key : Digest) : Prop :=
  ∃ ip expires, Opened sha256 config h ⟨key, ip, expires⟩ ∧
    match call with
    | .revoke revoked => revoked = key
    | .session raw ip' now =>
      tokenKey sha256 raw = some key ∧ ip' ≠ "" ∧ ip' = ip ∧ expires ≤ now
    | call => ∃ now, call.prunesAt = some now ∧ expires ≤ now

def Ended : History Digest → Digest → Prop
  | [], _ => False
  | e :: h, key => Ended h key ∨ Ends sha256 config h e.call key

/-- The event registers a lease with the session: for one of its tokens, or for an upload. -/
def Registers (h : History Digest) (e : Event Digest) (key : Digest) : Prop :=
  (∃ a i, e.admitted = some a ∧ Issued h i ∧ i.raw = a.raw ∧ i.key = key) ∨ e.uploaded = some key

def Leased : History Digest → Digest → Lease → Prop
  | [], _, _ => False
  | e :: h, key, lease => Leased h key lease ∨ (lease = h.length ∧ Registers h e key)

/-- What must have happened, and must not have, for a token to be accepted. -/
structure Entitled (h : History Digest) (raw ip : String) (now : Nat) (key : Digest)
    (vm : String) : Prop where
  token : ∃ time, Newest h ⟨raw, key, vm, time⟩ ∧ now < time + connectWindow
  sole : ∀ i, Issued h i → i.raw = raw → i.key = key ∧ i.vm = vm
  session : ∃ expires, Opened sha256 config h ⟨key, ip, expires⟩ ∧ now < expires
  alive : ¬ Ended sha256 config h key

end History

end Facts

open History

variable {Digest : Type} {sha256 : String → Digest} {config : Config}

/-! ## Histories one event longer -/

variable {h : History Digest} {e : Event Digest}

theorem History.Newest.issued {i : Issue Digest} (newest : Newest h i) :
    Issued h i := by
  induction h with
  | nil => exact newest.elim
  | cons e h ih =>
    rcases newest with here | ⟨older, _⟩
    · exact ⟨e, mem_cons_self, here⟩
    · obtain ⟨e', member, issued⟩ := ih older
      exact ⟨e', mem_cons_of_mem e member, issued⟩

theorem History.opened_cons {o : Opening Digest} :
    Opened sha256 config (e :: h) o ↔ e.opened sha256 config = some o ∨ Opened sha256 config h o := by
  simp only [Opened, mem_cons, or_and_right, exists_or, exists_eq_left]

theorem History.issued_cons {i : Issue Digest} :
    Issued (e :: h) i ↔ e.issued = some i ∨ Issued h i := by
  simp only [Issued, mem_cons, or_and_right, exists_or, exists_eq_left]

theorem History.drawn_cons (e : Event Digest) (h : History Digest) :
    drawn (e :: h) = e.call.drawn ++ drawn h := flatMap_cons

theorem History.mem_claims_cons {raw : String} :
    raw ∈ claims (e :: h) ↔ (∃ c, e.claimed = some c ∧ c.raw = raw) ∨ raw ∈ claims h := by
  cases found : e.claimed with
  | none => simp [claims, found]
  | some c => simp [claims, found, eq_comm]

theorem History.Ended.opened {key : Digest} (ended : Ended sha256 config h key) : ∃ ip expires, Opened sha256 config h ⟨key, ip, expires⟩ := by
  induction h with
  | nil => exact ended.elim
  | cons e h ih =>
    have older : ∃ ip expires, Opened sha256 config h ⟨key, ip, expires⟩ := by
      rcases ended with older | ⟨ip, expires, opened, _⟩
      · exact ih older
      · exact ⟨ip, expires, opened⟩
    obtain ⟨ip, expires, opened⟩ := older
    exact ⟨ip, expires, opened_cons.mpr (.inr opened)⟩

/-! ## What holds of the history -/

/-- The accepted token was entitled to it by what had happened before. -/
def Vetted (sha256 : String → Digest) (config : Config) (e : Event Digest) (h : History Digest) :
    Prop :=
  (∀ a, e.admitted = some a → ∃ key, Entitled sha256 config h a.raw a.ip a.now key a.vm) ∧
    ∀ c, e.claimed = some c → ∃ key vm, Entitled sha256 config h c.raw c.ip c.now key vm

structure HistoryOk (sha256 : String → Digest) (config : Config) (h : History Digest) : Prop where
  opened : ∀ o, Opened sha256 config h o →
    ∃ raw ∈ drawn h, tokenShaped raw = true ∧ sha256 raw = o.key
  openedOnce : ∀ o o', Opened sha256 config h o → Opened sha256 config h o' → o.key = o'.key → o = o'
  issued : ∀ i, Issued h i → i.raw ∈ drawn h ∧ tokenShaped i.raw = true
  issuedOnce : ∀ i i', Issued h i → Issued h i' → i.raw = i'.raw → i = i'
  claimed : ∀ raw ∈ claims h, raw ∈ drawn h
  claimedOnce : (claims h).Nodup
  vetted : ∀ e older, e :: older <:+ h → Vetted sha256 config e older

theorem HistoryOk.nil : HistoryOk sha256 config [] where
  opened := by simp [Opened]
  openedOnce := by simp [Opened]
  issued := by simp [Issued]
  issuedOnce := by simp [Issued]
  claimed := by simp [claims]
  claimedOnce := nodup_nil
  vetted := by simp

theorem HistoryOk.key_fresh (injective : Set.InjOn sha256 {raw | tokenShaped raw = true})
    (ok : HistoryOk sha256 config h) {raw : String} (shaped : tokenShaped raw = true) (fresh : raw ∉ drawn h)
    {o : Opening Digest} (opened : Opened sha256 config h o) : o.key ≠ sha256 raw := by
  intro same
  obtain ⟨raw', drawn, shaped', key⟩ := ok.opened o opened
  have equal : raw' = raw := injective shaped' shaped (key.trans same)
  exact fresh (equal ▸ drawn)

theorem HistoryOk.cons (injective : Set.InjOn sha256 {raw | tokenShaped raw = true})
    (ok : HistoryOk sha256 config h) (fresh : ∀ raw ∈ e.call.drawn, raw ∉ drawn h)
    (opened : ∀ o, e.opened sha256 config = some o →
      ∃ raw ∈ e.call.drawn, tokenShaped raw = true ∧ sha256 raw = o.key)
    (issued : ∀ i, e.issued = some i → i.raw ∈ e.call.drawn ∧ tokenShaped i.raw = true)
    (claimed : ∀ c, e.claimed = some c → c.raw ∈ drawn h ∧ c.raw ∉ claims h)
    (vetted : Vetted sha256 config e h) : HistoryOk sha256 config (e :: h) where
  opened o cases := by
    rw [drawn_cons]
    rcases opened_cons.mp cases with here | older
    · obtain ⟨raw, member, facts⟩ := opened o here
      exact ⟨raw, mem_append_left _ member, facts⟩
    · obtain ⟨raw, member, facts⟩ := ok.opened o older
      exact ⟨raw, mem_append_right _ member, facts⟩
  openedOnce o o' cases cases' same := by
    -- A login that opens a session next to an older one has drawn another token.
    have apart : ∀ {o o' : Opening Digest}, e.opened sha256 config = some o →
        Opened sha256 config h o' → o'.key ≠ o.key := by
      intro o o' here older
      obtain ⟨raw, member, shaped, key⟩ := opened o here
      exact key ▸ ok.key_fresh injective shaped (fresh raw member) older
    rcases opened_cons.mp cases with here | older <;> rcases opened_cons.mp cases' with here' | older'
    · exact Option.some.inj (here.symm.trans here')
    · exact (apart here older' same.symm).elim
    · exact (apart here' older same).elim
    · exact ok.openedOnce o o' older older' same
  issued i cases := by
    rw [drawn_cons]
    rcases issued_cons.mp cases with here | older
    · exact ⟨mem_append_left _ (issued i here).1, (issued i here).2⟩
    · exact ⟨mem_append_right _ (ok.issued i older).1, (ok.issued i older).2⟩
  issuedOnce i i' cases cases' same := by
    have apart : ∀ {i i' : Issue Digest}, e.issued = some i → Issued h i' → i'.raw ≠ i.raw := by
      intro i i' here older equal
      exact fresh i.raw (issued i here).1 (equal ▸ (ok.issued i' older).1)
    rcases issued_cons.mp cases with here | older <;> rcases issued_cons.mp cases' with here' | older'
    · exact Option.some.inj (here.symm.trans here')
    · exact (apart here older' same.symm).elim
    · exact (apart here' older same).elim
    · exact ok.issuedOnce i i' older older' same
  claimed raw member := by
    rw [drawn_cons]
    rcases mem_claims_cons.mp member with ⟨c, here, rfl⟩ | older
    · exact mem_append_right _ (claimed c here).1
    · exact mem_append_right _ (ok.claimed raw older)
  claimedOnce := by
    cases found : e.claimed with
    | none => simpa [claims, found] using ok.claimedOnce
    | some c =>
      have once : (c.raw :: claims h).Nodup := nodup_cons.mpr ⟨(claimed c found).2, ok.claimedOnce⟩
      simpa [claims, found] using once
  vetted e' older suffix := by
    rcases suffix_cons_iff.mp suffix with same | suffix
    · cases same
      exact vetted
    · exact ok.vetted e' older suffix

end Gokvm.Gateway
