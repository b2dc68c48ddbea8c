import Gokvm.Gateway.History

/-! # Grants are single-use and die with their session

The store and the history of a run agree: what the store keeps was opened or issued
and has not ended since. Each call preserves that, and the guarantees about accepted
tokens follow from it for every run.
-/

namespace Gokvm.Gateway

open Lib History FinMap

variable {Digest : Type} {sha256 : String → Digest} {config : Config}

variable [DecidableEq Digest]

/-! ## What holds between the store and the history -/

/-- The history behind a stored grant. -/
structure Backed (sha256 : String → Digest) (s : SessionStore Digest) (h : History Digest)
    (verifier : Digest) (grant : ConnectGrant Digest) (sess : BrowserSession)
    (raw : String) (time : Nat) : Prop where
  session : s.sessions.lookup grant.session = some sess
  token : sha256 raw = verifier
  newest : Newest h ⟨raw, grant.session, grant.vm, time⟩
  unspent : raw ∉ claims h
  expires : grant.expires = min (time + connectWindow) sess.expires

structure Stored (sha256 : String → Digest) (config : Config) (s : SessionStore Digest)
    (h : History Digest) : Prop where
  sessions : ∀ key sess, s.sessions.lookup key = some sess →
    Opened sha256 config h ⟨key, sess.clientIP, sess.expires⟩ ∧ ¬ Ended sha256 config h key
  grants : ∀ verifier grant, s.grants.lookup verifier = some grant →
    ∃ sess raw time, Backed sha256 s h verifier grant sess raw time
  bounded : ∀ key, s.grants.countIf (fun _ grant => grant.session = key) ≤ 32

/-- Every lease registered with a session is cancelled or still held by it. -/
def Covered (s : SessionStore Digest) (h : History Digest) : Prop :=
  ∀ key lease, Leased h key lease → lease ∈ s.cancelled ∨
    ∃ sess, s.sessions.lookup key = some sess ∧ lease ∈ sess.connections

variable {s : SessionStore Digest} {h : History Digest} {key : Digest} {sess : BrowserSession}
  {e : Event Digest}

section

variable (stored : Stored sha256 config s h)
include stored

theorem Stored.drops {gone : Digest → Prop} {s' : SessionStore Digest} (drops : Drops gone s s') :
    Stored sha256 config s' h where
  sessions key sess found := stored.sessions key sess ((drops.sessions key sess).mp found).1
  grants verifier grant found := by
    obtain ⟨found, alive⟩ := drops.grants verifier grant found
    obtain ⟨sess, raw, time, backed⟩ := stored.grants verifier grant found
    exact ⟨sess, raw, time,
      { backed with session := (drops.sessions _ sess).mpr ⟨backed.session, alive⟩ }⟩
  bounded key := (drops.count _).trans (stored.bounded key)

theorem Stored.fewer {grants : FinMap Digest (ConnectGrant Digest)}
    (subset : ∀ verifier grant, grants.lookup verifier = some grant →
      s.grants.lookup verifier = some grant) (count : ∀ p, grants.countIf p ≤ s.grants.countIf p) :
    Stored sha256 config { s with grants } h where
  sessions := stored.sessions
  grants verifier grant found := by
    obtain ⟨sess, raw, time, backed⟩ := stored.grants verifier grant (subset verifier grant found)
    exact ⟨sess, raw, time, { backed with }⟩
  bounded key := (count _).trans (stored.bounded key)

theorem Stored.reconnect (found : s.sessions.lookup key = some sess) (connections : List Lease) :
    Stored sha256 config
      { s with sessions := AList.insert key { sess with connections } s.sessions } h where
  sessions := forall_insert (stored.sessions key sess found) stored.sessions
  grants verifier grant found' := by
    obtain ⟨sess', raw, time, backed⟩ := stored.grants verifier grant found'
    by_cases same : grant.session = key
    · have equal : sess' = sess := by
        have present := backed.session
        rw [same, found] at present
        exact (Option.some.inj present).symm
      subst equal
      exact ⟨_, raw, time, { backed with
        session := (lookup_insert_eq_some _).mpr (.inl ⟨same, rfl⟩) }⟩
    · exact ⟨sess', raw, time, { backed with
        session := (lookup_insert_eq_some _).mpr (.inr ⟨same, backed.session⟩) }⟩
  bounded := stored.bounded

theorem Stored.entitled (injective : Set.InjOn sha256 {raw | tokenShaped raw = true})
    (ok : HistoryOk sha256 config h) {raw : String} (shaped : tokenShaped raw = true)
    {grant : ConnectGrant Digest} (found : s.grants.lookup (sha256 raw) = some grant)
    (present : s.sessions.lookup grant.session = some sess) {now : Nat}
    (early : now < grant.expires) :
    Entitled sha256 config h raw sess.clientIP now grant.session grant.vm ∧
      raw ∈ drawn h ∧ raw ∉ claims h ∧
      ∃ time, Issued h ⟨raw, grant.session, grant.vm, time⟩ := by
  obtain ⟨sess', raw', time, backed⟩ := stored.grants _ grant found
  have issued := backed.newest.issued
  have known := ok.issued _ issued
  obtain rfl : raw' = raw := injective known.2 shaped backed.token
  obtain rfl : sess' = sess := Option.some.inj (backed.session.symm.trans present)
  have bound := backed.expires
  obtain ⟨opened, alive⟩ := stored.sessions _ sess' present
  have sole : ∀ i, Issued h i → i.raw = raw' → i.key = grant.session ∧ i.vm = grant.vm := by
    intro i other same
    cases ok.issuedOnce i _ other issued same
    exact ⟨rfl, rfl⟩
  exact ⟨
    { token := ⟨time, backed.newest, by omega⟩
      sole
      session := ⟨sess'.expires, opened, by omega⟩
      alive }, known.1, backed.unspent, time, issued⟩

/-- The events that open, issue, accept and register nothing. -/
structure Quiet (sha256 : String → Digest) (config : Config) (e : Event Digest) : Prop where
  opened : e.opened sha256 config = none
  issued : e.issued = none
  admitted : e.admitted = none
  claimed : e.claimed = none
  uploaded : e.uploaded = none

/-- A call leaves a stored session running unless it revokes it or reads its time as over. -/
theorem Stored.not_ends (ok : HistoryOk sha256 config h) (found : s.sessions.lookup key = some sess)
    {call : Call Digest} (revoke : call ≠ .revoke key)
    (session : ∀ raw now, call = .session raw sess.clientIP now → sess.clientIP ≠ "" →
      tokenKey sha256 raw = some key → now < sess.expires)
    (prune : ∀ now, call.prunesAt = some now → now < sess.expires) :
    ¬ Ends sha256 config h call key := by
  rintro ⟨ip, expires, opened, how⟩
  cases ok.openedOnce _ _ opened (stored.sessions key sess found).1 rfl
  cases call with
  | revoke revoked => exact revoke (congrArg Call.revoke how)
  | session raw ip' now =>
    obtain ⟨token, named, rfl, late⟩ := how
    have := session raw now rfl named token
    omega
  | _ =>
    obtain ⟨now, reading, late⟩ := how
    have := prune now reading
    omega

theorem Stored.cons (quiet : e.issued = none)
    (spent : ∀ c, e.claimed = some c → s.grants.lookup (sha256 c.raw) = none)
    (spared : ∀ key sess, s.sessions.lookup key = some sess → ¬ Ends sha256 config h e.call key) :
    Stored sha256 config s (e :: h) where
  sessions key sess found := by
    obtain ⟨opened, alive⟩ := stored.sessions key sess found
    exact ⟨opened_cons.mpr (.inr opened), not_or.mpr ⟨alive, spared key sess found⟩⟩
  grants verifier grant found := by
    obtain ⟨sess, raw, time, backed⟩ := stored.grants verifier grant found
    refine ⟨sess, raw, time, { backed with newest := .inr ⟨backed.newest, ?_⟩, unspent := ?_ }⟩
    · intro j issued
      rw [quiet] at issued
      cases issued
    · rw [mem_claims_cons]
      rintro (⟨c, here, rfl⟩ | older)
      · have gone := spent c here
        rw [backed.token, found] at gone
        cases gone
      · exact backed.unspent older
  bounded := stored.bounded

/-! ## Opening a session and issuing a token -/

theorem Stored.open (absent : s.sessions.lookup key = none)
    (opened : Opened sha256 config h ⟨key, sess.clientIP, sess.expires⟩)
    (alive : ¬ Ended sha256 config h key) :
    Stored sha256 config { s with sessions := AList.insert key sess s.sessions } h where
  sessions := forall_insert ⟨opened, alive⟩ stored.sessions
  grants verifier grant found := by
    obtain ⟨sess', raw, time, backed⟩ := stored.grants verifier grant found
    have other : grant.session ≠ key := by
      intro same
      have present := backed.session
      rw [same, absent] at present
      cases present
    exact ⟨sess', raw, time, { backed with
      session := (lookup_insert_eq_some _).mpr (.inr ⟨other, backed.session⟩) }⟩
  bounded := stored.bounded

theorem Stored.issue (found : s.sessions.lookup key = some sess) {raw vm : String} {now : Nat}
    (issued : e.issued = some ⟨raw, key, vm, now⟩) (claimed : e.claimed = none)
    (spared : ∀ key sess, s.sessions.lookup key = some sess → ¬ Ends sha256 config h e.call key)
    (unspent : raw ∉ claims h) (sole : ∀ verifier grant, s.grants.lookup verifier = some grant →
      ¬ (grant.session = key ∧ grant.vm = vm))
    (room : s.grants.countIf (fun _ grant => grant.session = key) < 32) :
    Stored sha256 config
      { s with
          grants := AList.insert (sha256 raw)
            { session := key, vm, expires := min (now + connectWindow) sess.expires } s.grants }
      (e :: h) where
  sessions key' sess' found' := by
    obtain ⟨opened, alive⟩ := stored.sessions key' sess' found'
    exact ⟨opened_cons.mpr (.inr opened), not_or.mpr ⟨alive, spared key' sess' found'⟩⟩
  grants verifier grant found' := by
    have spends : ∀ {raw'}, raw' ∉ claims h → raw' ∉ claims (e :: h) := by
      intro raw' unspent'
      simpa [mem_claims_cons, claimed] using unspent'
    rcases (lookup_insert_eq_some _).mp found' with ⟨rfl, rfl⟩ | ⟨_, older⟩
    · exact ⟨sess, raw, now,
        { session := found
          token := rfl
          newest := .inl issued
          unspent := spends unspent
          expires := rfl }⟩
    · obtain ⟨sess', raw', time, backed⟩ := stored.grants verifier grant older
      refine ⟨sess', raw', time,
        { backed with newest := .inr ⟨backed.newest, ?_⟩, unspent := spends backed.unspent }⟩
      intro j issued'
      cases issued.symm.trans issued'
      exact fun same => sole verifier grant older ⟨same.1.symm, same.2.symm⟩
  bounded key' := by
    refine (countIf_insert_le _ _ _ _).trans ?_
    by_cases same : key = key'
    · subst same
      simpa using room
    · simpa [same] using stored.bounded key'

end

/-! ## The leases of a session -/

theorem Covered.drops {gone : Digest → Prop} {s' : SessionStore Digest} (covered : Covered s h)
    (drops : Drops gone s s') : Covered s' h := by
  intro key lease leased
  rcases covered key lease leased with cancelled | ⟨sess, found, held⟩
  · exact .inl (drops.kept lease cancelled)
  · by_cases ended : gone key
    · exact .inl (drops.cancelled key sess found ended lease held)
    · exact .inr ⟨sess, (drops.sessions key sess).mpr ⟨found, ended⟩, held⟩

theorem Covered.cons (covered : Covered s h) (admitted : e.admitted = none) (uploaded : e.uploaded = none) :
    Covered s (e :: h) := by
  rintro key lease (older | ⟨_, ⟨a, _, here, _⟩ | here⟩)
  · exact covered key lease older
  · rw [admitted] at here
    cases here
  · rw [uploaded] at here
    cases here

theorem Covered.register (covered : Covered s h) (found : s.sessions.lookup key = some sess)
    (only : ∀ key', Registers h e key' → key' = key) :
    Covered (s.register key sess h.length) (e :: h) := by
  have holder : (s.register key sess h.length).sessions.lookup key =
      some { sess with connections := h.length :: sess.connections } := AList.lookup_insert _
  rintro key' lease (older | ⟨rfl, registers⟩)
  · rcases covered key' lease older with cancelled | ⟨sess', found', held⟩
    · exact .inl cancelled
    · by_cases same : key' = key
      · subst same
        obtain rfl : sess = sess' := Option.some.inj (found.symm.trans found')
        exact .inr ⟨_, holder, List.mem_cons_of_mem _ held⟩
      · exact .inr ⟨sess', (lookup_insert_eq_some _).mpr (.inr ⟨same, found'⟩), held⟩
  · rw [only key' registers]
    exact .inr ⟨_, holder, List.mem_cons_self⟩

theorem release_absent (found : s.sessions.lookup key = none) (lease : Lease) :
    s.release key lease = s.cancel lease := by
  simp only [SessionStore.release, SessionStore.cancel, found]

theorem release_present (found : s.sessions.lookup key = some sess) (lease : Lease) :
    s.release key lease =
      { s.cancel lease with
          sessions := AList.insert key
            { sess with connections := sess.connections.filter (· ≠ lease) } s.sessions } := by
  simp only [SessionStore.release, SessionStore.cancel, found]

theorem Covered.release (covered : Covered s h) (key : Digest) (lease : Lease) : Covered (s.release key lease) h := by
  intro key' lease' leased
  cases found : s.sessions.lookup key with
  | none =>
    rw [release_absent found]
    exact (covered key' lease' leased).imp_left (List.mem_cons_of_mem lease)
  | some sess =>
    rw [release_present found]
    rcases covered key' lease' leased with cancelled | ⟨sess', found', held⟩
    · exact .inl (List.mem_cons_of_mem lease cancelled)
    · by_cases released : lease' = lease
      · exact .inl (released ▸ List.mem_cons_self)
      · by_cases same : key' = key
        · subst same
          obtain rfl : sess = sess' := Option.some.inj (found.symm.trans found')
          have kept : lease' ∈ sess.connections.filter (· ≠ lease) := by simp [held, released]
          exact .inr ⟨_, AList.lookup_insert _, kept⟩
        · exact .inr ⟨sess', (lookup_insert_eq_some _).mpr (.inr ⟨same, found'⟩), held⟩

theorem Covered.open (covered : Covered s h) (absent : s.sessions.lookup key = none) (sess : BrowserSession) :
    Covered { s with sessions := AList.insert key sess s.sessions } h := by
  intro key' lease leased
  refine (covered key' lease leased).imp_right ?_
  rintro ⟨sess', found, held⟩
  have other : key' ≠ key := by
    rintro rfl
    rw [absent] at found
    cases found
  exact ⟨sess', (lookup_insert_eq_some _).mpr (.inr ⟨other, found⟩), held⟩

end Gokvm.Gateway
