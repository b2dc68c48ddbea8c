import Gokvm.Gateway.Admission

/-! # The admission counters are right

Every counter is the number of tracked connections in its state, whatever the interleaving
of admissions, promotions, expiries, closes and prunings. The limits follow because each
counter is compared with its limit where it grows.
-/

namespace Gokvm.Gateway.ConnectionAdmission

open Lib List AList FinMap Nat

def tally (s : ConnectionAdmission) (p : TrackedConn → Bool) : Nat :=
  s.connections.total fun conn => (p conn).toNat

/-- The counters of a peer are the numbers of its connections. -/
structure PeerCounted (s : ConnectionAdmission) (ip : Addr) (peer : ConnectionPeer) : Prop where
  total : peer.total = s.tally fun conn => conn.ip = ip
  pending : peer.pending = s.tally fun conn => conn.ip = ip && !conn.authenticated

/-- The accounts of a server: the counters, the limits and the table of peers. -/
structure Counted (limits : AdmissionLimits) (s : ConnectionAdmission) : Prop where
  pending : s.pending = s.tally fun conn => !conn.authenticated
  authenticated : s.authenticated = s.tally fun conn => conn.authenticated
  peers : ∀ ip peer, s.peers.lookup ip = some peer → PeerCounted s ip peer
  known : ∀ id conn, s.connections.lookup id = some conn → ∃ peer, s.peers.lookup conn.ip = some peer
  pendingLimit : s.pending ≤ limits.maxHandshakes.1
  authenticatedLimit : s.authenticated ≤ limits.maxConnections.1
  peerLimits : ∀ ip peer, s.peers.lookup ip = some peer →
    peer.total ≤ limits.maxConnectionsPerIP.1 ∧ peer.pending ≤ limits.maxHandshakesPerIP.1
  table : s.peers.entries.length ≤ maxAdmissionPeers
  fresh : ∀ id conn, s.connections.lookup id = some conn → id < s.issued

variable {limits : AdmissionLimits} {s t : ConnectionAdmission}

theorem counted_initial (limits : AdmissionLimits) : Counted limits initial := by
  have noPeer (ip : Addr) : lookup ip (∅ : FinMap Addr ConnectionPeer) = none := lookup_empty _
  have noConn (id : Nat) : lookup id (∅ : FinMap Nat TrackedConn) = none := lookup_empty _
  refine
    { pending := rfl, authenticated := rfl, peers := ?_, known := ?_, pendingLimit := ?_
      authenticatedLimit := ?_, peerLimits := ?_, table := zero_le _, fresh := ?_ }
  · intro ip peer found
    cases (noPeer ip).symm.trans found
  · intro id conn found
    cases (noConn id).symm.trans found
  · exact Int.le_trans (by decide) limits.maxHandshakes.2
  · exact Int.le_trans (by decide) limits.maxConnections.2
  · intro ip peer found
    cases (noPeer ip).symm.trans found
  · intro id conn found
    cases (noConn id).symm.trans found

/-! ## Peers that change without connections -/

/-- The same connections and counters; peers differ in their buckets, or are gone as they had no
    connection. -/
structure SameCounts (s t : ConnectionAdmission) : Prop where
  pending : t.pending = s.pending
  authenticated : t.authenticated = s.authenticated
  connections : t.connections = s.connections
  issued : t.issued = s.issued
  old : ∀ ip peer, t.peers.lookup ip = some peer →
    ∃ before, s.peers.lookup ip = some before ∧ peer.total = before.total ∧ peer.pending = before.pending
  busy : ∀ ip peer, s.peers.lookup ip = some peer → peer.total ≠ 0 → ∃ now, t.peers.lookup ip = some now
  table : t.peers.entries.length ≤ s.peers.entries.length

theorem SameCounts.tally (same : SameCounts s t) : t.tally = s.tally := by
  funext p
  simp only [ConnectionAdmission.tally, same.connections]

theorem SameCounts.trans {u : ConnectionAdmission} (first : SameCounts s t) (second : SameCounts t u) :
    SameCounts s u := by
  refine
    { pending := second.pending.trans first.pending
      authenticated := second.authenticated.trans first.authenticated
      connections := second.connections.trans first.connections
      issued := second.issued.trans first.issued
      old := ?_, busy := ?_, table := le_trans second.table first.table }
  · intro ip peer found
    obtain ⟨middle, there, total, pending⟩ := second.old ip peer found
    obtain ⟨before, here, total', pending'⟩ := first.old ip middle there
    exact ⟨before, here, total.trans total', pending.trans pending'⟩
  · intro ip peer found some
    obtain ⟨middle, there⟩ := first.busy ip peer found some
    obtain ⟨before, here, total, _⟩ := first.old ip middle there
    rw [found] at here
    cases here
    exact second.busy ip middle there (total ▸ some)

variable {id : Nat} {conn : TrackedConn} {peer : ConnectionPeer} {ip : Addr}

theorem Counted.busy (counted : Counted limits s) (found : s.connections.lookup id = some conn)
    (known : s.peers.lookup conn.ip = some peer) : 1 ≤ peer.total := by
  have one := s.connections.weight_le_total (fun c => (decide (c.ip = conn.ip)).toNat) found
  simp only [decide_true, Bool.toNat_true] at one
  rw [(counted.peers _ _ known).total]
  exact_mod_cast one

theorem Counted.same (counted : Counted limits s) (same : SameCounts s t) : Counted limits t := by
  have tallies := same.tally
  refine
    { pending := ?_, authenticated := ?_, peers := ?_, known := ?_, pendingLimit := ?_
      authenticatedLimit := ?_, peerLimits := ?_, table := le_trans same.table counted.table, fresh := ?_ }
  · rw [same.pending, tallies]
    exact counted.pending
  · rw [same.authenticated, tallies]
    exact counted.authenticated
  · intro ip peer found
    obtain ⟨before, here, total, pending⟩ := same.old ip peer found
    have right := counted.peers ip before here
    exact
      { total := by rw [total, tallies]; exact right.total
        pending := by rw [pending, tallies]; exact right.pending }
  · intro id conn found
    rw [same.connections] at found
    obtain ⟨peer, known⟩ := counted.known id conn found
    have busy := counted.busy found known
    exact same.busy _ _ known (by omega)
  · rw [same.pending]
    exact counted.pendingLimit
  · rw [same.authenticated]
    exact counted.authenticatedLimit
  · intro ip peer found
    obtain ⟨before, here, total, pending⟩ := same.old ip peer found
    rw [total, pending]
    exact counted.peerLimits ip before here
  · intro id conn found
    rw [same.connections] at found
    rw [same.issued]
    exact counted.fresh id conn found

theorem SameCounts.refl (s : ConnectionAdmission) : SameCounts s s where
  pending := rfl
  authenticated := rfl
  connections := rfl
  issued := rfl
  old := fun _ peer found => ⟨peer, found, rfl, rfl⟩
  busy := fun _ peer found _ => ⟨peer, found⟩
  table := le_rfl

theorem sameCounts_prune (s : ConnectionAdmission) (now : Int) : SameCounts s (s.prune now) where
  pending := rfl
  authenticated := rfl
  connections := rfl
  issued := rfl
  old := fun _ peer found => ⟨peer, (lookup_discard_eq_some _ _ |>.mp found).1, rfl, rfl⟩
  busy := by
    intro ip peer found busy
    refine ⟨peer, (lookup_discard_eq_some _ _).mpr ⟨found, ?_⟩⟩
    simp [busy]
  table := length_filter_le _ _

theorem sameCounts_bucket (found : s.peers.lookup ip = some peer) (bucket : ConnectionBucket) :
    SameCounts s { s with peers := s.peers.insert ip { peer with bucket } } where
  pending := rfl
  authenticated := rfl
  connections := rfl
  issued := rfl
  old := forall_insert ⟨peer, found, rfl, rfl⟩ fun _ now before => ⟨now, before, rfl, rfl⟩
  busy := by
    intro other before there _
    by_cases same : other = ip
    · subst same
      exact ⟨_, lookup_insert _⟩
    · exact ⟨before, (lookup_insert_ne same).trans there⟩
  table := le_of_eq (length_insert_of_lookup _ _ found)

/-! ## Connections that change -/

/-- A connection of `ip` came, went or changed state: how every tally changed, and the counters with
    it. -/
structure Moved (limits : AdmissionLimits) (s t : ConnectionAdmission) (ip : Addr)
    (gain : (TrackedConn → Bool) → Int) : Prop where
  tallies : ∀ p, (t.tally p : Int) = s.tally p + gain p
  others : ∀ other, other ≠ ip →
    gain (fun conn => conn.ip = other) = 0 ∧ gain (fun conn => conn.ip = other && !conn.authenticated) = 0
  pending : t.pending = s.pending + gain fun conn => !conn.authenticated
  authenticated : t.authenticated = s.authenticated + gain fun conn => conn.authenticated
  pendingLimit : t.pending ≤ limits.maxHandshakes.1
  authenticatedLimit : t.authenticated ≤ limits.maxConnections.1
  connections : ∀ id conn, t.connections.lookup id = some conn →
    id < t.issued ∧ (conn.ip = ip ∨ s.connections.lookup id = some conn)
  peer : ∃ before now, PeerCounted s ip before ∧ t.peers = s.peers.insert ip now ∧
    now.total = before.total + (gain fun conn => conn.ip = ip) ∧
    now.pending = before.pending + (gain fun conn => conn.ip = ip && !conn.authenticated) ∧
    now.total ≤ limits.maxConnectionsPerIP.1 ∧ now.pending ≤ limits.maxHandshakesPerIP.1
  table : t.peers.entries.length ≤ maxAdmissionPeers

section

variable (counted : Counted limits s)
include counted

theorem Counted.moved (ip : Addr) (gain : (TrackedConn → Bool) → Int)
    (moved : Moved limits s t ip gain) : Counted limits t := by
  obtain ⟨before, now, right, peers, total, pending, totalLimit, pendingLimit⟩ := moved.peer
  refine
    { moved with
        pending := ?_, authenticated := ?_, peers := ?_, known := ?_, peerLimits := ?_, fresh := ?_ }
  · rw [moved.pending, moved.tallies, counted.pending]
  · rw [moved.authenticated, moved.tallies, counted.authenticated]
  · intro other peer found
    rw [peers] at found
    rcases (lookup_insert_eq_some _).mp found with ⟨rfl, rfl⟩ | ⟨apart, same⟩
    · exact
        { total := by rw [total, moved.tallies, right.total]
          pending := by rw [pending, moved.tallies, right.pending] }
    · obtain ⟨noTotal, noPending⟩ := moved.others other apart
      have still := counted.peers other peer same
      exact
        { total := by rw [moved.tallies, noTotal, Int.add_zero, still.total]
          pending := by rw [moved.tallies, noPending, Int.add_zero, still.pending] }
  · intro id conn found
    rw [peers]
    rcases (moved.connections id conn found).2 with rfl | old
    · exact ⟨_, lookup_insert _⟩
    · obtain ⟨peer, known⟩ := counted.known id conn old
      by_cases same : conn.ip = ip
      · subst same
        exact ⟨_, lookup_insert _⟩
      · exact ⟨peer, (lookup_insert_ne same).trans known⟩
  · rw [peers]
    exact forall_insert ⟨totalLimit, pendingLimit⟩ counted.peerLimits
  · exact fun id conn found => (moved.connections id conn found).1

theorem Counted.unissued : s.connections.lookup s.issued = none := by
  cases found : s.connections.lookup s.issued with
  | none => rfl
  | some conn => exact absurd (counted.fresh _ _ found) (lt_irrefl _)

theorem Counted.unknown (unknown : s.peers.lookup ip = none) :
    PeerCounted s ip {} := by
  have apart (id : Nat) (conn : TrackedConn) (found : s.connections.lookup id = some conn) : conn.ip ≠ ip := by
    rintro rfl
    obtain ⟨peer, known⟩ := counted.known id conn found
    rw [unknown] at known
    cases known
  have none : (s.tally fun conn => conn.ip = ip) = 0 := by
    refine s.connections.total_eq_zero _ ?_
    intro id conn found
    simp [apart id conn found]
  have nonePending : (s.tally fun conn => conn.ip = ip && !conn.authenticated) = 0 := by
    refine s.connections.total_eq_zero _ ?_
    intro id conn found
    simp [apart id conn found]
  exact { total := by rw [none]; rfl, pending := by rw [nonePending]; rfl }

/-- What was checked when a connection is tracked: its peer is in the table, or is new and fits in
    it. -/
structure Admits (limits : AdmissionLimits) (s : ConnectionAdmission) (ip : Addr) (peer : ConnectionPeer) :
    Prop where
  pending : s.pending < limits.maxHandshakes.1
  total : peer.total < limits.maxConnectionsPerIP.1
  peerPending : peer.pending < limits.maxHandshakesPerIP.1
  found : s.peers.lookup ip = some peer ∨
    (s.peers.lookup ip = none ∧ s.peers.entries.length < maxAdmissionPeers ∧ peer.total = 0 ∧ peer.pending = 0)

theorem Counted.admitted (admits : Admits limits s ip peer)
    (now : ConnectionPeer) :
    PeerCounted s ip peer ∧ (s.peers.insert ip now).entries.length ≤ maxAdmissionPeers := by
  rcases admits.found with found | ⟨unknown, small, total, pending⟩
  · rw [length_insert_of_lookup _ _ found]
    exact ⟨counted.peers ip peer found, counted.table⟩
  · have empty := counted.unknown unknown
    rw [length_insert_new _ _ unknown]
    exact ⟨{ total := total.trans empty.total, pending := pending.trans empty.pending }, small⟩

theorem Counted.track (admits : Admits limits s ip peer) (now : Int) : Counted limits (s.track limits ip peer now) := by
  let conn : TrackedConn := { ip, deadline := now + limits.handshakeTimeout }
  have pending := admits.pending
  have total := admits.total
  have peerPending := admits.peerPending
  refine counted.moved ip (fun p => (p conn).toNat) ?_
  refine
    { tallies := ?_, others := ?_, pending := rfl, authenticated := ?_, pendingLimit := ?_
      authenticatedLimit := counted.authenticatedLimit, connections := ?_
      peer := ⟨peer, _, (counted.admitted admits peer).1, rfl, ?_, ?_, ?_, ?_⟩
      table := (counted.admitted admits _).2 }
  · intro p
    have new := s.connections.total_insert_new (fun c => (p c).toNat) conn counted.unissued
    simp only [tally, ConnectionAdmission.track, conn] at new ⊢
    omega
  · intro other apart
    simp [conn, Ne.symm apart]
  · simp [conn, ConnectionAdmission.track]
  · simp only [ConnectionAdmission.track]
    omega
  · refine forall_insert ⟨lt_succ_self _, Or.inl rfl⟩ fun id c old => ?_
    exact ⟨lt_succ_of_lt (counted.fresh id c old), Or.inr old⟩
  · simp [conn]
  · simp [conn]
  · simp only
    omega
  · simp only
    omega

theorem Counted.table_insert (found : s.peers.lookup ip = some peer)
    (now : ConnectionPeer) :
    (s.peers.insert ip now).entries.length ≤ maxAdmissionPeers := by
  rw [length_insert_of_lookup _ _ found]
  exact counted.table

variable (found : s.connections.lookup id = some conn)
include found

theorem Counted.promoted (unauthenticated : conn.authenticated = false)
    (known : s.peers.lookup conn.ip = some peer) (room : s.authenticated < limits.maxConnections.1) :
    Counted limits
      { s with
          connections := s.connections.insert id { conn with authenticated := true }
          pending := s.pending - 1
          authenticated := s.authenticated + 1
          peers := s.peers.insert conn.ip { peer with pending := peer.pending - 1 } } := by
  let after : TrackedConn := { conn with authenticated := true }
  obtain ⟨totalLimit, pendingLimit⟩ := counted.peerLimits _ _ known
  refine counted.moved conn.ip (fun p => (p after).toNat - (p conn).toNat) ?_
  refine
    { tallies := ?_, others := ?_, pending := ?_, authenticated := ?_, pendingLimit := ?_
      authenticatedLimit := room, connections := ?_
      peer := ⟨peer, _, counted.peers _ _ known, rfl, ?_, ?_, totalLimit, ?_⟩
      table := counted.table_insert known _ }
  · intro p
    have replaced := s.connections.total_replace (fun c => (p c).toNat) after found
    simp only [tally, after] at replaced ⊢
    omega
  · intro other apart
    simp [after, Ne.symm apart]
  · simp [after, unauthenticated]
    omega
  · simp [after, unauthenticated]
  · have limit := counted.pendingLimit
    simp only
    omega
  · refine forall_insert ⟨counted.fresh _ _ found, Or.inl rfl⟩ fun _ _ old => ?_
    exact ⟨counted.fresh _ _ old, Or.inr old⟩
  · simp [after]
  · simp [after, unauthenticated]
    omega
  · simp only
    omega

/-- Closing takes the connection from every tally it was in. -/
theorem Counted.closed (known : s.peers.lookup conn.ip = some peer) (now : Int) :
    Counted limits
      { s with
          connections := s.connections.erase id
          pending := s.pending - (!conn.authenticated).toNat
          authenticated := s.authenticated - conn.authenticated.toNat
          peers := s.peers.insert conn.ip
            { peer with
                total := peer.total - 1, lastSeen := now
                pending := peer.pending - (!conn.authenticated).toNat } } := by
  obtain ⟨totalLimit, pendingLimit⟩ := counted.peerLimits _ _ known
  refine counted.moved conn.ip (fun p => -(p conn).toNat) ?_
  refine
    { tallies := ?_, others := ?_, pending := rfl, authenticated := rfl, pendingLimit := ?_
      authenticatedLimit := ?_, connections := ?_
      peer := ⟨peer, _, counted.peers _ _ known, rfl, ?_, ?_, ?_, ?_⟩
      table := counted.table_insert known _ }
  · intro p
    have rest := s.connections.total_erase (fun c => (p c).toNat) found
    simp only [tally]
    omega
  · intro other apart
    simp [Ne.symm apart]
  · have limit := counted.pendingLimit
    simp only
    omega
  · have limit := counted.authenticatedLimit
    simp only
    omega
  · intro key c there
    have old := (lookup_erase_eq_some _ |>.mp there).2
    exact ⟨counted.fresh _ _ old, Or.inr old⟩
  · simp
    omega
  · simp
    omega
  · simp only
    omega
  · simp only
    omega

theorem Counted.mark {after : TrackedConn} (ip : after.ip = conn.ip)
    (authenticated : after.authenticated = conn.authenticated) :
    Counted limits (s.mark id after) := by
  have same (p : TrackedConn → Bool) (blind : p after = p conn) : (s.mark id after).tally p = s.tally p := by
    have replaced := s.connections.total_replace (fun c => (p c).toNat) after found
    simp only [tally, ConnectionAdmission.mark, blind] at replaced ⊢
    omega
  refine { counted with pending := ?_, authenticated := ?_, peers := ?_, known := ?_, fresh := ?_ }
  · rw [same _ (by rw [authenticated])]
    exact counted.pending
  · rw [same _ (by rw [authenticated])]
    exact counted.authenticated
  · intro other peer there
    have right := counted.peers other peer there
    exact
      { total := by rw [same _ (by rw [ip])]; exact right.total
        pending := by rw [same _ (by rw [ip, authenticated])]; exact right.pending }
  · refine forall_insert ?_ counted.known
    rw [ip]
    exact counted.known _ _ found
  · exact forall_insert (counted.fresh _ _ found) counted.fresh

end

/-! ## Steps and runs -/

/-- Admission leaves the counts, or tracks a connection of a peer with room. -/
def Admission (limits : AdmissionLimits) (s t : ConnectionAdmission) (now : Int) : Prop :=
  SameCounts s t ∨ ∃ current ip peer, SameCounts s current ∧ Admits limits current ip peer ∧
    t = current.track limits ip peer now

theorem SameCounts.admission {u : ConnectionAdmission} {now : Int} (first : SameCounts s t)
    (rest : Admission limits t u now) : Admission limits s u now := by
  rcases rest with same | ⟨current, ip, peer, same, admits, tracked⟩
  · exact Or.inl (first.trans same)
  · exact Or.inr ⟨current, ip, peer, first.trans same, admits, tracked⟩

theorem admission_admitPeer {known : Bool} (pending : s.pending < limits.maxHandshakes.1)
    (found : if known then s.peers.lookup ip = some peer
      else s.peers.lookup ip = none ∧ s.peers.entries.length < maxAdmissionPeers ∧ peer = {}) (now : Int) :
    Admission limits s (s.admitPeer limits ip peer known now).1 now := by
  simp only [admitPeer]
  split
  · exact Or.inl (.refl s)
  next room =>
    simp only [not_or, ge_iff_le, Int.not_le] at room
    generalize peer.bucket.available now limits.connectionRateLimitPerIP.1 = answer
    obtain ⟨free, bucket⟩ := answer
    have same : SameCounts s (s.asked ip { peer with bucket } known) := by
      cases known with
      | true => exact sameCounts_bucket found bucket
      | false => exact .refl s
    have place : (s.asked ip { peer with bucket } known).peers.lookup ip = some { peer with bucket } ∨
        ((s.asked ip { peer with bucket } known).peers.lookup ip = none ∧
          (s.asked ip { peer with bucket } known).peers.entries.length < maxAdmissionPeers ∧
          peer.total = 0 ∧ peer.pending = 0) := by
      cases known with
      | true => exact Or.inl (lookup_insert _)
      | false =>
        obtain ⟨unknown, small, rfl⟩ := found
        exact Or.inr ⟨unknown, small, rfl, rfl⟩
    simp only
    split
    · exact Or.inl same
    · generalize (s.asked ip { peer with bucket } known).global.available now limits.connectionRateLimit.1 =
        answer
      obtain ⟨free, global⟩ := answer
      have drawn : SameCounts s { s.asked ip { peer with bucket } known with global } :=
        same.trans { SameCounts.refl (s.asked ip { peer with bucket } known) with }
      simp only
      split
      · exact Or.inl drawn
      · refine Or.inr ⟨_, ip, { peer with bucket }, drawn, ?_, rfl⟩
        exact { pending := drawn.pending ▸ pending, total := room.1, peerPending := room.2, found := place }

theorem admission_admit (limits : AdmissionLimits) (s : ConnectionAdmission) (remote : Option Addr)
    (ctxErr : Bool) (now : Int) : Admission limits s (s.admitConnection limits remote ctxErr now).1 now := by
  simp only [admitConnection]
  split
  · exact Or.inl (.refl s)
  next ip _ =>
    split
    · exact Or.inl (.refl s)
    next room =>
      simp only [not_or, ge_iff_le, Int.not_le] at room
      have pruned : SameCounts s (if now < s.nextPrune then s else s.prune now) := by
        split
        · exact .refl s
        · exact sameCounts_prune s now
      have pending := room.2.2
      rw [← pruned.pending] at pending
      generalize (if now < s.nextPrune then s else s.prune now) = current at *
      apply pruned.admission
      split
      next peer found => exact admission_admitPeer pending (by simpa using found) now
      next unknown =>
        split
        · exact Or.inl (.refl current)
        next space => exact admission_admitPeer pending (by simpa using ⟨unknown, by omega⟩) now

section

variable (counted : Counted limits s)
include counted

theorem Counted.admitConnection (remote : Option Addr) (ctxErr : Bool) (now : Int) :
    Counted limits (s.admitConnection limits remote ctxErr now).1 := by
  rcases admission_admit limits s remote ctxErr now with same | ⟨current, ip, peer, same, admits, tracked⟩
  · exact counted.same same
  · rw [tracked]
    exact (counted.same same).track admits now

theorem Counted.expire (id : Nat) : Counted limits (s.expire id) := by
  unfold ConnectionAdmission.expire
  split
  next conn found =>
    split
    · exact counted
    · exact counted.mark found rfl rfl
  · exact counted

theorem Counted.cancel (id : Nat) : Counted limits (s.cancel id) := by
  unfold ConnectionAdmission.cancel
  split
  next conn found => exact counted.mark found rfl rfl
  · exact counted

theorem Counted.promote (id : Nat) (now : Int) :
    ∃ t promoted, s.promote limits id now = some (t, promoted) ∧ Counted limits t := by
  unfold ConnectionAdmission.promote
  split
  · exact ⟨s, false, rfl, counted⟩
  next conn found =>
    split
    · exact ⟨s, false, rfl, counted⟩
    split
    · exact ⟨s, true, rfl, counted⟩
    next unauthenticated =>
      split
      · exact ⟨s, false, rfl, counted⟩
      next room =>
        simp only [not_or, ge_iff_le, Int.not_le] at room
        obtain ⟨peer, known⟩ := counted.known id conn found
        rw [known]
        refine ⟨_, true, rfl, ?_⟩
        exact counted.promoted found (Bool.not_eq_true _ ▸ unauthenticated) known room.2

theorem Counted.close (id : Nat) (now : Int) :
    ∃ t, s.close id now = some t ∧ Counted limits t := by
  unfold ConnectionAdmission.close
  split
  · exact ⟨s, rfl, counted⟩
  next conn found =>
    obtain ⟨peer, known⟩ := counted.known id conn found
    have closed := counted.closed found known now
    rw [known]
    cases authenticated : conn.authenticated with
    | true =>
      simp only [authenticated, Bool.not_true, Bool.toNat_false, Bool.toNat_true, cast_zero, cast_one,
        Int.sub_zero] at closed
      exact ⟨_, rfl, closed⟩
    | false =>
      simp only [authenticated, Bool.not_false, Bool.toNat_false, Bool.toNat_true, cast_zero, cast_one,
        Int.sub_zero] at closed
      exact ⟨_, rfl, closed⟩

/-- Whatever happens next, no pointer is nil and the counts are right after it. -/
theorem Counted.act (event : Event) :
    ∃ t, s.act limits event = some t ∧ Counted limits t := by
  cases event with
  | arrive remote ctxErr now => exact ⟨_, rfl, counted.admitConnection remote ctxErr now⟩
  | expire id => exact ⟨_, rfl, counted.expire id⟩
  | cancel id => exact ⟨_, rfl, counted.cancel id⟩
  | promote id now =>
    obtain ⟨t, promoted, done, right⟩ := counted.promote id now
    refine ⟨t, ?_, right⟩
    simp only [ConnectionAdmission.act, done, Option.map_some]
  | close id now => exact counted.close id now
  | prune now => exact ⟨_, rfl, counted.same (sameCounts_prune s now)⟩
  | drain => exact ⟨_, rfl, counted.same { SameCounts.refl s with }⟩

end

theorem Counted.run (events : List Event) :
    ∀ {s : ConnectionAdmission}, Counted limits s →
      ∃ t, run limits s events = some t ∧ Counted limits t := by
  induction events with
  | nil => exact fun counted => ⟨_, rfl, counted⟩
  | cons event rest ih =>
    intro s counted
    obtain ⟨middle, first, still⟩ := counted.act event
    obtain ⟨t, later, right⟩ := ih still
    refine ⟨t, ?_, right⟩
    rw [ConnectionAdmission.run, first]
    exact later

/-! ## Connections that are gone -/

/-- A connection that was issued and is closed, expired or cancelled. -/
def Gone (s : ConnectionAdmission) (id : Nat) : Prop :=
  id < s.issued ∧
    ∀ conn, s.connections.lookup id = some conn → conn.expired = true ∨ conn.cancelled = true

theorem Gone.promote (gone : s.Gone id) (now : Int) : s.promote limits id now = some (s, false) := by
  unfold ConnectionAdmission.promote
  split
  · rfl
  next conn found =>
    rw [if_pos]
    rcases gone.2 conn found with expired | cancelled
    · exact Or.inl expired
    · exact Or.inr (Or.inr cancelled)

/-- A connection after an event is new, or was there before with no more flags. -/
def Follows (s t : ConnectionAdmission) : Prop :=
  s.issued ≤ t.issued ∧ ∀ id after, t.connections.lookup id = some after → id < s.issued →
    ∃ conn, s.connections.lookup id = some conn ∧ (conn.expired = true → after.expired = true) ∧
      (conn.cancelled = true → after.cancelled = true)

theorem Gone.follows (gone : s.Gone id) (follows : Follows s t) : t.Gone id := by
  obtain ⟨issued, still⟩ := gone
  refine ⟨lt_of_lt_of_le issued follows.1, ?_⟩
  intro after there
  obtain ⟨conn, found, expired, cancelled⟩ := follows.2 id after there issued
  exact (still conn found).imp expired cancelled

theorem Follows.of_connections (connections : t.connections = s.connections) (issued : t.issued = s.issued) :
    Follows s t := by
  refine ⟨le_of_eq issued.symm, ?_⟩
  intro id after there _
  rw [connections] at there
  exact ⟨after, there, fun flag => flag, fun flag => flag⟩

theorem Follows.of_insert {after : TrackedConn} (found : s.connections.lookup id = some conn)
    (connections : t.connections = s.connections.insert id after) (issued : t.issued = s.issued)
    (expired : conn.expired = true → after.expired = true)
    (cancelled : conn.cancelled = true → after.cancelled = true) : Follows s t := by
  refine ⟨le_of_eq issued.symm, ?_⟩
  rw [connections]
  refine forall_insert (fun _ => ⟨conn, found, expired, cancelled⟩) fun _ later old _ => ?_
  exact ⟨later, old, fun flag => flag, fun flag => flag⟩

theorem follows_admit (remote : Option Addr) (ctxErr : Bool) (now : Int) :
    Follows s (s.admitConnection limits remote ctxErr now).1 := by
  rcases admission_admit limits s remote ctxErr now with same | ⟨current, ip, peer, same, _, tracked⟩
  · exact .of_connections same.connections same.issued
  · rw [tracked]
    refine ⟨le_succ_of_le (le_of_eq same.issued.symm), ?_⟩
    intro id after there old
    rcases (lookup_insert_eq_some _).mp there with ⟨rfl, _⟩ | ⟨_, found⟩
    · rw [same.issued] at old
      exact absurd old (lt_irrefl _)
    · rw [same.connections] at found
      exact ⟨after, found, fun flag => flag, fun flag => flag⟩

theorem close_connections {now : Int} (done : s.close id now = some t) :
    t.connections = s.connections.erase id ∧ t.issued = s.issued := by
  unfold close at done
  split at done
  next missing =>
    cases done
    exact ⟨(erase_of_lookup_eq_none _ missing).symm, rfl⟩
  next conn found =>
    obtain ⟨peer, _, done⟩ := Option.bind_eq_some_iff.mp done
    simp only at done
    split at done
    · cases done
      exact ⟨rfl, rfl⟩
    · cases done
      exact ⟨rfl, rfl⟩

theorem follows_act {event : Event} (done : s.act limits event = some t) : Follows s t := by
  cases event with
  | arrive remote ctxErr now =>
    cases done
    exact follows_admit remote ctxErr now
  | expire id =>
    cases done
    unfold expire
    split
    next conn found =>
      split
      · exact .of_connections rfl rfl
      · exact .of_insert found rfl rfl (fun _ => rfl) (fun flag => flag)
    · exact .of_connections rfl rfl
  | cancel id =>
    cases done
    unfold cancel
    split
    next conn found => exact .of_insert found rfl rfl (fun flag => flag) (fun _ => rfl)
    · exact .of_connections rfl rfl
  | promote id now =>
    obtain ⟨⟨after, promoted⟩, taken, rfl⟩ := Option.map_eq_some_iff.mp done
    unfold promote at taken
    split at taken
    · cases taken
      exact .of_connections rfl rfl
    next conn found =>
      split at taken
      · cases taken
        exact .of_connections rfl rfl
      split at taken
      · cases taken
        exact .of_connections rfl rfl
      split at taken
      · cases taken
        exact .of_connections rfl rfl
      · obtain ⟨peer, _, taken⟩ := Option.bind_eq_some_iff.mp taken
        cases taken
        exact .of_insert found rfl rfl (fun flag => flag) (fun flag => flag)
  | close id now =>
    obtain ⟨connections, issued⟩ := close_connections done
    refine ⟨le_of_eq issued.symm, ?_⟩
    intro key after there _
    rw [connections] at there
    exact ⟨after, (lookup_erase_eq_some _ |>.mp there).2, fun flag => flag, fun flag => flag⟩
  | prune _ | drain =>
    cases done
    exact .of_connections rfl rfl

theorem Gone.run (events : List Event) :
    ∀ {s t : ConnectionAdmission}, s.Gone id → run limits s events = some t → t.Gone id := by
  induction events with
  | nil =>
    intro s t gone done
    cases done
    exact gone
  | cons event rest ih =>
    intro s t gone done
    obtain ⟨middle, first, later⟩ := Option.bind_eq_some_iff.mp done
    exact ih (gone.follows (follows_act first)) later

/-- A connection is gone when it was closed, or expired unauthenticated. -/
theorem Counted.gone (counted : Counted limits s) (found : s.connections.lookup id = some conn)
    {event : Event} (ends : (∃ now, event = .close id now) ∨ event = .cancel id ∨
      (event = .expire id ∧ conn.authenticated = false)) (done : s.act limits event = some t) : t.Gone id := by
  have issued := counted.fresh id conn found
  rcases ends with ⟨now, rfl⟩ | rfl | ⟨rfl, unauthenticated⟩
  · obtain ⟨connections, same⟩ := close_connections done
    refine ⟨same ▸ issued, ?_⟩
    intro after there
    rw [connections] at there
    exact absurd rfl (lookup_erase_eq_some _ |>.mp there).1
  · cases done
    simp only [ConnectionAdmission.cancel, found]
    refine ⟨issued, ?_⟩
    intro after there
    cases (lookup_insert _).symm.trans there
    exact Or.inr rfl
  · cases done
    simp only [ConnectionAdmission.expire, found, unauthenticated]
    refine ⟨issued, ?_⟩
    intro after there
    cases (lookup_insert _).symm.trans there
    exact Or.inl rfl

/-! ## Closing everything -/

theorem Counted.zero (counted : Counted limits s) (none : s.connections.entries = []) :
    s.pending = 0 ∧ s.authenticated = 0 ∧
      ∀ ip peer, s.peers.lookup ip = some peer → peer.total = 0 ∧ peer.pending = 0 := by
  have nothing (p : TrackedConn → Bool) : (s.tally p : Int) = 0 := by
    simp [tally, total, none]
  refine ⟨counted.pending.trans (nothing _), counted.authenticated.trans (nothing _), ?_⟩
  intro ip peer found
  have right := counted.peers ip peer found
  exact ⟨right.total.trans (nothing _), right.pending.trans (nothing _)⟩

/-- Closing connections by number leaves those with other numbers. -/
theorem Counted.closeAll (now : Int) (ids : List Nat) :
    ∀ {s : ConnectionAdmission}, Counted limits s →
      ∃ t, ConnectionAdmission.run limits s (ids.map (Event.close · now)) = some t ∧ Counted limits t ∧
        ∀ id, (∃ conn, t.connections.lookup id = some conn) →
          id ∉ ids ∧ ∃ conn, s.connections.lookup id = some conn := by
  induction ids with
  | nil => exact fun counted => ⟨_, rfl, counted, fun _ found => ⟨not_mem_nil, found⟩⟩
  | cons first rest ih =>
    intro s counted
    obtain ⟨middle, done, still⟩ := counted.close first now
    obtain ⟨t, later, right, left⟩ := ih still
    refine ⟨t, ?_, right, ?_⟩
    · rw [map_cons, ConnectionAdmission.run]
      exact Option.bind_eq_some_iff.mpr ⟨middle, done, later⟩
    · intro id found
      obtain ⟨notRest, conn, there⟩ := left id found
      rw [(close_connections done).1] at there
      obtain ⟨other, here⟩ := lookup_erase_eq_some _ |>.mp there
      exact ⟨fun member => (mem_cons.mp member).elim other notRest, conn, here⟩

/-- Whatever the interleaving: no pointer is nil, the counters are the numbers of tracked
    connections and within the limits, a connection that was closed or expired is never
    promoted, and closing every connection brings all counters to zero. -/
theorem admission_accounts (limits : AdmissionLimits) (events : List Event) :
    ∃ s, run limits initial events = some s ∧ Counted limits s ∧
      (∀ id conn, s.connections.lookup id = some conn → ∀ event,
        (∃ now, event = .close id now) ∨ event = .cancel id ∨
            (event = .expire id ∧ conn.authenticated = false) →
          ∀ later now, ∃ t, run limits s (event :: later) = some t ∧
            t.promote limits id now = some (t, false)) ∧
      ∀ now, ∃ t, run limits s (s.connections.keys.map (Event.close · now)) = some t ∧
        t.connections.entries = [] ∧ t.pending = 0 ∧ t.authenticated = 0 ∧
        ∀ ip peer, t.peers.lookup ip = some peer → peer.total = 0 ∧ peer.pending = 0 := by
  obtain ⟨s, done, counted⟩ := Counted.run events (counted_initial limits)
  refine ⟨s, done, counted, ?_, ?_⟩
  · intro id conn found event ends later now
    obtain ⟨middle, first, still⟩ := counted.act event
    obtain ⟨t, rest, _⟩ := still.run later
    refine ⟨t, Option.bind_eq_some_iff.mpr ⟨middle, first, rest⟩, ?_⟩
    exact ((counted.gone found ends first).run later rest).promote now
  · intro now
    obtain ⟨t, closed, right, left⟩ := Counted.closeAll now s.connections.keys counted
    have none : t.connections.entries = [] := by
      rw [eq_nil_iff_forall_not_mem]
      intro e entry
      obtain ⟨kept, conn, old⟩ := left e.1 ⟨e.2, t.connections.lookup_eq_some_iff.mpr entry⟩
      exact kept (mem_keys.mpr ⟨conn, s.connections.lookup_eq_some_iff.mp old⟩)
    exact ⟨t, closed, none, right.zero none⟩

end Gokvm.Gateway.ConnectionAdmission
