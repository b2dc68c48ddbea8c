import Gokvm.Gateway.Session

/-! # What revoking and pruning do to the store

Both end some sessions. `Drops` says once what that means: the other sessions stay
as they were, no grant of an ended session stays, and every lease of an ended
session is cancelled.
-/

namespace Gokvm.Gateway

open Lib List FinMap

/-! ## Drawn tokens -/

private theorem hexDigit_shaped {n : Nat} (small : n < 16) :
    (('0' ≤ hexDigit n && hexDigit n ≤ '9') || ('a' ≤ hexDigit n && hexDigit n ≤ 'f')) = true ∧
      (hexDigit n).utf8Size = 1 := by
  interval_cases n <;> decide

private theorem hexEncode_chars (bytes : List UInt8) :
    ∀ c ∈ bytes.flatMap fun b => [hexDigit (b.toNat / 16), hexDigit (b.toNat % 16)],
      (('0' ≤ c && c ≤ '9') || ('a' ≤ c && c ≤ 'f')) = true ∧ c.utf8Size = 1 := by
  intro c member
  obtain ⟨b, _, digit⟩ := mem_flatMap.mp member
  have byte := b.toNat_lt
  rcases mem_pair.mp digit with rfl | rfl
  · exact hexDigit_shaped (by omega)
  · exact hexDigit_shaped (by omega)

private theorem utf8ByteSize_ascii {cs : List Char} (ascii : ∀ c ∈ cs, c.utf8Size = 1) :
    (String.ofList cs).utf8ByteSize = cs.length := by
  induction cs with
  | nil => rfl
  | cons c cs ih =>
    have rest := ih fun d member => ascii d (mem_cons_of_mem c member)
    rw [String.ofList_cons, String.utf8ByteSize_append, String.utf8ByteSize_singleton, rest,
      ascii c mem_cons_self, length_cons, Nat.add_comm]

/-- A drawn token always passes the store's check of a presented one. -/
theorem randomToken_shaped {random : Random} {raw : String}
    (drawn : randomToken random = .ok raw) : tokenShaped raw = true := by
  cases random with
  | error reason => cases drawn
  | ok bytes =>
    cases drawn
    have chars := hexEncode_chars bytes.toList
    have size : (hexEncode bytes.toList).utf8ByteSize = 64 := by
      rw [hexEncode, utf8ByteSize_ascii fun c member => (chars c member).2]
      simp [length_flatMap]
    have digits : (hexEncode bytes.toList).toList.all
        (fun c => ('0' ≤ c && c ≤ '9') || ('a' ≤ c && c ≤ 'f')) = true := by
      rw [hexEncode, String.toList_ofList, all_eq_true]
      exact fun c member => (chars c member).1
    rw [tokenShaped, digits, Bool.and_true, decide_eq_true_eq]
    exact size

/-! ## Ending sessions -/

variable {Digest : Type} [DecidableEq Digest]

/-- The second store is the first one with some sessions ended. -/
structure Drops (gone : Digest → Prop) (s s' : SessionStore Digest) : Prop where
  sessions : ∀ key sess, s'.sessions.lookup key = some sess ↔
    s.sessions.lookup key = some sess ∧ ¬ gone key
  grants : ∀ verifier grant, s'.grants.lookup verifier = some grant →
    s.grants.lookup verifier = some grant ∧ ¬ gone grant.session
  count : ∀ p, s'.grants.countIf p ≤ s.grants.countIf p
  kept : ∀ lease ∈ s.cancelled, lease ∈ s'.cancelled
  cancelled : ∀ key sess, s.sessions.lookup key = some sess → gone key →
    ∀ lease ∈ sess.connections, lease ∈ s'.cancelled

theorem Drops.none (s : SessionStore Digest) : Drops (fun _ => False) s s where
  sessions := by simp
  grants := by simp
  count _ := le_rfl
  kept _ member := member
  cancelled _ _ _ gone := gone.elim

theorem Drops.trans {gone gone' : Digest → Prop} {s s' s'' : SessionStore Digest}
    (first : Drops gone s s') (second : Drops gone' s' s'') :
    Drops (fun key => gone key ∨ gone' key) s s'' where
  sessions key sess := by rw [second.sessions, first.sessions, not_or, and_assoc]
  grants verifier grant stored := by
    obtain ⟨stored', alive'⟩ := second.grants verifier grant stored
    obtain ⟨stored'', alive⟩ := first.grants verifier grant stored'
    exact ⟨stored'', not_or.mpr ⟨alive, alive'⟩⟩
  count p := (second.count p).trans (first.count p)
  kept lease member := second.kept lease (first.kept lease member)
  cancelled key sess stored either lease member := by
    by_cases early : gone key
    · exact second.kept lease (first.cancelled key sess stored early lease member)
    · have stored' := (first.sessions key sess).mpr ⟨stored, early⟩
      exact second.cancelled key sess stored' (either.resolve_left early) lease member

theorem Drops.congr {gone gone' : Digest → Prop} {s s' : SessionStore Digest}
    (drops : Drops gone s s') (same : ∀ key, gone key ↔ gone' key) : Drops gone' s s' := by
  rwa [show gone' = gone from funext fun key => propext (same key).symm]

theorem revokeLocked_drops (key : Digest) (s : SessionStore Digest) :
    Drops (· = key) s (s.revokeLocked key) := by
  have orphans : ∀ verifier grant,
      (s.grants.discard fun _ grant => grant.session = key).lookup verifier = some grant →
        s.grants.lookup verifier = some grant ∧ ¬ grant.session = key := by
    intro verifier grant stored
    simpa [lookup_discard_eq_some] using stored
  cases found : s.sessions.lookup key with
  | none =>
    have shape : s.revokeLocked key =
        { s with grants := s.grants.discard fun _ grant => grant.session = key } := by
      simp only [SessionStore.revokeLocked, found]
    rw [shape]
    have absent : ∀ {key' sess}, s.sessions.lookup key' = some sess → key' ≠ key := by
      rintro key' sess stored rfl
      rw [found] at stored
      cases stored
    exact
      { sessions := fun _ _ => ⟨fun stored => ⟨stored, absent stored⟩, And.left⟩
        grants := orphans
        count := fun p => countIf_discard_le p _ _
        kept := fun _ member => member
        cancelled := fun _ _ stored gone => (absent stored gone).elim }
  | some revoked =>
    have shape : s.revokeLocked key =
        { s with
            cancelled := revoked.connections ++ s.cancelled
            sessions := AList.erase key s.sessions
            grants := s.grants.discard fun _ grant => grant.session = key } := by
      simp only [SessionStore.revokeLocked, found]
    rw [shape]
    refine
      { sessions := fun _ _ => by rw [lookup_erase_eq_some, and_comm]
        grants := orphans
        count := fun p => countIf_discard_le p _ _
        kept := fun _ member => mem_append_right _ member
        cancelled := ?_ }
    rintro key' sess stored rfl lease member
    rw [found] at stored
    cases stored
    exact mem_append_left _ member

theorem foldl_revoke_drops (now : Nat) (entries : List (Σ _ : Digest, BrowserSession))
    (s : SessionStore Digest) :
    Drops (fun key => ∃ sess, ⟨key, sess⟩ ∈ entries ∧ sess.expires ≤ now) s
      (entries.foldl (fun s e => if now < e.2.expires then s else s.revokeLocked e.1) s) := by
  induction entries generalizing s with
  | nil => exact (Drops.none s).congr (by simp)
  | cons e entries ih =>
    obtain ⟨key, sess⟩ := e
    rw [foldl_cons]
    by_cases alive : now < sess.expires
    · rw [if_pos alive]
      refine (ih s).congr fun key' => exists_congr fun sess' => ?_
      rw [mem_cons, Sigma.mk.injEq, heq_eq_eq, or_and_right]
      refine ⟨Or.inr, fun either => either.resolve_left ?_⟩
      rintro ⟨⟨rfl, rfl⟩, expired⟩
      omega
    · rw [if_neg alive]
      refine ((revokeLocked_drops key s).trans (ih _)).congr fun key' => ?_
      constructor
      · rintro (rfl | ⟨sess', member, expired⟩)
        · exact ⟨sess, mem_cons_self, by omega⟩
        · exact ⟨sess', mem_cons_of_mem _ member, expired⟩
      · rintro ⟨sess', member, expired⟩
        rcases mem_cons.mp member with same | member
        · exact .inl (congrArg Sigma.fst same)
        · exact .inr ⟨sess', member, expired⟩

def SessionStore.Expired (now : Nat) (s : SessionStore Digest) (key : Digest) : Prop :=
  ∃ sess, s.sessions.lookup key = some sess ∧ sess.expires ≤ now

theorem pruneLocked_drops (now : Nat) (s : SessionStore Digest) :
    Drops (s.Expired now) s (s.pruneLocked now) := by
  have swept := (foldl_revoke_drops now s.sessions.entries s).congr
    fun key => show _ ↔ s.Expired now key by
      simp only [SessionStore.Expired, lookup_eq_some_iff]
  exact
    { swept with
      grants := fun verifier grant stored =>
        swept.grants verifier grant ((lookup_discard_eq_some _ _).mp stored).1
      count := fun p => (countIf_discard_le _ _ _).trans (swept.count p) }

theorem pruneLocked_grant_alive {now : Nat} {s : SessionStore Digest} {verifier : Digest}
    {grant : ConnectGrant Digest}
    (stored : (s.pruneLocked now).grants.lookup verifier = some grant) : now < grant.expires := by
  simpa using ((lookup_discard_eq_some _ _).mp stored).2

theorem pruneLocked_session_alive {now : Nat} {s : SessionStore Digest} {key : Digest}
    {sess : BrowserSession} (stored : (s.pruneLocked now).sessions.lookup key = some sess) :
    now < sess.expires := by
  obtain ⟨stored, alive⟩ := ((pruneLocked_drops now s).sessions key sess).mp stored
  by_contra expired
  exact alive ⟨sess, stored, by omega⟩

end Gokvm.Gateway
