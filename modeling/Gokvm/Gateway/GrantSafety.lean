import Gokvm.Gateway.Grants

/-! # The session store over whole runs

Every call keeps the store and the history in agreement, so every run does, whatever
the order of the calls, their arguments and the clock readings they saw.
-/

namespace Gokvm.Gateway

open Lib History List Event

variable {Digest : Type} [DecidableEq Digest] {sha256 : String → Digest} {config : Config}

structure Sound (sha256 : String → Digest) (config : Config) (s : SessionStore Digest)
    (h : History Digest) : Prop where
  history : HistoryOk sha256 config h
  stored : Stored sha256 config s h
  covered : Covered s h

theorem Sound.start : Sound sha256 config newSessionStore [] where
  history := .nil
  stored :=
    { sessions := nofun
      grants := nofun
      bounded := fun _ => Nat.zero_le _ }
  covered := fun _ _ leased => leased.elim

theorem Sound.drops {gone : Digest → Prop} {s s' : SessionStore Digest} {h : History Digest}
    (sound : Sound sha256 config s h) (drops : Drops gone s s') : Sound sha256 config s' h :=
  { sound with stored := sound.stored.drops drops, covered := sound.covered.drops drops }

/-- The call ends none of the store's sessions. -/
def Spares (sha256 : String → Digest) (call : Call Digest) (s : SessionStore Digest) : Prop :=
  ∀ key sess, s.sessions.lookup key = some sess →
    call ≠ .revoke key ∧
    (∀ raw now, call = .session raw sess.clientIP now → sess.clientIP ≠ "" →
      tokenKey sha256 raw = some key → now < sess.expires) ∧
    ∀ now, call.prunesAt = some now → now < sess.expires

variable {call : Call Digest}

theorem spares_pruned {now : Nat} (reading : call.prunesAt = some now) (s : SessionStore Digest) : Spares sha256 call (s.pruneLocked now) := by
  intro key sess found
  have alive := pruneLocked_session_alive found
  refine ⟨?_, ?_, ?_⟩
  · rintro rfl
    cases reading
  · rintro raw now' rfl
    cases reading
  · intro now' reading'
    cases reading.symm.trans reading'
    exact alive

theorem spares_unread (reading : call.prunesAt = none) (revoke : ∀ key, call ≠ .revoke key)
    (session : ∀ raw ip now, call ≠ .session raw ip now) (s : SessionStore Digest) : Spares sha256 call s := by
  intro key sess _
  refine ⟨revoke key, fun raw now same => (session raw _ now same).elim, fun now reading' => ?_⟩
  cases reading.symm.trans reading'

theorem Sound.spared {s : SessionStore Digest} {h : History Digest} (sound : Sound sha256 config s h)
    (spares : Spares sha256 call s) :
    ∀ key sess, s.sessions.lookup key = some sess → ¬ Ends sha256 config h call key := by
  intro key sess found
  obtain ⟨revoke, session, prune⟩ := spares key sess found
  exact sound.stored.not_ends sound.history found revoke session prune

variable (sha256) in
/-- A presented token is ignored unread, refused, or backed by a live grant and session. -/
theorem presented_cases (s : SessionStore Digest) (raw ip : String) (now : Nat) :
    (¬ (tokenShaped raw = true ∧ ip ≠ "") ∧ s.presented sha256 raw ip now = (none, s)) ∨
    ((tokenShaped raw = true ∧ ip ≠ "") ∧
      (s.presented sha256 raw ip now = (none, s.pruneLocked now) ∨
        ∃ grant sess, s.presented sha256 raw ip now = (some (grant, sess), s.pruneLocked now) ∧
          (s.pruneLocked now).grants.lookup (sha256 raw) = some grant ∧
          (s.pruneLocked now).sessions.lookup grant.session = some sess ∧
          sess.clientIP = ip)) := by
  unfold SessionStore.presented
  cases token : tokenKey sha256 raw with
  | none =>
    refine .inl ⟨?_, rfl⟩
    rintro ⟨shaped, _⟩
    simp [tokenKey, shaped] at token
  | some verifier =>
    obtain ⟨shaped, rfl⟩ := (tokenKey_eq_some sha256).mp token
    by_cases named : ip = ""
    · exact .inl ⟨fun good => good.2 named, if_pos named⟩
    refine .inr ⟨⟨shaped, named⟩, ?_⟩
    simp only [if_neg named]
    cases stored : (s.pruneLocked now).grants.lookup (sha256 raw) with
    | none => exact .inl rfl
    | some grant =>
      cases found : (s.pruneLocked now).sessions.lookup grant.session with
      | none => exact .inl (by simp only [found])
      | some sess =>
        by_cases here : sess.clientIP = ip
        · exact .inr ⟨grant, sess, by simp only [found, if_neg (not_not.mpr here)], rfl, found, here⟩
        · exact .inl (by simp only [found, if_pos here])

theorem cancel_drops (s : SessionStore Digest) (lease : Lease) :
    Drops (fun _ => False) s (s.cancel lease) :=
  { Drops.none s with
    kept := fun _ member => mem_cons_of_mem lease member
    cancelled := fun _ _ _ gone => gone.elim }

section Step

variable (injective : Set.InjOn sha256 {raw | tokenShaped raw = true})
variable {s : SessionStore Digest} {h : History Digest}

include injective

section

variable (sound : Sound sha256 config s h)
include sound

theorem Sound.quiet {e : Event Digest}
    (quiet : Quiet sha256 config e) (fresh : ∀ raw ∈ e.call.drawn, raw ∉ drawn h)
    (spares : Spares sha256 e.call s) : Sound sha256 config s (e :: h) where
  history := by
    refine sound.history.cons injective fresh ?_ ?_ ?_ ⟨?_, ?_⟩
    · simp [quiet.opened]
    · simp [quiet.issued]
    · simp [quiet.claimed]
    · simp [quiet.admitted]
    · simp [quiet.claimed]
  stored := sound.stored.cons quiet.issued (by simp [quiet.claimed]) (sound.spared spares)
  covered := sound.covered.cons quiet.admitted quiet.uploaded

theorem Sound.session (raw ip : String) (now : Nat) :
    Sound sha256 config (s.session sha256 raw ip now).2
      (⟨.session raw ip now, .session (s.session sha256 raw ip now).1⟩ :: h) := by
  have quiet : ∀ found, Quiet sha256 config
      (⟨.session raw ip now, .session found⟩ : Event Digest) :=
    fun _ => ⟨rfl, rfl, rfl, rfl, rfl⟩
  -- All but the expired session's branch leave the store as it was.
  have unchanged : ∀ found,
      (∀ key sess, s.sessions.lookup key = some sess → sess.clientIP = ip → ip ≠ "" →
        tokenKey sha256 raw = some key → now < sess.expires) →
      Sound sha256 config s (⟨.session raw ip now, .session found⟩ :: h) := by
    intro found alive
    refine sound.quiet injective (quiet found) (by simp [Call.drawn]) ?_
    intro key sess present
    refine ⟨by simp, ?_, by simp [Call.prunesAt]⟩
    intro raw' now' same named token
    cases same
    exact alive key sess present rfl named token
  unfold SessionStore.session
  cases token : tokenKey sha256 raw with
  | none => exact unchanged none (by simp [token])
  | some key =>
    simp only
    by_cases named : ip = ""
    · rw [if_pos named]
      exact unchanged none fun _ _ _ _ present => (present named).elim
    rw [if_neg named]
    cases found : s.sessions.lookup key with
    | none =>
      refine unchanged none fun key' sess present _ _ token' => ?_
      cases token.symm.trans token'
      cases found.symm.trans present
    | some sess =>
      have only : ∀ {key' sess'}, s.sessions.lookup key' = some sess' →
          tokenKey sha256 raw = some key' → sess' = sess := by
        intro key' sess' present token'
        cases token.symm.trans token'
        exact Option.some.inj (present.symm.trans found)
      simp only
      by_cases here : sess.clientIP = ip
      · rw [if_neg (not_not.mpr here)]
        by_cases alive : now < sess.expires
        · rw [if_neg (not_not.mpr alive)]
          refine unchanged _ fun key' sess' present _ _ token' => ?_
          rwa [only present token']
        · rw [if_pos alive]
          have drops := revokeLocked_drops key s
          refine (sound.drops drops).quiet injective (quiet none) (by simp [Call.drawn]) ?_
          intro key' sess' present
          refine ⟨by simp, fun raw' now' same _ token' => ?_, by simp [Call.prunesAt]⟩
          cases same
          cases token.symm.trans token'
          exact (((drops.sessions key sess').mp present).2 rfl).elim
      · rw [if_pos here]
        refine unchanged none fun key' sess' present same _ token' => ?_
        rw [only present token'] at same
        exact (here same).elim

theorem Sound.revoke (key : Digest) :
    Sound sha256 config (s.revoke key) (⟨.revoke key, .done⟩ :: h) := by
  have drops := revokeLocked_drops key s
  refine (sound.drops drops).quiet injective ⟨rfl, rfl, rfl, rfl, rfl⟩ (by simp [Call.drawn]) ?_
  intro key' sess present
  refine ⟨?_, by simp, by simp [Call.prunesAt]⟩
  rintro ⟨⟩
  exact ((drops.sessions key sess).mp present).2 rfl

theorem Sound.pruned {e : Event Digest} {now : Nat}
    (reading : e.call.prunesAt = some now) (quiet : Quiet sha256 config e)
    (fresh : ∀ raw ∈ e.call.drawn, raw ∉ drawn h) :
    Sound sha256 config (s.pruneLocked now) (e :: h) :=
  (sound.drops (pruneLocked_drops now s)).quiet injective quiet fresh (spares_pruned reading s)

theorem Sound.allowLogin (ip : String) (now : Nat) :
    Sound sha256 config (s.allowLogin ip now).2
      (⟨.allowLogin ip now, .verdict (s.allowLogin ip now).1⟩ :: h) := by
  have counted : ∃ attempts,
      (s.allowLogin ip now).2 = { s.pruneLocked now with attempts } := by
    unfold SessionStore.allowLogin
    simp only
    split
    · exact ⟨_, rfl⟩
    · exact ⟨_, rfl⟩
  obtain ⟨attempts, shape⟩ := counted
  have same : Drops (fun _ => False) (s.pruneLocked now) { s.pruneLocked now with attempts } :=
    { Drops.none (s.pruneLocked now) with }
  have after := sound.pruned injective (e := ⟨.allowLogin ip now, .verdict (s.allowLogin ip now).1⟩)
    rfl ⟨rfl, rfl, rfl, rfl, rfl⟩ (by simp [Call.drawn])
  rw [shape]
  exact after.drops same

theorem Sound.newLoginSession (identity : Identity)
    (login ip hash : String) (random csrfRandom : Random) (now stamp : Nat)
    (fresh : ∀ raw ∈ (Call.newLoginSession identity login ip hash random csrfRandom now stamp :
      Call Digest).drawn, raw ∉ drawn h) :
    Sound sha256 config
      (s.newLoginSession sha256 config identity login ip hash random csrfRandom now stamp).2
      (⟨.newLoginSession identity login ip hash random csrfRandom now stamp,
        .token (s.newLoginSession sha256 config identity login ip hash random csrfRandom now
          stamp).1⟩ :: h) := by
  let call : Call Digest := .newLoginSession identity login ip hash random csrfRandom now stamp
  have refused : ∀ failure, call.prunesAt = none →
      Sound sha256 config s (⟨call, .token (.error failure)⟩ :: h) := fun failure reading =>
    sound.quiet injective ⟨rfl, rfl, rfl, rfl, rfl⟩ fresh (spares_unread reading nofun nofun s)
  unfold SessionStore.newLoginSession
  by_cases rejected : loginRejected login = true
  · rw [if_pos rejected]
    exact refused _ (by simp [call, Call.prunesAt, rejected])
  rw [if_neg rejected]
  cases draw : randomToken random with
  | error failure => exact refused _ (by simp [call, Call.prunesAt, draw])
  | ok raw =>
    cases csrfDraw : randomToken csrfRandom with
    | error failure => exact refused _ (by simp [call, Call.prunesAt, draw, csrfDraw])
    | ok csrf =>
      have reading : call.prunesAt = some now := by
        simp [call, Call.prunesAt, rejected, draw, csrfDraw]
      simp only
      by_cases full : config.maxSessions ≤ (s.pruneLocked now).sessions.entries.length
      · rw [if_pos full]
        exact sound.pruned injective reading ⟨rfl, rfl, rfl, rfl, rfl⟩ fresh
      rw [if_neg full]
      have pruned := sound.drops (pruneLocked_drops now s)
      have shaped := randomToken_shaped draw
      have member : raw ∈ call.drawn := by simp [call, Call.drawn, rejected, draw, Except.toOption]
      have other : ∀ o, Opened sha256 config h o → o.key ≠ sha256 raw := fun o =>
        sound.history.key_fresh injective shaped (fresh raw member)
      have absent : (s.pruneLocked now).sessions.lookup (sha256 raw) = none := by
        rw [Option.eq_none_iff_forall_ne_some]
        intro sess found
        exact other _ (pruned.stored.sessions _ sess found).1 rfl
      refine
        { history := ?_
          stored := ?_
          covered := (pruned.covered.cons rfl rfl).open absent _ }
      · refine sound.history.cons injective fresh ?_ (by simp [Event.issued])
          (by simp [Event.claimed]) ⟨by simp [admitted], by simp [Event.claimed]⟩
        intro o opened
        cases opened
        exact ⟨raw, member, shaped, rfl⟩
      · have kept := pruned.stored.cons (e := ⟨call, .token (.ok raw)⟩) rfl (by simp [Event.claimed])
          (pruned.spared (spares_pruned reading s))
        refine kept.open absent (opened_cons.mpr (.inl rfl)) ?_
        rintro (ended | ⟨ip', expires, opened, _⟩)
        · obtain ⟨ip', expires, opened⟩ := ended.opened
          exact other _ opened rfl
        · exact other _ opened rfl

theorem Sound.grant (key : Digest) (vm : String)
    (random : Random) (now : Nat)
    (fresh : ∀ raw ∈ (Call.grant key vm random now).drawn, raw ∉ drawn h) :
    Sound sha256 config (s.grant sha256 key vm random now).2
      (⟨.grant key vm random now, .token (s.grant sha256 key vm random now).1⟩ :: h) := by
  unfold SessionStore.grant
  cases draw : randomToken random with
  | error failure =>
    exact sound.quiet injective ⟨rfl, rfl, rfl, rfl, rfl⟩ fresh
      (spares_unread (by simp [Call.prunesAt, draw, Except.toOption]) (by simp) (by simp) s)
  | ok raw =>
    have reading : (Call.grant key vm random now).prunesAt = some now := by
      simp [Call.prunesAt, draw, Except.toOption]
    have member : raw ∈ (Call.grant key vm random now).drawn := by
      simp [Call.drawn, draw, Except.toOption]
    have pruned := sound.drops (pruneLocked_drops now s)
    simp only
    cases found : (s.pruneLocked now).sessions.lookup key with
    | none => exact sound.pruned injective reading ⟨rfl, rfl, rfl, rfl, rfl⟩ fresh
    | some sess =>
      have replaced := pruned.stored.fewer
        (fun verifier grant stored =>
          ((FinMap.lookup_discard_eq_some
            (fun _ grant => grant.session = key && grant.vm = vm) _).mp stored).1)
        (fun p => FinMap.countIf_discard_le p _ _)
      simp only
      split
      · refine ({ pruned with stored := replaced, covered := pruned.covered } :
          Sound sha256 config _ h).quiet injective ⟨rfl, rfl, rfl, rfl, rfl⟩ fresh ?_
        exact spares_pruned reading s
      next room =>
        refine
          { history := ?_
            stored := ?_
            covered := pruned.covered.cons rfl rfl }
        · refine sound.history.cons injective fresh (by simp [opened]) ?_
            (by simp [Event.claimed]) ⟨by simp [admitted], by simp [Event.claimed]⟩
          intro i issued
          cases issued
          exact ⟨member, randomToken_shaped draw⟩
        · refine replaced.issue found rfl rfl (pruned.spared (spares_pruned reading s)) ?_ ?_ ?_
          · exact fun spent => fresh raw member (sound.history.claimed raw spent)
          · intro verifier grant stored
            simpa using ((FinMap.lookup_discard_eq_some _ _).mp stored).2
          · rw [FinMap.countIf_discard]
            refine lt_of_eq_of_lt (congrArg (FinMap.countIf · _) ?_) (Nat.lt_of_not_le room)
            funext _ grant
            by_cases same : grant.session = key <;> simp [same]

theorem Sound.pendingGrant (raw ip : String) (now : Nat) :
    Sound sha256 config (s.pendingGrant sha256 raw ip h.length now).2
      (⟨.pendingGrant raw ip now, .pending (s.pendingGrant sha256 raw ip h.length now).1⟩ :: h) := by
  unfold SessionStore.pendingGrant
  rcases presented_cases sha256 s raw ip now with ⟨bad, shape⟩ | ⟨good, shape⟩
  · rw [shape]
    have unread : (Call.pendingGrant raw ip now : Call Digest).prunesAt = none := if_neg bad
    exact sound.quiet injective ⟨rfl, rfl, rfl, rfl, rfl⟩ (by simp [Call.drawn])
      (spares_unread unread (by simp) (by simp) s)
  have reading : (Call.pendingGrant raw ip now : Call Digest).prunesAt = some now := if_pos good
  rcases shape with shape | ⟨grant, sess, shape, stored, found, rfl⟩
  · rw [shape]
    exact sound.pruned injective reading ⟨rfl, rfl, rfl, rfl, rfl⟩ (by simp [Call.drawn])
  rw [shape]
  have pruned := sound.drops (pruneLocked_drops now s)
  obtain ⟨entitled, _, _, time, issued⟩ := pruned.stored.entitled injective
    pruned.history good.1 stored found (pruneLocked_grant_alive stored)
  refine
    { history := ?_
      stored := (pruned.stored.cons rfl (by simp [Event.claimed])
        (pruned.spared (spares_pruned reading s))).reconnect found _
      covered := pruned.covered.register found ?_ }
  · refine sound.history.cons injective (by simp [Call.drawn]) (by simp [opened])
      (by simp [Event.issued]) (by simp [Event.claimed]) ⟨?_, by simp [Event.claimed]⟩
    intro a admitted
    cases admitted
    exact ⟨grant.session, entitled⟩
  · rintro key' (⟨a, i, admitted, issued', same, rfl⟩ | uploaded)
    · cases admitted
      exact congrArg Issue.key (sound.history.issuedOnce i _ issued' issued same)
    · cases uploaded

theorem Sound.claimGrant (raw ip : String) (now : Nat) :
    Sound sha256 config (s.claimGrant sha256 raw ip now).2
      (⟨.claimGrant raw ip now, .verdict (s.claimGrant sha256 raw ip now).1⟩ :: h) := by
  unfold SessionStore.claimGrant
  rcases presented_cases sha256 s raw ip now with ⟨bad, shape⟩ | ⟨good, shape⟩
  · rw [shape]
    have unread : (Call.claimGrant raw ip now : Call Digest).prunesAt = none := if_neg bad
    exact sound.quiet injective ⟨rfl, rfl, rfl, rfl, rfl⟩ (by simp [Call.drawn])
      (spares_unread unread (by simp) (by simp) s)
  have reading : (Call.claimGrant raw ip now : Call Digest).prunesAt = some now := if_pos good
  rcases shape with shape | ⟨grant, sess, shape, stored, found, rfl⟩
  · rw [shape]
    exact sound.pruned injective reading ⟨rfl, rfl, rfl, rfl, rfl⟩ (by simp [Call.drawn])
  rw [shape]
  have pruned := sound.drops (pruneLocked_drops now s)
  obtain ⟨entitled, known, unspent, _⟩ := pruned.stored.entitled injective
    pruned.history good.1 stored found (pruneLocked_grant_alive stored)
  have spent := pruned.stored.fewer
    (fun verifier grant kept => ((FinMap.lookup_erase_eq_some (j := sha256 raw) _).mp kept).2)
    (fun p => FinMap.countIf_erase_le p _ _)
  refine
    { history := ?_
      stored := spent.cons rfl ?_ (pruned.spared (spares_pruned reading s))
      covered := pruned.covered.cons rfl rfl }
  · refine sound.history.cons injective (by simp [Call.drawn]) (by simp [opened])
      (by simp [Event.issued]) ?_ ⟨by simp [admitted], ?_⟩
    · intro c claimed
      cases claimed
      exact ⟨known, unspent⟩
    · intro c claimed
      cases claimed
      exact ⟨grant.session, grant.vm, entitled⟩
  · intro c claimed
    cases claimed
    exact AList.lookup_erase _ _

theorem Sound.uploadContext (key : Digest) (now : Nat) :
    Sound sha256 config (s.uploadContext key h.length now).2
      (⟨.uploadContext key now, .verdict (s.uploadContext key h.length now).1⟩ :: h) := by
  have reading : (Call.uploadContext key now).prunesAt = some now := rfl
  have refused : Sound sha256 config (s.pruneLocked now)
      (⟨.uploadContext key now, .verdict false⟩ :: h) :=
    sound.pruned injective reading ⟨rfl, rfl, rfl, rfl, rfl⟩ (by simp [Call.drawn])
  unfold SessionStore.uploadContext
  simp only
  cases found : (s.pruneLocked now).sessions.lookup key with
  | none => exact refused
  | some sess =>
    by_cases admin : sess.isAdmin = true
    · simp only [if_pos admin]
      have pruned := sound.drops (pruneLocked_drops now s)
      refine
        { history := ?_
          stored := (pruned.stored.cons rfl (by simp [Event.claimed])
            (pruned.spared (spares_pruned reading s))).reconnect found _
          covered := pruned.covered.register found ?_ }
      · exact sound.history.cons injective (by simp [Call.drawn]) (by simp [opened])
          (by simp [Event.issued]) (by simp [Event.claimed])
          ⟨by simp [admitted], by simp [Event.claimed]⟩
      · rintro key' (⟨a, i, admitted, _⟩ | uploaded)
        · cases admitted
        · cases uploaded
          rfl
    · simp only [if_neg admin]
      exact refused

theorem Sound.cancel (lease : Lease) :
    Sound sha256 config (s.cancel lease) (⟨.cancel lease, .done⟩ :: h) :=
  (sound.drops (cancel_drops s lease)).quiet injective ⟨rfl, rfl, rfl, rfl, rfl⟩
    (by simp [Call.drawn]) (spares_unread rfl (by simp) (by simp) _)

theorem Sound.release (key : Digest) (lease : Lease) :
    Sound sha256 config (s.release key lease) (⟨.release key lease, .done⟩ :: h) := by
  have cancelled := sound.stored.drops (cancel_drops s lease)
  have kept : Stored sha256 config (s.release key lease) h := by
    cases found : s.sessions.lookup key with
    | none =>
      rw [release_absent found]
      exact cancelled
    | some sess =>
      rw [release_present found]
      exact cancelled.reconnect found _
  exact ({ sound with stored := kept, covered := sound.covered.release key lease } :
    Sound sha256 config (s.release key lease) h).quiet injective ⟨rfl, rfl, rfl, rfl, rfl⟩
      (by simp [Call.drawn]) (spares_unread rfl (by simp) (by simp) _)

end

/-- Every call keeps the store and the history in agreement. -/
theorem Sound.step {w : World Digest} (sound : Sound sha256 config w.store w.history)
    (call : Call Digest) (fresh : ∀ raw ∈ call.drawn, raw ∉ drawn w.history) :
    Sound sha256 config (w.step sha256 config call).store (w.step sha256 config call).history := by
  cases call with
  | newLoginSession identity login ip hash random csrfRandom now stamp =>
    exact sound.newLoginSession injective identity login ip hash random csrfRandom now stamp fresh
  | session raw ip now => exact sound.session injective raw ip now
  | revoke key => exact sound.revoke injective key
  | prune now =>
    exact sound.pruned injective (e := ⟨.prune now, .done⟩) rfl ⟨rfl, rfl, rfl, rfl, rfl⟩ fresh
  | allowLogin ip now => exact sound.allowLogin injective ip now
  | grant key vm random now => exact sound.grant injective key vm random now fresh
  | pendingGrant raw ip now => exact sound.pendingGrant injective raw ip now
  | claimGrant raw ip now => exact sound.claimGrant injective raw ip now
  | uploadContext key now => exact sound.uploadContext injective key now
  | cancel lease => exact sound.cancel injective lease
  | release key lease => exact sound.release injective key lease

theorem Sound.steps {w : World Digest} (sound : Sound sha256 config w.store w.history)
    (calls : List (Call Digest)) (distinct : (calls.flatMap Call.drawn).Nodup)
    (fresh : ∀ raw ∈ calls.flatMap Call.drawn, raw ∉ drawn w.history) :
    Sound sha256 config (calls.foldl (World.step sha256 config) w).store
      (calls.foldl (World.step sha256 config) w).history := by
  induction calls generalizing w with
  | nil => exact sound
  | cons call calls ih =>
    rw [flatMap_cons] at distinct fresh
    obtain ⟨_, distinct', apart⟩ := nodup_append.mp distinct
    refine ih (sound.step injective call fun raw member =>
      fresh raw (mem_append_left _ member)) distinct' ?_
    intro raw member
    rw [show (w.step sha256 config call).history = _ :: w.history from rfl, drawn_cons,
      mem_append, not_or]
    exact ⟨fun here => apart raw here raw member rfl,
      fresh raw (mem_append_right _ member)⟩

end Step

/-! ## The guarantees -/

/-- What the store promises about accepted tokens, kept grants and ended sessions. -/
structure GrantsSafe (sha256 : String → Digest) (config : Config) (w : World Digest) : Prop where
  claimedOnce : (claims w.history).Nodup
  vetted : ∀ e older, e :: older <:+ w.history → Vetted sha256 config e older
  referred : ∀ verifier grant, w.store.grants.lookup verifier = some grant →
    ∃ sess, w.store.sessions.lookup grant.session = some sess ∧ grant.expires ≤ sess.expires
  bounded : ∀ key, w.store.grants.countIf (fun _ grant => grant.session = key) ≤ 32
  ended : ∀ key, Ended sha256 config w.history key → w.store.sessions.lookup key = none
  cancelled : ∀ key lease, Leased w.history key lease → w.store.sessions.lookup key = none →
    lease ∈ w.store.cancelled

theorem Sound.safe {w : World Digest} (sound : Sound sha256 config w.store w.history) :
    GrantsSafe sha256 config w where
  claimedOnce := sound.history.claimedOnce
  vetted := sound.history.vetted
  referred verifier grant found := by
    obtain ⟨sess, raw, time, backed⟩ := sound.stored.grants verifier grant found
    exact ⟨sess, backed.session, backed.expires ▸ min_le_right _ _⟩
  bounded := sound.stored.bounded
  ended key ended := by
    rw [Option.eq_none_iff_forall_ne_some]
    exact fun sess found => (sound.stored.sessions key sess found).2 ended
  cancelled key lease leased gone := by
    refine (sound.covered key lease leased).resolve_right ?_
    rintro ⟨sess, found, _⟩
    cases gone.symm.trans found

/-- Over every sequence of calls, with any arguments and clock readings: a token is claimed at most
    once; whatever is let in or claimed was issued by a session of the same client that had neither
    ended nor run out, with a token in its time and not replaced; grants belong to stored sessions,
    outlive none, and are at most 32 a session; a revoked or pruned session is gone with its leases
    cancelled. -/
theorem grants_are_safe (sha256 : String → Digest) (config : Config)
    (injective : Set.InjOn sha256 {raw | tokenShaped raw = true}) (calls : List (Call Digest))
    (distinct : (calls.flatMap Call.drawn).Nodup) :
    GrantsSafe sha256 config (run sha256 config calls) :=
  (Sound.start.steps injective calls distinct (by simp [drawn])).safe

def sampleCalls : List (Call String) :=
  let cookie := hexEncode (replicate 32 1)
  let token := hexEncode (replicate 32 2)
  [ .newLoginSession ⟨"ada", false⟩ "ada" "10.0.0.1" "" (.ok (Vector.replicate 32 1))
      (.ok (Vector.replicate 32 3)) 5 6,
    .grant cookie "vm" (.ok (Vector.replicate 32 2)) 7,
    .pendingGrant token "10.0.0.1" 8,
    .claimGrant token "10.0.0.2" 9,
    .claimGrant token "10.0.0.1" 9,
    .claimGrant token "10.0.0.1" 10,
    .revoke cookie ]

/-- A run that opens a session, admits its token and spends it once. -/
theorem sampleCalls_are_safe :
    (sampleCalls.flatMap Call.drawn).Nodup ∧
      claims (run id ⟨8, 100⟩ sampleCalls).history = [hexEncode (replicate 32 2)] ∧
      GrantsSafe id ⟨8, 100⟩ (run id ⟨8, 100⟩ sampleCalls) := by
  have distinct : (sampleCalls.flatMap Call.drawn).Nodup := by decide +kernel
  exact ⟨distinct, by decide +kernel,
    grants_are_safe id ⟨8, 100⟩ (fun _ _ _ _ same => same) sampleCalls distinct⟩

end Gokvm.Gateway
