import Gokvm.Rdp.ActivationSteps

/-! # The order of an activation

The flags of an activation are set in one order only, and each is set by a packet of its kind.
So the packets of a connection that becomes active are in that order, whatever else the client
sent in between.
-/

namespace Gokvm.Rdp

open Lib Checked List

/-! ## Orders of packets -/

/-- Both joins, in either order. -/
def Joins (joins : List PacketKind) : Prop :=
  joins.Perm [.join clientUser, .join globalChannel]

/-- Domain, user, both joins and Client Info, in this order. -/
def Introduced (kinds : List PacketKind) : Prop :=
  ∃ joins, Joins joins ∧
    ([PacketKind.erectDomain, .attachUser] ++ joins ++ [PacketKind.clientInfo]).Sublist kinds

/-- The introduction, the only Confirm Active with no input before it, a request for control and the
    final font list. -/
def InOrder (kinds : List PacketKind) : Prop :=
  ∃ before between, kinds = before ++ [.confirmActive] ++ between ++ [.fontList] ∧
    Introduced before ∧ .confirmActive ∉ before ∧ .input ∉ before ∧
    .confirmActive ∉ between ∧ .controlRequest ∈ between

theorem Introduced.grow {kinds : List PacketKind} (introduced : Introduced kinds) (kind : PacketKind) :
    Introduced (kinds ++ [kind]) := by
  obtain ⟨joins, both, order⟩ := introduced
  exact ⟨joins, both, order.trans (sublist_append_left ..)⟩

namespace Activation

/-! ## The introduction -/

/-- The flags up to the Client Info come from packets in order. -/
structure Opened (a : Activation) (kinds : List PacketKind) : Prop where
  erected : a.erected = true → [PacketKind.erectDomain].Sublist kinds
  attached : a.attached = true → [PacketKind.erectDomain, .attachUser].Sublist kinds
  joined : ∀ channel ∈ a.joined, [PacketKind.erectDomain, .attachUser, .join channel].Sublist kinds
  both : clientUser ∈ a.joined → globalChannel ∈ a.joined →
    ∃ joins, Joins joins ∧ ([PacketKind.erectDomain, .attachUser] ++ joins).Sublist kinds
  info : a.info = true → Introduced kinds

variable {a b : Activation} {kinds : List PacketKind} {kind : PacketKind} {done : Bool}

theorem opened_initial (channels : Nat) : Opened (.initial channels) [] := by
  constructor
  · intro never; cases never
  · intro never; cases never
  · intro channel never; cases never
  · intro never; cases never
  · intro never; cases never

theorem Opened.grow (opened : Opened a kinds) (kind : PacketKind) : Opened a (kinds ++ [kind]) := by
  have longer : kinds.Sublist (kinds ++ [kind]) := sublist_append_left ..
  constructor
  · exact fun set => (opened.erected set).trans longer
  · exact fun set => (opened.attached set).trans longer
  · exact fun channel member => (opened.joined channel member).trans longer
  · intro user global
    obtain ⟨joins, perm, order⟩ := opened.both user global
    exact ⟨joins, perm, order.trans longer⟩
  · exact fun set => (opened.info set).grow kind

theorem Opened.both_of_join (opened : Opened a kinds) {channel : Nat}
    (user : clientUser ∈ insert channel a.joined) (global : globalChannel ∈ insert channel a.joined) :
    ∃ joins, Joins joins ∧
      ([PacketKind.erectDomain, .attachUser] ++ joins).Sublist (kinds ++ [.join channel]) := by
  have after : ∀ earlier ∈ a.joined,
      [PacketKind.erectDomain, .attachUser, .join earlier, .join channel].Sublist
        (kinds ++ [.join channel]) :=
    fun earlier member => (opened.joined earlier member).append (List.Sublist.refl [_])
  rcases Finset.mem_insert.mp user with rfl | userBefore
  · rcases Finset.mem_insert.mp global with same | globalBefore
    · exact absurd same (by decide)
    · exact ⟨_, List.Perm.swap .., after _ globalBefore⟩
  · rcases Finset.mem_insert.mp global with rfl | globalBefore
    · exact ⟨_, List.Perm.refl _, after _ userBefore⟩
    · obtain ⟨joins, perm, order⟩ := opened.both userBefore globalBefore
      exact ⟨joins, perm, order.trans (sublist_append_left ..)⟩

theorem Opened.moves (opened : Opened a kinds) (move : Moves a kind done b) :
    Opened b (kinds ++ [kind]) := by
  have grown := opened.grow kind
  cases move with
  | erect is =>
    refine { grown with erected := fun _ => ?_ }
    exact is ▸ sublist_append_right ..
  | attach sent is erected =>
    refine { grown with attached := fun _ => ?_ }
    exact is ▸ (opened.erected erected).append (List.Sublist.refl [_])
  | join sent channel is attached =>
    subst is
    refine { grown with joined := fun other member => ?_, both := opened.both_of_join }
    rcases Finset.mem_insert.mp member with rfl | member
    · exact (opened.attached attached).append (List.Sublist.refl [_])
    · exact grown.joined other member
  | info sent audioDisabled is user global =>
    refine { grown with info := fun _ => ?_ }
    obtain ⟨joins, perm, order⟩ := opened.both user global
    exact ⟨joins, perm, is ▸ order.append (List.Sublist.refl [_])⟩
  | confirm | control | input | active | idle => exact { grown with }

/-! ## The confirmation -/

/-- The packets around the Confirm Active, and what was queued after it. -/
structure Confirmed (a : Activation) (kinds : List PacketKind) : Prop where
  before : a.confirmed = false → .confirmActive ∉ kinds ∧ .input ∉ kinds ∧ a.controlled = false
  after : a.confirmed = true → ∃ before since, kinds = before ++ [.confirmActive] ++ since ∧
    Introduced before ∧ .confirmActive ∉ before ∧ .input ∉ before ∧
    .confirmActive ∉ since ∧ (a.controlled = true → .controlRequest ∈ since)
  queued : a.pending.length ≤ 16

theorem confirmed_initial (channels : Nat) : Confirmed (.initial channels) [] := by
  refine { before := fun _ => ⟨?_, ?_, rfl⟩, after := ?_, queued := Nat.zero_le 16 }
  · intro member; cases member
  · intro member; cases member
  · intro never; cases never

section

variable (confirmed : Confirmed a kinds)
include confirmed

theorem Confirmed.grow (notConfirm : kind ≠ .confirmActive) (notInput : kind ≠ .input) :
    Confirmed a (kinds ++ [kind]) := by
  refine { before := fun unset => ?_, after := fun set => ?_, queued := confirmed.queued }
  · obtain ⟨absent, noInput, free⟩ := confirmed.before unset
    exact ⟨by simp [absent, Ne.symm notConfirm], by simp [noInput, Ne.symm notInput], free⟩
  · obtain ⟨before, since, rfl, order, first, noInput, only, control⟩ := confirmed.after set
    refine ⟨before, since ++ [kind], by simp, order, first, noInput, ?_, fun set => ?_⟩
    · simp [only, Ne.symm notConfirm]
    · exact mem_append_left _ (control set)

theorem Confirmed.input (set : a.confirmed = true) (room : a.pending.length < 16)
    (packet : QueuedPacket) :
    Confirmed { a with pending := a.pending ++ [packet] } (kinds ++ [.input]) := by
  refine { before := fun unset => ?_, after := fun _ => ?_, queued := ?_ }
  · exact absurd (set.symm.trans unset) (by decide)
  · obtain ⟨before, since, rfl, order, first, noInput, only, control⟩ := confirmed.after set
    refine ⟨before, since ++ [.input], by simp, order, first, noInput, by simp [only], fun set => ?_⟩
    exact mem_append_left _ (control set)
  · simp only [length_append, length_singleton]
    omega

theorem Confirmed.moves (opened : Opened a kinds) (move : Moves a kind done b) :
    Confirmed b (kinds ++ [kind]) := by
  cases move with
  | erect is | attach _ is | info _ _ is | active _ is | idle is =>
    subst is
    exact { confirmed.grow (by decide) (by decide) with }
  | join sent channel is =>
    subst is
    exact { confirmed.grow (by simp) (by simp) with }
  | confirm sent bitsPerPixel pointer is info first =>
    subst is
    obtain ⟨absent, noInput, free⟩ := confirmed.before first
    refine { before := fun unset => ?_, after := fun _ => ?_, queued := confirmed.queued }
    · cases unset
    · refine ⟨kinds, [], by simp, opened.info info, absent, noInput, by simp, fun set => ?_⟩
      exact absurd (free.symm.trans set) (by decide)
  | control sent is set =>
    subst is
    obtain ⟨before, since, rfl, order, first, noInput, only, -⟩ := confirmed.after set
    refine { before := fun unset => ?_, after := fun _ => ?_, queued := confirmed.queued }
    · exact absurd (set.symm.trans unset) (by decide)
    · exact ⟨before, since ++ [.controlRequest], by simp, order, first, noInput, by simp [only],
        by simp⟩
  | input packet is set room =>
    subst is
    exact confirmed.input set room packet

theorem Confirmed.inOrder (move : Moves a kind true b) :
    InOrder (kinds ++ [kind]) := by
  cases move with
  | active sent is set controlled =>
    obtain ⟨before, since, rfl, order, first, noInput, only, control⟩ := confirmed.after set
    exact ⟨before, since, by rw [is], order, first, noInput, only, control controlled⟩

end

/-! ## Runs -/

/-- Packets that are accepted one after another, without the connection becoming active. -/
inductive Advances : Activation → List ClientPacket → Activation → Prop
  | start (a : Activation) : Advances a [] a
  | next {a b c : Activation} {p : ClientPacket} {rest : List ClientPacket}
      (ran : a.step p = .ok (false, b)) (advances : Advances b rest c) : Advances a (p :: rest) c

variable {packets : List ClientPacket}

theorem Advances.keeps (advances : Advances a packets b) (opened : Opened a kinds)
    (confirmed : Confirmed a kinds) :
    Opened b (kinds ++ packets.map (·.kind)) ∧ Confirmed b (kinds ++ packets.map (·.kind)) := by
  induction advances generalizing kinds with
  | start a => simpa using ⟨opened, confirmed⟩
  | next ran advances ih =>
    have kept := ih (opened.moves (step_moves ran)) (confirmed.moves opened (step_moves ran))
    simpa only [append_assoc, singleton_append, map_cons] using kept

theorem Advances.initial_keeps {channels : Nat} (advances : Advances (.initial channels) packets a) :
    Opened a (packets.map (·.kind)) ∧ Confirmed a (packets.map (·.kind)) :=
  advances.keeps (opened_initial channels) (confirmed_initial channels)

/-- The loop ends well on a packet that activates the connection. -/
theorem activateLoop_eq_ok {count : Nat} (ran : activateLoop count a packets = .ok b) :
    ∃ used p rest c, packets = used ++ p :: rest ∧ used.length < count ∧ Advances a used c ∧
      c.step p = .ok (true, b) := by
  induction count generalizing a packets with
  | zero => cases ran
  | succ count ih =>
    cases packets with
    | nil => cases ran
    | cons p rest =>
      unfold activateLoop at ran
      obtain ⟨⟨done, c⟩, stepped, ran⟩ := bind_eq_ok ran
      cases done with
      | true =>
        cases ran
        exact ⟨[], p, rest, a, rfl, by simp, .start a, stepped⟩
      | false =>
        obtain ⟨used, q, tail, d, rfl, bound, advances, last⟩ := ih ran
        exact ⟨p :: used, q, tail, d, rfl, by simpa using bound, .next stepped advances, last⟩

theorem activateLoop_append {count : Nat} (enough : count ≤ packets.length) (more : List ClientPacket) :
    activateLoop count a (packets ++ more) = activateLoop count a packets := by
  induction count generalizing a packets with
  | zero => rfl
  | succ count ih =>
    cases packets with
    | nil => simp at enough
    | cons p rest =>
      have fewer : count ≤ rest.length := by simpa using enough
      unfold activateLoop
      rw [cons_append]
      simp only [ih fewer]

theorem safe_activateLoop (count : Nat) (packets : List ClientPacket) :
    Safe (activateLoop count a packets) fun _ => True := by
  induction count generalizing a packets with
  | zero => exact safe_refuse
  | succ count ih =>
    cases packets with
    | nil => exact safe_refuse
    | cons p rest =>
      unfold activateLoop
      refine (safe_step p).bind fun result _ => ?_
      exact safe_ite (fun _ => safe_pure trivial) fun _ => ih rest

/-- Before the Confirm Active, input is refused. -/
theorem Confirmed.refuses_input (confirmed : Confirmed a kinds) (absent : .confirmActive ∉ kinds)
    {p : ClientPacket} (input : p.kind = .input) : ∃ reason, a.step p = refuse reason := by
  rcases (safe_step (a := a) p).total with ⟨⟨done, b⟩, ran⟩ | refused
  · exfalso
    have move := step_moves ran
    rw [input] at move
    cases move with
    | input packet is set room =>
      obtain ⟨before, since, rfl, -⟩ := confirmed.after set
      exact absent (by simp)
    | erect is | attach sent is | join sent channel is | info sent audioDisabled is
    | confirm sent bitsPerPixel pointer is | control sent is | active sent is | idle is => cases is
  · exact refused

end Activation

/-- An activation ends on at most 256 packets, well only after the packets of the order; on the
way input is refused until the Confirm Active, and at most 16 inputs are queued. -/
theorem activation_in_order (channels : Nat) (packets : List ClientPacket) :
    Total (activate channels packets) ∧
      (∀ a, activate channels packets = .ok a →
        a.pending.length ≤ 16 ∧ ∃ used rest, packets = used ++ rest ∧ used.length ≤ 256 ∧
          InOrder (used.map (·.kind))) ∧
      (∀ used a, Activation.Advances (.initial channels) used a →
        a.pending.length ≤ 16 ∧
          (.confirmActive ∉ used.map (·.kind) →
            ∀ p : ClientPacket, p.kind = .input → ∃ reason, a.step p = refuse reason)) ∧
      (256 ≤ packets.length → ∀ more, activate channels (packets ++ more) = activate channels packets) := by
  refine ⟨(Activation.safe_activateLoop 256 packets).total, fun a ran => ?_, fun used a advances => ?_,
    fun enough more => Activation.activateLoop_append enough more⟩
  · obtain ⟨used, p, rest, b, rfl, bound, advances, last⟩ := Activation.activateLoop_eq_ok ran
    obtain ⟨opened, confirmed⟩ := advances.initial_keeps
    have move := Activation.step_moves last
    refine ⟨(confirmed.moves opened move).queued, used ++ [p], rest, by simp, by simp; omega, ?_⟩
    simpa using confirmed.inOrder move
  · obtain ⟨-, confirmed⟩ := advances.initial_keeps
    exact ⟨confirmed.queued, fun absent p input => confirmed.refuses_input absent input⟩

end Gokvm.Rdp
