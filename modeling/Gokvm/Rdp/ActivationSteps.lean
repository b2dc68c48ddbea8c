import Gokvm.Rdp.Activation
import Gokvm.Rdp.ParserSafety

/-! # Steps of an activation

What a packet is can be told from its bytes alone. `Moves` says everything that an accepted
packet of a kind can do to the flags; a packet that is not accepted is refused, never more.
-/

namespace Gokvm.Rdp

open Lib Checked

/-! ## Kinds of packets -/

inductive PacketKind where
  | erectDomain
  | attachUser
  | join (channel : Nat)
  | clientInfo
  | confirmActive
  | controlRequest
  | fontList
  | input
  | other
deriving DecidableEq

open PacketKind

namespace PacketKind

/-- Share Data: input, the request for control and the final font list. -/
def ofShareData (data : Bytes) : PacketKind :=
  if data.getD 14 0 = 0x1c then .input
  else if data.getD 14 0 = 0x14 ∧ data.length = 26 ∧ leNat (part data 18 2) = 1 then .controlRequest
  else if data.getD 14 0 = 0x27 ∧ data.length = 26 ∧ leNat (part data 22 2) &&& 2 ≠ 0 then .fontList
  else .other

def ofGlobal (data : Bytes) : PacketKind :=
  match Parser.validateClientInfo data with
  | .ok _ => .clientInfo
  | .error _ =>
    match shareType data with
    | .error _ => .other
    | .ok kind =>
      if kind = 3 then .confirmActive
      else if kind = 7 ∧ 18 ≤ data.length then ofShareData data
      else .other

def ofMCS (mcs : Bytes) : PacketKind :=
  if mcs = [4, 1, 0, 1, 0] then .erectDomain
  else if mcs.length = 1 ∧ mcs.getD 0 0 >>> 2 = 10 then .attachUser
  else if mcs.length = 5 ∧ mcs.getD 0 0 >>> 2 = 14 ∧ beNat (part mcs 1 2) = 0 then
    .join (beNat (part mcs 3 2))
  else match parseSendData mcs with
    | .error _ => .other
    | .ok (channel, data) => if channel = globalChannel then ofGlobal data else .other

end PacketKind

def ClientPacket.kind (p : ClientPacket) : PacketKind :=
  if p.fast then .input
  else match unwrapX224 p.data with
    | .error _ => .other
    | .ok mcs => .ofMCS mcs

/-- A Client Info is not a Share PDU. -/
theorem shareType_of_clientInfo {data : Bytes} {u : Unit} (info : Parser.validateClientInfo data = .ok u)
    {kind : Nat} : shareType data ≠ .ok kind := by
  intro share
  unfold Parser.validateClientInfo at info
  obtain ⟨long, info⟩ := guard_eq_ok info
  obtain ⟨marked, -⟩ := guard_eq_ok (field_eq_ok 0 4 info)
  unfold shareType at share
  obtain ⟨-, share⟩ := guard_eq_ok share
  obtain ⟨checked, -⟩ := guard_eq_ok (field_eq_ok 2 2 (field_eq_ok 0 2 share))
  have halves : leNat (part data 0 4) = leNat (part data 0 2) + 256 ^ 2 * leNat (part data 2 2) := by
    have split := part_append_part data 0 2 2
    have size : (part data 0 2).length = 2 := part_length (by omega)
    rw [← split, leNat_append, size]
  have zero : leNat (part data 2 2) = 0 := by
    have forty : leNat (part data 0 4) = 0x40 := not_not.mp marked
    omega
  rw [zero] at checked
  exact checked (.inr (by decide))

/-! ## What a step does -/

namespace Activation

/-- The moves of an activation under a packet of a kind. -/
inductive Moves (a : Activation) (kind : PacketKind) : Bool → Activation → Prop
  | erect (is : kind = .erectDomain) : Moves a kind false { a with erected := true }
  | attach (sent : List Reply) (is : kind = .attachUser) (erected : a.erected = true) :
      Moves a kind false { a with attached := true, sent := sent }
  | join (sent : List Reply) (channel : Nat) (is : kind = .join channel) (attached : a.attached = true) :
      Moves a kind false { a with joined := insert channel a.joined, sent := sent }
  | info (sent : List Reply) (audioDisabled : Bool) (is : kind = .clientInfo)
      (user : clientUser ∈ a.joined) (global : globalChannel ∈ a.joined) :
      Moves a kind false { a with audioDisabled := audioDisabled, info := true, sent := sent }
  | confirm (sent : List Reply) (bitsPerPixel : Nat) (pointer : Parser.PointerCapabilities)
      (is : kind = .confirmActive) (info : a.info = true) (first : a.confirmed = false) :
      Moves a kind false
        { a with confirmed := true, bitsPerPixel := bitsPerPixel, pointer := pointer, sent := sent }
  | control (sent : List Reply) (is : kind = .controlRequest) (confirmed : a.confirmed = true) :
      Moves a kind false { a with controlled := true, sent := sent }
  | input (packet : QueuedPacket) (is : kind = .input) (confirmed : a.confirmed = true)
      (room : a.pending.length < 16) : Moves a kind false { a with pending := a.pending ++ [packet] }
  | active (sent : List Reply) (is : kind = .fontList) (confirmed : a.confirmed = true)
      (controlled : a.controlled = true) : Moves a kind true { a with sent := sent }
  | idle (is : kind = .other) : Moves a kind false a

variable {a b : Activation} {data mcs : Bytes} {written done : Bool}

theorem answer_eq_ok {replies : List Reply} (ran : a.answer written replies = .ok (done, b)) :
    done = false ∧ b = { a with sent := a.sent ++ replies } := by
  unfold answer at ran
  split at ran
  · cases ran
    exact ⟨rfl, rfl⟩
  · cases ran

theorem queueInput_moves {fast : Bool} {kind : PacketKind} (is : kind = .input)
    (confirmed : a.confirmed = true) (ran : a.queueInput data fast = .ok (done, b)) :
    Moves a kind done b := by
  unfold queueInput at ran
  obtain ⟨room, ran⟩ := guard_eq_ok ran
  cases ran
  exact .input _ is confirmed (not_le.mp room)

theorem control_moves (pdu : data.getD 14 0 = 0x14) (confirmed : a.confirmed = true)
    (ran : a.control data written = .ok (done, b)) : Moves a (.ofShareData data) done b := by
  unfold control at ran
  obtain ⟨length, ran⟩ := guard_eq_ok ran
  replace ran := field_eq_ok 18 2 ran
  by_cases request : leNat (part data 18 2) = 1
  · rw [if_pos request] at ran
    obtain ⟨rfl, rfl⟩ := answer_eq_ok ran
    refine .control _ ?_ confirmed
    unfold ofShareData
    rw [pdu, if_neg (by decide), if_pos ⟨rfl, not_not.mp length, request⟩]
  · rw [if_neg request] at ran
    split at ran
    · cases ran
      refine .idle ?_
      unfold ofShareData
      rw [pdu, if_neg (by decide), if_neg fun asks => request asks.2.2,
        if_neg fun asks => absurd asks.1 (by decide)]
    · cases ran

theorem fontList_moves (pdu : data.getD 14 0 = 0x27) (confirmed : a.confirmed = true)
    (ran : a.fontList data written = .ok (done, b)) : Moves a (.ofShareData data) done b := by
  unfold fontList at ran
  obtain ⟨passed, ran⟩ := guard_eq_ok ran
  obtain ⟨controlled, length⟩ := not_or.mp passed
  replace ran := field_eq_ok 22 2 ran
  have kind : ofShareData data =
      if leNat (part data 22 2) &&& 2 ≠ 0 then .fontList else .other := by
    unfold ofShareData
    rw [pdu, if_neg (by decide), if_neg fun asks => absurd asks.1 (by decide)]
    simp only [not_not.mp length, true_and]
  rw [kind]
  split at ran
  next final =>
    obtain ⟨⟨more, c⟩, answered, ran⟩ := bind_eq_ok ran
    obtain ⟨-, rfl⟩ := answer_eq_ok answered
    cases ran
    exact .active _ (if_pos final) confirmed (by simpa using controlled)
  next early =>
    cases ran
    exact .idle (if_neg early)

theorem finalize_moves (confirmed : a.confirmed = true) (ran : a.finalize data written = .ok (done, b)) :
    Moves a (.ofShareData data) done b := by
  unfold finalize at ran
  obtain ⟨pduType, read, ran⟩ := bind_eq_ok ran
  have pdu : pduType = data.getD 14 0 := index_eq_ok read
  have idle : pduType ≠ 0x1c → pduType ≠ 0x14 → pduType ≠ 0x27 →
      ofShareData data = .other := by
    intro input control list
    unfold ofShareData
    rw [← pdu, if_neg input, if_neg fun asks => control asks.1, if_neg fun asks => list asks.1]
  split at ran
  next sync =>
    obtain ⟨-, ran⟩ := guard_eq_ok ran
    cases ran
    exact .idle (idle (by rw [sync]; decide) (by rw [sync]; decide) (by rw [sync]; decide))
  · split at ran
    next control => exact control_moves (pdu ▸ control) confirmed ran
    · split at ran
      next list => exact fontList_moves (pdu ▸ list) confirmed ran
      · split at ran
        next keys =>
          cases ran
          exact .idle (idle (by rw [keys]; decide) (by rw [keys]; decide) (by rw [keys]; decide))
        · split at ran
          next input => exact queueInput_moves (if_pos (pdu ▸ input)) confirmed ran
          · cases ran

theorem clientInfo_moves (user : clientUser ∈ a.joined) (global : globalChannel ∈ a.joined)
    (ran : a.clientInfo data written = .ok (done, b)) : Moves a (.ofGlobal data) done b := by
  unfold clientInfo at ran
  obtain ⟨valid, validated, ran⟩ := bind_eq_ok ran
  obtain ⟨field, -, ran⟩ := bind_eq_ok ran
  obtain ⟨flags, -, ran⟩ := bind_eq_ok ran
  obtain ⟨rfl, rfl⟩ := answer_eq_ok ran
  refine .info _ _ ?_ user global
  unfold ofGlobal
  rw [validated]

theorem confirmActive_moves {kind : PacketKind} (is : kind = .confirmActive) (info : a.info = true)
    (ran : a.confirmActive data written = .ok (done, b)) : Moves a kind done b := by
  unfold confirmActive at ran
  obtain ⟨first, ran⟩ := guard_eq_ok ran
  obtain ⟨⟨bitsPerPixel, pointer⟩, -, ran⟩ := bind_eq_ok ran
  obtain ⟨rfl, rfl⟩ := answer_eq_ok ran
  exact .confirm _ _ _ is info (by simpa using first)

theorem ofGlobal_of_shareType {kind : Nat} (share : shareType data = .ok kind) :
    ofGlobal data =
      if kind = 3 then .confirmActive
      else if kind = 7 ∧ 18 ≤ data.length then .ofShareData data
      else .other := by
  unfold ofGlobal
  cases validated : Parser.validateClientInfo data with
  | ok u => exact absurd share (shareType_of_clientInfo validated)
  | error stop => simp only [share]

theorem globalData_moves (user : clientUser ∈ a.joined) (global : globalChannel ∈ a.joined)
    (ran : a.globalData data written = .ok (done, b)) : Moves a (.ofGlobal data) done b := by
  unfold globalData at ran
  by_cases info : a.info = true
  · rw [if_neg (by simp [info])] at ran
    obtain ⟨kind, share, ran⟩ := bind_eq_ok ran
    rw [ofGlobal_of_shareType share]
    split at ran
    next confirm => exact confirmActive_moves (if_pos confirm) info ran
    next later =>
      unfold shareData at ran
      obtain ⟨passed, ran⟩ := guard_eq_ok ran
      obtain ⟨confirmed, passed⟩ := not_or.mp passed
      obtain ⟨seven, long⟩ := not_or.mp passed
      obtain ⟨compressed, -, ran⟩ := bind_eq_ok ran
      obtain ⟨-, ran⟩ := guard_eq_ok ran
      rw [if_neg later, if_pos ⟨not_not.mp seven, not_lt.mp long⟩]
      exact finalize_moves (by simpa using confirmed) ran
  · rw [if_pos (by simpa using info)] at ran
    exact clientInfo_moves user global ran

theorem sendData_moves (data25 : mcs.getD 0 0 >>> 2 = 25) (ran : a.sendData mcs written = .ok (done, b)) :
    Moves a (.ofMCS mcs) done b := by
  unfold sendData at ran
  obtain ⟨passed, ran⟩ := guard_eq_ok ran
  obtain ⟨-, passed⟩ := not_or.mp passed
  obtain ⟨user, global⟩ := not_or.mp passed
  obtain ⟨⟨channel, data⟩, parsed, ran⟩ := bind_eq_ok ran
  obtain ⟨-, ran⟩ := guard_eq_ok ran
  have unit : ofMCS mcs = if channel = globalChannel then .ofGlobal data else .other := by
    unfold ofMCS
    rw [if_neg fun erects => absurd data25 (by rw [erects]; decide),
      if_neg fun attaches => absurd data25 (by rw [attaches.2]; decide),
      if_neg fun joins => absurd data25 (by rw [joins.2.1]; decide), orRefuse_eq_ok parsed]
  rw [unit]
  split at ran
  next elsewhere =>
    cases ran
    exact .idle (if_neg elsewhere)
  next here =>
    rw [if_pos (not_not.mp here)]
    exact globalData_moves (not_not.mp user) (not_not.mp global) ran

theorem erectDomain_moves (ran : a.erectDomain mcs = .ok (done, b)) : Moves a (.ofMCS mcs) done b := by
  unfold erectDomain at ran
  obtain ⟨passed, ran⟩ := guard_eq_ok ran
  obtain ⟨-, passed⟩ := not_or.mp passed
  obtain ⟨-, unit⟩ := not_or.mp passed
  cases ran
  exact .erect (if_pos (not_not.mp unit))

theorem attachUser_moves (first : mcs.getD 0 0 >>> 2 = 10) (ran : a.attachUser mcs written = .ok (done, b)) :
    Moves a (.ofMCS mcs) done b := by
  unfold attachUser at ran
  obtain ⟨passed, ran⟩ := guard_eq_ok ran
  obtain ⟨erected, passed⟩ := not_or.mp passed
  obtain ⟨-, length⟩ := not_or.mp passed
  obtain ⟨rfl, rfl⟩ := answer_eq_ok ran
  refine .attach _ ?_ (by simpa using erected)
  unfold ofMCS
  rw [if_neg fun erects => absurd first (by rw [erects]; decide), if_pos ⟨not_not.mp length, first⟩]

theorem channelJoin_moves (first : mcs.getD 0 0 >>> 2 = 14)
    (ran : a.channelJoin mcs written = .ok (done, b)) : Moves a (.ofMCS mcs) done b := by
  unfold channelJoin at ran
  obtain ⟨passed, ran⟩ := guard_eq_ok ran
  obtain ⟨attached, passed⟩ := not_or.mp passed
  obtain ⟨-, passed⟩ := not_or.mp passed
  obtain ⟨length, initiator⟩ := not_or.mp passed
  obtain ⟨-, ran⟩ := guard_eq_ok ran
  obtain ⟨rfl, rfl⟩ := answer_eq_ok ran
  refine .join _ _ ?_ (by simpa using attached)
  unfold ofMCS
  rw [if_neg fun erects => absurd first (by rw [erects]; decide),
    if_neg fun attaches => absurd first (by rw [attaches.2]; decide),
    if_pos ⟨not_not.mp length, first, not_not.mp initiator⟩]

theorem handle_moves (ran : a.handle mcs written = .ok (done, b)) : Moves a (.ofMCS mcs) done b := by
  unfold handle at ran
  split at ran
  · cases ran
  next first rest =>
    split at ran
    · exact erectDomain_moves ran
    · split at ran
      next attaches => exact attachUser_moves attaches ran
      · split at ran
        next joins => exact channelJoin_moves joins ran
        · split at ran
          next sends => exact sendData_moves sends ran
          · obtain ⟨-, ran⟩ := guard_eq_ok ran
            cases ran

theorem step_moves {p : ClientPacket} (ran : a.step p = .ok (done, b)) : Moves a p.kind done b := by
  unfold step at ran
  unfold ClientPacket.kind
  by_cases fast : p.fast = true
  · rw [if_pos fast] at ran ⊢
    obtain ⟨confirmed, ran⟩ := guard_eq_ok ran
    exact queueInput_moves rfl (by simpa using confirmed) ran
  · rw [if_neg fast] at ran ⊢
    obtain ⟨mcs, unwrapped, ran⟩ := bind_eq_ok ran
    rw [unwrapped]
    exact handle_moves ran

/-! ## Refusals -/

theorem safe_answer (replies : List Reply) : Safe (a.answer written replies) fun _ => True := by
  unfold answer
  exact safe_ite (fun _ => safe_pure trivial) fun _ => safe_refuse

theorem safe_queueInput (fast : Bool) : Safe (a.queueInput data fast) fun _ => True := by
  unfold queueInput
  exact safe_guard fun _ => safe_pure trivial

theorem safe_control : Safe (a.control data written) fun _ => True := by
  unfold control
  refine safe_guard fun length => safe_field (by omega) fun action => ?_
  exact safe_ite (fun _ => safe_answer _)
    fun _ => safe_ite (fun _ => safe_pure trivial) fun _ => safe_refuse

theorem safe_fontList : Safe (a.fontList data written) fun _ => True := by
  unfold fontList
  refine safe_guard fun passed => ?_
  obtain ⟨-, length⟩ := not_or.mp passed
  refine safe_field (by omega) fun flags => ?_
  exact safe_ite (fun _ => (safe_answer _).bind fun _ _ => safe_pure trivial) fun _ => safe_pure trivial

theorem safe_finalize (long : 18 ≤ data.length) : Safe (a.finalize data written) fun _ => True := by
  unfold finalize
  refine (safe_index (by omega)).bind fun pduType _ => ?_
  refine safe_ite (fun _ => safe_guard fun _ => safe_pure trivial) fun _ => ?_
  refine safe_ite (fun _ => safe_control) fun _ => safe_ite (fun _ => safe_fontList) fun _ => ?_
  refine safe_ite (fun _ => safe_pure trivial) fun _ => ?_
  exact safe_ite (fun _ => safe_queueInput _) fun _ => safe_refuse

theorem safe_shareType (data : Bytes) : Safe (shareType data) fun _ => True := by
  unfold shareType
  refine safe_guard fun long => ?_
  refine safe_field (by omega) fun length => ?_
  refine safe_field (by omega) fun kind => ?_
  exact safe_guard fun _ => safe_pure trivial

theorem safe_shareData (kind : Nat) : Safe (a.shareData kind data written) fun _ => True := by
  unfold shareData
  refine safe_guard fun passed => ?_
  obtain ⟨-, passed⟩ := not_or.mp passed
  obtain ⟨-, long⟩ := not_or.mp passed
  refine (safe_index (by omega)).bind fun compressed _ => ?_
  exact safe_guard fun _ => safe_finalize (by omega)

theorem safe_clientInfo : Safe (a.clientInfo data written) fun _ => True := by
  unfold clientInfo
  refine (Parser.safe_validateClientInfo data).with_eq.bind fun valid validated => ?_
  have long : 22 ≤ data.length := by
    have checked := validated.2
    unfold Parser.validateClientInfo at checked
    exact not_lt.mp (guard_eq_ok checked).1
  exact safe_field (by omega) fun flags => safe_answer _

theorem safe_confirmActive : Safe (a.confirmActive data written) fun _ => True := by
  unfold confirmActive
  refine safe_guard fun _ => ?_
  exact (Parser.safe_confirmActiveDepth data _ _).bind fun _ _ => safe_answer _

theorem safe_globalData : Safe (a.globalData data written) fun _ => True := by
  unfold globalData
  refine safe_ite (fun _ => safe_clientInfo) fun _ => (safe_shareType data).bind fun kind _ => ?_
  exact safe_ite (fun _ => safe_confirmActive) fun _ => safe_shareData kind

theorem safe_sendData : Safe (a.sendData mcs written) fun _ => True := by
  unfold sendData
  refine safe_guard fun _ => (safe_orRefuse _).bind fun parsed _ => safe_guard fun _ => ?_
  exact safe_ite (fun _ => safe_pure trivial) fun _ => safe_globalData

theorem safe_handle : Safe (a.handle mcs written) fun _ => True := by
  unfold handle
  cases mcs with
  | nil => exact safe_refuse
  | cons first rest =>
    refine safe_ite (fun _ => safe_guard fun _ => safe_pure trivial) fun _ => ?_
    refine safe_ite (fun _ => safe_guard fun _ => safe_answer _) fun _ => ?_
    refine safe_ite (fun _ => safe_guard fun _ => safe_guard fun _ => safe_answer _) fun _ => ?_
    exact safe_ite (fun _ => safe_sendData) fun _ => safe_guard fun _ => safe_refuse

theorem safe_step (p : ClientPacket) : Safe (a.step p) fun _ => True := by
  unfold step
  refine safe_ite (fun _ => safe_guard fun _ => safe_queueInput _) fun _ => ?_
  exact (safe_unwrapX224 p.data).bind fun mcs _ => safe_handle

end Activation

end Gokvm.Rdp
