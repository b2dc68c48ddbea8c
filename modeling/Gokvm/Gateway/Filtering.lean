import Gokvm.Gateway.Handshake

/-! # Nothing unchecked reaches the backend

Every run of the exchange, whatever the peers send and however the writes end, is one
that `Phase.observe` follows to its end, and it takes a bounded number of packets and
bytes.
-/

namespace Gokvm.Gateway

open Lib Rdp Prog List Phase

/-- What has been written and verified so far leads to the phase. -/
def Wire.At (w : Wire) (phase : Phase) : Prop :=
  w.trace.foldlM observe .start = some phase

def Wire.unread (w : Wire) : Nat := w.front.length + w.backend.length

/-- The exchange is under way: in the phase, within its budget, after some packets. -/
structure Going (start : Wire) (packets : Nat) (phase : Phase) (w : Wire) : Prop where
  trace : w.At phase
  bytes : start.unread + w.remaining ≤ w.unread + 262144
  reads : w.reads ≤ packets

/-- The exchange is over; the header of one more packet may have been read. -/
structure Over (start w : Wire) : Prop where
  trace : ∃ phase, w.At phase
  bytes : start.unread ≤ w.unread + 262148
  reads : w.reads ≤ 73

variable {start w w' : Wire} {packets : Nat} {phase next : Phase}

theorem Going.stopped (going : Going start packets phase w) (few : packets ≤ 73) : Over start w where
  trace := ⟨phase, going.trace⟩
  bytes := by
    have := going.bytes
    omega
  reads := going.reads.trans few

theorem Going.stopped_of_trace (going : Going start packets phase w) (trace : w'.trace = w.trace)
    (bytes : start.unread ≤ w'.unread + 262148) (reads : w'.reads ≤ 73) : Over start w' :=
  ⟨⟨phase, by rw [Wire.At, trace]; exact going.trace⟩, bytes, reads⟩

theorem Wire.At.extend {signal : Signal} (at_ : w.At phase) (trace : w'.trace = w.trace ++ [signal])
    (step : phase.observe signal = some next) :
    w'.At next := by
  unfold Wire.At at *
  rw [trace, foldlM_append, at_]
  simp [step]

/-! ## Reading -/

/-- Only the streams have advanced, by at most `n` bytes. -/
structure Consumed (n : Nat) (w w' : Wire) : Prop where
  bytes : w.unread ≤ w'.unread + n
  remaining : w'.remaining = w.remaining
  reads : w'.reads = w.reads
  trace : w'.trace = w.trace

theorem advance_consumed (w : Wire) (n : Nat) (side : Side) : Consumed n w (w.advance n side) := by
  cases side with
  | front | backend => exact ⟨by simp only [Wire.unread, Wire.advance, length_drop]; omega, rfl, rfl, rfl⟩

theorem Consumed.mono {n m : Nat} (consumed : Consumed n w w') (le : n ≤ m) :
    Consumed m w w' :=
  { consumed with bytes := consumed.bytes.trans (Nat.add_le_add_left le _) }

theorem readFull_spec (side : Side) (n : Nat) (w : Wire) :
    Wp (readFull side n) w (fun r w' => Consumed n w w' ∧ ∀ bytes, r = .ok bytes → bytes.length = n) := by
  unfold Wp readFull
  split
  next enough =>
    refine ⟨advance_consumed w n side, ?_⟩
    rintro bytes ⟨⟩
    rw [length_take]
    omega
  next short => exact ⟨(advance_consumed w _ side).mono (by omega), by rintro bytes ⟨⟩⟩

/-- A packet is the frame of the message in it. -/
private theorem framed {header rest : Bytes} (four : header.length = 4)
    (version : header.getD 0 0 = 3) (reserved : header.getD 1 0 = 0)
    (size : rest.length = beNat (part header 2 2) - 4) (long : 8 ≤ beNat (part header 2 2))
    (x224 : part (header ++ rest) 4 3 = [2, 0xf0, 0x80]) :
    header ++ rest = tpkt ((header ++ rest).drop 7) ∧ (header ++ rest).drop 7 ≠ [] := by
  have total : (header ++ rest).length = beNat (part header 2 2) := by
    rw [length_append, four, size]
    omega
  have inner : ((header ++ rest).drop 7).length = beNat (part header 2 2) - 7 := by
    rw [length_drop, total]
  match header, four with
  | [v, r, hi, lo], _ =>
    have length : beBytes 2 (beNat (part [v, r, hi, lo] 2 2)) = [hi, lo] := beBytes_beNat [hi, lo]
    have body : rest = [2, 0xf0, 0x80] ++ rest.drop 3 := by
      have front : rest.take 3 = [2, 0xf0, 0x80] := x224
      rw [← front, take_append_drop]
    refine ⟨?_, fun empty => ?_⟩
    · rw [tpkt, inner, show 7 + (beNat (part [v, r, hi, lo] 2 2) - 7) =
        beNat (part [v, r, hi, lo] 2 2) by omega, length]
      cases (version : v = 3)
      cases (reserved : r = 0)
      exact congrArg ([3, 0, hi, lo] ++ ·) body
    · rw [empty] at inner
      simp only [length_nil] at inner
      omega

theorem readPacket_spec (side : Side) (going : Going start packets phase w) (few : packets < 73) :
    Wp (readPacket side) w (fun r w' =>
      match r with
      | .ok (packet, mcs) =>
        Going start (packets + 1) phase w' ∧ packet = tpkt mcs ∧ mcs = packet.drop 7 ∧ mcs ≠ []
      | .error _ => Over start w') := by
  unfold readPacket
  have reads := going.reads
  have bytes := going.bytes
  rw [wp_update_bind]
  refine (readFull_spec side 4 _).bind ?_ ?_
  · rintro header w₁ ⟨taken, four⟩
    have trace₁ : w₁.trace = w.trace := taken.trace
    have remaining₁ : w₁.remaining = w.remaining := taken.remaining
    have reads₁ : w₁.reads = w.reads + 1 := taken.reads
    have bytes₁ : w.unread ≤ w₁.unread + 4 := taken.bytes
    simp only [wp_read_bind]
    split
    · rw [wp_fail]
      exact going.stopped_of_trace trace₁ (by omega) (by omega)
    rename_i good
    simp only [not_or, not_not, not_lt] at good
    obtain ⟨version, reserved, long, within⟩ := good
    rw [wp_update_bind]
    refine (readFull_spec side _ _).bind ?_ ?_
    · rintro rest w₂ ⟨taken', size⟩
      have trace₂ : w₂.trace = w.trace := taken'.trace.trans trace₁
      have remaining₂ : w₂.remaining = w₁.remaining - beNat (part header 2 2) := taken'.remaining
      have reads₂ : w₂.reads = w₁.reads := taken'.reads
      have bytes₂ : w₁.unread ≤ w₂.unread + (beNat (part header 2 2) - 4) := taken'.bytes
      split
      · rw [wp_fail]
        exact going.stopped_of_trace trace₂ (by omega) (by omega)
      next x224 =>
        rw [wp_pure]
        have frame := framed (four header rfl) version reserved (size rest rfl) long (not_not.mp x224)
        refine ⟨⟨?_, by omega, by omega⟩, frame.1, rfl, frame.2⟩
        rw [Wire.At, trace₂]
        exact going.trace
    · rintro e w₂ ⟨taken', _⟩
      have reads₂ : w₂.reads = w₁.reads := taken'.reads
      have bytes₂ : w₁.unread ≤ w₂.unread + (beNat (part header 2 2) - 4) := taken'.bytes
      exact going.stopped_of_trace (taken'.trace.trans trace₁) (by omega) (by omega)
  · rintro e w₁ ⟨taken, _⟩
    have reads₁ : w₁.reads = w.reads + 1 := taken.reads
    have bytes₁ : w.unread ≤ w₁.unread + 4 := taken.bytes
    exact going.stopped_of_trace taken.trace (by omega) (by omega)

/-! ## Writing -/

theorem deliver_spec (writes : List (Nat × Bool)) (packet sent : Bytes) :
    ∃ through, through <+: packet ∧ (deliver writes packet sent).2.1 = sent ++ through ∧
      ((deliver writes packet sent).1 = .ok () → through = packet) := by
  induction writes generalizing packet sent with
  | nil =>
    cases packet with
    | nil => exact ⟨[], prefix_rfl, (append_nil sent).symm, fun _ => rfl⟩
    | cons b packet => exact ⟨b :: packet, prefix_rfl, rfl, fun _ => rfl⟩
  | cons outcome writes ih =>
    obtain ⟨n, failed⟩ := outcome
    cases packet with
    | nil => exact ⟨[], prefix_rfl, (append_nil sent).symm, fun _ => rfl⟩
    | cons b packet =>
      rw [deliver]
      · split
        · exact ⟨(b :: packet).take n, take_prefix _ _, rfl, nofun⟩
        split
        · exact ⟨(b :: packet).take n, take_prefix _ _, rfl, nofun⟩
        obtain ⟨through, before, same, whole⟩ :=
          ih ((b :: packet).drop n) (sent ++ (b :: packet).take n)
        refine ⟨(b :: packet).take n ++ through, ?_, ?_, ?_⟩
        · obtain ⟨rest, split⟩ := before
          exact ⟨rest, by rw [append_assoc, split, take_append_drop]⟩
        · rw [same, append_assoc]
        · intro ok
          rw [whole ok, take_append_drop]
      · nofun

/-- A packet that the phase allows is written, or the exchange is over. -/
theorem writePacket_spec (going : Going start packets phase w) (few : packets ≤ 73) {side : Side}
    {packet : Bytes} (allowed : phase.next packet side = some next) :
    Wp (writePacket side packet) w (fun r w' =>
      match r with
      | .ok _ => Going start packets next w'
      | .error _ => Over start w') := by
  have step : ∀ through, phase.observe (.wrote side packet through) =
      if through = packet then some next else if through <+: packet then some .broken else none := by
    intro through
    simp only [observe, allowed]
  obtain ⟨through, before, sent, whole⟩ := deliver_spec w.writes packet []
  rw [nil_append] at sent
  have trace : (writePacket side packet w).2.trace =
      w.trace ++ [.wrote side packet through] := by
    rw [← sent]
    rfl
  have result : (writePacket side packet w).1 = (deliver w.writes packet []).1 := rfl
  unfold Wp
  by_cases complete : through = packet
  · have after : Going start packets next (writePacket side packet w).2 :=
      { going with trace := going.trace.extend trace (by rw [step, if_pos complete]) }
    cases (writePacket side packet w).1 with
    | ok _ => exact after
    | error _ => exact after.stopped few
  · have after : Going start packets .broken (writePacket side packet w).2 :=
      { going with
        trace := going.trace.extend trace (by rw [step, if_neg complete, if_pos before]) }
    cases ended : (writePacket side packet w).1 with
    | ok _ => exact (complete (whole (result.symm.trans ended))).elim
    | error _ => exact after.stopped few

/-! ## The messages -/

theorem connect_spec (going : Going start 0 .start w) :
    Wp connect w (fun r w' =>
      match r with
      | .ok _ => Going start 2 .connected w'
      | .error _ => Over start w') := by
  unfold connect
  refine (readPacket_spec .front going (by decide)).bind ?_ (fun _ _ ended => ended)
  rintro ⟨request, body⟩ w₁ ⟨going₁, frame, inner, _⟩
  simp only
  split
  · exact going₁.stopped (by decide)
  rename_i valid
  have allowed : Phase.next request .backend .start = some .connecting := by
    rw [Phase.next, ← inner]
    exact if_pos ⟨frame, not_not.mp valid⟩
  refine (writePacket_spec going₁ (by decide) allowed).bind ?_ (fun _ _ ended => ended)
  rintro _ w₂ going₂
  refine (readPacket_spec .backend going₂ (by decide)).bind ?_ (fun _ _ ended => ended)
  rintro ⟨reply, body'⟩ w₃ ⟨going₃, frame', inner', _⟩
  simp only
  split
  · exact going₃.stopped (by decide)
  rename_i valid'
  refine writePacket_spec going₃ (by decide) ?_
  rw [Phase.next, ← inner']
  exact if_pos ⟨frame', not_not.mp valid'⟩

theorem relayExactly_spec {want : Bytes} (going : Going start packets phase w) (few : packets < 73)
    (allowed : phase.next (tpkt want) .backend = some next) :
    Wp (relayExactly want) w (fun r w' =>
      match r with
      | .ok _ => Going start (packets + 1) next w'
      | .error _ => Over start w') := by
  unfold relayExactly
  refine (readPacket_spec .front going few).bind ?_ (fun _ _ ended => ended)
  rintro ⟨request, body⟩ w₁ ⟨going₁, frame, _⟩
  simp only
  split
  · exact going₁.stopped few
  rename_i same
  rw [not_not.mp same] at frame
  exact writePacket_spec going₁ few (frame ▸ allowed)

theorem attach_spec (going : Going start 2 .connected w) :
    Wp attach w (fun r w' =>
      match r with
      | .ok _ => Going start 5 (.joining []) w'
      | .error _ => Over start w') := by
  unfold attach
  have relayed : Wp (each relayExactly [erectDomain, attachUser]) w (fun r w' =>
      match r with
      | .ok _ => Going start 4 .attaching w'
      | .error _ => Over start w') := by
    refine (relayExactly_spec going (by decide) (if_pos rfl)).bind ?_ (fun _ _ ended => ended)
    rintro _ w₁ going₁
    refine (relayExactly_spec going₁ (by decide) (if_pos rfl)).bind ?_ (fun _ _ ended => ended)
    exact fun _ _ going₂ => going₂
  refine relayed.bind ?_ (fun _ _ ended => ended)
  rintro _ w₁ going₁
  refine (readPacket_spec .backend going₁ (by decide)).bind ?_ (fun _ _ ended => ended)
  rintro ⟨reply, body⟩ w₂ ⟨going₂, frame, _⟩
  simp only
  split
  · exact going₂.stopped (by decide)
  rename_i confirmed
  rw [not_not.mp confirmed] at frame
  exact writePacket_spec going₂ (by decide) (if_pos frame)

theorem passwordless_of_parse {mcs packet : Bytes} {credentials : Credentials}
    (accepted : parseClientInfo mcs = .ok (credentials, packet)) : passwordless packet = true := by
  obtain ⟨f, _, ⟨_, body, parsed, _, walked⟩, _⟩ := parseClientInfo_sanitary accepted
  rw [passwordless, parsed]
  simp only [walked, decide_eq_true_eq]

theorem authenticatedClientInfo_spec {joined : List Nat} (around : Surroundings)
    (authenticate : Credentials → Bool) (mcs : Bytes) (going : Going start packets (.joining joined) w)
    (few : packets ≤ 73) (user : 1001 ∈ joined) (global : 1003 ∈ joined) :
    Wp (authenticatedClientInfo around authenticate mcs) w (fun r w' =>
      match r with
      | .ok sanitized => Going start packets .verified w' ∧ passwordless sanitized = true
      | .error _ => Over start w') := by
  unfold authenticatedClientInfo
  rw [wp_query_bind]
  cases parsed : parseClientInfo mcs with
  | error fault => exact going.stopped few
  | ok result =>
    obtain ⟨credentials, sanitized⟩ := result
    simp only
    split
    · exact going.stopped few
    split
    · exact going.stopped few
    rw [wp_update_bind]
    have verified : Going start packets .verified
        { w with trace := w.trace ++ [.verified credentials] } :=
      { going with trace := going.trace.extend rfl (if_pos ⟨user, global⟩) }
    split
    · exact verified.stopped few
    · exact ⟨verified, passwordless_of_parse parsed⟩

/-- A Channel Join Request ends with its channel, and the expected reply repeats it. -/
private theorem join_shape {mcs : Bytes} (five : mcs.length = 5) (kind : mcs.getD 0 0 = 0x38)
    (initiator : beNat (part mcs 1 2) = 0) :
    mcs = channelJoinRequest (beNat (part mcs 3 2)) ∧
      [0x3e, 0] ++ mcs.drop 1 ++ part mcs 3 2 = channelJoinConfirm (beNat (part mcs 3 2)) ∧
      part (tpkt mcs) 10 2 = part mcs 3 2 := by
  match mcs, five with
  | [k, a, b, hi, lo], _ =>
    have user : beBytes 2 (beNat [a, b]) = [a, b] := beBytes_beNat [a, b]
    have channel : beBytes 2 (beNat [hi, lo]) = [hi, lo] := beBytes_beNat [hi, lo]
    rw [show beNat [a, b] = 0 from initiator, show beBytes 2 0 = [0, 0] from rfl] at user
    obtain ⟨rfl, rfl⟩ : 0 = a ∧ 0 = b := by simpa using user
    obtain rfl : k = 0x38 := kind
    refine ⟨congrArg ([0x38, 0, 0] ++ ·) channel.symm, ?_, rfl⟩
    rw [channelJoinConfirm, show part [0x38, 0, 0, hi, lo] 3 2 = [hi, lo] from rfl, channel]
    rfl

theorem joinChannels_spec {passes : Nat} {joined : List Nat} (around : Surroundings)
    (authenticate : Credentials → Bool) (going : Going start packets (.joining joined) w)
    (few : packets + 2 * passes ≤ 73) :
    Wp (joinChannels around authenticate passes joined) w (fun _ w' => Over start w') := by
  induction passes generalizing w packets joined with
  | zero => exact going.stopped few
  | succ passes ih =>
    unfold joinChannels
    refine (readPacket_spec .front going (by omega)).bind ?_ (fun _ _ ended => ended)
    rintro ⟨packet, mcs⟩ w₁ ⟨going₁, frame, _⟩
    simp only
    split
    · split
      · exact going₁.stopped (by omega)
      rename_i both
      obtain ⟨user, global⟩ := not_or.mp both
      refine (authenticatedClientInfo_spec around authenticate mcs going₁ (by omega)
        (not_not.mp user) (not_not.mp global)).bind ?_ (fun _ _ ended => ended)
      rintro sanitized w₂ ⟨going₂, clean⟩
      have allowed : verified.next sanitized .backend = some .finished := if_pos clean
      refine (writePacket_spec going₂ (by omega) allowed).mono ?_
      intro r w₃ ended
      cases r with
      | ok _ => exact ended.stopped (by omega)
      | error _ => exact ended
    split
    · exact going₁.stopped (by omega)
    rename_i shape
    simp only [not_or, not_not] at shape
    obtain ⟨five, kind, initiator⟩ := shape
    split
    · exact going₁.stopped (by omega)
    rename_i new
    obtain ⟨request, confirm, place⟩ := join_shape five kind initiator
    have allowed : (joining joined).next packet .backend =
        some (.confirming (beNat (part mcs 3 2)) joined) := by
      rw [Phase.next, frame, place]
      exact if_pos ⟨congrArg tpkt request, new⟩
    refine (writePacket_spec going₁ (by omega) allowed).bind ?_ (fun _ _ ended => ended)
    rintro _ w₂ going₂
    refine (readPacket_spec .backend going₂ (by omega)).bind ?_ (fun _ _ ended => ended)
    rintro ⟨reply, body⟩ w₃ ⟨going₃, frame', _⟩
    simp only
    split
    · exact going₃.stopped (by omega)
    rename_i same
    rw [not_not.mp same, confirm] at frame'
    have confirmed : (confirming (beNat (part mcs 3 2)) joined).next reply .front =
        some (.joining (beNat (part mcs 3 2) :: joined)) := if_pos frame'
    refine (writePacket_spec going₃ (by omega) confirmed).bind ?_ (fun _ _ ended => ended)
    rintro _ w₄ going₄
    exact ih going₄ (by omega)

/-- Whatever the peers send, however writes end and whatever the authenticator says: the backend
    receives a validated Connect Initial, Erect Domain, Attach User and joins of distinct channels,
    in this order, then, only after the password check passed with both channels joined and
    confirmed, a Client Info without a password, and nothing else; at most 73 packets and 256 KiB
    are read besides a last header. -/
theorem preauthentication_is_filtered (around : Surroundings) (front backend : Bytes)
    (writes : List (Nat × Bool)) :
    let w := (verifyRDPClient around (Wire.fresh front backend writes)).2
    (w.trace.foldlM observe .start).isSome ∧ w.reads ≤ 73 ∧
      front.length + backend.length ≤ w.front.length + w.backend.length + (256 * 1024 + 4) := by
  have ended : Wp (verifyRDPClient around) (Wire.fresh front backend writes)
      (fun _ w => Over (Wire.fresh front backend writes) w) := by
    unfold verifyRDPClient
    split
    · exact ⟨⟨.start, rfl⟩, Nat.le_add_right _ _, Nat.zero_le _⟩
    rename_i authenticate _
    rw [wp_update_bind]
    have going : Going (Wire.fresh front backend writes) 0 .start
        { Wire.fresh front backend writes with remaining := 256 <<< 10 } :=
      ⟨rfl, le_rfl, le_rfl⟩
    refine (connect_spec going).bind ?_ (fun _ _ ended => ended)
    rintro _ w₁ going₁
    refine (attach_spec going₁).bind ?_ (fun _ _ ended => ended)
    rintro _ w₂ going₂
    exact joinChannels_spec around authenticate going₂ (by decide)
  obtain ⟨⟨phase, trace⟩, bytes, reads⟩ := ended
  exact ⟨by rw [trace]; rfl, reads, bytes⟩

-- A client that joins both channels and logs in passes.
example :
    (verifyRDPClient ⟨some fun c => c.password = "b", true, true⟩
      (Wire.fresh
        (tpkt [0x7f, 0x65, 0] ++ tpkt erectDomain ++ tpkt attachUser ++
          tpkt (channelJoinRequest 1001) ++ tpkt (channelJoinRequest 1003) ++ tpkt sampleInfo)
        (tpkt [0x7f, 0x66, 0] ++ tpkt attachConfirm ++ tpkt (channelJoinConfirm 1001) ++
          tpkt (channelJoinConfirm 1003)) [])).1.isOk = true := by
  decide +kernel

end Gokvm.Gateway
