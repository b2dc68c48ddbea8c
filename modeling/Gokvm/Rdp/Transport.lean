import Gokvm.Lib.Checked
import Gokvm.Rdp.ClientInfo

/-! # Packets on the wire

A TPKT packet holds an X.224 data unit, which holds an MCS unit. Data of a channel travels in
an MCS unit with a header of six bytes and a packed length. Fast-path packets have a header
of their own.
-/

namespace Gokvm.Rdp

open Lib Checked List Nat

/-! ## Reading -/

/-- `io.ReadFull`: the next bytes of a stream and what follows them. -/
def readFull (stream : Bytes) (n : Nat) : Checked String (Bytes × Bytes) :=
  if n ≤ stream.length then pure (stream.take n, stream.drop n)
  else if stream = [] then refuse "EOF"
  else refuse "unexpected EOF"

def fastLength (second : UInt8) (stream : Bytes) : Checked String ((Nat × Nat) × Bytes) :=
  if second &&& 0x80 ≠ 0 then do
    let (last, stream) ← readFull stream 1
    pure (((second &&& 0x7f).toNat <<< 8 ||| (last.getD 0 0).toNat, 3), stream)
  else pure ((second.toNat, 2), stream)

/-- The next packet, whether it is a fast-path one, and the rest of the stream. -/
def readTransport (stream : Bytes) : Checked String ((Bytes × Bool) × Bytes) := do
  let (start, stream) ← readFull stream 2
  if start.getD 0 0 = 3 then
    if start.getD 1 0 ≠ 0 then refuse "rdp: invalid TPKT version/reserved byte"
    else do
      let (size, stream) ← readFull stream 2
      if beNat size < 7 then refuse "rdp: short TPKT"
      else do
        let (packet, stream) ← readFull stream (beNat size - 4)
        pure ((packet, false), stream)
  else if start.getD 0 0 &&& 0xc3 ≠ 0 then
    refuse "rdp: unsupported fast-path action or encryption"
  else do
    let ((n, headerSize), stream) ← fastLength (start.getD 1 0) stream
    if n < headerSize + 1 then refuse "rdp: short fast-path packet"
    else do
      let (packet, stream) ← readFull stream (n - headerSize)
      pure ((start.getD 0 0 :: packet, true), stream)

def unwrapX224 (p : Bytes) : Checked String Bytes :=
  if p.length < 4 ∨ p.getD 0 0 ≠ 2 ∨ p.getD 1 0 ≠ 0xf0 ∨ p.getD 2 0 ≠ 0x80 then
    refuse "rdp: invalid X.224 data"
  else sliceFrom p 3

/-- A parser that cannot fault. -/
def orRefuse {α : Type} (result : Except Fault α) : Checked String α :=
  match result with
  | .error fault => refuse fault.text
  | .ok a => pure a

theorem orRefuse_eq_ok {α : Type} {result : Except Fault α} {a : α} (ran : orRefuse result = .ok a) :
    result = .ok a := by
  cases result with
  | error fault => cases ran
  | ok b =>
    cases ran
    rfl

theorem safe_orRefuse {α : Type} (result : Except Fault α) : Safe (orRefuse result) fun _ => True := by
  cases result with
  | error fault => exact safe_refuse
  | ok a => exact safe_pure trivial

theorem safe_unwrapX224 (p : Bytes) : Safe (unwrapX224 p) fun _ => True := by
  unfold unwrapX224
  refine safe_guard fun passed => ?_
  obtain ⟨long, -⟩ := not_or.mp passed
  exact (safe_sliceFrom (by omega)).mono fun _ _ => trivial

/-! ## Writing -/

def maxUserData : Nat := 0x7fff

def x224Header : Bytes := [2, 0xf0, 0x80]

def indicationHeader (channel : UInt16) : Bytes := [0x68, 0, 1] ++ beBytes 2 channel.toNat ++ [0x70]

def writeTPKT (payload : Bytes) : Checked String Bytes :=
  if 65531 < payload.length then refuse "rdp: TPKT too large"
  else pure ([3, 0] ++ beBytes 2 (4 + payload.length) ++ payload)

def writeMCS (data : Bytes) : Checked String Bytes := writeTPKT (x224Header ++ data)

def writeChannel (channel : UInt16) (data : Bytes) : Checked String Bytes :=
  if maxUserData < data.length then refuse "rdp: MCS data exceeds PER limit"
  else writeMCS (indicationHeader channel ++ perBytes data.length ++ data)

def channelTPKTSize (payloadLength : Nat) : Nat :=
  4 + 3 + 6 + (if payloadLength ≥ 128 then 2 else 1) + payloadLength

/-- The bytes after the append, and the capacity of their slice. -/
def appendChannelTPKT (dst : Bytes) (capacity : Nat) (channel : UInt16) (header payload : Bytes) :
    Checked String (Bytes × Nat) :=
  let payloadLength := header.length + payload.length
  if maxUserData < payloadLength then refuse "rdp: MCS data exceeds PER limit"
  else
    let packetLength := channelTPKTSize payloadLength
    let capacity :=
      if capacity - dst.length < packetLength then max (capacity * 2) (dst.length + packetLength)
      else capacity
    pure (dst ++ ([3, 0] ++ beBytes 2 packetLength ++ x224Header ++ indicationHeader channel ++
      perBytes payloadLength ++ header ++ payload), capacity)

/-! ## Round trip -/

theorem readFull_append (front rest : Bytes) :
    readFull (front ++ rest) front.length = .ok (front, rest) := by
  rw [readFull, if_pos (by simp), take_left, drop_left]
  rfl

def channelUnit (channel : UInt16) (data : Bytes) : Bytes :=
  x224Header ++ (indicationHeader channel ++ (perBytes data.length ++ data))

def channelPacket (channel : UInt16) (data : Bytes) : Bytes :=
  [3, 0] ++ beBytes 2 (channelTPKTSize data.length) ++ channelUnit channel data

theorem length_channelUnit (channel : UInt16) (data : Bytes) :
    4 + (channelUnit channel data).length = channelTPKTSize data.length := by
  simp only [channelUnit, length_append, perBytes_length, indicationHeader, x224Header,
    beBytes_length, length_cons, length_nil, channelTPKTSize]
  split <;> split <;> omega

theorem unwrapX224_channelUnit (channel : UInt16) (data : Bytes) :
    unwrapX224 (channelUnit channel data) =
      .ok (indicationHeader channel ++ (perBytes data.length ++ data)) := by
  have long : 4 ≤ (channelUnit channel data).length := by
    have size := length_channelUnit channel data
    unfold channelTPKTSize at size
    omega
  rw [unwrapX224, if_neg]
  · rw [sliceFrom, Checked.slice, if_pos (by omega), part, take_of_length_le]
    · rfl
    · rw [length_drop]
      omega
  · rintro (short | wrong | wrong | wrong)
    · omega
    · exact wrong rfl
    · exact wrong rfl
    · exact wrong rfl

section Packet

variable {channel : UInt16} {data : Bytes} (small : data.length ≤ maxUserData)

include small

theorem channelTPKTSize_lt : channelTPKTSize data.length < 256 ^ 2 := by
  unfold channelTPKTSize
  unfold maxUserData at small
  split <;> omega

theorem writeChannel_eq : writeChannel channel data = .ok (channelPacket channel data) := by
  have fits : (channelUnit channel data).length ≤ 65531 := by
    have size := length_channelUnit channel data
    have bound := channelTPKTSize_lt small
    omega
  have packed : x224Header ++ (indicationHeader channel ++ perBytes data.length ++ data) =
      channelUnit channel data := by
    rw [channelUnit, append_assoc]
  rw [writeChannel, if_neg (not_lt.mpr small), writeMCS, packed, writeTPKT,
    if_neg (not_lt.mpr fits), length_channelUnit]
  rfl

/-- The packet of a channel's data is read as a whole, and what follows it is left. -/
theorem readTransport_channelPacket (rest : Bytes) :
    readTransport (channelPacket channel data ++ rest) =
      .ok ((channelUnit channel data, false), rest) := by
  have size : beNat (beBytes 2 (channelTPKTSize data.length)) = channelTPKTSize data.length := by
    rw [beNat_beBytes, mod_eq_of_lt (channelTPKTSize_lt small)]
  have start : ∀ more : Bytes, readFull ([3, 0] ++ more) 2 = .ok ([3, 0], more) :=
    fun more => readFull_append [3, 0] more
  have length : ∀ more : Bytes, readFull (beBytes 2 (channelTPKTSize data.length) ++ more) 2 =
      .ok (beBytes 2 (channelTPKTSize data.length), more) := by
    intro more
    have front := readFull_append (beBytes 2 (channelTPKTSize data.length)) more
    rwa [beBytes_length] at front
  have packet : ∀ more : Bytes,
      readFull (channelUnit channel data ++ more) (channelTPKTSize data.length - 4) =
        .ok (channelUnit channel data, more) := by
    intro more
    rw [← length_channelUnit channel, Nat.add_sub_cancel_left]
    exact readFull_append _ more
  have long : ¬ channelTPKTSize data.length < 7 := by
    unfold channelTPKTSize
    omega
  unfold readTransport channelPacket
  rw [append_assoc, append_assoc, start]
  simp only [bind, Except.bind, getD_cons_zero, getD_cons_succ, if_true, length, size,
    if_neg long, packet]
  rfl

theorem takePER_channelUnit :
    takePER ((indicationHeader channel ++ (perBytes data.length ++ data)).drop 6) = .ok data := by
  have header : (indicationHeader channel).length = 6 := by
    simp [indicationHeader]
  rw [← header, drop_left]
  exact takePER_packed (by unfold maxUserData at small; omega)

end Packet

theorem appendChannelTPKT_eq {header payload : Bytes} (dst : Bytes) (channel : UInt16)
    (capacity : Nat) (small : (header ++ payload).length ≤ maxUserData) :
    ∃ grown, appendChannelTPKT dst capacity channel header payload =
      .ok (dst ++ channelPacket channel (header ++ payload), grown) := by
  rw [length_append] at small
  unfold appendChannelTPKT
  simp only [if_neg (not_lt.mpr small)]
  refine ⟨_, congrArg (fun bytes => Except.ok (dst ++ bytes, _)) ?_⟩
  simp only [channelPacket, channelUnit, length_append, append_assoc]

/-! ## Writing in place -/

/-- A slice of bytes, and what its array holds behind them up to the capacity. -/
structure Slice where
  bytes : Bytes
  spare : Bytes

def Slice.capacity (s : Slice) : Nat := s.bytes.length + s.spare.length

/-- The slice with room for so many more bytes. -/
def Slice.grow (s : Slice) (n : Nat) : Slice :=
  if s.capacity - s.bytes.length < n then
    { s with spare := replicate (max (s.capacity * 2) (s.bytes.length + n) - s.bytes.length) 0 }
  else s

/-- Writes a packet over what its bytes were. -/
def fillPacket (packet : Bytes) (channel : UInt16) (header payload : Bytes) : Bytes :=
  let payloadLength := header.length + payload.length
  let packet := put packet 0 ([3, 0] ++ beBytes 2 packet.length ++ [2, 0xf0, 0x80, 0x68, 0, 1] ++
    beBytes 2 channel.toNat ++ [0x70])
  let per :=
    if payloadLength < 128 then [UInt8.ofNat payloadLength]
    else [UInt8.ofNat (payloadLength >>> 8) ||| 0x80, UInt8.ofNat payloadLength]
  let packet := put packet 13 per
  let packet := put packet (13 + per.length) header
  put packet (13 + per.length + header.length) payload

/-- `appendChannelTPKT` as the source writes the packet, into the array of the slice. -/
def appendInPlace (dst : Slice) (channel : UInt16) (header payload : Bytes) : Checked String Slice :=
  let payloadLength := header.length + payload.length
  if maxUserData < payloadLength then refuse "rdp: MCS data exceeds PER limit"
  else
    let packetLength := channelTPKTSize payloadLength
    let dst := dst.grow packetLength
    let packet := fillPacket (dst.spare.take packetLength) channel header payload
    pure { bytes := dst.bytes ++ packet, spare := dst.spare.drop packetLength }

/-- Four parts written one behind the other fill a window of their length. -/
theorem put_parts {window a b c d : Bytes} {i j k : Nat} (atB : i = a.length) (atC : j = (a ++ b).length)
    (atD : k = (a ++ b ++ c).length) (full : window.length = (a ++ b ++ c ++ d).length) :
    put (put (put (put window 0 a) i b) j c) k d = a ++ b ++ c ++ d := by
  have first : put window 0 a = a ++ window.drop a.length := put_append [] window a rfl
  rw [first, put_append _ _ b atB, put_append _ _ c atC, put_append _ _ d atD]
  simp only [drop_drop]
  rw [drop_of_length_le, append_nil]
  simp only [length_append] at full
  omega

theorem length_channelPacket (channel : UInt16) (data : Bytes) :
    (channelPacket channel data).length = channelTPKTSize data.length := by
  rw [channelPacket, length_append, ← length_channelUnit channel]
  rfl

theorem fillPacket_eq {packet header payload : Bytes} (channel : UInt16)
    (length : packet.length = channelTPKTSize (header ++ payload).length) :
    fillPacket packet channel header payload = channelPacket channel (header ++ payload) := by
  have parts : channelPacket channel (header ++ payload) = [3, 0] ++ beBytes 2 packet.length ++
      [2, 0xf0, 0x80, 0x68, 0, 1] ++ beBytes 2 channel.toNat ++ [0x70] ++
      perBytes (header.length + payload.length) ++ header ++ payload := by
    simp only [channelPacket, channelUnit, x224Header, indicationHeader, length, length_append,
      append_assoc, cons_append, nil_append]
  have full := length_channelPacket channel (header ++ payload)
  rw [← length] at full
  rw [parts] at full ⊢
  refine put_parts rfl ?_ ?_ full.symm
  · rw [length_append]
    rfl
  · rw [length_append, length_append]
    rfl

theorem grow_eq (s : Slice) (n : Nat) : (s.grow n).bytes = s.bytes ∧ n ≤ (s.grow n).spare.length ∧
    (s.grow n).capacity =
      if s.capacity - s.bytes.length < n then max (s.capacity * 2) (s.bytes.length + n) else s.capacity := by
  unfold Slice.grow
  split
  · refine ⟨rfl, ?_, ?_⟩
    · rw [length_replicate]
      omega
    · simp only [Slice.capacity, length_replicate]
      omega
  next enough =>
    unfold Slice.capacity at enough
    exact ⟨rfl, by omega, rfl⟩

theorem appendInPlace_ok {header payload : Bytes} (dst : Slice) (channel : UInt16)
    (small : (header ++ payload).length ≤ maxUserData) :
    appendInPlace dst channel header payload =
      .ok { bytes := dst.bytes ++ channelPacket channel (header ++ payload)
            spare := (dst.grow (channelTPKTSize (header ++ payload).length)).spare.drop
              (channelTPKTSize (header ++ payload).length) } := by
  obtain ⟨bytes, room, -⟩ := grow_eq dst (channelTPKTSize (header ++ payload).length)
  unfold appendInPlace
  rw [← length_append, if_neg (not_lt.mpr small)]
  simp only [fillPacket_eq channel (length_take_of_le room), bytes]
  rfl

/-- The slice afterwards is the one that the list model says. -/
theorem appendInPlace_refines (dst : Slice) (channel : UInt16) (header payload : Bytes) :
    (appendInPlace dst channel header payload).map (fun s => (s.bytes, s.capacity)) =
      appendChannelTPKT dst.bytes dst.capacity channel header payload := by
  by_cases small : (header ++ payload).length ≤ maxUserData
  · obtain ⟨bytes, room, capacity⟩ := grow_eq dst (channelTPKTSize (header ++ payload).length)
    rw [appendInPlace_ok dst channel small, appendChannelTPKT, ← length_append,
      if_neg (not_lt.mpr small)]
    refine congrArg₂ (fun bytes n => Except.ok (dst.bytes ++ bytes, n)) ?_ (Eq.trans ?_ capacity)
    · simp only [channelPacket, channelUnit, append_assoc]
    · rw [Slice.capacity, Slice.capacity, bytes, length_append, length_channelPacket, length_drop]
      omega
  · have long : maxUserData < header.length + payload.length := by
      rw [← length_append]
      omega
    simp only [appendInPlace, appendChannelTPKT, if_pos long]
    rfl

/-- The packet that is written in place is the one that the general path sends; both reject
    longer data. -/
theorem appendChannelTPKT_agrees (dst : Slice) (channel : UInt16) (header payload : Bytes) :
    if maxUserData < (header ++ payload).length then
      writeChannel channel (header ++ payload) = refuse "rdp: MCS data exceeds PER limit" ∧
        appendInPlace dst channel header payload = refuse "rdp: MCS data exceeds PER limit"
    else ∃ packet spare,
      writeChannel channel (header ++ payload) = .ok packet ∧
        appendInPlace dst channel header payload = .ok { bytes := dst.bytes ++ packet, spare } ∧
        packet.length = channelTPKTSize (header.length + payload.length) := by
  split
  next long =>
    rw [writeChannel, if_pos long, appendInPlace, ← length_append, if_pos long]
    exact ⟨rfl, rfl⟩
  next small =>
    rw [not_lt] at small
    rw [← length_append]
    exact ⟨_, _, writeChannel_eq small, appendInPlace_ok dst channel small, length_channelPacket channel _⟩

end Gokvm.Rdp
