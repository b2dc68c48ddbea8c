import Gokvm.Rdp.Channels

/-! # Reading the packets of a channel

Reading a packet gives back the data it carries. Chunks and fragments bring the buffer of
their message one piece further, and the last piece completes it.
-/

namespace Gokvm.Rdp

open Lib Checked List FragmentBuffer

/-! ## Reading the parts of a string -/

theorem sliceFrom_append (front rest : Bytes) :
    (sliceFrom (front ++ rest) front.length : Checked String Bytes) = .ok rest := by
  rw [sliceFrom, Checked.slice, if_pos (by simp), part]
  simp

theorem little_append {n : Nat} (small : n < 256 ^ 4) (rest : Bytes) :
    (little 4 (leBytes 4 n ++ rest) : Checked String Nat) = .ok n := by
  have front : (leBytes 4 n ++ rest).take 4 = leBytes 4 n := by
    rw [take_append_of_le_length (by simp), take_of_length_le (by simp)]
  rw [little, if_pos (by simp), front, leNat_leBytes, Nat.mod_eq_of_lt small]

/-! ## Packets -/

/-- The data that a sequence of packets carries, read one after the other. -/
inductive Reads {σ α : Type} (read : σ → Bytes → Checked String (Option α × σ)) :
    σ → List Bytes → List (Option α) → σ → Prop where
  | nil (s : σ) : Reads read s [] [] s
  | cons {s s' s'' : σ} {data : Bytes} {datas : List Bytes} {output : Option α}
      {outputs : List (Option α)} (now : read s data = .ok (output, s'))
      (later : Reads read s' datas outputs s'') :
      Reads read s (data :: datas) (output :: outputs) s''

section Packets

variable {σ α : Type} {read : σ → Bytes → Checked String (Option α × σ)}

variable {s s' : σ} {channel : UInt16}

theorem Reads.append {s'' : σ} {a b : List Bytes} {x y : List (Option α)} (front : Reads read s a x s')
    (back : Reads read s' b y s'') :
    Reads read s (a ++ b) (x ++ y) s'' := by
  induction front with
  | nil s => exact back
  | cons now _ ih => exact .cons now (ih back)

def packetsOf (channel : UInt16) (datas : List Bytes) : Bytes :=
  (datas.map (channelPacket channel)).flatten

theorem receiveOne_packet {data : Bytes} (small : data.length ≤ maxUserData) {output : Option α}
    (now : read s data = .ok (output, s')) (rest : Bytes) :
    receiveOne read s (channelPacket channel data ++ rest) =
      .ok ((channel.toNat, output), s', rest) := by
  have header : (indicationHeader channel).length = 6 := by simp [indicationHeader]
  have number : (Checked.slice (indicationHeader channel ++ (perBytes data.length ++ data)) 3 5 :
      Checked String Bytes) = .ok (beBytes 2 channel.toNat) := by
    rw [Checked.slice, if_pos (by simp only [length_append, header]; omega)]
    rfl
  have rest6 : (sliceFrom (indicationHeader channel ++ (perBytes data.length ++ data)) 6 :
      Checked String Bytes) = .ok (perBytes data.length ++ data) := by
    have after := sliceFrom_append (indicationHeader channel) (perBytes data.length ++ data)
    rwa [header] at after
  have packed : takePER (perBytes data.length ++ data) = .ok data :=
    takePER_packed (by unfold maxUserData at small; omega)
  have value : beNat (beBytes 2 channel.toNat) = channel.toNat := by
    rw [beNat_beBytes]
    exact Nat.mod_eq_of_lt channel.toNat_lt
  unfold receiveOne
  simp only [readTransport_channelPacket small, unwrapX224_channelUnit, number, rest6, packed, orRefuse,
    now, value, bind, Except.bind, pure, Except.pure, Bool.false_eq_true, if_false]

theorem channelPacket_ne_nil (channel : UInt16) (data : Bytes) : channelPacket channel data ≠ [] := by
  simp [channelPacket]

theorem packetsOf_eq_nil {datas : List Bytes} (empty : packetsOf channel datas = []) :
    datas = [] := by
  cases datas with
  | nil => rfl
  | cons data datas => simp [packetsOf, channelPacket_ne_nil] at empty

theorem receive_packets {datas : List Bytes} {outputs : List (Option α)}
    (reads : Reads read s datas outputs s') (small : ∀ data ∈ datas, data.length ≤ maxUserData) {fuel : Nat}
    (enough : datas.length ≤ fuel) :
    receive read fuel s (packetsOf channel datas) =
      .ok (outputs.map (channel.toNat, ·), s') := by
  induction reads generalizing fuel with
  | nil s => cases fuel <;> rfl
  | @cons s s' s'' data datas output outputs now later ih =>
    cases fuel with
    | zero => simp at enough
    | succ fuel =>
      have stream : packetsOf channel (data :: datas) =
          channelPacket channel data ++ packetsOf channel datas := rfl
      have one : receiveOne read s (channelPacket channel data ++ packetsOf channel datas) =
          .ok ((channel.toNat, output), s', packetsOf channel datas) :=
        receiveOne_packet (small data mem_cons_self) now _
      have rest := ih (fun d mem => small d (mem_cons_of_mem _ mem))
        (Nat.le_of_succ_le_succ enough)
      rw [stream]
      cases whole : channelPacket channel data ++ packetsOf channel datas with
      | nil => simp [channelPacket_ne_nil] at whole
      | cons b stream =>
        rw [whole] at one
        simp only [receive, one, rest, bind, Except.bind]
        rfl

end Packets

/-! ## Chunks -/

/-- The header of a chunk: the length of the whole message and the flags. -/
def chunkHeader (total flags : Nat) : Bytes := leBytes 4 total ++ leBytes 4 flags

variable {total : Nat}

theorem static_chunk (b : FragmentBuffer) (bound : total < 256 ^ 4) (isFirst isLast : Bool) (piece : Bytes) :
    b.static (chunkHeader total (isFirst.toNat + 2 * isLast.toNat) ++ piece) =
      (b.chunk isFirst total piece >>= fun result =>
        if result.1.isSome ≠ isLast then refuse "rdp: static channel last-fragment mismatch"
        else pure result) := by
  generalize same : isFirst.toNat + 2 * isLast.toNat = flags
  have small : flags < 256 ^ 4 := by
    rw [← same]
    cases isFirst <;> cases isLast <;> decide
  have header : (chunkHeader total flags).length = 8 := by simp [chunkHeader]
  have long : ¬ (chunkHeader total flags ++ piece).length < 8 := by
    rw [length_append]
    omega
  have front : (little 4 (chunkHeader total flags ++ piece) : Checked String Nat) = .ok total := by
    rw [chunkHeader, append_assoc]
    exact little_append bound _
  have after4 : (sliceFrom (chunkHeader total flags ++ piece) 4 : Checked String Bytes) =
      .ok (leBytes 4 flags ++ piece) := by
    rw [chunkHeader, append_assoc]
    have skip := sliceFrom_append (leBytes 4 total) (leBytes 4 flags ++ piece)
    rwa [leBytes_length] at skip
  have told : (little 4 (leBytes 4 flags ++ piece) : Checked String Nat) = .ok flags :=
    little_append small _
  have after8 : (sliceFrom (chunkHeader total flags ++ piece) 8 : Checked String Bytes) = .ok piece := by
    have skip := sliceFrom_append (chunkHeader total flags) piece
    rwa [header] at skip
  unfold static
  rw [if_neg long, front, after4]
  simp only [bind, Except.bind, told, after8]
  subst same
  cases isFirst <;> cases isLast <;> rfl

/-- A piece of the message under way; the last one completes it. -/
theorem next_piece {got piece : Bytes} (some : piece ≠ []) (fits : got.length + piece.length ≤ total) :
    (mk total got).next piece =
      if got.length + piece.length = total then .ok (Option.some (got ++ piece), .idle)
      else .ok (none, { total := total, data := got ++ piece }) := by
  have positive : 0 < piece.length := length_pos_iff.mpr some
  unfold FragmentBuffer.next
  rw [if_neg (show ¬ total = 0 by omega), if_neg (show ¬ (piece.length = 0 ∨ _) by simp only; omega)]
  simp only [length_append]
  by_cases last : got.length + piece.length = total
  · rw [if_pos last, if_neg (not_not.mpr last)]
    rfl
  · rw [if_neg last, if_pos last]
    rfl

theorem first_piece {piece : Bytes} (positive : 0 < total) (bounded : total ≤ graphicsMaxIncoming)
    (fits : piece.length ≤ total) :
    idle.first total piece =
      if piece.length = total then .ok (some piece, .idle)
      else .ok (none, { total := total, data := piece }) := by
  unfold first
  rw [if_neg (show ¬ (idle.total ≠ 0 ∨ _) by
    simp only [idle]; omega)]
  split <;> rfl

theorem static_whole {chunk : Bytes} (some : chunk ≠ []) (bounded : chunk.length ≤ graphicsMaxIncoming) :
    idle.static (chunkHeader chunk.length 3 ++ chunk) = .ok (Option.some chunk, .idle) := by
  have bound : chunk.length < 256 ^ 4 := by
    unfold graphicsMaxIncoming at bounded
    omega
  have one := static_chunk .idle bound true true chunk
  rw [FragmentBuffer.chunk, if_pos rfl,
    first_piece (length_pos_iff.mpr some) bounded le_rfl, if_pos rfl] at one
  exact one

/-! ## Fragments of dynamic channels -/

/-- A reader whose channels are idle but for one. -/
def readerAt (id : Nat) (b : FragmentBuffer) : DynamicReader :=
  { static := .idle, endpoint := Function.update (fun _ => .idle) id b }

theorem readerAt_idle (id : Nat) : readerAt id .idle = .idle := by
  simp [readerAt, DynamicReader.idle]

/-- What a fragment completes, by what its buffer says. -/
def onEndpoint (id : Nat) (result : Checked String (Option Bytes × FragmentBuffer)) :
    Checked String (Option (Nat × Bytes) × DynamicReader) :=
  result.map fun (complete, b) => (complete.map (id, ·), readerAt id b)

theorem index_cons (b : UInt8) (rest : Bytes) : (index (b :: rest) 0 : Checked String UInt8) = .ok b := by
  rw [index, if_pos (by simp only [length_cons]; omega)]
  rfl

theorem sliceFrom_cons (b : UInt8) (rest : Bytes) :
    (sliceFrom (b :: rest) 1 : Checked String Bytes) = .ok rest := sliceFrom_append [b] rest

theorem readDynamicInteger_byte (b : UInt8) (rest : Bytes) :
    readDynamicInteger (b :: rest) 0 = .ok (b.toNat, rest) := by
  unfold readDynamicInteger
  rw [if_neg (by simp), if_pos rfl, index_cons, sliceFrom_cons]
  rfl

theorem readDynamicInteger_long {n : Nat} (bound : n < 256 ^ 4) (rest : Bytes) :
    readDynamicInteger (leBytes 4 n ++ rest) 2 = .ok (n, rest) := by
  have after : (sliceFrom (leBytes 4 n ++ rest) 4 : Checked String Bytes) = .ok rest := by
    have skip := sliceFrom_append (leBytes 4 n) rest
    rwa [leBytes_length] at skip
  unfold readDynamicInteger
  rw [if_neg (by simp), if_neg (by decide), if_neg (by decide), little_append bound, after]
  rfl

/-- A data message with an identifier of one byte. -/
theorem readDynamic_cons {header : UInt8} (short : header &&& 3 = 0)
    (data : header >>> 4 = 2 ∨ header >>> 4 = 3) (id : UInt8) (b : FragmentBuffer) (payload : Bytes) :
    (readerAt id.toNat b).readDynamic (header :: id :: payload) =
      onEndpoint id.toNat (readDynamicFragment b header payload) := by
  have known : ¬ (header >>> 4 ≠ 2 ∧ header >>> 4 ≠ 3) := by
    rintro ⟨notFirst, notNext⟩
    exact data.elim notFirst notNext
  unfold DynamicReader.readDynamic
  rw [if_neg (by simp), index_cons, sliceFrom_cons]
  simp only [bind, Except.bind, short, readDynamicInteger_byte, if_neg known, readerAt,
    Function.update_self]
  cases readDynamicFragment b header payload with
  | error stop => rfl
  | ok result => simp [onEndpoint, Except.map, readerAt, pure, Except.pure]

theorem readDynamic_data (id : UInt8) (b : FragmentBuffer) (payload : Bytes) :
    (readerAt id.toNat b).readDynamic (0x30 :: id :: payload) =
      onEndpoint id.toNat (b.next payload) :=
  readDynamic_cons (by decide) (.inr (by decide)) id b payload

theorem readDynamic_dataFirst (id : UInt8) (b : FragmentBuffer) (bound : total < 256 ^ 4) (payload : Bytes) :
    (readerAt id.toNat b).readDynamic (0x28 :: id :: (leBytes 4 total ++ payload)) =
      onEndpoint id.toNat (b.first total payload) := by
  rw [readDynamic_cons (by decide) (.inl (by decide))]
  have fragment : readDynamicFragment b 0x28 (leBytes 4 total ++ payload) = b.first total payload := by
    have code : ((0x28 : UInt8) >>> 2) &&& 3 = 2 := by decide
    unfold readDynamicFragment
    rw [if_pos (by decide), code, readDynamicInteger_long bound]
    rfl
  rw [fragment]

theorem read_fragment {id : Nat} {b : FragmentBuffer} {message : Bytes} (some : message ≠ [])
    (bounded : message.length ≤ graphicsMaxIncoming) :
    (readerAt id b).read (chunkHeader message.length 3 ++ message) = (readerAt id b).readDynamic message := by
  unfold DynamicReader.read
  have whole := static_whole some bounded
  simp only [readerAt, whole, bind, Except.bind]

end Gokvm.Rdp
