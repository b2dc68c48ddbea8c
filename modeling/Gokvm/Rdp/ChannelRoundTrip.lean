import Gokvm.Rdp.ChannelReading

/-! # Messages of virtual channels arrive whole

What the writers put on the wire is a sequence of whole packets, and the pieces in them make
up the message. A message therefore comes back at its last piece, once, and leaves the reader
as it was, so that messages sent one after the other come back in order.
-/

namespace Gokvm.Rdp

open Lib Checked List Bool FragmentBuffer DynamicReader

/-! ## Batches -/

/-- What was written and what is in the batch are whole packets with the given data. -/
def Batched (channel : UInt16) (out : Outgoing) (datas : List Bytes) : Prop :=
  ∃ (groups : List (List Bytes)) (last : List Bytes),
    out.written = groups.map (packetsOf channel) ∧ out.batch = packetsOf channel last ∧
      groups.flatten ++ last = datas

namespace Batched

variable {channel : UInt16} {out : Outgoing} {datas : List Bytes}

theorem flushFor (batched : Batched channel out datas) (packetSize : Nat) :
    Batched channel (out.flushFor packetSize) datas := by
  unfold Outgoing.flushFor
  split
  · obtain ⟨groups, last, written, batch, all⟩ := batched
    refine ⟨groups ++ [last], [], ?_, rfl, ?_⟩
    · simp [written, batch]
    · simpa using all
  · exact batched

theorem append (batched : Batched channel out datas) (data : Bytes) (capacity : Nat) :
    Batched channel { out with batch := out.batch ++ channelPacket channel data, capacity }
      (datas ++ [data]) := by
  obtain ⟨groups, last, written, batch, all⟩ := batched
  refine ⟨groups, last ++ [data], written, ?_, ?_⟩
  · simp [batch, packetsOf]
  · rw [← all, append_assoc]

end Batched

/-! ## Fragments of dynamic messages -/

theorem lt_of_incoming {total : Nat} (bounded : total ≤ graphicsMaxIncoming) : total < 256 ^ 4 := by
  unfold graphicsMaxIncoming at bounded
  omega

/-- A piece of a longer message, and what is left of it. -/
theorem cut_spec {data : Bytes} {n : Nat} (positive : 0 < n) (more : n < data.length) :
    (data.take n).length = n ∧ data.take n ≠ [] ∧ (data.drop n).length = data.length - n ∧ data.drop n ≠ [] := by
  have taken : (data.take n).length = n := by
    rw [length_take]
    omega
  have left : (data.drop n).length = data.length - n := length_drop ..
  refine ⟨taken, ?_, left, ?_⟩
  · rw [← length_pos_iff]
    omega
  · rw [← length_pos_iff]
    omega

section Fragments

variable {channel : UInt16} {id : UInt32} {total : Nat}

def fragmentData (id : UInt32) (total : Nat) (wide : Bool) (piece : Bytes) : Bytes :=
  dynamicHeader id total piece.length wide ++ piece

theorem length_fragmentData (id : UInt32) (total : Nat) (wide : Bool) (piece : Bytes) :
    (fragmentData id total wide piece).length = (if wide then 14 else 10) + piece.length := by
  cases wide <;> simp [fragmentData, dynamicHeader] <;> omega

variable {data : Bytes}

/-- One turn of the loop: a fragment is put into the batch. -/
theorem writeFragments_turn (id : UInt32) (total fuel : Nat) (first : Bool) (some : data ≠ [])
    {out : Outgoing} {sent : List Bytes} (batched : Batched channel out sent) (wide : Bool)
    (chosen : wide = (first && decide (1598 < data.length))) (size : Nat)
    (cut : size = min (if wide then 1594 else 1598) data.length) :
    ∃ after, writeFragments channel id total (fuel + 1) first data out =
        writeFragments channel id total fuel false (data.drop size) after ∧
      Batched channel after (sent ++ [fragmentData id total wide (data.take size)]) := by
  have taken : (data.take size).length = size := by
    rw [length_take]
    omega
  have same : fragmentData id total wide (data.take size) =
      dynamicHeader id total size wide ++ data.take size := by
    rw [fragmentData, taken]
  have small : (dynamicHeader id total size wide ++ data.take size).length ≤ maxUserData := by
    rw [← same, length_fragmentData, taken]
    unfold maxUserData
    split at cut <;> simp_all <;> omega
  have size' : min (1600 - ((if wide then 14 else 10) - 8)) data.length = size := by
    rw [cut]
    cases wide <;> rfl
  obtain ⟨b, rest, rfl⟩ := exists_cons_of_ne_nil some
  have flushed := batched.flushFor (channelTPKTSize ((if wide then 14 else 10) + size))
  obtain ⟨grown, appended⟩ := appendChannelTPKT_eq
    (out.flushFor (channelTPKTSize ((if wide then 14 else 10) + size))).batch channel
    (out.flushFor (channelTPKTSize ((if wide then 14 else 10) + size))).capacity small
  have extended := flushed.append (fragmentData id total wide ((b :: rest).take size)) grown
  refine ⟨_, ?_, extended⟩
  rw [writeFragments, same]
  simp only [gt_iff_lt, ← chosen, size', appended, bind, Except.bind]

theorem read_fragmentData (id : UInt32) (wide : Bool) {piece : Bytes} (b : FragmentBuffer)
    (small : piece.length ≤ 1598) (bound : total < 256 ^ 4) :
    (readerAt (UInt8.ofNat id.toNat).toNat b).read (fragmentData id total wide piece) =
      onEndpoint (UInt8.ofNat id.toNat).toNat
        (if wide then b.first total piece else b.next piece) := by
  cases wide with
  | false =>
    have split : fragmentData id total false piece =
        chunkHeader (0x30 :: UInt8.ofNat id.toNat :: piece).length 3 ++
          (0x30 :: UInt8.ofNat id.toNat :: piece) := by
      have size : 2 + piece.length = piece.length + 1 + 1 := by omega
      simp [fragmentData, dynamicHeader, chunkHeader, size]
    rw [split, read_fragment (by simp) (by simp [graphicsMaxIncoming]; omega), readDynamic_data]
    rfl
  | true =>
    have split : fragmentData id total true piece =
        chunkHeader (0x28 :: UInt8.ofNat id.toNat :: (leBytes 4 total ++ piece)).length 3 ++
          (0x28 :: UInt8.ofNat id.toNat :: (leBytes 4 total ++ piece)) := by
      simp [fragmentData, dynamicHeader, chunkHeader]
      congr 1
      omega
    rw [split, read_fragment (by simp) (by simp [graphicsMaxIncoming]; omega),
      readDynamic_dataFirst _ _ bound]
    rfl

theorem writeFragments_rest (bounded : total ≤ graphicsMaxIncoming) (fuel : Nat) {got : Bytes}
    (some : data ≠ []) (enough : data.length ≤ fuel) (whole : got.length + data.length = total)
    {out : Outgoing} {sent : List Bytes} (batched : Batched channel out sent) :
    ∃ after datas waits, writeFragments channel id total fuel false data out = .ok after ∧
      Batched channel after (sent ++ datas) ∧ (∀ d ∈ datas, d.length ≤ 1608) ∧
      Reads read (readerAt (UInt8.ofNat id.toNat).toNat { total := total, data := got })
        datas (replicate waits none ++
          [Option.some ((UInt8.ofNat id.toNat).toNat, got ++ data)]) .idle := by
  induction fuel generalizing data got out sent with
  | zero => exact absurd (length_pos_iff.mpr some) (by omega)
  | succ fuel ih =>
    have positive := length_pos_iff.mpr some
    have bound := lt_of_incoming bounded
    obtain ⟨next, turned, extended⟩ :=
      writeFragments_turn id total fuel false some batched false (Bool.false_and _).symm
        (min 1598 data.length) rfl
    rw [turned]
    have taken : (data.take (min 1598 data.length)).length = min 1598 data.length := by
      rw [length_take]
      omega
    have short : (fragmentData id total false (data.take (min 1598 data.length))).length ≤ 1608 := by
      rw [length_fragmentData, taken]
      simp only [false_eq_true, if_false]
      omega
    have small : (data.take (min 1598 data.length)).length ≤ 1598 := by omega
    have nonempty : data.take (min 1598 data.length) ≠ [] := by
      rw [← length_pos_iff]
      omega
    have read := read_fragmentData id false { total, data := got } small bound
    rw [if_neg Bool.false_ne_true, next_piece nonempty (by omega)] at read
    by_cases last : data.length ≤ 1598
    · have all : min 1598 data.length = data.length := by omega
      rw [all, take_length] at read extended short
      rw [all, drop_length]
      rw [if_pos whole] at read
      refine ⟨next, [fragmentData id total false data], 0, by cases fuel <;> rfl, extended, ?_, ?_⟩
      · simpa using short
      · refine .cons read ?_
        rw [readerAt_idle]
        exact .nil _
    · have piece : min 1598 data.length = 1598 := by omega
      rw [piece] at read extended short taken ⊢
      rw [if_neg (by omega)] at read
      obtain ⟨-, -, left, remaining⟩ := cut_spec (show 0 < 1598 by omega) (not_le.mp last)
      have rest : (got ++ data.take 1598).length + (data.drop 1598).length = total := by
        rw [length_append, taken, left]
        omega
      obtain ⟨after, datas, waits, ran, done, shorts, reads⟩ := ih remaining (by omega) rest extended
      refine ⟨after, fragmentData id total false (data.take 1598) :: datas, waits + 1, ran, ?_, ?_, ?_⟩
      · simpa using done
      · exact forall_mem_cons.mpr ⟨short, shorts⟩
      · rw [append_assoc, take_append_drop] at reads
        exact .cons read reads

/-- The writes of a message: an idle reader waits until the last packet completes it. -/
def Carried {σ α : Type} (read : σ → Bytes → Checked String (Option α × σ)) (idle : σ)
    (channel : UInt16) (value : α) (writes : List Bytes) : Prop :=
  ∃ (groups : List (List Bytes)) (waits : Nat), writes = groups.map (packetsOf channel) ∧
    (∀ d ∈ groups.flatten, d.length ≤ 1608) ∧
    Reads read idle groups.flatten (replicate waits none ++ [some value]) idle

theorem next_idle (some : data ≠ []) (bounded : data.length ≤ graphicsMaxIncoming) :
    idle.next data = .ok (Option.some data, .idle) := by
  have positive := length_pos_iff.mpr some
  unfold FragmentBuffer.next
  rw [if_pos (show idle.total = 0 from rfl), if_neg (by omega)]
  rfl

theorem writeFragments_whole (channel : UInt16) (id : UInt32) (some : data ≠ [])
    (bounded : data.length ≤ graphicsMaxIncoming) (capacity : Nat) :
    ∃ after datas waits,
      writeFragments channel id data.length data.length true data
        { batch := [], capacity, written := [] } = .ok after ∧
      Batched channel after datas ∧ (∀ d ∈ datas, d.length ≤ 1608) ∧
      Reads read .idle datas (replicate waits none ++
        [Option.some ((UInt8.ofNat id.toNat).toNat, data)]) .idle := by
  have bound := lt_of_incoming bounded
  have empty : Batched channel { batch := [], capacity, written := [] } [] :=
    ⟨[], [], rfl, rfl, rfl⟩
  obtain ⟨fuel, count⟩ : ∃ fuel, data.length = fuel + 1 :=
    Nat.exists_eq_succ_of_ne_zero (by simpa using some)
  rw [← readerAt_idle (UInt8.ofNat id.toNat).toNat]
  by_cases single : data.length ≤ 1598
  · obtain ⟨next, turned, extended⟩ :=
      writeFragments_turn id data.length fuel true some empty false
        (by simp; omega) data.length (by simp; omega)
    rw [take_length] at extended
    rw [drop_length, ← count] at turned
    have read := read_fragmentData id false .idle single bound
    rw [if_neg Bool.false_ne_true, next_idle some bounded] at read
    refine ⟨next, [fragmentData id data.length false data], 0, ?_, extended, ?_, .cons read ?_⟩
    · rw [turned]
      cases fuel <;> rfl
    · intro d mem
      rw [mem_singleton.mp mem, length_fragmentData]
      simp only [false_eq_true, if_false]
      omega
    · exact .nil _
  · obtain ⟨next, turned, extended⟩ :=
      writeFragments_turn id data.length fuel true some empty true
        (by simp; omega) 1594 (by simp; omega)
    rw [← count] at turned
    obtain ⟨taken, -, left, remaining⟩ := cut_spec (show 0 < 1594 by omega) (show 1594 < data.length by omega)
    have read := read_fragmentData id true .idle (by omega : (data.take 1594).length ≤ 1598) bound
    rw [if_pos rfl, first_piece (by omega) bounded (by omega), if_neg (by omega)] at read
    have rest : (data.take 1594).length + (data.drop 1594).length = data.length := by omega
    obtain ⟨after, datas, waits, ran, done, shorts, reads⟩ :=
      writeFragments_rest bounded fuel remaining (by omega) rest extended
    rw [take_append_drop] at reads
    refine ⟨after, fragmentData id data.length true (data.take 1594) :: datas, waits + 1,
      turned.trans ran, done, ?_, ?_⟩
    · refine forall_mem_cons.mpr ⟨?_, shorts⟩
      rw [length_fragmentData, taken]
      decide
    · rw [readerAt_idle] at read ⊢
      exact .cons read reads

theorem writeDynamic_carried (channel : UInt16) (id : UInt32) (some : data ≠ [])
    (bounded : data.length ≤ graphicsMaxIncoming) (capacity : Nat) :
    ∃ writes kept, writeDynamic channel capacity id data = .ok (writes, kept) ∧
      Carried read .idle channel ((UInt8.ofNat id.toNat).toNat, data) writes := by
  obtain ⟨after, datas, waits, ran, ⟨groups, last, written, batch, all⟩, shorts, reads⟩ :=
    writeFragments_whole channel id some bounded
      (if data.length ≠ 0 ∧ capacity < dynamicTransportBatchSize then dynamicTransportBatchSize
        else capacity)
  unfold writeDynamic
  simp only [ran, bind, Except.bind]
  split
  next empty =>
    have nothing : last = [] := packetsOf_eq_nil (batch.symm.trans (length_eq_zero_iff.mp empty))
    rw [nothing, append_nil] at all
    exact ⟨_, _, rfl, groups, waits, written, all ▸ shorts, all ▸ reads⟩
  · refine ⟨_, _, rfl, groups ++ [last], waits, ?_, ?_, ?_⟩
    · simp [written, batch]
    · simpa [all] using shorts
    · simpa [all] using reads

end Fragments

/-! ## Chunks of audio messages -/

section Chunks

variable {channel : UInt16} {total : Nat}

def chunkData (total : Nat) (isFirst isLast : Bool) (piece : Bytes) : Bytes :=
  chunkHeader total (isFirst.toNat + 2 * isLast.toNat) ++ piece

theorem length_chunkData (total : Nat) (isFirst isLast : Bool) (piece : Bytes) :
    (chunkData total isFirst isLast piece).length = 8 + piece.length := by
  have header : (chunkHeader total (isFirst.toNat + 2 * isLast.toNat)).length = 8 := by
    simp [chunkHeader]
  rw [chunkData, length_append, header]

theorem chunk_flags (first : Bool) (n : Nat) :
    ((if first then 1 else 0) + if min 1600 n = n then 2 else 0) =
      first.toNat + 2 * (decide (n ≤ 1600)).toNat := by
  have whole : min 1600 n = n ↔ n ≤ 1600 := by omega
  cases first <;> by_cases short : n ≤ 1600 <;> simp [whole, short]

variable {data : Bytes}

theorem writeChunks_turn (channel : UInt16) (total fuel : Nat) (first : Bool) (some : data ≠ []) :
    writeChunks channel total (fuel + 1) first data =
      (writeChunks channel total fuel false (data.drop (min 1600 data.length)) >>= fun packets =>
        pure (channelPacket channel
          (chunkData total first (decide (data.length ≤ 1600)) (data.take (min 1600 data.length))) ::
            packets)) := by
  obtain ⟨b, rest, rfl⟩ := exists_cons_of_ne_nil some
  have small : (chunkData total first (decide ((b :: rest).length ≤ 1600))
      ((b :: rest).take (min 1600 (b :: rest).length))).length ≤ maxUserData := by
    rw [length_chunkData, length_take]
    unfold maxUserData
    omega
  have packet : writeChannel channel _ = _ := writeChannel_eq small
  rw [chunkData, chunkHeader] at packet
  rw [writeChunks]
  simp only [chunk_flags, packet, bind, Except.bind]
  rfl

theorem static_rest (bound : total < 256 ^ 4) {got piece : Bytes} (some : piece ≠ [])
    (fits : got.length + piece.length ≤ total) :
    (mk total got).static
        (chunkData total false (decide (got.length + piece.length = total)) piece) =
      if got.length + piece.length = total then .ok (Option.some (got ++ piece), .idle)
      else .ok (none, { total := total, data := got ++ piece }) := by
  have positive := length_pos_iff.mpr some
  have continues : (mk total got).chunk false total piece =
      (mk total got).next piece := by
    rw [chunk, if_neg Bool.false_ne_true, if_neg (by simp only; omega)]
  rw [chunkData, static_chunk _ bound, continues, next_piece some fits]
  split
  next last => simp [last, bind, Except.bind, pure, Except.pure]
  next more => simp [more, bind, Except.bind, pure, Except.pure]

theorem static_first {piece : Bytes} (positive : 0 < total) (bounded : total ≤ graphicsMaxIncoming)
    (fits : piece.length ≤ total) :
    idle.static (chunkData total true (decide (piece.length = total)) piece) =
      if piece.length = total then .ok (some piece, .idle)
      else .ok (none, { total := total, data := piece }) := by
  rw [chunkData, static_chunk _ (lt_of_incoming bounded), chunk, if_pos rfl,
    first_piece positive bounded fits]
  split
  next last => simp [last, bind, Except.bind, pure, Except.pure]
  next more => simp [more, bind, Except.bind, pure, Except.pure]

theorem writeChunks_rest (channel : UInt16) (bounded : total ≤ graphicsMaxIncoming) (fuel : Nat) {got : Bytes}
    (some : data ≠ []) (enough : data.length ≤ fuel) (whole : got.length + data.length = total) :
    ∃ datas waits, writeChunks channel total fuel false data = .ok (datas.map (channelPacket channel)) ∧
      (∀ d ∈ datas, d.length ≤ 1608) ∧
      Reads static { total := total, data := got } datas
        (replicate waits none ++ [Option.some (got ++ data)]) .idle := by
  induction fuel generalizing data got with
  | zero => exact absurd (length_pos_iff.mpr some) (by omega)
  | succ fuel ih =>
    have positive := length_pos_iff.mpr some
    have bound := lt_of_incoming bounded
    rw [writeChunks_turn channel total fuel false some]
    by_cases last : data.length ≤ 1600
    · have all : min 1600 data.length = data.length := by omega
      have read := static_rest bound some whole.le
      rw [if_pos whole, decide_eq_true whole] at read
      refine ⟨[chunkData total false true data], 0, ?_, ?_, .cons read (.nil _)⟩
      · rw [all, take_length, drop_length, decide_eq_true last]
        cases fuel <;> rfl
      · intro d mem
        rw [mem_singleton.mp mem, length_chunkData]
        omega
    · have cut : min 1600 data.length = 1600 := by omega
      obtain ⟨taken, nonempty, left, remaining⟩ := cut_spec (show 0 < 1600 by omega) (not_le.mp last)
      have rest : (got ++ data.take 1600).length + (data.drop 1600).length = total := by
        rw [length_append, taken, left]
        omega
      have partly : ¬ got.length + (data.take 1600).length = total := by omega
      have read := static_rest bound nonempty (by omega : got.length + (data.take 1600).length ≤ total)
      rw [if_neg partly, decide_eq_false partly] at read
      obtain ⟨datas, waits, ran, shorts, reads⟩ := ih remaining (by omega) rest
      rw [append_assoc, take_append_drop] at reads
      refine ⟨chunkData total false false (data.take 1600) :: datas, waits + 1, ?_, ?_,
        .cons read reads⟩
      · rw [cut, ran, decide_eq_false last]
        rfl
      · refine forall_mem_cons.mpr ⟨?_, shorts⟩
        rw [length_chunkData, taken]

theorem writeAudioMessage_carried (channel : UInt16) (some : data ≠ [])
    (bounded : data.length ≤ graphicsMaxIncoming) :
    ∃ writes, writeAudioMessage channel data = .ok writes ∧
      Carried static .idle channel data writes := by
  have positive := length_pos_iff.mpr some
  obtain ⟨fuel, count⟩ : ∃ fuel, data.length = fuel + 1 := ⟨data.length - 1, by omega⟩
  have singles : ∀ datas : List Bytes,
      datas.map (channelPacket channel) = (datas.map fun d => [d]).map (packetsOf channel) := by
    intro datas
    simp [packetsOf]
  have flat : ∀ datas : List Bytes, (datas.map fun d => [d]).flatten = datas := by
    intro datas
    induction datas with
    | nil => rfl
    | cons d datas ih => simp [ih]
  have turn := writeChunks_turn channel data.length fuel true some
  rw [← count] at turn
  unfold writeAudioMessage
  rw [turn]
  by_cases last : data.length ≤ 1600
  · have all : min 1600 data.length = data.length := by omega
    have read := static_first positive bounded le_rfl
    rw [if_pos rfl, decide_eq_true rfl] at read
    refine ⟨[chunkData data.length true true data].map (channelPacket channel), ?_, _, 0,
      singles _, ?_, ?_⟩
    · rw [all, take_length, drop_length, decide_eq_true last]
      cases fuel <;> rfl
    · intro d mem
      rw [flat, mem_singleton] at mem
      rw [mem, length_chunkData]
      omega
    · rw [flat]
      exact .cons read (.nil _)
  · have cut : min 1600 data.length = 1600 := by omega
    obtain ⟨taken, -, left, remaining⟩ := cut_spec (show 0 < 1600 by omega) (not_le.mp last)
    have partly : ¬ (data.take 1600).length = data.length := by omega
    have read := static_first positive bounded (by omega : (data.take 1600).length ≤ data.length)
    rw [if_neg partly, decide_eq_false partly] at read
    have rest : (data.take 1600).length + (data.drop 1600).length = data.length := by omega
    obtain ⟨datas, waits, ran, shorts, reads⟩ :=
      writeChunks_rest channel bounded fuel remaining (by omega) rest
    rw [take_append_drop] at reads
    refine ⟨(chunkData data.length true false (data.take 1600) :: datas).map (channelPacket channel),
      ?_, _, waits + 1, singles _, ?_, ?_⟩
    · rw [cut, ran, decide_eq_false last]
      rfl
    · rw [flat]
      refine forall_mem_cons.mpr ⟨?_, shorts⟩
      rw [length_chunkData, taken]
    · rw [flat]
      exact .cons read reads

end Chunks

/-! ## Messages -/

structure Message where
  data : Bytes
  some : data ≠ []
  bounded : data.length ≤ graphicsMaxIncoming

def writeDynamicAll (channel : UInt16) :
    Nat → List (UInt32 × Message) → Checked String (List (List Bytes))
  | _, [] => pure []
  | capacity, (id, message) :: rest => do
    let (writes, capacity) ← writeDynamic channel capacity id message.data
    let more ← writeDynamicAll channel capacity rest
    pure (writes :: more)

def writeAudioAll (channel : UInt16) : List Message → Checked String (List (List Bytes))
  | [] => pure []
  | message :: rest => do
    let writes ← writeAudioMessage channel message.data
    let more ← writeAudioAll channel rest
    pure (writes :: more)

/-- One packet, with no more than a chunk of 1600 bytes after the header of eight. -/
def WholePacket (packet : Bytes) : Prop :=
  ∃ unit mcs data, readTransport packet = .ok ((unit, false), []) ∧ unwrapX224 unit = .ok mcs ∧
    takePER (mcs.drop 6) = .ok data ∧ data.length ≤ 8 + 1600

def WholePackets (wire : Bytes) : Prop :=
  ∃ packets : List Bytes, wire = packets.flatten ∧ ∀ packet ∈ packets, WholePacket packet

section Delivery

variable {σ α : Type} (read : σ → Bytes → Checked String (Option α × σ)) (idle : σ)
  (channel : UInt16)

/-- The writes are whole packets; an idle reader gets the message at the last one, once, and is idle
    again. -/
structure Delivered (value : α) (writes : List Bytes) (outputs : List (Nat × Option α)) : Prop where
  whole : ∀ wire ∈ writes, WholePackets wire
  once : ∃ waits, outputs =
    replicate waits (channel.toNat, none) ++ [(channel.toNat, some value)]
  read : receive read writes.flatten.length idle writes.flatten = .ok (outputs, idle)

/-- Every message is delivered on its own. -/
inductive EachDelivered :
    List α → List (List Bytes) → List (List (Nat × Option α)) → Prop where
  | nil : EachDelivered [] [] []
  | cons {value : α} {writes : List Bytes} {outputs : List (Nat × Option α)} {values : List α}
      {writess : List (List Bytes)} {outputss : List (List (Nat × Option α))}
      (now : Delivered read idle channel value writes outputs)
      (later : EachDelivered values writess outputss) :
      EachDelivered (value :: values) (writes :: writess) (outputs :: outputss)

/-- Each message is delivered on its own, and a reader of the whole stream gets them in order. -/
def DeliveredInOrder (values : List α) (writes : List (List Bytes)) : Prop :=
  ∃ outputs, EachDelivered read idle channel values writes outputs ∧
    receive read writes.flatten.flatten.length idle writes.flatten.flatten =
      .ok (outputs.flatten, idle)

variable {read idle channel}

theorem wholePacket_channelPacket {data : Bytes} (short : data.length ≤ 1608) :
    WholePacket (channelPacket channel data) := by
  have small : data.length ≤ maxUserData := by
    unfold maxUserData
    omega
  have packet : readTransport (channelPacket channel data ++ []) = _ :=
    readTransport_channelPacket small []
  rw [append_nil] at packet
  exact ⟨_, _, data, packet, unwrapX224_channelUnit channel data, takePER_channelUnit small, short⟩

theorem wholePackets_packetsOf {datas : List Bytes} (shorts : ∀ d ∈ datas, d.length ≤ 1608) :
    WholePackets (packetsOf channel datas) := by
  refine ⟨datas.map (channelPacket channel), rfl, ?_⟩
  intro packet mem
  obtain ⟨data, listed, rfl⟩ := mem_map.mp mem
  exact wholePacket_channelPacket (shorts data listed)

theorem packetsOf_flatten (groups : List (List Bytes)) :
    (groups.map (packetsOf channel)).flatten = packetsOf channel groups.flatten := by
  induction groups with
  | nil => rfl
  | cons group groups ih =>
    rw [map_cons, flatten_cons, ih, flatten_cons, packetsOf, packetsOf, packetsOf,
      map_append, flatten_append]

theorem length_le_packetsOf (datas : List Bytes) : datas.length ≤ (packetsOf channel datas).length := by
  induction datas with
  | nil => exact Nat.zero_le _
  | cons data datas ih =>
    have positive := length_pos_iff.mpr (channelPacket_ne_nil channel data)
    have split : packetsOf channel (data :: datas) =
        channelPacket channel data ++ packetsOf channel datas := rfl
    rw [split, length_append, length_cons]
    omega

theorem receive_stream {s s' : σ} {datas : List Bytes} {outputs : List (Option α)}
    (reads : Reads read s datas outputs s') (shorts : ∀ d ∈ datas, d.length ≤ 1608) :
    receive read (packetsOf channel datas).length s (packetsOf channel datas) =
      .ok (outputs.map (channel.toNat, ·), s') := by
  refine receive_packets reads ?_ (length_le_packetsOf datas)
  intro data mem
  have short := shorts data mem
  unfold maxUserData
  omega

/-- Messages whose writes carry them are delivered in order. -/
theorem deliveredInOrder_of_carried {values : List α} {writes : List (List Bytes)}
    (carried : List.Forall₂ (Carried read idle channel) values writes) :
    ∃ outputs datas messages, EachDelivered read idle channel values writes outputs ∧
      writes.flatten.flatten = packetsOf channel datas ∧ (∀ d ∈ datas, d.length ≤ 1608) ∧
      Reads read idle datas messages idle ∧ outputs.flatten = messages.map (channel.toNat, ·) := by
  induction carried with
  | nil => exact ⟨[], [], [], .nil, rfl, by simp, .nil _, rfl⟩
  | @cons value wires values writes now _ ih =>
    obtain ⟨outputs, datas, messages, each, stream, shorts, reads, same⟩ := ih
    obtain ⟨groups, waits, rfl, short, first⟩ := now
    have own : (groups.map (packetsOf channel)).flatten = packetsOf channel groups.flatten :=
      packetsOf_flatten groups
    refine ⟨(replicate waits none ++ [some value]).map (channel.toNat, ·) :: outputs,
      groups.flatten ++ datas, (replicate waits none ++ [some value]) ++ messages,
      .cons { whole := ?_, once := ⟨waits, ?_⟩, read := ?_ } each, ?_, ?_, first.append reads, ?_⟩
    · intro wire mem
      obtain ⟨group, listed, rfl⟩ := mem_map.mp mem
      exact wholePackets_packetsOf fun d inside =>
        short d (mem_flatten.mpr ⟨group, listed, inside⟩)
    · simp
    · rw [own]
      exact receive_stream first short
    · rw [flatten_cons, flatten_append, own, stream, packetsOf, packetsOf, packetsOf,
        map_append, flatten_append]
    · intro d mem
      exact (mem_append.mp mem).elim (short d) (shorts d)
    · rw [flatten_cons, same, ← map_append]

theorem DeliveredInOrder.of_carried {values : List α} {writes : List (List Bytes)}
    (carried : List.Forall₂ (Carried read idle channel) values writes) :
    DeliveredInOrder read idle channel values writes := by
  obtain ⟨outputs, datas, messages, each, stream, shorts, reads, same⟩ :=
    deliveredInOrder_of_carried carried
  refine ⟨outputs, each, ?_⟩
  rw [stream, same]
  exact receive_stream reads shorts

end Delivery

theorem writeDynamicAll_carried (channel : UInt16) (capacity : Nat) (sends : List (UInt32 × Message)) :
    ∃ writes, writeDynamicAll channel capacity sends = .ok writes ∧
      List.Forall₂ (Carried read .idle channel)
        (sends.map fun send => ((UInt8.ofNat send.1.toNat).toNat, send.2.data)) writes := by
  induction sends generalizing capacity with
  | nil => exact ⟨[], rfl, .nil⟩
  | cons send sends ih =>
    obtain ⟨id, message⟩ := send
    obtain ⟨writes, kept, wrote, carried⟩ :=
      writeDynamic_carried channel id message.some message.bounded capacity
    obtain ⟨more, wroteMore, carriedMore⟩ := ih kept
    refine ⟨writes :: more, ?_, .cons carried carriedMore⟩
    simp only [writeDynamicAll, wrote, wroteMore, bind, Except.bind]
    rfl

theorem writeAudioAll_carried (channel : UInt16) (messages : List Message) :
    ∃ writes, writeAudioAll channel messages = .ok writes ∧
      List.Forall₂ (Carried static .idle channel) (messages.map Message.data) writes := by
  induction messages with
  | nil => exact ⟨[], rfl, .nil⟩
  | cons message messages ih =>
    obtain ⟨writes, wrote, carried⟩ :=
      writeAudioMessage_carried channel message.some message.bounded
    obtain ⟨more, wroteMore, carriedMore⟩ := ih
    refine ⟨writes :: more, ?_, .cons carried carriedMore⟩
    simp only [writeAudioAll, wrote, wroteMore, bind, Except.bind]
    rfl

/-- Whatever messages are sent on a channel, dynamic or audio, the writers succeed and the
    messages come back through the readers: each at its last packet and not before, once, and
    all of them in order. -/
theorem channel_messages_round_trip (channel : UInt16) (capacity : Nat)
    (sends : List (UInt32 × Message)) (sounds : List Message) :
    (∃ writes, writeDynamicAll channel capacity sends = .ok writes ∧
      DeliveredInOrder read .idle channel
        (sends.map fun send => ((UInt8.ofNat send.1.toNat).toNat, send.2.data)) writes) ∧
    (∃ writes, writeAudioAll channel sounds = .ok writes ∧
      DeliveredInOrder static .idle channel (sounds.map Message.data) writes) := by
  constructor
  · obtain ⟨writes, wrote, carried⟩ := writeDynamicAll_carried channel capacity sends
    exact ⟨writes, wrote, .of_carried carried⟩
  · obtain ⟨writes, wrote, carried⟩ := writeAudioAll_carried channel sounds
    exact ⟨writes, wrote, .of_carried carried⟩

end Gokvm.Rdp
