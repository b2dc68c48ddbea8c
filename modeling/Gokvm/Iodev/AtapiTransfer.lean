import Gokvm.Iodev.Atapi

/-! # Reading a disc through the data port

The host sets the byte-count limit, sends a packet and then reads the data port for as
long as the drive requests data. A drive has one data phase: the host obtains the
blocks exactly when they fit into the limit.
-/

namespace Gokvm.Iodev

open Lib List Store Nat

/-! ## The disc -/

/-- A reader of the bytes of a disc: its only error may be the end of the file. -/
structure ReaderAt.Gives (r : ReaderAt) (disc : Store) : Prop where
  bytes : ∀ off len, (r off len).1 = disc.read off (min len (disc.size - off))
  readable : ∀ off len, (r off len).2 ≠ .failed

theorem read_past_end (disc : Store) (off len : Nat) :
    disc.read off (min len (disc.size - off)) ++
        replicate (len - min len (disc.size - off)) 0 = disc.read off len := by
  apply ext_getElem?
  intro i
  rw [getElem?_append, read_length, read_getElem?, read_getElem?,
    getElem?_replicate]
  by_cases inside : i < len
  · by_cases stored : i < disc.size - off
    · rw [if_pos (by omega), if_pos (by omega), if_pos inside]
    · rw [if_neg (by omega), if_pos (by omega), if_pos inside, disc.beyond (off + i) (by omega)]
  · rw [if_neg (by omega), if_neg (by omega), if_neg inside]

def fileReader (disc : Store) : ReaderAt := fun off len =>
  (disc.read off (min len (disc.size - off)), if off + len ≤ disc.size then .complete else .eof)

theorem fileReader_gives (disc : Store) : (fileReader disc).Gives disc where
  bytes _ _ := rfl
  readable off len := by
    unfold fileReader
    split <;> simp

namespace ATAPICDROM

/-! ## The host -/

def drq (c : ATAPICDROM) : Bool := c.status &&& ataStatusDRQ ≠ 0

/-- The host sets the limit, starts a packet command and writes the packet in pieces. -/
def issue (c : ATAPICDROM) (limitLow limitHigh : UInt8) (pieces : List Bytes) : ATAPICDROM :=
  let c := c.write ataRegLBAMid [limitLow]
  let c := c.write ataRegLBAHigh [limitHigh]
  let c := c.write ataRegCommand [ataCmdPacket]
  pieces.foldl (fun c piece => c.write ataRegData piece) c

/-- The host reads the data port in the given widths while data is requested. -/
def drain : List Nat → ATAPICDROM → Bytes × ATAPICDROM
  | [], c => ([], c)
  | width :: rest, c =>
    if c.drq then
      let (bytes, c) := c.read ataRegData (replicate width 0)
      let (more, c) := drain rest c
      (bytes ++ more, c)
    else ([], c)

/-- A packet that asks for blocks: READ(10) or READ(12). -/
def ReadsBlocks (packet : Bytes) (lba count : Nat) : Prop :=
  (packet.getD 0 0 = 0x28 ∧ beNat (part packet 2 4) = lba ∧ beNat (part packet 7 2) = count) ∨
  (packet.getD 0 0 = 0xa8 ∧ beNat (part packet 2 4) = lba ∧ beNat (part packet 6 4) = count)

instance (packet : Bytes) (lba count : Nat) : Decidable (ReadsBlocks packet lba count) :=
  inferInstanceAs (Decidable (_ ∨ _))

def limitOf (limitLow limitHigh : UInt8) : Nat :=
  if leNat [limitLow, limitHigh] = 0 then 65536 else leNat [limitLow, limitHigh]

/-! ## The data phase -/

variable {c : ATAPICDROM} {lba count : Nat}

theorem drq_of_done (done : c.status = ataStatusDRDY ||| ataStatusDSC) :
    c.drq = false := by
  rw [drq, done]
  decide

theorem drq_of_request (request : c.status = ataStatusDRDY ||| ataStatusDRQ) :
    c.drq = true := by
  rw [drq, request]
  decide

/-- A drive that has these bytes left to give. -/
structure Offers (c : ATAPICDROM) (rest : Bytes) : Prop where
  master : c.slaveSelected = false
  left : c.data.drop c.dataOffset = rest
  requests : c.drq = true ↔ rest ≠ []

theorem takeBytes_eq (data : Bytes) (n offset : Nat) :
    takeBytes data n offset =
      ((data.drop offset ++ replicate n 0).take n,
        offset + min n (data.length - offset)) := by
  induction n generalizing offset with
  | zero => simp [takeBytes]
  | succ n ih =>
    rw [takeBytes]
    by_cases past : data.length ≤ offset
    · have none : data.drop offset = [] := drop_eq_nil_of_le past
      rw [if_pos past, ih, none]
      exact Prod.ext rfl (show offset + _ = offset + _ by omega)
    · have inside : offset < data.length := by omega
      have first : data.drop offset = data.getD offset 0 :: data.drop (offset + 1) := by
        rw [drop_eq_getElem_cons inside, getD_eq_getElem?_getD,
          getElem?_eq_getElem inside, Option.getD_some]
      rw [if_neg past, ih, first]
      refine Prod.ext ?_ (show offset + 1 + _ = offset + _ by omega)
      have padded : (data.drop (offset + 1) ++ replicate (n + 1) 0).take n =
          (data.drop (offset + 1) ++ replicate n 0).take n := by
        rw [replicate_succ', ← append_assoc, take_append_of_le_length]
        rw [length_append, length_replicate]
        omega
      exact (congrArg (data.getD offset 0 :: ·) padded).symm

/-- A read inside what is left gives its front and leaves the rest. -/
theorem Offers.readData {rest : Bytes} (offers : Offers c rest) {n : Nat} (positive : 0 < n)
    (inside : n ≤ rest.length) :
    (c.readData n).1 = rest.take n ∧ Offers (c.readData n).2 (rest.drop n) := by
  have length : c.data.length - c.dataOffset = rest.length := by
    rw [← offers.left, length_drop]
  have shown : c.drq = true := offers.requests.mpr fun none => by
    rw [none, length_nil] at inside
    omega
  unfold ATAPICDROM.readData
  rw [takeBytes_eq, offers.left, length, min_eq_left inside]
  simp only [take_append_of_le_length inside]
  by_cases last : c.data.length ≤ c.dataOffset + n
  · have nothing : rest.drop n = [] := drop_eq_nil_of_le (by omega)
    rw [if_pos last, nothing]
    refine ⟨rfl, { master := offers.master, left := rfl, requests := ?_ }⟩
    rw [drq_of_done rfl]
    simp
  · rw [if_neg last]
    refine ⟨rfl, { master := offers.master, left := ?_, requests := ?_ }⟩
    · rw [← drop_drop, offers.left]
    · have more : rest.drop n ≠ [] := by
        intro none
        have short := drop_eq_nil_iff.mp none
        omega
      exact ⟨fun _ => more, fun _ => shown⟩

/-- Accesses whose widths add up to what is left obtain it; then nothing is requested and the host
    stops. -/
theorem Offers.drain (widths more : List Nat) (positive : ∀ width ∈ widths, 0 < width) :
    ∀ {c : ATAPICDROM} {rest : Bytes}, Offers c rest → widths.sum = rest.length →
      (drain (widths ++ more) c).1 = rest ∧ (drain (widths ++ more) c).2.drq = false := by
  induction widths with
  | nil =>
    intro c rest offers whole
    have nothing : rest = [] := length_eq_zero_iff.mp whole.symm
    have idle : c.drq = false := by
      rw [← Bool.not_eq_true, offers.requests]
      simp [nothing]
    rw [nil_append, nothing]
    cases more with
    | nil => exact ⟨rfl, idle⟩
    | cons width more =>
      rw [ATAPICDROM.drain, idle, if_neg Bool.false_ne_true]
      exact ⟨rfl, idle⟩
  | cons width widths ih =>
    intro c rest offers whole
    rw [sum_cons] at whole
    have wide : 0 < width := positive width mem_cons_self
    have inside : width ≤ rest.length := by omega
    have shown : c.drq = true := offers.requests.mpr fun none => by
      rw [none, length_nil] at inside
      omega
    obtain ⟨front, offersRest⟩ := offers.readData wide inside
    have reads : c.read ataRegData (replicate width 0) = c.readData width := by
      rw [ATAPICDROM.read, length_replicate, if_neg (by omega), offers.master,
        if_neg Bool.false_ne_true, if_pos rfl]
    obtain ⟨obtained, idle⟩ := ih (fun other member => positive other (mem_cons_of_mem _ member))
      offersRest (by rw [length_drop]; omega)
    rw [cons_append, ATAPICDROM.drain, if_pos shown, reads]
    simp only [front, obtained, idle, take_append_drop, and_self]

/-! ## The command -/

theorem writeData_waits (awaiting : c.awaitingPacket = true) {src : Bytes}
    (short : (c.packet ++ src).length < 12) : c.writeData src = { c with packet := c.packet ++ src } := by
  rw [writeData, if_neg (by simp [awaiting]), if_pos short]

theorem writeData_handles (awaiting : c.awaitingPacket = true) {src : Bytes}
    (whole : (c.packet ++ src).length = 12) :
    c.writeData src = { c with awaitingPacket := false, packet := [] }.handlePacket (c.packet ++ src) := by
  rw [writeData, if_neg (by simp [awaiting]), if_neg (by omega), take_of_length_le (by omega)]

theorem write_nothing {pieces : List Bytes} (empty : pieces.flatten = []) (c : ATAPICDROM) :
    pieces.foldl (fun c piece => c.write ataRegData piece) c = c := by
  induction pieces with
  | nil => rfl
  | cons piece pieces ih =>
    obtain ⟨none, others⟩ := append_eq_nil_iff.mp empty
    rw [foldl_cons, none]
    exact ih others

/-- Writing the packet in any pieces carries it out once it is whole. -/
theorem write_packet (pieces : List Bytes) :
    ∀ (c : ATAPICDROM), c.awaitingPacket = true → c.packet.length < 12 →
      (c.packet ++ pieces.flatten).length = 12 →
        pieces.foldl (fun c piece => c.write ataRegData piece) c =
          { c with awaitingPacket := false, packet := [] }.handlePacket (c.packet ++ pieces.flatten) := by
  induction pieces with
  | nil =>
    intro c _ short whole
    rw [flatten_nil, append_nil] at whole
    omega
  | cons piece pieces ih =>
    intro c awaiting short whole
    rw [flatten_cons] at whole ⊢
    rw [foldl_cons]
    cases piece with
    | nil => exact ih c awaiting short whole
    | cons first piece =>
      have written : c.write ataRegData (first :: piece) = c.writeData (first :: piece) := by
        rw [write, if_pos rfl]
      rw [written]
      by_cases waits : (c.packet ++ first :: piece).length < 12
      · rw [writeData_waits awaiting waits]
        have later := ih { c with packet := c.packet ++ first :: piece } awaiting waits
          (by rw [append_assoc]; exact whole)
        rw [later, append_assoc]
      · -- the packet is whole: only empty pieces can follow
        have lengths := whole
        simp only [length_append] at lengths waits
        have nothing : pieces.flatten = [] := length_eq_zero_iff.mp (by omega)
        rw [writeData_handles awaiting (by simp only [length_append]; omega),
          write_nothing nothing, nothing, append_nil]

theorem prepareData_offers (master : c.slaveSelected = false) (data : Bytes) :
    Offers (c.prepareData data 0) (data.take c.maxTransfer) := by
  have cut : (if c.maxTransfer < data.length then data.take c.maxTransfer else data) =
      data.take c.maxTransfer := by
    split
    · rfl
    · rw [take_of_length_le (by omega)]
  have quiet (d : ATAPICDROM) (rest : Bytes) (offers : Offers d rest) : Offers d.interrupt rest := by
    unfold interrupt
    split
    · exact offers
    · exact { offers with }
  unfold prepareData
  simp only [if_neg (show ¬(0 < 0 ∧ 0 < data.length) by omega), cut]
  apply quiet
  split
  next empty =>
    refine { master, left := rfl, requests := ?_ }
    rw [drq_of_done rfl, length_eq_zero_iff.mp empty]
    simp
  next full =>
    refine { master, left := rfl, requests := ?_ }
    exact ⟨fun _ none => full (by rw [none]; rfl), fun _ => drq_of_request rfl⟩

theorem finishPacket_offers (master : c.slaveSelected = false) (data : Bytes) :
    Offers (c.clearSense.finishPacket data 0) (data.take c.maxTransfer) :=
  prepareData_offers (c := { c.clearSense with errorReg := 0 }) master data

theorem readBlocks_offers {disc : Store} (gives : c.r.Gives disc) (master : c.slaveSelected = false)
    (small : count < 2 ^ 32) :
    Offers (c.readBlocks lba count)
      ((disc.read (lba * atapiSectorSize) (count * atapiSectorSize)).take c.maxTransfer) := by
  unfold readBlocks
  by_cases none : count = 0
  · rw [if_pos none, none]
    exact finishPacket_offers master []
  · have readable := gives.readable (lba * atapiSectorSize) (count * atapiSectorSize)
    have bytes := gives.bytes (lba * atapiSectorSize) (count * atapiSectorSize)
    rw [if_neg none, if_neg (by simp only [atapiSectorSize]; omega)]
    simp only [if_neg readable, bytes, read_length, read_past_end]
    rw [take_of_length_le (by rw [read_length])]
    exact finishPacket_offers master _

theorem handlePacket_reads {packet : Bytes} (reads : ReadsBlocks packet lba count) (c : ATAPICDROM) : c.handlePacket packet = c.readBlocks lba count := by
  rcases reads with ⟨op, rfl, rfl⟩ | ⟨op, rfl, rfl⟩
  · have code : (packet.getD 0 0).toNat = 0x28 := by rw [op]; rfl
    simp only [handlePacket, code]
  · have code : (packet.getD 0 0).toNat = 0xa8 := by rw [op]; rfl
    simp only [handlePacket, code]

theorem ReadsBlocks.small {packet : Bytes} (reads : ReadsBlocks packet lba count) :
    count < 2 ^ 32 := by
  have bound (off n : Nat) (narrow : n ≤ 4) : beNat (part packet off n) < 2 ^ 32 := by
    have length : (part packet off n).length ≤ 4 := by
      simp only [part, length_take]
      omega
    calc beNat (part packet off n)
        < 256 ^ (part packet off n).length := beNat_lt _
      _ ≤ 256 ^ 4 := Nat.pow_le_pow_right (by omega) length
  rcases reads with ⟨_, _, rfl⟩ | ⟨_, _, rfl⟩
  · exact bound 7 2 (by omega)
  · exact bound 6 4 (by omega)

/-- After the command the drive offers the front of the blocks, up to the limit. -/
theorem issue_offers {disc : Store} (gives : c.r.Gives disc) (master : c.slaveSelected = false)
    {pieces : List Bytes} (whole : pieces.flatten.length = 12) (reads : ReadsBlocks pieces.flatten lba count)
    (limitLow limitHigh : UInt8) :
    Offers (c.issue limitLow limitHigh pieces)
      ((disc.read (lba * atapiSectorSize) (count * atapiSectorSize)).take
        (limitOf limitLow limitHigh)) := by
  let ready := { c with
    lbaMid := limitLow, lbaHigh := limitHigh, awaitingPacket := true, packet := [], errorReg := 0
    status := ataStatusDRDY ||| ataStatusDRQ, sectorCount := 0x01 }
  have started : ((c.write ataRegLBAMid [limitLow]).write ataRegLBAHigh [limitHigh]).write
      ataRegCommand [ataCmdPacket] = ready := by
    have selected : slaveSelected { c with lbaMid := limitLow, lbaHigh := limitHigh } = false := master
    have accepted : command { c with lbaMid := limitLow, lbaHigh := limitHigh } ataCmdPacket = ready := by
      rw [command, selected, if_neg Bool.false_ne_true, if_neg (by decide), if_neg (by decide),
        if_neg (by decide), if_neg (by decide), if_pos rfl]
    exact accepted
  have carried : c.issue limitLow limitHigh pieces =
      { ready with awaitingPacket := false, packet := [] }.handlePacket pieces.flatten := by
    simp only [issue, started]
    exact write_packet pieces ready rfl ofNat_pos whole
  rw [carried, handlePacket_reads reads]
  exact readBlocks_offers (c := { ready with awaitingPacket := false, packet := [] }) gives master
    reads.small

/-- The host obtains the blocks, however it divides the transfer into accesses, exactly
    when they fit into the byte-count limit. -/
theorem read_delivers_iff {c : ATAPICDROM} {disc : Store} (gives : c.r.Gives disc)
    (master : c.slaveSelected = false) {pieces : List Bytes} (whole : pieces.flatten.length = 12)
    {lba count : Nat} (reads : ReadsBlocks pieces.flatten lba count) (limitLow limitHigh : UInt8) :
    (∀ widths : List Nat, (∀ width ∈ widths, 0 < width) → widths.sum = count * atapiSectorSize →
      (drain widths (c.issue limitLow limitHigh pieces)).1 =
          disc.read (lba * atapiSectorSize) (count * atapiSectorSize) ∧
        (drain widths (c.issue limitLow limitHigh pieces)).2.drq = false) ↔
      count * atapiSectorSize ≤ limitOf limitLow limitHigh := by
  have offers := issue_offers gives master whole reads limitLow limitHigh
  constructor
  · intro delivered
    by_contra large
    -- byte by byte the host is cut off at the limit
    have cut : limitOf limitLow limitHigh < count * atapiSectorSize := Nat.lt_of_not_le large
    obtain ⟨more, split⟩ : ∃ more, count * atapiSectorSize = limitOf limitLow limitHigh + more :=
      Nat.exists_eq_add_of_le cut.le
    have obtained := Offers.drain (replicate (limitOf limitLow limitHigh) 1)
      (replicate more 1)
      (fun width member => (eq_of_mem_replicate member).symm ▸ one_pos) offers
      (by simp only [sum_replicate, smul_eq_mul, mul_one, length_take,
            read_length]; omega)
    have all := delivered (replicate (count * atapiSectorSize) 1)
      (fun width member => (eq_of_mem_replicate member).symm ▸ one_pos) (by simp)
    rw [split, replicate_add, obtained.1, ← split] at all
    have lengths := congrArg List.length all.1
    simp only [length_take, read_length] at lengths
    omega
  · intro fits widths positive sum
    have obtained := Offers.drain widths [] positive offers (by
      rw [sum, length_take, read_length, min_eq_right fits])
    rwa [append_nil, take_of_length_le (by rw [read_length]; exact fits)] at obtained

def twoBlocks : Store := (blank 4096).writes [(0, [1, 2, 3, 4]), (2048, [5, 6, 7, 8])]

/-- READ(10) of block 0, and READ(12) of both blocks. -/
def readTenPacket : Bytes := [0x28, 0, 0, 0, 0, 0, 0, 0, 1, 0, 0, 0]

def readTwelvePacket : Bytes := [0xa8, 0, 0, 0, 0, 0, 0, 0, 0, 2, 0, 0]

/-- Both blocks fit into a limit of 4096 bytes: two-byte accesses obtain them. -/
theorem twoBlocks_delivered :
    (drain (replicate 2048 2)
        ((new (fileReader twoBlocks) 4096).issue 0 16 [readTwelvePacket])).1 =
      twoBlocks.read 0 4096 :=
  ((read_delivers_iff (fileReader_gives twoBlocks) rfl rfl
    (show ReadsBlocks _ 0 2 by decide) 0 16).mpr (by decide)
      (replicate 2048 2) (fun width member => by
        rw [eq_of_mem_replicate member]
        decide) (by rw [sum_replicate]; rfl)).1

/-- With a limit of two bytes the host obtains the first two bytes of the block, and then
    the drive requests nothing more. -/
theorem limited_read_is_cut :
    (drain (replicate 1024 2)
        ((new (fileReader twoBlocks) 4096).issue 2 0 [readTenPacket])).1 = [1, 2] ∧
      (drain (replicate 1024 2)
        ((new (fileReader twoBlocks) 4096).issue 2 0 [readTenPacket])).2.drq = false ∧
      (twoBlocks.read 0 2048).take 4 = [1, 2, 3, 4] := by
  have front (n : Nat) (inside : 0 + n ≤ 2048) :
      (twoBlocks.read 0 2048).take n = twoBlocks.read 0 n := part_read (k := 0) inside
  have offers := issue_offers (fileReader_gives twoBlocks) (c := new (fileReader twoBlocks) 4096) rfl
    (show [readTenPacket].flatten.length = 12 from rfl) (show ReadsBlocks _ 0 1 by decide) 2 0
  have offered : (twoBlocks.read (0 * atapiSectorSize) (1 * atapiSectorSize)).take (limitOf 2 0) =
      [1, 2] := (front 2 (by omega)).trans (by decide)
  rw [offered] at offers
  obtain ⟨obtained, idle⟩ := Offers.drain [2] (replicate 1023 2) (by decide) offers rfl
  exact ⟨obtained, idle, (front 4 (by omega)).trans (by decide)⟩

end ATAPICDROM

end Gokvm.Iodev
