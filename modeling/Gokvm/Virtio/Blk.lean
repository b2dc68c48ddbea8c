import Gokvm.Virtio.Queue

/-! # The block device

A batch of requests is taken from the available ring: every chain is checked and copied, then the
requests are carried out in order and returned through the used ring: to a driver that negotiated
flushing as soon as each is done, to any other after one sync for the batch.

The image and the interrupt line are outside and answer as they like. The log records what
happened, newest first; nothing in the device reads it.
-/

namespace Gokvm.Virtio

open Lib List

/-- What the device calls: each operation says whether it succeeded; a read also what it left in the
    buffer. -/
structure Outside (ι : Type) where
  readAt : ι → Bytes → UInt64 → (Bytes × Bool) × ι
  writeAt : ι → Bytes → UInt64 → Bool × ι
  sync : ι → Bool × ι
  close : ι → Bool × ι
  interrupt : ι → Bool × ι

/-- A request copied from guest memory. `seq` numbers it for the log; status byte and data are
    places in guest memory. -/
structure Pending where
  seq : Nat
  id : Nat
  length : UInt32
  status : Nat
  data : Nat × Nat
  offset : UInt64
  result : UInt8
  write : Bool
  flush : Bool
deriving DecidableEq

def Pending.initial (seq id : Nat) : Pending where
  seq := seq
  id := id
  length := 0
  status := 0
  data := (0, 0)
  offset := 0
  result := 0
  write := false
  flush := false

inductive BlkEvent where
  | read (seq : Nat) (ok : Bool)
  | wrote (seq : Nat) (ok : Bool)
  | synced (ok : Bool)
  | status (seq addr : Nat) (result : UInt8)
  /-- The used index moved: the requests returned, and the heads the driver finds. -/
  | visible (writeback : Bool) (requests : List Pending) (found : List Nat)
  | closed (ok : Bool)
deriving DecidableEq

inductive BlkError where
  | closedPipe
  | vqNotInit
  | noTxPacket
  | blkDesc
  | interrupt
deriving DecidableEq

structure Blk (ι : Type) where
  mem : Store
  queue : Option SplitQueue
  lastAvailIdx : UInt16
  capacity : UInt64
  readOnly : Bool
  /-- What the transport says the driver accepted. -/
  negotiatedFeatures : UInt64
  dirty : Bool
  /-- The answer of `Close`, once it was called. -/
  closeOk : Option Bool
  outside : ι
  served : Nat
  log : List BlkEvent

/-- What holds of every returned request and the log when it became visible. -/
def AtReturn (P : Bool → Pending → List BlkEvent → Prop) (log : List BlkEvent) : Prop :=
  ∀ later writeback requests found earlier,
    log = later ++ .visible writeback requests found :: earlier → ∀ c ∈ requests, P writeback c earlier

theorem atReturn_nil {P : Bool → Pending → List BlkEvent → Prop} : AtReturn P [] := by
  intro later writeback requests found earlier split
  cases later <;> cases split

theorem AtReturn.cons {P : Bool → Pending → List BlkEvent → Prop} {log : List BlkEvent}
    (before : AtReturn P log) {event : BlkEvent}
    (now : ∀ writeback requests found, event = .visible writeback requests found →
      ∀ c ∈ requests, P writeback c log) : AtReturn P (event :: log) := by
  intro later writeback requests found earlier split
  cases later with
  | nil =>
    cases split
    exact now writeback requests found rfl
  | cons first later =>
    cases split
    exact before later writeback requests found earlier rfl

/-- Storing status bytes changes nothing about writes and syncs. -/
def Quiet (extra : List BlkEvent) : Prop :=
  ∀ event ∈ extra, ∃ seq addr result, event = .status seq addr result

def sectorSize : UInt64 := 512

def blkFeatureFlush : UInt64 := 512

namespace Blk

variable {ι : Type} (out : Outside ι)

def note (v : Blk ι) (event : BlkEvent) : Blk ι := { v with log := event :: v.log }

def writeback (v : Blk ι) : Bool := v.negotiatedFeatures &&& blkFeatureFlush ≠ 0

/-! ## Copying a request -/

def header (v : Blk ι) (writeback : Bool) (addr : Nat) (c : Pending) : Pending :=
  let typ := loadU32 v.mem addr
  let sector := UInt64.ofNat (loadU64 v.mem (addr + 8))
  let c := { c with write := typ = 1, flush := typ = 4 && writeback }
  let c := if sector > v.capacity then { c with result := 1 }
    else { c with offset := sector * sectorSize }
  if typ ≠ 0 ∧ typ ≠ 1 ∧ c.flush = false then { c with result := 2 } else c

/-- What the descriptor in position `j` adds to a request. -/
def describe (v : Blk ι) (writeback : Bool) (j : Nat) (desc : SplitDesc) (c : Pending) : Pending :=
  let c := { c with length := c.length + UInt32.ofNat desc.len }
  if j = 0 then v.header writeback desc.addr c
  else if c.result ≠ 2 ∧ c.flush = false ∧ j = 1 then { c with data := (desc.addr, desc.len) }
  else c

/-- Requests without data end where the chain does, the others at the third descriptor. -/
def isLast (j : Nat) (desc : SplitDesc) (c : Pending) : Bool :=
  if c.result = 2 ∨ c.flush then desc.flags &&& descFNext = 0 else j = 2

/-- The loop over a chain. Leaving it without a status byte is an error as well. -/
def snapshotChain (v : Blk ι) (q : SplitQueue) (size : Nat) (writeback : Bool) :
    (left j descID : Nat) → (seen : List Nat) → Pending → Except BlkError Pending
  | 0, _, _, _, _ => .error .blkDesc
  | left + 1, j, descID, seen, c =>
    if size ≤ descID ∨ descID ∈ seen then .error .blkDesc
    else
      let desc := q.descAt v.mem descID
      if validRange v.mem desc.addr desc.len = false ∨ (j = 0 ∧ desc.len < 16) then .error .blkDesc
      else
        let c := v.describe writeback j desc c
        if isLast j desc c then
          if j = 0 ∨ desc.len = 0 ∨
              ((c.result = 2 ∨ c.flush) ∧ desc.flags &&& descFWrite = 0) then .error .blkDesc
          else .ok { c with status := desc.addr, length := if c.flush then 1 else c.length }
        else snapshotChain v q size writeback left (j + 1) desc.next (descID :: seen) c

def snapshotRequest (v : Blk ι) (q : SplitQueue) (size seq descID : Nat) (writeback : Bool) :
    Except BlkError Pending :=
  match v.snapshotChain q size writeback size 0 descID [] (.initial seq descID) with
  | .error err => .error err
  | .ok c =>
    let capacityBytes := v.capacity * sectorSize
    if c.result = 0 ∧ c.flush = false ∧
        (c.offset > capacityBytes ∨ UInt64.ofNat c.data.2 > capacityBytes - c.offset) then
      .ok { c with result := 1 }
    else .ok c

/-- The head in the `i`-th waiting slot of the available ring. -/
def waitingHead (v : Blk ι) (q : SplitQueue) (size i : Nat) : Nat :=
  q.availRing v.mem ((v.lastAvailIdx + UInt16.ofNat i).toNat % size)

/-- All chains of a batch, from the `i`-th on; the first bad one ends it. -/
def snapshotBatch (v : Blk ι) (q : SplitQueue) (size : Nat) (writeback : Bool) :
    (left i : Nat) → Except BlkError (List Pending)
  | 0, _ => .ok []
  | left + 1, i =>
    match v.snapshotRequest q size (v.served + i) (v.waitingHead q size i) writeback with
    | .error err => .error err
    | .ok c => match snapshotBatch v q size writeback left (i + 1) with
      | .error err => .error err
      | .ok rest => .ok (c :: rest)

/-- What every copied request keeps, and what its header decides. -/
structure Copied (seq id : Nat) (c : Pending) : Prop where
  seq : c.seq = seq
  id : c.id = id
  exclusive : c.write = true → c.flush = false

variable {seq id size : Nat} {c : Pending} {v : Blk ι} {q : SplitQueue} {writeback : Bool}

theorem header_copied (v : Blk ι) (writeback : Bool) (addr : Nat) (copied : Copied seq id c) : Copied seq id (v.header writeback addr c) := by
  have kept : (v.header writeback addr c).seq = c.seq ∧ (v.header writeback addr c).id = c.id ∧
      (v.header writeback addr c).write = decide (loadU32 v.mem addr = 1) ∧
      (v.header writeback addr c).flush = (decide (loadU32 v.mem addr = 4) && writeback) := by
    by_cases past : UInt64.ofNat (loadU64 v.mem (addr + 8)) > v.capacity
    · simp only [header, if_pos past]
      split <;> exact ⟨rfl, rfl, rfl, rfl⟩
    · simp only [header, if_neg past]
      split <;> exact ⟨rfl, rfl, rfl, rfl⟩
  obtain ⟨seqKept, idKept, write, flush⟩ := kept
  refine { seq := seqKept.trans copied.seq, id := idKept.trans copied.id, exclusive := ?_ }
  intro isWrite
  have typ : loadU32 v.mem addr = 1 := by simpa [write] using isWrite
  rw [flush, typ]
  rfl

theorem describe_copied (v : Blk ι) (writeback : Bool) (j : Nat) (desc : SplitDesc) (copied : Copied seq id c) : Copied seq id (v.describe writeback j desc c) := by
  have longer : Copied seq id { c with length := c.length + UInt32.ofNat desc.len } :=
    { copied with }
  simp only [describe]
  split
  · exact v.header_copied writeback desc.addr longer
  split
  · exact { copied with }
  · exact longer

theorem snapshotChain_copied {final : Pending} (left : Nat) :
    ∀ (j descID : Nat) (seen : List Nat) (c : Pending), Copied seq id c →
      v.snapshotChain q size writeback left j descID seen c = .ok final → Copied seq id final := by
  induction left with
  | zero =>
    exact nofun
  | succ left ih =>
    intro j descID seen c copied done
    have described := v.describe_copied writeback j (q.descAt v.mem descID) copied
    simp only [snapshotChain] at done
    split at done
    · cases done
    split at done
    · cases done
    split at done
    · split at done
      · cases done
      · cases done
        exact { described with }
    · exact ih _ _ _ _ described done

theorem snapshotRequest_copied {descID : Nat} (copied : v.snapshotRequest q size seq descID writeback = .ok c) :
    Copied seq descID c := by
  unfold snapshotRequest at copied
  have start : Copied seq descID (.initial seq descID) :=
    { seq := rfl, id := rfl, exclusive := nofun }
  cases chain : v.snapshotChain q size writeback size 0 descID [] (.initial seq descID) with
  | error err =>
    rw [chain] at copied
    cases copied
  | ok final =>
    rw [chain] at copied
    have kept := snapshotChain_copied size 0 descID [] _ start chain
    simp only at copied
    split at copied
    · cases copied
      exact { kept with }
    · cases copied
      exact kept

/-- A batch has the heads of the available ring, numbered in order. -/
theorem snapshotBatch_copied (left : Nat) :
    ∀ (i : Nat) (cs : List Pending), v.snapshotBatch q size writeback left i = .ok cs →
      cs.map Pending.seq = range' (v.served + i) left ∧
      cs.map Pending.id = (range' i left).map (v.waitingHead q size) ∧
      ∀ c ∈ cs, c.write = true → c.flush = false := by
  induction left with
  | zero =>
    intro i cs done
    cases done
    exact ⟨rfl, rfl, fun _ member => (not_mem_nil member).elim⟩
  | succ left ih =>
    intro i cs done
    simp only [snapshotBatch] at done
    split at done
    · cases done
    next c copied =>
      split at done
      · cases done
      next rest later =>
        cases done
        obtain ⟨seqs, ids, exclusive⟩ := ih (i + 1) rest later
        have first := snapshotRequest_copied copied
        refine ⟨?_, ?_, ?_⟩
        · rw [map_cons, first.seq, seqs, range'_succ, Nat.add_assoc]
        · rw [map_cons, first.id, ids, range'_succ, map_cons]
        · intro other member
          cases mem_cons.mp member with
          | inl same => exact same ▸ first.exclusive
          | inr tail => exact exclusive other tail

/-! ## Carrying out a request -/

def syncImage (v : Blk ι) : Bool × Blk ι :=
  let (ok, outside) := out.sync v.outside
  let v := { v with outside }.note (.synced ok)
  (ok, if ok then { v with dirty := false } else v)

/-- The device is dirty before the write: a failed one can still have changed data. -/
def writeImage (v : Blk ι) (c : Pending) : Bool × Blk ι :=
  let (ok, outside) := out.writeAt v.outside (v.mem.read c.data.1 c.data.2) c.offset
  (ok, { v with dirty := true, outside }.note (.wrote c.seq ok))

def readImage (v : Blk ι) (c : Pending) : Bool × Blk ι :=
  let ((bytes, ok), outside) := out.readAt v.outside (v.mem.read c.data.1 c.data.2) c.offset
  (ok, { v with mem := v.mem.write c.data.1 (bytes.take c.data.2), outside }.note (.read c.seq ok))

def transfer (v : Blk ι) (c : Pending) : Bool × Blk ι :=
  if c.flush then v.syncImage out
  else if c.write && v.readOnly then (false, v)
  else if c.write then v.writeImage out c
  else v.readImage out c

def perform (v : Blk ι) (c : Pending) : Pending × Blk ι :=
  if c.result = 0 then
    let (ok, v) := v.transfer out c
    (if ok then c else { c with result := 1 }, v)
  else (c, v)

/-- Whether a request reaches the image as a write. -/
def writes (v : Blk ι) (c : Pending) : Bool :=
  c.result = 0 && !c.flush && c.write && !v.readOnly

/-! ## Returning requests -/

/-- One request of the loop in `completeRequests`. -/
def completeOne (q : SplitQueue) (size usedIdx : Nat) (v : Blk ι) (i : Nat) (c : Pending) : Blk ι :=
  let mem := v.mem.write c.status [c.result]
  let mem := q.setUsedRing mem ((usedIdx + i) % 2 ^ 16 % size) c.id c.length.toNat
  { v with mem }.note (.status c.seq c.status c.result)

def completeAll (q : SplitQueue) (size usedIdx : Nat) : Nat → List Pending → Blk ι → Blk ι
  | _, [], v => v
  | i, c :: rest, v => completeAll q size usedIdx (i + 1) rest (v.completeOne q size usedIdx i c)

/-- Returning requests stores their status bytes and touches nothing else of the log. -/
theorem completeAll_spec (q : SplitQueue) (size usedIdx : Nat) (cs : List Pending) :
    ∀ (i : Nat) (v : Blk ι), ∃ extra, Quiet extra ∧
      (∀ c ∈ cs, .status c.seq c.status c.result ∈ extra) ∧
      completeAll q size usedIdx i cs v =
        { v with mem := (completeAll q size usedIdx i cs v).mem, log := extra ++ v.log } := by
  induction cs with
  | nil => exact fun i v => ⟨[], nofun, nofun, rfl⟩
  | cons c rest ih =>
    intro i v
    obtain ⟨extra, quiet, stored, shape⟩ := ih (i + 1) (v.completeOne q size usedIdx i c)
    refine ⟨extra ++ [.status c.seq c.status c.result], ?_, ?_, ?_⟩
    · intro event member
      cases mem_append.mp member with
      | inl later => exact quiet event later
      | inr first => exact ⟨_, _, _, mem_singleton.mp first⟩
    · refine forall_mem_cons.mpr ⟨mem_append_right _ mem_cons_self, ?_⟩
      exact fun other member => mem_append_left _ (stored other member)
    · rw [completeAll, shape]
      simp only [completeOne, note, append_assoc, singleton_append]

/-- The heads in the part of the used ring that the index moves over. -/
def foundHeads (v : Blk ι) (q : SplitQueue) (size usedIdx count : Nat) : List Nat :=
  (range count).map fun i => (q.usedRing v.mem ((usedIdx + i) % 2 ^ 16 % size)).1

def completeRequests (v : Blk ι) (q : SplitQueue) (size : Nat) (pending : List Pending) :
    Option BlkError × Blk ι :=
  let usedIdx := q.usedIdx v.mem
  let v := completeAll q size usedIdx 0 pending v
  let found := v.foundHeads q size usedIdx pending.length
  let v := { v with
    mem := q.setUsedIdx v.mem (q.usedIdx v.mem + pending.length)
    lastAvailIdx := v.lastAvailIdx + UInt16.ofNat pending.length
    served := v.served + pending.length }.note (.visible v.writeback pending found)
  let (ok, outside) := out.interrupt v.outside
  (if ok then none else some .interrupt, { v with outside })

/-- The loop over a batch: the requests with results, whether one was a write, the first failed
    interrupt, the device. -/
def serve (q : SplitQueue) (size : Nat) (writeback : Bool) :
    List Pending → Blk ι → List Pending × Bool × Option BlkError × Blk ι
  | [], v => ([], false, none, v)
  | c :: rest, v =>
    let wrote := v.writes c
    let (c, v) := v.perform out c
    let (err, v) := if writeback then v.completeRequests out q size [c] else (none, v)
    let (cs, needsSync, later, v) := serve q size writeback rest v
    (c :: cs, wrote || needsSync, err <|> later, v)

def failWrites (pending : List Pending) : List Pending :=
  pending.map fun c => if c.write then { c with result := 1 } else c

theorem map_failWrites {α : Type} {f : Pending → α} (blind : ∀ c, f { c with result := 1 } = f c)
    (cs : List Pending) : (failWrites cs).map f = cs.map f := by
  unfold failWrites
  rw [map_map]
  apply map_congr_left
  intro c _
  simp only [Function.comp]
  split
  · exact blind c
  · rfl

/-- After the loop, for a driver that did not negotiate flushing. -/
def settle (q : SplitQueue) (size : Nat) (pending : List Pending) (needsSync : Bool) (v : Blk ι) :
    Option BlkError × Blk ι :=
  if needsSync then
    let (ok, v) := v.syncImage out
    v.completeRequests out q size (if ok then pending else failWrites pending)
  else v.completeRequests out q size pending

/-! ## Calls -/

/-- The ring size in use; zero stands for the largest. -/
def ringSize (q : SplitQueue) : Nat := if q.size ≠ 0 ∧ q.size ≤ queueSize then q.size else queueSize

theorem ringSize_pos (q : SplitQueue) : 0 < ringSize q := by
  unfold ringSize queueSize
  split <;> omega

theorem ringSize_le (q : SplitQueue) : ringSize q ≤ queueSize := by
  unfold ringSize
  split <;> omega

theorem ringSize_dvd (sized : ∃ e, e ≤ 5 ∧ q.size = 2 ^ e) :
    ringSize q ∣ 2 ^ 16 := by
  obtain ⟨e, small, size⟩ := sized
  have bound : 2 ^ e ≤ 32 := Nat.pow_le_pow_right (by decide) small
  have fits : q.size ≠ 0 ∧ q.size ≤ queueSize := by
    rw [size]
    exact ⟨by positivity, bound⟩
  rw [ringSize, if_pos fits, size]
  exact Nat.pow_dvd_pow 2 (by omega)

/-- How many chains wait in the available ring. -/
def available (v : Blk ι) (q : SplitQueue) : Nat :=
  (UInt16.ofNat (q.availIdx v.mem) - v.lastAvailIdx).toNat

def io (v : Blk ι) : Option BlkError × Blk ι :=
  if v.closeOk.isSome then (some .closedPipe, v)
  else match v.queue with
    | none => (some .vqNotInit, v)
    | some q =>
      let size := ringSize q
      let count := v.available q
      if count = 0 then (some .noTxPacket, v)
      else if size < count then (some .blkDesc, v)
      else match v.snapshotBatch q size v.writeback count 0 with
        | .error err => (some err, v)
        | .ok pending =>
          let (cs, needsSync, interruptErr, served) := serve out q size v.writeback pending v
          if v.writeback then (interruptErr, served)
          else settle out q size cs needsSync served

/-- Why a call fails before anything was done. -/
def Refuses (v : Blk ι) (err : BlkError) : Prop :=
  match v.closeOk, v.queue with
  | some _, _ => err = .closedPipe
  | none, none => err = .vqNotInit
  | none, some q =>
    (v.available q = 0 ∧ err = .noTxPacket) ∨ (ringSize q < v.available q ∧ err = .blkDesc) ∨
      v.snapshotBatch q (ringSize q) v.writeback (v.available q) 0 = .error err

/-- A call either fails with the device as it was, or serves a batch that was copied whole. -/
theorem io_cases (v : Blk ι) :
    (∃ err, v.Refuses err ∧ v.io out = (some err, v)) ∨
      ∃ q pending, v.closeOk = none ∧ v.queue = some q ∧ v.available q ≤ ringSize q ∧
        v.snapshotBatch q (ringSize q) v.writeback (v.available q) 0 = .ok pending ∧
        v.io out =
          let (cs, needsSync, interruptErr, served) := serve out q (ringSize q) v.writeback pending v
          if v.writeback then (interruptErr, served)
          else settle out q (ringSize q) cs needsSync served := by
  unfold io Refuses
  cases closed : v.closeOk with
  | some ok => exact Or.inl ⟨_, rfl, rfl⟩
  | none =>
    cases queue : v.queue with
    | none => exact Or.inl ⟨_, rfl, rfl⟩
    | some q =>
      by_cases nothing : v.available q = 0
      · exact Or.inl ⟨.noTxPacket, Or.inl ⟨nothing, rfl⟩, by simp [nothing]⟩
      by_cases many : ringSize q < v.available q
      · exact Or.inl ⟨.blkDesc, Or.inr (Or.inl ⟨many, rfl⟩), by simp [nothing, many]⟩
      cases copied : v.snapshotBatch q (ringSize q) v.writeback (v.available q) 0 with
      | error err =>
        exact Or.inl ⟨err, Or.inr (Or.inr copied), by simp [nothing, many, copied]⟩
      | ok pending =>
        refine Or.inr ⟨q, pending, rfl, rfl, Nat.le_of_not_lt many, copied, ?_⟩
        simp only [Option.isSome_none, Bool.false_eq_true, if_false, nothing, many, copied]

def queueReady (v : Blk ι) (q : SplitQueue) : Blk ι := { v with queue := some q, lastAvailIdx := 0 }

def reset (v : Blk ι) : Blk ι := { v with queue := none, lastAvailIdx := 0 }

/-- `Close`: whether it reports no error. -/
def close (v : Blk ι) : Bool × Blk ι :=
  match v.closeOk with
  | some ok => (ok, v)
  | none =>
    let (synced, v) := if v.dirty then v.syncImage out else (true, v)
    let (closed, outside) := out.close v.outside
    (synced && closed, { v with outside, closeOk := some (synced && closed) }.note (.closed closed))

end Blk

end Gokvm.Virtio
