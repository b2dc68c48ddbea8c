import Gokvm.Virtio.BlkRing

/-! # A driver and its block device

A driver puts heads into the available ring and finds them in the used ring when the
requests are done. Both rings are places in guest memory, and their indices are
16-bit counters: the invariant relates them to the list of all heads published.
-/

namespace Gokvm.Virtio

open Lib List Nat Blk

/-! ## Publications -/

/-- What a driver does to publish heads: it puts them behind those there and moves the index; it
    leaves the used ring, and the rest of memory is its own. -/
structure Publishes (q : SplitQueue) (size : Nat) (heads : List Nat) (mem mem' : Store) : Prop where
  used : mem'.read (q.used + 2) (2 + 8 * size) = mem.read (q.used + 2) (2 + 8 * size)
  idx : q.availIdx mem' = (q.availIdx mem + heads.length) % 2 ^ 16
  placed : window (q.availRing mem') size (q.availIdx mem) heads.length = heads
  others : ∀ slot, slot < size →
    (∀ i, i < heads.length → slot ≠ (q.availIdx mem + i) % size) →
      q.availRing mem' slot = q.availRing mem slot

instance (q : SplitQueue) (size : Nat) (heads : List Nat) (mem mem' : Store) :
    Decidable (Publishes q size heads mem mem') :=
  decidable_of_iff
    (mem'.read (q.used + 2) (2 + 8 * size) = mem.read (q.used + 2) (2 + 8 * size) ∧
      q.availIdx mem' = (q.availIdx mem + heads.length) % 2 ^ 16 ∧
      window (q.availRing mem') size (q.availIdx mem) heads.length = heads ∧
      ∀ slot, slot < size → (∀ i, i < heads.length → slot ≠ (q.availIdx mem + i) % size) →
        q.availRing mem' slot = q.availRing mem slot)
    ⟨fun h => ⟨h.1, h.2.1, h.2.2.1, h.2.2.2⟩, fun h => ⟨h.used, h.idx, h.placed, h.others⟩⟩

theorem Publishes.usedIdx {q : SplitQueue} {size : Nat} {heads : List Nat} {mem mem' : Store}
    (publishes : Publishes q size heads mem mem') : q.usedIdx mem' = q.usedIdx mem := by
  have after : part (mem'.read (q.used + 2) (2 + 8 * size)) 0 2 = mem'.read (q.used + 2) 2 :=
    Store.part_read (by omega)
  have before : part (mem.read (q.used + 2) (2 + 8 * size)) 0 2 = mem.read (q.used + 2) 2 :=
    Store.part_read (by omega)
  unfold SplitQueue.usedIdx loadU16
  rw [← after, publishes.used, before]

/-! ## Drivers -/

inductive RingAction where
  | publish (mem : Store) (heads : List Nat)
  | io
  | negotiate (features : UInt64)

/-- A device with all heads that were published to it. -/
structure Ring (ι : Type) where
  dev : Blk ι
  published : List Nat

namespace Ring

variable {ι : Type} (out : Outside ι)

def act (s : Ring ι) : RingAction → Ring ι
  | .publish mem heads => { dev := { s.dev with mem }, published := s.published ++ heads }
  | .io => { s with dev := (s.dev.io out).2 }
  | .negotiate features => { s with dev := { s.dev with negotiatedFeatures := features } }

def found (s : Ring ι) : List Nat := foundAll s.dev.log

/-- A driver keeps at most as many requests outstanding as there are entries. -/
def Contract (q : SplitQueue) (s : Ring ι) : RingAction → Prop
  | .publish mem heads =>
    s.published.length + heads.length ≤ s.found.length + ringSize q ∧
      Publishes q (ringSize q) heads s.dev.mem mem
  | .io => True
  | .negotiate _ => True

/-- The buffers that a call writes lie outside the rings. -/
def BuffersApart (q : SplitQueue) (s : Ring ι) : RingAction → Prop
  | .io => ∀ pending,
      s.dev.snapshotBatch q (ringSize q) s.dev.writeback (s.dev.available q) 0 = .ok pending →
        ∀ c ∈ pending, Blk.Apart q (ringSize q) c
  | .publish _ _ => True
  | .negotiate _ => True

/-- A property of every step of a run. -/
def Along (P : Ring ι → RingAction → Prop) : Ring ι → List RingAction → Prop
  | _, [] => True
  | s, action :: rest => P s action ∧ Along P (s.act out action) rest

def run (s : Ring ι) (actions : List RingAction) : Ring ι := actions.foldl (act out) s

/-- A queue that was just set up: nothing is waiting and nothing was returned. -/
structure Idle (q : SplitQueue) (s : Ring ι) : Prop where
  queue : s.dev.queue = some q
  closeOk : s.dev.closeOk = none
  idx : q.availIdx s.dev.mem = s.dev.lastAvailIdx.toNat
  log : s.dev.log = []
  published : s.published = []

/-! ## Runs -/

/-- How the rings of a queue relate to the heads published since its start. -/
structure Linked (q : SplitQueue) (start s : Ring ι) : Prop where
  queue : s.dev.queue = some q
  closeOk : s.dev.closeOk = none
  found : s.found = s.published.take s.found.length
  room : s.published.length ≤ s.found.length + ringSize q
  last : s.dev.lastAvailIdx = start.dev.lastAvailIdx + UInt16.ofNat s.found.length
  used : q.usedIdx s.dev.mem = (q.usedIdx start.dev.mem + s.found.length) % 2 ^ 16
  idx : q.availIdx s.dev.mem = (start.dev.lastAvailIdx.toNat + s.published.length) % 2 ^ 16
  slots : ∀ i, s.found.length ≤ i → i < s.published.length →
    s.published[i]? =
      some (q.availRing s.dev.mem ((start.dev.lastAvailIdx.toNat + i) % ringSize q))
  stored : AtReturn Blk.StatusStored s.dev.log

variable {q : SplitQueue} {s start : Ring ι}

theorem Idle.linked (idle : Idle q s) : Linked q s s := by
  have nothing : s.found = [] := by
    unfold found
    rw [idle.log]
    rfl
  exact
    { idle with
      found := by simp [nothing]
      room := by simp [idle.published]
      last := by simp [nothing]
      used := by
        rw [nothing, length_nil, add_zero]
        exact (mod_eq_of_lt (usedIdx_lt q s.dev.mem)).symm
      idx := by
        rw [idle.published, length_nil, add_zero, idle.idx]
        exact (mod_eq_of_lt s.dev.lastAvailIdx.toNat_lt).symm
      slots := by
        intro i _ inside
        rw [idle.published, length_nil] at inside
        omega
      stored := by
        rw [idle.log]
        exact atReturn_nil }

section

variable (linked : Linked q start s)
include linked

theorem Linked.short : s.found.length ≤ s.published.length := by
  rw [linked.found, length_take]
  omega

variable (divides : ringSize q ∣ 2 ^ 16)
include divides

theorem Linked.publish {mem : Store} {heads : List Nat}
    (room : s.published.length + heads.length ≤ s.found.length + ringSize q)
    (publishes : Publishes q (ringSize q) heads s.dev.mem mem) :
    Linked q start { dev := { s.dev with mem }, published := s.published ++ heads } := by
  have idx := linked.idx
  -- the driver's next slot, counted from the start
  have slot (i : Nat) : (q.availIdx s.dev.mem + i) % ringSize q =
      (start.dev.lastAvailIdx.toNat + (s.published.length + i)) % ringSize q := by
    rw [idx, ← mod_add_mod, slot_eq divides, mod_add_mod, add_assoc]
  have short := linked.short
  refine { linked with found := ?_, room := ?_, used := ?_, idx := ?_, slots := ?_ }
  · exact linked.found.trans (take_append_of_le_length short).symm
  · exact (length_append ▸ room : (s.published ++ heads).length ≤ _)
  · exact publishes.usedIdx.trans linked.used
  · rw [publishes.idx, idx, length_append]
    omega
  · intro i later high
    have low : s.found.length ≤ i := later
    simp only [length_append] at high
    by_cases old : i < s.published.length
    · rw [getElem?_append_left old, linked.slots i low old]
      congr 1
      refine (publishes.others _ (mod_lt _ ?_) ?_).symm
      · exact pos_of_dvd_of_pos divides (by decide)
      · intro j inside same
        rw [slot j] at same
        have equal : i = s.published.length + j := cell_injective (by omega) (by omega) same
        omega
    · obtain ⟨j, rfl⟩ : ∃ j, i = s.published.length + j := ⟨i - s.published.length, by omega⟩
      rw [List.getElem?_append_right (by omega), Nat.add_sub_cancel_left]
      have placed := congrArg (fun list => list[j]?) publishes.placed
      simp only [window_getElem?] at placed
      rw [← placed, if_pos (by omega), slot j]

/-- The heads that wait are those published and not yet found. -/
theorem Linked.waiting :
    s.dev.available q = s.published.length - s.found.length ∧
      s.dev.waiting q (ringSize q) (s.dev.available q) = s.published.drop s.found.length := by
  have short := linked.short
  have positive : 0 < ringSize q := ringSize_pos q
  have small : ringSize q ≤ 32 := ringSize_le q
  have room := linked.room
  have count : s.dev.available q = s.published.length - s.found.length := by
    unfold available
    rw [linked.idx, linked.last, UInt16.toNat_sub, UInt16.toNat_add, UInt16.toNat_ofNat',
      UInt16.toNat_ofNat']
    omega
  refine ⟨count, ?_⟩
  rw [count]
  apply ext_getElem?
  intro i
  rw [getElem?_drop]
  by_cases inside : i < s.published.length - s.found.length
  · rw [linked.slots _ (by omega) (by omega)]
    simp only [Blk.waiting, List.getElem?_map, List.getElem?_range inside, Option.map_some,
      waitingHead]
    congr 2
    rw [linked.last, UInt16.toNat_add, UInt16.toNat_add, UInt16.toNat_ofNat', UInt16.toNat_ofNat',
      slot_eq divides, ← slot_eq divides (start.dev.lastAvailIdx.toNat + _),
      ← slot_eq divides (_ + i % 2 ^ 16)]
    congr 1
    omega
  · have beyond : (s.dev.waiting q (ringSize q) (s.published.length - s.found.length))[i]? = none := by
      apply getElem?_eq_none
      rw [Blk.waiting, length_map, length_range]
      omega
    rw [beyond, getElem?_eq_none (by omega)]

theorem Linked.io (apart : RingsApart q (ringSize q)) (clear : BuffersApart q s .io) :
    Linked q start (s.act out .io) ∧
      ((∀ i, i < s.dev.available q → ¬ s.dev.Malformed q i) → (s.act out .io).found = s.published) := by
  obtain ⟨count, heads⟩ := linked.waiting divides
  have short := linked.short
  rcases s.dev.io_advanced out divides apart linked.queue clear with ⟨err, refuses, refused⟩ | advanced
  · have same : s.act out .io = s := by
      simp only [act, refused]
    rw [same]
    refine ⟨linked, fun wellFormed => ?_⟩
    simp only [Blk.Refuses, linked.closeOk, linked.queue] at refuses
    rcases refuses with ⟨none, _⟩ | ⟨many, _⟩ | failed
    · rw [linked.found, take_of_length_le (by omega)]
    · have room := linked.room
      omega
    · obtain ⟨j, inside, malformed⟩ := malformed_of_snapshotBatch _ 0 failed
      exact absurd malformed (wellFormed j (by omega))
  · rw [heads] at advanced
    have all : (s.act out .io).found = s.published := by
      have joined := take_append_drop s.found.length s.published
      rw [← linked.found] at joined
      exact advanced.found.trans joined
    have added : (s.published.drop s.found.length).length = s.published.length - s.found.length :=
      length_drop
    refine ⟨?_, fun _ => all⟩
    refine
      { queue := advanced.queue.trans linked.queue, closeOk := advanced.closeOk.trans linked.closeOk
        found := ?_, room := ?_, last := ?_, used := ?_, idx := ?_, slots := ?_
        stored := advanced.stored linked.stored }
    · rw [all]
      exact (take_length).symm
    · rw [all]
      exact le_add_right _ _
    · rw [all]
      simp only [act]
      rw [advanced.last, linked.last, added, UInt16.add_assoc, ← UInt16.ofNat_add]
      congr 2
      omega
    · rw [all]
      simp only [act]
      rw [advanced.used, linked.used, added]
      omega
    · simp only [act]
      rw [advanced.avail.idx, linked.idx]
    · intro i low high
      rw [all] at low
      simp only [act] at high
      omega

end

theorem Linked.run (divides : ringSize q ∣ 2 ^ 16) (apart : RingsApart q (ringSize q))
    (actions : List RingAction) :
    ∀ {s : Ring ι}, Linked q start s → Along out (Contract q) s actions →
      Along out (BuffersApart q) s actions → Linked q start (s.run out actions) := by
  induction actions with
  | nil => exact fun linked _ _ => linked
  | cons action rest ih =>
    intro s linked contract clear
    refine ih ?_ contract.2 clear.2
    cases action with
    | publish mem heads => exact linked.publish divides contract.1.1 contract.1.2
    | io => exact (linked.io out divides apart clear.1).1
    | negotiate features => exact { linked with }

/-- For every run of a driver and a device on a queue: the heads found in the used ring are those
    published, in order; both indices moved by their number; status bytes were stored before
    requests became visible; a call returns all waiting heads, or nothing if a chain is malformed.
    -/
structure Delivered (q : SplitQueue) (start s : Ring ι) : Prop where
  inOrder : s.found = s.published.take s.found.length
  usedIdx : q.usedIdx s.dev.mem = (q.usedIdx start.dev.mem + s.found.length) % 2 ^ 16
  lastAvailIdx : s.dev.lastAvailIdx = start.dev.lastAvailIdx + UInt16.ofNat s.found.length
  statusFirst : AtReturn Blk.StatusStored s.dev.log
  complete : BuffersApart q s .io → (∀ i, i < s.dev.available q → ¬ s.dev.Malformed q i) →
    (s.act out .io).found = s.published
  malformed : ∀ i, i < s.dev.available q → s.dev.Malformed q i →
    s.dev.io out = (some .blkDesc, s.dev)

theorem rings_deliver_in_order (q : SplitQueue) (sized : ∃ e, e ≤ 5 ∧ q.size = 2 ^ e)
    (apart : RingsApart q (ringSize q)) (start : Ring ι) (idle : Idle q start)
    (actions : List RingAction) (contract : Along out (Contract q) start actions)
    (clear : Along out (BuffersApart q) start actions) :
    Delivered out q start (start.run out actions) := by
  have divides : ringSize q ∣ 2 ^ 16 := ringSize_dvd sized
  have linked := Linked.run out divides apart actions idle.linked contract clear
  exact
    { inOrder := linked.found
      usedIdx := linked.used
      lastAvailIdx := linked.last
      statusFirst := linked.stored
      complete := fun buffers => (linked.io out divides apart buffers).2
      malformed := fun i waits bad => io_malformed out linked.queue linked.closeOk waits bad }

/-! ## Two requests -/

def obliging : Outside Unit where
  readAt _ buffer _ := ((buffer, true), ())
  writeAt _ _ _ := (true, ())
  sync _ := (true, ())
  close _ := (true, ())
  interrupt _ := (true, ())

def smallQueue : SplitQueue := { desc := 0, avail := 512, used := 1024, size := 4 }

def smallRing : Ring Unit where
  dev :=
    { mem := Store.blank 4096, queue := some smallQueue, lastAvailIdx := 0, capacity := 8
      readOnly := false, negotiatedFeatures := 0, dirty := false, closeOk := none, outside := ()
      served := 0, log := [] }
  published := []

/-- Two chains of a header of an unsupported type and a status byte, the second one's at the given
    place. -/
def twoRequests (status : Nat) : Store :=
  (Store.blank 4096).writes
    [(0, leBytes 8 2048 ++ leBytes 4 16 ++ leBytes 2 descFNext ++ leBytes 2 1),
      (16, leBytes 8 3000 ++ leBytes 4 1 ++ leBytes 2 descFWrite ++ leBytes 2 0),
      (32, leBytes 8 2048 ++ leBytes 4 16 ++ leBytes 2 descFNext ++ leBytes 2 3),
      (48, leBytes 8 status ++ leBytes 4 1 ++ leBytes 2 descFWrite ++ leBytes 2 0),
      (514, leBytes 2 2 ++ leBytes 2 0 ++ leBytes 2 2),
      (2048, leBytes 4 8)]

def twoCalls (status : Nat) : List RingAction := [.publish (twoRequests status) [0, 2], .io]

theorem smallRing_idle : Idle smallQueue smallRing where
  queue := rfl
  closeOk := rfl
  idx := by decide
  log := rfl
  published := rfl

theorem twoCalls_apart : Along obliging (BuffersApart smallQueue) smallRing (twoCalls 3001) := by
  refine ⟨trivial, ?_, trivial⟩
  intro pending copied
  have checked : (match (smallRing.act obliging (.publish (twoRequests 3001) [0, 2])).dev.snapshotBatch
      smallQueue 4 false 2 0 with
      | .ok cs => decide (∀ c ∈ cs, Blk.Apart smallQueue 4 c)
      | .error _ => true) = true := by
    decide +kernel
  have same : (smallRing.act obliging (.publish (twoRequests 3001) [0, 2])).dev.snapshotBatch
      smallQueue 4 false 2 0 = .ok pending := copied
  rw [same] at checked
  exact of_decide_eq_true checked

/-- Apart from the rings, the two requests come back in order. -/
theorem twoCalls_deliver :
    Delivered obliging smallQueue smallRing (smallRing.run obliging (twoCalls 3001)) ∧
      (smallRing.run obliging (twoCalls 3001)).found = [0, 2] :=
  ⟨rings_deliver_in_order obliging smallQueue ⟨2, by decide, rfl⟩ (by decide +kernel) smallRing
      smallRing_idle (twoCalls 3001) ⟨⟨by decide +kernel, by decide +kernel⟩, trivial, trivial⟩ twoCalls_apart,
    by decide +kernel⟩

/-- A status byte over the first entry of the used ring: the driver keeps its part and finds
    the second head twice. -/
theorem overlaid_status_repeats_head :
    Idle smallQueue smallRing ∧ RingsApart smallQueue 4 ∧
      Along obliging (Contract smallQueue) smallRing (twoCalls 1028) ∧
      (smallRing.run obliging (twoCalls 1028)).published = [0, 2] ∧
      (smallRing.run obliging (twoCalls 1028)).found = [2, 2] :=
  ⟨smallRing_idle, by decide +kernel, ⟨⟨by decide +kernel, by decide +kernel⟩, trivial, trivial⟩, by decide +kernel,
    by decide +kernel⟩

end Ring

end Gokvm.Virtio
