import Gokvm.Lib.Ring
import Gokvm.Virtio.Blk

/-! # The rings of the block device

What a call does to the two rings: it returns the waiting heads in order and moves both
indices by their number, or it leaves everything as it was.
-/

namespace Gokvm.Virtio

open Lib List Nat

namespace Blk

variable {ι : Type} (out : Outside ι)

/-- All heads the driver found in the used ring, oldest first. -/
def foundAll : List BlkEvent → List Nat
  | [] => []
  | .visible _ _ found :: log => foundAll log ++ found
  | _ :: log => foundAll log

def StatusStored (_writeback : Bool) (c : Pending) (log : List BlkEvent) : Prop :=
  .status c.seq c.status c.result ∈ log

/-- What the device did to the rings: it returned `ids` and left the available ring alone. -/
structure Advanced (q : SplitQueue) (size : Nat) (ids : List Nat) (v w : Blk ι) : Prop where
  queue : w.queue = v.queue
  closeOk : w.closeOk = v.closeOk
  avail : SameAvail q size v.mem w.mem
  used : q.usedIdx w.mem = (q.usedIdx v.mem + ids.length) % 2 ^ 16
  last : w.lastAvailIdx = v.lastAvailIdx + UInt16.ofNat ids.length
  found : foundAll w.log = foundAll v.log ++ ids
  stored : AtReturn StatusStored v.log → AtReturn StatusStored w.log

theorem Advanced.refl (q : SplitQueue) (size : Nat) (v : Blk ι) : Advanced q size [] v v where
  queue := rfl
  closeOk := rfl
  avail := .refl q size v.mem
  used := (mod_eq_of_lt (usedIdx_lt q v.mem)).symm
  last := by simp
  found := (append_nil _).symm
  stored := id

variable {q : SplitQueue} {size : Nat} {v : Blk ι} {extra : List BlkEvent} {c : Pending}
  {cs cs' : List Pending} {err : BlkError}

theorem Advanced.trans {first second : List Nat} {u w : Blk ι} (early : Advanced q size first u v)
    (late : Advanced q size second v w) :
    Advanced q size (first ++ second) u w where
  queue := late.queue.trans early.queue
  closeOk := late.closeOk.trans early.closeOk
  avail := early.avail.trans late.avail
  used := by
    rw [late.used, early.used, length_append]
    omega
  last := by
    rw [late.last, early.last, length_append, UInt16.ofNat_add, UInt16.add_assoc]
  found := by rw [late.found, early.found, append_assoc]
  stored := fun before => late.stored (early.stored before)

/-- Events that return nothing to the driver. -/
def Unseen (extra : List BlkEvent) : Prop :=
  ∀ event ∈ extra, ∀ writeback requests found, event ≠ .visible writeback requests found

theorem unseen_singleton {event : BlkEvent}
    (unseen : ∀ writeback requests found, event ≠ .visible writeback requests found) :
    Unseen [event] := by
  intro other member
  rw [mem_singleton.mp member]
  exact unseen

theorem foundAll_unseen (unseen : Unseen extra) (log : List BlkEvent) :
    foundAll (extra ++ log) = foundAll log := by
  induction extra with
  | nil => rfl
  | cons event extra ih =>
    have rest := ih (fun other member => unseen other (mem_cons_of_mem _ member))
    have first := unseen event mem_cons_self
    cases event with
    | visible writeback requests found => exact absurd rfl (first writeback requests found)
    | read | wrote | synced | status | closed => exact rest

theorem atReturn_unseen {P : Bool → Pending → List BlkEvent → Prop} {log : List BlkEvent}
    (unseen : Unseen extra) (before : AtReturn P log) : AtReturn P (extra ++ log) := by
  induction extra with
  | nil => exact before
  | cons event extra ih =>
    apply (ih (fun other member => unseen other (mem_cons_of_mem _ member))).cons
    intro writeback requests found same
    exact absurd same (unseen event mem_cons_self writeback requests found)

theorem advanced_aside {w : Blk ι} (queue : w.queue = v.queue) (closeOk : w.closeOk = v.closeOk)
    (last : w.lastAvailIdx = v.lastAvailIdx) (avail : SameAvail q size v.mem w.mem)
    (used : q.usedIdx w.mem = q.usedIdx v.mem) (unseen : Unseen extra) (log : w.log = extra ++ v.log) :
    Advanced q size [] v w where
  queue := queue
  closeOk := closeOk
  avail := avail
  used := used.trans (mod_eq_of_lt (usedIdx_lt q v.mem)).symm
  last := by simp [last]
  found := by rw [log, foundAll_unseen unseen, append_nil]
  stored := by
    rw [log]
    exact atReturn_unseen unseen

/-! ## Carrying out a request -/

/-- The buffers of a request that the device writes lie outside the rings. -/
structure Apart (q : SplitQueue) (size : Nat) (c : Pending) : Prop where
  status : ClearOf q size c.status 1
  data : c.write = false → ClearOf q size c.data.1 c.data.2

instance (q : SplitQueue) (size : Nat) (c : Pending) : Decidable (Apart q size c) :=
  decidable_of_iff (ClearOf q size c.status 1 ∧ (c.write = false → ClearOf q size c.data.1 c.data.2))
    ⟨fun h => ⟨h.1, h.2⟩, fun h => ⟨h.status, h.data⟩⟩

theorem syncImage_advanced (q : SplitQueue) (size : Nat) (v : Blk ι) :
    Advanced q size [] v (v.syncImage out).2 := by
  unfold syncImage
  have unseen : Unseen [BlkEvent.synced (out.sync v.outside).1] := unseen_singleton nofun
  simp only [note]
  split
  · exact advanced_aside rfl rfl rfl (.refl q size v.mem) rfl unseen rfl
  · exact advanced_aside rfl rfl rfl (.refl q size v.mem) rfl unseen rfl

theorem writeImage_advanced (q : SplitQueue) (size : Nat) (v : Blk ι) (c : Pending) :
    Advanced q size [] v (v.writeImage out c).2 :=
  advanced_aside rfl rfl rfl (.refl q size v.mem) rfl
    (unseen_singleton (by nofun)) rfl

theorem readImage_advanced (v : Blk ι) (clear : ClearOf q size c.data.1 c.data.2) :
    Advanced q size [] v (v.readImage out c).2 := by
  let data := (out.readAt v.outside (v.mem.read c.data.1 c.data.2) c.offset).1.1.take c.data.2
  have short : data.length ≤ c.data.2 := length_take_le _ _
  have clearAvail : c.data.1 + data.length ≤ q.avail + 2 ∨
      q.avail + 4 + 2 * size ≤ c.data.1 := clear.1.imp_left (by omega)
  have clearUsed : c.data.1 + data.length ≤ q.used + 2 ∨
      q.used + 4 + 8 * size ≤ c.data.1 := clear.2.imp_left (by omega)
  exact advanced_aside rfl rfl rfl (sameAvail_write v.mem clearAvail)
    (sameUsed_write v.mem clearUsed).idx
    (unseen_singleton (by nofun)) rfl

theorem perform_advanced (v : Blk ι) (apart : Apart q size c) : Advanced q size [] v (v.perform out c).2 := by
  have transferred : Advanced q size [] v (v.transfer out c).2 := by
    unfold transfer
    split
    · exact v.syncImage_advanced out q size
    split
    · exact .refl q size v
    split
    · exact v.writeImage_advanced out q size c
    next notWrite => exact v.readImage_advanced out (apart.data (by simpa using notWrite))
  unfold perform
  split
  · exact transferred
  · exact .refl q size v

theorem perform_kept (v : Blk ι) (c : Pending) :
    ∃ result, (v.perform out c).1 = { c with result } := by
  unfold perform
  split
  · cases ok : (v.transfer out c).1 with
    | true => exact ⟨c.result, by simp only [ok, if_true]⟩
    | false => exact ⟨1, by simp only [ok, Bool.false_eq_true, if_false]⟩
  · exact ⟨c.result, rfl⟩

/-! ## Returning requests -/

def usedHead (q : SplitQueue) (mem : Store) (slot : Nat) : Nat := (q.usedRing mem slot).1

theorem slot_eq (divides : size ∣ 2 ^ 16) (position : Nat) :
    position % 2 ^ 16 % size = position % size := mod_mod_of_dvd position divides

theorem foundHeads_eq (v : Blk ι) (q : SplitQueue) (divides : size ∣ 2 ^ 16) (usedIdx count : Nat) :
    v.foundHeads q size usedIdx count = window (usedHead q v.mem) size usedIdx count := by
  apply map_congr_left
  intro i _
  rw [slot_eq divides]
  rfl

/-- Storing one entry after a window of entries extends the window. -/
theorem completeOne_window (divides : size ∣ 2 ^ 16) (usedIdx : Nat) (v : Blk ι) {i : Nat} (room : i < size)
    (small : c.id < 2 ^ 32) (clear : ClearOf q size c.status 1) :
    window (usedHead q (v.completeOne q size usedIdx i c).mem) size usedIdx (i + 1) =
      window (usedHead q v.mem) size usedIdx i ++ [c.id] := by
  have status : SameUsed q size v.mem (v.mem.write c.status [c.result]) :=
    sameUsed_write v.mem clear.2
  rw [window_succ]
  congr 1
  · apply window_congr
    intro j earlier
    have inside : (usedIdx + j) % size < size := mod_lt _ (by omega)
    have apart : (usedIdx + j) % size ≠ (usedIdx + i) % size := by
      intro same
      have equal := cell_injective (by omega) (by omega) same
      omega
    simp only [usedHead, completeOne, note, slot_eq divides]
    rw [usedRing_setUsedRing_other q _ _ _ apart, status.ring _ inside]
  · simp only [usedHead, completeOne, note, slot_eq divides]
    rw [usedRing_setUsedRing_same q _ _ _ small]

/-- What returning a list of requests does before the index moves. -/
structure Laid (q : SplitQueue) (size usedIdx i : Nat) (cs : List Pending) (v w : Blk ι) : Prop where
  shape : ∃ extra, Unseen extra ∧ (∀ c ∈ cs, .status c.seq c.status c.result ∈ extra) ∧
    w = { v with mem := w.mem, log := extra ++ v.log }
  avail : SameAvail q size v.mem w.mem
  used : q.usedIdx w.mem = q.usedIdx v.mem
  entries : window (usedHead q w.mem) size usedIdx (i + cs.length) =
    window (usedHead q v.mem) size usedIdx i ++ cs.map Pending.id

theorem completeAll_shape (q : SplitQueue) (size usedIdx i : Nat) (cs : List Pending) (v : Blk ι) :
    ∃ extra, Unseen extra ∧ (∀ c ∈ cs, .status c.seq c.status c.result ∈ extra) ∧
      completeAll q size usedIdx i cs v =
        { v with mem := (completeAll q size usedIdx i cs v).mem, log := extra ++ v.log } := by
  obtain ⟨extra, quiet, rest⟩ := completeAll_spec q size usedIdx cs i v
  refine ⟨extra, fun event member => ?_, rest⟩
  obtain ⟨seq, addr, result, rfl⟩ := quiet event member
  exact nofun

theorem completeAll_laid (divides : size ∣ 2 ^ 16) (apart : RingsApart q size) (usedIdx : Nat)
    (cs : List Pending) :
    ∀ (i : Nat) (v : Blk ι), i + cs.length ≤ size → (∀ c ∈ cs, c.id < 2 ^ 32) →
      (∀ c ∈ cs, ClearOf q size c.status 1) →
        Laid q size usedIdx i cs v (completeAll q size usedIdx i cs v) := by
  induction cs with
  | nil =>
    intro i v _ _ _
    exact
      { shape := completeAll_shape .., avail := .refl q size v.mem, used := rfl
        entries := by simp [completeAll] }
  | cons c rest ih =>
    intro i v room small clear
    rw [length_cons] at room
    have laid := ih (i + 1) (v.completeOne q size usedIdx i c) (by omega)
      (fun other member => small other (mem_cons_of_mem _ member))
      (fun other member => clear other (mem_cons_of_mem _ member))
    have clearFirst := clear c mem_cons_self
    have inside : (usedIdx + i) % 2 ^ 16 % size < size := mod_lt _ (by omega)
    have firstAvail : SameAvail q size v.mem (v.completeOne q size usedIdx i c).mem :=
      (sameAvail_write v.mem clearFirst.1).trans
        (sameAvail_setUsedRing _ c.id c.length.toNat apart inside)
    have firstUsed : q.usedIdx (v.completeOne q size usedIdx i c).mem = q.usedIdx v.mem := by
      simp only [completeOne, note]
      rw [usedIdx_setUsedRing]
      exact (sameUsed_write v.mem clearFirst.2).idx
    simp only [completeAll]
    refine
      { shape := completeAll_shape q size usedIdx i (c :: rest) v, avail := firstAvail.trans laid.avail
        used := laid.used.trans firstUsed, entries := ?_ }
    have longer : i + (c :: rest).length = i + 1 + rest.length := by
      rw [length_cons]
      omega
    rw [longer, laid.entries,
      completeOne_window divides usedIdx v (by omega) (small c mem_cons_self) clearFirst,
      map_cons, append_assoc, singleton_append]

theorem completeRequests_advanced (divides : size ∣ 2 ^ 16) (apart : RingsApart q size) (v : Blk ι)
    (cs : List Pending) (room : cs.length ≤ size) (small : ∀ c ∈ cs, c.id < 2 ^ 32)
    (clear : ∀ c ∈ cs, ClearOf q size c.status 1) :
    Advanced q size (cs.map Pending.id) v (v.completeRequests out q size cs).2 := by
  have laid := completeAll_laid divides apart (q.usedIdx v.mem) cs 0 v (by omega) small clear
  obtain ⟨extra, unseen, stored, shape⟩ := laid.shape
  have entries := laid.entries
  rw [zero_add] at entries
  have found := (completeAll q size (q.usedIdx v.mem) 0 cs v).foundHeads_eq q divides
    (q.usedIdx v.mem) cs.length
  rw [entries] at found
  have log := congrArg Blk.log shape
  have queue := congrArg Blk.queue shape
  have closeOk := congrArg Blk.closeOk shape
  simp only [completeRequests, note]
  refine
    { queue, closeOk, avail := ?_, used := ?_, last := ?_, found := ?_, stored := ?_ }
  · exact laid.avail.trans (sameAvail_setUsedIdx _ _ apart)
  · rw [usedIdx_setUsedIdx, laid.used, length_map]
  · rw [congrArg Blk.lastAvailIdx shape, length_map]
  · simp only [foundAll, found, log, foundAll_unseen unseen]
    rfl
  · intro before
    rw [log]
    apply (atReturn_unseen unseen before).cons
    intro writeback requests seen same c member
    cases same
    exact mem_append_left _ (stored c member)

/-! ## Batches -/

def core (c : Pending) : Pending := { c with result := 0 }

theorem map_id_core (same : cs'.map core = cs.map core) :
    cs'.map Pending.id = cs.map Pending.id := by
  have ids := congrArg (map Pending.id) same
  rwa [map_map, map_map] at ids

theorem forall_core {P : Pending → Prop} (blind : ∀ c, P (core c) ↔ P c) (same : cs'.map core = cs.map core)
    (all : ∀ c ∈ cs, P c) : ∀ c ∈ cs', P c := by
  intro c member
  have within : core c ∈ cs.map core := same ▸ mem_map_of_mem member
  obtain ⟨other, among, equal⟩ := mem_map.mp within
  rw [← blind, ← equal, blind]
  exact all other among

/-- A batch that fits the rings. -/
structure Fits (q : SplitQueue) (size : Nat) (cs : List Pending) : Prop where
  small : ∀ c ∈ cs, c.id < 2 ^ 32
  apart : ∀ c ∈ cs, Apart q size c

theorem Fits.core (fits : Fits q size cs) (same : cs'.map Blk.core = cs.map Blk.core) : Fits q size cs' where
  small := forall_core (fun _ => Iff.rfl) same fits.small
  apart := by
    refine forall_core (fun c => ?_) same fits.apart
    exact ⟨fun apart => { apart with }, fun apart => { apart with }⟩

theorem Fits.clear (fits : Fits q size cs) :
    ∀ c ∈ cs, ClearOf q size c.status 1 :=
  fun c member => (fits.apart c member).status

theorem Fits.tail (fits : Fits q size (c :: cs)) : Fits q size cs where
  small other member := fits.small other (mem_cons_of_mem _ member)
  apart other member := fits.apart other (mem_cons_of_mem _ member)

theorem serve_core (q : SplitQueue) (size : Nat) (writeback : Bool) (cs : List Pending) :
    ∀ v : Blk ι, (serve out q size writeback cs v).1.map core = cs.map core := by
  induction cs with
  | nil => exact fun v => rfl
  | cons c rest ih =>
    intro v
    obtain ⟨result, kept⟩ := v.perform_kept out c
    simp only [serve, map_cons, ih, kept]
    rfl

/-- The loop returns every request to a driver that flushes, and none to the others. -/
theorem serve_advanced (divides : size ∣ 2 ^ 16) (apart : RingsApart q size) (writeback : Bool)
    (cs : List Pending) :
    ∀ v : Blk ι, 0 < size → Fits q size cs →
      Advanced q size (if writeback then cs.map Pending.id else []) v
        (serve out q size writeback cs v).2.2.2 := by
  induction cs with
  | nil =>
    intro v _ _
    cases writeback <;> exact .refl q size v
  | cons c rest ih =>
    intro v positive fits
    have performed := v.perform_advanced out (fits.apart c mem_cons_self)
    obtain ⟨result, kept⟩ := v.perform_kept out c
    cases writeback with
    | false => exact performed.trans (ih (v.perform out c).2 positive fits.tail)
    | true =>
      have completed := completeRequests_advanced out divides apart (v.perform out c).2
        [(v.perform out c).1] positive
        (by
          intro other member
          rw [mem_singleton.mp member, kept]
          exact fits.small c mem_cons_self)
        (by
          intro other member
          rw [mem_singleton.mp member, kept]
          exact fits.clear c mem_cons_self)
      have first : [(v.perform out c).1].map Pending.id = [c.id] := by
        rw [kept]
        rfl
      rw [first] at completed
      exact (performed.trans completed).trans (ih _ positive fits.tail)

theorem settle_advanced (divides : size ∣ 2 ^ 16) (apart : RingsApart q size) (v : Blk ι) (cs : List Pending)
    (room : cs.length ≤ size) (fits : Fits q size cs) (needsSync : Bool) :
    Advanced q size (cs.map Pending.id) v (settle out q size cs needsSync v).2 := by
  have same : (failWrites cs).map core = cs.map core := map_failWrites (fun _ => rfl) cs
  have failed := fits.core same
  have failedRoom : (failWrites cs).length ≤ size := by
    rw [failWrites, length_map]
    exact room
  unfold settle
  split
  · have synced := v.syncImage_advanced out q size
    cases ok : (v.syncImage out).1 with
    | true =>
      simp only [ok, if_true]
      exact synced.trans
        (completeRequests_advanced out divides apart _ cs room fits.small fits.clear)
    | false =>
      have completed := completeRequests_advanced out divides apart (v.syncImage out).2
        (failWrites cs) failedRoom failed.small failed.clear
      rw [map_id_core same] at completed
      simp only [ok, Bool.false_eq_true, if_false]
      exact synced.trans completed
  · exact completeRequests_advanced out divides apart v cs room fits.small fits.clear

/-- The waiting heads, in the order of the available ring. -/
def waiting (v : Blk ι) (q : SplitQueue) (size count : Nat) : List Nat :=
  (range count).map (v.waitingHead q size)

/-- A call is refused with the device as it was, or returns all waiting heads. -/
theorem io_advanced (divides : ringSize q ∣ 2 ^ 16) (apart : RingsApart q (ringSize q)) (v : Blk ι)
    (ready : v.queue = some q)
    (clear : ∀ pending, v.snapshotBatch q (ringSize q) v.writeback (v.available q) 0 = .ok pending →
      ∀ c ∈ pending, Apart q (ringSize q) c) :
    (∃ err, v.Refuses err ∧ v.io out = (some err, v)) ∨
      Advanced q (ringSize q) (v.waiting q (ringSize q) (v.available q)) v (v.io out).2 := by
  rcases v.io_cases out with refused | ⟨q', pending, _, queue, room, copied, served⟩
  · exact Or.inl refused
  right
  cases Option.some.inj (ready.symm.trans queue)
  obtain ⟨seqs, ids, _⟩ := snapshotBatch_copied _ 0 pending copied
  have count : pending.length = v.available q := by
    have lengths := congrArg length seqs
    rwa [length_map, length_range'] at lengths
  have positive : 0 < ringSize q := pos_of_dvd_of_pos divides (by decide)
  have heads : pending.map Pending.id = v.waiting q (ringSize q) (v.available q) := by
    rw [ids, waiting, range_eq_range']
  have fits : Fits q (ringSize q) pending := by
    refine { small := ?_, apart := clear pending copied }
    intro c member
    have within : c.id ∈ (range' 0 (v.available q)).map (v.waitingHead q (ringSize q)) :=
      ids ▸ mem_map_of_mem member
    obtain ⟨i, _, head⟩ := mem_map.mp within
    rw [← head]
    exact (availRing_lt q v.mem _).trans (by decide)
  rw [served, ← heads]
  have carried := serve_advanced out divides apart v.writeback pending v positive fits
  have same := serve_core out q (ringSize q) v.writeback pending v
  cases back : v.writeback with
  | true =>
    rw [back] at carried
    exact carried
  | false =>
    rw [back] at carried same
    have settled := settle_advanced out divides apart
      (serve out q (ringSize q) false pending v).2.2.2
      (serve out q (ringSize q) false pending v).1
      (by
        have lengths := congrArg length same
        rw [length_map, length_map, count] at lengths
        omega)
      (fits.core same) (serve out q (ringSize q) false pending v).2.1
    rw [map_id_core same] at settled
    exact carried.trans settled

theorem snapshotChain_error {writeback : Bool} (left : Nat) : ∀ (j descID : Nat) (seen : List Nat) (c : Pending),
      v.snapshotChain q size writeback left j descID seen c = .error err → err = .blkDesc := by
  induction left with
  | zero =>
    intro j descID seen c failed
    cases failed
    rfl
  | succ left ih =>
    intro j descID seen c failed
    simp only [snapshotChain] at failed
    split at failed
    · cases failed
      rfl
    split at failed
    · cases failed
      rfl
    split at failed
    · split at failed
      · cases failed
        rfl
      · cases failed
    · exact ih _ _ _ _ failed

theorem snapshotRequest_error {seq descID : Nat} {writeback : Bool}
    (failed : v.snapshotRequest q size seq descID writeback = .error err) :
    err = .blkDesc := by
  unfold snapshotRequest at failed
  cases chain : v.snapshotChain q size writeback size 0 descID [] (.initial seq descID) with
  | error reason =>
    rw [chain] at failed
    cases failed
    exact snapshotChain_error _ _ _ _ _ chain
  | ok c =>
    simp only [chain] at failed
    split at failed <;> cases failed

/-- The chain in the `i`-th waiting slot cannot be copied. -/
def Malformed (v : Blk ι) (q : SplitQueue) (i : Nat) : Prop :=
  ∃ err, v.snapshotRequest q (ringSize q) (v.served + i) (v.waitingHead q (ringSize q) i) v.writeback
    = .error err

/-- One malformed chain ends the copying of a batch. -/
theorem snapshotBatch_malformed (left : Nat) :
    ∀ i j, i ≤ j → j < i + left → v.Malformed q j →
      v.snapshotBatch q (ringSize q) v.writeback left i = .error .blkDesc := by
  induction left with
  | zero =>
    intro i j low high _
    omega
  | succ left ih =>
    intro i j low high malformed
    simp only [snapshotBatch]
    cases first : v.snapshotRequest q (ringSize q) (v.served + i) (v.waitingHead q (ringSize q) i)
        v.writeback with
    | error err => rw [snapshotRequest_error first]
    | ok c =>
      have later : i ≠ j := by
        rintro rfl
        obtain ⟨err, failed⟩ := malformed
        rw [first] at failed
        cases failed
      rw [ih (i + 1) j (by omega) (by omega) malformed]

theorem malformed_of_snapshotBatch (left : Nat) :
    ∀ i, v.snapshotBatch q (ringSize q) v.writeback left i = .error err →
      ∃ j, j < i + left ∧ v.Malformed q j := by
  induction left with
  | zero =>
    exact nofun
  | succ left ih =>
    intro i failed
    simp only [snapshotBatch] at failed
    split at failed
    next reason refused => exact ⟨i, by omega, reason, refused⟩
    · split at failed
      next later =>
        cases failed
        obtain ⟨j, inside, malformed⟩ := ih (i + 1) later
        exact ⟨j, by omega, malformed⟩
      · cases failed

theorem io_malformed (ready : v.queue = some q) (opened : v.closeOk = none) {i : Nat}
    (waits : i < v.available q) (malformed : v.Malformed q i) :
    v.io out = (some .blkDesc, v) := by
  have copied := snapshotBatch_malformed (v.available q) 0 i (zero_le i) (by omega) malformed
  rcases v.io_cases out with ⟨err, refuses, refused⟩ | ⟨q', pending, _, queue, _, copied', _⟩
  · simp only [Refuses, opened, ready] at refuses
    rw [refused]
    rcases refuses with ⟨none, _⟩ | ⟨_, rfl⟩ | failed
    · omega
    · rfl
    · rw [copied] at failed
      cases failed
      rfl
  · cases Option.some.inj (ready.symm.trans queue)
    rw [copied] at copied'
    cases copied'

end Blk

end Gokvm.Virtio
