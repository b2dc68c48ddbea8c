import Gokvm.Virtio.BlkDriver

/-! # What the block device reaches

Every access to the image lies inside the capacity that the driver sees, whatever the
request says, and a read-only device never writes it. The walk over a chain reads each
descriptor of the table at most once and no memory outside the RAM of the guest.
-/

namespace Gokvm.Virtio

open Lib List Nat

structure ImageAccess where
  write : Bool
  offset : UInt64
  length : Nat
deriving DecidableEq

variable {ι : Type}

/-- The same outside, with a record of the calls of the image. -/
def Outside.recording (out : Outside ι) : Outside (ι × List ImageAccess) where
  readAt s buffer offset :=
    let (answer, i) := out.readAt s.1 buffer offset
    (answer, i, ⟨false, offset, buffer.length⟩ :: s.2)
  writeAt s buffer offset :=
    let (answer, i) := out.writeAt s.1 buffer offset
    (answer, i, ⟨true, offset, buffer.length⟩ :: s.2)
  sync s := ((out.sync s.1).1, (out.sync s.1).2, s.2)
  close s := ((out.close s.1).1, (out.close s.1).2, s.2)
  interrupt s := ((out.interrupt s.1).1, (out.interrupt s.1).2, s.2)

namespace Blk

/-- An access that the capacity covers, in whole numbers and as a signed offset. -/
structure InRange (capacity : UInt64) (readOnly : Bool) (access : ImageAccess) : Prop where
  positive : access.offset.toNat < 2 ^ 63
  ends : access.offset.toNat + access.length ≤ capacity.toNat * 512
  allowed : access.write = true → readOnly = false

/-- What the device does to the image between two states. -/
structure Issues (v w : Blk (ι × List ImageAccess)) : Prop where
  capacity : w.capacity = v.capacity
  readOnly : w.readOnly = v.readOnly
  accesses : ∀ access ∈ w.outside.2, access ∈ v.outside.2 ∨ InRange v.capacity v.readOnly access

section Issues

variable (out : Outside ι) {u v w : Blk (ι × List ImageAccess)} {c : Pending}

theorem Issues.refl (v : Blk (ι × List ImageAccess)) : Issues v v := ⟨rfl, rfl, fun _ => Or.inl⟩

theorem Issues.trans (first : Issues u v) (second : Issues v w) : Issues u w where
  capacity := second.capacity.trans first.capacity
  readOnly := second.readOnly.trans first.readOnly
  accesses access member := by
    rcases second.accesses access member with before | inside
    · exact first.accesses access before
    · rw [first.capacity, first.readOnly] at inside
      exact Or.inr inside

/-- A request that may reach the image is inside the capacity. -/
def Bounded (capacity : UInt64) (c : Pending) : Prop :=
  c.result = 0 → c.flush = false →
    c.offset.toNat + c.data.2 ≤ capacity.toNat * 512 ∧ capacity.toNat * 512 < 2 ^ 63

theorem syncImage_issues (v : Blk (ι × List ImageAccess)) :
    Issues v (v.syncImage out.recording).2 := by
  unfold syncImage
  simp only
  split <;> exact ⟨rfl, rfl, fun _ => Or.inl⟩

theorem perform_issues (bounded : Bounded v.capacity c) :
    Issues v (v.perform out.recording c).2 := by
  unfold perform transfer
  split
  next ready =>
    simp only
    split
    · exact v.syncImage_issues out
    next plain =>
      obtain ⟨ends, small⟩ := bounded ready (by simpa using plain)
      have inside (write : Bool) (allowed : write = true → v.readOnly = false) :
          InRange v.capacity v.readOnly ⟨write, c.offset, (v.mem.read c.data.1 c.data.2).length⟩ := by
        refine ⟨?_, ?_, allowed⟩
        · exact lt_of_le_of_lt (le_of_add_right_le ends) small
        · simpa using ends
      split
      · exact .refl v
      next writable =>
        split
        next writes =>
          refine ⟨rfl, rfl, fun access member => ?_⟩
          rcases mem_cons.mp member with rfl | before
          · exact Or.inr (inside true fun _ => by simpa [writes] using writable)
          · exact Or.inl before
        · refine ⟨rfl, rfl, fun access member => ?_⟩
          rcases mem_cons.mp member with rfl | before
          · exact Or.inr (inside false nofun)
          · exact Or.inl before
  · exact .refl v

theorem completeAll_issues (q : SplitQueue) (size usedIdx : Nat) (cs : List Pending) :
    ∀ (i : Nat) (v : Blk (ι × List ImageAccess)), Issues v (completeAll q size usedIdx i cs v) := by
  induction cs with
  | nil => exact fun _ v => .refl v
  | cons c cs ih =>
      intro i v
      have one : Issues v (v.completeOne q size usedIdx i c) := ⟨rfl, rfl, fun _ => Or.inl⟩
      exact one.trans (ih (i + 1) _)

theorem completeRequests_issues (v : Blk (ι × List ImageAccess)) (q : SplitQueue) (size : Nat)
    (cs : List Pending) : Issues v (v.completeRequests out.recording q size cs).2 := by
  refine (completeAll_issues q size (q.usedIdx v.mem) cs 0 v).trans ?_
  exact ⟨rfl, rfl, fun _ => Or.inl⟩

theorem serve_issues (q : SplitQueue) (size : Nat) (writeback : Bool) (cs : List Pending) :
    ∀ {v : Blk (ι × List ImageAccess)}, (∀ c ∈ cs, Bounded v.capacity c) →
      Issues v (serve out.recording q size writeback cs v).2.2.2 := by
  induction cs with
  | nil => exact fun _ => .refl _
  | cons c cs ih =>
      intro v bounded
      have performed := perform_issues out (bounded c mem_cons_self)
      have returned : Issues v (if writeback then
          (v.perform out.recording c).2.completeRequests out.recording q size [(v.perform out.recording c).1]
          else (none, (v.perform out.recording c).2)).2 := by
        split
        · exact performed.trans (completeRequests_issues out _ q size _)
        · exact performed
      refine returned.trans (ih fun other member => ?_)
      rw [returned.capacity]
      exact bounded other (mem_cons_of_mem c member)

theorem settle_issues (q : SplitQueue) (size : Nat) (cs : List Pending) (needsSync : Bool)
    (v : Blk (ι × List ImageAccess)) : Issues v (settle out.recording q size cs needsSync v).2 := by
  unfold settle
  split
  · exact (v.syncImage_issues out).trans (completeRequests_issues out _ q size _)
  · exact completeRequests_issues out v q size cs

end Issues

/-! ## The walk over a chain -/

/-- `snapshotChain` with the descriptors it reads, and whether it looks at their memory. -/
def snapshotWalk (v : Blk ι) (q : SplitQueue) (size : Nat) (writeback : Bool) :
    (left j descID : Nat) → (seen : List Nat) → Pending →
      List (Nat × Bool) × Except BlkError Pending
  | 0, _, _, _, _ => ([], .error .blkDesc)
  | left + 1, j, descID, seen, c =>
    if size ≤ descID ∨ descID ∈ seen then ([], .error .blkDesc)
    else
      let desc := q.descAt v.mem descID
      if validRange v.mem desc.addr desc.len = false ∨ (j = 0 ∧ desc.len < 16) then
        ([(descID, false)], .error .blkDesc)
      else
        let c := v.describe writeback j desc c
        if isLast j desc c then
          ([(descID, true)],
            if j = 0 ∨ desc.len = 0 ∨
                ((c.result = 2 ∨ c.flush) ∧ desc.flags &&& descFWrite = 0) then .error .blkDesc
            else .ok { c with status := desc.addr, length := if c.flush then 1 else c.length })
        else
          let (steps, result) :=
            snapshotWalk v q size writeback left (j + 1) desc.next (descID :: seen) c
          ((descID, true) :: steps, result)

variable {v : Blk ι} {q : SplitQueue} {size : Nat} {writeback : Bool}

theorem snapshotWalk_result (left : Nat) : ∀ (j descID : Nat) (seen : List Nat) (c : Pending),
    (v.snapshotWalk q size writeback left j descID seen c).2 =
      v.snapshotChain q size writeback left j descID seen c := by
  induction left with
  | zero => exact fun _ _ _ _ => rfl
  | succ left ih =>
      intro j descID seen c
      simp only [snapshotWalk, snapshotChain, ← ih]
      split_ifs <;> rfl

/-- The places of a request lie in the memory of the guest. -/
structure Placed (v : Blk ι) (c : Pending) : Prop where
  data : validRange v.mem c.data.1 c.data.2 = true
  short : c.data.2 < 2 ^ 32

/-- A walk from a descriptor: each is read at most once, is in the table, follows the one before,
    and only guest memory is read. -/
structure Walk (v : Blk ι) (q : SplitQueue) (size left descID : Nat) (seen : List Nat)
    (walk : List (Nat × Bool) × Except BlkError Pending) : Prop where
  short : walk.1.length ≤ left
  table : ∀ step ∈ walk.1, step.1 < size ∧ step.1 ∉ seen
  once : (walk.1.map Prod.fst).Nodup
  memory : ∀ step ∈ walk.1, step.2 = true →
    validRange v.mem (q.descAt v.mem step.1).addr (q.descAt v.mem step.1).len = true
  starts : ∀ step ∈ walk.1.head?, step.1 = descID
  next : List.IsChain (fun a b => b.1 = (q.descAt v.mem a.1).next) walk.1
  placed : ∀ c, walk.2 = .ok c → Placed v c ∧ validRange v.mem c.status 1 = true

theorem describe_placed {j : Nat} {desc : SplitDesc} {c : Pending}
    (inside : validRange v.mem desc.addr desc.len = true) (small : desc.len < 2 ^ 32)
    (placed : Placed v c) : Placed v (v.describe writeback j desc c) := by
  have header (addr : Nat) (c : Pending) : (v.header writeback addr c).data = c.data := by
    simp only [header]
    split <;> split <;> rfl
  simp only [describe]
  split
  · constructor
    · simpa only [header] using placed.data
    · simpa only [header] using placed.short
  split
  · exact ⟨inside, small⟩
  · exact ⟨placed.data, placed.short⟩

theorem descAt_len_lt (q : SplitQueue) (mem : Store) (i : Nat) : (q.descAt mem i).len < 2 ^ 32 := by
  have bound := leNat_lt (mem.read (q.desc + 16 * i + 8) 4)
  rwa [Store.read_length] at bound

theorem validRange_first {mem : Store} {addr len : Nat} (inside : validRange mem addr len = true)
    (positive : len ≠ 0) : validRange mem addr 1 = true := by
  rw [validRange_iff] at *
  omega

theorem snapshotWalk_walk (left : Nat) : ∀ (j descID : Nat) (seen : List Nat) (c : Pending),
    Placed v c →
      Walk v q size left descID seen (v.snapshotWalk q size writeback left j descID seen c) := by
  induction left with
  | zero =>
      intro j descID seen c placed
      constructor <;> simp [snapshotWalk]
  | succ left ih =>
      intro j descID seen c placed
      simp only [snapshotWalk]
      split
      · constructor <;> simp
      next listed =>
      obtain ⟨small, fresh⟩ := not_or.mp listed
      split
      · constructor <;> simp [fresh, not_le.mp small]
      next checked =>
      have inside := Bool.not_eq_false _ ▸ (not_or.mp checked).1
      have described : Placed v (v.describe writeback j (q.descAt v.mem descID) c) :=
        describe_placed inside (descAt_len_lt q v.mem descID) placed
      split
      · refine ⟨by simp, by simp [fresh, not_le.mp small], by simp, by simpa using inside,
          by simp, by simp, ?_⟩
        intro c done
        split at done
        · cases done
        next marked =>
          push Not at marked
          cases done
          exact ⟨⟨described.data, described.short⟩, validRange_first inside marked.2.1⟩
      · have rest := ih (j + 1) (q.descAt v.mem descID).next (descID :: seen) _ described
        generalize v.snapshotWalk q size writeback left (j + 1) _ (descID :: seen) _ = walk at rest ⊢
        refine ⟨?_, ?_, ?_, ?_, by simp, ?_, rest.placed⟩
        · simpa using rest.short
        · rintro step (_ | ⟨_, later⟩)
          · exact ⟨not_le.mp small, fresh⟩
          · exact ⟨(rest.table step later).1, fun old => (rest.table step later).2 (by simp [old])⟩
        · refine nodup_cons.mpr ⟨?_, rest.once⟩
          rintro again
          obtain ⟨step, later, same⟩ := mem_map.mp again
          exact (rest.table step later).2 (by simp [same])
        · rintro step (_ | ⟨_, later⟩)
          · exact fun _ => inside
          · exact rest.memory step later
        · refine isChain_cons.mpr ⟨rest.starts, rest.next⟩

theorem initial_placed (v : Blk ι) (seq id : Nat) : Placed v (.initial seq id) :=
  ⟨by simp [Pending.initial, validRange_iff], by simp [Pending.initial]⟩

/-- A request that is not marked as failed lies inside the capacity. -/
theorem snapshotRequest_bounded {seq id : Nat} {c : Pending} (small : v.capacity.toNat * 512 < 2 ^ 63)
    (copied : v.snapshotRequest q size seq id writeback = .ok c) : Bounded v.capacity c := by
  have walk : Walk v q size size id [] (v.snapshotWalk q size writeback size 0 id [] (.initial seq id)) :=
    snapshotWalk_walk size 0 id [] _ (v.initial_placed seq id)
  have placed := walk.placed
  rw [snapshotWalk_result] at placed
  have bytes : (v.capacity * sectorSize).toNat = v.capacity.toNat * 512 := by
    rw [UInt64.toNat_mul]
    exact mod_eq_of_lt (by change _ * 512 < _; omega)
  unfold snapshotRequest at copied
  split at copied
  · cases copied
  next found =>
    have short := (placed _ found).1.short
    intro ready plain
    simp only at copied
    split at copied
    · cases copied
      cases ready
    next inside =>
      cases copied
      simp only [ready, plain, true_and, not_or, UInt64.not_lt, UInt64.le_iff_toNat_le, gt_iff_lt] at inside
      have offset := inside.1
      have length := inside.2
      rw [UInt64.toNat_sub_of_le _ _ (UInt64.le_iff_toNat_le.mpr offset), bytes, UInt64.toNat_ofNat',
        mod_eq_of_lt (by omega)] at length
      rw [bytes] at offset
      exact ⟨by omega, small⟩

theorem snapshotBatch_bounded (small : v.capacity.toNat * 512 < 2 ^ 63) (left : Nat) :
    ∀ (i : Nat) (cs : List Pending), v.snapshotBatch q size writeback left i = .ok cs →
      ∀ c ∈ cs, Bounded v.capacity c := by
  induction left with
  | zero =>
      intro i cs done
      cases done
      simp
  | succ left ih =>
      intro i cs done
      simp only [snapshotBatch] at done
      split at done
      · cases done
      next c copied =>
      split at done
      · cases done
      next rest later =>
      cases done
      exact forall_mem_cons.mpr ⟨snapshotRequest_bounded small copied, ih (i + 1) rest later⟩

/-- A read of eight bytes at a sector of an image of 4096 bytes. -/
def sectorRead (sector : Nat) : Blk (Unit × List ImageAccess) where
  mem := (Store.blank 4096).writes
    [(0, leBytes 8 2048 ++ leBytes 4 16 ++ leBytes 2 descFNext ++ leBytes 2 1),
      (16, leBytes 8 2600 ++ leBytes 4 8 ++ leBytes 2 3 ++ leBytes 2 2),
      (32, leBytes 8 2900 ++ leBytes 4 1 ++ leBytes 2 descFWrite ++ leBytes 2 0),
      (514, leBytes 2 1), (2056, leBytes 8 sector)]
  queue := some Ring.smallQueue
  lastAvailIdx := 0
  capacity := 8
  readOnly := true
  negotiatedFeatures := 0
  dirty := false
  closeOk := none
  outside := ((), [])
  served := 0
  log := []

end Blk

end Gokvm.Virtio
