import Gokvm.Virtio.Blk

/-! # Durability of block writes

What the log says at any time, for any guest and any image: a write answered with success to a
driver without flushing had been synced, a flush answered with success came after a sync that
covers all writes, and a device that is not dirty has written nothing since its last successful
sync.
-/

namespace Gokvm.Virtio

open Lib List Pending

/-! ## What a log says -/

/-- No write, not even a failed one, since the last successful sync. -/
def Clean : List BlkEvent → Prop
  | [] => True
  | .synced true :: _ => True
  | .wrote _ _ :: _ => False
  | _ :: log => Clean log

/-- The requests that were returned, oldest first. -/
def returned : List BlkEvent → List Pending
  | [] => []
  | .visible _ requests _ :: log => returned log ++ requests
  | _ :: log => returned log

/-- What holds of the log when a request becomes visible. -/
structure Answered (writeback : Bool) (c : Pending) (log : List BlkEvent) : Prop where
  write : writeback = false → c.write = true → c.result = 0 →
    ∃ later earlier, log = later ++ .synced true :: earlier ∧ .wrote c.seq true ∈ earlier
  flush : writeback = true → c.flush = true → c.result = 0 → .synced true ∈ log ∧ Clean log

/-- Every request was answered so when it became visible. -/
def Durable (log : List BlkEvent) : Prop := AtReturn Answered log

theorem quiet_induction {motive : List BlkEvent → Prop} {log : List BlkEvent} (base : motive log)
    (stored : ∀ seq addr result log, motive log → motive (.status seq addr result :: log)) :
    ∀ {extra : List BlkEvent}, Quiet extra → motive (extra ++ log) := by
  intro extra quiet
  induction extra with
  | nil => exact base
  | cons event extra ih =>
    obtain ⟨seq, addr, result, same⟩ := quiet event mem_cons_self
    subst same
    exact stored seq addr result _ (ih (fun other member => quiet other (mem_cons_of_mem _ member)))

theorem Answered.quiet {writeback : Bool} {c : Pending} {log extra : List BlkEvent}
    (answered : Answered writeback c log) (quiet : Quiet extra) :
    Answered writeback c (extra ++ log) := by
  constructor
  · intro through isWrite success
    obtain ⟨later, earlier, split, wrote⟩ := answered.write through isWrite success
    exact ⟨extra ++ later, earlier, by rw [split, append_assoc], wrote⟩
  · intro back isFlush success
    obtain ⟨synced, clean⟩ := answered.flush back isFlush success
    refine ⟨mem_append_right _ synced, ?_⟩
    exact quiet_induction clean (fun _ _ _ _ still => still) quiet

/-! ## Steps -/

namespace Blk

variable {ι : Type} (out : Outside ι)

/-- What holds of a device and its log throughout a call. -/
structure Faithful (v : Blk ι) : Prop where
  durable : Durable v.log
  clean : v.dirty = false → Clean v.log
  numbered : (returned v.log).map seq = range v.served

/-- What carrying out a request leaves alone. -/
structure Kept (v w : Blk ι) : Prop where
  mode : w.negotiatedFeatures = v.negotiatedFeatures
  closeOk : w.closeOk = v.closeOk
  grows : ∃ extra, w.log = extra ++ v.log

theorem Kept.refl (v : Blk ι) : Kept v v :=
  { mode := rfl, closeOk := rfl, grows := ⟨[], rfl⟩ }

theorem Kept.trans {u v w : Blk ι} (first : Kept u v) (second : Kept v w) : Kept u w := by
  obtain ⟨early, firstLog⟩ := first.grows
  obtain ⟨late, secondLog⟩ := second.grows
  exact
    { mode := second.mode.trans first.mode
      closeOk := second.closeOk.trans first.closeOk
      grows := ⟨late ++ early, by rw [secondLog, firstLog, append_assoc]⟩ }

theorem Kept.writeback {v w : Blk ι} (kept : Kept v w) : w.writeback = v.writeback := by
  unfold Blk.writeback
  rw [kept.mode]

theorem Kept.mem_log {v w : Blk ι} (kept : Kept v w) {event : BlkEvent} (member : event ∈ v.log) :
    event ∈ w.log := by
  obtain ⟨extra, grown⟩ := kept.grows
  rw [grown]
  exact mem_append_right extra member

section

variable (v : Blk ι) (c : Pending) (faithful : v.Faithful)
include faithful

theorem syncImage_spec :
    (v.syncImage out).2.Faithful ∧ Kept v (v.syncImage out).2 ∧
      (v.syncImage out).2.served = v.served ∧
      (v.syncImage out).2.log = .synced (v.syncImage out).1 :: v.log := by
  have durable : Durable (.synced (out.sync v.outside).1 :: v.log) :=
    AtReturn.cons faithful.durable nofun
  cases ok : (out.sync v.outside).1 with
  | true =>
    rw [ok] at durable
    simp only [syncImage, ok, note, if_true, and_true]
    exact ⟨{ faithful with durable, clean := fun _ => trivial },
      { mode := rfl, closeOk := rfl, grows := ⟨[.synced true], rfl⟩ }⟩
  | false =>
    rw [ok] at durable
    simp only [syncImage, ok, note, if_false, Bool.false_eq_true, and_true]
    exact ⟨{ faithful with durable },
      { mode := rfl, closeOk := rfl, grows := ⟨[.synced false], rfl⟩ }⟩

theorem writeImage_spec :
    (v.writeImage out c).2.Faithful ∧ Kept v (v.writeImage out c).2 ∧
      (v.writeImage out c).2.served = v.served ∧
      (v.writeImage out c).2.log = .wrote c.seq (v.writeImage out c).1 :: v.log := by
  refine ⟨?_, ?_, rfl, rfl⟩
  · exact { faithful with durable := AtReturn.cons faithful.durable nofun, clean := nofun }
  · exact { mode := rfl, closeOk := rfl, grows := ⟨[_], rfl⟩ }

theorem readImage_spec :
    (v.readImage out c).2.Faithful ∧ Kept v (v.readImage out c).2 ∧
      (v.readImage out c).2.served = v.served := by
  refine ⟨?_, ?_, rfl⟩
  · exact { faithful with durable := AtReturn.cons faithful.durable nofun }
  · exact { mode := rfl, closeOk := rfl, grows := ⟨[_], rfl⟩ }

/-- A transfer, with what success says about the log. -/
structure Transferred (v : Blk ι) (c : Pending) (ok : Bool) (w : Blk ι) : Prop where
  faithful : w.Faithful
  kept : Kept v w
  served : w.served = v.served
  wrote : ok = true → c.write = true → c.flush = false →
    v.readOnly = false ∧ .wrote c.seq true ∈ w.log
  synced : ok = true → c.flush = true → .synced true ∈ w.log ∧ Clean w.log

theorem transfer_spec :
    Transferred v c (v.transfer out c).1 (v.transfer out c).2 := by
  unfold transfer
  by_cases flush : c.flush = true
  · rw [if_pos flush]
    obtain ⟨stillFaithful, kept, served, log⟩ := v.syncImage_spec out faithful
    refine { faithful := stillFaithful, kept, served, wrote := ?_, synced := ?_ }
    · intro _ _ noFlush
      rw [flush] at noFlush
      cases noFlush
    · intro ok _
      rw [log, ok]
      exact ⟨mem_cons_self, trivial⟩
  rw [if_neg flush]
  by_cases refused : (c.write && v.readOnly) = true
  · rw [if_pos refused]
    exact
      { faithful
        kept := .refl v
        served := rfl
        wrote := nofun
        synced := nofun }
  rw [if_neg refused]
  by_cases write : c.write = true
  · rw [if_pos write]
    obtain ⟨stillFaithful, kept, served, log⟩ := v.writeImage_spec out c faithful
    refine { faithful := stillFaithful, kept, served, wrote := ?_, synced := ?_ }
    · intro ok _ _
      rw [log, ok]
      exact ⟨by simpa [write] using refused, mem_cons_self⟩
    · intro _ isFlush
      exact absurd isFlush flush
  · rw [if_neg write]
    obtain ⟨stillFaithful, kept, served⟩ := v.readImage_spec out c faithful
    exact
      { faithful := stillFaithful
        kept
        served
        wrote := fun _ isWrite => absurd isWrite write
        synced := fun _ isFlush => absurd isFlush flush }

/-- A request after it was carried out. -/
structure Performed (v : Blk ι) (c c' : Pending) (w : Blk ι) : Prop where
  faithful : w.Faithful
  kept : Kept v w
  served : w.served = v.served
  seq : c'.seq = c.seq
  write : c'.write = c.write
  flush : c'.flush = c.flush
  wrote : c.write = true → c.flush = false → c'.result = 0 →
    v.writes c = true ∧ .wrote c.seq true ∈ w.log
  synced : c.flush = true → c'.result = 0 → .synced true ∈ w.log ∧ Clean w.log

theorem perform_spec :
    Performed v c (v.perform out c).1 (v.perform out c).2 := by
  unfold perform
  by_cases accepted : c.result = 0
  · rw [if_pos accepted]
    have transferred := v.transfer_spec out c faithful
    cases ok : (v.transfer out c).1 with
    | true =>
      rw [ok] at transferred
      simp only [ok, if_true]
      refine
        { transferred with
            seq := rfl, write := rfl, flush := rfl, wrote := ?_, synced := ?_ }
      · intro write noFlush _
        obtain ⟨writable, wrote⟩ := transferred.wrote rfl write noFlush
        refine ⟨?_, wrote⟩
        simp [writes, accepted, noFlush, write, writable]
      · exact fun flush _ => transferred.synced rfl flush
    | false =>
      simp only [ok, if_false, Bool.false_eq_true]
      exact
        { transferred with
            seq := rfl, write := rfl, flush := rfl, wrote := nofun, synced := nofun }
  · rw [if_neg accepted]
    exact
      { faithful, kept := .refl v, served := rfl, seq := rfl, write := rfl, flush := rfl
        wrote := fun _ _ success => absurd success accepted
        synced := fun _ success => absurd success accepted }

end

/-! ## Returning requests -/

theorem returned_quiet {extra log : List BlkEvent} (quiet : Quiet extra) :
    returned (extra ++ log) = returned log :=
  quiet_induction (motive := fun all => returned all = returned log) rfl
    (fun _ _ _ _ same => same) quiet

theorem completeRequests_spec (q : SplitQueue) (size : Nat) (cs : List Pending) (v : Blk ι)
    (faithful : v.Faithful) (answered : ∀ c ∈ cs, Answered v.writeback c v.log)
    (numbers : cs.map seq = range' v.served cs.length) :
    (v.completeRequests out q size cs).2.Faithful ∧
      Kept v (v.completeRequests out q size cs).2 ∧
      (v.completeRequests out q size cs).2.served = v.served + cs.length := by
  obtain ⟨extra, quiet, _, shape⟩ := completeAll_spec q size (q.usedIdx v.mem) cs 0 v
  have durable : Durable (extra ++ v.log) :=
    quiet_induction faithful.durable
      (fun _ _ _ _ still => AtReturn.cons still nofun) quiet
  simp only [completeRequests, note]
  rw [shape]
  refine ⟨{ durable := ?_, clean := ?_, numbered := ?_ }, ?_, ?_⟩
  · apply AtReturn.cons durable
    rintro writeback requests found same c member
    cases same
    exact (answered c member).quiet quiet
  · intro clean
    exact quiet_induction (faithful.clean clean) (fun _ _ _ _ still => still) quiet
  · simp only [returned, map_append, returned_quiet quiet, faithful.numbered, numbers]
    have joined := @List.range'_append_1 0 v.served cs.length
    rwa [Nat.zero_add, ← range_eq_range', ← range_eq_range'] at joined
  · exact { mode := rfl, closeOk := rfl, grows := ⟨_ :: extra, rfl⟩ }
  · rfl

/-! ## Batches -/

/-- A driver that flushes gets each request back before the next one is started. -/
theorem serve_writeback (q : SplitQueue) (size : Nat) (cs : List Pending) :
    ∀ (v : Blk ι), v.Faithful → v.writeback = true →
      cs.map seq = range' v.served cs.length →
        (serve out q size true cs v).2.2.2.Faithful ∧
          Kept v (serve out q size true cs v).2.2.2 := by
  induction cs with
  | nil => exact fun v faithful _ _ => ⟨faithful, .refl v⟩
  | cons c rest ih =>
    intro v faithful back numbers
    rw [map_cons, length_cons, range'_succ, cons.injEq] at numbers
    have done := v.perform_spec out c faithful
    have answered : Answered (v.perform out c).2.writeback (v.perform out c).1
        (v.perform out c).2.log := by
      constructor
      · intro through
        rw [done.kept.writeback, back] at through
        cases through
      · intro _ flush success
        exact done.synced (done.flush ▸ flush) success
    obtain ⟨faithful', kept, served⟩ := completeRequests_spec out q size
      [(v.perform out c).1] (v.perform out c).2 done.faithful
      (fun _ member => mem_singleton.mp member ▸ answered)
      (by rw [map_singleton, done.seq, numbers.1, done.served]; rfl)
    have all := done.kept.trans kept
    obtain ⟨last, keptLast⟩ := ih _ faithful' (all.writeback.trans back)
      (by rw [served, done.served]; exact numbers.2)
    simp only [serve, if_true]
    exact ⟨last, all.trans keptLast⟩

/-- Without flushing the requests wait: their writes are in the log. -/
structure Carried (v : Blk ι) (cs cs' : List Pending) (needsSync : Bool) (w : Blk ι) : Prop where
  faithful : w.Faithful
  kept : Kept v w
  served : w.served = v.served
  seqs : cs'.map seq = cs.map seq
  wrote : ∀ c ∈ cs', c.write = true → c.result = 0 → needsSync = true ∧ .wrote c.seq true ∈ w.log

theorem serve_writethrough (q : SplitQueue) (size : Nat) (cs : List Pending) :
    ∀ (v : Blk ι), v.Faithful → (∀ c ∈ cs, c.write = true → c.flush = false) →
      Carried v cs (serve out q size false cs v).1 (serve out q size false cs v).2.1
        (serve out q size false cs v).2.2.2 := by
  induction cs with
  | nil =>
    intro v faithful _
    exact
      { faithful, kept := .refl v, served := rfl, seqs := rfl
        wrote := fun _ member => (not_mem_nil member).elim }
  | cons c rest ih =>
    intro v faithful exclusive
    have done := v.perform_spec out c faithful
    have carried := ih (v.perform out c).2 done.faithful
      (fun other member => exclusive other (mem_cons_of_mem _ member))
    simp only [serve, if_false, Bool.false_eq_true]
    refine
      { faithful := carried.faithful, kept := done.kept.trans carried.kept
        served := carried.served.trans done.served, seqs := ?_, wrote := ?_ }
    · rw [map_cons, map_cons, done.seq, carried.seqs]
    · intro other member write success
      cases mem_cons.mp member with
      | inl same =>
        subst same
        rw [done.write] at write
        obtain ⟨writes, wrote⟩ :=
          done.wrote write (exclusive c mem_cons_self write) success
        rw [writes, done.seq]
        exact ⟨rfl, carried.kept.mem_log wrote⟩
      | inr later =>
        obtain ⟨needed, wrote⟩ := carried.wrote other later write success
        rw [needed, Bool.or_true]
        exact ⟨rfl, wrote⟩

theorem failWrites_result {cs : List Pending} {c : Pending} (member : c ∈ failWrites cs)
    (write : c.write = true) : c.result = 1 := by
  obtain ⟨old, _, same⟩ := mem_map.mp member
  subst same
  by_cases isWrite : old.write = true
  · rw [if_pos isWrite]
  · rw [if_neg isWrite] at write
    exact absurd write isWrite

/-- The sync covers the batch, or its writes fail. -/
theorem settle_spec (q : SplitQueue) (size : Nat) {v w : Blk ι} {cs cs' : List Pending}
    {needsSync : Bool} (carried : Carried v cs cs' needsSync w) (through : v.writeback = false)
    (numbers : cs.map seq = range' v.served cs.length) :
    (settle out q size cs' needsSync w).2.Faithful ∧ Kept v (settle out q size cs' needsSync w).2 := by
  have count : cs'.length = cs.length := by
    have same := congrArg List.length carried.seqs
    rwa [length_map, length_map] at same
  unfold settle
  cases needsSync with
  | false =>
    simp only [if_false, Bool.false_eq_true]
    obtain ⟨faithful, kept, _⟩ := completeRequests_spec out q size cs' w carried.faithful
      (by
        intro c member
        constructor
        · intro _ write success
          exact absurd (carried.wrote c member write success).1 (by decide)
        · intro back
          rw [carried.kept.writeback, through] at back
          cases back)
      (by rw [carried.seqs, numbers, carried.served, count])
    exact ⟨faithful, carried.kept.trans kept⟩
  | true =>
    simp only [if_true]
    obtain ⟨synced, keptSync, servedSync, log⟩ := w.syncImage_spec out carried.faithful
    have mode : (w.syncImage out).2.writeback = false :=
      (keptSync.writeback.trans carried.kept.writeback).trans through
    have numbers' : cs'.map seq
        = range' (w.syncImage out).2.served cs'.length := by
      rw [carried.seqs, numbers, servedSync, carried.served, count]
    cases ok : (w.syncImage out).1 with
    | true =>
      rw [ok] at log
      simp only [if_true]
      obtain ⟨faithful, kept, _⟩ := completeRequests_spec out q size cs' _ synced
        (by
          intro c member
          constructor
          · intro _ write success
            exact ⟨[], w.log, log, (carried.wrote c member write success).2⟩
          · intro back
            rw [mode] at back
            cases back)
        numbers'
      exact ⟨faithful, (carried.kept.trans keptSync).trans kept⟩
    | false =>
      simp only [if_false, Bool.false_eq_true]
      obtain ⟨faithful, kept, _⟩ := completeRequests_spec out q size (failWrites cs') _
        synced
        (by
          intro c member
          constructor
          · intro _ write success
            rw [failWrites_result member write] at success
            cases success
          · intro back
            rw [mode] at back
            cases back)
        (by rw [map_failWrites fun _ => rfl, numbers', failWrites, length_map])
      exact ⟨faithful, (carried.kept.trans keptSync).trans kept⟩

/-! ## Calls -/

theorem io_spec (v : Blk ι) (faithful : v.Faithful) :
    (v.io out).2.Faithful ∧ Kept v (v.io out).2 := by
  rcases v.io_cases out with ⟨err, _, failed⟩ | ⟨q, pending, _, _, _, copied, served⟩
  · rw [failed]
    exact ⟨faithful, .refl v⟩
  obtain ⟨seqs, _, exclusive⟩ := snapshotBatch_copied _ 0 pending copied
  have numbers : pending.map seq = range' v.served pending.length := by
    have count := congrArg List.length seqs
    rw [length_map, length_range'] at count
    rw [seqs, count]
    rfl
  rw [served]
  cases back : v.writeback with
  | true => exact serve_writeback out q (ringSize q) pending v faithful back numbers
  | false =>
    exact settle_spec out q (ringSize q)
      (serve_writethrough out q (ringSize q) pending v faithful exclusive) back numbers

theorem Faithful.closing {v : Blk ι} (faithful : v.Faithful) (outside : ι) (closeOk : Option Bool)
    (ok : Bool) : ({ v with outside, closeOk, log := .closed ok :: v.log } : Blk ι).Faithful :=
  { faithful with durable := AtReturn.cons faithful.durable nofun }

theorem close_spec (v : Blk ι) (faithful : v.Faithful) (closed : v.closeOk = some true → Clean v.log) :
    (v.close out).2.Faithful ∧ (v.close out).2.closeOk = some (v.close out).1 ∧
      ((v.close out).1 = true → Clean (v.close out).2.log) := by
  unfold close
  cases before : v.closeOk with
  | some ok =>
    refine ⟨faithful, before, ?_⟩
    rintro rfl
    exact closed before
  | none =>
    cases dirty : v.dirty with
    | false =>
      simp only [Bool.false_eq_true, if_false, Bool.true_and, note, true_and]
      exact ⟨dirty ▸ faithful.closing _ _ _, fun _ => faithful.clean dirty⟩
    | true =>
      obtain ⟨synced, _, _, log⟩ := v.syncImage_spec out faithful
      simp only [if_true, note, Bool.and_eq_true, true_and]
      refine ⟨synced.closing _ _ _, ?_⟩
      rintro ⟨ok, _⟩
      rw [log, ok]
      trivial

end Blk

/-! ## Runs -/

/-- Everything that happens to a device from outside. -/
inductive BlkAction where
  /-- The guest changes its memory. -/
  | guest (mem : Store)
  | io
  | queueReady (q : SplitQueue)
  | reset
  | negotiate (features : UInt64)
  | close

namespace Blk

variable {ι : Type} (out : Outside ι)

def act (v : Blk ι) : BlkAction → Blk ι
  | .guest mem => { v with mem }
  | .io => (v.io out).2
  | .queueReady q => v.queueReady q
  | .reset => v.reset
  | .negotiate features => { v with negotiatedFeatures := features }
  | .close => (v.close out).2

def run (v : Blk ι) (actions : List BlkAction) : Blk ι := actions.foldl (act out) v

/-- `newBlk`. -/
def new (outside : ι) (capacity : UInt64) (readOnly : Bool) (mem : Store) : Blk ι where
  mem := mem
  queue := none
  lastAvailIdx := 0
  capacity := capacity
  readOnly := readOnly
  negotiatedFeatures := 0
  dirty := false
  closeOk := none
  outside := outside
  served := 0
  log := []

/-- What holds of a device between calls. -/
structure Sound (v : Blk ι) : Prop where
  faithful : v.Faithful
  closed : v.closeOk = some true → Clean v.log

theorem sound_new (outside : ι) (capacity : UInt64) (readOnly : Bool) (mem : Store) :
    (new outside capacity readOnly mem).Sound where
  faithful := { durable := atReturn_nil, clean := fun _ => trivial, numbered := rfl }
  closed := nofun

theorem Sound.act {v : Blk ι} (sound : v.Sound) (action : BlkAction) : (v.act out action).Sound := by
  have unchanged (mem : Store) (queue : Option SplitQueue) (lastAvailIdx : UInt16)
      (negotiatedFeatures : UInt64) :
      ({ v with mem, queue, lastAvailIdx, negotiatedFeatures } : Blk ι).Sound :=
    { faithful := { sound.faithful with }, closed := sound.closed }
  cases action with
  | guest mem => exact unchanged mem v.queue v.lastAvailIdx v.negotiatedFeatures
  | queueReady q => exact unchanged v.mem (some q) 0 v.negotiatedFeatures
  | reset => exact unchanged v.mem none 0 v.negotiatedFeatures
  | negotiate features => exact unchanged v.mem v.queue v.lastAvailIdx features
  | io =>
    obtain ⟨faithful, kept⟩ := v.io_spec out sound.faithful
    refine { faithful, closed := ?_ }
    intro closed
    -- a closed device answers without doing anything
    have before : v.closeOk = some true := kept.closeOk.symm.trans closed
    have same : (v.io out).2 = v := by simp only [io, before, Option.isSome_some, if_true]
    rw [Blk.act, same]
    exact sound.closed before
  | close =>
    obtain ⟨faithful, answer, clean⟩ := v.close_spec out sound.faithful sound.closed
    refine { faithful, closed := ?_ }
    intro closed
    rw [Blk.act, answer, Option.some.injEq] at closed
    exact clean closed

theorem Sound.run {v : Blk ι} (sound : v.Sound) (actions : List BlkAction) :
    (v.run out actions).Sound := by
  induction actions generalizing v with
  | nil => exact sound
  | cons action rest ih => exact ih (sound.act out action)

/-- For every history of a device: what was answered with success was synced as the driver
    asked, a device that is not dirty is clean, and closing without an error leaves it
    clean. The numbers in the log tell the requests apart. -/
theorem writes_are_durable (outside : ι) (capacity : UInt64) (readOnly : Bool) (mem : Store)
    (actions : List BlkAction) :
    let v := (new outside capacity readOnly mem).run out actions
    Durable v.log ∧ (v.dirty = false → Clean v.log) ∧
      ((v.close out).1 = true → Clean (v.close out).2.log) ∧
      (returned v.log).map seq = range v.served := by
  have sound := (sound_new outside capacity readOnly mem).run out actions
  exact ⟨sound.faithful.durable, sound.faithful.clean,
    (close_spec out _ sound.faithful sound.closed).2.2, sound.faithful.numbered⟩

end Blk

end Gokvm.Virtio
