import Gokvm.Disk.Guarantees
import Gokvm.Virtio.BlkDurability
import Gokvm.Virtio.BlkRange

/-! # The disk of a guest

The block device on a QCOW2 image. Whatever a guest puts into its rings, the image stays sound, and
on a host that does not fail the guest cannot tell it from a flat disk.
-/

namespace Gokvm.Virtio

open Lib List Blk
open Disk (Image FlatDisk Call Inv Safe Describes openQCOW2 sampleFile open_sound)

variable {ι κ : Type}

/-- Calls keep a state good, and in a good state `read` answers as `out` does. -/
structure Outside.Keeps (out : Outside ι) (read : ι → Bytes → UInt64 → (Bytes × Bool) × ι)
    (good : ι → Prop) : Prop where
  readAt : ∀ {s}, good s → ∀ b off, read s b off = out.readAt s b off ∧ good (out.readAt s b off).2
  writeAt : ∀ {s}, good s → ∀ b off, good (out.writeAt s b off).2
  sync : ∀ {s}, good s → good (out.sync s).2
  close : ∀ {s}, good s → good (out.close s).2
  interrupt : ∀ {s}, good s → good (out.interrupt s).2

section Keeps

variable {out : Outside ι} {read : ι → Bytes → UInt64 → (Bytes × Bool) × ι} {good : ι → Prop} {v : Blk ι}
  (keeps : out.Keeps read good)
include keeps

theorem keeps_syncImage (ok : good v.outside) : good (v.syncImage out).2.outside := by
  unfold syncImage
  simp only
  split <;> exact keeps.sync ok

theorem keeps_completeRequests (ok : good v.outside) (q : SplitQueue) (size : Nat) (cs : List Pending) :
    good (v.completeRequests out q size cs).2.outside := by
  obtain ⟨_, _, _, shape⟩ := completeAll_spec q size (q.usedIdx v.mem) cs 0 v
  have still : good (completeAll q size (q.usedIdx v.mem) 0 cs v).outside := by rwa [shape]
  exact keeps.interrupt still

theorem keeps_perform (ok : good v.outside) (c : Pending) :
    v.perform { out with readAt := read } c = v.perform out c ∧ good (v.perform out c).2.outside := by
  obtain ⟨same, after⟩ := keeps.readAt ok (v.mem.read c.data.1 c.data.2) c.offset
  unfold perform transfer readImage
  simp only [same]
  refine ⟨rfl, ?_⟩
  split
  · simp only
    split
    · exact keeps_syncImage keeps ok
    split
    · exact ok
    split
    · exact keeps.writeAt ok _ _
    · exact after
  · exact ok

theorem keeps_serve (q : SplitQueue) (size : Nat) (writeback : Bool) (cs : List Pending) :
    ∀ {v : Blk ι}, good v.outside →
      serve { out with readAt := read } q size writeback cs v = serve out q size writeback cs v ∧
        good (serve out q size writeback cs v).2.2.2.outside := by
  induction cs with
  | nil => exact fun ok => ⟨rfl, ok⟩
  | cons c cs ih =>
    intro v ok
    obtain ⟨same, after⟩ := keeps_perform keeps ok c
    have returned : good (if writeback then
        (v.perform out c).2.completeRequests out q size [(v.perform out c).1]
        else (none, (v.perform out c).2)).2.outside := by
      split
      · exact keeps_completeRequests keeps after q size _
      · exact after
    have silent (w : Blk ι) (cs : List Pending) :
        w.completeRequests { out with readAt := read } q size cs = w.completeRequests out q size cs := rfl
    obtain ⟨rest, last⟩ := ih returned
    simp only [serve, same, silent, rest]
    exact ⟨trivial, last⟩

theorem keeps_io (ok : good v.outside) :
    v.io { out with readAt := read } = v.io out ∧ good (v.io out).2.outside := by
  unfold io
  split
  · exact ⟨rfl, ok⟩
  split
  · exact ⟨rfl, ok⟩
  next q _ =>
  simp only
  split
  · exact ⟨rfl, ok⟩
  split
  · exact ⟨rfl, ok⟩
  split
  · exact ⟨rfl, ok⟩
  next pending _ =>
  obtain ⟨same, after⟩ := keeps_serve keeps q (ringSize q) v.writeback pending ok
  rw [same]
  refine ⟨rfl, ?_⟩
  split
  · exact after
  unfold settle
  split
  · exact keeps_completeRequests keeps (keeps_syncImage keeps after) q _ _
  · exact keeps_completeRequests keeps after q _ _

theorem keeps_close (ok : good v.outside) : good (v.close out).2.outside := by
  unfold Blk.close
  split
  · exact ok
  simp only
  split
  · exact keeps.close (keeps_syncImage keeps ok)
  · exact keeps.close ok

theorem keeps_act (ok : good v.outside) (action : BlkAction) :
    v.act { out with readAt := read } action = v.act out action ∧ good (v.act out action).outside := by
  cases action with
  | io =>
    obtain ⟨same, after⟩ := keeps_io keeps ok
    exact ⟨congrArg Prod.snd same, after⟩
  | close => exact ⟨rfl, keeps_close keeps ok⟩
  | guest | queueReady | reset | negotiate => exact ⟨rfl, ok⟩

theorem keeps_run (actions : List BlkAction) :
    ∀ {v : Blk ι}, good v.outside →
      v.run { out with readAt := read } actions = v.run out actions ∧ good (v.run out actions).outside := by
  unfold run
  induction actions with
  | nil =>
    intro v ok
    rw [foldl_nil, foldl_nil]
    exact ⟨rfl, ok⟩
  | cons action rest ih =>
    intro v ok
    obtain ⟨same, after⟩ := keeps_act keeps ok action
    rw [foldl_cons, foldl_cons, same]
    exact ih after

end Keeps

/-! ## QCOW2 images -/

def filled (buffer : Bytes) : Except Disk.GoError Disk.Answer → Bytes × Bool
  | .ok (.read out err) => (out ++ buffer.drop out.length, err.isNone)
  | _ => (buffer, false)

/-- The image as the device calls it, next to a record of the bytes it reported as written; `rest`
    is the sync and the close of the host's file, and the interrupt line. -/
def onImage (rest : Outside κ) : Outside (Image × FlatDisk × κ) where
  readAt s buffer offset :=
    let (answer, q) := Disk.serve (.read buffer.length offset.toBitVec.toInt) s.1
    (filled buffer answer, q, s.2)
  writeAt s buffer offset :=
    let (answer, q) := Disk.serve (.write buffer offset.toBitVec.toInt) s.1
    let n := if let .ok (.wrote n _) := answer then n else 0
    (answer matches .ok (.wrote _ none), q,
      s.2.1.write offset.toBitVec.toInt.toNat (buffer.take n), s.2.2)
  sync s := (s.1.writeFault.isNone && (rest.sync s.2.2).1, s.1, s.2.1, (rest.sync s.2.2).2)
  close s := ((rest.close s.2.2).1, s.1, s.2.1, (rest.close s.2.2).2)
  interrupt s := ((rest.interrupt s.2.2).1, s.1, s.2.1, (rest.interrupt s.2.2).2)

/-- The same with reads answered from the record. -/
def onDisk (rest : Outside κ) : Outside (Image × FlatDisk × κ) :=
  { onImage rest with
    readAt := fun s buffer offset =>
      let (out, err) := s.2.1.readAt buffer.length offset.toBitVec.toInt
      (filled buffer (.ok (.read out err)), ((onImage rest).readAt s buffer offset).2) }

/-- The refcount table reaches no further than table entries do. -/
abbrev Small (q : Image) : Prop :=
  q.refcountTable.length * q.refcountBlockEntries * q.clusterSize ≤ 2 ^ 56

variable {f : Store} {q p : Image}

theorem Small.fits {g : Disk.Geometry} (small : Small q) (inv : Inv g q) (safe : Safe g p)
    (call : Call) : call.Fits p := by
  rw [Small, inv.refcountTable, length_map, length_range, inv.blockEntries, inv.clusterSize] at small
  exact (safe.allFit small : Disk.AllFit [call] p).1

theorem sampleFile_small (opened : openQCOW2 sampleFile [] = .ok q) : Small q := by
  have checked : ((openQCOW2 sampleFile []).toOption.all fun q => Small q) = true := by
    decide +kernel
  rw [opened] at checked
  exact of_decide_eq_true checked

/-- The guest reads the last sector. -/
def readLast : List BlkAction := [.guest (sectorRead 7).mem, .queueReady Ring.smallQueue, .io]

variable (rest : Outside κ) (t : κ) (capacity : UInt64) (readOnly : Bool) (mem : Store)
  (actions : List BlkAction)

/-- Whatever a guest asks and the host answers, the image is sound or closed for writing. -/
theorem guest_disk_safe (d : FlatDisk) {replies : List Disk.Reply}
    (opened : openQCOW2 f replies = .ok q) (small : Small q) :
    ∃ g, Describes f g ∧
      Safe g ((Blk.new (q, d, t) capacity readOnly mem).run (onImage rest) actions).outside.1 := by
  obtain ⟨g, describes, inv, _, _⟩ := open_sound opened
  have serves (call : Call) {p : Image} (safe : Safe g p) : Safe g (Disk.serve call p).2 :=
    Disk.serve_safe safe (small.fits inv safe call)
  have keeps : (onImage rest).Keeps (onImage rest).readAt (fun s => Safe g s.1) :=
    { readAt := fun safe _ _ => ⟨rfl, serves (.read _ _) safe⟩
      writeAt := fun safe _ _ => serves (.write _ _) safe, sync := id, close := id, interrupt := id }
  exact ⟨g, describes, (keeps_run keeps actions (.inr inv)).2⟩

theorem sampleFile_guest_safe : ∃ q, openQCOW2 sampleFile [] = .ok q ∧
    ∃ g, Describes sampleFile g ∧ Safe g
      ((Blk.new (q, q.contents, ()) 8 false (Store.blank 0)).run (onImage Ring.obliging) readLast).outside.1 := by
  obtain ⟨q, opened⟩ := Disk.sampleFile_opens [] (by decide +kernel)
  exact ⟨q, opened, guest_disk_safe _ _ _ _ _ _ _ opened (sampleFile_small opened)⟩

/-- On a host that does not fail, a guest cannot tell the image from the bytes it stands for. -/
theorem guest_disk_is_flat (opened : openQCOW2 f [] = .ok q) (small : Small q) :
    let v := Blk.new (q, q.contents, t) capacity readOnly mem
    v.run (onDisk rest) actions = v.run (onImage rest) actions ∧
      (v.run (onImage rest) actions).outside.1.contents = (v.run (onImage rest) actions).outside.2.1 := by
  obtain ⟨g, _, inv, _, quiet⟩ := open_sound opened
  have serves {p : Image} (ok : Inv g p ∧ p.replies = []) (call : Call) :=
    Disk.serve_flat ok.1 ok.2 (small.fits inv (.inr ok.1) call)
  have keeps : (onImage rest).Keeps (onDisk rest).readAt
      (fun s => (Inv g s.1 ∧ s.1.replies = []) ∧ s.1.contents = s.2.1) :=
    { readAt := fun {s} ok b off => by
        obtain ⟨answer, p, run, after, still, answered⟩ := serves ok.1 (.read b.length off.toBitVec.toInt)
        rw [ok.2] at answered
        simp only [onImage, onDisk, run]
        generalize p.contents = d at answered
        cases answered
        exact ⟨rfl, ⟨after, still⟩, rfl⟩
      writeAt := fun {s} ok b off => by
        obtain ⟨answer, p, run, after, still, answered⟩ := serves ok.1 (.write b off.toBitVec.toInt)
        rw [ok.2] at answered
        simp only [onImage, run]
        cases answered with
        | write wrote => exact ⟨⟨after, still⟩, wrote.stored⟩
      sync := id, close := id, interrupt := id }
  obtain ⟨same, kept⟩ := keeps_run keeps actions (v := Blk.new (q, q.contents, t) capacity readOnly mem)
    ⟨⟨inv, quiet rfl⟩, rfl⟩
  exact ⟨same, kept.2⟩

theorem sampleFile_guest_flat : ∃ q, openQCOW2 sampleFile [] = .ok q ∧
    let v := Blk.new (q, q.contents, ()) 8 false (Store.blank 0)
    v.run (onDisk Ring.obliging) readLast = v.run (onImage Ring.obliging) readLast := by
  obtain ⟨q, opened⟩ := Disk.sampleFile_opens [] (by decide +kernel)
  exact ⟨q, opened, (guest_disk_is_flat _ _ _ _ _ _ opened (sampleFile_small opened)).1⟩

end Gokvm.Virtio
