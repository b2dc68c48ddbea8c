import Gokvm.Disk.Contents

/-! # Requests to an open image

Sequences of `ReadAt` and `WriteAt` calls on an image. As long as every write fits, a silent host
makes it a flat disk, and a failing one leaves it sound or closed for writing.
-/

namespace Gokvm.Disk

open Lib
open Prog

inductive Call where
  /-- `ReadAt` into a buffer of `n` bytes -/
  | read (n : Nat) (off : Int)
  /-- `WriteAt` of the bytes `b` -/
  | write (b : Bytes) (off : Int)
  deriving Repr, DecidableEq

inductive Answer where
  | read (out : Bytes) (err : Option GoError)
  | wrote (n : Nat) (err : Option GoError)
  deriving Repr, DecidableEq

def serve : Call → Op Answer
  | .read n off => do
    let (out, err) ← readAt n off
    pure (.read out err)
  | .write b off => do
    let (n, err) ← writeAt b off
    pure (.wrote n err)

def serveAll : List Call → Op (List Answer)
  | [] => pure []
  | call :: calls => do
    let answer ← serve call
    let answers ← serveAll calls
    pure (answer :: answers)

/-- A call that the image accepts fits below the limit of table entries. -/
def Call.Fits (q : Image) : Call → Prop
  | .read _ _ => True
  | .write b off =>
    q.writeFault = none → 0 ≤ off → off.toNat + b.length ≤ q.size → q.Fits off.toNat b.length

/-- Every call of a sequence fits in the state it meets. -/
def AllFit : List Call → Image → Prop
  | [], _ => True
  | call :: calls, q => call.Fits q ∧ AllFit calls (serve call q).2

/-! ## The flat disk -/

/-- A flat disk may answer a call and become `d'`. -/
inductive FlatDisk.Serves (d : FlatDisk) : Call → Answer → FlatDisk → Prop where
  | read (n : Nat) (off : Int) :
      Serves d (.read n off) (.read (d.readAt n off).1 (d.readAt n off).2) d
  | write {b : Bytes} {off : Int} {n : Nat} {err : Option GoError} {d' : FlatDisk}
      (wrote : d.WriteAt b off n err d') : Serves d (.write b off) (.wrote n err) d'

theorem FlatDisk.Serves.read_eq {d d' : FlatDisk} {n : Nat} {off : Int} {out : Bytes}
    {err : Option GoError} (serves : d.Serves (.read n off) (.read out err) d') :
    d.readAt n off = (out, err) := by
  generalize answered : Answer.read out err = answer at serves
  cases serves with
  | read =>
    injection answered with bytes error
    rw [bytes, error]

inductive FlatDisk.Runs : FlatDisk → List Call → List Answer → FlatDisk → Prop where
  | nil (d : FlatDisk) : Runs d [] [] d
  | cons {d d' d'' : FlatDisk} {call : Call} {answer : Answer} {calls : List Call}
      {answers : List Answer} (first : d.Serves call answer d') (rest : Runs d' calls answers d'') :
      Runs d (call :: calls) (answer :: answers) d''

variable {g : Geometry} {q q' : Image}

theorem writeAt_served (inv : Inv g q) {b : Bytes} {off : Int} (fits : (Call.write b off).Fits q) :
    ∃ n err q', writeAt b off q = (.ok (n, err), q') ∧
      (q.replies ≠ [] ∧ q'.writeFault ≠ none ∨ Served g q b off n err q') := by
  have spec := writeAt_spec inv b off (fun start inside =>
    inv.budget (fits inv.healthy start (by rw [inv.size]; exact inside)))
  rcases result : writeAt b off q with ⟨r, q'⟩
  rw [Wp, result] at spec
  obtain ⟨n, err, rfl, _, outcome⟩ := spec
  exact ⟨n, err, q', rfl, outcome.imp_left fun closed => ⟨closed.1, closed.2.1⟩⟩

/-- A silent image answers a call as its disk does. -/
theorem serve_flat (inv : Inv g q) (silent : q.replies = []) {call : Call} (fits : call.Fits q) :
    ∃ answer q', serve call q = (.ok answer, q') ∧ Inv g q' ∧ q'.replies = [] ∧
      q.contents.Serves call answer q'.contents := by
  rw [inv.contents_eq]
  cases call with
  | read n off =>
    have spec := readAt_spec inv n off
    rcases result : readAt n off q with ⟨r, q'⟩
    rw [Wp, result] at spec
    obtain ⟨read, out, err, rfl, answer⟩ := spec
    have keeps : Keeps g q q' := read.keeps
    have bytes : out = ((guestDisk g q.file).readAt n off).1 := congrArg Prod.fst (answer silent)
    have error : err = ((guestDisk g q.file).readAt n off).2 := congrArg Prod.snd (answer silent)
    refine ⟨.read out err, q', ?_, keeps.inv, keeps.quiet silent, ?_⟩
    · simp only [serve, bind, result]
      rfl
    · rw [keeps.inv.contents_eq, show q'.file = q.file from read.file, bytes, error]
      exact .read n off
  | write b off =>
    obtain ⟨n, err, q', result, outcome⟩ := writeAt_served inv fits
    rcases outcome with ⟨noisy, _⟩ | served
    · exact absurd silent noisy
    · obtain ⟨silent', wrote⟩ := served.flat silent
      refine ⟨.wrote n err, q', ?_, served.inv, silent', ?_⟩
      · simp only [serve, bind, result]
        rfl
      · rw [served.inv.contents_eq]
        exact .write wrote

theorem serveAll_flat {calls : List Call} : ∀ {q : Image}, Inv g q → q.replies = [] →
    AllFit calls q → ∃ answers q', serveAll calls q = (.ok answers, q') ∧ Inv g q' ∧
      q'.replies = [] ∧ q.contents.Runs calls answers q'.contents := by
  induction calls with
  | nil =>
    intro q inv silent _
    exact ⟨[], q, rfl, inv, silent, .nil _⟩
  | cons call calls ih =>
    intro q inv silent fit
    obtain ⟨answer, q1, run, inv1, silent1, first⟩ := serve_flat inv silent fit.1
    have fit1 : AllFit calls q1 := by
      have rest := fit.2
      rwa [run] at rest
    obtain ⟨answers, q2, runs, inv2, silent2, rest⟩ := ih inv1 silent1 fit1
    refine ⟨answer :: answers, q2, ?_, inv2, silent2, .cons first rest⟩
    simp only [serveAll, bind, run, runs]
    rfl

end Gokvm.Disk
