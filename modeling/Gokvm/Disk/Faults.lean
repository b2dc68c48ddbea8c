import Gokvm.Disk.Serve

/-! # Requests on a failing host

Whatever the host answers, a call on a sound image leaves it sound or closed for
writing, and no call changes the file of an image that is closed.
-/

namespace Gokvm.Disk

open Lib
open Prog

variable {g : Geometry} {q q' : Image}

/-! ## Reads never write -/

/-- The file and the fault latch are as before. -/
structure Untouched (q q' : Image) : Prop where
  file : q'.file = q.file
  writeFault : q'.writeFault = q.writeFault

open Untouched

theorem Untouched.refl (q : Image) : Untouched q q := ⟨rfl, rfl⟩

theorem Untouched.trans {q'' : Image} (first : Untouched q q') (second : Untouched q' q'') :
    Untouched q q'' :=
  ⟨second.file.trans first.file, second.writeFault.trans first.writeFault⟩

theorem Heard.untouched (heard : Heard q q') : Untouched q q' := by
  obtain ⟨rest, rfl, _⟩ := heard
  exact ⟨rfl, rfl⟩

/-- The program leaves the file and the fault latch alone, however it ends. -/
def Harmless {α : Type} (p : Op α) : Prop := ∀ q, Wp p q (fun _ q' => Untouched q q')

section Harmless

variable {α β : Type}

theorem Harmless.bind {p : Op α} {f : α → Op β} (head : Harmless p) (tail : ∀ a, Harmless (f a)) :
    Harmless (p >>= f) := by
  intro q
  refine (head q).bind ?_ (fun _ _ failed => failed)
  intro a q1 first
  exact (tail a q1).mono fun _ _ second => first.trans second

theorem Harmless.attempt {p : Op α} {f : Except GoError α → Op β} (head : Harmless p)
    (tail : ∀ r, Harmless (f r)) : Harmless (attempt p >>= f) :=
  Harmless.bind head tail

theorem Harmless.pure (a : α) : Harmless (Pure.pure a : Op α) := refl

theorem Harmless.fail (err : GoError) : Harmless (fail err : Op α) := refl

theorem Harmless.query (v : Image → Except GoError α) : Harmless (query v) := refl

theorem Harmless.read {f : Image → Op β} (tail : ∀ q, Harmless (f q)) : Harmless (Prog.read >>= f) :=
  Harmless.bind refl tail

theorem Harmless.ite {c : Prop} [Decidable c] {p p' : Op α} (yes : Harmless p) (no : Harmless p') :
    Harmless (if c then p else p') := by
  split
  · exact yes
  · exact no

end Harmless

theorem fileReadAt_harmless (n off : Nat) : Harmless (fileReadAt n off) :=
  fun q => (fileReadAt_spec n off q).mono fun _ _ post => post.1.untouched

theorem readUint64Table_harmless (off entries : Nat) : Harmless (readUint64Table off entries) :=
  fun q => (readUint64Table_spec off entries q).mono fun _ _ post => post.1.untouched

theorem loadL2_harmless (i : Nat) : Harmless (loadL2 i) := by
  refine .read fun q => ?_
  cases q.l2Cache i with
  | some l2 => exact .pure l2
  | none =>
    refine .bind (.query _) fun entry => .ite (.fail _) (.ite (.fail _) ?_)
    refine .bind (.query _) fun l2Len => .attempt (readUint64Table_harmless _ _) fun r => ?_
    cases r with
    | error err => exact .fail _
    | ok l2 => exact .bind (fun q => ⟨rfl, rfl⟩) fun _ => .pure l2

theorem l2Table_harmless (guestOff : Nat) : Harmless (l2Table guestOff) :=
  .bind (.query _) fun _ => .bind (.query _) fun _ => .ite (.pure _)
    (.bind (loadL2_harmless _) fun _ => .pure _)

theorem hostOffset_harmless (guestOff : Nat) : Harmless (hostOffset guestOff) := by
  refine .bind (l2Table_harmless guestOff) fun result => ?_
  rcases result with ⟨_ | l2, l2Index⟩
  · exact .pure none
  · exact .bind (.query _) fun entry => .ite (.pure _) (.bind (.query _) fun _ =>
      .ite (.pure _) (.ite (.pure _) (.read fun _ => .pure _)))

theorem readChunk_harmless (guestOff chunk : Nat) : Harmless (readChunk guestOff chunk) := by
  refine .bind (hostOffset_harmless guestOff) fun place => ?_
  cases place with
  | none => exact .pure _
  | some hostOff => exact fileReadAt_harmless _ _

theorem readLoop_harmless (off remaining fuel : Nat) :
    ∀ out, Harmless (readLoop off remaining fuel out) := by
  induction fuel with
  | zero => exact fun out => .pure _
  | succ fuel ih =>
    refine fun out => .ite (.read fun q => .attempt (readChunk_harmless _ _) fun r => ?_) (.pure _)
    cases r with
    | error err => exact .pure _
    | ok bytes => exact ih _

theorem readAt_harmless (n : Nat) (off : Int) : Harmless (readAt n off) := by
  refine .read fun q => .ite (.pure _) (.ite (.pure _) (.ite (.pure _) ?_))
  refine .bind (readLoop_harmless _ _ _ _) fun result => ?_
  rcases result with ⟨out, _ | err⟩
  · exact .ite (.pure _) (.pure _)
  · exact .pure _

/-! ## Closed images -/

theorem writeAt_closed (closed : q.writeFault ≠ none) (b : Bytes) (off : Int) :
    ∃ err, writeAt b off q = (.ok (0, err), q) := by
  obtain ⟨fault, latched⟩ := Option.ne_none_iff_exists'.mp closed
  unfold writeAt
  by_cases empty : b.length = 0
  · exact ⟨none, by simp only [bind, Prog.read, empty, if_true]; rfl⟩
  · exact ⟨some fault, by simp only [bind, Prog.read, empty, if_false, latched]; rfl⟩

theorem serve_closed (closed : q.writeFault ≠ none) (call : Call) : Untouched q (serve call q).2 := by
  cases call with
  | read n off => exact (readAt_harmless n off).bind (fun _ => .pure _) q
  | write b off =>
    obtain ⟨err, run⟩ := writeAt_closed closed b off
    simp only [serve, bind, run]
    exact refl q

/-- No call changes the file of a closed image. -/
theorem serveAll_closed {calls : List Call} :
    ∀ {q : Image}, q.writeFault ≠ none → Untouched q (serveAll calls q).2 := by
  induction calls with
  | nil => exact fun _ => refl _
  | cons call calls ih =>
    intro q closed
    have first := serve_closed closed call
    rcases run : serve call q with ⟨r, q1⟩
    rw [run] at first
    cases r with
    | error err =>
      simp only [serveAll, bind, run]
      exact first
    | ok answer =>
      have rest := ih (q := q1) (by rw [first.writeFault]; exact closed)
      rcases more : serveAll calls q1 with ⟨r, q2⟩
      rw [more] at rest
      simp only [serveAll, bind, run, more]
      cases r <;> exact first.trans rest

/-! ## Any host -/

/-- The image is closed for writing, or it is sound. -/
def Safe (g : Geometry) (q : Image) : Prop := q.writeFault ≠ none ∨ Inv g q

theorem serve_safe (safe : Safe g q) {call : Call} (fits : call.Fits q) : Safe g (serve call q).2 := by
  rcases safe with closed | inv
  · refine .inl ?_
    rw [(serve_closed closed call).writeFault]
    exact closed
  · cases call with
    | read n off =>
      refine .inr ?_
      refine Wp.bind (Q := fun _ q' => Inv g q') (readAt_spec inv n off) ?_ ?_
      · intro a q1 post
        exact post.1.keeps.inv
      · intro err q1 post
        exact post.1.keeps.inv
    | write b off =>
      obtain ⟨n, err, q', run, outcome⟩ := writeAt_served inv fits
      simp only [serve, bind, run]
      exact outcome.imp And.right Served.inv

theorem serveAll_safe {calls : List Call} :
    ∀ {q : Image}, Safe g q → AllFit calls q → Safe g (serveAll calls q).2 := by
  induction calls with
  | nil => exact fun safe _ => safe
  | cons call calls ih =>
    intro q safe fit
    have first := serve_safe safe fit.1
    have rest := fit.2
    rcases run : serve call q with ⟨r, q1⟩
    rw [run] at first rest
    cases r with
    | error err =>
      simp only [serveAll, bind, run]
      exact first
    | ok answer =>
      have after := ih first rest
      rcases more : serveAll calls q1 with ⟨r, q2⟩
      rw [more] at after
      simp only [serveAll, bind, run, more]
      cases r <;> exact after

/-- A refcount table that reaches no further than 2^56 keeps every write below it. -/
theorem Safe.allFit (small : g.refcountCovers ≤ 2 ^ 56) {calls : List Call} :
    ∀ {q : Image}, Safe g q → AllFit calls q := by
  induction calls with
  | nil => exact fun _ => trivial
  | cons call calls ih =>
    intro q safe
    have fits : call.Fits q := by
      cases call with
      | read n off => trivial
      | write b off =>
        intro healthy _ _
        rcases safe with closed | inv
        · exact absurd healthy closed
        · refine .inl ?_
          rw [inv.refcountTable, List.length_map, List.length_range, inv.blockEntries,
            inv.clusterSize]
          exact small
    exact ⟨fits, ih (serve_safe safe fits)⟩

end Gokvm.Disk
