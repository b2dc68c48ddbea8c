import Gokvm.Disk.Invariant

/-! # What the host operations of an image do

One rule for each host operation and for the metadata writes. Where the host fails, a rule also
says that it was not silent: the list of replies was not empty.
-/

namespace Gokvm.Disk

open Lib
open Prog

variable {g : Geometry} {q q' : Image}

/-- Only replies were consumed. -/
def Heard (q q' : Image) : Prop :=
  ∃ rest, q' = { q with replies := rest } ∧ (q.replies = [] → rest = [])

theorem Heard.keeps (heard : Heard q q') (inv : Inv g q) : Keeps g q q' := by
  obtain ⟨rest, rfl, quiet⟩ := heard
  exact ⟨inv.with_replies rest, rfl, quiet⟩

theorem Heard.file (heard : Heard q q') : q'.file = q.file := by
  obtain ⟨rest, rfl, _⟩ := heard
  rfl

theorem Heard.quiet (heard : Heard q q') (silent : q.replies = []) : q'.replies = [] := by
  obtain ⟨rest, rfl, quiet⟩ := heard
  exact quiet silent

theorem Heard.read (heard : Heard q q') (inv : Inv g q) : Read g q q' :=
  ⟨heard.keeps inv, heard.file⟩

theorem Heard.trans {q'' : Image} (first : Heard q q') (second : Heard q' q'') : Heard q q'' := by
  obtain ⟨rest, rfl, quiet⟩ := first
  obtain ⟨rest', rfl, quiet'⟩ := second
  exact ⟨rest', rfl, fun silent => quiet' (quiet silent)⟩

/-- The next operation gets a reply; only a host with replies can fail it. -/
theorem wp_nextReply {α : Type} {f : Reply → Op α} {Q : Except GoError α → Image → Prop}
    (run : ∀ reply rest, (q.replies = [] → rest = []) → (reply ≠ .done → q.replies ≠ []) →
      Wp (f reply) { q with replies := rest } Q) : Wp (nextReply >>= f) q Q := by
  cases shown : q.replies with
  | nil =>
    have same : nextReply q = (.ok .done, q) := by rw [nextReply, shown]
    rw [wp_bind_ok same]
    exact run .done q.replies id (fun other => absurd rfl other)
  | cons reply rest =>
    have noisy : q.replies ≠ [] := by simp [shown]
    have same : nextReply q = (.ok reply, { q with replies := rest }) := by rw [nextReply, shown]
    rw [wp_bind_ok same]
    exact run reply rest (fun quiet => absurd quiet noisy) (fun _ => noisy)

theorem fileStat_spec (q : Image) : Wp fileStat q (fun r q' =>
    Heard q q' ∧ match r with
      | .ok n => n = q.file.size
      | .error _ => q.replies ≠ []) := by
  refine wp_nextReply ?_
  intro reply rest quiet other
  cases reply with
  | done => exact ⟨⟨rest, rfl, quiet⟩, rfl⟩
  | short _ | failed _ => exact ⟨⟨rest, rfl, quiet⟩, other (by simp)⟩

theorem fileReadAt_spec (n off : Nat) (q : Image) : Wp (fileReadAt n off) q (fun r q' =>
    Heard q q' ∧ match r with
      | .ok bytes => bytes = q.file.read off n
      | .error _ => q.replies ≠ [] ∨ q.file.size < off + n) := by
  refine wp_nextReply ?_
  intro reply rest quiet other
  cases reply with
  | done =>
    refine ⟨⟨rest, rfl, quiet⟩, ?_⟩
    by_cases inside : n = 0 ∨ off + n ≤ q.file.size
    · simp [query, inside]
    · simp only [query, if_neg inside]
      exact .inr (by omega)
  | short _ | failed _ => exact ⟨⟨rest, rfl, quiet⟩, .inl (other (by simp))⟩

theorem fileWriteAt_spec (data : Bytes) (off : Nat) (q : Image) :
    Wp (fileWriteAt data off) q (fun r q' =>
      match r with
      | .ok _ => Heard { q with file := q.file.write off data } q'
      | .error err => q.replies ≠ [] ∧ err = .host .write off ∧
          ∃ n, Heard { q with file := q.file.write off (data.take n) } q') := by
  refine wp_nextReply ?_
  intro reply rest quiet other
  cases reply with
  | done => exact ⟨rest, rfl, quiet⟩
  | short n | failed n => exact ⟨other (by simp), rfl, n, rest, rfl, quiet⟩

theorem fileTruncate_spec (n : Nat) (q : Image) : Wp (fileTruncate n) q (fun r q' =>
    match r with
    | .ok _ => Heard { q with file := q.file.resize n } q'
    | .error _ => q.replies ≠ [] ∧ Heard q q') := by
  refine wp_nextReply ?_
  intro reply rest quiet other
  cases reply with
  | done => exact ⟨rest, rfl, quiet⟩
  | short _ | failed _ => exact ⟨other (by simp), rest, rfl, quiet⟩

theorem writeMetadata_spec (data : Bytes) (off : Nat) (q : Image) :
    Wp (writeMetadata data off) q (fun r q' =>
      match r with
      | .ok _ => Heard { q with file := q.file.write off data } q'
      | .error _ => q.replies ≠ [] ∧
          ∃ n, Heard { q with file := q.file.write off (data.take n) } q') := by
  refine wp_nextReply ?_
  intro reply rest quiet other
  cases reply with
  | done => exact ⟨rest, rfl, quiet⟩
  | short n =>
    by_cases short : n < data.length
    · simp only [short, if_true, wp_update_bind, wp_fail]
      exact ⟨other (by simp), n, rest, rfl, quiet⟩
    · simp only [short, if_false, wp_update_bind, wp_pure]
      exact ⟨rest, by rw [List.take_of_length_le (by omega)], quiet⟩
  | failed n => exact ⟨other (by simp), n, rest, rfl, quiet⟩

theorem disableWrites_spec {α : Type} (err : GoError) (q : Image) :
    Wp (disableWrites (α := α) err) q (fun r q' =>
      match r with
      | .ok _ => False
      | .error _ => q'.writeFault ≠ none) := by
  exact nofun

/-- A table entry is stored, or the old one is back, or writes are disabled. -/
theorem writeMetadataEntry_spec {off previous : Nat} (next : Nat)
    (inside : off + 8 ≤ q.file.size) (stored : q.file.read off 8 = beBytes 8 previous) :
    Wp (writeMetadataEntry off previous next) q (fun r q' =>
      match r with
      | .ok _ => Heard { q with file := q.file.write off (beBytes 8 next) } q'
      | .error _ => q.replies ≠ [] ∧ (q'.writeFault ≠ none ∨ Heard q q')) := by
  refine (writeMetadata_spec _ _ q).attempt ?_ ?_
  · intro _ q' written
    exact written
  · rintro err q1 ⟨noisy, n, heard⟩
    refine (writeMetadata_spec _ _ q1).attempt ?_ ?_
    · intro _ q2 restored
      refine ⟨noisy, .inr ?_⟩
      obtain ⟨rest, rfl, quiet⟩ := heard
      obtain ⟨rest', rfl, quiet'⟩ := restored
      have back := Store.write_restore
        (show off + (beBytes 8 next).length ≤ q.file.size by rw [beBytes_length]; exact inside) n
      rw [beBytes_length, stored] at back
      refine ⟨rest', ?_, fun silent => absurd silent noisy⟩
      simp only [fail, back]
    · intro restoreErr q2 _
      refine (disableWrites_spec _ q2).mono ?_
      intro r q3 post
      cases r with
      | ok a => exact post.elim
      | error e => exact ⟨noisy, .inl post⟩

end Gokvm.Disk
