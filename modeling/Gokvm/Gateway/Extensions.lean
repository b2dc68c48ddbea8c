import Gokvm.Gateway.Images

/-! # Two walks over the header extensions

The gateway walks the extensions of an upload in the file, up to the terminator that it
insists on. The disk driver walks them in the first cluster and looks at their contents as
well. Here each walk records the extensions that it visits.
-/

namespace Gokvm.Gateway

open Lib List Nat

/-- An extension header: its place in the cluster and what it says. -/
structure Visit where
  position : Nat
  kind : Nat
  length : Nat
  deriving DecidableEq

def record {ε : Type} (visit : Visit) (rest : List Visit × Except ε Unit) :
    List Visit × Except ε Unit :=
  (visit :: rest.1, rest.2)

/-- `validateQCOW2Extensions` with its visits. -/
def uploadWalk (file : Store) (limit : Nat) : (fuel offset : Nat) → List Visit × Except String Unit
  | 0, _ => ([], .error "missing QCOW2 extension terminator")
  | fuel + 1, offset =>
    if limit < offset + 8 then ([], .error "missing QCOW2 extension terminator")
    else if file.size < offset + 8 then ([], .error "truncated QCOW2 extensions")
    else
      let kind := beNat (file.read offset 4)
      let length := beNat (file.read (offset + 4) 4)
      let next := offset + 8 + (length + 7) / 8 * 8
      record ⟨offset, kind, length⟩ <|
        if kind = 0 then
          ([], if length ≠ 0 then .error "invalid QCOW2 extension terminator" else .ok ())
        else if kind = 0xe2792aca ∨ kind = 0x44415441 ∨ kind = 0x0537be77 then
          ([], .error "backing file, external data and encryption extensions are unsupported")
        else if limit < next then ([], .error "invalid QCOW2 extension bounds")
        else uploadWalk file limit fuel next

/-- `validateHeaderExtensions` with its visits, for an area at some place of the cluster. -/
def diskWalk : (fuel : Nat) → (seen : List Nat) → (position : Nat) → Bytes →
    List Visit × Except Disk.GoError Unit
  | 0, _, _, area => ([], if area.length ≠ 0 then .error .outOfFuel else .ok ())
  | fuel + 1, seen, position, area =>
    if area.length = 0 then ([], .ok ())
    else if area.length < 8 then ([], .error (.new "qcow2: truncated header extension"))
    else
      let kind := beNat (part area 0 4)
      let length := beNat (part area 4 4)
      let padded := Disk.alignUp length 8
      record ⟨position, kind, length⟩ <|
        if kind = 0 then
          ([], if length ≠ 0 then .error (.new "qcow2: invalid header extension terminator") else .ok ())
        else if kind ∈ seen then
          ([], .error (.errorf "qcow2: duplicate header extension %#x" [kind]))
        else if padded > area.length - 8 then
          ([], .error (.new "qcow2: header extension exceeds first cluster"))
        else
          match Disk.validateHeaderExtension kind (part area 8 length) with
          | .error err => ([], .error err)
          | .ok _ => diskWalk fuel (kind :: seen) (position + (8 + padded)) (area.drop (8 + padded))

variable {file : Store} {limit : Nat}

theorem uploadWalk_result (fuel offset : Nat) :
    (uploadWalk file limit fuel offset).2 = validateQCOW2Extensions file limit fuel offset := by
  induction fuel generalizing offset with
  | zero => rfl
  | succ fuel ih =>
      simp only [uploadWalk, validateQCOW2Extensions, record, ← ih]
      split_ifs <;> rfl

theorem diskWalk_result (fuel : Nat) (seen : List Nat) (position : Nat) (area : Bytes) :
    (diskWalk fuel seen position area).2 = Disk.validateHeaderExtensionsFrom fuel seen area := by
  induction fuel generalizing seen position area with
  | zero => rfl
  | succ fuel ih =>
      simp only [diskWalk, Disk.validateHeaderExtensionsFrom, record]
      split_ifs <;> try rfl
      cases Disk.validateHeaderExtension _ _ with
      | error err => rfl
      | ok _ => exact ih ..

/-! ## Every input -/

theorem uploadWalk_inside (fuel : Nat) : ∀ offset, ∀ visit ∈ (uploadWalk file limit fuel offset).1,
    offset ≤ visit.position ∧ visit.position + 8 ≤ limit := by
  induction fuel with
  | zero => simp [uploadWalk]
  | succ fuel ih =>
      intro offset visit member
      simp only [uploadWalk] at member
      split_ifs at member <;> simp only [record, mem_cons, not_mem_nil, or_false] at member
      all_goals grind

theorem diskWalk_inside (fuel : Nat) : ∀ (seen : List Nat) position area,
    ∀ visit ∈ (diskWalk fuel seen position area).1,
      position ≤ visit.position ∧ visit.position + 8 ≤ position + area.length := by
  induction fuel with
  | zero => simp [diskWalk]
  | succ fuel ih =>
      intro seen position area visit member
      simp only [diskWalk] at member
      split_ifs at member <;> simp only [record, mem_cons, not_mem_nil, or_false] at member
      all_goals grind

/-- Each pass of the gateway goes on by eight bytes or more. -/
theorem uploadWalk_fuel (fuel : Nat) : ∀ more offset, limit - offset ≤ fuel → fuel ≤ more →
    uploadWalk file limit more offset = uploadWalk file limit fuel offset := by
  induction fuel with
  | zero =>
      intro more offset enough _
      cases more with
      | zero => rfl
      | succ more => simp [uploadWalk, show limit < offset + 8 by omega]
  | succ fuel ih =>
      intro more offset enough less
      obtain ⟨more, rfl⟩ : ∃ n, more = n + 1 := ⟨more - 1, by omega⟩
      simp only [uploadWalk]
      rw [ih more _ (by omega) (by omega)]

theorem diskWalk_total (fuel : Nat) : ∀ (seen : List Nat) position area, area.length ≤ fuel →
    (diskWalk fuel seen position area).2 ≠ .error .outOfFuel := by
  induction fuel with
  | zero =>
      intro seen position area empty
      simp [diskWalk, length_eq_zero_iff.mp (le_zero.mp empty)]
  | succ fuel ih =>
      intro seen position area enough
      simp only [diskWalk, record]
      split_ifs <;> try simp
      split
      next err refused =>
        intro same
        cases same
        simp only [Disk.validateHeaderExtension] at refused
        split_ifs at refused <;> cases refused
      · refine ih _ _ _ ?_
        rw [length_drop]
        omega

/-! ## An accepted upload -/

/-- The errors of the disk driver that the gateway leaves to it. -/
inductive Refused : Disk.GoError → Prop where
  | duplicate (kind : Nat) : Refused (.errorf "qcow2: duplicate header extension %#x" [kind])
  | bitmaps : Refused (.new "qcow2: bitmap extensions are unsupported")
  | tableLength : Refused (.new "qcow2: invalid feature name table length")
  | tableEntry : Refused (.new "qcow2: invalid feature name table entry")

/-- The kinds that the gateway refuses. -/
def Unsupported (kind : Nat) : Prop :=
  kind = Disk.qcow2ExtensionBackingFormat ∨ kind = Disk.qcow2ExtensionExternalData ∨
    kind = Disk.qcow2ExtensionEncryption

theorem validateHeaderExtension_refused {kind : Nat} {data : Bytes} {err : Disk.GoError}
    (supported : ¬ Unsupported kind) (refused : Disk.validateHeaderExtension kind data = .error err) :
    Refused err := by
  unfold Unsupported at supported
  push Not at supported
  simp only [Disk.validateHeaderExtension, supported, if_false] at refused
  split_ifs at refused <;> cases refused <;> constructor

theorem alignUp_eight (length : Nat) : Disk.alignUp length 8 = (length + 7) / 8 * 8 := by
  unfold Disk.alignUp
  split <;> omega

theorem drop_read (offset n k : Nat) : (file.read offset n).drop k = file.read (offset + k) (n - k) := by
  apply ext_getElem?
  intro i
  rw [getElem?_drop, Store.read_getElem?, Store.read_getElem?]
  split_ifs <;> first | rfl | (rw [add_assoc]) | omega

/-- The walk of the disk driver follows the one of the gateway until it refuses. -/
structure Follows (disk : List Visit × Except Disk.GoError Unit) (upload : List Visit) : Prop where
  visits : disk.1 <+: upload
  ending : match disk.2 with
    | .ok _ => disk.1 = upload
    | .error err => Refused err

theorem Follows.record {disk : List Visit × Except Disk.GoError Unit} {upload : List Visit}
    (follows : Follows disk upload) (visit : Visit) :
    Follows (record visit disk) (visit :: upload) where
  visits := (prefix_cons_inj visit).mpr follows.visits
  ending := by
    have ending := follows.ending
    unfold Gateway.record
    split at ending
    next ok => simp [ok, ending]
    next err ok => simpa [ok] using ending

theorem Follows.refuse {err : Disk.GoError} (refused : Refused err) (upload : List Visit) :
    Follows ([], .error err) upload :=
  ⟨List.nil_prefix, refused⟩

theorem diskWalk_follows (fuel : Nat) : ∀ {offset}, (uploadWalk file limit fuel offset).2 = .ok () →
    ∀ diskFuel seen, limit - offset ≤ diskFuel →
      Follows (diskWalk diskFuel seen offset (file.read offset (limit - offset)))
        (uploadWalk file limit fuel offset).1 ∧
      ∀ visit ∈ (uploadWalk file limit fuel offset).1, ¬ Unsupported visit.kind := by
  induction fuel with
  | zero =>
      exact nofun
  | succ fuel ih =>
      intro offset accepted diskFuel seen enough
      have long : ¬ limit < offset + 8 := by
        intro short
        simp [uploadWalk, short] at accepted
      have inside : ¬ file.size < offset + 8 := by
        intro truncated
        simp [uploadWalk, long, truncated] at accepted
      simp only [uploadWalk, if_neg long, if_neg inside] at accepted ⊢
      obtain ⟨diskFuel, rfl⟩ : ∃ n, diskFuel = n + 1 := ⟨diskFuel - 1, by omega⟩
      have kind : part (file.read offset (limit - offset)) 0 4 = file.read offset 4 :=
        Store.part_read (k := 0) (by omega)
      have length : part (file.read offset (limit - offset)) 4 4 = file.read (offset + 4) 4 :=
        Store.part_read (by omega)
      simp only [diskWalk, Store.read_length, kind, length, alignUp_eight,
        show ¬ limit - offset = 0 by omega, show ¬ limit - offset < 8 by omega, if_false]
      generalize beNat (file.read offset 4) = k at accepted ⊢
      generalize beNat (file.read (offset + 4) 4) = n at accepted ⊢
      by_cases last : k = 0
      · simp only [last, if_true, record] at accepted ⊢
        split_ifs at accepted with zero
        simp only [zero, if_false]
        exact ⟨⟨prefix_refl _, rfl⟩, by simp [Unsupported]; decide⟩
      · simp only [last, if_false] at accepted ⊢
        by_cases forbidden : k = 0xe2792aca ∨ k = 0x44415441 ∨ k = 0x0537be77
        · simp [record, forbidden] at accepted
        by_cases large : limit < offset + 8 + (n + 7) / 8 * 8
        · simp [record, forbidden, large] at accepted
        simp only [if_neg forbidden, if_neg large] at accepted ⊢
        have supported : ¬ Unsupported k := forbidden
        obtain ⟨follows, rest⟩ := ih accepted diskFuel (k :: seen) (by omega)
        constructor
        · apply Follows.record
          split_ifs with twice wide
          · exact .refuse (.duplicate k) _
          · omega
          · split
            next err refused => exact .refuse (validateHeaderExtension_refused supported refused) _
            · rw [drop_read, show limit - offset - (8 + (n + 7) / 8 * 8) =
                limit - (offset + 8 + (n + 7) / 8 * 8) by omega, ← add_assoc]
              exact follows
        · intro visit member
          rcases mem_cons.mp member with rfl | later
          · exact supported
          · exact rest visit later

/-- The end of the header and of the cluster, as both readers decode them. -/
def headerEnd (file : Store) : Nat := if beNat (file.read 4 4) = 3 then beNat (file.read 100 4) else 72

def clusterEnd (file : Store) : Nat := 1 <<< beNat (file.read 20 4)

theorem validateUploadedQCOW2_walk {virtualSize : Nat}
    (valid : validateUploadedQCOW2 file = .ok virtualSize) :
    headerEnd file ≤ clusterEnd file ∧
      (uploadWalk file (clusterEnd file) (clusterEnd file) (headerEnd file)).2 = .ok () := by
  rw [uploadWalk_result]
  unfold validateUploadedQCOW2 at valid
  iterate 11
    replace valid := (ok_of_check valid).2
  obtain ⟨bounds, walked⟩ := ok_of_check valid
  refine ⟨le_trans (not_lt.mp bounds) (sub_le _ _), ?_⟩
  split at walked
  next ok => exact ok
  · cases walked

/-- For an accepted upload the disk driver visits the extensions that the gateway visited,
    none of them of a kind that the gateway refuses, until it refuses one of them itself.
    For every input both walks end and stay inside the cluster. -/
theorem extension_walks_agree :
    (∀ (file : Store) (virtualSize : Nat), validateUploadedQCOW2 file = .ok virtualSize →
      let area := (file.read 0 (clusterEnd file)).drop (headerEnd file)
      let upload := uploadWalk file (clusterEnd file) (clusterEnd file) (headerEnd file)
      let disk := diskWalk area.length [] (headerEnd file) area
      disk.2 = Disk.validateHeaderExtensions area ∧ Follows disk upload.1 ∧
        ∀ visit ∈ upload.1, ¬ Unsupported visit.kind) ∧
    (∀ (file : Store) (limit offset : Nat),
      (uploadWalk file limit limit offset).2 = validateQCOW2Extensions file limit limit offset ∧
      (∀ fuel, limit ≤ fuel → validateQCOW2Extensions file limit fuel offset =
        validateQCOW2Extensions file limit limit offset) ∧
      ∀ visit ∈ (uploadWalk file limit limit offset).1,
        offset ≤ visit.position ∧ visit.position + 8 ≤ limit) ∧
    (∀ (area : Bytes) (position : Nat),
      Disk.validateHeaderExtensions area ≠ .error .outOfFuel ∧
      ∀ visit ∈ (diskWalk area.length [] position area).1,
        position ≤ visit.position ∧ visit.position + 8 ≤ position + area.length) := by
  refine ⟨?_, ?_, ?_⟩
  · intro file virtualSize valid
    obtain ⟨bounds, walked⟩ := validateUploadedQCOW2_walk valid
    have area : (file.read 0 (clusterEnd file)).drop (headerEnd file) =
        file.read (headerEnd file) (clusterEnd file - headerEnd file) := by
      rw [drop_read, zero_add]
    obtain ⟨follows, supported⟩ := diskWalk_follows _ walked
      (clusterEnd file - headerEnd file) [] le_rfl
    rw [area]
    simp only [Store.read_length]
    refine ⟨?_, follows, supported⟩
    rw [diskWalk_result, Disk.validateHeaderExtensions, Store.read_length]
  · intro file limit offset
    refine ⟨uploadWalk_result .., ?_, uploadWalk_inside limit offset⟩
    intro fuel enough
    rw [← uploadWalk_result, ← uploadWalk_result, uploadWalk_fuel limit fuel offset (by omega) enough]
  · intro area position
    refine ⟨?_, diskWalk_inside area.length [] position area⟩
    have total := diskWalk_total area.length [] position area le_rfl
    rwa [diskWalk_result] at total

end Gokvm.Gateway
