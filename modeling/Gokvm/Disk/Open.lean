import Gokvm.Disk.Census

/-! # Opening an image

The header of a file describes a geometry. `openQCOW2` succeeds on a silent host
exactly when the header is accepted, the layout is valid and the ownership bitmap
fits in memory; the image it returns satisfies the invariant.
-/

namespace Gokvm.Disk

open Lib List Nat
open Prog

/-! ## Headers -/

def headerOf (f : Store) : Header :=
  let fixed := decodeHeader (f.read 0 qcow2HeaderV2Len)
  if fixed.version = qcow2Version2 then fixed
  else decodeHeaderV3 fixed (f.read qcow2HeaderV2Len (qcow2HeaderV3Len - qcow2HeaderV2Len))

/-- The header is accepted. -/
structure HeaderOk (f : Store) : Prop where
  magic : part (f.read 0 qcow2HeaderV2Len) 0 4 = qcow2Magic
  version : (headerOf f).version = qcow2Version2 ∨ (headerOf f).version = qcow2Version3
  header : validateHeader (headerOf f) = .ok ()
  cluster : checkHeaderCluster (headerOf f) (f.read 0 (1 <<< (headerOf f).clusterBits)) = .ok ()

/-- What the checks of a header say about the geometry it describes. -/
structure HeaderChecked (h : Header) : Prop where
  bitsLow : 9 ≤ h.clusterBits
  bitsHigh : h.clusterBits ≤ 21
  sizeSmall : h.size ≤ maxInt64
  l1Nonempty : 0 < h.l1Size
  refcountNonempty : 0 < h.refcountTableClusters
  l1Aligned : h.l1TableOffset % 2 ^ h.clusterBits = 0
  refcountAligned : h.refcountTableOffset % 2 ^ h.clusterBits = 0
  l1Small : h.l1Size * 8 ≤ qcow2MaxL1Bytes
  refcountSmall : h.refcountTableClusters * 2 ^ h.clusterBits ≤ qcow2MaxRefcountTableBytes
  covers : h.size ≤ h.l1Size * (2 ^ h.clusterBits * (2 ^ h.clusterBits / 8))

theorem covered_of_required {size coverage entries : Nat} (positive : 0 < coverage)
    (enough : size / coverage + (if size % coverage ≠ 0 then 1 else 0) ≤ entries) :
    size ≤ entries * coverage := by
  have split := div_add_mod size coverage
  have small := mod_lt size positive
  have scaled := mul_le_mul_right coverage enough
  rw [add_mul, mul_comm (size / coverage)] at scaled
  by_cases whole : size % coverage = 0
  · simp only [whole, ne_eq, not_true, if_false] at scaled
    omega
  · simp only [whole, ne_eq, not_false_eq_true, if_true] at scaled
    omega

theorem validateHeader_checked {h : Header} (accepted : validateHeader h = .ok ()) :
    HeaderChecked h := by
  obtain ⟨fields, geometry⟩ := refuse_then.mp accepted
  simp only [refuse_ok, forall_mem_cons, decide_eq_false_iff_not, one_shiftLeft] at fields
  simp only [validateHeaderGeometry, refuse_ok, forall_mem_cons, decide_eq_false_iff_not,
    one_shiftLeft] at geometry
  obtain ⟨_, bits, size, _, l1, _, refcounts, _, _, _, _, _, _, _, _, _, _, aligned, _⟩ := fields
  obtain ⟨_, l1Small, refcountSmall, _, required, _⟩ := geometry
  have low : 2 ^ 9 ≤ 2 ^ h.clusterBits := Nat.pow_le_pow_right (by decide) (by omega)
  have positive : 0 < 2 ^ h.clusterBits * (2 ^ h.clusterBits / 8) :=
    mul_pos (by omega) (by omega)
  exact
    { bitsLow := by omega
      bitsHigh := by omega
      sizeSmall := by omega
      l1Nonempty := by omega
      refcountNonempty := by omega
      l1Aligned := by omega
      refcountAligned := by omega
      l1Small := by omega
      refcountSmall := by omega
      covers := covered_of_required positive (by omega) }

/-- The geometry a checked header describes; `first` is the cluster that holds it. -/
def HeaderChecked.geometry {h : Header} (checked : HeaderChecked h) (first : Bytes) : Geometry where
  header := first
  version := h.version
  size := h.size
  bits := h.clusterBits
  l1TableOffset := h.l1TableOffset
  l1Size := h.l1Size
  refcountTableOffset := h.refcountTableOffset
  refcountTableClusters := h.refcountTableClusters
  bits_low := checked.bitsLow
  bits_high := checked.bitsHigh
  l1_nonempty := checked.l1Nonempty
  refcount_nonempty := checked.refcountNonempty
  l1_aligned := checked.l1Aligned
  refcount_aligned := checked.refcountAligned
  l1_small := checked.l1Small
  refcount_small := checked.refcountSmall
  covers := checked.covers
  size_small := checked.sizeSmall

/-- The file has an accepted header, and `g` is the geometry it describes. -/
structure Describes (f : Store) (g : Geometry) : Prop where
  ok : HeaderOk f
  header : f.read 0 g.clusterSize = g.header
  version : (headerOf f).version = g.version
  size : (headerOf f).size = g.size
  bits : (headerOf f).clusterBits = g.bits
  l1TableOffset : (headerOf f).l1TableOffset = g.l1TableOffset
  l1Size : (headerOf f).l1Size = g.l1Size
  refcountTableOffset : (headerOf f).refcountTableOffset = g.refcountTableOffset
  refcountTableClusters : (headerOf f).refcountTableClusters = g.refcountTableClusters

variable {f f' : Store} {g : Geometry} {q q' : Image}

theorem HeaderOk.describes (ok : HeaderOk f) : ∃ g, Describes f g :=
  ⟨(validateHeader_checked ok.header).geometry (f.read 0 (2 ^ (headerOf f).clusterBits)),
    ok, rfl, rfl, rfl, rfl, rfl, rfl, rfl, rfl⟩

theorem Describes.clusterSize (describes : Describes f g) :
    1 <<< (headerOf f).clusterBits = g.clusterSize := by
  rw [describes.bits, one_shiftLeft, Geometry.clusterSize]

theorem Describes.unique {g' : Geometry} (left : Describes f g) (right : Describes f g') : g = g' := by
  have bits := left.bits.symm.trans right.bits
  have header := left.header.symm.trans (congrArg (fun b => f.read 0 (2 ^ b)) bits |>.trans right.header)
  have version := left.version.symm.trans right.version
  have size := left.size.symm.trans right.size
  have l1TableOffset := left.l1TableOffset.symm.trans right.l1TableOffset
  have l1Size := left.l1Size.symm.trans right.l1Size
  have refcountTableOffset := left.refcountTableOffset.symm.trans right.refcountTableOffset
  have refcountTableClusters := left.refcountTableClusters.symm.trans right.refcountTableClusters
  cases g
  cases g'
  simp only at bits header version size l1TableOffset l1Size refcountTableOffset refcountTableClusters
  subst bits header version size l1TableOffset l1Size refcountTableOffset refcountTableClusters
  rfl

theorem read_first (g : Geometry) (f : Store) {off n : Nat} (inside : off + n ≤ 512) :
    f.read off n = part (f.read 0 g.clusterSize) off n := by
  have low := g.clusterSize_low
  rw [Store.part_read (by omega), zero_add]

/-- Files with the same first cluster have the same geometry. -/
theorem Describes.congr (describes : Describes f g) (same : f'.read 0 g.clusterSize = g.header) :
    Describes f' g := by
  have both : f'.read 0 g.clusterSize = f.read 0 g.clusterSize := same.trans describes.header.symm
  have fixed : f'.read 0 qcow2HeaderV2Len = f.read 0 qcow2HeaderV2Len := by
    rw [read_first g f' (by decide), read_first g f (by decide), both]
  have rest : f'.read qcow2HeaderV2Len (qcow2HeaderV3Len - qcow2HeaderV2Len) =
      f.read qcow2HeaderV2Len (qcow2HeaderV3Len - qcow2HeaderV2Len) := by
    rw [read_first g f' (by decide), read_first g f (by decide), both]
  have header : headerOf f' = headerOf f := by rw [headerOf, headerOf, fixed, rest]
  have ok := describes.ok
  exact
    { ok :=
        { magic := by rw [fixed]; exact ok.magic
          version := by rw [header]; exact ok.version
          header := by rw [header]; exact ok.header
          cluster := by
            have cluster := ok.cluster
            rw [describes.clusterSize] at cluster
            rw [header, describes.clusterSize, both]
            exact cluster }
      header := same
      version := by rw [header]; exact describes.version
      size := by rw [header]; exact describes.size
      bits := by rw [header]; exact describes.bits
      l1TableOffset := by rw [header]; exact describes.l1TableOffset
      l1Size := by rw [header]; exact describes.l1Size
      refcountTableOffset := by rw [header]; exact describes.refcountTableOffset
      refcountTableClusters := by rw [header]; exact describes.refcountTableClusters }

theorem HeaderOk.low (ok : HeaderOk f) : 512 ≤ 1 <<< (headerOf f).clusterBits := by
  rw [one_shiftLeft]
  exact Nat.pow_le_pow_right (by decide : 0 < 2) (validateHeader_checked ok.header).bitsLow

theorem headerOf_version (f : Store) :
    (headerOf f).version = (decodeHeader (f.read 0 qcow2HeaderV2Len)).version := by
  rw [headerOf]
  split <;> rfl

theorem readHeaderVersion_spec (q : Image) :
    Wp (readHeaderVersion (decodeHeader (q.file.read 0 qcow2HeaderV2Len))) q (fun r q' => Heard q q' ∧
      match r with
      | .ok h => h = headerOf q.file ∧
          ((headerOf q.file).version = qcow2Version2 ∨ (headerOf q.file).version = qcow2Version3)
      | .error _ => q.replies ≠ [] ∨ q.file.size < 512 ∨
          ¬((headerOf q.file).version = qcow2Version2 ∨ (headerOf q.file).version = qcow2Version3)) := by
  have same : Heard q q := ⟨q.replies, rfl, id⟩
  rw [headerOf_version]
  unfold readHeaderVersion headerOf
  by_cases two : (decodeHeader (q.file.read 0 qcow2HeaderV2Len)).version = qcow2Version2
  · rw [if_pos two, if_pos two]
    exact ⟨same, rfl, .inl two⟩
  · rw [if_neg two, if_neg two]
    by_cases three : (decodeHeader (q.file.read 0 qcow2HeaderV2Len)).version = qcow2Version3
    · rw [if_pos three]
      refine (fileReadAt_spec _ _ q).attempt ?_ ?_
      · rintro _ q1 ⟨heard, rfl⟩
        exact ⟨heard, rfl, .inr three⟩
      · rintro err q1 ⟨heard, noisy | short⟩
        · exact ⟨heard, .inl noisy⟩
        · exact ⟨heard, .inr (.inl (lt_of_lt_of_le short (by decide)))⟩
    · rw [if_neg three]
      exact ⟨same, .inr (.inr (fun known => known.elim two three))⟩

theorem validateHeaderCluster_spec (h : Header) (q : Image) :
    Wp (validateHeaderCluster h) q (fun r q' => Heard q q' ∧
      match r with
      | .ok _ => checkHeaderCluster h (q.file.read 0 (1 <<< h.clusterBits)) = .ok ()
      | .error _ => q.replies ≠ [] ∨ q.file.size < 1 <<< h.clusterBits ∨
          checkHeaderCluster h (q.file.read 0 (1 <<< h.clusterBits)) ≠ .ok ()) := by
  refine (fileReadAt_spec _ _ q).attempt ?_ ?_
  · rintro _ q1 ⟨heard, rfl⟩
    simp only [wp_query]
    refine ⟨heard, ?_⟩
    cases checkHeaderCluster h (q.file.read 0 (1 <<< h.clusterBits)) with
    | ok _ => rfl
    | error err => exact .inr (.inr (by simp))
  · rintro err q1 ⟨heard, noisy | short⟩
    · exact ⟨heard, .inl noisy⟩
    · exact ⟨heard, .inr (.inl (by omega))⟩

theorem readHeader_spec (q : Image) :
    Wp readHeader q (fun r q' => Heard q q' ∧
      match r with
      | .ok h => h = headerOf q.file ∧ HeaderOk q.file
      | .error _ => q.replies ≠ [] ∨
          ¬(HeaderOk q.file ∧ 1 <<< (headerOf q.file).clusterBits ≤ q.file.size)) := by
  have short : q.file.size < 512 →
      ¬(HeaderOk q.file ∧ 1 <<< (headerOf q.file).clusterBits ≤ q.file.size) := by
    rintro small ⟨ok, fits⟩
    have low := ok.low
    omega
  refine (fileReadAt_spec _ _ q).attempt ?_ ?_
  · rintro _ q1 ⟨heard, rfl⟩
    by_cases magic : part (q.file.read 0 qcow2HeaderV2Len) 0 4 = qcow2Magic
    · simp only [magic, ne_eq, not_true, if_false]
      have version := readHeaderVersion_spec q1
      rw [heard.file] at version
      refine version.bind ?_ ?_
      · rintro _ q2 ⟨heard1, rfl, known⟩
        have heard2 := heard.trans heard1
        simp only [wp_query_bind]
        cases checked : validateHeader (headerOf q.file) with
        | error err =>
          refine ⟨heard2, .inr ?_⟩
          rintro ⟨ok, _⟩
          rw [ok.header] at checked
          cases checked
        | ok _ =>
          have cluster := validateHeaderCluster_spec (headerOf q.file) q2
          rw [heard2.file] at cluster
          refine cluster.bind ?_ ?_
          · rintro _ q3 ⟨heard3, accepted⟩
            exact ⟨heard2.trans heard3, rfl, magic, known, checked, accepted⟩
          · rintro err q3 ⟨heard3, cause⟩
            refine ⟨heard2.trans heard3, ?_⟩
            rcases cause with noisy | small | bad
            · exact .inl fun silent => noisy (heard2.quiet silent)
            · exact .inr fun both => absurd both.2 (by omega)
            · exact .inr fun both => bad both.1.cluster
      · rintro err q2 ⟨heard1, cause⟩
        refine ⟨heard.trans heard1, ?_⟩
        rcases cause with noisy | small | unknown
        · exact .inl fun silent => noisy (heard.quiet silent)
        · exact .inr (short small)
        · exact .inr fun both => unknown both.1.version
    · simp only [magic, ne_eq, not_false_eq_true, if_true, wp_fail]
      exact ⟨heard, .inr fun both => magic both.1.magic⟩
  · rintro err q1 ⟨heard, noisy | small⟩
    · exact ⟨heard, .inl noisy⟩
    · exact ⟨heard, .inr (short (lt_of_lt_of_le small (by decide)))⟩

/-! ## Tables and layout -/

/-- The image that `open` has filled in from the header and the tables. -/
theorem Loaded.opened (describes : Describes f g) (replies : List Reply) :
    Loaded g { newImage f replies with
      version := (headerOf f).version
      size := (headerOf f).size
      clusterSize := 1 <<< (headerOf f).clusterBits
      l1TableOffset := (headerOf f).l1TableOffset
      refcountTableOffset := (headerOf f).refcountTableOffset
      l2Entries := 1 <<< (headerOf f).clusterBits / 8
      refcountBlockEntries := 1 <<< (headerOf f).clusterBits / 2
      l1 := (range g.l1Size).map
        (fun i => beNat (f.read ((headerOf f).l1TableOffset + i * 8) 8))
      refcountTable := (range g.refcountEntries).map
        (fun t => beNat (f.read ((headerOf f).refcountTableOffset + t * 8) 8)) } where
  healthy := rfl
  version := describes.version
  size := describes.size
  clusterSize := describes.clusterSize
  l1TableOffset := describes.l1TableOffset
  refcountTableOffset := describes.refcountTableOffset
  l2Entries := congrArg (· / 8) describes.clusterSize
  blockEntries := congrArg (· / 2) describes.clusterSize
  l1 := by
    rw [describes.l1TableOffset]
    exact map_congr_left fun i member => (if_pos (mem_range.mp member)).symm
  refcountTable := by
    rw [describes.refcountTableOffset]
    exact map_congr_left fun t member => (if_pos (mem_range.mp member)).symm
  cache :=
    { limit := zero_le _
      next := g.cacheLimit_pos
      hit := nofun
      indexed := nofun }

theorem Geometry.refcountEntries_small (g : Geometry) : g.refcountEntries ≤ 2 ^ 20 := by
  have small := g.refcount_small
  simp only [qcow2MaxRefcountTableBytes, Geometry.refcountEntries, Geometry.clusterSize] at *
  omega

theorem readTable_spec (what : String) (off entries : Nat) (q : Image) :
    Wp (readTable what off entries) q (fun r q' => Heard q q' ∧
      match r with
      | .ok table => table = (range entries).map (fun i => beNat (q.file.read (off + i * 8) 8))
      | .error _ => q.replies ≠ [] ∨ qcow2MaxL1Bytes / 8 < entries ∨
          q.file.size < off + entries * 8) := by
  refine (readUint64Table_spec off entries q).attempt ?_ ?_
  · rintro table q1 ⟨heard, _, words⟩
    exact ⟨heard, words⟩
  · rintro err q1 ⟨heard, cause⟩
    exact ⟨heard, cause⟩

/-- The layout of a file is accepted for the geometry. -/
def Accepted (g : Geometry) (f : Store) : Prop :=
  LayoutChecked g f ∧ Claimable (claimedClusters g f)

theorem openTables_spec (describes : Describes f g) (replies : List Reply) :
    Wp (openTables (headerOf f)) (newImage f replies) (fun r q' =>
      match r with
      | .ok _ => Accepted g f ∧ Loaded g q' ∧ q'.file = f ∧ q'.l2Cache = (fun _ => none) ∧
          (replies = [] → q'.replies = [])
      | .error _ => replies ≠ [] ∨ ¬Accepted g f) := by
  have l1Small := g.l1_small
  have refcountSmall := g.refcount_small
  have l1Int : checkedInt (headerOf f).l1Size = .ok g.l1Size := by
    rw [describes.l1Size]
    exact checkedInt_ok (by simp only [qcow2MaxL1Bytes, maxInt64] at *; omega)
  have refcountInt : checkedInt ((headerOf f).refcountTableClusters *
      (1 <<< (headerOf f).clusterBits) / 8) = .ok g.refcountEntries := by
    rw [describes.refcountTableClusters, describes.clusterSize]
    refine checkedInt_ok ?_
    simp only [Geometry.clusterSize, qcow2MaxRefcountTableBytes, maxInt64] at *
    omega
  unfold openTables
  simp only [wp_update_bind, wp_query_bind, l1Int]
  refine (readTable_spec _ _ _ _).bind ?_ ?_
  · rintro _ q1 ⟨⟨rest, rfl, quiet⟩, rfl⟩
    simp only [wp_update_bind, wp_query_bind, refcountInt]
    refine (readTable_spec _ _ _ _).bind ?_ ?_
    · rintro _ q2 ⟨⟨rest', rfl, quiet'⟩, rfl⟩
      simp only [wp_update_bind]
      refine (validateLayout_spec (Loaded.opened describes rest') describes.l1Size
        describes.refcountTableClusters).mono ?_
      rintro r q3 ⟨looked, decides⟩
      cases r with
      | ok _ =>
        exact ⟨decides, looked.loaded, looked.file, looked.l2Cache,
          fun silent => looked.quiet (quiet' (quiet silent))⟩
      | error err => exact decides.imp (fun noisy silent => noisy (quiet' (quiet silent))) id
    · rintro err q2 ⟨_, noisy | large | outside⟩
      · exact .inl fun silent => noisy (quiet silent)
      · have few := g.refcountEntries_small
        simp only [qcow2MaxL1Bytes] at large
        omega
      · refine .inr fun accepted => ?_
        have fits := accepted.1.fits (g.refcountTableOffset, g.refcountTableClusters * g.clusterSize)
          (by simp [regions])
        have whole := div_mul_le_self (g.refcountTableClusters * g.clusterSize) 8
        rw [describes.refcountTableOffset] at outside
        have short : f.size < g.refcountTableOffset + g.refcountEntries * 8 := outside
        rw [Geometry.refcountEntries] at short
        omega
  · rintro err q1 ⟨_, noisy | large | outside⟩
    · exact .inl noisy
    · simp only [qcow2MaxL1Bytes] at large l1Small
      omega
    · refine .inr fun accepted => ?_
      have fits := accepted.1.fits (g.l1TableOffset, g.l1Size * 8) (by simp [regions])
      rw [describes.l1TableOffset] at outside
      have short : f.size < g.l1TableOffset + g.l1Size * 8 := outside
      omega

theorem openImage_spec (f : Store) (replies : List Reply) :
    Wp openImage (newImage f replies) (fun r q' =>
      match r with
      | .ok _ => ∃ g, Describes f g ∧ Accepted g f ∧ Loaded g q' ∧ q'.file = f ∧
          q'.l2Cache = (fun _ => none) ∧ (replies = [] → q'.replies = [])
      | .error _ => replies ≠ [] ∨ ¬∃ g, Describes f g ∧ Accepted g f) := by
  refine (readHeader_spec (newImage f replies)).bind ?_ ?_
  · rintro _ q1 ⟨⟨rest, rfl, quiet⟩, rfl, ok⟩
    obtain ⟨g, describes⟩ : ∃ g, Describes f g := HeaderOk.describes ok
    refine (openTables_spec describes rest).mono ?_
    intro r q2 post
    cases r with
    | ok _ =>
      obtain ⟨accepted, loaded, file, l2Cache, quiet'⟩ := post
      exact ⟨g, describes, accepted, loaded, file, l2Cache, fun silent => quiet' (quiet silent)⟩
    | error err =>
      refine post.imp (fun noisy silent => noisy (quiet silent)) ?_
      rintro bad ⟨g', describes', accepted⟩
      rw [describes'.unique describes] at accepted
      exact bad accepted
  · rintro err q1 ⟨_, noisy | bad⟩
    · exact .inl noisy
    · refine .inr ?_
      rintro ⟨g, describes, checked, _⟩
      refine bad ⟨describes.ok, ?_⟩
      have fits := checked.fits (0, g.clusterSize) mem_cons_self
      rw [zero_add] at fits
      show 1 <<< (headerOf f).clusterBits ≤ f.size
      rw [describes.clusterSize]
      exact fits

theorem openQCOW2_ok {replies : List Reply} : openQCOW2 f replies = .ok q ↔
    openImage (newImage f replies) = (.ok (), q) := by
  unfold openQCOW2
  rcases openImage (newImage f replies) with ⟨r, q'⟩
  cases r with
  | ok _ | error _ => simp

theorem open_sound {replies : List Reply} (opened : openQCOW2 f replies = .ok q) :
    ∃ g, Describes f g ∧ Inv g q ∧ q.file = f ∧ (replies = [] → q.replies = []) := by
  have spec := openImage_spec f replies
  rw [Wp, openQCOW2_ok.mp opened] at spec
  obtain ⟨g, describes, accepted, loaded, file, l2Cache, quiet⟩ := spec
  refine ⟨g, describes, ?_, file, quiet⟩
  exact
    { loaded with
      valid := by
        rw [file]
        exact ((layout_accepted_iff describes.header).mp accepted).1
      l2Cache := fun i table found => by
        rw [l2Cache] at found
        cases found }

theorem open_complete (describes : Describes f g) (valid : Valid g (metadataOf g f))
    (limit : (pages (claimedClusters g f)).card ≤ qcow2MaxOwnershipPages) :
    ∃ q, openQCOW2 f [] = .ok q := by
  have spec := openImage_spec f []
  have accepted := (layout_accepted_iff describes.header).mpr ⟨valid, limit⟩
  unfold openQCOW2
  rw [Wp] at spec
  rcases result : openImage (newImage f []) with ⟨r, q⟩
  rw [result] at spec
  cases r with
  | ok _ => exact ⟨q, rfl⟩
  | error err =>
    rcases spec with noisy | bad
    · exact absurd rfl noisy
    · exact absurd ⟨g, describes, accepted⟩ bad

end Gokvm.Disk
