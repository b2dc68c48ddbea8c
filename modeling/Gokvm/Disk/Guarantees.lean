import Gokvm.Disk.Faults
import Gokvm.Disk.Overflow

/-! # What an accepted image guarantees

A flat disk, a layout that can be opened again, and safety on a failing host: each
holds for every sequence of calls whose writes fit below 2^56, and each fails for
the sparse image of 2^56 bytes.
-/

namespace Gokvm.Disk

open Lib
open Prog

variable {q : Image}

/-! ## Two images

The first fits in four clusters of 512 bytes; nothing is allocated in it. The
second is the sparse image of 2^56 bytes. -/

def sampleHeader : Bytes :=
  qcow2Magic ++ beBytes 4 3 ++ beBytes 8 0 ++ beBytes 4 0 ++ beBytes 4 9 ++ beBytes 8 4096 ++
    beBytes 4 0 ++ beBytes 4 1 ++ beBytes 8 1536 ++ beBytes 8 512 ++ beBytes 4 1 ++ beBytes 4 0 ++
    beBytes 8 0 ++ beBytes 8 0 ++ beBytes 8 0 ++ beBytes 8 0 ++ beBytes 4 4 ++ beBytes 4 104

def sampleFile : Store :=
  (Store.blank 2048).writes
    [(0, sampleHeader), (512, beBytes 8 1024), (1024, [0, 1, 0, 1, 0, 1, 0, 1])]

theorem sampleFile_opens (replies : List Reply)
    (accepted : (openQCOW2 sampleFile replies).toOption.isSome) :
    ∃ q, openQCOW2 sampleFile replies = .ok q := by
  cases result : openQCOW2 sampleFile replies with
  | ok q => exact ⟨q, rfl⟩
  | error err =>
    rw [result] at accepted
    cases accepted

theorem sampleFile_fits {replies : List Reply} (opened : openQCOW2 sampleFile replies = .ok q)
    (calls : List Call) : AllFit calls q := by
  obtain ⟨g, describes, inv, _, _⟩ := open_sound opened
  have bits : g.bits = 9 := by
    rw [← describes.bits]
    decide +kernel
  have clusters : g.refcountTableClusters = 1 := by
    rw [← describes.refcountTableClusters]
    decide +kernel
  refine Safe.allFit ?_ (.inr inv)
  rw [Geometry.refcountCovers, Geometry.refcountEntries, Geometry.blockEntries, Geometry.clusterSize,
    bits, clusters]
  decide

theorem hugeFile_written : ∃ q g mid q', openQCOW2 hugeFile [] = .ok q ∧ q.contents.size = 2 ^ 21 ∧
    Describes hugeFile g ∧ writeAt [1] 0 q = (.ok (1, none), q') ∧ Overflowed g mid 0 (2 ^ 35) q' := by
  obtain ⟨g, huge⟩ := hugeFile_geometry
  obtain ⟨q, opened, beyond⟩ := huge.opened
  obtain ⟨mid, q', run, overflowed⟩ := beyond.write 1
  exact ⟨q, g, mid, q', opened, beyond.inv.size.trans huge.size, huge.describes, run, overflowed⟩

/-! ## The flat disk -/

/-- An image is a flat disk: on a host that does not fail, reads and writes that fit
    answer as an array of the bytes its tables describe. -/
theorem image_is_flat_disk {f : Store} (opened : openQCOW2 f [] = .ok q) (calls : List Call)
    (fit : AllFit calls q) :
    ∃ answers q', serveAll calls q = (.ok answers, q') ∧ q.contents.Runs calls answers q'.contents := by
  obtain ⟨g, _, inv, _, quiet⟩ := open_sound opened
  obtain ⟨answers, q', run, _, _, runs⟩ := serveAll_flat inv (quiet rfl) fit
  exact ⟨answers, q', run, runs⟩

/-- A write and a read of the small image. -/
theorem sampleFile_is_flat : ∃ q, openQCOW2 sampleFile [] = .ok q ∧
    AllFit [.write [7] 3, .read 2 3] q ∧
    ∃ answers q', serveAll [.write [7] 3, .read 2 3] q = (.ok answers, q') ∧
      q.contents.Runs [.write [7] 3, .read 2 3] answers q'.contents := by
  obtain ⟨q, opened⟩ := sampleFile_opens [] (by decide +kernel)
  have fit := sampleFile_fits opened [.write [7] 3, .read 2 3]
  exact ⟨q, opened, fit, image_is_flat_disk opened _ fit⟩

/-- The byte written to the sparse image cannot be read back. -/
theorem hugeFile_is_not_flat : ∃ q, openQCOW2 hugeFile [] = .ok q ∧
    ¬∃ answers q', serveAll [.write [1] 0, .read 1 0] q = (.ok answers, q') ∧
      q.contents.Runs [.write [1] 0, .read 1 0] answers q'.contents := by
  obtain ⟨q, g, mid, q', opened, size, _, wrote, overflowed⟩ := hugeFile_written
  obtain ⟨err, unread⟩ := overflowed.unreadable
  have run : serveAll [.write [1] 0, .read 1 0] q =
      (.ok [.wrote 1 none, .read [] (some err)], q') := by
    simp only [serveAll, serve, bind, wrote, pure]
    rw [show readAt 1 0 q' = _ from unread]
  refine ⟨q, opened, ?_⟩
  rintro ⟨answers, q'', same, runs⟩
  rw [run] at same
  injection same with answered final
  injection answered with answered
  subst answered final
  cases runs with
  | cons first rest =>
    cases first with
    | write stored =>
      cases rest with
      | cons second _ =>
        -- A disk of this size answers with one byte.
        have answer := second.read_eq
        rw [stored.stored, FlatDisk.readAt] at answer
        simp [FlatDisk.write, size, slice] at answer

/-! ## The layout -/

/-- Writing keeps the layout: after any calls that fit, the file has a valid layout
    again, and opening it shows the same disk as long as the ownership bitmap fits. -/
theorem writes_keep_layout {f : Store} (opened : openQCOW2 f [] = .ok q) (calls : List Call)
    (fit : AllFit calls q) :
    ∃ answers q' g, serveAll calls q = (.ok answers, q') ∧ Describes q'.file g ∧
      Valid g (metadataOf g q'.file) ∧
      ((pages (claimedClusters g q'.file)).card ≤ qcow2MaxOwnershipPages →
        ∃ again, openQCOW2 q'.file [] = .ok again ∧ again.contents = q'.contents) := by
  obtain ⟨g, describes, inv, file, quiet⟩ := open_sound opened
  obtain ⟨answers, q', run, inv', _, _⟩ := serveAll_flat inv (quiet rfl) fit
  have describes' : Describes q'.file g := describes.congr inv'.valid.header
  refine ⟨answers, q', g, run, describes', inv'.valid, fun limit => ?_⟩
  obtain ⟨again, reopened⟩ := open_complete describes' inv'.valid limit
  refine ⟨again, reopened, ?_⟩
  obtain ⟨g', described, sound, same, _⟩ := open_sound reopened
  rw [← describes'.unique described] at sound
  rw [sound.contents_eq, inv'.contents_eq, same]

/-- Writing to the small image and opening it again. -/
theorem sampleFile_keeps_layout : ∃ q, openQCOW2 sampleFile [] = .ok q ∧
    AllFit [.write [7] 3, .write [8] 600] q ∧
    ∃ answers q' g, serveAll [.write [7] 3, .write [8] 600] q = (.ok answers, q') ∧
      Describes q'.file g ∧ Valid g (metadataOf g q'.file) ∧
      ((pages (claimedClusters g q'.file)).card ≤ qcow2MaxOwnershipPages →
        ∃ again, openQCOW2 q'.file [] = .ok again ∧ again.contents = q'.contents) := by
  obtain ⟨q, opened⟩ := sampleFile_opens [] (by decide +kernel)
  have fit := sampleFile_fits opened [.write [7] 3, .write [8] 600]
  exact ⟨q, opened, fit, writes_keep_layout opened _ fit⟩

/-- The sparse image has no valid layout after its first write and is not opened again. -/
theorem hugeFile_loses_layout : ∃ q answers q', openQCOW2 hugeFile [] = .ok q ∧
    serveAll [.write [1] 0] q = (.ok answers, q') ∧
    (¬∃ g, Describes q'.file g ∧ Valid g (metadataOf g q'.file)) ∧
    ∀ again, openQCOW2 q'.file [] ≠ .ok again := by
  obtain ⟨q, g, mid, q', opened, _, describes, wrote, overflowed⟩ := hugeFile_written
  have broken := overflowed.not_valid describes
  refine ⟨q, [.wrote 1 none], q', opened, ?_, broken, ?_⟩
  · simp only [serveAll, serve, bind, wrote, pure]
  · intro again reopened
    obtain ⟨g', described, inv, file, _⟩ := open_sound reopened
    refine broken ⟨g', described, ?_⟩
    rw [← file]
    exact inv.valid

/-! ## Ownership -/

/-- The arguments of a call of `claim`. -/
structure ClaimCall where
  offset : Nat
  length : Nat
  clusterSize : Nat
  kind : String

open ClaimCall

def ClaimCall.clusters (call : ClaimCall) : List Nat :=
  List.range' (call.offset / call.clusterSize)
    ((call.length + call.clusterSize - 1) / call.clusterSize)

def ClaimCall.run (owners : ClusterOwners) (call : ClaimCall) : Except GoError ClusterOwners :=
  claim owners call.offset call.length call.clusterSize call.kind

theorem claimed_holds {calls : List ClaimCall} {owners : ClusterOwners}
    (claimed : calls.foldlM run ∅ = .ok owners) :
    Holds owners (calls.flatMap clusters) := by
  have all := foldlM_claims clusters (fun _ => True)
    (fun owners clusters call holds =>
      claim_spec holds call.offset call.length call.clusterSize call.kind) calls ∅ [] Holds.empty
  have ran : Claims [] (calls.flatMap clusters) _ (calls.foldlM run ∅) := all
  rw [claimed] at ran
  exact ran.2

theorem claim_disjoint {owners : ClusterOwners} {clusters : List Nat} (holds : Holds owners clusters)
    (call : ClaimCall)
    (limit : (pages (clusters ++ call.clusters)).card ≤ qcow2MaxOwnershipPages) :
    (∃ owners', call.run owners = .ok owners') ↔ ∀ c ∈ call.clusters, c ∉ clusters := by
  have spec : Claims clusters call.clusters True (call.run owners) :=
    claim_spec holds call.offset call.length call.clusterSize call.kind
  have nodup : (clusters ++ call.clusters).Nodup ↔ ∀ c ∈ call.clusters, c ∉ clusters := by
    have range : call.clusters.Nodup := List.nodup_range'
    rw [List.nodup_append]
    constructor
    · exact fun both c inside claimed => both.2.2 c claimed c inside rfl
    · exact fun apart => ⟨holds.claimable.1, range,
        fun a claimed b inside same => apart b inside (same ▸ claimed)⟩
  rw [← nodup]
  cases ran : call.run owners with
  | ok owners' =>
      rw [ran] at spec
      exact ⟨fun _ => spec.2.claimable.1, fun _ => ⟨owners', rfl⟩⟩
  | error err =>
      rw [ran] at spec
      refine ⟨?_, fun distinct => absurd ⟨trivial, distinct, limit⟩ spec⟩
      rintro ⟨_, wrong⟩
      cases wrong

/-- A claim succeeds when it shares no cluster with an earlier one, and in an accepted image
    the cluster of a guest cluster has no other owner. -/
theorem ownership_check_exact :
    (∀ (calls : List ClaimCall) (owners : ClusterOwners) (call : ClaimCall),
      calls.foldlM run ∅ = .ok owners →
      (pages ((calls ++ [call]).flatMap clusters)).card ≤ qcow2MaxOwnershipPages →
        ((∃ owners', call.run owners = .ok owners') ↔
          ∀ earlier ∈ calls, ∀ c ∈ call.clusters, c ∉ earlier.clusters)) ∧
    (∀ (f : Store) (replies : List Reply) (q : Image), openQCOW2 f replies = .ok q →
      ∃ g, Describes f g ∧ ∀ i j o c, Owns g (metadataOf g f) (.data i j) c →
        Owns g (metadataOf g f) o c → o = .data i j) := by
  constructor
  · intro calls owners call claimed limit
    rw [List.flatMap_append, List.flatMap_singleton] at limit
    rw [claim_disjoint (claimed_holds claimed) call limit]
    simp only [List.mem_flatMap, not_exists, not_and]
    exact ⟨fun apart earlier member c inside => apart c inside earlier member,
      fun apart c inside earlier member => apart earlier member c inside⟩
  · intro f replies q opened
    obtain ⟨g, describes, inv, file, _⟩ := open_sound opened
    refine ⟨g, describes, ?_⟩
    intro i j o c mapped owns
    have distinct := inv.valid.distinct
    rw [file] at distinct
    exact distinct o (.data i j) c owns mapped

/-! ## Capacity -/

/-- Cluster `k` was appended, behind refcount blocks that count themselves. -/
structure Appends (g : Geometry) (q q' : Image) (k : Nat) : Prop where
  inv : Inv g q'
  fits : k * g.clusterSize + g.clusterSize ≤ maxInt64
  size : q'.file.size = k * g.clusterSize + g.clusterSize
  one : refcountAt g q'.file k = 1
  fresh : Fresh g (metadataOf g q'.file) k
  zeroed : ∀ x, x / g.clusterSize = k → q'.file.byte x = 0
  blocks : ∀ t, refcountTableAt g q'.file t ≠ refcountTableAt g q.file t →
    ∃ c < k, refcountTableAt g q'.file t = c * g.clusterSize ∧ c / g.blockEntries = t ∧
      refcountAt g q'.file c = 1

theorem Grown.appends {g : Geometry} {q q1 q' : Image} {k : Nat} (grown : Grown g q q1 k)
    (extended : Extended g q1 k q') : Appends g q q' k where
  inv := extended.keeps.inv
  fits := grown.fits
  size := congrArg Metadata.fileSize extended.metadata
  one := extended.one
  fresh := extended.fresh
  zeroed := extended.zeroed
  blocks := by
    intro t changed
    rw [extended.table] at changed ⊢
    obtain ⟨c, below, place, covered, counted⟩ := grown.blocks t changed
    have refcounts : refcountAt g q'.file = Function.update (refcountAt g q1.file) k 1 :=
      congrArg Metadata.refcounts extended.metadata
    refine ⟨c, below, place, covered, ?_⟩
    rw [refcounts, Function.update_of_ne (by omega)]
    exact counted

theorem allocateCluster_accepted {g : Geometry} (inv : Inv g q) (silent : q.replies = [])
    (accepted : validateAppendCapacity q (alignUp q.file.size g.clusterSize) = .ok ()) :
    Wp allocateCluster q (fun r q' => ∃ k, r = .ok (k * g.clusterSize) ∧ Appends g q q' k) := by
  have stat : fileStat q = (.ok q.file.size, q) := by
    simp [fileStat, nextReply, silent, bind, query]
  have capacity := validateAppendCapacity_spec inv.toLoaded inv.blocksAligned
    (g.clustersFor q.file.size)
  rw [g.alignUp_eq] at accepted
  rw [accepted] at capacity
  rw [allocateCluster, wp_bind_ok stat]
  simp only [wp_read_bind, inv.clusterSize, g.alignUp_eq, wp_query_bind, accepted]
  refine (appendRefcountBlocks_spec (n := 0) inv rfl capacity (.inr (Nat.zero_le _))).bind ?_ ?_
  · rintro _ q1 ⟨k, rfl, ready, grown⟩
    refine (extendFile_spec ready).mono ?_
    intro r q' post
    cases r with
    | ok off => exact ⟨k, congrArg _ post.1, grown.appends post.2⟩
    | error err => exact absurd (ready.keeps.quiet silent) post.1
  · exact fun err q1 failed => absurd silent failed.1

theorem validateAppendCapacityFrom_replies (q : Image) (rest : List Reply) (fuel offset : Nat) :
    validateAppendCapacityFrom { q with replies := rest } fuel offset =
      validateAppendCapacityFrom q fuel offset := by
  induction fuel generalizing offset with
  | zero => rfl
  | succ fuel ih =>
      simp only [validateAppendCapacityFrom, ih]
      rfl

theorem allocateCluster_rejected {g : Geometry} (inv : Inv g q) {err : GoError}
    (rejected : validateAppendCapacity q (alignUp q.file.size g.clusterSize) = .error err) :
    Wp allocateCluster q (fun r q' => (∃ err', r = .error err') ∧ q'.file = q.file) := by
  rw [← inv.clusterSize] at rejected
  refine (fileStat_spec q).bind ?_ ?_
  · rintro _ _ ⟨⟨rest, rfl, _⟩, rfl⟩
    have same : validateAppendCapacity { q with replies := rest }
        (alignUp q.file.size q.clusterSize) = .error err :=
      (validateAppendCapacityFrom_replies q rest _ _).trans rejected
    simp only [wp_read_bind, wp_query_bind, same]
    exact ⟨⟨err, rfl⟩, trivial⟩
  · rintro err' _ ⟨⟨rest, rfl, _⟩, _⟩
    exact ⟨⟨err', rfl⟩, rfl⟩

/-- What the capacity check accepts is appended, on a host that does not fail; what it
    rejects leaves the file as it is. -/
theorem capacity_check_exact {g : Geometry} (inv : Inv g q) :
    (validateAppendCapacity q (alignUp q.file.size g.clusterSize) = .ok () → q.replies = [] →
      ∃ k q', allocateCluster q = (.ok (k * g.clusterSize), q') ∧ Appends g q q' k) ∧
    (∀ err, validateAppendCapacity q (alignUp q.file.size g.clusterSize) = .error err →
      ∃ err' q', allocateCluster q = (.error err', q') ∧ q'.file = q.file) := by
  constructor
  · intro accepted silent
    obtain ⟨k, result, appends⟩ := allocateCluster_accepted inv silent accepted
    exact ⟨k, (allocateCluster q).2, Prod.ext result rfl, appends⟩
  · intro err rejected
    obtain ⟨⟨err', result⟩, file⟩ := allocateCluster_rejected inv rejected
    exact ⟨err', (allocateCluster q).2, Prod.ext result rfl, file⟩

/-- The small image has room for a cluster. -/
theorem sampleFile_grows : ∃ q g k q', openQCOW2 sampleFile [] = .ok q ∧
    allocateCluster q = (.ok (k * g.clusterSize), q') ∧ Appends g q q' k := by
  have room : (openQCOW2 sampleFile []).toOption.any (fun q =>
      (validateAppendCapacity q (alignUp q.file.size q.clusterSize)).toOption.isSome) = true := by
    decide +kernel
  obtain ⟨q, opened⟩ := sampleFile_opens [] (by decide +kernel)
  obtain ⟨g, _, inv, _, quiet⟩ := open_sound opened
  rw [opened] at room
  cases checked : validateAppendCapacity q (alignUp q.file.size q.clusterSize) with
  | error err => simp [Except.toOption, checked] at room
  | ok _ =>
      rw [inv.clusterSize] at checked
      obtain ⟨k, q', run, appends⟩ := (capacity_check_exact inv).1 checked (quiet rfl)
      exact ⟨q, g, k, q', opened, run, appends⟩

/-! ## A failing host -/

/-- A write on a failing host: the image is closed and its file stays as it is, or
    tables, caches and layout agree and the disk holds the bytes that were reported.
    Only the chunk whose own write failed may hold more of them. -/
theorem write_failure_safe {f : Store} {replies : List Reply} (opened : openQCOW2 f replies = .ok q)
    (calls : List Call) (fit : AllFit calls q) (b : Bytes) (off : Int)
    (fits : (Call.write b off).Fits (serveAll calls q).2) :
    ∃ n err q', writeAt b off (serveAll calls q).2 = (.ok (n, err), q') ∧
      ((q'.writeFault ≠ none ∧ ∀ later, (serveAll later q').2.file = q'.file) ∨
        ∃ g more, Describes q'.file g ∧ Inv g q' ∧
          q'.contents.byte =
            overlay (serveAll calls q).2.contents.byte off.toNat (b.take (n + more)) ∧
          more ≤ g.clusterSize - (off.toNat + n) % g.clusterSize ∧
          (more ≠ 0 → ∃ place, err = some (.host .write place))) := by
  obtain ⟨g, describes, inv, _, _⟩ := open_sound opened
  have closing : ∀ {q' : Image}, q'.writeFault ≠ none →
      q'.writeFault ≠ none ∧ ∀ later, (serveAll later q').2.file = q'.file :=
    fun closed => ⟨closed, fun _ => (serveAll_closed closed).file⟩
  rcases serveAll_safe (.inr inv) fit with closed | inv1
  · obtain ⟨err, run⟩ := writeAt_closed closed b off
    exact ⟨0, err, _, run, .inl (closing closed)⟩
  · obtain ⟨n, err, q', run, outcome⟩ := writeAt_served inv1 fits
    refine ⟨n, err, q', run, ?_⟩
    rcases outcome with ⟨_, closed⟩ | served
    · exact .inl (closing closed)
    · obtain ⟨more, stored, bound, cause⟩ := served.stored
      refine .inr ⟨g, more, describes.congr served.inv.valid.header, served.inv, ?_, bound, cause⟩
      rw [served.inv.contents_eq, inv1.contents_eq]
      exact stored

/-- A write to the small image on a host that fails it after one byte. -/
theorem sampleFile_is_safe :
    ∃ q, openQCOW2 sampleFile (List.replicate 12 .done ++ [.failed 1]) = .ok q ∧ AllFit [] q ∧
      (Call.write [7, 8] 3).Fits (serveAll [] q).2 ∧
      ∃ n err q', writeAt [7, 8] 3 (serveAll [] q).2 = (.ok (n, err), q') ∧
        ((q'.writeFault ≠ none ∧ ∀ later, (serveAll later q').2.file = q'.file) ∨
          ∃ g more, Describes q'.file g ∧ Inv g q' ∧
            q'.contents.byte = overlay (serveAll [] q).2.contents.byte 3 ([7, 8].take (n + more)) ∧
            more ≤ g.clusterSize - (3 + n) % g.clusterSize ∧
            (more ≠ 0 → ∃ place, err = some (.host .write place))) := by
  obtain ⟨q, opened⟩ := sampleFile_opens (List.replicate 12 .done ++ [.failed 1]) (by decide +kernel)
  have fit := sampleFile_fits opened [.write [7, 8] 3]
  exact ⟨q, opened, trivial, fit.1, write_failure_safe opened [] trivial [7, 8] 3 fit.1⟩

/-- The write to the sparse image leaves it open with an invalid layout, on a host that
    does not fail at all. -/
theorem hugeFile_is_not_safe : ∃ q n err q', openQCOW2 hugeFile [] = .ok q ∧
    writeAt [1] 0 q = (.ok (n, err), q') ∧ q'.writeFault = none ∧
    ¬∃ g, Describes q'.file g ∧ Valid g (metadataOf g q'.file) := by
  obtain ⟨q, g, mid, q', opened, _, describes, wrote, overflowed⟩ := hugeFile_written
  exact ⟨q, 1, none, q', opened, wrote, overflowed.healthy, overflowed.not_valid describes⟩

end Gokvm.Disk
