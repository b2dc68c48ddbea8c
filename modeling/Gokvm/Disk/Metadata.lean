import Gokvm.Disk.Entry

/-! # Metadata of an image, apart from its bytes

`Metadata` is what the tables of an image say: the L1, L2 and refcount tables and the stored
refcounts. `Valid` is the layout condition that opening checks and writing must keep; the lemmas
say how each change of an entry keeps it.
-/

namespace Gokvm.Disk

open Lib Function Nat

/-- The constants of an open image, within the limits of the header checks, and its first cluster.
    -/
structure Geometry where
  header : Bytes
  version : Nat
  size : Nat
  bits : Nat
  l1TableOffset : Nat
  l1Size : Nat
  refcountTableOffset : Nat
  refcountTableClusters : Nat
  bits_low : 9 ≤ bits
  bits_high : bits ≤ 21
  l1_nonempty : 0 < l1Size
  refcount_nonempty : 0 < refcountTableClusters
  l1_aligned : l1TableOffset % 2 ^ bits = 0
  refcount_aligned : refcountTableOffset % 2 ^ bits = 0
  l1_small : l1Size * 8 ≤ qcow2MaxL1Bytes
  refcount_small : refcountTableClusters * 2 ^ bits ≤ qcow2MaxRefcountTableBytes
  covers : size ≤ l1Size * (2 ^ bits * (2 ^ bits / 8))
  size_small : size ≤ maxInt64

namespace Geometry

variable (g : Geometry)

def clusterSize : Nat := 2 ^ g.bits

def l2Entries : Nat := g.clusterSize / 8

def blockEntries : Nat := g.clusterSize / 2

def refcountEntries : Nat := g.refcountTableClusters * g.clusterSize / 8

def l1Clusters : Nat := (g.l1Size * 8 + g.clusterSize - 1) / g.clusterSize

theorem clusterSize_eq : g.clusterSize = 512 * 2 ^ (g.bits - 9) := by
  have split : g.bits = 9 + (g.bits - 9) := by have := g.bits_low; omega
  rw [clusterSize, split, pow_add]
  simp

theorem scale_pos : 0 < 2 ^ (g.bits - 9) := Nat.two_pow_pos _

theorem clusterSize_pos : 0 < g.clusterSize := Nat.two_pow_pos _

theorem clusterSize_low : 512 ≤ g.clusterSize := by
  have scale := g.scale_pos
  rw [clusterSize_eq]
  omega

theorem clusterSize_high : g.clusterSize ≤ 2 ^ 21 :=
  Nat.pow_le_pow_right (by decide) g.bits_high

theorem clusterSize_l2 : g.clusterSize = 8 * g.l2Entries := by
  rw [l2Entries, clusterSize_eq]
  omega

theorem clusterSize_block : g.clusterSize = 2 * g.blockEntries := by
  rw [blockEntries, clusterSize_eq]
  omega

theorem l2Entries_pos : 0 < g.l2Entries := by
  have low := g.clusterSize_low
  rw [clusterSize_l2] at low
  omega

theorem blockEntries_low : 256 ≤ g.blockEntries := by
  have low := g.clusterSize_low
  rw [clusterSize_block] at low
  omega

theorem count_inside (c : Nat) : c % g.blockEntries * 2 + 2 ≤ g.clusterSize := by
  have low := g.blockEntries_low
  have small := mod_lt c (show 0 < g.blockEntries by omega)
  rw [clusterSize_block]
  omega

variable {x c : Nat}

theorem aligned_512 (aligned : x % g.clusterSize = 0) : x % 512 = 0 := by
  have divides : 512 ∣ g.clusterSize := ⟨_, g.clusterSize_eq⟩
  exact mod_eq_zero_of_dvd (dvd_trans divides (Nat.dvd_of_mod_eq_zero aligned))

theorem aligned_eq (aligned : x % g.clusterSize = 0) :
    x / g.clusterSize * g.clusterSize = x :=
  Nat.div_mul_cancel (Nat.dvd_of_mod_eq_zero aligned)

theorem cluster_div (low : c * g.clusterSize ≤ x) (high : x < c * g.clusterSize + g.clusterSize) : x / g.clusterSize = c := by
  rw [Nat.div_eq_iff g.clusterSize_pos]
  omega

theorem mul_clusterSize_div (c : Nat) : c * g.clusterSize / g.clusterSize = c :=
  Nat.mul_div_cancel c g.clusterSize_pos

theorem cluster_lt {d : Nat} (less : c < d) :
    c * g.clusterSize + g.clusterSize ≤ d * g.clusterSize := by
  have step := mul_le_mul_right g.clusterSize (succ_le_of_lt less)
  rwa [succ_mul] at step

theorem cluster_lt_of_mul {d : Nat} (less : c * g.clusterSize < d * g.clusterSize) : c < d :=
  Nat.lt_of_mul_lt_mul_right less

end Geometry

/-- What the tables of an image say. Entries outside a table are zero, and so are those of a missing
    L2 table and refcounts without a block. -/
structure Metadata where
  header : Bytes
  l1 : Nat → Nat
  refcountTable : Nat → Nat
  l2 : Nat → Nat → Nat
  refcounts : Nat → Nat
  fileSize : Nat

inductive Owner where
  | header
  | l1 (k : Nat)
  | refcountTable (k : Nat)
  | refcountBlock (t : Nat)
  | l2Table (i : Nat)
  | data (i j : Nat)
  deriving Repr, DecidableEq

/-- `Owns g m o c`: the owner `o` uses host cluster `c`. -/
inductive Owns (g : Geometry) (m : Metadata) : Owner → Nat → Prop where
  | header : Owns g m .header 0
  | l1 (k : Nat) (inside : k < g.l1Clusters) :
      Owns g m (.l1 k) (g.l1TableOffset / g.clusterSize + k)
  | refcountTable (k : Nat) (inside : k < g.refcountTableClusters) :
      Owns g m (.refcountTable k) (g.refcountTableOffset / g.clusterSize + k)
  | refcountBlock (t : Nat) (used : m.refcountTable t ≠ 0) :
      Owns g m (.refcountBlock t) (m.refcountTable t / g.clusterSize)
  | l2Table (i : Nat) (used : m.l1 i ≠ 0) :
      Owns g m (.l2Table i) (clusterOffset (m.l1 i) / g.clusterSize)
  | data (i j : Nat) (used : clusterOffset (m.l2 i j) ≠ 0) :
      Owns g m (.data i j) (clusterOffset (m.l2 i j) / g.clusterSize)

def Fresh (g : Geometry) (m : Metadata) (c : Nat) : Prop := ∀ o, ¬ Owns g m o c

/-- A cluster that starts at `off` and lies inside the file. -/
def Placed (g : Geometry) (m : Metadata) (off : Nat) : Prop :=
  off % g.clusterSize = 0 ∧ off + g.clusterSize ≤ m.fileSize

def L1EntryOk (g : Geometry) (m : Metadata) (entry : Nat) : Prop :=
  entry &&& not64 (qcow2OffsetMask ||| qcow2OFlagCopied) = 0 ∧ clusterOffset entry ≠ 0 ∧
    Placed g m (clusterOffset entry)

def L2EntryOk (g : Geometry) (m : Metadata) (entry : Nat) : Prop :=
  validateL2Entry g.version entry = .ok () ∧
    (clusterOffset entry ≠ 0 → Placed g m (clusterOffset entry))

structure Valid (g : Geometry) (m : Metadata) : Prop where
  header : m.header = g.header
  headerFits : g.clusterSize ≤ m.fileSize
  l1Fits : g.l1TableOffset + g.l1Size * 8 ≤ m.fileSize
  tableFits : g.refcountTableOffset + g.refcountTableClusters * g.clusterSize ≤ m.fileSize
  block : ∀ t, m.refcountTable t ≠ 0 → t < g.refcountEntries ∧ Placed g m (m.refcountTable t)
  l2Table : ∀ i, m.l1 i ≠ 0 → i < g.l1Size ∧ L1EntryOk g m (m.l1 i)
  entry : ∀ i j, L2EntryOk g m (m.l2 i j)
  entryInside : ∀ i j, m.l2 i j ≠ 0 → m.l1 i ≠ 0 ∧ j < g.l2Entries
  stored : ∀ c, m.refcounts c ≠ 0 → m.refcountTable (c / g.blockEntries) ≠ 0
  distinct : ∀ o o' c, Owns g m o c → Owns g m o' c → o = o'
  counted : ∀ o c, Owns g m o c → m.refcounts c = 1

section Transitions

variable {g : Geometry} {m : Metadata}

theorem clusterOffset_zero : clusterOffset 0 = 0 := by
  simp [clusterOffset]

variable {i k : Nat}

theorem Owns.of_tables {m' : Metadata} {o c} (owns : Owns g m' o c) (l1 : m'.l1 = m.l1)
    (refcountTable : m'.refcountTable = m.refcountTable) (l2 : m'.l2 = m.l2) : Owns g m o c := by
  cases owns with
  | header => exact .header
  | l1 k inside => exact .l1 k inside
  | refcountTable k inside => exact .refcountTable k inside
  | refcountBlock t used =>
    rw [refcountTable] at used ⊢
    exact .refcountBlock t used
  | l2Table i used =>
    rw [l1] at used ⊢
    exact .l2Table i used
  | data i j used =>
    rw [l2] at used ⊢
    exact .data i j used

theorem update_entry (f : Nat → Nat → Nat) (i j v i' j' : Nat) :
    update f i (update (f i) j v) i' j' = if i' = i ∧ j' = j then v else f i' j' := by
  by_cases row : i' = i
  · subst row
    by_cases column : j' = j
    · subst column
      simp
    · simp [column]
  · simp [row]

variable (valid : Valid g m)
include valid

/-- Owned clusters start inside the file. -/
theorem Valid.owned_inside {o c} (owns : Owns g m o c) :
    c * g.clusterSize < m.fileSize := by
  have positive := g.clusterSize_pos
  have placed : ∀ off, Placed g m off → off / g.clusterSize * g.clusterSize < m.fileSize := by
    intro off place
    rw [g.aligned_eq place.1]
    have := place.2
    omega
  cases owns with
  | header =>
    have := valid.headerFits
    omega
  | l1 k inside =>
    have room := valid.l1Fits
    have start := g.aligned_eq (x := g.l1TableOffset) g.l1_aligned
    have count : k * g.clusterSize < g.l1Size * 8 := by
      have upper := div_mul_le_self (g.l1Size * 8 + g.clusterSize - 1) g.clusterSize
      have step := g.cluster_lt inside
      simp only [Geometry.l1Clusters] at step
      omega
    rw [add_mul, start]
    omega
  | refcountTable k inside =>
    have room := valid.tableFits
    have start := g.aligned_eq (x := g.refcountTableOffset) g.refcount_aligned
    have step := g.cluster_lt inside
    rw [add_mul, start]
    omega
  | refcountBlock t used => exact placed _ (valid.block t used).2
  | l2Table i used => exact placed _ (valid.l2Table i used).2.2.2
  | data i j used => exact placed _ ((valid.entry i j).2 used)

theorem Valid.fresh_beyond {c : Nat} (past : m.fileSize ≤ c * g.clusterSize) :
    Fresh g m c := by
  intro o owns
  have := valid.owned_inside owns
  omega

theorem Valid.l2_none (none : m.l1 i = 0) (j : Nat) :
    m.l2 i j = 0 := by
  by_contra used
  exact (valid.entryInside i j used).1 none

/-- A change keeps the metadata valid when it adds at most one owner, of a cluster without one, and
    changes no other refcount. -/
theorem Valid.extend {m' : Metadata} (new : Owner) (fresh : Fresh g m k)
    (header : m'.header = m.header) (grow : m.fileSize ≤ m'.fileSize)
    (blocks : ∀ t, m'.refcountTable t = m.refcountTable t ∨ t < g.refcountEntries ∧
      Placed g m' (m'.refcountTable t) ∧ new = .refcountBlock t ∧ m'.refcountTable t / g.clusterSize = k)
    (tables : ∀ i, m'.l1 i = m.l1 i ∨ i < g.l1Size ∧ L1EntryOk g m' (m'.l1 i) ∧ new = .l2Table i ∧
      clusterOffset (m'.l1 i) / g.clusterSize = k)
    (entries : ∀ i j, m'.l2 i j = m.l2 i j ∨ L2EntryOk g m' (m'.l2 i j) ∧
      (clusterOffset (m'.l2 i j) = clusterOffset (m.l2 i j) ∨
        new = .data i j ∧ clusterOffset (m'.l2 i j) / g.clusterSize = k))
    (inside : ∀ i j, m'.l2 i j ≠ 0 → m'.l1 i ≠ 0 ∧ j < g.l2Entries)
    (stored : ∀ c, m'.refcounts c ≠ 0 → m'.refcountTable (c / g.blockEntries) ≠ 0)
    (one : new = .header ∨ m'.refcounts k = 1)
    (counts : ∀ c, c ≠ k → m'.refcounts c = m.refcounts c) : Valid g m' := by
  have placed : ∀ off, Placed g m off → Placed g m' off :=
    fun off place => ⟨place.1, le_trans place.2 grow⟩
  have owned : ∀ o c, Owns g m' o c → Owns g m o c ∨ o = new ∧ c = k ∧ m'.refcounts k = 1 := by
    intro o c owns
    cases owns with
    | header => exact .inl .header
    | l1 k inside => exact .inl (.l1 k inside)
    | refcountTable k inside => exact .inl (.refcountTable k inside)
    | refcountBlock t used =>
      rcases blocks t with same | ⟨_, _, rfl, here⟩
      · rw [same] at used ⊢
        exact .inl (.refcountBlock t used)
      · exact .inr ⟨rfl, here, one.resolve_left nofun⟩
    | l2Table i used =>
      rcases tables i with same | ⟨_, _, rfl, here⟩
      · rw [same] at used ⊢
        exact .inl (.l2Table i used)
      · exact .inr ⟨rfl, here, one.resolve_left nofun⟩
    | data i j used =>
      have old (same : clusterOffset (m'.l2 i j) = clusterOffset (m.l2 i j)) :
          Owns g m (.data i j) (clusterOffset (m'.l2 i j) / g.clusterSize) := by
        rw [same] at used ⊢
        exact .data i j used
      rcases entries i j with same | ⟨_, same | ⟨rfl, here⟩⟩
      · exact .inl (old (by rw [same]))
      · exact .inl (old same)
      · exact .inr ⟨rfl, here, one.resolve_left nofun⟩
  refine
    { header := header.trans valid.header
      headerFits := le_trans valid.headerFits grow
      l1Fits := le_trans valid.l1Fits grow
      tableFits := le_trans valid.tableFits grow
      block := ?_
      l2Table := ?_
      entry := ?_
      entryInside := inside
      stored
      distinct := ?_
      counted := ?_ }
  · intro t used
    rcases blocks t with same | changed
    · rw [same] at used ⊢
      exact ⟨(valid.block t used).1, placed _ (valid.block t used).2⟩
    · exact ⟨changed.1, changed.2.1⟩
  · intro i used
    rcases tables i with same | changed
    · rw [same] at used ⊢
      obtain ⟨small, reserved, nonzero, place⟩ := valid.l2Table i used
      exact ⟨small, reserved, nonzero, placed _ place⟩
    · exact ⟨changed.1, changed.2.1⟩
  · intro i j
    rcases entries i j with same | changed
    · rw [same]
      exact ⟨(valid.entry i j).1, fun used => placed _ ((valid.entry i j).2 used)⟩
    · exact changed.1
  · intro o o' c left right
    rcases owned o c left with old | ⟨rfl, rfl, _⟩ <;> rcases owned o' c right with old' | ⟨rfl, same, _⟩
    · exact valid.distinct o o' c old old'
    · exact absurd (same ▸ old) (fresh o)
    · exact absurd old' (fresh o')
    · rfl
  · intro o c owns
    rcases owned o c owns with old | ⟨_, rfl, one⟩
    · rw [counts c (fun same => fresh o (same ▸ old))]
      exact valid.counted o c old
    · exact one

theorem Valid.grow {n : Nat} (larger : m.fileSize ≤ n) :
    Valid g { m with fileSize := n } := by
  have past : m.fileSize ≤ m.fileSize * g.clusterSize := Nat.le_mul_of_pos_right _ g.clusterSize_pos
  exact valid.extend .header (valid.fresh_beyond past) rfl larger (fun _ => .inl rfl)
    (fun _ => .inl rfl) (fun _ _ => .inl rfl) valid.entryInside valid.stored (.inl rfl) (fun _ _ => rfl)

/-- The refcount of a cluster without an owner is free to change. -/
theorem Valid.setRefcount (fresh : Fresh g m k) (block : m.refcountTable (k / g.blockEntries) ≠ 0)
    (count : Nat) :
    Valid g { m with refcounts := update m.refcounts k count } := by
  refine valid.extend .header fresh rfl (le_refl _) (fun _ => .inl rfl) (fun _ => .inl rfl)
    (fun _ _ => .inl rfl) valid.entryInside ?_ (.inl rfl) (fun c other => update_of_ne other _ _)
  intro c used
  by_cases same : c = k
  · rw [same]
    exact block
  · simp only [update_of_ne same] at used
    exact valid.stored c used

/-- A new refcount block that accounts for itself may be published. -/
theorem Valid.publishBlock {t : Nat} (fresh : Fresh g m k) (small : t < g.refcountEntries)
    (own : k / g.blockEntries = t) (place : Placed g m (k * g.clusterSize)) (nonzero : k ≠ 0) :
    Valid g { m with
      refcountTable := update m.refcountTable t (k * g.clusterSize)
      refcounts := update m.refcounts k 1 } := by
  have offset : k * g.clusterSize ≠ 0 := mul_ne_zero nonzero (ne_of_gt g.clusterSize_pos)
  refine valid.extend (.refcountBlock t) fresh rfl (le_refl _) ?_ (fun _ => .inl rfl)
    (fun _ _ => .inl rfl) valid.entryInside ?_ (.inr (update_self _ _ _))
    (fun c other => update_of_ne other _ _)
  · intro t'
    by_cases same : t' = t
    · subst same
      simp only [update_self, g.mul_clusterSize_div]
      exact .inr ⟨small, place, trivial, trivial⟩
    · exact .inl (update_of_ne same _ _)
  · intro c used
    by_cases inBlock : c / g.blockEntries = t
    · simpa [inBlock] using offset
    · have other : c ≠ k := fun same => inBlock (same ▸ own)
      simp only [update_of_ne other] at used
      simpa only [update_of_ne inBlock] using valid.stored c used

/-- A new and empty L2 table may be published below 2^56. -/
theorem Valid.publishL2 (fresh : Fresh g m k) (small : i < g.l1Size) (unused : m.l1 i = 0)
    (place : Placed g m (k * g.clusterSize)) (nonzero : k ≠ 0) (fits : k * g.clusterSize < 2 ^ 56)
    (one : m.refcounts k = 1) :
    Valid g { m with l1 := update m.l1 i (k * g.clusterSize ||| qcow2OFlagCopied) } := by
  have aligned := g.aligned_512 place.1
  have offset : k * g.clusterSize ≠ 0 := mul_ne_zero nonzero (ne_of_gt g.clusterSize_pos)
  refine valid.extend (.l2Table i) fresh rfl (le_refl _) (fun _ => .inl rfl) ?_
    (fun _ _ => .inl rfl) ?_ valid.stored (.inr one) (fun _ _ => rfl)
  · intro i'
    by_cases same : i' = i
    · subst same
      simp only [update_self, L1EntryOk, clusterOffset_copied aligned fits, g.mul_clusterSize_div]
      exact .inr ⟨small, ⟨reservedL1_copied aligned fits, offset, place⟩, trivial, trivial⟩
    · exact .inl (update_of_ne same _ _)
  · intro i' j used
    have old := valid.entryInside i' j used
    have same : i' ≠ i := fun same => old.1 (same ▸ unused)
    simpa only [update_of_ne same] using old

/-- An L2 entry may change to one for the cluster it has, or for one without an owner whose refcount
    is one. -/
theorem Valid.setEntry {j entry : Nat} (table : m.l1 i ≠ 0) (inside : j < g.l2Entries)
    (ok : L2EntryOk g m entry) (target : clusterOffset entry = clusterOffset (m.l2 i j) ∨
      Fresh g m (clusterOffset entry / g.clusterSize) ∧
        m.refcounts (clusterOffset entry / g.clusterSize) = 1) :
    Valid g { m with l2 := update m.l2 i (update (m.l2 i) j entry) } := by
  have insideAll : ∀ i' j', update m.l2 i (update (m.l2 i) j entry) i' j' ≠ 0 →
      m.l1 i' ≠ 0 ∧ j' < g.l2Entries := by
    intro i' j' used
    rw [update_entry] at used
    split at used
    next here =>
      rw [here.1, here.2]
      exact ⟨table, inside⟩
    · exact valid.entryInside i' j' used
  have past : m.fileSize ≤ m.fileSize * g.clusterSize := Nat.le_mul_of_pos_right _ g.clusterSize_pos
  rcases target with same | ⟨fresh, one⟩
  · refine valid.extend .header (valid.fresh_beyond past) rfl (le_refl _) (fun _ => .inl rfl)
      (fun _ => .inl rfl) ?_ insideAll valid.stored (.inl rfl) (fun _ _ => rfl)
    intro i' j'
    simp only [update_entry]
    split
    next here =>
      rw [here.1, here.2]
      exact .inr ⟨ok, .inl same⟩
    · exact .inl rfl
  · refine valid.extend (.data i j) fresh rfl (le_refl _) (fun _ => .inl rfl)
      (fun _ => .inl rfl) ?_ insideAll valid.stored (.inr one) (fun _ _ => rfl)
    intro i' j'
    simp only [update_entry]
    split
    next here =>
      rw [here.1, here.2]
      exact .inr ⟨ok, .inr ⟨rfl, rfl⟩⟩
    · exact .inl rfl

/-- Cutting off the last cluster is safe when nobody owns it. -/
theorem Valid.shrink (fresh : Fresh g m k) (size : m.fileSize = k * g.clusterSize + g.clusterSize) :
    Valid g { m with fileSize := k * g.clusterSize } := by
  have positive := g.clusterSize_pos
  have below : ∀ {o c}, Owns g m o c → c * g.clusterSize + g.clusterSize ≤ k * g.clusterSize := by
    intro o c owns
    have inside := valid.owned_inside owns
    have other : c ≠ k := fun same => fresh o (same ▸ owns)
    have upper : c < k + 1 := g.cluster_lt_of_mul (by rw [add_mul]; omega)
    exact g.cluster_lt (by omega)
  have placed : ∀ {off o}, Placed g m off → Owns g m o (off / g.clusterSize) →
      Placed g { m with fileSize := k * g.clusterSize } off := by
    intro off o place owns
    have room := below owns
    rw [g.aligned_eq place.1] at room
    exact ⟨place.1, room⟩
  have l1Last : g.l1Size * 8 ≤ (g.l1Clusters - 1) * g.clusterSize + g.clusterSize ∧
      g.l1Clusters - 1 < g.l1Clusters := by
    have nonempty := g.l1_nonempty
    have divided := div_add_mod (g.l1Size * 8 + g.clusterSize - 1) g.clusterSize
    have small := mod_lt (g.l1Size * 8 + g.clusterSize - 1) positive
    have count : 0 < g.l1Clusters := div_pos (by omega) positive
    have last : (g.l1Clusters - 1) * g.clusterSize + g.clusterSize =
        g.clusterSize * g.l1Clusters := by
      obtain ⟨n, count⟩ := exists_eq_succ_of_ne_zero (ne_of_gt count)
      rw [count, succ_sub_one, mul_succ, mul_comm]
    simp only [Geometry.l1Clusters] at last count ⊢
    omega
  refine
    { valid with
      headerFits := ?_
      l1Fits := ?_
      tableFits := ?_
      block := fun t used => ⟨(valid.block t used).1, placed (valid.block t used).2 (.refcountBlock t used)⟩
      l2Table := ?_
      entry := fun i j => ⟨(valid.entry i j).1, fun used => placed ((valid.entry i j).2 used) (.data i j used)⟩
      distinct := fun o o' c left right =>
        valid.distinct o o' c (left.of_tables rfl rfl rfl) (right.of_tables rfl rfl rfl)
      counted := fun o c owns => valid.counted o c (owns.of_tables rfl rfl rfl) }
  · have room := below .header
    simpa using room
  · have room := below (.l1 _ l1Last.2)
    have start := g.aligned_eq (x := g.l1TableOffset) g.l1_aligned
    rw [add_mul, start] at room
    have := l1Last.1
    show g.l1TableOffset + g.l1Size * 8 ≤ k * g.clusterSize
    omega
  · have nonempty := g.refcount_nonempty
    have room := below (.refcountTable (g.refcountTableClusters - 1) (by omega))
    have start := g.aligned_eq (x := g.refcountTableOffset) g.refcount_aligned
    have count : g.refcountTableClusters = g.refcountTableClusters - 1 + 1 := by omega
    rw [add_mul, start] at room
    rw [count, add_mul]
    show g.refcountTableOffset + _ ≤ k * g.clusterSize
    omega
  · intro i used
    obtain ⟨small, reserved, nonzero, place⟩ := valid.l2Table i used
    exact ⟨small, reserved, nonzero, placed place (.l2Table i used)⟩

end Transitions

end Gokvm.Disk
