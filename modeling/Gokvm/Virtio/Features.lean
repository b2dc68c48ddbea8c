import Gokvm.Virtio.Modern

/-! # Feature negotiation

A driver selects a window of the feature bits and writes the bits it accepts. The transport has
two windows and picks one by the lowest bit of the selector, so 2 or 3 is an alias of window 0 or
1. What the driver wrote is recorded apart from the transport, under its selectors; both agree as
long as no alias is read or written with anything but zero.
-/

namespace Gokvm.Virtio

open Lib List Function UInt32

namespace Transport

def featureVersion1 : UInt64 := 0x100000000

/-- `NewModernTransport`, for a device that offers the given features. -/
def newModernTransport (dev : Device) (mem : Store) (deviceFeatures : UInt64) (numQueues : Nat)
    (setIRQLevel : Option (Bool → Bool)) : Transport where
  dev := dev
  mem := mem
  features := deviceFeatures ||| featureVersion1
  deviceFeatureSel := 0
  driverFeatureSel := 0
  driverFeature := (0, 0)
  deviceStatus := 0
  configGen := 0
  msixConfig := 0
  queueSel := 0
  queues := replicate numQueues QueueState.initial
  isr := 0
  setIRQLevel := setIRQLevel
  irqError := false
  calls := []

def featuresOK (t : Transport) : Prop := t.deviceStatus &&& 0x08 ≠ 0

instance (t : Transport) : Decidable t.featuresOK := inferInstanceAs (Decidable (_ ≠ _))

def negotiatedFeatures (t : Transport) : UInt64 :=
  if t.deviceStatus &&& 0x08 = 0 then 0
  else ((t.driverFeature.2.toUInt64 <<< 32) ||| t.driverFeature.1.toUInt64) &&& t.features

end Transport

/-! ## Register writes -/

/-- Offset and width of the common registers; a queue address is written whole or in halves. -/
def commonRegisters : List (Nat × Nat) :=
  [(0, 4), (4, 4), (8, 4), (12, 4), (16, 2), (18, 2), (20, 1), (21, 1), (22, 2), (24, 2), (26, 2),
    (28, 2), (30, 2), (32, 8), (32, 4), (36, 4), (40, 8), (40, 4), (44, 4), (48, 8), (48, 4), (52, 4)]

structure RegisterWrite where
  off : Nat
  data : Bytes
  full : (off, data.length) ∈ commonRegisters

def RegisterWrite.value (w : RegisterWrite) : UInt32 := ofNat (leNat w.data)

namespace Transport

def write (t : Transport) (w : RegisterWrite) : Except Panic Transport :=
  (t.mmio w.off w.data true).map Prod.fst

def writeAll (t : Transport) (writes : List RegisterWrite) : Except Panic Transport :=
  writes.foldlM write t

theorem writeAll_concat (t : Transport) (writes : List RegisterWrite) (w : RegisterWrite) :
    t.writeAll (writes ++ [w]) = t.writeAll writes >>= fun t => t.write w := by
  simp [writeAll]

end Transport

/-! ## What the driver wrote -/

/-- The selector and the value last written under each selector, since the last reset. -/
structure Written where
  sel : UInt32
  window : UInt32 → UInt32

open Written

namespace Written

def nothing : Written := { sel := 0, window := fun _ => 0 }

def step (h : Written) (w : RegisterWrite) : Written :=
  if w.off = 8 then { h with sel := w.value }
  else if w.off = 12 then { h with window := update h.window h.sel w.value }
  else if w.off = 20 ∧ w.data = [0] then nothing
  else h

def after (writes : List RegisterWrite) : Written := writes.foldl step nothing

theorem after_concat (writes : List RegisterWrite) (w : RegisterWrite) :
    after (writes ++ [w]) = (after writes).step w := by
  simp [after]

def accepted (h : Written) : UInt64 := ((h.window 1).toUInt64 <<< 32) ||| (h.window 0).toUInt64

end Written

namespace Transport

/-! ## One write -/

/-- The selector and the two windows of the transport. -/
def selection (t : Transport) : UInt32 × (UInt32 × UInt32) := (t.driverFeatureSel, t.driverFeature)

def selectionAfter (t : Transport) (w : RegisterWrite) : UInt32 × (UInt32 × UInt32) :=
  if w.off = 8 then (w.value, t.driverFeature)
  else if w.off = 12 then (t.driverFeatureSel, (t.setDriverFeature w.value).driverFeature)
  else if w.off = 20 ∧ w.data = [0] then (0, (0, 0))
  else t.selection

/-- Neither the windows nor the offered features are touched. -/
def Keeps (t next : Transport) : Prop := next.features = t.features ∧ next.selection = t.selection

theorem keeps_setQueue (t : Transport) (q : QueueState) : t.Keeps (t.setQueue q) := ⟨rfl, rfl⟩

theorem keeps_enableQueue (t : Transport) (q : QueueState) (v : UInt16) :
    t.Keeps (t.enableQueue q v) := by
  simp only [enableQueue, mapQueue]
  split
  · split
    next made =>
      split at made <;> cases made
      exact t.keeps_setQueue _
    next made =>
      split at made <;> cases made
      exact ⟨rfl, rfl⟩
  · exact t.keeps_setQueue _

theorem keeps_writeQueueAddr (t : Transport) (which half : Nat) (v : UInt32) :
    t.Keeps (t.writeQueueAddr which half v) := by
  unfold writeQueueAddr
  split
  · exact ⟨rfl, rfl⟩
  · split <;> exact t.keeps_setQueue _

variable {data : Bytes} {w : RegisterWrite}

theorem onUint32_of_le (long : 4 ≤ data.length) (f : UInt32 → Transport) :
    onUint32 data f = .ok (f (ofNat (leNat (data.take 4)))) := by
  have loaded : uint32 data = .ok (ofNat (leNat (data.take 4))) := if_neg (by omega)
  simp only [onUint32, loaded]

theorem onUint16_of_le (long : 2 ≤ data.length) (f : UInt16 → Transport) :
    onUint16 data f = .ok (f (UInt16.ofNat (leNat (data.take 2)))) := by
  have loaded : uint16 data = .ok (UInt16.ofNat (leNat (data.take 2))) := if_neg (by omega)
  simp only [onUint16, loaded]

theorem keeps_onUint32 (t : Transport) (long : 4 ≤ data.length) {f : UInt32 → Transport}
    (keeps : ∀ v, t.Keeps (f v)) :
    ∃ next, onUint32 data f = .ok next ∧ t.Keeps next :=
  ⟨_, onUint32_of_le long f, keeps _⟩

theorem keeps_onUint16 (t : Transport) (long : 2 ≤ data.length) {f : UInt16 → Transport}
    (keeps : ∀ v, t.Keeps (f v)) :
    ∃ next, onUint16 data f = .ok next ∧ t.Keeps next :=
  ⟨_, onUint16_of_le long f, keeps _⟩

theorem keeps_onQueue (t : Transport) (long : 2 ≤ data.length) {f : QueueState → UInt16 → Transport}
    (keeps : ∀ q v, t.Keeps (f q v)) :
    ∃ next, t.onQueue data f = .ok next ∧ t.Keeps next := by
  unfold onQueue
  cases t.curQueue with
  | none => exact ⟨t, rfl, rfl, rfl⟩
  | some q => exact t.keeps_onUint16 long (keeps q)

theorem keeps_writeCommonCfg (t : Transport) {off : Nat} (full : (off, data.length) ∈ commonRegisters)
    (sel : off ≠ 8) (window : off ≠ 12) (status : off ≠ 20) :
    ∃ next, t.writeCommonCfg off data = .ok next ∧ t.Keeps next := by
  simp only [commonRegisters, mem_cons, Prod.mk.injEq, not_mem_nil, or_false] at full
  unfold writeCommonCfg
  split
  case h_1 => exact t.keeps_onUint32 (by omega) fun v => ⟨rfl, rfl⟩
  case h_2 => contradiction
  case h_3 => contradiction
  case h_4 => exact t.keeps_onUint16 (by omega) fun v => ⟨rfl, rfl⟩
  case h_5 => contradiction
  case h_6 => exact t.keeps_onUint16 (by omega) fun v => ⟨rfl, rfl⟩
  case h_7 => exact t.keeps_onQueue (by omega) fun q v => t.keeps_setQueue _
  case h_8 => exact t.keeps_onQueue (by omega) fun q v => t.keeps_setQueue _
  case h_9 => exact t.keeps_onQueue (by omega) fun q v => t.keeps_enableQueue q v
  case h_16 => exact ⟨t, rfl, rfl, rfl⟩
  all_goals exact t.keeps_onUint32 (by omega) fun v => t.keeps_writeQueueAddr _ _ v

theorem RegisterWrite.take_data (four : w.data.length = 4) :
    ofNat (leNat (w.data.take 4)) = w.value := by
  rw [take_of_length_le four.le]
  rfl

theorem features_writeStatus (t : Transport) (status : UInt8) :
    (t.writeStatus status).features = t.features ∧
      (t.writeStatus status).selection = if status = 0 then (0, (0, 0)) else t.selection := by
  unfold writeStatus
  split
  · simp only [clearInterrupt]
    split
    · split <;> exact ⟨rfl, rfl⟩
    · exact ⟨rfl, rfl⟩
  · exact ⟨rfl, rfl⟩

/-- Every full write succeeds, and what it does to the windows. -/
theorem write_spec (t : Transport) (w : RegisterWrite) :
    ∃ next, t.write w = .ok next ∧ next.features = t.features ∧
      next.selection = t.selectionAfter w := by
  obtain ⟨off, data, full⟩ := w
  have bounds : off < commonCfgLen ∧ data.length ≠ 0 ∧ (off = 8 → data.length = 4) ∧
      (off = 12 → data.length = 4) ∧ (off = 20 → data.length = 1) := by
    simp only [commonRegisters, mem_cons, Prod.mk.injEq, not_mem_nil, or_false] at full
    unfold commonCfgLen
    omega
  obtain ⟨inside, nonempty, eight, twelve, twenty⟩ := bounds
  have common : t.write ⟨off, data, full⟩ = t.writeCommonCfg off data := by
    simp only [write, mmio, if_neg nonempty, if_pos inside, if_true]
    cases t.writeCommonCfg off data <;> rfl
  rw [common]
  by_cases sel : off = 8
  · subst sel
    refine ⟨_, onUint32_of_le (eight rfl).ge _, rfl, ?_⟩
    rw [RegisterWrite.take_data (w := ⟨8, data, full⟩) (eight rfl)]
    rfl
  by_cases window : off = 12
  · subst window
    refine ⟨_, onUint32_of_le (twelve rfl).ge _, rfl, ?_⟩
    rw [RegisterWrite.take_data (w := ⟨12, data, full⟩) (twelve rfl)]
    rfl
  by_cases status : off = 20
  · subst status
    obtain ⟨byte, rfl⟩ := length_eq_one_iff.mp (twenty rfl)
    obtain ⟨features, selection⟩ := t.features_writeStatus byte
    refine ⟨t.writeStatus byte, rfl, features, ?_⟩
    rw [selection]
    simp [selectionAfter]
  obtain ⟨next, written, features, selection⟩ := t.keeps_writeCommonCfg full sel window status
  refine ⟨next, written, features, ?_⟩
  rw [selection, selectionAfter, if_neg sel, if_neg window, if_neg fun h => status h.1]

theorem selection_write {t next : Transport} (written : t.write w = .ok next) :
    next.driverFeatureSel = (t.selectionAfter w).1 ∧
      next.driverFeature = (t.selectionAfter w).2 := by
  obtain ⟨made, same, -, selection⟩ := t.write_spec w
  obtain rfl : next = made := Except.ok.inj (written.symm.trans same)
  exact ⟨congrArg Prod.fst selection, congrArg Prod.snd selection⟩

/-! ## Whole runs -/

theorem low_bit (sel : UInt32) : sel &&& 1 = 0 ∨ sel &&& 1 = 1 := by
  have bit : (sel &&& 1).toNat = sel.toNat % 2 := Nat.and_one_is_mod _
  rcases Nat.mod_two_eq_zero_or_one sel.toNat with even | odd
  · exact .inl (UInt32.toNat_inj.mp (bit.trans even))
  · exact .inr (UInt32.toNat_inj.mp (bit.trans odd))

theorem sel_cases (sel : UInt32) : sel = 0 ∨ sel = 1 ∨ 2 ≤ sel := by
  by_cases zero : sel = 0
  · exact .inl zero
  by_cases one : sel = 1
  · exact .inr (.inl one)
  · refine .inr (.inr ?_)
    rw [← UInt32.toNat_inj] at zero one
    rw [le_iff_toNat_le]
    simp only [reduceToNat] at zero one ⊢
    omega

theorem alias_ne {sel : UInt32} (large : 2 ≤ sel) : (0 : UInt32) ≠ sel ∧ (1 : UInt32) ≠ sel := by
  constructor
  · rintro rfl
    exact absurd large (by decide)
  · rintro rfl
    exact absurd large (by decide)

/-- The transport's windows are the driver's windows 0 and 1; the driver wrote only zero to others.
    -/
structure Agrees (t : Transport) (h : Written) : Prop where
  sel : t.driverFeatureSel = h.sel
  windows : t.driverFeature = (h.window 0, h.window 1)
  rest : ∀ sel, 2 ≤ sel → h.window sel = 0

namespace Agrees

variable {t next : Transport} {h : Written} {w : RegisterWrite}

variable (agrees : Agrees t h)
include agrees

theorem selected : t.selectedDriverFeature = h.window (h.sel &&& 1) := by
  unfold selectedDriverFeature
  rw [agrees.sel, agrees.windows]
  rcases low_bit h.sel with even | odd
  · rw [even]
    rfl
  · rw [odd]
    rfl

/-- Storing a value agrees unless the selector is an alias and the value changes something. -/
theorem store {v : UInt32}
    (harmless : 2 ≤ h.sel → v = 0 ∧ h.window (h.sel &&& 1) = 0) :
    Agrees (t.setDriverFeature v) { h with window := update h.window h.sel v } := by
  refine { sel := agrees.sel, windows := ?_, rest := ?_ }
  · simp only [setDriverFeature, agrees.sel, agrees.windows]
    rcases sel_cases h.sel with zero | one | large
    · simp [zero]
    · simp [one]
    · obtain ⟨rfl, old⟩ := harmless large
      obtain ⟨notZero, notOne⟩ := alias_ne large
      rw [update_of_ne notZero, update_of_ne notOne]
      rcases low_bit h.sel with even | odd
      · rw [even] at old
        rw [if_pos even, old]
      · rw [odd] at old
        rw [odd, if_neg (by decide), old]
  · intro sel large
    by_cases same : sel = h.sel
    · subst same
      simp only [update_self]
      exact (harmless large).1
    · simp only [update_of_ne same]
      exact agrees.rest sel large

theorem write (written : t.write w = .ok next)
    (harmless : w.off = 12 → 2 ≤ h.sel → w.value = 0 ∧ h.window (h.sel &&& 1) = 0) :
    Agrees next (h.step w) := by
  obtain ⟨sel, windows⟩ := selection_write written
  unfold selectionAfter at sel windows
  unfold step
  split
  next eight =>
    rw [if_pos eight] at sel windows
    exact { sel, windows := windows.trans agrees.windows, rest := agrees.rest }
  next notEight =>
    rw [if_neg notEight] at sel windows
    split
    next twelve =>
      rw [if_pos twelve] at sel windows
      have stored := agrees.store (harmless twelve)
      exact { stored with sel := sel.trans agrees.sel, windows := windows.trans stored.windows }
    next notTwelve =>
      rw [if_neg notTwelve] at sel windows
      split
      next reset =>
        rw [if_pos reset] at sel windows
        exact { sel, windows, rest := fun _ _ => rfl }
      next other =>
        rw [if_neg other] at sel windows
        exact { agrees with sel := sel.trans agrees.sel, windows := windows.trans agrees.windows }

end Agrees

theorem mmio_driverFeature (t : Transport) :
    t.mmio 12 [0, 0, 0, 0] false = .ok (t, leBytes 4 t.selectedDriverFeature.toNat) := rfl

theorem leBytes_zero_iff (v : UInt32) : leBytes 4 v.toNat = [0, 0, 0, 0] ↔ v = 0 := by
  constructor
  · intro bytes
    have number := leNat_leBytes 4 v.toNat
    have small : v.toNat < 256 ^ 4 := v.toNat_lt
    rw [bytes, Nat.mod_eq_of_lt small] at number
    exact UInt32.toNat_inj.mp number.symm
  · rintro rfl
    rfl

theorem mmio_reads_zero_iff (t : Transport) :
    t.mmio 12 [0, 0, 0, 0] false = .ok (t, [0, 0, 0, 0]) ↔ t.selectedDriverFeature = 0 := by
  rw [t.mmio_driverFeature, ← leBytes_zero_iff]
  simp

theorem selected_setDriverFeature (t : Transport) (v : UInt32) :
    (t.setDriverFeature v).selectedDriverFeature = v := by
  unfold setDriverFeature selectedDriverFeature
  rcases low_bit t.driverFeatureSel with even | odd
  · simp [even]
  · simp [odd]

theorem selected_write {t next : Transport} (written : t.write w = .ok next)
    (window : w.off = 12) : next.selectedDriverFeature = w.value := by
  obtain ⟨sel, windows⟩ := selection_write written
  rw [selectionAfter, if_neg (by omega), if_pos window] at sel windows
  rw [← t.selected_setDriverFeature w.value]
  unfold selectedDriverFeature
  rw [sel, windows]
  rfl

theorem windows_write {t next : Transport} {h : Written} (agrees : Agrees t h)
    (written : t.write w = .ok next) (window : w.off = 12) (large : 2 ≤ h.sel)
    (harmless : w.value = 0 ∧ h.window (h.sel &&& 1) = 0) :
    next.driverFeature = t.driverFeature := by
  have kept := agrees.write written fun _ _ => harmless
  rw [kept.windows, agrees.windows, step, if_neg (by omega), if_pos window]
  obtain ⟨notZero, notOne⟩ := alias_ne large
  simp only [update_of_ne notZero, update_of_ne notOne]

theorem after_store (pre : List RegisterWrite) {w : RegisterWrite} (window : w.off = 12) :
    (after (pre ++ [w])).sel = (after pre).sel ∧
      (after (pre ++ [w])).window (after pre).sel = w.value := by
  rw [after_concat, step, if_neg (by omega), if_pos window]
  exact ⟨rfl, update_self _ _ _⟩

section Runs

variable {start : Transport} (fresh : start.selection = (0, (0, 0))) {writes : List RegisterWrite}

include fresh

/-- A run agrees with the driver's record as long as its writes to aliases are harmless. -/
theorem agrees_run
    (harmless : ∀ pre w t, pre ++ [w] <+: writes → start.writeAll pre = .ok t →
      Agrees t (.after pre) → w.off = 12 → 2 ≤ (after pre).sel →
      w.value = 0 ∧ (after pre).window ((after pre).sel &&& 1) = 0)
    (pre : List RegisterWrite) (within : pre <+: writes) :
    ∃ t, start.writeAll pre = .ok t ∧ t.features = start.features ∧ Agrees t (.after pre) := by
  induction pre using reverseRecOn with
  | nil =>
    refine ⟨start, rfl, rfl, ?_⟩
    exact { sel := congrArg Prod.fst fresh, windows := congrArg Prod.snd fresh
            rest := fun _ _ => rfl }
  | append_singleton pre w ih =>
    obtain ⟨t, ran, features, agrees⟩ := ih ((prefix_append pre [w]).trans within)
    obtain ⟨next, written, kept, -⟩ := t.write_spec w
    refine ⟨next, ?_, kept.trans features, ?_⟩
    · rw [writeAll_concat, ran]
      exact written
    · rw [after_concat]
      exact agrees.write written (harmless pre w t within ran agrees)

/-- Negotiation is right at every point of a run: with `FEATURES_OK` the features are those
    offered and written to windows 0 and 1; under a selector of 2 or more, writes leave both
    windows alone and the register reads as zero. -/
def NegotiatesWindows (start : Transport) (writes : List RegisterWrite) : Prop :=
  ∀ pre, pre <+: writes → ∃ t, start.writeAll pre = .ok t ∧
    (t.featuresOK → t.negotiatedFeatures = (after pre).accepted &&& start.features) ∧
    (2 ≤ (after pre).sel →
      t.mmio 12 [0, 0, 0, 0] false = .ok (t, [0, 0, 0, 0]) ∧
      ∀ w next, pre ++ [w] <+: writes → w.off = 12 → t.write w = .ok next →
        next.driverFeature = t.driverFeature)

/-- The driver never selects an alias of a window that holds something, and writes only zero to
    aliases. -/
def AliasesIdle (writes : List RegisterWrite) : Prop :=
  ∀ pre, pre <+: writes → 2 ≤ (after pre).sel →
    (after pre).window ((after pre).sel &&& 1) = 0 ∧
      (after pre).window (after pre).sel = 0

theorem idle_of_negotiates (right : NegotiatesWindows start writes) : AliasesIdle writes := by
  have harmless : ∀ pre w t, pre ++ [w] <+: writes → start.writeAll pre = .ok t →
      Agrees t (.after pre) → w.off = 12 → 2 ≤ (after pre).sel →
      w.value = 0 ∧ (after pre).window ((after pre).sel &&& 1) = 0 := by
    intro pre w t within ran agrees window large
    obtain ⟨before, same, -, aliased⟩ := right pre ((prefix_append pre [w]).trans within)
    obtain rfl : t = before := Except.ok.inj (ran.symm.trans same)
    obtain ⟨next, reached, -, aliasedNext⟩ := right (pre ++ [w]) within
    rw [writeAll_concat, ran] at reached
    have old := t.mmio_reads_zero_iff.mp (aliased large).1
    have stored := next.mmio_reads_zero_iff.mp
      (aliasedNext ((after_store pre window).1.symm ▸ large)).1
    rw [selected_write reached window] at stored
    rw [agrees.selected] at old
    exact ⟨stored, old⟩
  intro pre within large
  obtain ⟨t, ran, -, agrees⟩ := agrees_run fresh harmless pre within
  obtain ⟨before, same, -, aliased⟩ := right pre within
  obtain rfl : t = before := Except.ok.inj (ran.symm.trans same)
  have old := t.mmio_reads_zero_iff.mp (aliased large).1
  rw [agrees.selected] at old
  exact ⟨old, agrees.rest _ large⟩

theorem negotiates_of_idle (idle : AliasesIdle writes) : NegotiatesWindows start writes := by
  have harmless : ∀ pre w, pre ++ [w] <+: writes → w.off = 12 → 2 ≤ (after pre).sel →
      w.value = 0 ∧ (after pre).window ((after pre).sel &&& 1) = 0 := by
    intro pre w within window large
    obtain ⟨sel, stored⟩ := after_store pre window
    have next := (idle (pre ++ [w]) within (sel.symm ▸ large)).2
    rw [sel, stored] at next
    exact ⟨next, (idle pre ((prefix_append pre [w]).trans within) large).1⟩
  intro pre within
  obtain ⟨t, ran, features, agrees⟩ :=
    agrees_run fresh (fun pre w t within _ _ => harmless pre w within) pre within
  refine ⟨t, ran, ?_, ?_⟩
  · intro ok
    rw [negotiatedFeatures, if_neg ok, agrees.windows, features]
    rfl
  · intro large
    refine ⟨?_, ?_⟩
    · rw [mmio_reads_zero_iff, agrees.selected]
      exact (idle pre within large).1
    · intro w next more window written
      exact windows_write agrees written window large (harmless pre w more window large)

end Runs

/-- Exactly the runs that leave the aliases idle are negotiated rightly. -/
theorem negotiates_windows_iff (dev : Device) (mem : Store) (deviceFeatures : UInt64)
    (numQueues : Nat) (setIRQLevel : Option (Bool → Bool)) (writes : List RegisterWrite) :
    NegotiatesWindows (newModernTransport dev mem deviceFeatures numQueues setIRQLevel) writes ↔
      AliasesIdle writes :=
  ⟨idle_of_negotiates rfl, negotiates_of_idle rfl⟩

/-- A disk that offers `VIRTIO_BLK_F_FLUSH`. -/
def flushingDisk : Transport := newModernTransport (.blk 1) (Store.blank 0) 0x200 1 none

/-- A driver that accepts both offered features and programs all four windows it knows of. -/
def fourWindows : List RegisterWrite :=
  [⟨8, [0, 0, 0, 0], by decide⟩, ⟨12, [0, 2, 0, 0], by decide⟩,
    ⟨8, [1, 0, 0, 0], by decide⟩, ⟨12, [1, 0, 0, 0], by decide⟩,
    ⟨8, [2, 0, 0, 0], by decide⟩, ⟨12, [0, 0, 0, 0], by decide⟩,
    ⟨8, [3, 0, 0, 0], by decide⟩, ⟨12, [0, 0, 0, 0], by decide⟩,
    ⟨20, [0x0b], by decide⟩]

/-- The zeros of windows 2 and 3 wipe out what was written to windows 0 and 1. -/
theorem four_windows_lose_features :
    ¬ NegotiatesWindows flushingDisk fourWindows ∧
      (flushingDisk.writeAll fourWindows).map negotiatedFeatures = .ok 0 ∧
      (after fourWindows).accepted &&& flushingDisk.features = 0x100000200 := by
  have negotiated : (flushingDisk.writeAll fourWindows).map negotiatedFeatures = .ok 0 := rfl
  have expected : (after fourWindows).accepted &&& flushingDisk.features = 0x100000200 := rfl
  refine ⟨?_, negotiated, expected⟩
  intro right
  obtain ⟨t, ran, features, -⟩ := right fourWindows prefix_rfl
  have status : (flushingDisk.writeAll fourWindows).map deviceStatus = .ok 0x0b := rfl
  rw [ran] at negotiated status
  have ok : t.featuresOK := by
    have is : t.deviceStatus = 0x0b := Except.ok.inj status
    rw [featuresOK, is]
    decide
  have zero : t.negotiatedFeatures = 0 := Except.ok.inj negotiated
  rw [features ok, expected] at zero
  exact absurd zero (by decide)

end Transport

end Gokvm.Virtio
