import Gokvm.Virtio.Queue

/-! # The modern PCI transport

Guest accesses to the memory BAR of a virtio device: the common configuration, the interrupt
status, the device's configuration and the doorbell. The data of an access is as long as the
instruction was wide. Indexing and slicing are checked as in Go: an access outside the length is a
panic.
-/

namespace Gokvm.Virtio

open Lib

inductive Panic where
  | outOfRange
deriving DecidableEq

/-! ## Checked byte strings -/

/-- `b[0]`. -/
def firstByte : Bytes → Except Panic UInt8
  | [] => .error .outOfRange
  | b :: _ => .ok b

/-- `binary.LittleEndian.Uint16(b)`. -/
def uint16 (b : Bytes) : Except Panic UInt16 :=
  if b.length < 2 then .error .outOfRange else .ok (UInt16.ofNat (leNat (b.take 2)))

/-- `binary.LittleEndian.Uint32(b)`. -/
def uint32 (b : Bytes) : Except Panic UInt32 :=
  if b.length < 4 then .error .outOfRange else .ok (UInt32.ofNat (leNat (b.take 4)))

/-- `b[low:high]`. -/
def sliced (b : Bytes) (low high : Nat) : Except Panic Bytes :=
  if low ≤ high ∧ high ≤ b.length then .ok (part b low (high - low)) else .error .outOfRange

/-- `b[i] = v`. -/
def setIndex (b : Bytes) (i : Nat) (v : UInt8) : Except Panic Bytes :=
  if i < b.length then .ok (b.set i v) else .error .outOfRange

/-- `copy(dst, src)`. -/
def copied (dst src : Bytes) : Bytes := src.take dst.length ++ dst.drop src.length

def zero (b : Bytes) : Bytes := List.replicate b.length 0

/-- A little-endian two-byte view of the data, tolerating one-byte writes. -/
def pad2 (b : Bytes) : Except Panic Bytes :=
  if 2 ≤ b.length then .ok b
  else match firstByte b with
    | .error panic => .error panic
    | .ok first => .ok [first, 0]

/-! ## Devices -/

/-- The devices behind the transport, with what their configuration registers show. -/
inductive Device where
  | blk (capacity : UInt64)
  | net
  | gpu (events : UInt32)
  | input (image : UInt8 → UInt8 → Vector UInt8 136) (configSelect configSubsel : UInt8)
  | sound

/-- A read of a configuration structure, clamped to its end. -/
def readWindow (cfg : Bytes) (offset : Nat) (data : Bytes) : Except Panic Bytes :=
  let data := zero data
  if cfg.length ≤ offset then .ok data
  else match sliced cfg offset (min (offset + data.length) cfg.length) with
    | .error panic => .error panic
    | .ok window => .ok (copied data window)

def soundConfig : Bytes := leBytes 4 0 ++ leBytes 4 1 ++ leBytes 4 1

def Device.readDeviceConfig (offset : Nat) (data : Bytes) : Device → Except Panic Bytes
  | .blk capacity => readWindow (leBytes 8 capacity.toNat) offset data
  | .net => .ok (zero data)
  | .gpu events =>
    readWindow (leBytes 4 events.toNat ++ leBytes 4 0 ++ leBytes 4 1 ++ leBytes 4 0) offset data
  | .input image configSelect configSubsel =>
    readWindow (image configSelect configSubsel).toList offset data
  | .sound =>
    let data := zero data
    if offset < soundConfig.length then
      match sliced soundConfig offset soundConfig.length with
      | .error panic => .error panic
      | .ok window => .ok (copied data window)
    else .ok data

/-- The loop of the GPU's write-one-to-clear register. -/
def collectClearEvents (offset : Nat) : List UInt8 → Nat → Bytes → Except Panic Bytes
  | [], _, clearEvents => .ok clearEvents
  | value :: rest, i, clearEvents =>
    if offset ≤ 7 ∧ i ≤ 7 - offset ∧ 4 ≤ offset + i then
      match setIndex clearEvents (offset + i - 4) value with
      | .error panic => .error panic
      | .ok clearEvents => collectClearEvents offset rest (i + 1) clearEvents
    else collectClearEvents offset rest (i + 1) clearEvents

/-- The loop of the input device's selectors. -/
def selectConfig (offset : Nat) : List UInt8 → Nat → UInt8 × UInt8 → UInt8 × UInt8
  | [], _, selected => selected
  | value :: rest, i, selected =>
    selectConfig offset rest (i + 1)
      (if offset + i = 0 then (value, selected.2)
        else if offset + i = 1 then (selected.1, value)
        else selected)

def Device.writeDeviceConfig (offset : Nat) (data : Bytes) : Device → Except Panic Device
  | .gpu events =>
    match collectClearEvents offset data 0 [0, 0, 0, 0] with
    | .error panic => .error panic
    | .ok clearEvents => match uint32 clearEvents with
      | .error panic => .error panic
      | .ok cleared => .ok (.gpu (events &&& ~~~ cleared))
  | .input image configSelect configSubsel =>
    let selected := selectConfig offset data 0 (configSelect, configSubsel)
    .ok (.input image selected.1 selected.2)
  | device => .ok device

/-- The configuration registers after the device's `Reset`. -/
def Device.reset : Device → Device
  | .gpu _ => .gpu 0
  | .input image _ _ => .input image 0 0
  | device => device

/-! ## Transport state -/

structure QueueState where
  size : UInt16
  msixVector : UInt16
  enable : UInt16
  desc : UInt64
  driver : UInt64
  device : UInt64

def QueueState.initial : QueueState :=
  { size := 32, msixVector := 0, enable := 0, desc := 0, driver := 0, device := 0 }

/-- Calls into the device that do not see the data. -/
inductive DeviceCall where
  | reset
  | queueReady (idx : Nat) (queue : SplitQueue)
  | notify (idx : Nat)

structure Transport where
  dev : Device
  mem : Store
  features : UInt64
  deviceFeatureSel : UInt32
  driverFeatureSel : UInt32
  driverFeature : UInt32 × UInt32
  deviceStatus : UInt8
  configGen : UInt32
  msixConfig : UInt16
  queueSel : UInt16
  queues : List QueueState
  isr : UInt32
  /-- The level callback, when one is installed: whether a change of level succeeds. -/
  setIRQLevel : Option (Bool → Bool)
  irqError : Bool
  calls : List DeviceCall

namespace Transport

def deviceFeature (t : Transport) (sel : UInt32) : UInt32 :=
  if sel = 0 then t.features.toUInt32
  else if sel = 1 then (t.features >>> 32).toUInt32
  else 0

def selectedDriverFeature (t : Transport) : UInt32 :=
  if t.driverFeatureSel &&& 1 = 0 then t.driverFeature.1 else t.driverFeature.2

def setDriverFeature (t : Transport) (v : UInt32) : Transport :=
  { t with
      driverFeature :=
        if t.driverFeatureSel &&& 1 = 0 then (v, t.driverFeature.2) else (t.driverFeature.1, v) }

def curQueue (t : Transport) : Option QueueState := t.queues[t.queueSel.toNat]?

def setQueue (t : Transport) (q : QueueState) : Transport :=
  { t with queues := t.queues.set t.queueSel.toNat q }

def commonCfgLen : Nat := 0x38

/-- The common configuration structure as the registers are now. -/
def commonImage (t : Transport) : Bytes :=
  leBytes 4 t.deviceFeatureSel.toNat ++ leBytes 4 (t.deviceFeature t.deviceFeatureSel).toNat ++
  leBytes 4 t.driverFeatureSel.toNat ++ leBytes 4 t.selectedDriverFeature.toNat ++
  leBytes 2 t.msixConfig.toNat ++ leBytes 2 t.queues.length ++
  [t.deviceStatus, UInt8.ofNat t.configGen.toNat] ++ leBytes 2 t.queueSel.toNat ++
  match t.curQueue with
  | some q =>
    leBytes 2 q.size.toNat ++ leBytes 2 q.msixVector.toNat ++ leBytes 2 q.enable.toNat ++
    leBytes 2 0 ++ leBytes 8 q.desc.toNat ++ leBytes 8 q.driver.toNat ++ leBytes 8 q.device.toNat
  | none => List.replicate 32 0

def clearInterrupt (t : Transport) : UInt8 × Transport :=
  let status := UInt8.ofNat t.isr.toNat
  let t := { t with isr := 0 }
  match t.setIRQLevel with
  | some setLevel => (status, if setLevel false then t else { t with irqError := true })
  | none => (status, t)

/-- Maps the selected queue, or disables it when an area is not in guest memory. -/
def mapQueue (t : Transport) (q : QueueState) : Transport × Option SplitQueue :=
  let valid (addr : UInt64) (size align : Nat) : Bool :=
    addr.toNat % align = 0 && validRange t.mem addr.toNat size
  if q.size = 0 ∨ q.size > 32 ∨ q.size &&& (q.size - 1) ≠ 0 ∨
      ¬ valid q.desc sizeofDescTable 16 ∨ ¬ valid q.driver sizeofAvail 2 ∨
      ¬ valid q.device sizeofUsed 4 then
    (t.setQueue { q with enable := 0 }, none)
  else
    (t.setQueue q, some
      { desc := q.desc.toNat, avail := q.driver.toNat, used := q.device.toNat,
        size := q.size.toNat })

/-- The low or the high half of a 64-bit register. -/
def setLoHi (p : UInt64) (half : Nat) (v : UInt32) : UInt64 :=
  if half = 0 then (p &&& ~~~ (0xffffffff : UInt64)) ||| v.toUInt64
  else (p &&& (0xffffffff : UInt64)) ||| (v.toUInt64 <<< 32)

def writeQueueAddr (t : Transport) (which half : Nat) (v : UInt32) : Transport :=
  match t.curQueue with
  | none => t
  | some q =>
    match which with
    | 0 => t.setQueue { q with desc := setLoHi q.desc half v }
    | 1 => t.setQueue { q with driver := setLoHi q.driver half v }
    | _ => t.setQueue { q with device := setLoHi q.device half v }

/-! ## Accesses -/

def onUint32 (data : Bytes) (f : UInt32 → Transport) : Except Panic Transport :=
  match uint32 data with
  | .error panic => .error panic
  | .ok v => .ok (f v)

def onUint16 (data : Bytes) (f : UInt16 → Transport) : Except Panic Transport :=
  match uint16 data with
  | .error panic => .error panic
  | .ok v => .ok (f v)

/-- A 16-bit register of the selected queue; without one the data is not looked at. -/
def onQueue (t : Transport) (data : Bytes) (f : QueueState → UInt16 → Transport) :
    Except Panic Transport :=
  match t.curQueue with
  | none => .ok t
  | some q => onUint16 data (f q)

def enableQueue (t : Transport) (q : QueueState) (v : UInt16) : Transport :=
  let q := { q with enable := v }
  if v = 1 then
    match t.mapQueue q with
    | (t, none) => t
    | (t, some ready) => { t with calls := t.calls ++ [.queueReady t.queueSel.toNat ready] }
  else t.setQueue q

/-- The registers after a write of zero to the device status. -/
def resetRegisters (t : Transport) : Transport :=
  { t with
      deviceFeatureSel := 0
      driverFeatureSel := 0
      driverFeature := (0, 0)
      queueSel := 0
      msixConfig := 0
      queues := t.queues.map fun _ => QueueState.initial }

def writeStatus (t : Transport) (status : UInt8) : Transport :=
  if status = 0 then
    let t := { t with dev := t.dev.reset, calls := t.calls ++ [DeviceCall.reset] }
    let t := t.clearInterrupt.2
    { t.resetRegisters with deviceStatus := status }
  else { t with deviceStatus := status }

def writeCommonCfg (t : Transport) (off : Nat) (data : Bytes) : Except Panic Transport :=
  match off with
  | 0 => onUint32 data fun v => { t with deviceFeatureSel := v }
  | 8 => onUint32 data fun v => { t with driverFeatureSel := v }
  | 12 => onUint32 data fun v => t.setDriverFeature v
  | 16 => onUint16 data fun v => { t with msixConfig := v }
  | 20 => match firstByte data with
    | .error panic => .error panic
    | .ok status => .ok (t.writeStatus status)
  | 22 => onUint16 data fun v => { t with queueSel := v }
  | 24 => t.onQueue data fun q v => t.setQueue { q with size := v }
  | 26 => t.onQueue data fun q v => t.setQueue { q with msixVector := v }
  | 28 => t.onQueue data fun q v => t.enableQueue q v
  | 32 => onUint32 data fun v => t.writeQueueAddr 0 0 v
  | 36 => onUint32 data fun v => t.writeQueueAddr 0 1 v
  | 40 => onUint32 data fun v => t.writeQueueAddr 1 0 v
  | 44 => onUint32 data fun v => t.writeQueueAddr 1 1 v
  | 48 => onUint32 data fun v => t.writeQueueAddr 2 0 v
  | 52 => onUint32 data fun v => t.writeQueueAddr 2 1 v
  | _ => .ok t

def readCommonCfg (t : Transport) (off : Nat) (data : Bytes) : Except Panic Bytes :=
  let data := zero data
  if commonCfgLen ≤ off then .ok data
  else match sliced t.commonImage off (min (off + data.length) commonCfgLen) with
    | .error panic => .error panic
    | .ok window => .ok (copied data window)

def isrCfgOffset : Nat := 0x1000

def deviceCfgOffset : Nat := 0x2000

def notifyCfgOffset : Nat := 0x3000

/-- `ModernTransport.MMIO`: the transport and the data after the access. -/
def mmio (t : Transport) (offset : Nat) (data : Bytes) (isWrite : Bool) :
    Except Panic (Transport × Bytes) :=
  if data.length = 0 then .ok (t, data)
  else if offset < commonCfgLen then
    if isWrite then (t.writeCommonCfg offset data).map fun t => (t, data)
    else (t.readCommonCfg offset data).map fun data => (t, data)
  else if isrCfgOffset ≤ offset ∧ offset < isrCfgOffset + 4 then
    if isWrite then .ok (t, data)
    else
      let (status, t) := t.clearInterrupt
      (setIndex (zero data) 0 status).map fun data => (t, data)
  else if deviceCfgOffset ≤ offset ∧ offset < deviceCfgOffset + 0x1000 then
    if isWrite then
      (t.dev.writeDeviceConfig (offset - deviceCfgOffset) data).map fun dev => ({ t with dev }, data)
    else (t.dev.readDeviceConfig (offset - deviceCfgOffset) data).map fun data => (t, data)
  else if notifyCfgOffset ≤ offset ∧ offset < notifyCfgOffset + 0x100 then
    if isWrite then
      match pad2 data with
      | .error panic => .error panic
      | .ok padded => (uint16 padded).map fun idx =>
        ({ t with calls := t.calls ++ [.notify idx.toNat] }, data)
    else .ok (t, data)
  else .ok (t, data)

/-! ## Accesses that return -/

/-- A computation that ends without a panic. -/
def Returns {α : Type} (result : Except Panic α) : Prop := ∃ value, result = .ok value

@[simp]
theorem returns_ok {α : Type} (value : α) : Returns (.ok value) := ⟨value, rfl⟩

@[simp]
theorem not_returns_error {α : Type} (panic : Panic) :
    ¬ Returns (.error panic : Except Panic α) := by
  rintro ⟨value, impossible⟩
  cases impossible

@[simp]
theorem returns_map {α β : Type} (f : α → β) (result : Except Panic α) :
    Returns (result.map f) ↔ Returns result := by
  cases result with
  | ok value => exact ⟨fun _ => returns_ok value, fun _ => returns_ok (f value)⟩
  | error panic =>
    exact ⟨fun h => absurd h (not_returns_error panic), fun h => absurd h (not_returns_error panic)⟩

theorem returns_firstByte {data : Bytes} (nonempty : data ≠ []) : Returns (firstByte data) := by
  cases data with
  | nil => exact absurd rfl nonempty
  | cons b rest => exact returns_ok b

theorem returns_uint16 (data : Bytes) : Returns (uint16 data) ↔ 2 ≤ data.length := by
  unfold uint16
  split
  next short => exact ⟨fun h => absurd h (not_returns_error _), fun h => absurd h (by omega)⟩
  next long => exact ⟨fun _ => by omega, fun _ => returns_ok _⟩

theorem returns_uint32 (data : Bytes) : Returns (uint32 data) ↔ 4 ≤ data.length := by
  unfold uint32
  split
  next short => exact ⟨fun h => absurd h (not_returns_error _), fun h => absurd h (by omega)⟩
  next long => exact ⟨fun _ => by omega, fun _ => returns_ok _⟩

theorem returns_onUint32 (data : Bytes) (f : UInt32 → Transport) :
    Returns (onUint32 data f) ↔ 4 ≤ data.length := by
  rw [← returns_uint32 data]
  unfold onUint32
  cases uint32 data with
  | ok _ | error _ => simp

theorem returns_onUint16 (data : Bytes) (f : UInt16 → Transport) :
    Returns (onUint16 data f) ↔ 2 ≤ data.length := by
  rw [← returns_uint16 data]
  unfold onUint16
  cases uint16 data with
  | ok _ | error _ => simp

theorem curQueue_isSome (t : Transport) : t.curQueue.isSome ↔ t.queueSel.toNat < t.queues.length := by
  simp [curQueue]

theorem returns_onQueue (t : Transport) (data : Bytes) (f : QueueState → UInt16 → Transport) :
    Returns (t.onQueue data f) ↔
      (if t.queueSel.toNat < t.queues.length then 2 else 0) ≤ data.length := by
  have selected := t.curQueue_isSome
  unfold onQueue
  cases cur : t.curQueue with
  | none =>
    rw [cur] at selected
    have beyond : ¬ t.queueSel.toNat < t.queues.length := by simpa using selected
    simp [beyond]
  | some q =>
    rw [cur] at selected
    have inside : t.queueSel.toNat < t.queues.length := by simpa using selected
    simp only [if_pos inside]
    exact returns_onUint16 data (f q)

@[simp]
theorem length_zero (data : Bytes) : (zero data).length = data.length := by simp [zero]

theorem returns_window {cfg : Bytes} {offset : Nat} (wanted : Nat) (inside : offset < cfg.length) :
    Returns (sliced cfg offset (min (offset + wanted) cfg.length)) := by
  unfold sliced
  rw [if_pos (by omega)]
  exact returns_ok _

theorem returns_readWindow (cfg : Bytes) (offset : Nat) (data : Bytes) :
    Returns (readWindow cfg offset data) := by
  unfold readWindow
  simp only [length_zero]
  split
  · exact returns_ok _
  next before =>
    obtain ⟨window, taken⟩ := returns_window data.length (Nat.lt_of_not_le before)
    rw [taken]
    exact returns_ok _

theorem returns_readDeviceConfig (dev : Device) (offset : Nat) (data : Bytes) :
    Returns (dev.readDeviceConfig offset data) := by
  cases dev with
  | blk _ | gpu _ | input _ _ _ => exact returns_readWindow _ offset data
  | net => exact returns_ok _
  | sound =>
    simp only [Device.readDeviceConfig]
    split
    next inside =>
      have whole : sliced soundConfig offset soundConfig.length
          = .ok (part soundConfig offset (soundConfig.length - offset)) :=
        if_pos ⟨inside.le, le_rfl⟩
      rw [whole]
      exact returns_ok _
    · exact returns_ok _

/-- The loop stays within the four bytes of the register. -/
theorem collectClearEvents_length (offset : Nat) (data : List UInt8) :
    ∀ (i : Nat) (clearEvents : Bytes), clearEvents.length = 4 →
      ∃ collected, collectClearEvents offset data i clearEvents = .ok collected ∧
        collected.length = 4 := by
  induction data with
  | nil => exact fun i clearEvents four => ⟨clearEvents, rfl, four⟩
  | cons value rest ih =>
    intro i clearEvents four
    simp only [collectClearEvents]
    split
    next inside =>
      have placed : setIndex clearEvents (offset + i - 4) value
          = .ok (clearEvents.set (offset + i - 4) value) := if_pos (by omega)
      rw [placed]
      exact ih (i + 1) _ (by simpa using four)
    · exact ih (i + 1) clearEvents four

theorem returns_writeDeviceConfig (dev : Device) (offset : Nat) (data : Bytes) :
    Returns (dev.writeDeviceConfig offset data) := by
  cases dev with
  | blk _ | net | input _ _ _ | sound => exact returns_ok _
  | gpu events =>
    obtain ⟨collected, ran, four⟩ := collectClearEvents_length offset data 0 [0, 0, 0, 0] rfl
    obtain ⟨cleared, loaded⟩ := (returns_uint32 collected).mpr four.ge
    simp only [Device.writeDeviceConfig, ran, loaded]
    exact returns_ok _

theorem length_commonImage (t : Transport) : t.commonImage.length = commonCfgLen := by
  unfold commonImage commonCfgLen
  cases t.curQueue with
  | none | some _ => simp

theorem returns_readCommonCfg (t : Transport) (off : Nat) (data : Bytes) :
    Returns (t.readCommonCfg off data) := by
  unfold readCommonCfg
  simp only [length_zero]
  split
  · exact returns_ok _
  next before =>
    have inside : off < t.commonImage.length := by
      rw [t.length_commonImage]
      omega
    obtain ⟨window, taken⟩ := returns_window data.length inside
    rw [t.length_commonImage] at taken
    rw [taken]
    exact returns_ok _

/-- How many bytes the register at an offset of the bar takes from a write. -/
def registerWidth (t : Transport) (off : Nat) : Nat :=
  match off with
  | 0 | 8 | 12 | 32 | 36 | 40 | 44 | 48 | 52 => 4
  | 16 | 22 => 2
  | 24 | 26 | 28 => if t.queueSel.toNat < t.queues.length then 2 else 0
  | _ => 0

theorem returns_writeCommonCfg (t : Transport) (off : Nat) {data : Bytes} (nonempty : data ≠ []) :
    Returns (t.writeCommonCfg off data) ↔ t.registerWidth off ≤ data.length := by
  unfold writeCommonCfg
  split
  case h_5 =>
    obtain ⟨status, first⟩ := returns_firstByte nonempty
    rw [first]
    simp [registerWidth]
  case h_16 =>
    have noRegister : t.registerWidth off = 0 := by
      unfold registerWidth
      split <;> first | rfl | contradiction
    simp [noRegister]
  all_goals
    first
    | exact returns_onUint32 data _
    | exact returns_onUint16 data _
    | exact t.returns_onQueue data _

theorem registerWidth_beyond (t : Transport) {off : Nat} (beyond : commonCfgLen ≤ off) :
    t.registerWidth off = 0 := by
  unfold commonCfgLen at beyond
  unfold registerWidth
  split <;> first | rfl | (exfalso; omega)

theorem returns_notify {data : Bytes} (nonempty : data ≠ []) :
    ∃ padded, pad2 data = .ok padded ∧ Returns (uint16 padded) := by
  unfold pad2
  split
  next long => exact ⟨data, rfl, (returns_uint16 data).mpr long⟩
  · obtain ⟨first, taken⟩ := returns_firstByte nonempty
    rw [taken]
    exact ⟨[first, 0], rfl, (returns_uint16 _).mpr le_rfl⟩

def fresh : Transport where
  dev := .blk 1
  mem := Store.blank 0
  features := 0x100000000
  deviceFeatureSel := 0
  driverFeatureSel := 0
  driverFeature := (0, 0)
  deviceStatus := 0
  configGen := 0
  msixConfig := 0
  queueSel := 0
  queues := [QueueState.initial]
  isr := 0
  setIRQLevel := none
  irqError := false
  calls := []

end Transport

end Gokvm.Virtio
