import Gokvm.Lib.Loop
import Gokvm.Virtio.Modern

/-! # Delivering input events

One event is written into the descriptor chain that the driver made available. The
chain lies in guest memory: heads and links are any 16-bit numbers, and the bytes of
the event may even land on the descriptor table while the chain is being followed.
-/

namespace Gokvm.Virtio

open Lib Nat Finset

structure InputEvent where
  typ : UInt16
  code : UInt16
  value : UInt32

def inputEventLen : Nat := 8

def InputEvent.raw (ev : InputEvent) : Bytes :=
  leBytes 2 ev.typ.toNat ++ leBytes 2 ev.code.toNat ++ leBytes 4 ev.value.toNat

/-- The variables of the walk along a chain, with guest memory. -/
@[ext] structure Walk where
  mem : Store
  descID : Nat
  written : Nat

/-- One turn of the loop in `writeEvent`; the descriptor table is an array of 32. -/
def writeEventBody (q : SplitQueue) (raw : Bytes) (w : Walk) :
    Turn Walk (Except Panic (Store × Nat × Bool)) :=
  if queueSize ≤ w.descID then .done (.error .outOfRange)
  else
    let desc := q.descAt w.mem w.descID
    let w :=
      if desc.flags &&& descFWrite ≠ 0 then
        let n := min desc.len (raw.length - w.written)
        if 0 < n ∧ validRange w.mem desc.addr n then
          { w with
              mem := w.mem.write desc.addr (part raw w.written n)
              written := w.written + n }
        else w
      else w
    if w.written = raw.length then .done (.ok (w.mem, inputEventLen, true))
    else if desc.flags &&& descFNext = 0 then .done (.ok (w.mem, w.written, false))
    else .again { w with descID := desc.next }

/-- `writeEvent`, run for at most `fuel` descriptors. -/
def writeEvent (fuel : Nat) (q : SplitQueue) (mem : Store) (head : Nat) (ev : InputEvent) :
    Option (Except Panic (Store × Nat × Bool)) :=
  loop (writeEventBody q ev.raw) fuel { mem, descID := head, written := 0 }

inductive InputError where
  | vqNotInit
  | noInputEvent
deriving DecidableEq

structure InputDevice where
  mem : Store
  eventQueue : Option SplitQueue
  lastAvailIdx : UInt16
  pending : List InputEvent

/-- The device after an event was delivered: `n` bytes in the chain that starts at `head`. -/
def InputDevice.publish (d : InputDevice) (q : SplitQueue) (mem : Store) (head n : Nat)
    (pending : List InputEvent) : InputDevice :=
  let uidx := q.usedIdx mem
  let mem := q.setUsedRing mem (uidx % queueSize) head n
  { d with
      mem := q.setUsedIdx mem (uidx + 1)
      lastAvailIdx := d.lastAvailIdx + 1
      pending }

/-- The descriptor chain that the driver made available next. -/
def InputDevice.head (d : InputDevice) (q : SplitQueue) : Nat :=
  q.availRing d.mem (d.lastAvailIdx.toNat % queueSize)

/-- `flushEventsLocked`: delivers one event; nothing when the fuel runs out first. -/
def InputDevice.flushEventsLocked (d : InputDevice) (fuel : Nat) :
    Option (Except Panic (Option InputError × InputDevice)) :=
  match d.eventQueue with
  | none => some (.ok (some .vqNotInit, d))
  | some q =>
    if d.lastAvailIdx.toNat = q.availIdx d.mem then some (.ok (some .noInputEvent, d))
    else match d.pending with
      | [] => some (.ok (some .noInputEvent, d))
      | ev :: rest =>
        (writeEvent fuel q d.mem (d.head q) ev).map fun result =>
          result.map fun (mem, usedLen, written) =>
            -- an event that does not fit goes back to the front of the queue
            if written then (none, d.publish q mem (d.head q) usedLen rest)
            else (some .noInputEvent, { d with mem, pending := ev :: rest })

/-! ## Chains of descriptors -/

/-- How many of the remaining bytes of an event a descriptor takes. -/
def accepts (mem : Store) (desc : SplitDesc) (left : Nat) : Nat :=
  if desc.flags &&& descFWrite ≠ 0 ∧ validRange mem desc.addr (min desc.len left) then
    min desc.len left
  else 0

theorem accepts_le (mem : Store) (desc : SplitDesc) (left : Nat) : accepts mem desc left ≤ left := by
  unfold accepts
  split
  · exact min_le_right desc.len left
  · exact zero_le left

/-- The chain goes on from one descriptor to the next with the event unfinished. -/
structure Follows (q : SplitQueue) (raw : Bytes) (a b : Walk) : Prop where
  inTable : a.descID < queueSize
  linked : (q.descAt a.mem a.descID).flags &&& descFNext ≠ 0
  next : b.descID = (q.descAt a.mem a.descID).next
  taken : b.written =
    a.written + accepts a.mem (q.descAt a.mem a.descID) (raw.length - a.written)
  unfinished : b.written ≠ raw.length
  stored : b.mem = a.mem.write (q.descAt a.mem a.descID).addr
    (part raw a.written (accepts a.mem (q.descAt a.mem a.descID) (raw.length - a.written)))

/-- The first half of a turn: the descriptor takes what it accepts. -/
theorem take_eq (raw : Bytes) (desc : SplitDesc) (w : Walk) :
    (if desc.flags &&& descFWrite ≠ 0 then
        if 0 < min desc.len (raw.length - w.written) ∧
            validRange w.mem desc.addr (min desc.len (raw.length - w.written)) then
          { w with
              mem := w.mem.write desc.addr
                (part raw w.written (min desc.len (raw.length - w.written)))
              written := w.written + min desc.len (raw.length - w.written) }
        else w
      else w) =
    { w with
        mem := w.mem.write desc.addr
          (part raw w.written (accepts w.mem desc (raw.length - w.written)))
        written := w.written + accepts w.mem desc (raw.length - w.written) } := by
  have nothing : w = { w with
      mem := w.mem.write desc.addr (part raw w.written 0), written := w.written + 0 } := by
    rw [part, List.take_zero, Store.write_nil, add_zero]
  unfold accepts
  split
  next writable =>
    split
    next taken => rw [if_pos ⟨writable, taken.2⟩]
    next refused =>
      have zero : (if desc.flags &&& descFWrite ≠ 0 ∧
          validRange w.mem desc.addr (min desc.len (raw.length - w.written)) then
            min desc.len (raw.length - w.written) else 0) = 0 := by
        split
        next valid =>
          by_contra positive
          exact refused ⟨pos_of_ne_zero positive, valid.2⟩
        · rfl
      rw [zero]
      exact nothing
  next readOnly =>
    rw [if_neg (fun both => readOnly both.1)]
    exact nothing

/-- A turn of the loop, with what the descriptor takes as one number. -/
theorem writeEventBody_eq (q : SplitQueue) (raw : Bytes) (w : Walk) (inTable : w.descID < queueSize) :
    writeEventBody q raw w =
      let desc := q.descAt w.mem w.descID
      let n := accepts w.mem desc (raw.length - w.written)
      let mem := w.mem.write desc.addr (part raw w.written n)
      if w.written + n = raw.length then .done (.ok (mem, inputEventLen, true))
      else if desc.flags &&& descFNext = 0 then .done (.ok (mem, w.written + n, false))
      else .again { mem, descID := desc.next, written := w.written + n } := by
  unfold writeEventBody
  rw [if_neg (not_le.mpr inTable)]
  simp only [take_eq raw (q.descAt w.mem w.descID) w]

theorem goes_iff_follows (q : SplitQueue) (raw : Bytes) (a b : Walk) :
    Goes (writeEventBody q raw) a b ↔ Follows q raw a b := by
  constructor
  · intro goes
    unfold Goes at goes
    have inTable : a.descID < queueSize := by
      by_contra outside
      unfold writeEventBody at goes
      rw [if_pos (Nat.le_of_not_lt outside)] at goes
      cases goes
    rw [writeEventBody_eq q raw a inTable] at goes
    simp only at goes
    split at goes
    · cases goes
    split at goes
    · cases goes
    next unfinished linked =>
      cases goes
      exact { inTable, linked, next := rfl, taken := rfl, unfinished, stored := rfl }
  · intro follows
    have unfinished := follows.unfinished
    rw [follows.taken] at unfinished
    unfold Goes
    rw [writeEventBody_eq q raw a follows.inTable]
    simp only [if_neg unfinished, if_neg follows.linked, Turn.again.injEq]
    apply Walk.ext
    · exact follows.stored.symm
    · exact follows.next.symm
    · exact follows.taken.symm

theorem goes_eq_follows (q : SplitQueue) (raw : Bytes) :
    Goes (writeEventBody q raw) = Follows q raw := by
  funext a b
  exact propext (goes_iff_follows q raw a b)

variable {q : SplitQueue} {raw : Bytes} {a b : Walk} {ev : InputEvent}

/-- A turn ends in a panic exactly outside the table. -/
theorem writeEventBody_done {w : Walk} {result : Except Panic (Store × Nat × Bool)}
    (leaves : writeEventBody q raw w = .done result) :
    Transport.Returns result ↔ w.descID < queueSize := by
  by_cases inTable : w.descID < queueSize
  · rw [writeEventBody_eq q raw w inTable] at leaves
    simp only at leaves
    simp only [inTable, iff_true]
    split at leaves
    · cases leaves
      exact Transport.returns_ok _
    split at leaves
    · cases leaves
      exact Transport.returns_ok _
    · cases leaves
  · have panicked : writeEventBody q raw w = .done (.error .outOfRange) :=
      if_pos (Nat.le_of_not_lt inTable)
    rw [panicked] at leaves
    cases leaves
    simp [inTable]

/-- Along a chain the event only grows, and while it does not, memory stays as it is. -/
def Grows (a b : Walk) : Prop :=
  a.written ≤ b.written ∧ (a.written = b.written → a.mem = b.mem)

theorem Grows.trans {c : Walk} (first : Grows a b) (second : Grows b c) : Grows a c := by
  refine ⟨first.1.trans second.1, fun same => ?_⟩
  have firstLe := first.1
  have secondLe := second.1
  exact (first.2 (by omega)).trans (second.2 (by omega))

theorem Follows.grows (follows : Follows q raw a b) :
    Grows a b := by
  have taken := follows.taken
  refine ⟨by omega, fun same => ?_⟩
  have nothing : accepts a.mem (q.descAt a.mem a.descID) (raw.length - a.written) = 0 := by omega
  rw [follows.stored, nothing, part, List.take_zero, Store.write_nil]

theorem grows_of_chain (chain : Relation.TransGen (Follows q raw) a b) : Grows a b := by
  induction chain with
  | single follows => exact follows.grows
  | tail _ follows ih => exact ih.trans follows.grows

theorem Follows.bounded (follows : Follows q raw a b) (bounded : a.written ≤ raw.length) : b.written ≤ raw.length := by
  have most := accepts_le a.mem (q.descAt a.mem a.descID) (raw.length - a.written)
  rw [follows.taken]
  omega

theorem bounded_of_chain (chain : Relation.ReflTransGen (Follows q raw) a b)
    (bounded : a.written ≤ raw.length) :
    b.written ≤ raw.length := by
  induction chain with
  | refl => exact bounded
  | tail _ follows ih => exact follows.bounded ih

/-- A chain is safe to follow: every descriptor is in the table, and bytes are written before one
    comes back. -/
structure ChainSafe (q : SplitQueue) (raw : Bytes) (start : Walk) : Prop where
  inTable : ∀ w, Relation.ReflTransGen (Follows q raw) start w → w.descID < queueSize
  productive : ∀ a b, Relation.ReflTransGen (Follows q raw) start a →
    Relation.TransGen (Follows q raw) a b → a.descID = b.descID → a.written < b.written

/-- The longest safe chain visits every descriptor once for each number of bytes written. -/
theorem writeEvent_of_chainSafe {mem : Store} {head : Nat}
    (safe : ChainSafe q ev.raw { mem, descID := head, written := 0 }) :
    ∃ result, writeEvent (queueSize * (ev.raw.length + 1)) q mem head ev = some result ∧
      Transport.Returns result := by
  let key (w : Walk) : Nat × Nat := (w.descID, w.written)
  have ends := loop_ends_of_keys (writeEventBody q ev.raw) key
    (range queueSize ×ˢ range (ev.raw.length + 1))
    { mem, descID := head, written := 0 }
  unfold Reaches at ends
  rw [goes_eq_follows, card_product, card_range, card_range] at ends
  obtain ⟨result, ended⟩ := ends
    (by
      intro w chain
      have bounded : w.written ≤ ev.raw.length := bounded_of_chain chain (zero_le _)
      simp only [key, mem_product, mem_range]
      exact ⟨safe.inTable w chain, lt_succ_of_le bounded⟩)
    (by
      intro a b chain turns same
      simp only [key, Prod.mk.injEq] at same
      have grown := safe.productive a b chain turns same.1
      omega)
  refine ⟨result, ended, ?_⟩
  obtain ⟨last, path, leaves⟩ := loop_result ended
  unfold Reaches at path
  rw [goes_eq_follows] at path
  exact (writeEventBody_done leaves).mpr (safe.inTable last path)

theorem chainSafe_of_writeEvent {mem : Store} {head fuel : Nat} {result : Except Panic (Store × Nat × Bool)}
    (ended : writeEvent fuel q mem head ev = some result) (returned : Transport.Returns result) :
    ChainSafe q ev.raw { mem, descID := head, written := 0 } := by
  unfold writeEvent at ended
  constructor
  · intro w chain
    rw [← goes_eq_follows] at chain
    obtain ⟨less, still⟩ := loop_reached chain ended
    by_contra outside
    have panicked : writeEventBody q ev.raw w = .done (.error .outOfRange) :=
      if_pos (Nat.le_of_not_lt outside)
    rw [loop_of_done panicked still] at returned
    exact Transport.not_returns_error _ returned
  · intro a b chain turns same
    have grows := grows_of_chain turns
    by_contra barren
    -- without progress the walk is back in the state it was in
    have written : a.written = b.written := by
      have atLeast := grows.1
      omega
    have back : a = b := Walk.ext (grows.2 written) same written
    rw [← goes_eq_follows] at chain turns
    obtain ⟨less, still⟩ := loop_reached chain ended
    rw [← back] at turns
    rw [loop_cycle turns less] at still
    cases still

/-- Before delivery: there is nothing to deliver, or the chain made available is safe for the first
    event. -/
def InputDevice.Deliverable (d : InputDevice) : Prop :=
  ∀ q ev rest, d.eventQueue = some q → d.lastAvailIdx.toNat ≠ q.availIdx d.mem →
    d.pending = ev :: rest →
      ChainSafe q ev.raw { mem := d.mem, descID := d.head q, written := 0 }

/-- With an event and a chain, delivery is the walk along the chain. -/
theorem InputDevice.writeEvent_of_flush {d : InputDevice} {rest : List InputEvent}
    (ready : d.eventQueue = some q) (available : d.lastAvailIdx.toNat ≠ q.availIdx d.mem)
    (waiting : d.pending = ev :: rest) {fuel : Nat} {result : Except Panic (Option InputError × InputDevice)}
    (flushed : d.flushEventsLocked fuel = some result) :
    ∃ outcome, writeEvent fuel q d.mem (d.head q) ev = some outcome ∧
      (Transport.Returns result → Transport.Returns outcome) := by
  simp only [flushEventsLocked, ready, if_neg available, waiting, Option.map_eq_some_iff] at flushed
  obtain ⟨outcome, ended, mapped⟩ := flushed
  refine ⟨outcome, ended, fun returned => ?_⟩
  rw [← mapped] at returned
  exact (Transport.returns_map _ outcome).mp returned

/-- Delivery ends without a panic exactly for these devices. -/
theorem InputDevice.flushEventsLocked_returns_iff (d : InputDevice) :
    (∃ fuel result, d.flushEventsLocked fuel = some (.ok result)) ↔ d.Deliverable := by
  constructor
  · rintro ⟨fuel, result, flushed⟩ q ev rest ready available waiting
    obtain ⟨outcome, ended, returned⟩ := writeEvent_of_flush ready available waiting flushed
    exact chainSafe_of_writeEvent ended (returned (Transport.returns_ok result))
  · intro deliverable
    unfold flushEventsLocked
    cases ready : d.eventQueue with
    | none => exact ⟨0, _, rfl⟩
    | some q =>
      by_cases available : d.lastAvailIdx.toNat = q.availIdx d.mem
      · simp only [if_pos available]
        exact ⟨0, _, rfl⟩
      cases waiting : d.pending with
      | nil =>
        simp only [if_neg available]
        exact ⟨0, _, rfl⟩
      | cons ev rest =>
        have safe := deliverable q ev rest ready available waiting
        obtain ⟨result, ended, value, returned⟩ := writeEvent_of_chainSafe safe
        simp only [if_neg available]
        rw [returned] at ended
        exact ⟨_, _, by rw [ended]; rfl⟩

/-- A queue whose areas lie at the start of memory. -/
def lowQueue : SplitQueue := { desc := 0, avail := 512, used := 1024, size := 32 }

def keyPress : InputEvent := { typ := 1, code := 30, value := 1 }

/-- One event waits and one chain is available, from the given descriptor on; descriptor 0 takes
    nothing and links to itself. -/
def hostileDevice (head : UInt16) : InputDevice where
  mem := (Store.blank 4096).writes
    [(0, leBytes 8 0 ++ leBytes 4 0 ++ leBytes 2 descFNext ++ leBytes 2 0),
      (512, leBytes 2 0 ++ leBytes 2 1 ++ leBytes 2 head.toNat)]
  eventQueue := some lowQueue
  lastAvailIdx := 0
  pending := [keyPress]

/-- A head outside the table ends in a panic, and a barren cycle never ends. -/
theorem hostileDevice_breaks_delivery :
    (hostileDevice 32).flushEventsLocked 1 = some (.error .outOfRange) ∧
      ¬ ∃ fuel result, (hostileDevice 0).flushEventsLocked fuel = some result := by
  refine ⟨rfl, ?_⟩
  rintro ⟨fuel, result, flushed⟩
  have ready : (hostileDevice 0).eventQueue = some lowQueue := rfl
  have available : (hostileDevice 0).lastAvailIdx.toNat ≠ lowQueue.availIdx (hostileDevice 0).mem := by
    decide
  obtain ⟨outcome, ended, _⟩ := InputDevice.writeEvent_of_flush ready available rfl flushed
  have goes : Goes (writeEventBody lowQueue keyPress.raw)
      { mem := (hostileDevice 0).mem, descID := 0, written := 0 }
      { mem := (hostileDevice 0).mem, descID := 0, written := 0 } := rfl
  have stuck : writeEvent fuel lowQueue (hostileDevice 0).mem ((hostileDevice 0).head lowQueue) keyPress
      = none := loop_cycle (.single goes) fuel
  rw [stuck] at ended
  cases ended

end Gokvm.Virtio
