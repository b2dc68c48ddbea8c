import Gokvm.Rdp.Input

/-! # What the guest sees of the input

The guest keeps the keys and buttons that the events left down. A packet is read here apart from
the decoder, as a list of inputs; decoding it is reading it and applying its inputs in order.
Every input keeps the decoder's record equal to the guest's, and the books of the wheel: emitted
clicks and remaining rotation add up to the rotation received.
-/

namespace Gokvm.Rdp

open Lib List Int InputDecoder

/-! ## The guest -/

structure Pressed where
  keys : Finset UInt32
  buttons : UInt8
deriving DecidableEq

namespace Pressed

def nothing : Pressed := { keys := ∅, buttons := 0 }

def press (p : Pressed) (event : InputEvent) : Pressed :=
  match event.kind with
  | .key =>
    { p with keys := if event.down then insert event.key p.keys else p.keys.erase event.key }
  | .pointer => { p with buttons := event.buttons }

end Pressed

def replay (events : List InputEvent) : Pressed := events.foldl Pressed.press .nothing

theorem replay_append (before events : List InputEvent) :
    replay (before ++ events) = events.foldl Pressed.press (replay before) :=
  foldl_append

def wheelUp (event : InputEvent) : Bool := event.kind = .pointer ∧ event.buttons &&& 8 ≠ 0

def wheelDown (event : InputEvent) : Bool := event.kind = .pointer ∧ event.buttons &&& 16 ≠ 0

/-- Wheel-up events less wheel-down events. -/
def clicks (events : List InputEvent) : Int := (events.countP wheelUp : Int) - events.countP wheelDown

theorem clicks_append (before events : List InputEvent) :
    clicks (before ++ events) = clicks before + clicks events := by
  simp only [clicks, countP_append, Nat.cast_add]
  omega

/-! ## What a packet says -/

inductive Input where
  | scan (down extended extended1 : Bool) (code : UInt16)
  | unicode (down : Bool) (code : UInt16)
  | pointer (flags x y : UInt16)
  | skipped
deriving DecidableEq

/-- The rotation of a vertical wheel event: the low nine bits of its flags, signed. -/
def Input.wheelDelta : Input → Int
  | .pointer flags _ _ =>
    if flags &&& 0x0400 = 0 ∧ flags &&& 0x0200 ≠ 0 then (BitVec.ofNat 9 flags.toNat).toInt else 0
  | _ => 0

def fastInput (code flags : UInt8) (data : Bytes) : Except InputFault Input :=
  match code with
  | 0 => .ok (.scan (flags &&& 1 = 0) (flags &&& 2 ≠ 0) (flags &&& 4 ≠ 0) (data.getD 0 0).toUInt16)
  | 1 => .ok (.pointer (word data 0) (word data 2) (word data 4))
  | 4 => .ok (.unicode (flags &&& 1 = 0) (word data 0))
  | 5 => .error .relativePointer
  | _ => .ok .skipped

def fastInputs : Nat → Bytes → Except InputFault (List Input)
  | 0, data => if data ≠ [] then .error .trailingFastData else .ok []
  | _ + 1, [] => .error .missingFastEvent
  | count + 1, header :: data =>
    match fastLengths[(header >>> 5).toNat]? with
    | none => .error (.unknownFastEvent (header >>> 5))
    | some size =>
      if data.length < size then .error (.truncatedFastEvent (header >>> 5))
      else match fastInput (header >>> 5) (header &&& 31) data with
        | .error fault => .error fault
        | .ok input => (fastInputs count (data.drop size)).map (input :: ·)

def slowInput (data : Bytes) : Except InputFault Input :=
  match word data 4 with
  | 0 => .ok .skipped
  | 2 => .ok .skipped
  | 0x8002 => .ok .skipped
  | 4 => .ok (.scan (word data 6 &&& 0x8000 = 0) (word data 6 &&& 0x0100 ≠ 0)
      (word data 6 &&& 0x0200 ≠ 0) (word data 8))
  | 5 => .ok (.unicode (word data 6 &&& 0x8000 = 0) (word data 8))
  | 0x8001 => .ok (.pointer (word data 6) (word data 8) (word data 10))
  | kind => .error (.unknownSlowEvent kind)

def slowInputs : Nat → Bytes → Except InputFault (List Input)
  | 0, _ => .ok []
  | count + 1, data =>
    match slowInput data with
    | .error fault => .error fault
    | .ok input => (slowInputs count (data.drop 12)).map (input :: ·)

structure InputPacket where
  data : Bytes
  fast : Bool

open InputPacket

namespace InputPacket

def read (p : InputPacket) : Except InputFault (List Input) :=
  if p.fast then
    match p.data with
    | [] => .error .fastHeader
    | header :: data =>
      if header &&& 0xc3 ≠ 0 then .error .fastHeader
      else if (header >>> 2) &&& 15 ≠ 0 then fastInputs ((header >>> 2) &&& 15).toNat data
      else match data with
        | [] => .error .fastCount
        | count :: data => fastInputs count.toNat data
  else if p.data.length < 22 ∨ (word p.data 0).toNat ≠ p.data.length ∨ word p.data 2 &&& 15 ≠ 7 ∨
      p.data.getD 14 0 ≠ 28 ∨ p.data.getD 15 0 ≠ 0 then
    .error .slowPDU
  else if (word p.data 18).toNat ≠ (p.data.drop 22).length / 12 ∨ (p.data.drop 22).length % 12 ≠ 0 then
    .error .slowCount
  else slowInputs (word p.data 18).toNat (p.data.drop 22)

/-- The inputs of a packet that is accepted; a rejected one has none. -/
def inputs (p : InputPacket) : List Input :=
  match p.read with
  | .error _ => []
  | .ok inputs => inputs

def rotation (p : InputPacket) : Int := (p.inputs.map Input.wheelDelta).sum

end InputPacket

namespace InputDecoder

def apply (d : InputDecoder) : Input → InputDecoder × List InputEvent
  | .scan down extended extended1 code => d.scan down extended extended1 code
  | .unicode down code => d.unicode down code
  | .pointer flags x y => d.pointer flags x y
  | .skipped => (d, [])

def applyAll (d : InputDecoder) (events : List InputEvent) (inputs : List Input) :
    InputDecoder × List InputEvent :=
  inputs.foldl (fun (d, events) input => ((d.apply input).1, events ++ (d.apply input).2)) (d, events)

theorem fastEvent_eq (d : InputDecoder) (code flags : UInt8) (data : Bytes) :
    d.fastEvent code flags data = (fastInput code flags data).map d.apply := by
  unfold fastEvent fastInput
  split <;> simp_all [apply, Except.map]

theorem slowEvent_eq (d : InputDecoder) (data : Bytes) :
    d.slowEvent data = (slowInput data).map d.apply := by
  unfold slowEvent slowInput
  split <;> simp_all [apply, Except.map]

theorem fastEvents_eq (count : Nat) (d : InputDecoder) (events : List InputEvent) (data : Bytes) :
    fastEvents count d events data = (fastInputs count data).map (d.applyAll events) := by
  induction count generalizing d events data with
  | zero =>
    unfold fastEvents fastInputs
    split <;> rfl
  | succ count ih =>
    cases data with
    | nil => rfl
    | cons header data =>
      simp only [fastEvents, fastInputs, fastEvent_eq]
      cases fastLengths[(header >>> 5).toNat]? with
      | none => rfl
      | some size =>
        simp only
        split
        · rfl
        · cases fastInput (header >>> 5) (header &&& 31) data with
          | error fault => rfl
          | ok input =>
            simp only [Except.map, ih]
            cases fastInputs count (data.drop size) <;> rfl

theorem slowEvents_eq (count : Nat) (d : InputDecoder) (events : List InputEvent) (data : Bytes) :
    slowEvents count d events data = (slowInputs count data).map (d.applyAll events) := by
  induction count generalizing d events data with
  | zero => rfl
  | succ count ih =>
    simp only [slowEvents, slowInputs, slowEvent_eq]
    cases slowInput data with
    | error fault => rfl
    | ok input =>
      simp only [Except.map, ih]
      cases slowInputs count (data.drop 12) <;> rfl

theorem fastPath_eq (d : InputDecoder) (data : Bytes) :
    d.fastPath data = (InputPacket.read ⟨data, true⟩).map (d.applyAll []) := by
  unfold fastPath InputPacket.read
  simp only [if_true]
  cases data with
  | nil => rfl
  | cons header data =>
    simp only
    split
    · rfl
    · split
      · exact fastEvents_eq _ d [] data
      · cases data with
        | nil => rfl
        | cons count data => exact fastEvents_eq _ d [] data

theorem slowPath_eq (d : InputDecoder) (data : Bytes) :
    d.slowPath data = (InputPacket.read ⟨data, false⟩).map (d.applyAll []) := by
  unfold slowPath InputPacket.read
  simp only [Bool.false_eq_true, if_false]
  split
  · rfl
  · split
    · rfl
    · exact slowEvents_eq _ d [] _

theorem decode_eq (d : InputDecoder) (p : InputPacket) :
    d.decode p.data p.fast =
      match p.read with
      | .error fault => { events := [], error := some fault, decoder := d }
      | .ok inputs =>
        { events := (d.applyAll [] inputs).2, error := none, decoder := (d.applyAll [] inputs).1 } := by
  have read : (if p.fast then d.fastPath p.data else d.slowPath p.data) =
      p.read.map (d.applyAll []) := by
    obtain ⟨data, fast⟩ := p
    cases fast with
    | false => exact slowPath_eq d data
    | true => exact fastPath_eq d data
  unfold decode
  rw [read]
  cases p.read <;> rfl

/-- What the decoder records as down. -/
def pressed (d : InputDecoder) : Pressed := { keys := d.held, buttons := d.buttons }

/-! ## The books of one input -/

/-- The record agrees with the emitted events, and their clicks are the received rotation up to what
    the wheel holds. -/
structure Balanced (d : InputDecoder) (events : List InputEvent) (received : Int) : Prop where
  replayed : replay events = d.pressed
  up : d.buttons &&& 8 = 0
  down : d.buttons &&& 16 = 0
  balance : 120 * clicks events + d.wheel = received

/-- Between inputs the wheel holds less than a click. -/
structure Tracks (d : InputDecoder) (events : List InputEvent) (received : Int) : Prop
    extends Balanced d events received where
  small : d.wheel.natAbs < 120

namespace Tracks

variable {d : InputDecoder} {events : List InputEvent} {received : Int}

theorem initial : Tracks .initial [] 0 where
  replayed := rfl
  up := rfl
  down := rfl
  balance := rfl
  small := by decide

variable (tracks : Tracks d events received)
include tracks

theorem key (down : Bool) (key : UInt32) :
    Tracks (d.key down key).1 (events ++ (d.key down key).2) received := by
  unfold InputDecoder.key
  split
  · rw [append_nil]
    exact tracks
  · refine { tracks with replayed := ?_, balance := ?_ }
    · rw [replay_append, tracks.replayed]
      rfl
    · rw [clicks_append]
      exact (congrArg (fun n => 120 * n + d.wheel) (add_zero _)).trans tracks.balance

theorem scan (down extended extended1 : Bool) (code : UInt16) :
    Tracks (d.scan down extended extended1 code).1
      (events ++ (d.scan down extended extended1 code).2) received := by
  unfold InputDecoder.scan
  split
  · split
    · rw [append_nil]
      exact { tracks with }
    · rw [append_nil]
      exact tracks
  · split
    · refine Tracks.key ?_ down 0xff13
      split
      · exact tracks
      · exact { tracks with }
    · split
      · exact tracks.key down _
      · exact tracks.key down _

theorem setHigh (down : Bool) (code : UInt16) :
    Tracks (d.setHigh down code) events received :=
  { tracks with }

theorem unicode (down : Bool) (code : UInt16) :
    Tracks (d.unicode down code).1 (events ++ (d.unicode down code).2) received := by
  unfold InputDecoder.unicode
  split
  · rw [append_nil]
    exact tracks.setHigh down code
  · split
    · split
      · rw [append_nil]
        exact tracks
      · exact (tracks.setHigh down 0).key down _
    · exact (tracks.setHigh down 0).key down _

end Tracks

/-! ## Buttons and the wheel -/

theorem or_and (a b mask : UInt8) : (a ||| b) &&& mask = (a &&& mask) ||| (b &&& mask) := by
  apply UInt8.eq_of_toBitVec_eq
  simp only [UInt8.toBitVec_and, UInt8.toBitVec_or, BitVec.and_or_distrib_right]

theorem pressButtons_and {mask : UInt8} (disjoint : buttonFlags.all (·.2 &&& mask == 0) = true)
    (flags : UInt16) {buttons : UInt8} (clear : buttons &&& mask = 0) :
    pressButtons flags buttons &&& mask = 0 := by
  have apart : ∀ button ∈ buttonFlags, button.2 &&& mask = 0 :=
    fun button mem => eq_of_beq (all_eq_true.mp disjoint button mem)
  clear disjoint
  unfold pressButtons
  generalize buttonFlags = known at apart
  induction known generalizing buttons with
  | nil => exact clear
  | cons button known ih =>
    have first := apart button mem_cons_self
    rw [foldl_cons]
    refine ih ?_ (fun other mem => apart other (mem_cons_of_mem _ mem))
    split
    · split
      · rw [or_and, clear, first]
        rfl
      · rw [UInt8.and_comm buttons, UInt8.and_assoc, clear, UInt8.and_zero]
    · exact clear

def click (d : InputDecoder) (button : UInt8) : List InputEvent :=
  [pointerEvent d.x d.y (d.buttons ||| button), pointerEvent d.x d.y d.buttons]

theorem clicks_up (d : InputDecoder) (up : d.buttons &&& 8 = 0) (down : d.buttons &&& 16 = 0) :
    clicks (d.click 8) = 1 := by
  have apart : (8 &&& 16 : UInt8) = 0 := rfl
  simp [clicks, click, wheelUp, wheelDown, pointerEvent, or_and, up, down, apart]

theorem clicks_down (d : InputDecoder) (up : d.buttons &&& 8 = 0) (down : d.buttons &&& 16 = 0) :
    clicks (d.click 16) = -1 := by
  have apart : (16 &&& 8 : UInt8) = 0 := rfl
  simp [clicks, click, wheelUp, wheelDown, pointerEvent, or_and, up, down, apart]

theorem clicks_pointer {x y : UInt16} {buttons : UInt8} (up : buttons &&& 8 = 0)
    (down : buttons &&& 16 = 0) : clicks [pointerEvent x y buttons] = 0 := by
  simp [clicks, wheelUp, wheelDown, pointerEvent, up, down]

namespace Balanced

variable {d : InputDecoder} {events : List InputEvent} {received : Int}

theorem click (balanced : Balanced d events received) {button : UInt8} {wheel : Int}
    (share : 120 * clicks (d.click button) + wheel = d.wheel) :
    Balanced { d with wheel := wheel } (events ++ d.click button) received where
  replayed := by
    rw [replay_append, balanced.replayed]
    rfl
  up := balanced.up
  down := balanced.down
  balance := by
    rw [clicks_append, ← balanced.balance, ← share]
    ring

theorem turnWheel (fuel : Nat) (balanced : Balanced d events received)
    (enough : d.wheel.natAbs < 120 * (fuel + 1)) :
    Tracks (turnWheel fuel d).1 (events ++ (turnWheel fuel d).2) received := by
  induction fuel generalizing d events with
  | zero =>
    rw [turnWheel, append_nil]
    exact { balanced with small := by simpa using enough }
  | succ fuel ih =>
    rw [turnWheel]
    split
    · have turned : Balanced
          { d with wheel := if d.wheel < 0 then d.wheel + 120 else d.wheel - 120 }
          (events ++ d.click (if d.wheel < 0 then 16 else 8)) received := by
        apply balanced.click
        split
        · rw [clicks_down d balanced.up balanced.down]
          omega
        · rw [clicks_up d balanced.up balanced.down]
          omega
      have rest := ih turned (by simp only; omega)
      rw [append_assoc] at rest
      exact rest
    · rw [append_nil]
      exact { balanced with small := by simp only; omega }

end Balanced

theorem signed_nine_bits (flags : UInt16) :
    (if (flags &&& 0x01ff).toNat &&& 0x0100 ≠ 0 then ((flags &&& 0x01ff).toNat : Int) - 0x0200
      else (flags &&& 0x01ff).toNat) = (BitVec.ofNat 9 flags.toNat).toInt := by
  have low : (flags &&& 0x01ff).toNat = (BitVec.ofNat 9 flags.toNat).toNat := by
    rw [UInt16.toNat_and, BitVec.toNat_ofNat]
    exact Nat.and_two_pow_sub_one_eq_mod flags.toNat 9
  have all : ∀ v : BitVec 9,
      (if v.toNat &&& 0x0100 ≠ 0 then (v.toNat : Int) - 0x0200 else v.toNat) = v.toInt := by
    decide
  rw [low]
  exact all _

namespace Tracks

variable {d : InputDecoder} {events : List InputEvent} {received : Int}

theorem pointer (tracks : Tracks d events received) (flags x y : UInt16) :
    Tracks (d.pointer flags x y).1 (events ++ (d.pointer flags x y).2)
      (received + (Input.pointer flags x y).wheelDelta) := by
  unfold InputDecoder.pointer
  by_cases sideways : flags &&& 0x0400 = 0
  · rw [if_neg (not_not.mpr sideways)]
    by_cases vertical : flags &&& 0x0200 = 0
    · have still : (Input.pointer flags x y).wheelDelta = 0 := if_neg fun h => h.2 vertical
      rw [if_neg (not_not.mpr vertical), still, add_zero]
      have up := pressButtons_and (by decide) flags tracks.up
      have down := pressButtons_and (by decide) flags tracks.down
      refine { replayed := ?_, up, down, balance := ?_, small := tracks.small }
      · rw [replay_append, tracks.replayed]
        rfl
      · rw [clicks_append, clicks_pointer up down, add_zero]
        exact tracks.balance
    · have rotation : (Input.pointer flags x y).wheelDelta = (BitVec.ofNat 9 flags.toNat).toInt :=
        if_pos ⟨sideways, vertical⟩
      rw [if_pos vertical, rotation]
      simp only [signed_nine_bits]
      refine Balanced.turnWheel _ ?_ (by simp only; omega)
      refine { tracks.toBalanced with replayed := tracks.replayed, balance := ?_ }
      rw [← tracks.balance]
      ring
  · have still : (Input.pointer flags x y).wheelDelta = 0 := if_neg fun h => sideways h.1
    rw [if_pos sideways, still, add_zero, append_nil]
    exact tracks

theorem apply (tracks : Tracks d events received) (input : Input) :
    Tracks (d.apply input).1 (events ++ (d.apply input).2) (received + input.wheelDelta) := by
  cases input with
  | scan down extended extended1 code =>
    have books := tracks.scan down extended extended1 code
    rw [← add_zero received] at books
    exact books
  | unicode down code =>
    have books := tracks.unicode down code
    rw [← add_zero received] at books
    exact books
  | pointer flags x y => exact tracks.pointer flags x y
  | skipped =>
    rw [← add_zero received, ← append_nil events] at tracks
    exact tracks

theorem applyAll (tracks : Tracks d events received) (inputs : List Input) :
    Tracks (d.applyAll events inputs).1 (d.applyAll events inputs).2
      (received + (inputs.map Input.wheelDelta).sum) := by
  induction inputs generalizing d events received with
  | nil =>
    rw [map_nil, sum_nil, add_zero]
    exact tracks
  | cons input inputs ih =>
    rw [map_cons, sum_cons, ← add_assoc]
    exact ih (tracks.apply input)

end Tracks

theorem applyAll_append (d : InputDecoder) (before events : List InputEvent) (inputs : List Input) :
    d.applyAll (before ++ events) inputs =
      ((d.applyAll events inputs).1, before ++ (d.applyAll events inputs).2) := by
  induction inputs generalizing d events with
  | nil => rfl
  | cons input inputs ih =>
    have next := ih (d.apply input).1 (events ++ (d.apply input).2)
    rw [← append_assoc] at next
    exact next

/-! ## Disconnecting -/

theorem press_releases (keys : List UInt32) (p : Pressed) :
    (keys.map (keyEvent false)).foldl Pressed.press p = { p with keys := p.keys \ keys.toFinset } := by
  induction keys generalizing p with
  | nil => simp
  | cons key keys ih =>
    rw [map_cons, foldl_cons, ih]
    simp only [Pressed.press, keyEvent, Bool.false_eq_true, if_false, toFinset_cons]
    rw [Finset.sdiff_insert, Finset.erase_sdiff_comm]

theorem replay_releaseAll {d : InputDecoder} {events : List InputEvent}
    (replayed : replay events = d.pressed) : replay (events ++ d.releaseAll.2) = .nothing := by
  rw [replay_append, replayed, releaseAll, foldl_append, press_releases, Finset.sort_toFinset,
    pressed, Finset.sdiff_self]
  split
  · rfl
  next up =>
    rw [not_not] at up
    rw [up]
    rfl

end InputDecoder

/-! ## Connections -/

/-- A connection's decoder and all the events it emitted. -/
structure InputHistory where
  decoder : InputDecoder
  emitted : List InputEvent

namespace InputHistory

def start : InputHistory := { decoder := .initial, emitted := [] }

def receive (h : InputHistory) (p : InputPacket) : InputHistory :=
  let outcome := h.decoder.decode p.data p.fast
  { decoder := outcome.decoder, emitted := h.emitted ++ outcome.events }

def after (packets : List InputPacket) : InputHistory := packets.foldl receive start

/-- The books after a whole packet, whether it was accepted or not. -/
theorem tracks_receive {h : InputHistory} {received : Int}
    (tracks : h.decoder.Tracks h.emitted received) (p : InputPacket) :
    (h.receive p).decoder.Tracks (h.receive p).emitted (received + p.rotation) := by
  unfold receive InputPacket.rotation InputPacket.inputs
  rw [decode_eq]
  cases p.read with
  | error fault =>
    simp only [map_nil, sum_nil, add_zero, append_nil]
    exact tracks
  | ok inputs =>
    have applied := applyAll_append h.decoder h.emitted [] inputs
    rw [append_nil] at applied
    have books := tracks.applyAll inputs
    rw [applied] at books
    exact books

theorem tracks_after (packets : List InputPacket) :
    (after packets).decoder.Tracks (after packets).emitted
      (packets.map InputPacket.rotation).sum := by
  induction packets using reverseRecOn with
  | nil => exact .initial
  | append_singleton packets p ih =>
    have last : after (packets ++ [p]) = (after packets).receive p := by
      rw [after, foldl_append]
      rfl
    rw [last, map_append, sum_append, map_singleton, sum_singleton]
    exact tracks_receive ih p

end InputHistory

/-- After any packets, valid or not, the decoder's record of what is held down is what the emitted
    events leave down; releasing everything leaves nothing down; a rejected packet emits and changes
    nothing; the emitted wheel clicks, with a remainder of less than one, are the rotation received.
    -/
theorem input_events_match_state (packets : List InputPacket) :
    let history := InputHistory.after packets
    replay history.emitted =
        { keys := history.decoder.held, buttons := history.decoder.buttons } ∧
      replay (history.emitted ++ history.decoder.releaseAll.2) = { keys := ∅, buttons := 0 } ∧
      (∀ data fast fault, (history.decoder.decode data fast).error = some fault →
        (history.decoder.decode data fast).events = [] ∧
          (history.decoder.decode data fast).decoder = history.decoder) ∧
      120 * ((history.emitted.countP wheelUp : Int) - history.emitted.countP wheelDown) +
          history.decoder.wheel = (packets.map InputPacket.rotation).sum ∧
      |history.decoder.wheel| < 120 := by
  have tracks := InputHistory.tracks_after packets
  refine ⟨tracks.replayed, replay_releaseAll tracks.replayed, ?_, tracks.balance, ?_⟩
  · intro data fast fault rejected
    have split := decode_eq (InputHistory.after packets).decoder ⟨data, fast⟩
    simp only at split
    rw [split] at rejected ⊢
    cases read : InputPacket.read ⟨data, fast⟩ with
    | error fault => exact ⟨rfl, rfl⟩
    | ok inputs =>
      rw [read] at rejected
      cases rejected
  · have small := tracks.small
    rw [abs_eq_natAbs]
    omega

end Gokvm.Rdp
