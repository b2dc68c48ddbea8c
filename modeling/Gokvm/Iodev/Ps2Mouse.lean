import Gokvm.Lib.Per

/-! # The PS/2 mouse

The positions of a client become movements in packets of three or four bytes, which the guest
decodes by the mouse id it selected. The keyboard, the command ports and the interrupts of the
controller are left out.
-/

namespace Gokvm.Iodev

open Lib List

inductive MouseID where
  | standard
  | wheel
  | explorer
  deriving DecidableEq

structure PS2Pending where
  data : UInt8
  aux : Bool

structure PS2Controller where
  queue : List PS2Pending
  mouseEnabled : Bool
  mouseReporting : Bool
  mouseID : MouseID
  mouseButtons : UInt8
  mouseX : UInt16
  mouseY : UInt16
  mouseInit : Bool

def ps2Buttons (mask : UInt8) : UInt8 :=
  (if mask &&& 0x01 ≠ 0 then 0x01 else 0) ||| (if mask &&& 0x04 ≠ 0 then 0x02 else 0) |||
    (if mask &&& 0x02 ≠ 0 then 0x04 else 0)

def ps2WheelDelta (mask : UInt8) : Int :=
  if mask &&& 0x08 ≠ 0 then 1 else if mask &&& 0x10 ≠ 0 then -1 else 0

def clampMouse (low high v : Int) : Int := if v > high then high else if v < low then low else v

def clampMouseDelta : Int → Int := clampMouse (-127) 127

def clampMouseWheel : Int → Int := clampMouse (-8) 7

/-- A part of `v` within the limits, and none only of zero. -/
def Cut (low high v part : Int) : Prop :=
  low ≤ part ∧ part ≤ high ∧ (v - part).natAbs + part.natAbs = v.natAbs ∧ (part ≠ 0 ∨ v = 0)

theorem clampMouse_cut {low high : Int} (neg : low < 0) (pos : 0 < high) (v : Int) :
    Cut low high v (clampMouse low high v) := by
  unfold Cut clampMouse
  split_ifs <;> omega

theorem clampMouseDelta_cut (v : Int) : Cut (-127) 127 v (clampMouseDelta v) :=
  clampMouse_cut (by decide) (by decide) v

theorem clampMouseWheel_cut (v : Int) : Cut (-8) 7 v (clampMouseWheel v) :=
  clampMouse_cut (by decide) (by decide) v

def mouseFlags (buttons : UInt8) (left down : Bool) : UInt8 :=
  0x08 ||| buttons &&& 0x07 ||| (if left then 0x10 else 0) ||| (if down then 0x20 else 0)

def ps2MousePacket (buttons : UInt8) (dx dy : Int) (mouseID : MouseID) (wheel : Int) : Bytes :=
  [mouseFlags buttons (dx < 0) (dy < 0), UInt8.ofInt dx, UInt8.ofInt dy] ++
    if mouseID = .standard then [] else [UInt8.ofInt wheel]

structure PointerEvent where
  buttonMask : UInt8
  x : UInt16
  y : UInt16

namespace PS2Controller

def enqueue (p : PS2Controller) (data : Bytes) (aux : Bool) : PS2Controller :=
  { p with queue := p.queue ++ data.map (⟨·, aux⟩) }

def enqueueMouseMotion (p : PS2Controller) (buttons oldButtons : UInt8) (dx dy : Int)
    (mouseID : MouseID) (wheel : Int) : PS2Controller :=
  if dx ≠ 0 ∨ dy ≠ 0 ∨ wheel ≠ 0 ∨ buttons ≠ oldButtons then
    let chunkX := clampMouseDelta dx
    let chunkY := clampMouseDelta dy
    let chunkWheel := clampMouseWheel wheel
    enqueueMouseMotion (p.enqueue (ps2MousePacket buttons chunkX chunkY mouseID chunkWheel) true)
      buttons buttons (dx - chunkX) (dy - chunkY) mouseID (wheel - chunkWheel)
  else p
termination_by
  dx.natAbs + dy.natAbs + wheel.natAbs + if buttons = oldButtons then 0 else 1
decreasing_by
  rename_i more
  obtain ⟨_, _, byX⟩ := clampMouseDelta_cut dx
  obtain ⟨_, _, byY⟩ := clampMouseDelta_cut dy
  obtain ⟨_, _, byWheel⟩ := clampMouseWheel_cut wheel
  rw [if_pos trivial]
  split
  next same => simp only [same, ne_eq, not_true, or_false] at more; omega
  next => omega

/-- `dx` and `dy` of `PointerEvent`. -/
def displacement (p : PS2Controller) (e : PointerEvent) : Int × Int :=
  if p.mouseInit then (e.x.toNat - p.mouseX.toNat, p.mouseY.toNat - e.y.toNat) else (0, 0)

def pointerEvent (p : PS2Controller) (e : PointerEvent) : PS2Controller :=
  let moved := { p with mouseX := e.x, mouseY := e.y, mouseInit := true }
  if ¬ p.mouseEnabled ∨ ¬ p.mouseReporting then moved
  else
    let (dx, dy) := p.displacement e
    let buttons := ps2Buttons e.buttonMask
    { moved with mouseButtons := buttons }.enqueueMouseMotion buttons p.mouseButtons dx dy
      p.mouseID (ps2WheelDelta e.buttonMask)

def pointerEvents (p : PS2Controller) (events : List PointerEvent) : PS2Controller :=
  events.foldl pointerEvent p

end PS2Controller

/-! ## The guest -/

structure Buttons where
  left : Bool
  right : Bool
  middle : Bool
  deriving DecidableEq

/-- The buttons in the first byte of a packet. -/
def Buttons.ofFlags (flags : UInt8) : Buttons :=
  ⟨flags &&& 0x01 ≠ 0, flags &&& 0x02 ≠ 0, flags &&& 0x04 ≠ 0⟩

/-- The buttons of the client, whose mask has the middle one before the right one. -/
def PointerEvent.pressed (e : PointerEvent) : Buttons :=
  ⟨e.buttonMask &&& 0x01 ≠ 0, e.buttonMask &&& 0x04 ≠ 0, e.buttonMask &&& 0x02 ≠ 0⟩

/-- What a guest knows: the sums of movements and wheel steps, the buttons, and whether the fourth
    or fifth one was ever down. -/
structure Guest where
  x : Int
  y : Int
  wheel : Int
  buttons : Buttons
  side : Bool

/-- `bits` of a two's complement number. -/
def signed (bits n : Nat) : Int := if n < 2 ^ (bits - 1) then n else n - 2 ^ bits

def wheelOf : MouseID → UInt8 → Int
  | .standard, _ => 0
  | .wheel, z => signed 8 z.toNat
  | .explorer, z => signed 4 (z &&& 0x0f).toNat

def Guest.packet (id : MouseID) (flags x y z : UInt8) (g : Guest) : Guest where
  x := g.x + x.toNat - if flags &&& 0x10 ≠ 0 then 256 else 0
  y := g.y + y.toNat - if flags &&& 0x20 ≠ 0 then 256 else 0
  wheel := g.wheel + wheelOf id z
  buttons := .ofFlags flags
  side := g.side || id = .explorer && z &&& 0x30 ≠ 0

def Guest.decode (id : MouseID) : Bytes → Guest → Guest
  | flags :: x :: y :: rest, g =>
    match id, rest with
    | .standard, rest => decode .standard rest (g.packet .standard flags x y 0)
    | id, z :: rest => decode id rest (g.packet id flags x y z)
    | _, [] => g
  | _, g => g

/-! ## One packet -/

theorem flags_decode : ∀ b : UInt8, ∀ left down : Bool,
    Buttons.ofFlags (mouseFlags b left down) = .ofFlags b ∧
      (mouseFlags b left down &&& 0x10 ≠ 0 ↔ left) ∧ (mouseFlags b left down &&& 0x20 ≠ 0 ↔ down) :=
  forall_byte (by decide +kernel)

theorem toNat_ofInt (v : Int) : ((UInt8.ofInt v).toNat : Int) = v % 256 := by
  rw [UInt8.ofInt, UInt8.toNat_ofNat']
  omega

/-- The wheel byte; for the third id its bits 4 and 5 are buttons. -/
theorem wheel_decode : ∀ n : Fin 16,
    wheelOf .wheel (UInt8.ofInt (n - 8)) = n - 8 ∧ wheelOf .explorer (UInt8.ofInt (n - 8)) = n - 8 ∧
      (UInt8.ofInt (n - 8) &&& 0x30 ≠ 0 ↔ (n : Int) - 8 < 0) := by
  decide +kernel

variable (id : MouseID) (buttons : UInt8) (dx dy wheel : Int) (g : Guest)

def Guest.moved : Guest where
  x := g.x + dx
  y := g.y + dy
  wheel := g.wheel + if id = .standard then 0 else wheel
  buttons := .ofFlags buttons
  side := g.side || id = .explorer && wheel < 0

variable {id dx dy wheel} in
theorem Guest.packet_moved {z : UInt8} (boundX : -127 ≤ dx ∧ dx ≤ 127) (boundY : -127 ≤ dy ∧ dy ≤ 127)
    (steps : wheelOf id z = if id = .standard then 0 else wheel)
    (side : id = .explorer → (z &&& 0x30 ≠ 0 ↔ wheel < 0)) :
    g.packet id (mouseFlags buttons (dx < 0) (dy < 0)) (UInt8.ofInt dx) (UInt8.ofInt dy) z =
      g.moved id buttons dx dy wheel := by
  obtain ⟨pressed, left, down⟩ := flags_decode buttons (dx < 0) (dy < 0)
  have byteX := toNat_ofInt dx
  have byteY := toNat_ofInt dy
  simp only [packet, moved, pressed, left, down, steps, decide_eq_true_eq,
    Guest.mk.injEq, true_and]
  refine ⟨by split <;> omega, by split <;> omega, ?_⟩
  by_cases last : id = .explorer
  · simp only [last, side last]
  · simp [last]

theorem decode_packet (rest : Bytes) :
    g.decode id (ps2MousePacket buttons (clampMouseDelta dx) (clampMouseDelta dy) id
      (clampMouseWheel wheel) ++ rest) =
    (g.moved id buttons (clampMouseDelta dx) (clampMouseDelta dy)
      (clampMouseWheel wheel)).decode id rest := by
  obtain ⟨lowX, highX, _⟩ := clampMouseDelta_cut dx
  obtain ⟨lowY, highY, _⟩ := clampMouseDelta_cut dy
  obtain ⟨lowZ, highZ, _⟩ := clampMouseWheel_cut wheel
  obtain ⟨n, step⟩ : ∃ n : Fin 16, clampMouseWheel wheel = n - 8 :=
    ⟨⟨(clampMouseWheel wheel + 8).toNat, by omega⟩, by simp only; omega⟩
  obtain ⟨byte, nibble, side⟩ := wheel_decode n
  have moved {z : UInt8} (steps : wheelOf id z = if id = .standard then 0 else (n : Int) - 8) :=
    g.packet_moved buttons ⟨lowX, highX⟩ ⟨lowY, highY⟩ steps
  rw [step]
  cases id with
  | standard =>
    rw [← moved rfl nofun]
    rfl
  | wheel =>
    rw [← moved byte nofun]
    rfl
  | explorer =>
    rw [← moved nibble fun _ => side]
    rfl

/-! ## The loop and the events -/

theorem Guest.moved_rest :
    (g.moved id buttons (clampMouseDelta dx) (clampMouseDelta dy) (clampMouseWheel wheel)).moved id
      buttons (dx - clampMouseDelta dx) (dy - clampMouseDelta dy) (wheel - clampMouseWheel wheel) =
    g.moved id buttons dx dy wheel := by
  have down : clampMouseWheel wheel < 0 ∨ wheel - clampMouseWheel wheel < 0 ↔ wheel < 0 := by
    obtain ⟨_, _, cut⟩ := clampMouseWheel_cut wheel
    omega
  simp only [moved, Guest.mk.injEq, true_and]
  refine ⟨by omega, by omega, by split <;> omega, ?_⟩
  rw [Bool.or_assoc, ← Bool.and_or_distrib_left, ← Bool.decide_or]
  simp only [down]

/-- The bytes that were queued, before any `rest`, move the guest. -/
theorem motion_decoded (p : PS2Controller) (old : UInt8) (held : g.buttons = .ofFlags old) :
    ∃ bytes : Bytes, p.enqueueMouseMotion buttons old dx dy id wheel = p.enqueue bytes true ∧
      ∀ rest, g.decode id (bytes ++ rest) = (g.moved id buttons dx dy wheel).decode id rest := by
  fun_induction p.enqueueMouseMotion buttons old dx dy id wheel generalizing g with
  | case1 p old dx dy wheel more chunkX chunkY chunkWheel ih =>
    obtain ⟨bytes, queued, decoded⟩ := ih (g.moved id buttons chunkX chunkY chunkWheel) rfl
    refine ⟨ps2MousePacket buttons chunkX chunkY id chunkWheel ++ bytes, ?_, ?_⟩
    · rw [queued]
      simp only [PS2Controller.enqueue, map_append, append_assoc]
    · intro rest
      rw [append_assoc, decode_packet, decoded, g.moved_rest]
  | case2 p old dx dy wheel still =>
    simp only [not_or, not_not] at still
    obtain ⟨rfl, rfl, rfl, rfl⟩ := still
    exact ⟨[], by simp [PS2Controller.enqueue], fun rest => by simp [Guest.moved, ← held]⟩

/-- Where the client is after some events. -/
def position (start : UInt16 × UInt16) (events : List PointerEvent) : UInt16 × UInt16 :=
  events.foldl (fun _ e => (e.x, e.y)) start

/-- The first position; a controller that knows none yet takes that of the first event. -/
def PS2Controller.origin (p : PS2Controller) (events : List PointerEvent) : UInt16 × UInt16 :=
  if p.mouseInit then (p.mouseX, p.mouseY) else position (p.mouseX, p.mouseY) (events.take 1)

theorem ofFlags_ps2Buttons (e : PointerEvent) :
    Buttons.ofFlags (ps2Buttons e.buttonMask) = e.pressed := by
  have all : ∀ mask : UInt8, Buttons.ofFlags (ps2Buttons mask) = (PointerEvent.mk mask 0 0).pressed :=
    forall_byte (by decide +kernel)
  exact all e.buttonMask

/-- Sums, buttons and wheel steps are those of the client. With the third id, a step down also
    presses buttons that the client does not have. -/
theorem pointer_decoded (events : List PointerEvent) {p : PS2Controller} {g : Guest}
    (enabled : p.mouseEnabled = true) (reporting : p.mouseReporting = true)
    (held : g.buttons = .ofFlags p.mouseButtons) :
    ∃ bytes : Bytes, (p.pointerEvents events).queue = (p.enqueue bytes true).queue ∧
      g.decode p.mouseID bytes =
        { x := g.x + (position (p.mouseX, p.mouseY) events).1.toNat - (p.origin events).1.toNat
          y := g.y + (p.origin events).2.toNat - (position (p.mouseX, p.mouseY) events).2.toNat
          wheel := g.wheel + if p.mouseID = .standard then 0
            else (events.map (ps2WheelDelta ·.buttonMask)).sum
          buttons := events.foldl (fun _ e => e.pressed) g.buttons
          side := g.side || p.mouseID = .explorer && events.any (ps2WheelDelta ·.buttonMask < 0) } := by
  induction events generalizing p g with
  | nil =>
    refine ⟨[], by simp [PS2Controller.pointerEvents, PS2Controller.enqueue], ?_⟩
    simp [Guest.decode, position, PS2Controller.origin]
  | cons e events ih =>
    obtain ⟨bytes, queued, decoded⟩ := motion_decoded p.mouseID (ps2Buttons e.buttonMask)
      (p.displacement e).1 (p.displacement e).2 (ps2WheelDelta e.buttonMask) g
      { p with
        mouseX := e.x, mouseY := e.y, mouseInit := true, mouseButtons := ps2Buttons e.buttonMask }
      p.mouseButtons held
    have next : p.pointerEvent e = _ := (if_neg (by simp [enabled, reporting])).trans queued
    obtain ⟨more, queued', decoded'⟩ := @ih (p.pointerEvent e)
      (g.moved p.mouseID (ps2Buttons e.buttonMask) (p.displacement e).1 (p.displacement e).2
        (ps2WheelDelta e.buttonMask))
      (by rw [next]; exact enabled) (by rw [next]; exact reporting) (by rw [next]; rfl)
    refine ⟨bytes ++ more, ?_, ?_⟩
    · rw [PS2Controller.pointerEvents, foldl_cons, ← PS2Controller.pointerEvents, queued', next]
      simp [PS2Controller.enqueue]
    · simp only [next, PS2Controller.enqueue] at decoded'
      rw [decoded, decoded']
      simp only [Guest.moved, PS2Controller.displacement, position, PS2Controller.origin,
        ofFlags_ps2Buttons, if_true, foldl_cons, map_cons, sum_cons, any_cons, take_succ_cons,
        take_zero, foldl_nil, Guest.mk.injEq, true_and]
      refine ⟨by split <;> dsimp only <;> omega, by split <;> dsimp only <;> omega,
        by split <;> omega, ?_⟩
      rw [Bool.or_assoc, Bool.and_or_distrib_left]

/-- A guest that selected id 4, enabled reporting and has seen nothing. -/
def sampleMouse : PS2Controller := ⟨[], true, true, .explorer, 0, 0, 0, false⟩

def sampleGuest : Guest := ⟨0, 0, 0, .ofFlags 0, false⟩

theorem sampleMouse_drag : ∃ bytes : Bytes,
    (sampleMouse.pointerEvents [⟨0, 10, 10⟩, ⟨1, 310, 5⟩]).queue = bytes.map (⟨·, true⟩) ∧
      sampleGuest.decode .explorer bytes = ⟨300, 5, 0, ⟨true, false, false⟩, false⟩ :=
  pointer_decoded [⟨0, 10, 10⟩, ⟨1, 310, 5⟩] (p := sampleMouse) (g := sampleGuest) rfl rfl rfl

theorem wheel_down_presses_side : ∃ bytes : Bytes,
    (sampleMouse.pointerEvents [⟨0x10, 10, 10⟩]).queue = bytes.map (⟨·, true⟩) ∧
      sampleGuest.decode .explorer bytes = ⟨0, 0, -1, ⟨false, false, false⟩, true⟩ := by
  obtain ⟨bytes, queued, decoded⟩ := motion_decoded .explorer 0 0 0 (-1) sampleGuest
    { sampleMouse with mouseX := 10, mouseY := 10, mouseInit := true } 0 rfl
  refine ⟨bytes, congrArg PS2Controller.queue queued, ?_⟩
  rw [← append_nil bytes, decoded]
  rfl

end Gokvm.Iodev
