import Gokvm.Lib.Bytes
import Mathlib.Data.Finset.Sort

/-! # Keyboard and pointer input

The decoder of a connection's input packets. A packet is decoded on a copy, one event after the
other, which replaces the decoder only when the whole packet was understood. The source clones the
map of held keys for that; here it is a finite set, a value already.
-/

namespace Gokvm.Rdp

open Lib

inductive InputKind where
  | key
  | pointer
deriving DecidableEq

/-- Keys are X11 keysyms; buttons 0 to 2 are left, middle and right, bits 3 and 4 momentary wheel
    events. -/
structure InputEvent where
  kind : InputKind
  down : Bool
  key : UInt32
  x : UInt16
  y : UInt16
  buttons : UInt8
deriving DecidableEq

def keyEvent (down : Bool) (key : UInt32) : InputEvent :=
  { kind := .key, down := down, key := key, x := 0, y := 0, buttons := 0 }

def pointerEvent (x y : UInt16) (buttons : UInt8) : InputEvent :=
  { kind := .pointer, down := false, key := 0, x := x, y := y, buttons := buttons }

/-- `unicodeHigh` holds the pending high surrogate of a key press and of a key release. -/
structure InputDecoder where
  held : Finset UInt32
  buttons : UInt8
  x : UInt16
  y : UInt16
  wheel : Int
  pause : Bool
  unicodeHigh : UInt16 × UInt16
deriving DecidableEq

inductive InputFault where
  | fastHeader
  | fastCount
  | missingFastEvent
  | unknownFastEvent (code : UInt8)
  | truncatedFastEvent (code : UInt8)
  | relativePointer
  | trailingFastData
  | slowPDU
  | slowCount
  | unknownSlowEvent (kind : UInt16)
deriving DecidableEq

def InputFault.text : InputFault → String
  | .fastHeader => "invalid RDP input: invalid fast-path input header"
  | .fastCount => "invalid RDP input: missing fast-path input event count"
  | .missingFastEvent => "invalid RDP input: missing fast-path input event"
  | .unknownFastEvent code => s!"invalid RDP input: unknown fast-path input event {code}"
  | .truncatedFastEvent code => s!"invalid RDP input: truncated fast-path input event {code}"
  | .relativePointer => "invalid RDP input: relative pointer input is not supported"
  | .trailingFastData => "invalid RDP input: trailing fast-path input data"
  | .slowPDU => "invalid RDP input: invalid slow-path input PDU"
  | .slowCount => "invalid RDP input: invalid slow-path input event count"
  | .unknownSlowEvent kind =>
    "invalid RDP input: unknown slow-path input event 0x" ++
      String.ofList (Nat.toDigits 16 kind.toNat)

def word (data : Bytes) (off : Nat) : UInt16 := UInt16.ofNat (leNat (part data off 2))

/-! ## Key symbols -/

/-- The keys whose scan code has the extended prefix; 0 for the others. -/
def extendedKeysym (code : UInt16) : UInt32 :=
  match code with
  | 0x1c => 0xff0d | 0x1d => 0xffe4 | 0x35 => '/'.val | 0x37 => 0xff61 | 0x38 => 0xffea
  | 0x47 => 0xff50 | 0x48 => 0xff52 | 0x49 => 0xff55 | 0x4b => 0xff51
  | 0x4d => 0xff53 | 0x4f => 0xff57 | 0x50 => 0xff54 | 0x51 => 0xff56
  | 0x52 => 0xff63 | 0x53 => 0xffff | 0x5b => 0xffeb | 0x5c => 0xffec | 0x5d => 0xff67
  | _ => 0

def keysyms : List UInt32 :=
  [0, 0xff1b, '1'.val, '2'.val, '3'.val, '4'.val, '5'.val,
    '6'.val, '7'.val, '8'.val, '9'.val, '0'.val, '-'.val, '='.val, 0xff08, 0xff09,
    -- 0x10
    'q'.val, 'w'.val, 'e'.val, 'r'.val, 't'.val, 'y'.val, 'u'.val, 'i'.val, 'o'.val, 'p'.val,
    '['.val, ']'.val, 0xff0d, 0xffe3, 'a'.val, 's'.val,
    -- 0x20; 0x27, 0x60 and 0x5c are the apostrophe, the grave accent and the backslash
    'd'.val, 'f'.val, 'g'.val, 'h'.val, 'j'.val, 'k'.val, 'l'.val, ';'.val, 0x27, 0x60,
    0xffe1, 0x5c, 'z'.val, 'x'.val, 'c'.val, 'v'.val,
    -- 0x30
    'b'.val, 'n'.val, 'm'.val, ','.val, '.'.val, '/'.val, 0xffe2, 0xffaa, 0xffe9, ' '.val, 0xffe5,
    0xffbe, 0xffbf, 0xffc0, 0xffc1, 0xffc2,
    -- 0x40
    0xffc3, 0xffc4, 0xffc5, 0xffc6, 0xffc7, 0xff7f, 0xff14, 0xffb7, 0xffb8, 0xffb9, 0xffad,
    0xffb4, 0xffb5, 0xffb6, 0xffab, 0xffb1,
    -- 0x50
    0xffb2, 0xffb3, 0xffb0, 0xffae, 0, 0, '<'.val, 0xffc8, 0xffc9]

def scanKeysym (code : UInt16) : UInt32 := keysyms.getD code.toNat 0

/-- `utf16.DecodeRune`: the character of a surrogate pair. -/
def decodeRune (high low : UInt16) : UInt32 :=
  if 0xd800 ≤ high ∧ high < 0xdc00 ∧ 0xdc00 ≤ low ∧ low < 0xe000 then
    (((high - 0xd800).toUInt32 <<< 10) ||| (low - 0xdc00).toUInt32) + 0x10000
  else 0xfffd

def runeKeysym (key : UInt32) : UInt32 :=
  if key = 0x08 ∨ key = 0x09 ∨ key = 0x0d ∨ key = 0x1b then key ||| 0xff00
  else if key = 0x7f then 0xffff
  else if key > 0xff then key ||| 0x01000000
  else key

/-! ## The decoder -/

namespace InputDecoder

def initial : InputDecoder :=
  { held := ∅, buttons := 0, x := 0, y := 0, wheel := 0, pause := false, unicodeHigh := (0, 0) }

variable (d : InputDecoder)

/-- Each of the following gives the decoder afterwards and the events it appended. -/
def key (down : Bool) (key : UInt32) : InputDecoder × List InputEvent :=
  if key = 0 then (d, [])
  else
    ({ d with held := if down then insert key d.held else d.held.erase key }, [keyEvent down key])

def scan (down extended extended1 : Bool) (code : UInt16) : InputDecoder × List InputEvent :=
  if extended1 then
    -- E1 CTRL begins the Pause sequence
    if code = 0x1d ∧ down then ({ d with pause := true }, []) else (d, [])
  else if !extended ∧ code = 0x45 ∧ d.pause then
    (if down then d else { d with pause := false }).key down 0xff13
  else if extended then d.key down (extendedKeysym code)
  else d.key down (scanKeysym code)

/-- The surrogate that a press (or a release) waits to complete. -/
def high (down : Bool) : UInt16 := if down then d.unicodeHigh.1 else d.unicodeHigh.2

def setHigh (down : Bool) (code : UInt16) : InputDecoder :=
  { d with unicodeHigh := if down then (code, d.unicodeHigh.2) else (d.unicodeHigh.1, code) }

def unicode (down : Bool) (code : UInt16) : InputDecoder × List InputEvent :=
  if 0xd800 ≤ code ∧ code ≤ 0xdbff then (d.setHigh down code, [])
  else if 0xdc00 ≤ code ∧ code ≤ 0xdfff then
    -- an unmatched low surrogate is ignored
    if d.high down = 0 then (d, [])
    else (d.setHigh down 0).key down (runeKeysym (decodeRune (d.high down) code))
  else (d.setHigh down 0).key down (runeKeysym code.toUInt32)

/-- The loop that turns rotation into wheel clicks; the accumulated amount is enough fuel. -/
def turnWheel : Nat → InputDecoder → InputDecoder × List InputEvent
  | 0, d => (d, [])
  | fuel + 1, d =>
    if d.wheel ≥ 120 ∨ d.wheel ≤ -120 then
      let button : UInt8 := if d.wheel < 0 then 16 else 8
      let turned := turnWheel fuel
        { d with wheel := if d.wheel < 0 then d.wheel + 120 else d.wheel - 120 }
      (turned.1,
        pointerEvent d.x d.y (d.buttons ||| button) :: pointerEvent d.x d.y d.buttons :: turned.2)
    else (d, [])

/-- The flags of a pointer event that name a button, with its bit. -/
def buttonFlags : List (UInt16 × UInt8) := [(0x1000, 1), (0x2000, 4), (0x4000, 2)]

def pressButtons (flags : UInt16) (buttons : UInt8) : UInt8 :=
  buttonFlags.foldl (fun held button =>
    if flags &&& button.1 ≠ 0 then
      if flags &&& 0x8000 ≠ 0 then held ||| button.2 else held &&& ~~~button.2
    else held) buttons

def pointer (flags x y : UInt16) : InputDecoder × List InputEvent :=
  if flags &&& 0x0400 ≠ 0 then (d, [])
  else if flags &&& 0x0200 ≠ 0 then
    let low : Nat := (flags &&& 0x01ff).toNat
    let delta : Int := if low &&& 0x0100 ≠ 0 then (low : Int) - 0x0200 else low
    let d := { d with wheel := d.wheel + delta }
    turnWheel d.wheel.natAbs d
  else
    let d := { d with x := x, y := y, buttons := pressButtons flags d.buttons }
    (d, [pointerEvent x y d.buttons])

/-! ## Packets -/

/-- The bytes after the header of each kind of fast-path event. -/
def fastLengths : List Nat := [1, 6, 6, 0, 2, 6, 4]

/-- One fast-path event; extended buttons, synchronization and timestamps are skipped. -/
def fastEvent (code flags : UInt8) (data : Bytes) :
    Except InputFault (InputDecoder × List InputEvent) :=
  match code with
  | 0 => .ok (d.scan (flags &&& 1 = 0) (flags &&& 2 ≠ 0) (flags &&& 4 ≠ 0) (data.getD 0 0).toUInt16)
  | 1 => .ok (d.pointer (word data 0) (word data 2) (word data 4))
  | 4 => .ok (d.unicode (flags &&& 1 = 0) (word data 0))
  | 5 => .error .relativePointer
  | _ => .ok (d, [])

def fastEvents : Nat → InputDecoder → List InputEvent → Bytes →
    Except InputFault (InputDecoder × List InputEvent)
  | 0, d, events, data => if data ≠ [] then .error .trailingFastData else .ok (d, events)
  | _ + 1, _, _, [] => .error .missingFastEvent
  | count + 1, d, events, header :: data =>
    match fastLengths[(header >>> 5).toNat]? with
    | none => .error (.unknownFastEvent (header >>> 5))
    | some size =>
      if data.length < size then .error (.truncatedFastEvent (header >>> 5))
      else match d.fastEvent (header >>> 5) (header &&& 31) data with
        | .error fault => .error fault
        | .ok (d, more) => fastEvents count d (events ++ more) (data.drop size)

def fastPath (data : Bytes) : Except InputFault (InputDecoder × List InputEvent) :=
  match data with
  | [] => .error .fastHeader
  | header :: data =>
    if header &&& 0xc3 ≠ 0 then .error .fastHeader
    else if (header >>> 2) &&& 15 ≠ 0 then
      fastEvents ((header >>> 2) &&& 15).toNat d [] data
    else match data with
      | [] => .error .fastCount
      | count :: data => fastEvents count.toNat d [] data

def slowEvent (data : Bytes) : Except InputFault (InputDecoder × List InputEvent) :=
  match word data 4 with
  | 0 => .ok (d, [])
  | 2 => .ok (d, [])
  | 0x8002 => .ok (d, [])
  | 4 => .ok (d.scan (word data 6 &&& 0x8000 = 0) (word data 6 &&& 0x0100 ≠ 0)
      (word data 6 &&& 0x0200 ≠ 0) (word data 8))
  | 5 => .ok (d.unicode (word data 6 &&& 0x8000 = 0) (word data 8))
  | 0x8001 => .ok (d.pointer (word data 6) (word data 8) (word data 10))
  | kind => .error (.unknownSlowEvent kind)

def slowEvents : Nat → InputDecoder → List InputEvent → Bytes →
    Except InputFault (InputDecoder × List InputEvent)
  | 0, d, events, _ => .ok (d, events)
  | count + 1, d, events, data =>
    match d.slowEvent data with
    | .error fault => .error fault
    | .ok (d, more) => slowEvents count d (events ++ more) (data.drop 12)

def slowPath (data : Bytes) : Except InputFault (InputDecoder × List InputEvent) :=
  if data.length < 22 ∨ (word data 0).toNat ≠ data.length ∨ word data 2 &&& 15 ≠ 7 ∨
      data.getD 14 0 ≠ 28 ∨ data.getD 15 0 ≠ 0 then
    .error .slowPDU
  else
    let count := (word data 18).toNat
    let data := data.drop 22
    if count ≠ data.length / 12 ∨ data.length % 12 ≠ 0 then .error .slowCount
    else slowEvents count d [] data

/-- What `Decode` returns, with the decoder afterwards. -/
structure Outcome where
  events : List InputEvent
  error : Option InputFault
  decoder : InputDecoder

def decode (data : Bytes) (fast : Bool) : Outcome :=
  match (if fast then d.fastPath data else d.slowPath data) with
  | .error fault => { events := [], error := some fault, decoder := d }
  | .ok (next, events) => { events := events, error := none, decoder := next }

def releaseAll : InputDecoder × List InputEvent :=
  (initial,
    (d.held.sort (· ≤ ·)).map (keyEvent false) ++
      if d.buttons ≠ 0 then [pointerEvent d.x d.y 0] else [])

end InputDecoder

end Gokvm.Rdp
