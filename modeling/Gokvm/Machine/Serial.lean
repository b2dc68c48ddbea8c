import Gokvm.Lib.Utf8

/-! # The serial port

The guest's accesses to the ports of the UART and the bytes that the host types. The bit 7 of
the line control register turns the first two ports into the divisor latch. A history keeps
what went through the data register beside the port itself.
-/

namespace Gokvm.Machine

open Lib

def COM1Addr : UInt64 := 0x03f8

/-- `inputChan` holds at most so many bytes; a writer then waits. -/
def inputCapacity : Nat := 10000

structure Serial where
  IER : UInt8
  LCR : UInt8
  inputChan : Bytes
  output : Bytes

namespace Serial

def new : Serial := { IER := 0, LCR := 0, inputChan := [], output := [] }

variable (s : Serial)

def dlab : Bool := s.LCR &&& 0x80 ≠ 0

/-- A read of one byte, from what the buffer held. -/
def inByte (port : UInt64) (value : UInt8) : UInt8 × Serial :=
  match port - COM1Addr with
  | 0 =>
    if s.dlab then (0xc, s)
    else match s.inputChan with
      | [] => (value, s)
      | b :: rest => (b, { s with inputChan := rest })
  | 1 => (if s.dlab then 0 else s.IER, s)
  | 5 =>
    let value := value ||| 0x20 ||| 0x40
    (if s.inputChan.length > 0 then value ||| 1 else value, s)
  | _ => (value, s)

/-- A write of one byte to a writer that succeeds, and whether an interrupt is asked for. `%c`
    writes the character of the byte's number. -/
def outByte (port : UInt64) (value : UInt8) : Serial × Bool :=
  match port - COM1Addr with
  | 0 =>
    if s.dlab then (s, false)
    else ({ s with output := s.output ++ String.utf8EncodeChar (Char.ofNat value.toNat) }, false)
  | 1 => if s.dlab then (s, false) else ({ s with IER := value }, value ≠ 0)
  | 3 => ({ s with LCR := value }, false)
  | _ => (s, false)

/-- Bit 0 of the line status register, as the guest reads it. -/
def dataReady : Bool := (s.inByte (COM1Addr + 5) 0).1 &&& 1 ≠ 0

end Serial

inductive SerialEvent where
  | read (port : UInt64)
  | write (port : UInt64) (value : UInt8)
  | typed (value : UInt8)

/-- A port; what the guest wrote to the transmit register with the latch off and read from the
    receive register with data ready; what the host typed. -/
structure SerialHistory where
  port : Serial
  transmitted : Bytes
  received : Bytes
  typed : Bytes

open SerialHistory

namespace SerialHistory

def start : SerialHistory := { port := .new, transmitted := [], received := [], typed := [] }

def step (h : SerialHistory) : SerialEvent → SerialHistory
  | .read port =>
    let (value, after) := h.port.inByte port 0
    { h with
        port := after
        received := if port = COM1Addr ∧ !h.port.dlab ∧ h.port.dataReady then h.received ++ [value] else h.received }
  | .write port value =>
    { h with
        port := (h.port.outByte port value).1
        transmitted := if port = COM1Addr ∧ !h.port.dlab then h.transmitted ++ [value] else h.transmitted }
  | .typed value =>
    if h.port.inputChan.length < inputCapacity then
      { h with port := { h.port with inputChan := h.port.inputChan ++ [value] }, typed := h.typed ++ [value] }
    else h

def run (events : List SerialEvent) : SerialHistory := events.foldl step start

end SerialHistory

namespace Serial

variable {s : Serial} {port : UInt64}

theorem dataReady_iff (s : Serial) : s.dataReady = true ↔ s.inputChan ≠ [] := by
  have status : COM1Addr + 5 - COM1Addr = 5 := by decide
  cases waiting : s.inputChan with
  | nil => simp [dataReady, inByte, status, waiting, show (32 ||| 64 : UInt8) &&& 1 = 0 from rfl]
  | cons b rest => simp [dataReady, inByte, status, waiting, show (32 ||| 64 ||| 1 : UInt8) &&& 1 = 1 from rfl]

theorem inByte_data : s.inByte COM1Addr 0 =
    if s.dlab then (0xc, s)
    else match s.inputChan with
      | [] => (0, s)
      | b :: rest => (b, { s with inputChan := rest }) := rfl

theorem inByte_other (other : port ≠ COM1Addr) (value : UInt8) : (s.inByte port value).2 = s := by
  unfold inByte
  split
  next zero => exact absurd (by grind) other
  all_goals rfl

theorem outByte_inputChan (port : UInt64) (value : UInt8) : (s.outByte port value).1.inputChan = s.inputChan := by
  unfold outByte
  repeat' split
  all_goals rfl

theorem outByte_output (port : UInt64) (value : UInt8) :
    (s.outByte port value).1.output =
      s.output ++ if port = COM1Addr ∧ !s.dlab then String.utf8EncodeChar (Char.ofNat value.toNat) else [] := by
  by_cases data : port = COM1Addr
  · subst data
    cases latch : s.dlab <;> simp [outByte, latch]
  · unfold outByte
    split
    next zero => exact absurd (by grind) data
    all_goals simp [data, apply_ite]

end Serial

namespace SerialHistory

/-- The output is that of the transmitted bytes; the typed bytes were received or wait. -/
structure Kept (h : SerialHistory) : Prop where
  output : h.port.output = h.transmitted.flatMap fun b => String.utf8EncodeChar (Char.ofNat b.toNat)
  input : h.typed = h.received ++ h.port.inputChan

theorem Kept.step {h : SerialHistory} (kept : h.Kept) : ∀ event, (h.step event).Kept
  | .read port => by
      by_cases data : port = COM1Addr
      · subst data
        cases latch : h.port.dlab <;> cases waiting : h.port.inputChan <;>
          constructor <;>
          simp [SerialHistory.step, Serial.inByte_data, Serial.dataReady_iff, latch, waiting, kept.output, kept.input]
      · constructor <;> simp [SerialHistory.step, Serial.inByte_other data, data, kept.output, kept.input]
  | .write port value => by
      constructor
      · by_cases sent : port = COM1Addr ∧ !h.port.dlab
        · simp [SerialHistory.step, Serial.outByte_output, sent, kept.output]
        · simp only [SerialHistory.step, Serial.outByte_output, if_neg sent, List.append_nil, kept.output]
      · simp only [SerialHistory.step, Serial.outByte_inputChan, kept.input]
  | .typed value => by
      by_cases room : h.port.inputChan.length < inputCapacity
      · simp only [SerialHistory.step, if_pos room]
        exact ⟨kept.output, by simp [kept.input]⟩
      · simpa only [SerialHistory.step, if_neg room] using kept

theorem Kept.run (events : List SerialEvent) : (run events).Kept :=
  List.foldlRecOn events SerialHistory.step ⟨rfl, rfl⟩ fun _ kept event _ => kept.step event

end SerialHistory

theorem utf8EncodeChar_byte {b : UInt8} (low : b < 0x80) : String.utf8EncodeChar (Char.ofNat b.toNat) = [b] := by
  have small : b.toNat < 0x80 := UInt8.lt_iff_toNat_lt.mp low
  have valid : b.toNat.isValidChar := Or.inl (by omega)
  have same : (Char.ofNat b.toNat).val.toNat = b.toNat := by
    rw [Char.ofNat, dif_pos valid]
    rfl
  simp [String.utf8EncodeChar, same]
  omega

/-- The host's bytes arrive as typed, and while the guest sends only bytes below 0x80 its own
    leave as sent. -/
theorem serial_transparent (events : List SerialEvent) :
    let h := run events
    h.typed = h.received ++ h.port.inputChan ∧ (h.port.dataReady = true ↔ h.port.inputChan ≠ []) ∧
      ((∀ b ∈ h.transmitted, b < 0x80) → h.port.output = h.transmitted) := by
  intro h
  have kept := SerialHistory.Kept.run events
  refine ⟨kept.input, Serial.dataReady_iff _, fun low => ?_⟩
  have ascii : h.transmitted.flatMap (fun b => String.utf8EncodeChar (Char.ofNat b.toNat)) =
      h.transmitted.flatMap fun b => [b] := List.flatMap_congr fun b sent => utf8EncodeChar_byte (low b sent)
  rw [kept.output, ascii, List.flatMap_singleton']

/-- A letter is typed and read, and sent back. -/
theorem serial_echo :
    let events := [.typed 0x61, .write (COM1Addr + 3) 3, .read COM1Addr, .write COM1Addr 0x61]
    (run events).port.output = [0x61] ∧ (run events).received = [0x61] :=
  ⟨(serial_transparent _).2.2 (by decide +kernel), by decide +kernel⟩

/-- One byte of 0x80 is sent to the host as two. -/
theorem serial_doubles_high_byte :
    (run [.write COM1Addr 0x80]).transmitted = [0x80] ∧
      (run [.write COM1Addr 0x80]).port.output = [0xc2, 0x80] := by
  decide +kernel

end Gokvm.Machine
