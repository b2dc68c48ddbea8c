import Gokvm.Rdp.InputReplay

/-! # The two forms of an input packet

A client reports the same events in a fast-path packet, with a header byte before each of
them, or in a slow-path packet, as records of twelve bytes. The flags are laid out differently,
but both packets are read as the same list of inputs.
-/

namespace Gokvm.Rdp

open Lib List

inductive ClientEvent where
  | keyboard (release extended extended1 : Bool) (code : UInt8)
  | unicode (release : Bool) (code : UInt16)
  | pointer (flags x y : UInt16)

open ClientEvent

def wordBytes (words : List UInt16) : Bytes := words.flatMap fun v => leBytes 2 v.toNat

namespace ClientEvent

def input : ClientEvent → Input
  | .keyboard release extended extended1 code => .scan (!release) extended extended1 code.toUInt16
  | .unicode release code => .unicode (!release) code
  | .pointer flags x y => .pointer flags x y

/-- `TS_FP_INPUT_EVENT`: the code above the flags, and the data of the event. -/
def fast : ClientEvent → Bytes
  | .keyboard release extended extended1 code =>
    [(if release then 1 else 0) ||| (if extended then 2 else 0) ||| (if extended1 then 4 else 0), code]
  | .unicode release code => (0x80 ||| if release then 1 else 0) :: wordBytes [code]
  | .pointer flags x y => 0x20 :: wordBytes [flags, x, y]

/-- The kind, the flags and the data of a `TS_INPUT_EVENT`. -/
def record : ClientEvent → List UInt16
  | .keyboard release extended extended1 code =>
    [4, (if release then 0x8000 else 0) ||| (if extended then 0x0100 else 0) |||
      (if extended1 then 0x0200 else 0), code.toUInt16, 0]
  | .unicode release code => [5, if release then 0x8000 else 0, code, 0]
  | .pointer flags x y => [0x8001, flags, x, y]

/-- A `TS_INPUT_EVENT`, with the time of the event. -/
def slow (time : UInt32) (event : ClientEvent) : Bytes := leBytes 4 time.toNat ++ wordBytes event.record

end ClientEvent

/-- Up to fifteen events may be counted in the header. -/
def fastPacket (compact : Bool) (events : List ClientEvent) : Bytes :=
  (if compact ∧ events ≠ [] ∧ events.length ≤ 15 then [UInt8.ofNat events.length <<< 2]
    else [0, UInt8.ofNat events.length]) ++ events.flatMap fast

/-- The share headers, the number of events and their records. -/
def slowPacket (time : UInt32) (events : List ClientEvent) : Bytes :=
  wordBytes [UInt16.ofNat (22 + 12 * events.length), 0x17, 0x03ea, 0x03ea, 1, 0x0100,
    UInt16.ofNat (8 + 12 * events.length), 28, 0, UInt16.ofNat events.length, 0] ++
    events.flatMap (slow time)

/-! ## Reading them -/

theorem word_wordBytes {words : List UInt16} (i : Nat) {v : UInt16} (here : words[i]? = some v)
    (rest : Bytes) : word (wordBytes words ++ rest) (i * 2) = v := by
  have sizes : ∀ v ∈ words, (leBytes 2 v.toNat).length = 2 := fun v _ => leBytes_length 2 _
  have low : v.toNat < 256 ^ 2 := v.toNat_lt
  rw [word, wordBytes, part_flatMap sizes here le_rfl rest, part, drop_zero,
    take_of_length_le (by simp), leNat_leBytes, Nat.mod_eq_of_lt low, UInt16.ofNat_toNat]

theorem fastInputs_cons {header : UInt8} (data : Bytes) {rest : Bytes} {input : Input}
    (size : InputDecoder.fastLengths[(header >>> 5).toNat]? = some data.length)
    (read : fastInput (header >>> 5) (header &&& 31) (data ++ rest) = .ok input) (count : Nat) :
    fastInputs (count + 1) (header :: (data ++ rest)) = (fastInputs count rest).map (input :: ·) := by
  rw [fastInputs, size]
  simp only
  rw [if_neg (by simp), read, drop_left]

theorem fastInputs_event (event : ClientEvent) (count : Nat) (rest : Bytes) :
    fastInputs (count + 1) (event.fast ++ rest) = (fastInputs count rest).map (event.input :: ·) := by
  cases event with
  | keyboard release extended extended1 code =>
    cases release <;> cases extended <;> cases extended1 <;> exact fastInputs_cons [code] rfl rfl count
  | unicode release code =>
    have value : word (wordBytes [code] ++ rest) 0 = code := word_wordBytes 0 rfl rest
    cases release
    · refine fastInputs_cons (wordBytes [code]) rfl ?_ count
      exact congrArg (fun v => Except.ok (Input.unicode true v)) value
    · refine fastInputs_cons (wordBytes [code]) rfl ?_ count
      exact congrArg (fun v => Except.ok (Input.unicode false v)) value
  | pointer flags x y =>
    have first : word (wordBytes [flags, x, y] ++ rest) 0 = flags := word_wordBytes 0 rfl rest
    have second : word (wordBytes [flags, x, y] ++ rest) 2 = x := word_wordBytes 1 rfl rest
    have third : word (wordBytes [flags, x, y] ++ rest) 4 = y := word_wordBytes 2 rfl rest
    refine fastInputs_cons (wordBytes [flags, x, y]) rfl ?_ count
    exact congrArg Except.ok (congr (congr (congrArg Input.pointer first) second) third)

theorem slowInput_event (time : UInt32) (event : ClientEvent) (rest : Bytes) :
    slowInput (event.slow time ++ rest) = .ok event.input := by
  have here : ∀ i v, event.record[i]? = some v → word (event.slow time ++ rest) (4 + i * 2) = v := by
    intro i v field
    have behind := part_append_right (leBytes 4 time.toNat) (wordBytes event.record ++ rest) (i * 2) 2
    rw [leBytes_length, ← append_assoc] at behind
    rw [word, slow, behind]
    exact word_wordBytes i field rest
  rw [slowInput]
  cases event with
  | keyboard release extended extended1 code =>
    rw [here 0 _ rfl, here 1 _ rfl, here 2 _ rfl]
    cases release <;> cases extended <;> cases extended1 <;> rfl
  | unicode release code =>
    rw [here 0 _ rfl, here 1 _ rfl, here 2 _ rfl]
    cases release <;> rfl
  | pointer flags x y =>
    rw [here 0 _ rfl, here 1 _ rfl, here 2 _ rfl, here 3 _ rfl]
    rfl

theorem fastInputs_events (events : List ClientEvent) :
    fastInputs events.length (events.flatMap fast) = .ok (events.map input) := by
  induction events with
  | nil => rfl
  | cons event events ih =>
    rw [length_cons, flatMap_cons, fastInputs_event, ih]
    rfl

theorem length_slow (time : UInt32) (event : ClientEvent) : (event.slow time).length = 12 := by
  cases event <;> rfl

theorem slowInputs_events (time : UInt32) (events : List ClientEvent) :
    slowInputs events.length (events.flatMap (slow time)) = .ok (events.map input) := by
  induction events with
  | nil => rfl
  | cons event events ih =>
    rw [length_cons, slowInputs, flatMap_cons, slowInput_event]
    simp only
    rw [← length_slow time event, drop_left, ih]
    rfl

theorem header_count : ∀ n : Fin 16, n ≠ 0 → UInt8.ofNat n <<< 2 &&& 0xc3 = 0 ∧
    (UInt8.ofNat n <<< 2) >>> 2 &&& 15 ≠ 0 ∧ ((UInt8.ofNat n <<< 2) >>> 2 &&& 15).toNat = n := by
  decide

theorem read_fastPacket {events : List ClientEvent} (few : events.length ≤ 255) (compact : Bool) :
    InputPacket.read ⟨fastPacket compact events, true⟩ = .ok (events.map input) := by
  have count : (UInt8.ofNat events.length).toNat = events.length := by
    rw [UInt8.toNat_ofNat']
    omega
  unfold fastPacket
  split
  next short =>
    have some : (⟨events.length, by omega⟩ : Fin 16) ≠ 0 := fun none =>
      short.2.1 (eq_nil_of_length_eq_zero (congrArg Fin.val none))
    obtain ⟨plain, counted, same⟩ := header_count _ some
    simp only [InputPacket.read, if_true, cons_append, nil_append, plain, counted, same, ne_eq,
      not_true_eq_false, not_false_eq_true, if_false]
    exact fastInputs_events events
  · have read : InputPacket.read ⟨0 :: UInt8.ofNat events.length :: events.flatMap fast, true⟩ =
        fastInputs (UInt8.ofNat events.length).toNat (events.flatMap fast) := rfl
    rw [cons_append, cons_append, nil_append, read, count]
    exact fastInputs_events events

theorem read_slowPacket {events : List ClientEvent} (few : events.length ≤ 255) (time : UInt32) :
    InputPacket.read ⟨slowPacket time events, false⟩ = .ok (events.map input) := by
  have records : (events.flatMap (slow time)).length = 12 * events.length := by
    simp only [length_flatMap, length_slow, map_const', sum_replicate, smul_eq_mul]
    omega
  have size : (word (slowPacket time events) 0).toNat = 22 + 12 * events.length := by
    rw [slowPacket, show 0 = 0 * 2 from rfl, word_wordBytes 0 rfl, UInt16.toNat_ofNat']
    omega
  have count : (word (slowPacket time events) 18).toNat = events.length := by
    rw [slowPacket, show 18 = 9 * 2 from rfl, word_wordBytes 9 rfl, UInt16.toNat_ofNat']
    omega
  have length : (slowPacket time events).length = 22 + 12 * events.length := by
    rw [slowPacket, length_append, records]
    rfl
  have body : (slowPacket time events).drop 22 = events.flatMap (slow time) := rfl
  have header : word (slowPacket time events) 2 &&& 15 = 7 := by
    rw [slowPacket, show 2 = 1 * 2 from rfl, word_wordBytes 1 rfl]
    rfl
  unfold InputPacket.read
  simp only [Bool.false_eq_true, if_false, body, count, records]
  rw [if_neg, if_neg]
  · exact slowInputs_events time events
  · omega
  · rintro (short | wrong | wrong | wrong | wrong)
    · omega
    · omega
    · exact wrong header
    · exact wrong rfl
    · exact wrong rfl

/-- The two packets of the same events emit the same and leave the decoder in the same state. -/
theorem input_paths_agree (d : InputDecoder) {events : List ClientEvent} (few : events.length ≤ 255)
    (compact : Bool) (time : UInt32) :
    let fast := d.decode (fastPacket compact events) true
    let slow := d.decode (slowPacket time events) false
    fast.error = none ∧ slow.error = none ∧ fast.events = slow.events ∧ fast.decoder = slow.decoder := by
  have fast := d.decode_eq ⟨fastPacket compact events, true⟩
  have slow := d.decode_eq ⟨slowPacket time events, false⟩
  rw [read_fastPacket few compact] at fast
  rw [read_slowPacket few time] at slow
  rw [fast, slow]
  exact ⟨rfl, rfl, rfl, rfl⟩

theorem pause_and_wheel_agree :
    let events := [.keyboard false false true 0x1d, .keyboard true false false 0x45, .pointer 0x0278 1 2]
    let fast := InputDecoder.initial.decode (fastPacket true events) true
    let slow := InputDecoder.initial.decode (slowPacket 0 events) false
    fast.error = none ∧ slow.error = none ∧ fast.events = slow.events ∧ fast.decoder = slow.decoder :=
  input_paths_agree .initial (by decide) true 0

end Gokvm.Rdp
