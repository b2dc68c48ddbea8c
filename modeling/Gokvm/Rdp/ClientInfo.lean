import Gokvm.Lib.Per

/-! # The Client Info PDU

The five strings of a Client Info PDU lie one after the other, each with a terminator of one
character, and their byte lengths stand in a table before them. Gateway and console walk them in
the same way. Walking an encoding gives the parts back, and whatever can be walked is one.
-/

namespace Gokvm.Rdp

open Lib List Nat

inductive Fault where
  | invalidSendData
  | unexpectedEOF
  | invalidPayloadLength
  | expectedClientInfo
  | truncatedString
  | unterminatedString
deriving DecidableEq

def Fault.text : Fault → String
  | .invalidSendData => "rdp: invalid MCS Send Data Request"
  | .unexpectedEOF => "unexpected EOF"
  | .invalidPayloadLength => "rdp: invalid PER payload length"
  | .expectedClientInfo => "rdp: expected TLS Client Info"
  | .truncatedString => "rdp: truncated Client Info string"
  | .unterminatedString => "rdp: unterminated Client Info string"

/-! ## The console's parser -/

def takePER (p : Bytes) : Except Fault Bytes :=
  match perLength p with
  | none => .error .unexpectedEOF
  | some (n, off) =>
    if n ≠ p.length - off then .error .invalidPayloadLength else .ok (p.drop off)

/-- The channel and the payload of a Send Data Request. -/
def parseSendData (p : Bytes) : Except Fault (Nat × Bytes) :=
  if p.length < 7 ∨ p.getD 0 0 ≠ 0x64 ∨ beNat (part p 1 2) ≠ 0 ∨ p.getD 5 0 ≠ 0x70 then
    .error .invalidSendData
  else match takePER (p.drop 6) with
    | .error fault => .error fault
    | .ok data => .ok (beNat (part p 3 2), data)

def infoFlags (info : Bytes) : UInt32 := UInt32.ofNat (leNat (part info 8 4))

/-- Bytes in a character: two when `INFO_UNICODE` is set. -/
def textWidth (flags : UInt32) : Nat := if flags &&& 0x10 ≠ 0 then 2 else 1

/-- The string with the given number in the table of lengths. -/
def fieldLength (info : Bytes) (field : Nat) : Nat := leNat (part info (12 + 2 * field) 2)

/-- The listed strings from `off` on, each with its offset, and where they end. -/
def walkFields {ε : Type} (truncated unterminated : ε) (info : Bytes) (width : Nat) :
    List Nat → Nat → Except ε (List (Nat × Bytes) × Nat)
  | [], off => .ok ([], off)
  | field :: rest, off =>
    let n := fieldLength info field
    if n % width ≠ 0 ∨ n + width > info.length - off then .error truncated
    else if (part info (off + n) width).any (· ≠ 0) then .error unterminated
    else match walkFields truncated unterminated info width rest (off + n + width) with
      | .error e => .error e
      | .ok (items, finish) => .ok ((off, part info off n) :: items, finish)

def fieldNumbers : List Nat := range 5

def validateClientInfo (p : Bytes) : Except Fault Unit :=
  if p.length < 22 ∨ leNat (part p 0 4) ≠ 0x40 then .error .expectedClientInfo
  else match walkFields Fault.truncatedString .unterminatedString p (textWidth (infoFlags p))
      fieldNumbers 22 with
    | .error fault => .error fault
    | .ok _ => .ok ()

/-- A Send Data Request on the global channel. -/
def sendDataHeader : Bytes := [0x64, 0, 0, 0x03, 0xeb, 0x70]

theorem takePER_packed {payload : Bytes} (small : payload.length < 32768) :
    takePER (perBytes payload.length ++ payload) = .ok payload := by
  rw [takePER, perLength_perBytes small]
  simp only
  rw [length_append, if_neg (by omega), drop_left]

theorem parseSendData_packed {payload : Bytes} (small : payload.length < 32768) :
    parseSendData (sendDataHeader ++ (perBytes payload.length ++ payload)) =
      .ok (1003, payload) := by
  have packed := perBytes_length payload.length
  have long : 7 ≤ (sendDataHeader ++ (perBytes payload.length ++ payload)).length := by
    rw [length_append, length_append, packed]
    have : sendDataHeader.length = 6 := rfl
    split <;> omega
  have rest : (sendDataHeader ++ (perBytes payload.length ++ payload)).drop 6 =
      perBytes payload.length ++ payload := rfl
  rw [parseSendData, if_neg, rest, takePER_packed small]
  · rfl
  · rintro (short | wrong | wrong | wrong)
    · omega
    · exact wrong rfl
    · exact wrong rfl
    · exact wrong rfl

/-! ## What a walk finds -/

def terminated (width : Nat) (field : Bytes) : Bytes := field ++ replicate width 0

/-- Strings laid out from `off` on, with their offsets. -/
def placed (width : Nat) : Nat → List Bytes → List (Nat × Bytes)
  | _, [] => []
  | off, field :: fields => (off, field) :: placed width (off + field.length + width) fields

/-- The strings lie in the PDU from `off` on as the table of lengths says. -/
structure Laid (info : Bytes) (width : Nat) (numbers : List Nat) (off : Nat)
    (fields : List Bytes) : Prop where
  lengths : fields.map length = numbers.map (fieldLength info)
  whole : ∀ field ∈ fields, field.length % width = 0
  bytes : fields.flatMap (terminated width) <+: info.drop off

theorem placed_map_snd (width off : Nat) (fields : List Bytes) :
    (placed width off fields).map Prod.snd = fields := by
  induction fields generalizing off with
  | nil => rfl
  | cons field fields ih => simp only [placed, map_cons, ih]

variable {info : Bytes} {width off : Nat}

private theorem laid_cons {field : Nat} {rest : List Nat} {text : Bytes} {fields : List Bytes} :
    Laid info width (field :: rest) off (text :: fields) ↔
      text.length = fieldLength info field ∧ text.length % width = 0 ∧
        terminated width text <+: info.drop off ∧
        Laid info width rest (off + text.length + width) fields := by
  have size : (terminated width text).length = text.length + width := by
    simp [terminated]
  constructor
  · rintro ⟨lengths, whole, bytes⟩
    rw [map_cons, map_cons, cons.injEq] at lengths
    rw [flatMap_cons] at bytes
    obtain ⟨tail, split⟩ := bytes
    refine ⟨lengths.1, whole text mem_cons_self, ⟨_, by rw [← split, append_assoc]⟩,
      lengths.2, fun other member => whole other (mem_cons_of_mem text member), tail, ?_⟩
    rw [add_assoc, ← drop_drop, ← split, append_assoc, ← size, drop_left]
  · rintro ⟨here, aligned, ⟨after, split⟩, lengths, whole, bytes⟩
    refine ⟨by rw [map_cons, map_cons, here, lengths], ?_, ?_⟩
    · exact forall_mem_cons.mpr ⟨aligned, whole⟩
    · rw [add_assoc, ← drop_drop, ← split, ← size, drop_left] at bytes
      rw [flatMap_cons, ← split]
      exact (prefix_append_right_inj _).mpr bytes

private theorem terminated_prefix {text : Bytes} (inside : terminated width text <+: info.drop off) :
    text.length + width ≤ info.length - off ∧ part info off text.length = text ∧
      part info (off + text.length) width = replicate width 0 := by
  obtain ⟨tail, split⟩ := inside
  rw [terminated, append_assoc] at split
  refine ⟨?_, ?_, ?_⟩
  · have size := congrArg length split
    simp only [length_append, length_replicate, length_drop] at size
    omega
  · rw [part, ← split, take_left]
  · rw [part, ← drop_drop, ← split, drop_left, take_left' length_replicate]

private theorem prefix_terminated {n : Nat} (room : n + width ≤ info.length - off)
    (zeros : (part info (off + n) width).any (· ≠ 0) = false) :
    (part info off n).length = n ∧ terminated width (part info off n) <+: info.drop off := by
  have size : (part info (off + n) width).length = width := by
    simp only [part, length_take, length_drop]
    omega
  have blank : part info (off + n) width = replicate width 0 := by
    refine eq_replicate_iff.mpr ⟨size, fun b member => ?_⟩
    simpa using any_eq_false.mp zeros b member
  refine ⟨?_, (info.drop off).drop (n + width), ?_⟩
  · simp only [part, length_take, length_drop]
    omega
  · rw [terminated, ← blank, part, part, ← drop_drop, ← drop_drop, append_assoc,
      take_append_drop, take_append_drop]

/-- A walk succeeds exactly when the strings lie there as the table says. -/
theorem walkFields_eq_ok {ε : Type} {truncated unterminated : ε} {numbers : List Nat} {finish : Nat}
    {items : List (Nat × Bytes)} :
    walkFields truncated unterminated info width numbers off = .ok (items, finish) ↔
      ∃ fields, Laid info width numbers off fields ∧ items = placed width off fields ∧
        finish = off + (fields.flatMap (terminated width)).length := by
  induction numbers generalizing off finish items with
  | nil =>
    constructor
    · intro walked
      cases walked
      exact ⟨[], ⟨rfl, by simp, by simp⟩, rfl, by simp⟩
    · rintro ⟨fields, laid, rfl, rfl⟩
      cases map_eq_nil_iff.mp laid.lengths
      rfl
  | cons field rest ih =>
    constructor
    · intro walked
      simp only [walkFields] at walked
      split at walked
      · cases walked
      rename_i fits
      split at walked
      · cases walked
      rename_i zeros
      obtain ⟨aligned, room⟩ := not_or.mp fits
      obtain ⟨size, inside⟩ := prefix_terminated (not_lt.mp room) (Bool.not_eq_true _ ▸ zeros)
      split at walked
      · cases walked
      rename_i more finish' after
      cases walked
      obtain ⟨fields, laid, rfl, rfl⟩ := ih.mp after
      refine ⟨_ :: fields, laid_cons.mpr ⟨size, ?_, inside, ?_⟩, ?_, ?_⟩
      · rw [size]
        exact not_not.mp aligned
      · rwa [size]
      · rw [placed, size]
      · simp only [flatMap_cons, length_append, terminated, length_replicate, size]
        omega
    · rintro ⟨fields, laid, rfl, rfl⟩
      cases fields with
      | nil => cases laid.lengths
      | cons text fields =>
        obtain ⟨size, aligned, inside, laid⟩ := laid_cons.mp laid
        obtain ⟨room, here, blank⟩ := terminated_prefix inside
        have after := ih.mpr ⟨fields, laid, rfl, rfl⟩
        simp only [walkFields, ← size]
        rw [if_neg (by omega), blank, here, after, if_neg (by simp)]
        simp only [placed, flatMap_cons, length_append, terminated,
          length_replicate]
        congr 2
        omega

theorem walkFields_of_laid {ε : Type} (truncated unterminated : ε) {numbers : List Nat} {fields : List Bytes}
    (laid : Laid info width numbers off fields) :
    walkFields truncated unterminated info width numbers off =
      .ok (placed width off fields, off + (fields.flatMap (terminated width)).length) :=
  walkFields_eq_ok.mpr ⟨fields, laid, rfl, rfl⟩

/-! ## The PDU and its parts -/

/-- A Client Info PDU: the security header with the code page, flags, five strings, and the rest. -/
structure ClientInfo where
  header : Bytes
  flags : UInt32
  domain : Bytes
  userName : Bytes
  password : Bytes
  shell : Bytes
  directory : Bytes
  extra : Bytes
deriving DecidableEq

namespace ClientInfo

def fields (f : ClientInfo) : List Bytes :=
  [f.domain, f.userName, f.password, f.shell, f.directory]

def lengthTable (fields : List Bytes) : Bytes := fields.flatMap fun field => leBytes 2 field.length

def encode (f : ClientInfo) : Bytes :=
  f.header ++ (leBytes 4 f.flags.toNat ++ (lengthTable f.fields ++
    (f.fields.flatMap (terminated (textWidth f.flags)) ++ f.extra)))

/-- The parts that a walk of the PDU finds. -/
def walk (info : Bytes) : Option ClientInfo :=
  if info.length < 22 then none
  else match walkFields () () info (textWidth (infoFlags info)) fieldNumbers 22 with
    | .ok ([domain, userName, password, shell, directory], finish) =>
      some
        { header := info.take 8
          flags := infoFlags info
          domain := domain.2
          userName := userName.2
          password := password.2
          shell := shell.2
          directory := directory.2
          extra := info.drop finish }
    | _ => none

structure Fits (f : ClientInfo) : Prop where
  header : f.header.length = 8
  lengths : ∀ field ∈ f.fields, field.length < 65536
  whole : ∀ field ∈ f.fields, field.length % textWidth f.flags = 0

theorem part_lengthTable (fields : List Bytes) (i : Nat) (inside : i < fields.length) :
    part (lengthTable fields) (2 * i) 2 = leBytes 2 (fields[i]).length := by
  induction fields generalizing i with
  | nil => cases inside
  | cons field fields ih =>
    have width : (leBytes 2 field.length).length = 2 := leBytes_length _ _
    rw [lengthTable, flatMap_cons]
    cases i with
    | zero =>
      rw [part_append_left _ (by rw [width])]
      exact take_of_length_le (by rw [mul_zero, drop_zero, width])
    | succ i =>
      rw [show 2 * (i + 1) = (leBytes 2 field.length).length + 2 * i by rw [width]; omega,
        part_append_right]
      exact ih i (lt_of_succ_lt_succ inside)

theorem lengthTable_length (fields : List Bytes) : (lengthTable fields).length = 2 * fields.length := by
  induction fields with
  | nil => rfl
  | cons field fields ih =>
    rw [lengthTable, flatMap_cons, length_append, leBytes_length]
    rw [lengthTable] at ih
    rw [ih, length_cons]
    omega

section Encode

variable {f : ClientInfo} (fits : f.Fits)

include fits

theorem encode_drop :
    f.encode.drop 22 = f.fields.flatMap (terminated (textWidth f.flags)) ++ f.extra := by
  have front : (f.header ++ (leBytes 4 f.flags.toNat ++ lengthTable f.fields)).length = 22 := by
    rw [length_append, length_append, fits.header, leBytes_length, lengthTable_length]
    rfl
  rw [encode, ← append_assoc (leBytes _ _), ← append_assoc, ← front, drop_left]

theorem infoFlags_encode : infoFlags f.encode = f.flags := by
  have there : part f.encode 8 4 = leBytes 4 f.flags.toNat := by
    rw [encode, show 8 = f.header.length + 0 by rw [fits.header], part_append_right,
      part_append_left _ (by rw [leBytes_length])]
    exact take_of_length_le (by rw [drop_zero, leBytes_length])
  have small := f.flags.toNat_lt
  rw [infoFlags, there, leNat_leBytes, mod_eq_of_lt (by simpa using small), UInt32.ofNat_toNat]

theorem fieldLength_encode {i : Nat} (inside : i < f.fields.length) :
    fieldLength f.encode i = (f.fields[i]).length := by
  have front : (f.header ++ leBytes 4 f.flags.toNat).length = 12 := by
    rw [length_append, fits.header, leBytes_length]
  have small := fits.lengths _ (getElem_mem inside)
  rw [fieldLength, encode, ← append_assoc, ← front, part_append_right,
    part_append_left _ (by rw [lengthTable_length]; omega), part_lengthTable _ _ inside,
    leNat_leBytes, mod_eq_of_lt (by simpa using small)]

theorem laid_encode : Laid f.encode (textWidth f.flags) fieldNumbers 22 f.fields where
  lengths := by
    refine ext_getElem rfl fun i here _ => ?_
    rw [length_map] at here
    rw [getElem_map, getElem_map, ← fieldLength_encode fits here]
    congr 1
    exact (getElem_range (n := 5) here).symm
  whole := fits.whole
  bytes := ⟨f.extra, (encode_drop fits).symm⟩

theorem encode_length_ge : 22 ≤ f.encode.length := by
  simp only [encode, length_append, fits.header, leBytes_length, lengthTable_length, fields,
    length_cons, length_nil]
  omega

theorem walk_encode : walk f.encode = some f := by
  have walked := walkFields_of_laid () () (laid_encode fits)
  have front : f.encode.take 8 = f.header := by rw [encode, ← fits.header, take_left]
  have back : f.encode.drop (22 + (f.fields.flatMap (terminated (textWidth f.flags))).length) =
      f.extra := by
    rw [← drop_drop, encode_drop fits, drop_left]
  rw [walk, if_neg (not_lt.mpr (encode_length_ge fits)), infoFlags_encode fits, walked]
  simp only [fields, placed, front] at back ⊢
  rw [back]

theorem validateClientInfo_encode (tls : leNat (f.header.take 4) = 0x40) :
    validateClientInfo f.encode = .ok () := by
  have front : part f.encode 0 4 = f.header.take 4 := by
    rw [encode, part_append_left _ (by rw [fits.header]; decide)]
    rfl
  rw [validateClientInfo, front, if_neg (by have := encode_length_ge fits; omega),
    infoFlags_encode fits, walkFields_of_laid _ _ (laid_encode fits)]

end Encode

private theorem leBytes_part (info : Bytes) {off n : Nat} (inside : off + n ≤ info.length) :
    leBytes n (leNat (part info off n)) = part info off n := by
  have exact := leBytes_leNat (part info off n)
  rwa [part_length inside] at exact

variable {info : Bytes}

theorem infoFlags_bytes (long : 22 ≤ info.length) :
    leBytes 4 (infoFlags info).toNat = part info 8 4 := by
  have size : (part info 8 4).length = 4 := part_length (by omega)
  have small := leNat_lt (part info 8 4)
  rw [size] at small
  rw [infoFlags, UInt32.toNat_ofNat', mod_eq_of_lt (by simpa using small),
    leBytes_part info (by omega)]

theorem lengthTable_of_laid {width : Nat} {texts : List Bytes} (long : 22 ≤ info.length)
    (laid : Laid info width fieldNumbers 22 texts) :
    lengthTable texts = part info 12 10 := by
  have entries : lengthTable texts =
      (fieldNumbers.map (fieldLength info)).flatMap (leBytes 2) := by
    rw [← laid.lengths, flatMap_map]
    rfl
  have entry : ∀ i, i < 5 → leBytes 2 (fieldLength info i) = part info (12 + 2 * i) 2 :=
    fun i small => leBytes_part info (by omega)
  rw [entries, show fieldNumbers = [0, 1, 2, 3, 4] from rfl]
  simp only [map_cons, map_nil, flatMap_cons, flatMap_nil]
  rw [entry 0 (by decide), entry 1 (by decide), entry 2 (by decide), entry 3 (by decide),
    entry 4 (by decide), append_nil, part_append_part, part_append_part, part_append_part,
    part_append_part]

/-- Whatever can be walked is the encoding of what the walk finds. -/
theorem encode_of_walk {f : ClientInfo} (found : walk info = some f) :
    f.encode = info ∧ f.Fits ∧ f.flags = infoFlags info ∧
      walkFields () () info (textWidth f.flags) fieldNumbers 22 =
        .ok (placed (textWidth f.flags) 22 f.fields,
          22 + (f.fields.flatMap (terminated (textWidth f.flags))).length) := by
  rw [walk] at found
  split at found
  · cases found
  rename_i long
  split at found
  next domain userName password shell directory finish walked =>
    cases found
    obtain ⟨texts, laid, items, rfl⟩ := walkFields_eq_ok.mp walked
    have same : texts = [domain.2, userName.2, password.2, shell.2, directory.2] := by
      rw [← placed_map_snd (textWidth (infoFlags info)) 22 texts, ← items]
      rfl
    subst same
    rw [not_lt] at long
    refine ⟨?_, ?_, rfl, walked.trans (by rw [items]; rfl)⟩
    · have tail := prefix_iff_eq_append.mp laid.bytes
      rw [drop_drop] at tail
      simp only [encode, fields, infoFlags_bytes long]
      rw [lengthTable_of_laid long laid, tail]
      have front : info.take 8 = part info 0 8 := rfl
      have back : info.drop 22 = part info 22 (info.length - 22) :=
        (take_of_length_le (by rw [length_drop])).symm
      rw [front, back, part_append_part, part_append_part, part_append_part, part, drop_zero]
      exact take_of_length_le (by omega)
    · refine ⟨by simp only [length_take]; omega, fun field member => ?_, laid.whole⟩
      have listed : field.length ∈ fieldNumbers.map (fieldLength info) :=
        laid.lengths ▸ mem_map_of_mem member
      obtain ⟨number, member, size⟩ := mem_map.mp listed
      have small : number < 5 := mem_range.mp member
      have bound := leNat_lt (part info (12 + 2 * number) 2)
      rw [part_length (by omega)] at bound
      rw [← size]
      exact bound
  · cases found

end ClientInfo

end Gokvm.Rdp
