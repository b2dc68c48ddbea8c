import Gokvm.Lib.Utf8

/-! # JSON string literals

A byte string is written as the text between the quotes of a JSON string, and read back. The
writer escapes what could end the literal or a surrounding HTML script, and writes the
replacement character for an invalid byte; the reader accepts every escape of JSON. Reading
what was written therefore gives the text of the byte string, not its bytes.
-/

namespace Gokvm.Lib.JsonString

open Utf8 List Option UInt8

def backslash : UInt8 := 0x5c

def quoteMark : UInt8 := 0x22

def hexDigit (n : Nat) : UInt8 := if n < 10 then ofNat (0x30 + n) else ofNat (0x57 + n)

def hexValue (b : UInt8) : Option Nat :=
  if 0x30 ≤ b ∧ b ≤ 0x39 then some (b.toNat - 0x30)
  else if 0x61 ≤ b ∧ b ≤ 0x66 then some (b.toNat - 0x57)
  else if 0x41 ≤ b ∧ b ≤ 0x46 then some (b.toNat - 0x37)
  else none

/-- An escape with four digits, for a number below 2^16. -/
def escapeUnit (n : Nat) : Bytes :=
  [backslash, 0x75, hexDigit (n / 4096 % 16), hexDigit (n / 256 % 16), hexDigit (n / 16 % 16), hexDigit (n % 16)]

def shortEscape (n : Nat) : Option UInt8 :=
  if n = 0x5c then some 0x5c
  else if n = 0x22 then some 0x22
  else if n = 0x08 then some 0x62
  else if n = 0x0c then some 0x66
  else if n = 0x0a then some 0x6e
  else if n = 0x0d then some 0x72
  else if n = 0x09 then some 0x74
  else none

def shortValue (b : UInt8) : Option UInt8 :=
  if b = 0x22 ∨ b = 0x5c ∨ b = 0x2f ∨ b = 0x27 then some b
  else if b = 0x62 then some 0x08
  else if b = 0x66 then some 0x0c
  else if b = 0x6e then some 0x0a
  else if b = 0x72 then some 0x0d
  else if b = 0x74 then some 0x09
  else none

/-- Written without an escape: printable, and not a quote, a backslash or one of `<`, `>`
    and `&`. -/
def safe (n : Nat) : Bool := 0x20 ≤ n && n ≠ 0x22 && n ≠ 0x26 && n ≠ 0x3c && n ≠ 0x3e && n ≠ 0x5c

/-- One element of a text, in a literal. -/
def quoteRune : Option Char → Bytes
  | none => escapeUnit 0xfffd
  | some c =>
    if c.toNat < 0x80 then
      if safe c.toNat then [ofNat c.toNat]
      else match shortEscape c.toNat with
        | some letter => [backslash, letter]
        | none => escapeUnit c.toNat
    else if c.toNat = 0x2028 ∨ c.toNat = 0x2029 then escapeUnit c.toNat
    else String.utf8EncodeChar c

/-- The text between the quotes. -/
def quote (bs : Bytes) : Bytes := (runes bs).flatMap quoteRune

def unit : Bytes → Option Nat
  | a :: b :: c :: d :: _ => do
    let a ← hexValue a
    let b ← hexValue b
    let c ← hexValue c
    let d ← hexValue d
    some (a * 4096 + b * 256 + c * 16 + d)
  | _ => none

/-- The second half of a surrogate pair, as a whole escape. -/
def lowSurrogate : Bytes → Option Nat
  | a :: b :: rest =>
    if a = backslash ∧ b = 0x75 then
      (unit rest).filter fun n => 0xdc00 ≤ n && n < 0xe000
    else none
  | _ => none

/-- An escape of a number: the character, and how many bytes after its digits belong to it. -/
def unescapeUnit (n : Nat) (rest : Bytes) : Char × Nat :=
  if 0xd800 ≤ n ∧ n < 0xe000 then
    match lowSurrogate rest with
    | some low =>
      if n < 0xdc00 then (Char.ofNat (0x10000 + (n - 0xd800) * 0x400 + (low - 0xdc00)), 6) else (replacement, 0)
    | none => (replacement, 0)
  else (Char.ofNat n, 0)

/-- What follows a backslash: the bytes it stands for, and how many the whole escape takes. -/
def escaped : Bytes → Option (Bytes × Nat)
  | [] => none
  | letter :: digits =>
    match shortValue letter with
    | some value => some ([value], 2)
    | none =>
      if letter = 0x75 then do
        let n ← unit digits
        let (c, more) := unescapeUnit n (digits.drop 4)
        some (String.utf8EncodeChar c, 6 + more)
      else none

/-- The first element of a literal: the bytes it stands for, and how many it takes. -/
def element : Bytes → Option (Bytes × Nat)
  | [] => none
  | b :: rest =>
    if b = backslash then escaped rest
    else if b = quoteMark ∨ b < 0x20 then none
    else if b < 0x80 then some ([b], 1)
    else
      match first (b :: rest) with
      | some c => some (String.utf8EncodeChar c, c.utf8Size)
      | none => some (String.utf8EncodeChar replacement, 1)

def unquoteFrom : (fuel : Nat) → Bytes → Option Bytes
  | _, [] => some []
  | 0, _ :: _ => none
  | fuel + 1, b :: rest => do
    let (value, size) ← element (b :: rest)
    let more ← unquoteFrom fuel ((b :: rest).drop size)
    some (value ++ more)

/-- Read the text between the quotes. -/
def unquote (bs : Bytes) : Option Bytes := unquoteFrom bs.length bs

variable {n : Nat} {c : Char} {bs : Bytes}

theorem hexValue_hexDigit (small : n < 16) : hexValue (hexDigit n) = some n := by
  have all : ∀ m : Fin 16, hexValue (hexDigit m) = some m.1 := by decide
  exact all ⟨n, small⟩

theorem unit_escape (small : n < 0x10000) (rest : Bytes) :
    unit ((escapeUnit n).drop 2 ++ rest) = some n := by
  simp only [escapeUnit, drop_succ_cons, drop_zero, cons_append, nil_append, unit,
    hexValue_hexDigit (Nat.mod_lt _ (by decide : 16 > 0)), bind_eq_bind, bind_some, some.injEq]
  omega

/-- A number that is no surrogate is read back from its escape. -/
theorem element_escape (small : n < 0xd800 ∨ 0xe000 ≤ n ∧ n < 0x10000) (rest : Bytes) :
    element (escapeUnit n ++ rest) = some (String.utf8EncodeChar (Char.ofNat n), 6) := by
  have digits := unit_escape (n := n) (by omega) rest
  have plain : unescapeUnit n (((escapeUnit n).drop 2 ++ rest).drop 4) = (Char.ofNat n, 0) := by
    rw [unescapeUnit, if_neg (by omega)]
  have shape : escapeUnit n ++ rest = backslash :: 0x75 :: ((escapeUnit n).drop 2 ++ rest) := rfl
  have long : shortValue 0x75 = none := by decide
  rw [shape, element, if_pos rfl, escaped, long]
  simp only [if_true, digits, bind_eq_bind, bind_some, plain]

theorem encode_ascii (ascii : c.toNat < 0x80) : String.utf8EncodeChar c = [ofNat c.toNat] := by
  have all : ∀ n : Fin 0x80, String.utf8EncodeChar (Char.ofNat n) = [ofNat n.1] := by decide
  have here := all ⟨c.toNat, ascii⟩
  rwa [Char.ofNat_toNat] at here

/-- A character past ASCII does not start with an ASCII byte. -/
theorem head_encode (long : 0x80 ≤ c.toNat) {b : UInt8} {rest : Bytes}
    (head : String.utf8EncodeChar c = b :: rest) : 0x80 ≤ b := by
  by_contra low
  have small : b.toNat < 0x80 := UInt8.lt_iff_toNat_lt.mp (UInt8.not_le.mp low)
  have number : (Char.ofNat b.toNat).toNat = b.toNat := by
    have all : ∀ n : Fin 0x80, (Char.ofNat n).toNat = n.1 := by decide
    exact all ⟨b.toNat, small⟩
  have single := encode_ascii (c := Char.ofNat b.toNat) (by omega)
  rw [number, UInt8.ofNat_toNat] at single
  have found := first_encode c []
  have found' := first_encode (Char.ofNat b.toNat) rest
  rw [append_nil, head] at found
  rw [single, singleton_append, found, some.injEq] at found'
  rw [found'] at long
  omega

theorem element_raw (long : 0x80 ≤ c.toNat) (rest : Bytes) :
    element (String.utf8EncodeChar c ++ rest) = some (String.utf8EncodeChar c, (String.utf8EncodeChar c).length) := by
  have found := first_encode c rest
  cases head : String.utf8EncodeChar c with
  | nil => exact absurd head (encode_ne_nil c)
  | cons b tail =>
    have high := head_encode long head
    rw [head, cons_append] at found
    have notBackslash : b ≠ backslash := by
      rintro rfl
      exact absurd high (by decide)
    have notEnd : ¬ (b = quoteMark ∨ b < 0x20) := by
      rintro (rfl | control)
      · exact absurd high (by decide)
      · exact absurd (UInt8.lt_of_le_of_lt high control) (by decide)
    rw [cons_append, element, if_neg notBackslash, if_neg notEnd, if_neg (UInt8.not_lt.mpr high), found,
      ← head, String.length_utf8EncodeChar]

theorem element_short {letter : UInt8} (short : shortEscape n = some letter) (rest : Bytes) :
    element (backslash :: letter :: rest) = some ([ofNat n], 2) := by
  have value : shortValue letter = some (ofNat n) := by
    rw [shortEscape] at short
    split_ifs at short with h1 h2 h3 h4 h5 h6 h7 <;> cases short <;> subst n <;> rfl
  rw [element, if_pos rfl, escaped, value]

theorem element_safe (ascii : n < 0x80) (isSafe : safe n = true) (rest : Bytes) :
    element (ofNat n :: rest) = some ([ofNat n], 1) := by
  have all : ∀ m : Fin 0x80, safe m = true → ofNat m.1 ≠ backslash ∧
      ¬ (ofNat m.1 = quoteMark ∨ ofNat m.1 < 0x20) ∧ ofNat m.1 < 0x80 := by decide
  obtain ⟨notBackslash, notEnd, low⟩ := all ⟨n, ascii⟩ isSafe
  rw [element, if_neg notBackslash, if_neg notEnd, if_pos low]

/-- Every element of a text is read back as its character. -/
theorem element_quoteRune (rune : Option Char) (rest : Bytes) :
    element (quoteRune rune ++ rest) =
      some (String.utf8EncodeChar (rune.getD replacement), (quoteRune rune).length) := by
  cases rune with
  | none => exact element_escape (by decide) rest
  | some c =>
    have same : Char.ofNat c.toNat = c := Char.ofNat_toNat c
    simp only [quoteRune, getD_some]
    split
    next ascii =>
      rw [encode_ascii ascii]
      split
      next isSafe => exact element_safe ascii isSafe rest
      · split
        next letter short => exact element_short short rest
        · have escaped := element_escape (n := c.toNat) (by omega) rest
          rw [same, encode_ascii ascii] at escaped
          exact escaped
    next long =>
      split
      next separator =>
        have escaped := element_escape (n := c.toNat) (by omega) rest
        rw [same] at escaped
        exact escaped
      · exact element_raw (not_lt.mp long) rest

theorem escaped_pos {value : Bytes} {size : Nat} (read : escaped bs = some (value, size)) : 0 < size := by
  cases bs with
  | nil => cases read
  | cons letter digits =>
    rw [escaped] at read
    split at read
    · cases read
      decide
    · split at read
      · cases number : unit digits with
        | none =>
          rw [number] at read
          cases read
        | some n =>
          rw [number] at read
          simp only [bind_eq_bind, bind_some, some.injEq, Prod.mk.injEq] at read
          omega
      · cases read

theorem element_pos {value : Bytes} {size : Nat} (read : element bs = some (value, size)) : 0 < size := by
  cases bs with
  | nil => cases read
  | cons b rest =>
    rw [element] at read
    split_ifs at read
    · exact escaped_pos read
    · cases read
      decide
    · split at read
      next c _ =>
        cases read
        exact c.utf8Size_pos
      · cases read
        decide

/-- Enough fuel reads the whole literal. -/
theorem unquoteFrom_eq {fuel fuel' : Nat} (enough : bs.length ≤ fuel) (enough' : bs.length ≤ fuel') :
    unquoteFrom fuel bs = unquoteFrom fuel' bs := by
  induction fuel generalizing fuel' bs with
  | zero =>
    rw [length_eq_zero_iff.mp (Nat.le_zero.mp enough)]
    cases fuel' <;> rfl
  | succ fuel ih =>
    cases bs with
    | nil => cases fuel' <;> rfl
    | cons b rest =>
      cases fuel' with
      | zero => cases enough'
      | succ fuel' =>
        rw [length_cons] at enough enough'
        rw [unquoteFrom, unquoteFrom]
        cases read : element (b :: rest) with
        | none => rfl
        | some pair =>
          obtain ⟨value, size⟩ := pair
          have pos := element_pos read
          have shorter : ((b :: rest).drop size).length ≤ rest.length := by
            rw [length_drop, length_cons]
            omega
          have rest_eq : unquoteFrom fuel ((b :: rest).drop size) = unquoteFrom fuel' ((b :: rest).drop size) :=
            ih (by omega) (by omega)
          simp only [bind_eq_bind, bind_some]
          rw [rest_eq]

theorem quoteRune_ne_nil (rune : Option Char) : quoteRune rune ≠ [] := by
  intro empty
  have read := element_pos (element_quoteRune rune [])
  rw [empty] at read
  cases read

theorem unquote_append (rune : Option Char) (rest : Bytes) :
    unquote (quoteRune rune ++ rest) =
      (unquote rest).map (String.utf8EncodeChar (rune.getD replacement) ++ ·) := by
  have read := element_quoteRune rune rest
  cases bytes : quoteRune rune ++ rest with
  | nil => exact absurd (append_eq_nil_iff.mp bytes).1 (quoteRune_ne_nil rune)
  | cons b more =>
    rw [bytes] at read
    have pos := element_pos read
    have rest_eq : (b :: more).drop (quoteRune rune).length = rest := by rw [← bytes, drop_left]
    have short : rest.length ≤ more.length := by
      have lengths := congrArg length bytes
      rw [length_append, length_cons] at lengths
      omega
    rw [unquote, length_cons, unquoteFrom, read]
    simp only [bind_eq_bind, bind_some]
    rw [rest_eq, unquoteFrom_eq short le_rfl, ← unquote]
    cases unquote rest <;> rfl

theorem unquote_quote (bs : Bytes) : unquote (quote bs) = some (coerce bs) := by
  rw [quote, coerce, text]
  induction runes bs with
  | nil => rfl
  | cons rune rest ih => rw [flatMap_cons, unquote_append, ih, map_cons, encode_cons, map_some]

theorem quoteRune_length (rune : Option Char) : (quoteRune rune).length ≤ 6 := by
  cases rune with
  | none => exact le_rfl
  | some c =>
    simp only [quoteRune]
    split
    · split
      · exact Nat.le_of_ble_eq_true rfl
      · split
        · exact Nat.le_of_ble_eq_true rfl
        · exact le_rfl
    · split
      · exact le_rfl
      · rw [String.length_utf8EncodeChar]
        exact c.utf8Size_le_four.trans (by decide)

theorem runes_length (bs : Bytes) : (runes bs).length ≤ bs.length := by
  induction bs using runes_induction with
  | nil => exact le_rfl
  | char c rest ih =>
    have pos := c.utf8Size_pos
    rw [runes_encode, length_cons, length_append, String.length_utf8EncodeChar]
    omega
  | invalid b rest bad ih =>
    rw [runes_invalid bad, length_cons, length_cons]
    omega

theorem quote_length (bs : Bytes) : (quote bs).length ≤ 6 * bs.length := by
  have bound : (quote bs).length ≤ 6 * (runes bs).length := by
    rw [quote]
    induction runes bs with
    | nil => exact le_rfl
    | cons rune rest ih =>
      have one := quoteRune_length rune
      rw [flatMap_cons, length_append, length_cons]
      omega
  have count := runes_length bs
  omega

end Gokvm.Lib.JsonString
