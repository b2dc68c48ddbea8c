import Gokvm.Lib.Bytes

/-! # Text in byte strings

A byte string is read as text from the front. A byte at which no character starts is one
invalid element of the text, and stands for the replacement character. Writing the text
again gives the same bytes exactly when there was no such byte.
-/

namespace Gokvm.Lib.Utf8

open List

/-- The character at the start of a byte string. -/
def first (bs : Bytes) : Option Char := bs.toByteArray.utf8DecodeChar? 0

/-- The characters of a byte string, with none for each invalid byte; at most `fuel` of them. -/
def runesFrom : (fuel : Nat) → Bytes → List (Option Char)
  | 0, _ => []
  | _ + 1, [] => []
  | fuel + 1, b :: rest =>
    match first (b :: rest) with
    | some c => some c :: runesFrom fuel ((b :: rest).drop c.utf8Size)
    | none => none :: runesFrom fuel rest

def runes (bs : Bytes) : List (Option Char) := runesFrom bs.length bs

def replacement : Char := Char.ofNat 0xfffd

def text (bs : Bytes) : List Char := (runes bs).map fun c => c.getD replacement

def encode (cs : List Char) : Bytes := cs.flatMap String.utf8EncodeChar

/-- Writing the text of a byte string again. -/
def coerce (bs : Bytes) : Bytes := encode (text bs)

/-- Every byte belongs to a character. -/
def valid (bs : Bytes) : Bool := (runes bs).all Option.isSome

theorem first_encode (c : Char) (rest : Bytes) : first (String.utf8EncodeChar c ++ rest) = some c := by
  rw [first, toByteArray_append]
  exact ByteArray.utf8DecodeChar?_utf8EncodeChar_append

theorem eq_of_first {bs : Bytes} {c : Char} (found : first bs = some c) :
    bs = String.utf8EncodeChar c ++ bs.drop c.utf8Size := by
  obtain ⟨rest, split⟩ := ByteArray.exists_of_utf8DecodeChar?_eq_some found
  have bytes : bs = String.utf8EncodeChar c ++ rest.data.toList := by
    have lists := congrArg (fun array : ByteArray => array.data.toList) split
    simpa only [ByteArray.data_append, Array.toList_append, toList_data_toByteArray] using lists
  rw [bytes, ← String.length_utf8EncodeChar c, drop_left]

theorem encode_ne_nil (c : Char) : String.utf8EncodeChar c ≠ [] := by
  have pos := c.utf8Size_pos
  rw [← String.length_utf8EncodeChar] at pos
  exact ne_nil_of_length_pos pos

/-- Enough fuel reads the whole byte string. -/
theorem runesFrom_eq {fuel fuel' : Nat} {bs : Bytes} (enough : bs.length ≤ fuel) (enough' : bs.length ≤ fuel') :
    runesFrom fuel bs = runesFrom fuel' bs := by
  induction fuel generalizing fuel' bs with
  | zero =>
    rw [length_eq_zero_iff.mp (Nat.le_zero.mp enough)]
    cases fuel' <;> rfl
  | succ fuel ih =>
    cases bs with
    | nil => cases fuel' <;> rfl
    | cons b rest =>
      cases fuel' with
      | zero => cases enough'
      | succ fuel' =>
        rw [length_cons] at enough enough'
        rw [runesFrom, runesFrom]
        cases first (b :: rest) with
        | none => exact congrArg (none :: ·) (ih (by omega) (by omega))
        | some c =>
          have pos := c.utf8Size_pos
          have shorter : ((b :: rest).drop c.utf8Size).length ≤ rest.length := by
            rw [length_drop, length_cons]
            omega
          exact congrArg (some c :: ·) (ih (by omega) (by omega))

theorem runes_encode (c : Char) (rest : Bytes) :
    runes (String.utf8EncodeChar c ++ rest) = some c :: runes rest := by
  have found := first_encode c rest
  have size := String.length_utf8EncodeChar c
  cases bytes : String.utf8EncodeChar c ++ rest with
  | nil => exact absurd (append_eq_nil_iff.mp bytes).1 (encode_ne_nil c)
  | cons b more =>
    rw [bytes] at found
    have rest_eq : (b :: more).drop c.utf8Size = rest := by
      rw [← bytes, ← size, drop_left]
    have short : rest.length ≤ more.length := by
      have lengths := congrArg length bytes
      have pos := c.utf8Size_pos
      rw [length_append, size, length_cons] at lengths
      omega
    rw [runes, length_cons, runesFrom, found]
    dsimp only
    rw [rest_eq]
    exact congrArg (some c :: ·) (runesFrom_eq short le_rfl)

theorem runes_invalid {b : UInt8} {rest : Bytes} (bad : first (b :: rest) = none) :
    runes (b :: rest) = none :: runes rest := by
  rw [runes, length_cons, runesFrom, bad]
  rfl

/-- Reading a byte string one element at a time. -/
theorem runes_induction {motive : Bytes → Prop} (nil : motive [])
    (char : ∀ c rest, motive rest → motive (String.utf8EncodeChar c ++ rest))
    (invalid : ∀ b rest, first (b :: rest) = none → motive rest → motive (b :: rest)) (bs : Bytes) :
    motive bs := by
  induction size : bs.length using Nat.strong_induction_on generalizing bs with
  | _ n ih =>
    cases bs with
    | nil => exact nil
    | cons b rest =>
      rw [length_cons] at size
      cases found : first (b :: rest) with
      | none => exact invalid b rest found (ih rest.length (by omega) rest rfl)
      | some c =>
        have pos := c.utf8Size_pos
        rw [eq_of_first found]
        refine char c _ (ih _ ?_ _ rfl)
        rw [length_drop, length_cons]
        omega

@[simp] theorem encode_cons (c : Char) (cs : List Char) :
    encode (c :: cs) = String.utf8EncodeChar c ++ encode cs := rfl

theorem runes_encode_text (cs : List Char) : runes (encode cs) = cs.map some := by
  induction cs with
  | nil => rfl
  | cons c cs ih => rw [encode_cons, runes_encode, ih, map_cons]

theorem coerce_of_valid {bs : Bytes} (isValid : valid bs = true) : coerce bs = bs := by
  induction bs using runes_induction with
  | nil => rfl
  | char c rest ih =>
    rw [valid, runes_encode, all_cons, Bool.and_eq_true] at isValid
    rw [coerce, text, runes_encode, map_cons, encode_cons]
    exact congrArg _ (ih isValid.2)
  | invalid b rest bad ih =>
    rw [valid, runes_invalid bad, all_cons] at isValid
    cases isValid

theorem coerce_eq_self {bs : Bytes} : coerce bs = bs ↔ valid bs = true := by
  refine ⟨fun same => ?_, coerce_of_valid⟩
  rw [← same, valid, coerce, runes_encode_text, all_map, all_eq_true]
  intro c _
  rfl

end Gokvm.Lib.Utf8
