import Gokvm.Lib.Bytes

/-! # Parsers with checked accesses

A parser reads a byte string by position and may refuse it; an access outside the string, or a
loop with more rounds than bytes, is a fault of the parser. `Safe` is the weakest precondition of
a parser without faults; its rules peel a parser apart one access at a time.
-/

namespace Gokvm.Lib

/-- Why a parser stopped early. -/
inductive Stop (ε : Type) where
  | refused (reason : ε)
  | panic
  | stuck
deriving DecidableEq

abbrev Checked (ε α : Type) := Except (Stop ε) α

namespace Checked

variable {ε α β σ : Type}

def refuse (reason : ε) : Checked ε α := .error (.refused reason)

def index (p : Bytes) (i : Int) : Checked ε UInt8 :=
  if 0 ≤ i ∧ i < p.length then .ok (p.getD i.toNat 0) else .error .panic

def slice (p : Bytes) (a b : Int) : Checked ε Bytes :=
  if 0 ≤ a ∧ a ≤ b ∧ b ≤ p.length then .ok (part p a.toNat (b - a).toNat) else .error .panic

def sliceFrom (p : Bytes) (a : Int) : Checked ε Bytes := slice p a p.length

/-- The number in the first `width` bytes, least significant first. -/
def little (width : Nat) (p : Bytes) : Checked ε Nat :=
  if width ≤ p.length then .ok (leNat (p.take width)) else .error .panic

/-- A refusal as a value. -/
def attempt (m : Checked ε α) : Checked ε (Option α) :=
  match m with
  | .ok a => .ok (some a)
  | .error (.refused _) => .ok none
  | .error .panic => .error .panic
  | .error .stuck => .error .stuck

/-- Repeats `body` while there is more to do. -/
def loopWhile (more : σ → Bool) (body : σ → Checked ε σ) : Nat → σ → Checked ε σ
  | 0, s => if more s then .error .stuck else .ok s
  | fuel + 1, s => if more s then body s >>= loopWhile more body fuel else .ok s

/-- Runs `body` a given number of times. -/
def times (body : Nat → σ → Checked ε σ) : (count : Nat) → σ → Checked ε σ
  | 0, s => .ok s
  | count + 1, s => times body count s >>= body count

/-! ## Results -/

variable {m : Checked ε α} {c : Prop} {reason : ε} {p : Bytes} {a : Int} {width : Nat} {Q : α → Prop}

theorem bind_eq_ok {f : α → Checked ε β} {b : β} (ran : m >>= f = .ok b) :
    ∃ a, m = .ok a ∧ f a = .ok b := by
  cases m with
  | ok a => exact ⟨a, rfl, ran⟩
  | error stop => cases ran

theorem guard_eq_ok [Decidable c] {a : α} (ran : (if c then refuse reason else m) = .ok a) : ¬ c ∧ m = .ok a := by
  split at ran
  · cases ran
  next fails => exact ⟨fails, ran⟩

theorem slice_eq_ok {s : Bytes} {b : Int} (ran : (slice p a b : Checked ε Bytes) = .ok s) :
    0 ≤ a ∧ a ≤ b ∧ b ≤ p.length ∧ s = part p a.toNat (b - a).toNat := by
  unfold slice at ran
  split at ran
  next inside => exact ⟨inside.1, inside.2.1, inside.2.2, (Except.ok.inj ran).symm⟩
  · cases ran

theorem little_eq_ok {n : Nat} (ran : (little width p : Checked ε Nat) = .ok n) :
    width ≤ p.length ∧ n = leNat (p.take width) := by
  unfold little at ran
  split at ran
  next long => exact ⟨long, (Except.ok.inj ran).symm⟩
  · cases ran

theorem index_eq_ok {i : Int} {b : UInt8} (ran : (index p i : Checked ε UInt8) = .ok b) :
    b = p.getD i.toNat 0 := by
  unfold index at ran
  split at ran
  · exact (Except.ok.inj ran).symm
  · cases ran

theorem field_eq_ok (a width : Nat) {f : Nat → Checked ε α} {result : α}
    (ran : (slice p a (a + width : Nat) >>= fun s => little width s >>= f) = .ok result) :
    f (leNat (part p a width)) = .ok result := by
  obtain ⟨field, sliced, ran⟩ := bind_eq_ok ran
  obtain ⟨n, loaded, ran⟩ := bind_eq_ok ran
  obtain ⟨-, -, inside, rfl⟩ := slice_eq_ok sliced
  obtain ⟨-, rfl⟩ := little_eq_ok loaded
  have size : ((a + width : Nat) - (a : Int)).toNat = width := by omega
  rwa [size, Int.toNat_natCast, List.take_of_length_le] at ran
  rw [part_length (by omega)]

/-! ## No faults -/

/-- Returns a value with the property, or refuses. -/
def Safe (m : Checked ε α) (Q : α → Prop) : Prop :=
  match m with
  | .ok a => Q a
  | .error (.refused _) => True
  | .error .panic => False
  | .error .stuck => False

def Total (m : Checked ε α) : Prop := (∃ a, m = .ok a) ∨ ∃ reason, m = refuse reason

theorem Safe.outcome (safe : Safe m Q) : (∃ a, m = .ok a ∧ Q a) ∨ ∃ reason, m = refuse reason := by
  cases m with
  | ok a => exact Or.inl ⟨a, rfl, safe⟩
  | error stop =>
    cases stop with
    | refused reason => exact Or.inr ⟨reason, rfl⟩
    | panic | stuck => exact safe.elim

theorem Safe.total (safe : Safe m Q) : Total m := by
  rcases safe.outcome with ⟨a, same, _⟩ | refused
  · exact Or.inl ⟨a, same⟩
  · exact Or.inr refused

theorem Safe.mono {R : α → Prop} (safe : Safe m Q) (weaker : ∀ a, Q a → R a) :
    Safe m R := by
  rcases safe.outcome with ⟨a, rfl, holds⟩ | ⟨reason, rfl⟩
  · exact weaker a holds
  · trivial

theorem Safe.with_eq (safe : Safe m Q) :
    Safe m fun a => Q a ∧ m = .ok a := by
  rcases safe.outcome with ⟨a, rfl, holds⟩ | ⟨reason, rfl⟩
  · exact ⟨holds, rfl⟩
  · trivial

theorem safe_pure {a : α} (holds : Q a) : Safe (pure a : Checked ε α) Q := holds

theorem safe_refuse : Safe (refuse reason) Q := trivial

theorem Safe.bind {f : α → Checked ε β} {P : α → Prop} {Q : β → Prop} (head : Safe m P)
    (tail : ∀ a, P a → Safe (f a) Q) : Safe (m >>= f) Q := by
  rcases head.outcome with ⟨a, rfl, holds⟩ | ⟨reason, rfl⟩
  · exact tail a holds
  · trivial

theorem safe_ite [Decidable c] {n : Checked ε α} (yes : c → Safe m Q) (no : ¬ c → Safe n Q) : Safe (if c then m else n) Q := by
  split
  next holds => exact yes holds
  next fails => exact no fails

theorem safe_guard [Decidable c] (rest : ¬ c → Safe m Q) : Safe (if c then refuse reason else m) Q :=
  safe_ite (fun _ => safe_refuse) rest

theorem safe_index {i : Int} (inside : 0 ≤ i ∧ i < p.length) : Safe (index p i : Checked ε UInt8) fun _ => True := by
  rw [index, if_pos inside]
  trivial

theorem safe_slice {b : Int} (inside : 0 ≤ a ∧ a ≤ b ∧ b ≤ p.length) :
    Safe (slice p a b : Checked ε Bytes) fun s => (s.length : Int) = b - a := by
  rw [slice, if_pos inside]
  show ((part p a.toNat (b - a).toNat).length : Int) = b - a
  rw [part_length (by omega)]
  omega

theorem safe_sliceFrom (inside : 0 ≤ a ∧ a ≤ p.length) :
    Safe (sliceFrom p a : Checked ε Bytes) fun s => (s.length : Int) = p.length - a :=
  safe_slice ⟨inside.1, inside.2, le_rfl⟩

theorem safe_little (inside : width ≤ p.length) :
    Safe (little width p : Checked ε Nat) fun n => n < 256 ^ width := by
  rw [little, if_pos inside]
  have bound := leNat_lt (p.take width)
  rwa [List.length_take, Nat.min_eq_left inside] at bound

theorem safe_field {b : Int} {f : Nat → Checked ε β} {R : β → Prop}
    (inside : 0 ≤ a ∧ a + width ≤ b ∧ b ≤ p.length) (rest : ∀ n, Safe (f n) R) :
    Safe (slice p a b >>= fun s => little width s >>= f) R := by
  refine (safe_slice (by omega)).bind fun s length => ?_
  exact (safe_little (by omega)).bind fun n _ => rest n

theorem safe_attempt (safe : Safe m Q) :
    Safe (attempt m) fun result => ∀ a, result = some a → Q a := by
  rcases safe.outcome with ⟨a, rfl, holds⟩ | ⟨reason, rfl⟩
  · intro b same
    exact Option.some.inj same ▸ holds
  · exact nofun

/-- Loop rule: the rounds keep an invariant and shorten what is left to do. -/
theorem safe_loopWhile {more : σ → Bool} {body : σ → Checked ε σ} {I : σ → Prop} (left : σ → Nat)
    (some : ∀ s, I s → more s = true → 0 < left s)
    (round : ∀ s, I s → more s = true → Safe (body s) fun s' => I s' ∧ left s' < left s) :
    ∀ fuel s, I s → left s ≤ fuel → Safe (loopWhile more body fuel s) I := by
  intro fuel
  induction fuel with
  | zero =>
    intro s inv enough
    unfold loopWhile
    rw [if_neg]
    · exact inv
    · intro again
      have := some s inv again
      omega
  | succ fuel ih =>
    intro s inv enough
    unfold loopWhile
    by_cases again : more s = true
    · rw [if_pos again]
      refine (round s inv again).bind fun s' next => ih s' next.1 (by omega)
    · rw [if_neg again]
      exact inv

theorem safe_times {body : Nat → σ → Checked ε σ} {I : σ → Prop} {count : Nat}
    (round : ∀ i s, i < count → I s → Safe (body i s) I) (s : σ) (start : I s) :
    Safe (times body count s) I := by
  induction count with
  | zero => exact start
  | succ count ih =>
    refine (ih fun i s below => round i s (by omega)).bind fun s' inv => ?_
    exact round count s' (by omega) inv

end Checked

end Gokvm.Lib
