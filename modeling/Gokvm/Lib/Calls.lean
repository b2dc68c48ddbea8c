import Mathlib.Tactic.Basic
import Mathlib.Data.List.Infix

/-! # Programs that call their surroundings

A program is a tree of calls: each names an operation and goes on with what it answers. The
surroundings answer anything that fits and may change between calls; an event records a call, its
moment and its answer. `Guarded` is the predicate transformer: every call that can be reached is
allowed by what was answered before.
-/

namespace Gokvm.Lib

inductive Calls (Op : Type) (Ans : Op → Type) (α : Type) : Type where
  | done (a : α)
  | call (op : Op) (next : Ans op → Calls Op Ans α)

namespace Calls

variable {Op : Type} {Ans : Op → Type} {Moment α β : Type}

def sequence (p : Calls Op Ans α) (f : α → Calls Op Ans β) : Calls Op Ans β :=
  match p with
  | .done a => f a
  | .call op next => .call op fun answer => (next answer).sequence f

instance : Monad (Calls Op Ans) where
  pure := .done
  bind := sequence

def request (op : Op) : Calls Op Ans (Ans op) := .call op .done

structure Event (Op : Type) (Ans : Op → Type) (Moment : Type) where
  op : Op
  moment : Moment
  answer : Ans op

/-- After these events the program calls the operation. -/
inductive Reaches (fits : Event Op Ans Moment → Prop) :
    Calls Op Ans α → List (Event Op Ans Moment) → Op → Prop
  | here (op : Op) (next : Ans op → Calls Op Ans α) : Reaches fits (.call op next) [] op
  | later {op target : Op} {next : Ans op → Calls Op Ans α} {events : List (Event Op Ans Moment)}
      (moment : Moment) (answer : Ans op) (fit : fits ⟨op, moment, answer⟩)
      (rest : Reaches fits (next answer) events target) :
      Reaches fits (.call op next) (⟨op, moment, answer⟩ :: events) target

/-- From this history on, every call is allowed, and the result satisfies `Q`. -/
def Guarded (fits : Event Op Ans Moment → Prop) (allowed : List (Event Op Ans Moment) → Op → Prop) :
    Calls Op Ans α → List (Event Op Ans Moment) → (List (Event Op Ans Moment) → α → Prop) → Prop
  | .done a, history, Q => Q history a
  | .call op next, history, Q =>
    allowed history op ∧ ∀ moment answer, fits ⟨op, moment, answer⟩ →
      Guarded fits allowed (next answer) (history ++ [⟨op, moment, answer⟩]) Q

variable {fits : Event Op Ans Moment → Prop} {allowed : List (Event Op Ans Moment) → Op → Prop}
  {p : Calls Op Ans α} {history events : List (Event Op Ans Moment)}
  {Q R : List (Event Op Ans Moment) → α → Prop}

theorem Guarded.reaches {target : Op} (guarded : Guarded fits allowed p history Q)
    (reaches : Reaches fits p events target) : allowed (history ++ events) target := by
  induction reaches generalizing history with
  | here op next =>
    rw [List.append_nil]
    exact guarded.1
  | later moment answer fit rest ih =>
    have next := ih (guarded.2 moment answer fit)
    rwa [List.append_assoc] at next

theorem Guarded.mono (guarded : Guarded fits allowed p history Q)
    (weaker : ∀ later a, Q later a → R later a) : Guarded fits allowed p history R := by
  induction p generalizing history with
  | done a => exact weaker history a guarded
  | call op next ih =>
    exact ⟨guarded.1, fun moment answer fit => ih answer (guarded.2 moment answer fit)⟩

theorem guarded_pure {a : α} (holds : Q history a) : Guarded fits allowed (pure a) history Q := holds

theorem guarded_request {op : Op} {Q : List (Event Op Ans Moment) → Ans op → Prop}
    (allow : allowed history op)
    (rest : ∀ moment answer, fits ⟨op, moment, answer⟩ → Q (history ++ [⟨op, moment, answer⟩]) answer) :
    Guarded fits allowed (request op) history Q := ⟨allow, rest⟩

theorem Guarded.bind {f : α → Calls Op Ans β} {Q : List (Event Op Ans Moment) → β → Prop}
    (head : Guarded fits allowed p history R)
    (tail : ∀ later a, R later a → Guarded fits allowed (f a) later Q) :
    Guarded fits allowed (p >>= f) history Q := by
  induction p generalizing history with
  | done a => exact tail history a head
  | call op next ih =>
    exact ⟨head.1, fun moment answer fit => ih answer (head.2 moment answer fit)⟩

theorem guarded_call {op : Op} {f : Ans op → Calls Op Ans α} (allow : allowed history op)
    (rest : ∀ moment answer, fits ⟨op, moment, answer⟩ →
      Guarded fits allowed (f answer) (history ++ [⟨op, moment, answer⟩]) Q) :
    Guarded fits allowed (request op >>= f) history Q := ⟨allow, rest⟩

theorem guarded_ite {c : Prop} [Decidable c] {q : Calls Op Ans α}
    (yes : c → Guarded fits allowed p history Q) (no : ¬ c → Guarded fits allowed q history Q) :
    Guarded fits allowed (if c then p else q) history Q := by
  split
  next holds => exact yes holds
  next fails => exact no fails

/-! ## Programs without protected calls -/

/-- Every operation that the program may call is free. -/
def Uses (free : Op → Prop) : Calls Op Ans α → Prop
  | .done _ => True
  | .call op next => free op ∧ ∀ answer, (next answer).Uses free

variable {free : Op → Prop}

theorem uses_pure (a : α) : Uses free (pure a : Calls Op Ans α) := trivial

theorem uses_call {op : Op} {f : Ans op → Calls Op Ans α} (isFree : free op)
    (rest : ∀ answer, Uses free (f answer)) : Uses free (request op >>= f) := ⟨isFree, rest⟩

theorem Uses.bind {f : α → Calls Op Ans β} (head : Uses free p) (tail : ∀ a, Uses free (f a)) :
    Uses free (p >>= f) := by
  induction p with
  | done a => exact tail a
  | call op next ih => exact ⟨head.1, fun answer => ih answer (head.2 answer)⟩

theorem uses_ite {c : Prop} [Decidable c] {q : Calls Op Ans α} (yes : Uses free p) (no : Uses free q) :
    Uses free (if c then p else q) := by
  split
  · exact yes
  · exact no

theorem Uses.guarded (uses : Uses free p) (always : ∀ history op, free op → allowed history op) :
    Guarded fits allowed p history fun later _ => history <+: later := by
  induction p generalizing history with
  | done a => exact List.prefix_rfl
  | call op next ih =>
    refine ⟨always history op uses.1, fun moment answer fit => ?_⟩
    have rest : Guarded fits allowed (next answer) (history ++ [⟨op, moment, answer⟩])
        fun later _ => history ++ [⟨op, moment, answer⟩] <+: later := ih answer (uses.2 answer)
    exact rest.mono fun later _ longer => (List.prefix_append ..).trans longer

end Calls

end Gokvm.Lib
