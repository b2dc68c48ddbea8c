import Mathlib.Tactic

/-! # Programs with state and errors

A program reads and updates a state and either returns a value or fails. The
state survives a failure, as it does in an imperative language whose functions
return an error next to their side effects. `Wp` is the predicate transformer
of such programs; its rules peel a program apart one statement at a time.
-/

namespace Gokvm.Lib

open List

/-- A program over states `σ` that may fail with an error `ε`. -/
def Prog (σ ε α : Type) : Type := σ → Except ε α × σ

namespace Prog

variable {σ ε α β : Type}

instance : Monad (Prog σ ε) where
  pure a := fun s => (.ok a, s)
  bind p f := fun s =>
    match p s with
    | (.ok a, s') => f a s'
    | (.error e, s') => (.error e, s')

def fail (e : ε) : Prog σ ε α := fun s => (.error e, s)

def read : Prog σ ε σ := fun s => (.ok s, s)

def update (f : σ → σ) : Prog σ ε Unit := fun s => (.ok (), f s)

/-- A computation that only reads the state. -/
def query (f : σ → Except ε α) : Prog σ ε α := fun s => (f s, s)

/-- Run a program and hand its error to the caller instead of failing. -/
def attempt (p : Prog σ ε α) : Prog σ ε (Except ε α) := fun s => (.ok (p s).1, (p s).2)

/-- Run `body` on every element, stopping at the first failure. -/
def each (body : α → Prog σ ε Unit) : List α → Prog σ ε Unit
  | [] => pure ()
  | x :: xs => do
    body x
    each body xs

/-- Thread an accumulator through `body`, stopping at the first failure. -/
def fold (body : β → α → Prog σ ε β) : β → List α → Prog σ ε β
  | acc, [] => pure acc
  | acc, x :: xs => do
    let next ← body acc x
    fold body next xs

/-- The result and the final state of `p` from `s` satisfy `Q`. -/
def Wp (p : Prog σ ε α) (s : σ) (Q : Except ε α → σ → Prop) : Prop := Q (p s).1 (p s).2

variable {p : Prog σ ε α} {s : σ} {f : α → Prog σ ε β} {Q : Except ε β → σ → Prop}

theorem Wp.mono {Q R : Except ε α → σ → Prop} (h : Wp p s Q) (weaker : ∀ r s', Q r s' → R r s') : Wp p s R :=
  weaker _ _ h

@[simp] theorem wp_pure {a : α} {Q : Except ε α → σ → Prop} :
    Wp (pure a) s Q ↔ Q (.ok a) s := Iff.rfl

@[simp] theorem wp_fail {e : ε} {Q : Except ε α → σ → Prop} :
    Wp (fail e) s Q ↔ Q (.error e) s := Iff.rfl

@[simp] theorem wp_update {f : σ → σ} {Q : Except ε Unit → σ → Prop} :
    Wp (update f) s Q ↔ Q (.ok ()) (f s) := Iff.rfl

@[simp] theorem wp_query {f : σ → Except ε α} {Q : Except ε α → σ → Prop} :
    Wp (query f) s Q ↔ Q (f s) s := Iff.rfl

@[simp] theorem wp_attempt {Q : Except ε (Except ε α) → σ → Prop} :
    Wp (attempt p) s Q ↔ Wp p s (fun r s' => Q (.ok r) s') := Iff.rfl

theorem wp_bind :
    Wp (p >>= f) s Q ↔ Wp p s (fun r s' =>
      match r with
      | .ok a => Wp (f a) s' Q
      | .error e => Q (.error e) s') := by
  simp only [Wp, bind]
  rcases p s with ⟨r, s'⟩
  cases r <;> rfl

theorem wp_bind_ok {s' : σ} {a : α} (run : p s = (.ok a, s')) :
    Wp (p >>= f) s Q ↔ Wp (f a) s' Q := by
  rw [wp_bind, Wp, run]

theorem Wp.bind {P : Except ε α → σ → Prop} (head : Wp p s P) (success : ∀ a s', P (.ok a) s' → Wp (f a) s' Q)
    (failure : ∀ e s', P (.error e) s' → Q (.error e) s') : Wp (p >>= f) s Q := by
  rw [wp_bind]
  refine head.mono ?_
  intro r s' post
  cases r with
  | ok a => exact success a s' post
  | error e => exact failure e s' post

theorem Wp.attempt {f : Except ε α → Prog σ ε β} {P : Except ε α → σ → Prop} (head : Wp p s P)
    (success : ∀ a s', P (.ok a) s' → Wp (f (.ok a)) s' Q)
    (failure : ∀ e s', P (.error e) s' → Wp (f (.error e)) s' Q) :
    Wp (Prog.attempt p >>= f) s Q := by
  rw [wp_bind, wp_attempt]
  refine head.mono ?_
  intro r s' post
  cases r with
  | ok a => exact success a s' post
  | error e => exact failure e s' post

@[simp] theorem wp_read_bind {f : σ → Prog σ ε β} :
    Wp (read >>= f) s Q ↔ Wp (f s) s Q := Iff.rfl

@[simp] theorem wp_update_bind {u : σ → σ} {f : Unit → Prog σ ε β} : Wp (update u >>= f) s Q ↔ Wp (f ()) (u s) Q := Iff.rfl

@[simp] theorem wp_query_bind {v : σ → Except ε α} :
    Wp (query v >>= f) s Q ↔
      match v s with
      | .ok a => Wp (f a) s Q
      | .error e => Q (.error e) s := by
  rw [wp_bind, wp_query]

/-- The result decides whether `good` holds, unless `noise` made the program fail. -/
def Decides (noise good : Prop) : Except ε α → Prop
  | .ok _ => good
  | .error _ => noise ∨ ¬good

/-- The result decides `good` and `fits`, and then stands for what `fits`. -/
def Builds (noise good fits : Prop) (holds : α → Prop) : Except ε α → Prop
  | .ok a => good ∧ holds a
  | .error _ => noise ∨ ¬(good ∧ fits)

theorem Decides.mono {noise noise' good good' : Prop} {r : Except ε α}
    (decides : Decides noise good r) (noisy : noise → noise') (same : good ↔ good') :
    Decides noise' good' r := by
  cases r with
  | ok _ => exact same.mp decides
  | error _ => exact decides.imp noisy (mt same.mpr)

/-- Loop rule for `each`: it decides whether every element is good. -/
theorem wp_each {body : α → Prog σ ε Unit} {I : σ → Prop} {P : α → Prop} {N : Prop} {xs : List α}
    (pass : ∀ x ∈ xs, ∀ s, I s → Wp (body x) s (fun r s' => I s' ∧ Decides N (P x) r)) :
    ∀ s, I s → Wp (each body xs) s (fun r s' => I s' ∧ Decides N (∀ x ∈ xs, P x) r) := by
  induction xs with
  | nil =>
    intro s inv
    exact ⟨inv, fun _ absent => absurd absent not_mem_nil⟩
  | cons x xs ih =>
    intro s inv
    refine (pass x mem_cons_self s inv).bind ?_ ?_
    · rintro _ s' ⟨inv', first⟩
      refine (ih (fun y member => pass y (mem_cons_of_mem x member)) s' inv').mono ?_
      rintro r s'' ⟨inv'', rest⟩
      exact ⟨inv'', rest.mono id ⟨fun all => forall_mem_cons.mpr ⟨first, all⟩,
        fun all => (forall_mem_cons.mp all).2⟩⟩
    · rintro e s' ⟨inv', bad⟩
      exact ⟨inv', bad.imp id (fun bad all => bad (forall_mem_cons.mp all).1)⟩

/-- Loop rule for `fold`: the accumulator stands for what the passes have added. -/
theorem wp_fold {γ : Type} {body : β → α → Prog σ ε β} {I : σ → Prop} {H : List γ → β → Prop}
    {adds : α → List γ} {P : α → Prop} {F : List γ → Prop} {N : Prop} {xs : List α}
    (part : ∀ a b, F (a ++ b) → F a)
    (pass : ∀ x ∈ xs, ∀ s acc done, I s → H done acc → Wp (body acc x) s (fun r s' =>
      I s' ∧ Builds N (P x) (F (done ++ adds x)) (H (done ++ adds x)) r)) :
    ∀ s acc done, I s → H done acc → Wp (fold body acc xs) s (fun r s' => I s' ∧
      Builds N (∀ x ∈ xs, P x) (F (done ++ xs.flatMap adds)) (H (done ++ xs.flatMap adds)) r) := by
  induction xs with
  | nil =>
    intro s acc done inv held
    refine ⟨inv, fun _ absent => absurd absent not_mem_nil, ?_⟩
    rw [flatMap_nil, append_nil]
    exact held
  | cons x xs ih =>
    intro s acc done inv held
    rw [flatMap_cons, ← append_assoc]
    refine (pass x mem_cons_self s acc done inv held).bind ?_ ?_
    · rintro acc' s' ⟨inv', first, held'⟩
      refine (ih (fun y member => pass y (mem_cons_of_mem x member)) s' acc' _ inv' held').mono ?_
      rintro r s'' ⟨inv'', rest⟩
      refine ⟨inv'', ?_⟩
      cases r with
      | ok acc'' => exact ⟨forall_mem_cons.mpr ⟨first, rest.1⟩, rest.2⟩
      | error e => exact rest.imp id (fun bad all => bad ⟨(forall_mem_cons.mp all.1).2, all.2⟩)
    · rintro e s' ⟨inv', bad⟩
      refine ⟨inv', bad.imp id ?_⟩
      rintro bad ⟨all, fit⟩
      exact bad ⟨(forall_mem_cons.mp all).1, part _ _ fit⟩

end Prog

end Gokvm.Lib
