import Mathlib.Data.Finset.Card
import Mathlib.Logic.Relation

/-! # Loops

A loop whose body goes round again with a new state or leaves with a result. With fuel, it ends
exactly when some state it reaches leaves. A state that comes back never ends; states with
different keys from a finite set end within as many turns as there are keys.
-/

namespace Gokvm.Lib

inductive Turn (σ ρ : Type) where
  | again (next : σ)
  | done (result : ρ)

section Loop

variable {σ ρ : Type} (body : σ → Turn σ ρ)

def loop : Nat → σ → Option ρ
  | 0, _ => none
  | fuel + 1, s => match body s with
    | .again next => loop fuel next
    | .done result => some result

def Goes (s t : σ) : Prop := body s = .again t

def Reaches : σ → σ → Prop := Relation.ReflTransGen (Goes body)

variable {body}

variable {fuel : Nat} {s t : σ} {result : ρ}

theorem loop_of_done {final : ρ} (leaves : body s = .done final) (ended : loop body fuel s = some result) : result = final := by
  cases fuel with
  | zero => cases ended
  | succ fuel =>
    simp only [loop, leaves, Option.some.injEq] at ended
    exact ended.symm

theorem loop_of_goes (goes : Goes body s t) (fuel : Nat) :
    loop body (fuel + 1) s = loop body fuel t := by
  unfold Goes at goes
  simp only [loop, goes]

theorem loop_shorter (goes : Goes body s t) (ended : loop body fuel s = some result) :
    ∃ less, less < fuel ∧ loop body less t = some result := by
  cases fuel with
  | zero => cases ended
  | succ fuel =>
    rw [loop_of_goes goes] at ended
    exact ⟨fuel, fuel.lt_succ_self, ended⟩

theorem loop_much_shorter (path : Relation.TransGen (Goes body) s t) (ended : loop body fuel s = some result) :
    ∃ less, less < fuel ∧ loop body less t = some result := by
  induction path with
  | single goes => exact loop_shorter goes ended
  | tail _ goes ih =>
    obtain ⟨less, shorter, still⟩ := ih
    obtain ⟨least, shortest, final⟩ := loop_shorter goes still
    exact ⟨least, shortest.trans shorter, final⟩

theorem loop_reached (path : Reaches body s t) (ended : loop body fuel s = some result) : ∃ less, loop body less t = some result := by
  cases Relation.reflTransGen_iff_eq_or_transGen.mp path with
  | inl same => exact ⟨fuel, same ▸ ended⟩
  | inr turns =>
    obtain ⟨less, _, final⟩ := loop_much_shorter turns ended
    exact ⟨less, final⟩

theorem loop_cycle (cycle : Relation.TransGen (Goes body) s s) (fuel : Nat) :
    loop body fuel s = none := by
  induction fuel using Nat.strong_induction_on with
  | _ fuel ih =>
    cases ended : loop body fuel s with
    | none => rfl
    | some result =>
      obtain ⟨less, shorter, still⟩ := loop_much_shorter cycle ended
      rw [ih less shorter] at still
      cases still

theorem loop_result (ended : loop body fuel s = some result) :
    ∃ last, Reaches body s last ∧ body last = .done result := by
  induction fuel generalizing s with
  | zero => cases ended
  | succ fuel ih =>
    cases turn : body s with
    | again next =>
      rw [loop_of_goes turn] at ended
      obtain ⟨last, path, leaves⟩ := ih ended
      exact ⟨last, path.head turn, leaves⟩
    | done final =>
      simp only [loop, turn, Option.some.injEq] at ended
      exact ⟨s, .refl, by rw [turn, ended]⟩

variable (body) in
/-- States whose keys never repeat run out of keys. -/
theorem loop_ends_of_keys {κ : Type} [DecidableEq κ] (key : σ → κ) :
    ∀ (keys : Finset κ) (s : σ), (∀ t, Reaches body s t → key t ∈ keys) →
      (∀ t u, Reaches body s t → Relation.TransGen (Goes body) t u → key t ≠ key u) →
        ∃ result, loop body keys.card s = some result := by
  intro keys
  induction size : keys.card generalizing keys with
  | zero =>
    intro s within _
    have member := within s .refl
    rw [Finset.card_eq_zero.mp size] at member
    exact absurd member (Finset.notMem_empty _)
  | succ n ih =>
    intro s within fresh
    cases turn : body s with
    | done result => exact ⟨result, by simp only [loop, turn]⟩
    | again next =>
      have goes : Goes body s next := turn
      rw [loop_of_goes goes]
      -- the key of `s` is used up: no later state has it
      apply ih (keys.erase (key s))
      · rw [Finset.card_erase_of_mem (within s .refl), size]
        rfl
      · intro t path
        have later : key s ≠ key t := fresh s t .refl (.head' goes path)
        exact Finset.mem_erase.mpr ⟨later.symm, within t (path.head goes)⟩
      · intro t u path turns
        exact fresh t u (path.head goes) turns

end Loop

end Gokvm.Lib
