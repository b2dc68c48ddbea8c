import Mathlib.Data.List.Basic
import Mathlib.Tactic.Basic

/-! # Authorities of addresses

A host with a port, as `net.SplitHostPort` reads and `net.JoinHostPort` writes it. Comparing the
texts compares hosts and ports (`sameAuthority_iff`). Lower-casing is a parameter.
-/

namespace Gokvm.Gateway

/-! ## Hosts and ports -/

/-- The text before and after the last colon. -/
def lastColon : List Char → Option (List Char × List Char)
  | [] => none
  | c :: rest =>
    match lastColon rest with
    | some (front, port) => some (c :: front, port)
    | none => if c = ':' then some ([], rest) else none

/-- A host in brackets ends right before the last colon; no other bracket is accepted. -/
def splitHostPort (s : List Char) : Option (List Char × List Char) :=
  match lastColon s with
  | none => none
  | some (front, port) =>
    if s.head? = some '[' then
      if front.getLast? = some ']' ∧ ']' ∉ front.dropLast ∧ '[' ∉ s.tail ∧ ']' ∉ port then
        some (front.dropLast.tail, port)
      else none
    else if ':' ∈ front ∨ '[' ∈ s ∨ ']' ∈ s then none
    else some (front, port)

def joinHostPort (host port : List Char) : List Char :=
  if ':' ∈ host then '[' :: host ++ ']' :: ':' :: port else host ++ ':' :: port

variable {s port host : List Char}

theorem lastColon_eq_none : lastColon s = none ↔ ':' ∉ s := by
  induction s with
  | nil => simp [lastColon]
  | cons c rest ih =>
    unfold lastColon
    cases deeper : lastColon rest with
    | some found =>
      have member : ':' ∈ rest := by
        by_contra absent
        rw [ih.mpr absent] at deeper
        cases deeper
      simp [member]
    | none => simp [ih.mp deeper, eq_comm]

theorem lastColon_append {front : List Char} (free : ':' ∉ port) :
    lastColon (front ++ ':' :: port) = some (front, port) := by
  induction front with
  | nil =>
    have rest : lastColon port = none := lastColon_eq_none.mpr free
    simp [lastColon, rest]
  | cons c front ih => simp [lastColon, ih]

theorem lastColon_port {front : List Char} (split : lastColon s = some (front, port)) :
    ':' ∉ port := by
  induction s generalizing front with
  | nil => cases split
  | cons c rest ih =>
    unfold lastColon at split
    cases deeper : lastColon rest with
    | some found =>
      obtain ⟨inner, after⟩ := found
      simp only [deeper, Option.some.injEq, Prod.mk.injEq] at split
      exact ih (split.2 ▸ deeper)
    | none =>
      simp only [deeper, Option.ite_none_right_eq_some, Option.some.injEq, Prod.mk.injEq] at split
      exact split.2.2 ▸ lastColon_eq_none.mp deeper

theorem splitHostPort_port (split : splitHostPort s = some (host, port)) :
    ':' ∉ port := by
  unfold splitHostPort at split
  cases last : lastColon s with
  | none => simp [last] at split
  | some found =>
    obtain ⟨front, after⟩ := found
    have free := lastColon_port last
    simp only [last] at split
    split at split
    · split at split
      · cases split
        exact free
      · cases split
    · split at split
      · cases split
      · cases split
        exact free

/-- Hosts and ports are told apart in the joined text. -/
theorem joinHostPort_inj {host' port' : List Char} (free : ':' ∉ port) (free' : ':' ∉ port')
    (same : joinHostPort host port = joinHostPort host' port') : host = host' ∧ port = port' := by
  have front : ∀ h p, ':' ∉ p → lastColon (joinHostPort h p) =
      some (if ':' ∈ h then '[' :: h ++ [']'] else h, p) := by
    intro h p free
    unfold joinHostPort
    split
    · have text : '[' :: h ++ ']' :: ':' :: p = ('[' :: h ++ [']']) ++ ':' :: p := by simp
      rw [text, lastColon_append free]
    · exact lastColon_append free
  have parts := front host port free
  rw [same, front host' port' free'] at parts
  simp only [Option.some.injEq, Prod.mk.injEq] at parts
  refine ⟨?_, parts.2.symm⟩
  have hosts := parts.1
  by_cases colon : ':' ∈ host
  · by_cases colon' : ':' ∈ host'
    · simpa [colon, colon'] using hosts.symm
    · rw [if_pos colon, if_neg colon'] at hosts
      exact absurd (hosts ▸ by simp [colon]) colon'
  · by_cases colon' : ':' ∈ host'
    · rw [if_neg colon, if_pos colon'] at hosts
      exact absurd (hosts ▸ by simp [colon']) colon
    · simpa [colon, colon'] using hosts.symm

/-! ## Authorities -/

/-- The host and the port of an address; without a port it is that of HTTPS. -/
def authority (s : List Char) : Option (List Char × List Char) :=
  match splitHostPort s with
  | some found => some found
  | none => if ':' ∈ s then none else some (s, ['4', '4', '3'])

variable (toLower : List Char → List Char)

def normalize (s : List Char) : List Char :=
  match authority s with
  | some (host, port) => joinHostPort (toLower host) port
  | none => []

def sameAuthority (a b : String) : Bool :=
  normalize toLower a.toList ≠ [] && normalize toLower a.toList = normalize toLower b.toList

/-- Two addresses name one host, in any case of its letters, and one port. -/
def SameAddress (a b : String) : Prop :=
  ∃ host host' port, authority a.toList = some (host, port) ∧ authority b.toList = some (host', port) ∧
    toLower host = toLower host'

theorem authority_port (split : authority s = some (host, port)) :
    ':' ∉ port := by
  unfold authority at split
  cases found : splitHostPort s with
  | some parts =>
    obtain ⟨front, after⟩ := parts
    simp only [found, Option.some.injEq, Prod.mk.injEq] at split
    exact split.2 ▸ splitHostPort_port found
  | none =>
    simp only [found, Option.ite_none_left_eq_some, Option.some.injEq, Prod.mk.injEq] at split
    rw [← split.2.2]
    decide

theorem joinHostPort_ne_nil (host port : List Char) : joinHostPort host port ≠ [] := by
  unfold joinHostPort
  split <;> simp

theorem sameAuthority_iff {a b : String} : sameAuthority toLower a b = true ↔ SameAddress toLower a b := by
  unfold sameAuthority SameAddress normalize
  cases first : authority a.toList with
  | none => simp
  | some parts =>
    obtain ⟨host, port⟩ := parts
    cases second : authority b.toList with
    | none => simp [joinHostPort_ne_nil]
    | some parts' =>
      obtain ⟨host', port'⟩ := parts'
      simp only [joinHostPort_ne_nil, ne_eq, not_false_eq_true, decide_true, Bool.true_and,
        decide_eq_true_eq, Option.some.injEq, Prod.mk.injEq]
      constructor
      · intro same
        obtain ⟨hosts, ports⟩ := joinHostPort_inj (authority_port first) (authority_port second) same
        exact ⟨host, host', port, ⟨rfl, rfl⟩, ⟨rfl, ports.symm⟩, hosts⟩
      · rintro ⟨h, h', p, ⟨rfl, rfl⟩, ⟨rfl, rfl⟩, hosts⟩
        rw [hosts]

end Gokvm.Gateway
