import DecisionSpace.Examples
import DecisionSpace.Proofs.Layout

/-!
# Resolving references

A reference with a separator is a path from the scope that it is resolved in, any
other one is the local name of a variable in that scope or below it.  Both are
looked up by texts and ranges of the model; here they are led back to the tree of
scopes.
-/

set_option autoImplicit false

namespace DecisionSpace

open DecisionSpace.Path

namespace Model

def candidates (m : Model) (scope : Nat) (name : String) : List Nat :=
  (m.scopeAt scope).subtree.filter fun v => (m.variableAt v).name = name

section
variable {m : Model} {scope : Nat}

theorem candidates_sorted (name : String) : (m.candidates scope name).Pairwise (· < ·) :=
  List.Pairwise.filter _ List.pairwise_lt_range'

theorem resolveIn_congr {other : Model} (same : m.SameLayout other) (reference : String) :
    m.resolveIn scope reference = other.resolveIn scope reference := by
  obtain ⟨serial, _, _, constraints⟩ := m
  obtain ⟨otherSerial, _, _, otherConstraints⟩ := other
  obtain ⟨rfl, rfl⟩ := same
  rfl

theorem resolveIn_of_plain {reference : String} (plain : hasSeparator reference = false) :
    m.resolveIn scope reference =
      match m.candidates scope reference with
      | [] => .error (.missing reference (m.scopeAt scope).name)
      | [v] => .ok v
      | many => .error (.ambiguous reference (many.map fun v => (m.variableAt v).path)) := by
  rw [resolveIn, ofString_of_plain plain]
  rfl

theorem resolveIn_name_ok_iff {reference : String} (plain : hasSeparator reference = false)
    (v : Nat) : m.resolveIn scope reference = .ok v ↔ m.candidates scope reference = [v] := by
  rw [resolveIn_of_plain plain]
  match m.candidates scope reference with
  | [] => simp
  | [only] => simp
  | first :: second :: rest => simp

theorem resolveIn_of_separator {reference : String} (separated : hasSeparator reference = true) :
    m.resolveIn scope reference =
      match m.vars.findIdx? (·.path = join (m.scopeAt scope).path (unanchored reference)) with
      | some v => .ok v
      | none => .error (.missing reference (m.scopeAt scope).name) := by
  rw [resolveIn, ofString_of_separator separated]
  rfl

end

namespace IsTree

variable {m : Model} (tree : m.IsTree) {scope : Nat}

include tree

theorem mem_candidates_iff (v : Nat) (name : String) :
    v ∈ m.candidates scope name ↔ m.DeclaredIn scope v ∧ (m.variableAt v).name = name := by
  rw [candidates, List.mem_filter, Scope.mem_subtree_iff, tree.contains_iff, decide_eq_true_eq]

theorem resolveIn_path_ok_iff (inRange : scope < m.scopes.length) {reference : String}
    (separated : hasSeparator reference = true) (v : Nat) :
    m.resolveIn scope reference = .ok v ↔ m.PathFrom scope v (unanchored reference) := by
  rw [tree.pathFrom_iff inRange, ← tree.findIdx?_path_iff, resolveIn_of_separator separated]
  cases m.vars.findIdx? (·.path = join (m.scopeAt scope).path (unanchored reference)) with
  | none => simp
  | some found => simp

theorem resolveIn_path_missing (inRange : scope < m.scopes.length) {reference : String}
    (separated : hasSeparator reference = true)
    (none : ∀ v, ¬m.PathFrom scope v (unanchored reference)) :
    m.resolveIn scope reference = .error (.missing reference (m.scopeAt scope).name) := by
  have noneFound := fun v => mt (tree.resolveIn_path_ok_iff inRange separated v).mp (none v)
  rw [resolveIn_of_separator separated] at noneFound ⊢
  cases search : m.vars.findIdx? (·.path = join (m.scopeAt scope).path (unanchored reference)) with
  | none => rfl
  | some found =>
      rw [search] at noneFound
      exact absurd rfl (noneFound found)

theorem declaredIn_of_resolveIn (inRange : scope < m.scopes.length) {reference : String} {v : Nat}
    (found : m.resolveIn scope reference = .ok v) : m.DeclaredIn scope v := by
  by_cases separated : hasSeparator reference = true
  · obtain ⟨inVars, names, below, _⟩ := (tree.resolveIn_path_ok_iff inRange separated v).mp found
    exact ⟨inVars, names, below⟩
  · have only := (resolveIn_name_ok_iff (by simpa using separated) v).mp found
    exact ((tree.mem_candidates_iff v reference).mp (only ▸ List.mem_singleton_self v)).1

end IsTree

/-- A path from the scope resolves to the variable that it leads to, a local name to
the only variable that has it in the scope or below; all other references are
missing or ambiguous. -/
theorem resolveIn_exact {d : Declaration} {serial : Nat} {m : Model}
    (built : d.build serial = .ok m) {scope : Nat} (inRange : scope < m.scopes.length)
    (reference : String) :
    (hasSeparator reference = true →
      (∀ v, m.resolveIn scope reference = .ok v ↔ m.PathFrom scope v (unanchored reference)) ∧
      ((∀ v, ¬m.PathFrom scope v (unanchored reference)) →
        m.resolveIn scope reference = .error (.missing reference (m.scopeAt scope).name))) ∧
    (hasSeparator reference = false →
      ∃ ids : List Nat, ids.Pairwise (· < ·) ∧
        (∀ v, v ∈ ids ↔ m.DeclaredIn scope v ∧ (m.variableAt v).name = reference) ∧
        (∀ v, m.resolveIn scope reference = .ok v ↔ ids = [v]) ∧
        (ids = [] →
          m.resolveIn scope reference = .error (.missing reference (m.scopeAt scope).name)) ∧
        (2 ≤ ids.length → m.resolveIn scope reference =
          .error (.ambiguous reference (ids.map fun v => (m.variableAt v).path)))) ∧
    (∀ v, m.resolveIn scope reference = .ok v → m.DeclaredIn scope v) ∧
    ∀ v, m.DeclaredIn scope v → m.resolveIn scope
      ("/" ++ relativeTo (m.scopeAt scope).path (m.variableAt v).path) = .ok v := by
  have tree := (Declaration.build_laid built).isTree
  refine ⟨fun separated => ⟨?_, ?_⟩, fun plain => ?_, ?_, ?_⟩
  · exact tree.resolveIn_path_ok_iff inRange separated
  · exact tree.resolveIn_path_missing inRange separated
  · refine ⟨m.candidates scope reference, candidates_sorted reference, fun v => ?_, ?_, ?_, ?_⟩
    · exact tree.mem_candidates_iff v reference
    · exact resolveIn_name_ok_iff plain
    · intro none
      rw [resolveIn_of_plain plain, none]
    · intro several
      rw [resolveIn_of_plain plain]
      match m.candidates scope reference, several with
      | _ :: _ :: _, _ => rfl
  · intro v found
    by_cases separated : hasSeparator reference = true
    · obtain ⟨inVars, names, below, _⟩ := (tree.resolveIn_path_ok_iff inRange separated v).mp found
      exact ⟨inVars, names, below⟩
    · have only := (resolveIn_name_ok_iff (by simpa using separated) v).mp found
      exact ((tree.mem_candidates_iff v reference).mp (only ▸ List.mem_singleton_self v)).1
  · intro v declared
    rw [tree.resolveIn_path_ok_iff inRange (hasSeparator_anchored _), unanchored_anchored]
    exact tree.pathFrom_relativeTo inRange declared

theorem resolveIn_exact_nested :
    Examples.nested.build 0 = .ok Examples.nestedModel ∧
      (0 < Examples.nestedModel.scopes.length ∧ 1 < Examples.nestedModel.scopes.length) ∧
      Examples.nestedModel.DeclaredIn 1 2 ∧
      Examples.nestedModel.resolveIn 0 "flag" = .error (.ambiguous "flag" ["flag", "Inner/flag"]) ∧
      Examples.nestedModel.PathFrom 0 2 "Inner/flag" ∧
      Examples.nestedModel.resolveIn 1 "/Leaf/c" = .ok 7 := by
  have built : Examples.nested.build 0 = .ok Examples.nestedModel := rfl
  have inner : 1 < Examples.nestedModel.scopes.length := by decide
  have root : 0 < Examples.nestedModel.scopes.length := by decide
  refine ⟨built, ⟨root, inner⟩, (resolveIn_exact built inner "flag").2.2.1 2 rfl, rfl, ?_, ?_⟩
  · exact (((resolveIn_exact built root "Inner/flag").1 rfl).1 2).mp rfl
  · exact (resolveIn_exact built inner "/Leaf/c").2.2.2 7
      ⟨by decide, ["Leaf"], .child .self (by decide)⟩

end Model

end DecisionSpace
