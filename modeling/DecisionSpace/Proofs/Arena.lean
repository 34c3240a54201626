import DecisionSpace.Examples
import DecisionSpace.Proofs.Layout

/-!
# Built models as arenas

A built model holds the tree of its declaration in two lists.  `Arena` says how:
where each scope and variable stands, how the scopes are linked, which variables
the range of a scope holds, and that paths tell scopes and variables apart.
-/

set_option autoImplicit false

namespace DecisionSpace

open Fallible
open DecisionSpace.Path

namespace Model.IsTree

variable {m : Model} (tree : m.IsTree)

include tree

theorem scope_paths_nodup : (m.scopes.map (·.path)).Nodup := by
  rw [List.nodup_iff_injective_getElem]
  rintro ⟨i, inRange⟩ ⟨j, otherInRange⟩ same
  rw [List.length_map] at inRange otherInRange
  simp only [List.getElem_map, ← scopeAt_eq_getElem] at same
  exact Fin.ext (tree.path_injective inRange otherInRange same)

theorem variable_paths_nodup : (m.vars.map (·.path)).Nodup := by
  rw [List.nodup_iff_injective_getElem]
  rintro ⟨i, inRange⟩ ⟨j, otherInRange⟩ same
  rw [List.length_map] at inRange otherInRange
  simp only [List.getElem_map, ← variableAt_eq_getElem] at same
  exact Fin.ext (tree.variable_path_injective inRange otherInRange same)

theorem variablesIn_eq (id : Nat) :
    m.variablesIn id = (m.scopeAt id).subtree.map m.variableAt := by
  apply List.ext_getElem?
  intro i
  rw [Model.variablesIn, List.getElem?_take, List.getElem?_drop, List.getElem?_map, Scope.subtree]
  by_cases inSize : i < (m.scopeAt id).size
  · have contained : (m.scopeAt id).contains ((m.scopeAt id).first + i) = true :=
      (Scope.contains_iff _ _).mpr ⟨by omega, by omega⟩
    obtain ⟨inRange, _⟩ := (tree.contains_iff id _).mp contained
    rw [List.getElem?_range' inSize]
    simp [inSize, inRange, variableAt_eq_getElem inRange]
  · simp [inSize]

end Model.IsTree

namespace Declaration

/-- The model holds the tree of the declaration in its two lists. -/
structure Arena (d : Declaration) (m : Model) : Prop where
  scopes : (m.scopes.map fun s => (s.path, s.name)) =
    (preorder [] d).map fun entry => (ofNames entry.1, entry.2.name)
  vars : m.vars = (preorder [] d).zipIdx.flatMap variablesOf
  orphan : (m.scopeAt 0).parent = none
  linked : ∀ id next, next ∈ (m.scopeAt id).children ↔
    next < m.scopes.length ∧ (m.scopeAt next).parent = some id
  ordered : ∀ id names e, (preorder [] d)[id]? = some (names, e) →
    ((m.scopeAt id).children.map fun next => (preorder [] d)[next]?) =
      e.children.map fun c => some (names ++ [c.name], c)
  own : ∀ id v, v ∈ (m.scopeAt id).vars ↔ v < m.vars.length ∧ (m.variableAt v).scope = id
  contains : ∀ id v, (m.scopeAt id).contains v = true ↔ m.DeclaredIn id v
  subtree : ∀ id v, v ∈ (m.scopeAt id).subtree ↔ m.DeclaredIn id v
  variablesIn : ∀ id, m.variablesIn id = (m.scopeAt id).subtree.map m.variableAt
  variablePath : ∀ v, v < m.vars.length → ∃ names e,
    (preorder [] d)[(m.variableAt v).scope]? = some (names, e) ∧
      (m.variableAt v).path = ofNames (names ++ [(m.variableAt v).name])
  scopePaths : (m.scopes.map (·.path)).Nodup
  variablePaths : (m.vars.map (·.path)).Nodup
  lookup : ∀ v, v < m.vars.length → m.vars.findIdx? (·.path = (m.variableAt v).path) = some v
  /-- Following names from the root leads to the scope that they lead to in the
  declaration, and to no other. -/
  walk : ∀ (names : List String) (id : Nat), names.foldlM m.child 0 = .ok id ↔
    ∃ e, (preorder [] d)[id]? = some (names, e)

namespace Laid

variable {d : Declaration} {m : Model} (laid : Laid d m)

include laid

theorem part_of_getElem? {id : Nat} {names : List String} {e : Declaration}
    (listed : (preorder [] d)[id]? = some (names, e)) :
    m.Below 0 id names ∧ ∃ parent first, Part d m parent names id first e := by
  have inRange := (List.getElem?_eq_some_iff.mp listed).1
  rw [← laid.scopes_length] at inRange
  obtain ⟨names', e', parent, first, below, part⟩ := laid.exists_part inRange
  obtain ⟨rfl, rfl⟩ := Prod.mk.inj (Option.some.inj (part.entry.symm.trans listed))
  exact ⟨below, parent, first, part⟩

theorem getElem?_of_below {id : Nat} {names : List String} (below : m.Below 0 id names) :
    ∃ e, (preorder [] d)[id]? = some (names, e) := by
  have tree := laid.isTree
  obtain ⟨names', e, _, _, below', part⟩ := laid.exists_part (tree.lt_of_below tree.nonempty below)
  obtain rfl := tree.names_unique below below'
  exact ⟨e, part.entry⟩

theorem scopes_preorder :
    (m.scopes.map fun s => (s.path, s.name)) =
      (preorder [] d).map fun entry => (ofNames entry.1, entry.2.name) := by
  apply List.ext_getElem
  · rw [List.length_map, List.length_map, laid.scopes_length]
  · intro id inScopes inPreorder
    rw [List.length_map] at inScopes inPreorder
    obtain ⟨_, parent, first, part⟩ := laid.part_of_getElem? (List.getElem?_eq_getElem inPreorder)
    have scope := part.scopeAt
    rw [Model.scopeAt_eq_getElem inScopes] at scope
    rw [List.getElem_map, List.getElem_map, scope]
    rfl

theorem children_preorder {id : Nat} {names : List String} {e : Declaration}
    (listed : (preorder [] d)[id]? = some (names, e)) :
    ((m.scopeAt id).children.map fun next => (preorder [] d)[next]?) =
      e.children.map fun c => some (names ++ [c.name], c) := by
  obtain ⟨_, parent, first, part⟩ := laid.part_of_getElem? listed
  apply List.forall₂_eq_eq_eq ▸ List.forall₂_map_left_iff.mpr (List.forall₂_map_right_iff.mpr _)
  refine part.children.imp fun next c both => ?_
  obtain ⟨_, first', child⟩ := both
  exact child.entry

end Laid

/-- A built model holds the tree of its declaration: scopes and variables stand in
pre-order, links go both ways, ranges hold what is declared in a scope or below it,
and each path belongs to one scope and to one variable. -/
theorem build_arena {d : Declaration} {m : Model} {serial : Nat}
    (built : d.build serial = .ok m) : Arena d m := by
  have laid := build_laid built
  have tree := laid.isTree
  constructor
  case scopes => exact laid.scopes_preorder
  case vars =>
    rw [laid.vars]
    exact layout_vars none 0 0 [] (by simp) d laid.checked
  case orphan => exact tree.orphan
  case linked => exact tree.mem_children_iff
  case ordered => exact fun id names e listed => laid.children_preorder listed
  case own => exact tree.mem_vars_iff
  case contains => exact tree.contains_iff
  case subtree =>
    intro id v
    rw [Scope.mem_subtree_iff, tree.contains_iff]
  case variablesIn => exact tree.variablesIn_eq
  case variablePath =>
    intro v inRange
    obtain ⟨_, names, below⟩ := tree.declaredIn_root inRange
    obtain ⟨e, listed⟩ := laid.getElem?_of_below below
    exact ⟨names, e, listed, tree.variable_path inRange below⟩
  case scopePaths => exact tree.scope_paths_nodup
  case variablePaths => exact tree.variable_paths_nodup
  case lookup => exact fun v inRange => (tree.findIdx?_path_iff _ v).mpr ⟨inRange, rfl⟩
  case walk =>
    intro names id
    rw [tree.foldlM_child_iff]
    exact ⟨laid.getElem?_of_below, fun ⟨e, listed⟩ => (laid.part_of_getElem? listed).1⟩

theorem build_arena_nested :
    Examples.nested.build 0 = .ok Examples.nestedModel ∧
      Arena Examples.nested Examples.nestedModel ∧
      Examples.nestedModel.vars.findIdx? (·.path = "Inner/flag") = some 2 ∧
      ["Inner", "Leaf"].foldlM Examples.nestedModel.child 0 = .ok 2 ∧
      Examples.nestedModel.DeclaredIn 1 7 ∧ ¬Examples.nestedModel.DeclaredIn 1 0 := by
  have built : Examples.nested.build 0 = .ok Examples.nestedModel := rfl
  have arena := build_arena built
  refine ⟨built, arena, arena.lookup 2 (by decide), (arena.walk _ _).mpr ⟨_, rfl⟩, ?_, ?_⟩
  · exact (arena.contains 1 7).mp rfl
  · exact fun declared => absurd ((arena.contains 1 0).mpr declared) (by decide)

end Declaration

end DecisionSpace
