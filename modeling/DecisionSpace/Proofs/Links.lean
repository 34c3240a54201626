import DecisionSpace.Proofs.Built
import DecisionSpace.Proofs.Search.Counting

/-!
# Constraints by variable

A builder takes the constraints in one after the other and enters each with the variables that
it names, so that a search can go from a variable to its constraints.  Whatever the references
are, a variable gets the position of a constraint once if one of them names it, and not at all
otherwise.
-/

set_option autoImplicit false

namespace DecisionSpace

open Fallible

theorem Model.constraintsOn_concat (m : Model) (con : Constraint) (id : Nat) :
    ({ m with constraints := m.constraints ++ [con] } : Model).constraintsOn id =
      m.constraintsOn id ++ if id ∈ con.vars then [m.constraints.length] else [] := by
  -- the constraints before the new one keep their positions
  have earlier : ∀ k ∈ List.range m.constraints.length,
      (((m.constraints ++ [con])[k]?.getD default).vars.contains id) =
        ((m.constraints[k]?.getD default).vars.contains id) := by
    intro k inRange
    rw [List.getElem?_append_left (List.mem_range.mp inRange)]
  simp only [constraintsOn, List.length_append, List.length_singleton, List.range_succ,
    List.filter_append, List.filter_congr earlier]
  by_cases named : id ∈ con.vars
  · simp [named]
  · simp [named]

theorem Model.count_constraintsOn (m : Model) (id k : Nat) :
    (m.constraintsOn id).count k =
      if (m.constraints[k]?).any (fun con => id ∈ con.vars) then 1 else 0 := by
  rw [List.Nodup.count (m.constraintsOn_nodup id)]
  cases known : m.constraints[k]? with
  | none =>
      have outside := List.getElem?_eq_none_iff.mp known
      have absent : k ∉ m.constraintsOn id := fun listed =>
        absurd (List.mem_range.mp (List.mem_filter.mp listed).1) (Nat.not_lt.mpr outside)
      simp [absent]
  | some con => simp [mem_constraintsOn known]

namespace Declaration

structure Links where
  constraints : List Constraint
  byVariable : List (List Nat)

namespace Links

def empty (m : Model) : Links := ⟨[], m.vars.map fun _ => []⟩

def add (links : Links) (con : Constraint) : Links where
  constraints := links.constraints ++ [con]
  byVariable := con.vars.foldl
    (fun lists id => lists.modify id (· ++ [links.constraints.length])) links.byVariable

def Agrees (m : Model) (links : Links) : Prop :=
  links.byVariable = (List.range m.vars.length).map
    ({ m with constraints := links.constraints } : Model).constraintsOn

theorem agrees_empty (m : Model) : (empty m).Agrees m := by
  have none : ({ m with constraints := [] } : Model).constraintsOn = fun _ => [] := rfl
  simp [Agrees, empty, none]

theorem Agrees.add {m : Model} {links : Links} (agrees : links.Agrees m) {con : Constraint}
    (nodup : con.vars.Nodup) : (links.add con).Agrees m := by
  apply List.ext_getElem?
  intro id
  have before := congrArg (·[id]?) agrees
  have concat := Model.constraintsOn_concat { m with constraints := links.constraints } con id
  simp only [List.getElem?_map] at before ⊢
  simp only [Links.add] at concat ⊢
  rw [Search.getElem?_foldl_modify _ nodup, before]
  -- a position outside the variables has no list before and none after
  by_cases inVars : id < m.vars.length
  · rw [List.getElem?_range inVars, Option.map_some, Option.map_some, Option.map_some, concat]
    split
    · rfl
    · rw [List.append_nil]
  · rw [List.getElem?_eq_none (by simpa using inVars)]
    simp

theorem foldl_add {m : Model} {constraints : List Constraint} {links : Links}
    (agrees : links.Agrees m) (distinct : ∀ con ∈ constraints, con.vars.Nodup) :
    (constraints.foldl add links).constraints = links.constraints ++ constraints ∧
      (constraints.foldl add links).Agrees m := by
  induction constraints generalizing links with
  | nil => exact ⟨(List.append_nil _).symm, agrees⟩
  | cons con rest ih =>
      obtain ⟨nodup, others⟩ := List.forall_mem_cons.mp distinct
      obtain ⟨constraints, lists⟩ := ih (agrees.add nodup) others
      refine ⟨?_, lists⟩
      rw [List.foldl_cons, constraints, add, List.append_assoc, List.singleton_append]

theorem foldl_add_empty {m : Model} {constraints : List Constraint}
    (distinct : ∀ con ∈ constraints, con.vars.Nodup) :
    constraints.foldl add (empty m) =
      ⟨constraints,
        (List.range m.vars.length).map ({ m with constraints } : Model).constraintsOn⟩ := by
  obtain ⟨taken, agrees⟩ := foldl_add (agrees_empty m) distinct
  generalize constraints.foldl add (empty m) = links at taken agrees
  obtain ⟨all, lists⟩ := links
  obtain rfl : all = constraints := taken
  exact congrArg (Links.mk all) agrees

end Links

def link (m : Model) (limits : List (Nat × AtMost)) : Except ModelFault Links :=
  limits.foldlM
    (fun links declared => (AtMost.resolve m declared.1 declared.2).map links.add) (.empty m)

theorem foldlM_resolve (m : Model) (limits : List (Nat × AtMost)) (links : Links) :
    limits.foldlM
        (fun links declared => (AtMost.resolve m declared.1 declared.2).map links.add) links =
      (limits.mapM fun declared => AtMost.resolve m declared.1 declared.2).map
        fun constraints => constraints.foldl Links.add links := by
  induction limits generalizing links with
  | nil => rfl
  | cons declared rest ih =>
      rw [List.foldlM_cons, List.mapM_cons]
      cases AtMost.resolve m declared.1 declared.2 with
      | error cause => rfl
      | ok con =>
          change rest.foldlM _ (links.add con) = _
          rw [ih]
          cases rest.mapM fun declared => AtMost.resolve m declared.1 declared.2 with
          | error cause => rfl
          | ok constraints => rfl

/-- The lists that a build makes are those that the searches go by. -/
theorem link_of_build {serial : Nat} {d : Declaration} {m : Model}
    (built : d.build serial = .ok m) :
    link (d.frozen serial) d.declaredLimits =
      .ok ⟨m.constraints, (List.range m.vars.length).map m.constraintsOn⟩ := by
  have distinct := (build_wellFormed built).nodup
  obtain ⟨_, constraints, resolved, rfl⟩ := (build_ok_iff serial d m).mp built
  rw [link, foldlM_resolve, mapM_ok_iff.mpr resolved, Except.map, Links.foldl_add_empty distinct]

end Declaration

end DecisionSpace
