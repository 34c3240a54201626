import DecisionSpace.Proofs.Solution
import DecisionSpace.Search.Solver

/-!
# Forced selections

Before it searches, a solver counts for each constraint the variables that it
takes to be selected whatever the search does.  A variable that is selected and
that no step may switch off is always among them; this is the bound that keeps a
repair going.
-/

set_option autoImplicit false

namespace DecisionSpace.Solver

open Fallible

variable {m : Model} {c : Context}

theorem checkForced_ok_iff (k : Constraint) :
    checkForced m c k = .ok () ↔ k.selectedCount (isForced m c) ≤ k.limit := by
  simp only [checkForced]
  split
  · rename_i overfull
    simp [Nat.not_le_of_lt overfull]
  · rename_i within
    simp [Nat.le_of_not_lt within]

theorem checkContext_ok_iff :
    checkContext m c = .ok () ↔
      c.validate m = .ok () ∧ ∀ k ∈ m.constraints, k.selectedCount (isForced m c) ≤ k.limit := by
  simp only [checkContext, check_bind_ok_iff, forM_ok_iff, checkForced_ok_iff]

theorem isForced_of_fixed {id : Nat} {v : Variable} {x : Value} (known : m.vars[id]? = some v)
    (fixed : c.get? id = some x) : isForced m c id = v.domain.selects x := by
  simp only [isForced, Model.variableAt_of_getElem? known, fixed]
  cases v.domain <;> rfl

theorem isForced_of_open {id : Nat} {v : Variable} (known : m.vars[id]? = some v)
    (unfixed : c.get? id = none) : isForced m c id = v.domain.isAlwaysSelected := by
  simp only [isForced, Model.variableAt_of_getElem? known, unfixed]

theorem isForced_of_unswitchable {values : List Value} (agrees : c.Agrees values) {id : Nat}
    (on : m.isSelectedIn values id = true)
    (unswitchable : c.get? id = none → (m.variableAt id).domain.unselected?.isSome = false) :
    isForced m c id = true := by
  obtain ⟨v, x, known, held, selected⟩ := Model.getElem?_of_isSelectedIn on
  cases fixed : c.get? id with
  | some y =>
      have same : y = x := Option.some.inj ((agrees id y fixed).symm.trans held)
      rw [isForced_of_fixed known fixed, same, selected]
  | none =>
      have always := unswitchable fixed
      rw [Model.variableAt_of_getElem? known, Domain.unselected?_isSome] at always
      rw [isForced_of_open known fixed]
      simpa using always

end DecisionSpace.Solver
