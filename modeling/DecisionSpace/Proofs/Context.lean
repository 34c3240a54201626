import DecisionSpace.Context
import DecisionSpace.Proofs.Fallible
import DecisionSpace.Proofs.Table

/-!
# Valid contexts

A context is read through `get?`, and checked through its entries.  Since its
entries stand in ascending order, the two views agree; hence a context is valid
for a model exactly when each of its facts names a variable of the model and
gives it a canonical value.  A context extends another when it keeps its facts.
-/

set_option autoImplicit false

namespace DecisionSpace

open Fallible

namespace Context

theorem mem_entries_iff (c : Context) (id : Nat) (value : Value) :
    (id, value) ∈ c.entries ↔ c.get? id = some value :=
  (c.table.get?_eq_some_iff id value).symm

theorem contains_eq_isSome (c : Context) (id : Nat) : c.contains id = (c.get? id).isSome := rfl

theorem checkEntry_ok_iff (m : Model) (id : Nat) (value : Value) :
    checkEntry m (id, value) = .ok () ↔
      ∃ v, m.vars[id]? = some v ∧ v.domain.validate value = .ok value := by
  simp only [checkEntry]
  cases found : m.vars[id]? with
  | none => simp
  | some v =>
      simp only [Option.some.injEq, exists_eq_left', bind_ok_iff, Variable.validate,
        mapError_ok_iff]
      constructor
      · rintro ⟨canonical, run, same⟩
        split at same
        · rename_i equal
          rwa [equal] at run
        · exact absurd same (by simp)
      · intro run
        exact ⟨value, run, if_pos rfl⟩

theorem checkEntry_error {m : Model} {entry : Nat × Value} {e : Failure}
    (refused : checkEntry m entry = .error e) :
    e = .unknownVariable entry.1 ∨
      ∃ v cause, m.vars[entry.1]? = some v ∧ e = .invalidValue v.path cause := by
  simp only [checkEntry] at refused
  cases found : m.vars[entry.1]? with
  | none =>
      rw [found] at refused
      exact .inl (Except.error.inj refused).symm
  | some v =>
      simp only [found, bind_error_iff, Variable.validate, mapError_error_iff] at refused
      rcases refused with ⟨cause, _, same⟩ | ⟨canonical, _, refused⟩
      · exact .inr ⟨v, cause, rfl, same.symm⟩
      · split at refused
        · exact absurd refused (by simp)
        · exact .inr ⟨v, _, rfl, (Except.error.inj refused).symm⟩

theorem validate_ok_iff (m : Model) (c : Context) :
    c.validate m = .ok () ↔
      ∀ id value, c.get? id = some value →
        ∃ v, m.vars[id]? = some v ∧ v.domain.validate value = .ok value := by
  rw [validate, forM_ok_iff]
  constructor
  · intro all id value held
    exact (checkEntry_ok_iff m id value).mp (all (id, value) ((mem_entries_iff c id value).mpr held))
  · rintro all ⟨id, value⟩ member
    exact (checkEntry_ok_iff m id value).mpr (all id value ((mem_entries_iff c id value).mp member))

/-- Every fact of the first context is a fact of the second. -/
def Extends (c c' : Context) : Prop := ∀ id value, c.get? id = some value → c'.get? id = some value

theorem extends_insert (c : Context) (f : Fact)
    (new : ∀ value, c.get? f.id = some value → value = f.value) : c.Extends (c.insert f) := by
  intro id value held
  rw [get?_insert]
  split
  · rename_i same
    rw [same] at held
    rw [new value held]
  · exact held

def ofValues (values : List Value) : Context :=
  ⟨⟨values.zipIdx.map fun e => (e.2, e.1), by
    apply List.pairwise_map.mpr
    rw [List.pairwise_iff_getElem]
    intro i j inI inJ less
    simpa using less⟩⟩

theorem get?_ofValues (values : List Value) (id : Nat) :
    (ofValues values).get? id = values[id]? := by
  apply Option.ext
  intro x
  rw [← mem_entries_iff, ← List.mk_mem_zipIdx_iff_getElem?]
  constructor
  · intro member
    obtain ⟨e, listed, same⟩ := List.mem_map.mp member
    obtain ⟨rfl, rfl⟩ := Prod.mk.inj same
    exact listed
  · intro listed
    exact List.mem_map.mpr ⟨(x, id), listed, rfl⟩

end Context

end DecisionSpace
