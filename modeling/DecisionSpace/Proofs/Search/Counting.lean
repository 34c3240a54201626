import DecisionSpace.Model
import Mathlib.Data.List.Nodup

/-!
# Counts kept step by step

Both searches keep one count for each constraint and change it when one variable
changes.  Since a constraint lists a variable once at most, and the constraints
on a variable are listed once each, such a count moves by one at most, and it
moves exactly when the constraint names the variable.
-/

set_option autoImplicit false

namespace DecisionSpace

namespace Search

theorem countP_switch {ids : List Nat} (nodup : ids.Nodup) {on off : Nat → Bool} {id : Nat}
    (selected : on id = true) (unselected : off id = false)
    (same : ∀ other, other ≠ id → off other = on other) :
    ids.countP on = ids.countP off + if id ∈ ids then 1 else 0 := by
  induction ids with
  | nil => rfl
  | cons head rest ih =>
      obtain ⟨new, nodup⟩ := List.nodup_cons.mp nodup
      have tail := ih nodup
      by_cases here : head = id
      · subst here
        rw [if_neg new] at tail
        rw [List.countP_cons_of_pos selected, List.countP_cons_of_neg (by simp [unselected]),
          if_pos List.mem_cons_self, tail]
      · have elsewhere : (id ∈ head :: rest) = (id ∈ rest) := by
          simp [Ne.symm here]
        rw [List.countP_cons, List.countP_cons, same head here, tail]
        simp only [elsewhere]
        omega

section
variable {α : Type} (change : α → α)

theorem getElem?_foldl_modify {touched : List Nat} (nodup : touched.Nodup) (entries : List α)
    (k : Nat) :
    (touched.foldl (fun entries k => entries.modify k change) entries)[k]? =
      if k ∈ touched then entries[k]?.map change else entries[k]? := by
  induction touched generalizing entries with
  | nil => simp
  | cons head rest ih =>
      obtain ⟨new, nodup⟩ := List.nodup_cons.mp nodup
      rw [List.foldl_cons, ih nodup]
      by_cases here : head = k
      · subst here
        rw [if_neg new, if_pos List.mem_cons_self, List.getElem?_modify_eq]
        rfl
      · have elsewhere : (k ∈ head :: rest) = (k ∈ rest) := by
          simp [Ne.symm here]
        rw [List.getElem?_modify_ne _ _ here]
        simp only [elsewhere]

theorem length_foldl_modify (touched : List Nat) (entries : List α) :
    (touched.foldl (fun entries k => entries.modify k change) entries).length =
      entries.length := by
  induction touched generalizing entries with
  | nil => rfl
  | cons head rest ih => rw [List.foldl_cons, ih, List.length_modify]

end

end Search

namespace Model

theorem constraintsOn_nodup (m : Model) (id : Nat) : (m.constraintsOn id).Nodup :=
  List.nodup_range.filter _

theorem mem_constraintsOn {m : Model} {k : Nat} {con : Constraint}
    (known : m.constraints[k]? = some con) (id : Nat) :
    k ∈ m.constraintsOn id ↔ id ∈ con.vars := by
  obtain ⟨inRange, same⟩ := List.getElem?_eq_some_iff.mp known
  simp [constraintsOn, same, inRange]

def Counts (m : Model) (isSelected : Nat → Bool) (counts : List Nat) : Prop :=
  ∀ (k : Nat) (con : Constraint), m.constraints[k]? = some con →
    counts[k]? = some (con.selectedCount isSelected)

theorem counts_map (m : Model) (isSelected : Nat → Bool) :
    m.Counts isSelected (m.constraints.map fun con => con.selectedCount isSelected) := by
  intro k con known
  rw [List.getElem?_map, known]
  rfl

section
variable {m : Model} {on off : Nat → Bool} {id : Nat} {counts : List Nat}

theorem selectedCount_switch (distinct : ∀ con ∈ m.constraints, con.vars.Nodup)
    (selected : on id = true) (unselected : off id = false)
    (same : ∀ other, other ≠ id → off other = on other) {k : Nat} {con : Constraint}
    (known : m.constraints[k]? = some con) :
    con.selectedCount on = con.selectedCount off + if k ∈ m.constraintsOn id then 1 else 0 := by
  have nodup := distinct con (List.mem_of_getElem? known)
  simp only [mem_constraintsOn known]
  exact Search.countP_switch nodup selected unselected same

theorem Counts.raise (distinct : ∀ con ∈ m.constraints, con.vars.Nodup)
    (selected : on id = true) (unselected : off id = false)
    (same : ∀ other, other ≠ id → off other = on other) (before : m.Counts off counts) :
    m.Counts on ((m.constraintsOn id).foldl (fun counts k => counts.modify k (· + 1)) counts) := by
  intro k con known
  rw [Search.getElem?_foldl_modify _ (m.constraintsOn_nodup id), before k con known,
    selectedCount_switch distinct selected unselected same known]
  split
  · rfl
  · rfl

theorem Counts.lower (distinct : ∀ con ∈ m.constraints, con.vars.Nodup)
    (selected : on id = true) (unselected : off id = false)
    (same : ∀ other, other ≠ id → off other = on other) (before : m.Counts on counts) :
    m.Counts off ((m.constraintsOn id).foldl (fun counts k => counts.modify k (· - 1)) counts) := by
  intro k con known
  rw [Search.getElem?_foldl_modify _ (m.constraintsOn_nodup id), before k con known,
    selectedCount_switch distinct selected unselected same known]
  split
  · rfl
  · rfl

end

end Model

end DecisionSpace
