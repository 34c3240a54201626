import DecisionSpace.Assignment
import DecisionSpace.Proofs.Built
import DecisionSpace.Proofs.Context

/-!
# Solutions

The searches work on value vectors, one value for each variable.  A vector is
canonical when every value is; such vectors are the complete assignments of the
model seen from the root, and `Solves` says of a vector what `IsSolution` says of
the assignment.
-/

set_option autoImplicit false

namespace DecisionSpace

open Fallible

/-! ## Value vectors -/

def Model.Canonical (m : Model) (values : List Value) : Prop :=
  List.Forall₂ (fun v x => v.domain.Canonical x) m.vars values

def Context.Agrees (c : Context) (values : List Value) : Prop :=
  ∀ id x, c.get? id = some x → values[id]? = some x

def Model.isSelectedIn (m : Model) (values : List Value) (id : Nat) : Bool :=
  ((m.vars.zip values)[id]?).any fun p => p.1.domain.selects p.2

structure Model.Solves (m : Model) (c : Context) (values : List Value) : Prop where
  canonical : m.Canonical values
  agrees : c.Agrees values
  feasible : ∀ k ∈ m.constraints, k.selectedCount (m.isSelectedIn values) ≤ k.limit

/-- What a search is asked for: an assignment of the whole model in which every
variable has a canonical value, which holds the facts of the context and
satisfies every constraint. -/
structure Assignment.IsSolution (m : Model) (c : Context) (a : Assignment) : Prop where
  model : a.model = m
  root : a.scope = 0
  size : a.slots.length = m.vars.length
  canonical : ∀ id v, m.vars[id]? = some v →
    ∃ x, a.value? id = some x ∧ v.domain.validate x = .ok x
  satisfies : a.satisfies c = true
  feasible : a.isFeasible = true

theorem Context.canonical_of_valid {m : Model} (wellFormed : m.WellFormed) {c : Context}
    (valid : c.validate m = .ok ()) {id : Nat} {v : Variable} {x : Value}
    (known : m.vars[id]? = some v) (fixed : c.get? id = some x) : v.domain.Canonical x := by
  obtain ⟨w, same, accepted⟩ := (Context.validate_ok_iff m c).mp valid id x fixed
  obtain rfl : v = w := Option.some.inj (known.symm.trans same)
  exact (Domain.validate_self_iff (wellFormed.sound v (List.mem_of_getElem? known)) x).mp accepted

/-! ## Vectors from a position on

The searches go through the variables in order, so what is said of a context and
a vector is said of what is left of them. -/

namespace Context

def CanonicalFrom (c : Context) (id : Nat) (vars : List Variable) : Prop :=
  ∀ i v x, vars[i]? = some v → c.get? (id + i) = some x → v.domain.Canonical x

def AgreesFrom (c : Context) (id : Nat) (values : List Value) : Prop :=
  ∀ i x y, values[i]? = some x → c.get? (id + i) = some y → x = y

theorem canonicalFrom_cons {c : Context} {id : Nat} {v : Variable} {rest : List Variable} :
    c.CanonicalFrom id (v :: rest) ↔
      (∀ x, c.get? id = some x → v.domain.Canonical x) ∧ c.CanonicalFrom (id + 1) rest := by
  constructor
  · intro all
    refine ⟨fun x fixed => all 0 v x rfl fixed, fun i w x known fixed => ?_⟩
    rw [Nat.add_assoc, Nat.add_comm 1] at fixed
    exact all (i + 1) w x known fixed
  · rintro ⟨head, tail⟩ i w x known fixed
    cases i with
    | zero => exact Option.some.inj known ▸ head x fixed
    | succ i =>
        rw [Nat.add_comm i, ← Nat.add_assoc] at fixed
        exact tail i w x known fixed

theorem agreesFrom_nil (c : Context) (id : Nat) : c.AgreesFrom id [] := by
  intro i x y held
  simp at held

theorem agreesFrom_cons {c : Context} {id : Nat} {x : Value} {rest : List Value} :
    c.AgreesFrom id (x :: rest) ↔
      (∀ y, c.get? id = some y → x = y) ∧ c.AgreesFrom (id + 1) rest := by
  constructor
  · intro all
    refine ⟨fun y fixed => all 0 x y rfl fixed, fun i a b held fixed => ?_⟩
    rw [Nat.add_assoc, Nat.add_comm 1] at fixed
    exact all (i + 1) a b held fixed
  · rintro ⟨head, tail⟩ i a b held fixed
    cases i with
    | zero => exact Option.some.inj held ▸ head b fixed
    | succ i =>
        rw [Nat.add_comm i, ← Nat.add_assoc] at fixed
        exact tail i a b held fixed

theorem canonicalFrom_zero {m : Model} (wellFormed : m.WellFormed) {c : Context}
    (valid : c.validate m = .ok ()) : c.CanonicalFrom 0 m.vars := by
  intro id v x known fixed
  rw [Nat.zero_add] at fixed
  exact canonical_of_valid wellFormed valid known fixed

theorem agreesFrom_zero_iff {m : Model} {c : Context} (valid : c.validate m = .ok ())
    {values : List Value} (size : values.length = m.vars.length) :
    c.AgreesFrom 0 values ↔ c.Agrees values := by
  constructor
  · intro agrees id x fixed
    obtain ⟨v, known, _⟩ := (validate_ok_iff m c).mp valid id x fixed
    obtain ⟨inVars, _⟩ := List.getElem?_eq_some_iff.mp known
    have held := List.getElem?_eq_getElem (size ▸ inVars : id < values.length)
    rw [held, agrees id _ x held (by rwa [Nat.zero_add])]
  · intro agrees id x y held fixed
    rw [Nat.zero_add] at fixed
    exact Option.some.inj (held.symm.trans (agrees id y fixed))

end Context

namespace Model.Canonical

variable {m : Model} {values : List Value}

theorem length_eq (canonical : m.Canonical values) : values.length = m.vars.length :=
  (List.Forall₂.length_eq canonical).symm

theorem getElem? (canonical : m.Canonical values) {id : Nat} {v : Variable}
    (known : m.vars[id]? = some v) : ∃ x, values[id]? = some x ∧ v.domain.Canonical x := by
  obtain ⟨inVars, rfl⟩ := List.getElem?_eq_some_iff.mp known
  have inValues : id < values.length := canonical.length_eq ▸ inVars
  exact ⟨values[id], List.getElem?_eq_getElem inValues, List.Forall₂.get canonical inVars inValues⟩

theorem set (canonical : m.Canonical values) {id : Nat} {v : Variable}
    (known : m.vars[id]? = some v) {x : Value} (own : v.domain.Canonical x) :
    m.Canonical (values.set id x) :=
  forall₂_set canonical known own

end Model.Canonical

namespace Model

variable {m : Model} {values : List Value}

theorem isSelectedIn_of_getElem? {id : Nat} {v : Variable} {x : Value}
    (known : m.vars[id]? = some v) (held : values[id]? = some x) :
    m.isSelectedIn values id = v.domain.selects x := by
  have pair : (m.vars.zip values)[id]? = some (v, x) :=
    List.getElem?_zip_eq_some.mpr ⟨known, held⟩
  simp [isSelectedIn, pair]

theorem isSelectedIn_of_length_le {id : Nat} (outside : m.vars.length ≤ id) :
    m.isSelectedIn values id = false := by
  have none : (m.vars.zip values)[id]? = none := by
    rw [List.getElem?_eq_none_iff, List.length_zip]
    omega
  simp [isSelectedIn, none]

theorem getElem?_of_isSelectedIn {id : Nat} (on : m.isSelectedIn values id = true) :
    ∃ v x, m.vars[id]? = some v ∧ values[id]? = some x ∧ v.domain.selects x = true := by
  obtain ⟨⟨v, x⟩, pair, on⟩ := (Option.any_eq_true _ _).mp on
  obtain ⟨known, held⟩ := List.getElem?_zip_eq_some.mp pair
  exact ⟨v, x, known, held, on⟩

theorem isSelectedIn_set {id : Nat} {v : Variable} {x y : Value}
    (known : m.vars[id]? = some v) (held : values[id]? = some x) :
    m.isSelectedIn (values.set id y) id = v.domain.selects y := by
  obtain ⟨inValues, _⟩ := List.getElem?_eq_some_iff.mp held
  exact isSelectedIn_of_getElem? known (List.getElem?_set_self inValues)

theorem isSelectedIn_set_of_ne {id other : Nat} {y : Value} (different : other ≠ id) :
    m.isSelectedIn (values.set id y) other = m.isSelectedIn values other := by
  have unchanged : (m.vars.zip (values.set id y))[other]? = (m.vars.zip values)[other]? := by
    simp only [List.zip, List.getElem?_zipWith, List.getElem?_set_ne different.symm]
  simp [isSelectedIn, unchanged]

end Model

/-! ## Assignments of value vectors -/

namespace Assignment

def ofValues (m : Model) (values : List Value) : Assignment := ⟨m, 0, values.map some⟩

variable {m : Model} {c : Context} {values : List Value}

theorem alike_iff (a b : Assignment) : a.alike b ↔ a.scope = b.scope ∧ a.slots = b.slots := by
  simp [alike]

theorem alike_iff_eq {a b : Assignment} (same : a.model = b.model) : a.alike b ↔ a = b := by
  rw [alike_iff]
  obtain ⟨model, scope, slots⟩ := a
  obtain ⟨otherModel, otherScope, otherSlots⟩ := b
  obtain rfl : model = otherModel := same
  simp

@[simp]
theorem value?_ofValues (id : Nat) : (ofValues m values).value? id = values[id]? := by
  simp only [value?, ofValues, List.getElem?_map]
  cases values[id]? <;> rfl

theorem satisfies_iff (a : Assignment) (c : Context) :
    a.satisfies c = true ↔ ∀ id x, c.get? id = some x → a.value? id = some x := by
  simp only [satisfies, List.all_eq_true, decide_eq_true_eq, Prod.forall]
  exact forall₂_congr fun id x => by rw [Context.mem_entries_iff]

theorem isFeasible_iff (a : Assignment) :
    a.isFeasible = true ↔
      ∀ k ∈ a.model.constraints, k.selectedCount a.isSelected ≤ k.limit := by
  simp [isFeasible, Constraint.isSatisfied, Constraint.violation, Nat.sub_eq_zero_iff_le]

theorem satisfies_ofValues : (ofValues m values).satisfies c = true ↔ c.Agrees values := by
  simp [satisfies_iff, Context.Agrees]

theorem isSelected_eq_isSelectedIn {a : Assignment} (full : a.slots.length = a.model.vars.length)
    (size : values.length = a.model.vars.length)
    (same : ∀ id x, values[id]? = some x → (a.value? id).any Value.isSelected = x.isSelected)
    (id : Nat) : a.isSelected id = a.model.isSelectedIn values id := by
  cases known : a.model.vars[id]? with
  | none =>
      have outside := List.getElem?_eq_none_iff.mp known
      have absent : a.slots[id]? = none := by rwa [List.getElem?_eq_none_iff, full]
      have unknown : a.model.variableAt id = default := by simp [Model.variableAt, known]
      rw [Model.isSelectedIn_of_length_le outside]
      simp only [isSelected, value?, absent, unknown]
      rfl
  | some v =>
      obtain ⟨inVars, _⟩ := List.getElem?_eq_some_iff.mp known
      have held := List.getElem?_eq_getElem (size ▸ inVars : id < values.length)
      rw [Model.isSelectedIn_of_getElem? known held]
      simp only [isSelected, Model.variableAt_of_getElem? known, same id _ held]
      cases v.domain <;> rfl

theorem isSelected_ofValues (canonical : m.Canonical values) (id : Nat) :
    (ofValues m values).isSelected id = m.isSelectedIn values id := by
  apply isSelected_eq_isSelectedIn (a := ofValues m values) _ canonical.length_eq
  · intro id x held
    rw [value?_ofValues, held, Option.any_some]
  · exact (List.length_map some).trans canonical.length_eq

theorem isFeasible_ofValues (canonical : m.Canonical values) :
    (ofValues m values).isFeasible = true ↔
      ∀ k ∈ m.constraints, k.selectedCount (m.isSelectedIn values) ≤ k.limit := by
  have same : (ofValues m values).isSelected = m.isSelectedIn values :=
    funext fun id => isSelected_ofValues canonical id
  rw [isFeasible_iff, same]
  rfl

/-! ## What `ofSlots` accepts -/

theorem ofSlots_ok_iff (m : Model) (slots : List (Option Value)) (a : Assignment) :
    ofSlots m slots = .ok a ↔
      slots.length = m.vars.length ∧ a.model = m ∧ a.scope = 0 ∧
        List.Forall₂ (fun p slot => fillSlot p.1 p.2 = .ok slot) (m.vars.zip slots) a.slots := by
  obtain ⟨model, scope, filled⟩ := a
  simp only [ofSlots]
  split
  · rename_i wrong
    simp [wrong]
  · rename_i right
    rw [map_ok_iff]
    simp only [Assignment.mk.injEq, mapM_ok_iff]
    constructor
    · rintro ⟨_, related, rfl, rfl, rfl⟩
      exact ⟨not_not.mp right, rfl, rfl, related⟩
    · rintro ⟨_, rfl, rfl, related⟩
      exact ⟨filled, related, rfl, rfl, rfl⟩

theorem fillSlot_some_ok_iff (v : Variable) (x : Value) (slot : Option Value) :
    fillSlot v (some x) = .ok slot ↔ ∃ y, v.domain.validate x = .ok y ∧ some y = slot := by
  simp only [fillSlot, map_ok_iff, Variable.validate, mapError_ok_iff]

theorem canonical_of_fillSlot {v : Variable} (sound : v.domain.Sound) {slot : Option Value}
    {y : Value} (run : fillSlot v slot = .ok (some y)) : v.domain.Canonical y := by
  cases slot with
  | some x =>
      obtain ⟨_, valid, same⟩ := (fillSlot_some_ok_iff v x (some y)).mp run
      obtain rfl := Option.some.inj same
      exact Domain.canonical_of_validate sound valid
  | none =>
      simp only [fillSlot] at run
      split at run
      · simp_all
      · rename_i c _ constant
        rw [constant, ← Option.some.inj (Except.ok.inj run)]
        exact .constant c
      · exact absurd run (by simp)

theorem fillSlot_related (vars : List Variable) (values : List Value)
    (sound : ∀ v ∈ vars, v.domain.Sound) (size : values.length = vars.length) :
    List.Forall₂ (fun p slot => fillSlot p.1 p.2 = .ok slot) (vars.zip (values.map some))
        (values.map some) ↔
      List.Forall₂ (fun v x => v.domain.Canonical x) vars values := by
  induction vars generalizing values with
  | nil =>
      rw [List.length_nil, List.length_eq_zero_iff] at size
      simp [size]
  | cons v rest ih =>
      cases values with
      | nil => simp at size
      | cons x xs =>
          simp only [List.forall_mem_cons] at sound
          simp only [List.map_cons, List.zip_cons_cons, List.forall₂_cons]
          rw [ih xs sound.2 (by simpa using size), fillSlot_some_ok_iff]
          simp [Domain.validate_self_iff sound.1]

theorem ofSlots_ofValues (wellFormed : m.WellFormed) :
    ofSlots m (values.map some) = .ok (ofValues m values) ↔ m.Canonical values := by
  rw [ofSlots_ok_iff]
  simp only [ofValues, List.length_map, true_and]
  constructor
  · rintro ⟨size, related⟩
    exact (fillSlot_related m.vars values wellFormed.sound size).mp related
  · intro canonical
    exact ⟨canonical.length_eq,
      (fillSlot_related m.vars values wellFormed.sound canonical.length_eq).mpr canonical⟩

/-! ## Complete assignments -/

theorem exists_values (wellFormed : m.WellFormed) {slots : List (Option Value)} {a : Assignment}
    (made : ofSlots m slots = .ok a) (complete : a.isComplete = true) :
    ∃ values, m.Canonical values ∧ a = ofValues m values := by
  obtain ⟨size, rfl, root, related⟩ := (ofSlots_ok_iff _ slots a).mp made
  obtain ⟨m, scope, filled⟩ := a
  dsimp only at size root related wellFormed
  subst root
  have filledSize : filled.length = m.vars.length := by
    rw [← List.Forall₂.length_eq related, List.length_zip, size, Nat.min_self]
  have present : ∀ id, id < m.vars.length → ∃ x, filled[id]? = some (some x) := by
    intro id inVars
    have listed : id ∈ (Assignment.view ⟨m, 0, filled⟩).subtree := by
      change id ∈ m.root.subtree
      rw [wellFormed.root]
      exact List.mem_range.mpr inVars
    have held := List.all_eq_true.mp complete id listed
    obtain ⟨x, found⟩ := Option.isSome_iff_exists.mp held
    exact ⟨x, Option.join_eq_some_iff.mp found⟩
  refine ⟨filled.map fun slot => slot.getD default, ?_, ?_⟩
  · refine List.forall₂_iff_get.mpr ⟨by simp [filledSize], ?_⟩
    intro id inVars inValues
    obtain ⟨x, found⟩ := present id inVars
    obtain ⟨inFilled, same⟩ := List.getElem?_eq_some_iff.mp found
    have step := List.Forall₂.get related (by simpa [size] using inVars) inFilled
    simp only [List.get_eq_getElem, List.getElem_zip, List.getElem_map, same, Option.getD_some]
      at step ⊢
    exact canonical_of_fillSlot (wellFormed.sound _ (List.getElem_mem inVars)) step
  · have restored : ∀ slot ∈ filled, some (slot.getD default) = slot := by
      intro slot member
      obtain ⟨id, inFilled, rfl⟩ := List.mem_iff_getElem.mp member
      obtain ⟨x, found⟩ := present id (filledSize ▸ inFilled)
      obtain ⟨_, same⟩ := List.getElem?_eq_some_iff.mp found
      simp [same]
    have slots : filled = (filled.map fun slot => slot.getD default).map some := by
      rw [List.map_map]
      conv_lhs => rw [← List.map_id filled]
      exact List.map_congr_left fun slot member => (restored slot member).symm
    rw [ofValues, ← slots]

theorem isComplete_ofValues (wellFormed : m.WellFormed) (canonical : m.Canonical values) :
    (ofValues m values).isComplete = true := by
  refine List.all_eq_true.mpr fun id listed => ?_
  change id ∈ m.root.subtree at listed
  rw [wellFormed.root, List.mem_range] at listed
  rw [value?_ofValues]
  obtain ⟨x, held, _⟩ := canonical.getElem? (List.getElem?_eq_getElem listed)
  rw [held]
  rfl

theorem isSolution_ofValues (wellFormed : m.WellFormed) (solves : m.Solves c values) :
    IsSolution m c (ofValues m values) := by
  refine ⟨rfl, rfl, ?_, ?_, satisfies_ofValues.mpr solves.agrees,
    (isFeasible_ofValues solves.canonical).mpr solves.feasible⟩
  · simpa [ofValues] using solves.canonical.length_eq
  · intro id v known
    obtain ⟨x, held, own⟩ := solves.canonical.getElem? known
    refine ⟨x, by rw [value?_ofValues, held], ?_⟩
    exact (Domain.validate_self_iff (wellFormed.sound v (List.mem_of_getElem? known)) x).mpr own

theorem exists_solves (wellFormed : m.WellFormed) {slots : List (Option Value)} {a : Assignment}
    (made : ofSlots m slots = .ok a) (complete : a.isComplete = true)
    (agrees : a.satisfies c = true) (feasible : a.isFeasible = true) :
    ∃ values, m.Solves c values ∧ a = ofValues m values := by
  obtain ⟨values, canonical, rfl⟩ := exists_values wellFormed made complete
  exact ⟨values, ⟨canonical, satisfies_ofValues.mp agrees,
    (isFeasible_ofValues canonical).mp feasible⟩, rfl⟩

end Assignment

end DecisionSpace
