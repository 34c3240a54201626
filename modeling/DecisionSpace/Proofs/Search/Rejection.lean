import DecisionSpace.Proofs.Search.Enumeration
import DecisionSpace.Proofs.Search.Witness

/-!
# Rejections

A constraint is beyond repair when more of its variables are selected in every
choice than it allows.  `isNecessary` says which variables these are, and the
counts by it decide whether there is a solution at all.  A solver counts by
`isForced` instead, which takes every nominal variable that is still open to be
selected, also one that may hold the truth value `false`.  A rejection is right
exactly when the necessary variables alone would have led to one.
-/

set_option autoImplicit false

namespace DecisionSpace

def Model.Overfull (m : Model) (isSelected : Nat → Bool) : Prop :=
  ∃ con ∈ m.constraints, con.limit < con.selectedCount isSelected

theorem Model.not_overfull_iff (m : Model) (isSelected : Nat → Bool) :
    ¬ m.Overfull isSelected ↔ ∀ con ∈ m.constraints, con.selectedCount isSelected ≤ con.limit := by
  simp only [Overfull, not_exists, not_and, Nat.not_lt]

theorem Model.Overfull.mono {m : Model} (wellFormed : m.WellFormed) {p q : Nat → Bool}
    (more : ∀ id, id < m.vars.length → p id = true → q id = true) (overfull : m.Overfull p) :
    m.Overfull q := by
  obtain ⟨con, member, beyond⟩ := overfull
  have counts : con.selectedCount p ≤ con.selectedCount q :=
    List.countP_mono_left fun id named => more id (wellFormed.inRange con member id named)
  exact ⟨con, member, by omega⟩

namespace Solver

open Fallible
open Sampling
open Search

def isNecessary (m : Model) (c : Context) (id : Nat) : Bool :=
  match c.get? id with
  | some value => (m.variableAt id).domain.selects value
  | none => (m.variableAt id).domain.mustSelect

def leastValues (m : Model) (c : Context) : List Value :=
  m.vars.zipIdx.map fun (v, id) => (c.get? id).getD v.domain.least

variable {m : Model} {c : Context}

/-! ## Necessary selections -/

theorem isNecessary_of_fixed {id : Nat} {v : Variable} {x : Value} (known : m.vars[id]? = some v)
    (fixed : c.get? id = some x) : isNecessary m c id = v.domain.selects x := by
  simp only [isNecessary, Model.variableAt_of_getElem? known, fixed]

theorem isNecessary_of_open {id : Nat} {v : Variable} (known : m.vars[id]? = some v)
    (unfixed : c.get? id = none) : isNecessary m c id = v.domain.mustSelect := by
  simp only [isNecessary, Model.variableAt_of_getElem? known, unfixed]

theorem getElem?_leastValues {id : Nat} {v : Variable} (known : m.vars[id]? = some v) :
    (leastValues m c)[id]? = some ((c.get? id).getD v.domain.least) := by
  simp [leastValues, List.getElem?_zipIdx, known]

theorem leastValues_canonical (wellFormed : m.WellFormed) (valid : c.validate m = .ok ()) :
    m.Canonical (leastValues m c) := by
  refine List.forall₂_iff_get.mpr ⟨by simp [leastValues], fun id inVars inValues => ?_⟩
  have known := List.getElem?_eq_getElem inVars
  have held := getElem?_leastValues (c := c) known
  rw [List.getElem?_eq_getElem inValues] at held
  rw [List.get_eq_getElem, List.get_eq_getElem, Option.some.inj held]
  cases fixed : c.get? id with
  | some x => exact Context.canonical_of_valid wellFormed valid known fixed
  | none => exact Domain.canonical_least (wellFormed.sound _ (List.getElem_mem inVars))

theorem leastValues_agrees (valid : c.validate m = .ok ()) : c.Agrees (leastValues m c) := by
  intro id x fixed
  obtain ⟨v, known, _⟩ := (Context.validate_ok_iff m c).mp valid id x fixed
  rw [getElem?_leastValues known, fixed, Option.getD_some]

theorem isSelectedIn_leastValues (wellFormed : m.WellFormed) {id : Nat}
    (inVars : id < m.vars.length) :
    m.isSelectedIn (leastValues m c) id = isNecessary m c id := by
  have known := List.getElem?_eq_getElem inVars
  rw [Model.isSelectedIn_of_getElem? known (getElem?_leastValues known)]
  cases fixed : c.get? id with
  | some x =>
      rw [isNecessary_of_fixed known fixed]
      rfl
  | none =>
      rw [isNecessary_of_open known fixed]
      exact Domain.selects_least (wellFormed.sound _ (List.getElem_mem inVars))

theorem isSelectedIn_of_isNecessary (wellFormed : m.WellFormed) {values : List Value}
    (canonical : m.Canonical values) (agrees : c.Agrees values) {id : Nat}
    (inVars : id < m.vars.length) (necessary : isNecessary m c id = true) :
    m.isSelectedIn values id = true := by
  have known := List.getElem?_eq_getElem inVars
  obtain ⟨x, held, own⟩ := canonical.getElem? known
  rw [Model.isSelectedIn_of_getElem? known held]
  cases fixed : c.get? id with
  | some y =>
      have same : y = x := Option.some.inj ((agrees id y fixed).symm.trans held)
      rw [isNecessary_of_fixed known fixed] at necessary
      exact same ▸ necessary
  | none =>
      rw [isNecessary_of_open known fixed] at necessary
      exact Domain.selects_of_mustSelect (wellFormed.sound _ (List.getElem_mem inVars)) necessary own

/-- There is a solution unless some constraint is overfull by its necessary
variables alone. -/
theorem exists_solves_iff (wellFormed : m.WellFormed) (valid : c.validate m = .ok ()) :
    (∃ values, m.Solves c values) ↔ ¬ m.Overfull (isNecessary m c) := by
  constructor
  · rintro ⟨values, solves⟩ overfull
    apply (m.not_overfull_iff (m.isSelectedIn values)).mpr solves.feasible
    apply overfull.mono wellFormed
    exact fun id inVars necessary =>
      isSelectedIn_of_isNecessary wellFormed solves.canonical solves.agrees inVars necessary
  · intro room
    refine ⟨leastValues m c, leastValues_canonical wellFormed valid, leastValues_agrees valid, ?_⟩
    apply (m.not_overfull_iff _).mp
    intro overfull
    apply room
    apply overfull.mono wellFormed
    intro id inVars on
    rwa [isSelectedIn_leastValues wellFormed inVars] at on

theorem overfull_isNecessary_iff (wellFormed : m.WellFormed) (valid : c.validate m = .ok ()) :
    m.Overfull (isNecessary m c) ↔
      ∀ slots a, Assignment.ofSlots m slots = .ok a → a.isComplete = true →
        a.satisfies c = true → a.isFeasible = false := by
  have decided := exists_solves_iff wellFormed valid
  constructor
  · intro overfull slots a made complete agrees
    by_contra feasible
    obtain ⟨values, solves, _⟩ := Assignment.exists_solves wellFormed made complete agrees
      (eq_true_of_ne_false feasible)
    exact decided.mp ⟨values, solves⟩ overfull
  · intro infeasible
    by_contra room
    obtain ⟨values, solves⟩ := decided.mpr room
    have feasible := (Assignment.isFeasible_ofValues solves.canonical).mpr solves.feasible
    have none := infeasible (values.map some) (.ofValues m values)
      ((Assignment.ofSlots_ofValues wellFormed).mpr solves.canonical)
      (Assignment.isComplete_ofValues wellFormed solves.canonical)
      (Assignment.satisfies_ofValues.mpr solves.agrees)
    rw [feasible] at none
    exact absurd none (by simp)

theorem isForced_of_isNecessary {id : Nat} (inVars : id < m.vars.length)
    (necessary : isNecessary m c id = true) : isForced m c id = true := by
  have known := List.getElem?_eq_getElem inVars
  cases fixed : c.get? id with
  | some x =>
      rw [isNecessary_of_fixed known fixed] at necessary
      rw [isForced_of_fixed known fixed, necessary]
  | none =>
      rw [isNecessary_of_open known fixed, Domain.mustSelect_eq] at necessary
      rw [isForced_of_open known fixed, (Bool.and_eq_true_iff.mp necessary).1]

theorem isNecessary_of_isForced {id : Nat} (inVars : id < m.vars.length)
    (noFalse : c.get? id = none → (m.variableAt id).domain.listsFalse = false)
    (forced : isForced m c id = true) : isNecessary m c id = true := by
  have known := List.getElem?_eq_getElem inVars
  cases fixed : c.get? id with
  | some x =>
      rw [isForced_of_fixed known fixed] at forced
      rw [isNecessary_of_fixed known fixed, forced]
  | none =>
      have never := noFalse fixed
      rw [Model.variableAt_of_getElem? known] at never
      rw [isForced_of_open known fixed] at forced
      rw [isNecessary_of_open known fixed, Domain.mustSelect_eq, forced, never]
      rfl

theorem isNecessary_of_extends (wellFormed : m.WellFormed) {c' : Context}
    (extended : c.Extends c') (valid : c'.validate m = .ok ()) {id : Nat}
    (inVars : id < m.vars.length) (necessary : isNecessary m c id = true) :
    isNecessary m c' id = true := by
  have known := List.getElem?_eq_getElem inVars
  cases fixed : c.get? id with
  | some x =>
      rw [isNecessary_of_fixed known fixed] at necessary
      rw [isNecessary_of_fixed known (extended id x fixed), necessary]
  | none =>
      rw [isNecessary_of_open known fixed] at necessary
      cases later : c'.get? id with
      | none => rw [isNecessary_of_open known later, necessary]
      | some y =>
          have own := Context.canonical_of_valid wellFormed valid known later
          rw [isNecessary_of_fixed known later]
          exact Domain.selects_of_mustSelect (wellFormed.sound _ (List.getElem_mem inVars)) necessary own

/-! ## What the check rejects -/

theorem checkContext_ok_iff_not_overfull (valid : c.validate m = .ok ()) :
    checkContext m c = .ok () ↔ ¬ m.Overfull (isForced m c) := by
  rw [checkContext_ok_iff, m.not_overfull_iff]
  exact ⟨fun both => both.2, fun room => ⟨valid, room⟩⟩

theorem rejected_iff_overfull (valid : c.validate m = .ok ()) :
    (∃ cause, checkContext m c = .error (.unsatisfiable cause)) ↔ m.Overfull (isForced m c) := by
  constructor
  · rintro ⟨cause, rejected⟩
    by_contra room
    rw [(checkContext_ok_iff_not_overfull valid).mpr room] at rejected
    exact absurd rejected (by simp)
  · intro overfull
    cases checked : checkContext m c with
    | ok u => exact absurd overfull ((checkContext_ok_iff_not_overfull valid).mp checked)
    | error e =>
        rw [checkContext, valid] at checked
        obtain ⟨con, _, failed⟩ := exists_of_forM_error checked
        simp only [checkForced] at failed
        split at failed
        · exact ⟨_, congrArg Except.error (Except.error.inj failed).symm⟩
        · exact absurd failed (by simp)

theorem checkContext_of_solves (wellFormed : m.WellFormed) {values : List Value}
    (solves : m.Solves c values) : checkContext m (.ofValues values) = .ok () := by
  have valid : (Context.ofValues values).validate m = .ok () := by
    refine (Context.validate_ok_iff m _).mpr fun id x fixed => ?_
    rw [Context.get?_ofValues] at fixed
    obtain ⟨inValues, _⟩ := List.getElem?_eq_some_iff.mp fixed
    have known := List.getElem?_eq_getElem (solves.canonical.length_eq ▸ inValues)
    obtain ⟨y, held, own⟩ := solves.canonical.getElem? known
    obtain rfl := Option.some.inj (fixed.symm.trans held)
    have sound := wellFormed.sound _ (List.mem_of_getElem? known)
    exact ⟨_, known, (Domain.validate_self_iff sound x).mpr own⟩
  apply (checkContext_ok_iff_not_overfull valid).mpr
  intro overfull
  apply (m.not_overfull_iff _).mpr solves.feasible
  apply overfull.mono wellFormed
  intro id inVars forced
  have known := List.getElem?_eq_getElem inVars
  obtain ⟨x, held, _⟩ := solves.canonical.getElem? known
  rw [isForced_of_fixed known ((Context.get?_ofValues values id).trans held)] at forced
  rwa [Model.isSelectedIn_of_getElem? known held]

theorem not_accepted_of_extends (wellFormed : m.WellFormed)
    (overfull : m.Overfull (isNecessary m c)) {c' : Context} (extended : c.Extends c') :
    checkContext m c' ≠ .ok () := by
  intro accepted
  have valid := (checkContext_ok_iff.mp accepted).1
  apply (checkContext_ok_iff_not_overfull valid).mp accepted
  apply overfull.mono wellFormed
  intro id inVars necessary
  exact isForced_of_isNecessary inVars
    (isNecessary_of_extends wellFormed extended valid inVars necessary)

/-! ## What the operations report past the check -/

def IsForcedConflict (e : Failure) : Prop :=
  ∃ forced scope limit, e = .unsatisfiable (.forced forced scope limit)

theorem witness_not_forced {σ : Type} [Chance σ] (wellFormed : m.WellFormed)
    (checked : checkContext m c = .ok ()) (settings : Settings) (s : σ) {e : Failure}
    (failed : (witness ⟨m, settings⟩ c s).1.result = .error e) : ¬ IsForcedConflict e := by
  have valid := (checkContext_ok_iff.mp checked).1
  have model : (⟨m, settings⟩ : Solver).model.WellFormed := wellFormed
  rw [witness_of_checked checked] at failed
  rintro ⟨forced, scope, limit, rfl⟩
  rcases search_error model valid failed with ⟨k, stuck⟩ | exhausted
  · simp at stuck
  · simp at exhausted

theorem distinctWitnesses_not_forced (checked : checkContext m c = .ok ()) (settings : Settings)
    (limit : Nat) (seed : UInt64) {e : Failure}
    (failed : (distinctWitnesses ⟨m, settings⟩ c limit seed).result = .error e) :
    ¬ IsForcedConflict e := by
  unfold distinctWitnesses at failed
  split at failed
  · simp at failed
  · simp only [checked] at failed
    split at failed
    · rintro ⟨forced, scope, limit, rfl⟩
      simp at failed
    · simp at failed

theorem enumerate_not_forced (wellFormed : m.WellFormed) (checked : checkContext m c = .ok ())
    (settings : Settings) (limit : Nat) {e : Failure}
    (failed : enumerate ⟨m, settings⟩ c limit = .error e) : ¬ IsForcedConflict e := by
  rintro ⟨forced, scope, bound, rfl⟩
  rcases Nat.lt_or_ge enumerationLimit m.valueCount with large | small
  · rw [enumerate, if_pos large] at failed
    simp at failed
  · rcases Nat.eq_zero_or_pos limit with rfl | positive
    · rw [enumerate, if_neg (Nat.not_lt_of_le small), if_pos rfl] at failed
      simp at failed
    · rw [enumerate_eq wellFormed small checked settings positive] at failed
      split at failed
      · simp at failed
      · simp at failed

/-! ## When a rejection is right -/

def CountsRightly (m : Model) (c : Context) : Prop :=
  m.Overfull (isForced m c) → m.Overfull (isNecessary m c)

theorem countsRightly_of_noFalse (wellFormed : m.WellFormed)
    (noFalse : ∀ con ∈ m.constraints, ∀ id ∈ con.vars, c.get? id = none →
      (m.variableAt id).domain.listsFalse = false) : CountsRightly m c := by
  rintro ⟨con, member, beyond⟩
  have counts : con.selectedCount (isForced m c) ≤ con.selectedCount (isNecessary m c) := by
    apply List.countP_mono_left
    intro id named forced
    exact isNecessary_of_isForced (wellFormed.inRange con member id named)
      (noFalse con member id named) forced
  exact ⟨con, member, by omega⟩

/-- A rejection means that there is no solution, and that there will be none with
more facts, exactly when the forced variables overfill a constraint only where
the necessary ones do.  This is so if no constraint names an open nominal variable
that may be `false`, and then no operation reports forced variables for a context
that has a solution. -/
theorem rejection_right_iff {serial : Nat} {d : Declaration} {m : Model}
    (built : d.build serial = .ok m) {c : Context} (valid : c.validate m = .ok ()) :
    ((∀ cause, checkContext m c = .error (.unsatisfiable cause) →
      ∀ slots a, Assignment.ofSlots m slots = .ok a → a.isComplete = true →
        a.satisfies c = true → a.isFeasible = false) ↔ CountsRightly m c) ∧
    ((∀ cause, checkContext m c = .error (.unsatisfiable cause) →
      ∀ c', c.Extends c' → checkContext m c' ≠ .ok ()) ↔ CountsRightly m c) ∧
    (CountsRightly m c →
      (∃ slots a, Assignment.ofSlots m slots = .ok a ∧ a.isComplete = true ∧
        a.satisfies c = true ∧ a.isFeasible = true) →
      checkContext m c = .ok () ∧ ∀ settings e,
        (∀ (σ : Type) [Chance σ] (s : σ),
          (witness ⟨m, settings⟩ c s).1.result = .error e → ¬ IsForcedConflict e) ∧
        (∀ limit seed, (distinctWitnesses ⟨m, settings⟩ c limit seed).result = .error e →
          ¬ IsForcedConflict e) ∧
        (∀ limit, enumerate ⟨m, settings⟩ c limit = .error e → ¬ IsForcedConflict e)) ∧
    ((∀ con ∈ m.constraints, ∀ id ∈ con.vars, c.get? id = none →
      (m.variableAt id).domain.listsFalse = false) → CountsRightly m c) := by
  have wellFormed := Declaration.build_wellFormed built
  have infeasible := overfull_isNecessary_iff wellFormed valid
  refine ⟨⟨fun right overfull => ?_, fun right cause rejected => ?_⟩,
    ⟨fun lasting overfull => ?_, fun right cause rejected c' extended => ?_⟩,
    fun right solvable => ?_, countsRightly_of_noFalse wellFormed⟩
  · obtain ⟨cause, rejected⟩ := (rejected_iff_overfull valid).mpr overfull
    exact infeasible.mpr (right cause rejected)
  · exact infeasible.mp (right ((rejected_iff_overfull valid).mp ⟨cause, rejected⟩))
  · -- otherwise there is a solution, and fixing all of it is an extension that is accepted
    by_contra room
    obtain ⟨cause, rejected⟩ := (rejected_iff_overfull valid).mpr overfull
    obtain ⟨values, solves⟩ := (exists_solves_iff wellFormed valid).mpr room
    have extended : c.Extends (.ofValues values) := by
      intro id x fixed
      rw [Context.get?_ofValues]
      exact solves.agrees id x fixed
    exact lasting cause rejected _ extended (checkContext_of_solves wellFormed solves)
  · have overfull := right ((rejected_iff_overfull valid).mp ⟨cause, rejected⟩)
    exact not_accepted_of_extends wellFormed overfull extended
  · have checked : checkContext m c = .ok () := by
      apply (checkContext_ok_iff_not_overfull valid).mpr
      intro overfull
      obtain ⟨slots, a, made, complete, agrees, feasible⟩ := solvable
      rw [infeasible.mp (right overfull) slots a made complete agrees] at feasible
      exact absurd feasible (by simp)
    refine ⟨checked, fun settings e => ⟨fun σ _ s failed => ?_, fun limit seed failed => ?_,
      fun limit failed => ?_⟩⟩
    · exact witness_not_forced wellFormed checked settings s failed
    · exact distinctWitnesses_not_forced checked settings limit seed failed
    · exact enumerate_not_forced wellFormed checked settings limit failed

theorem rejection_right_iff_overfull :
    Examples.overfull.build 0 = .ok Examples.overfullModel ∧
      Context.empty.validate Examples.overfullModel = .ok () ∧
      checkContext Examples.overfullModel .empty =
        .error (.unsatisfiable (.forced 2 "Root" 1)) ∧
      (∀ slots a, Assignment.ofSlots Examples.overfullModel slots = .ok a →
        a.isComplete = true → a.satisfies .empty = true → a.isFeasible = false) ∧
      checkContext Examples.overfullModel (Context.empty.insert ⟨2, .bool false⟩) ≠ .ok () := by
  have built : Examples.overfull.build 0 = .ok Examples.overfullModel := rfl
  have rejected : checkContext Examples.overfullModel .empty =
      .error (.unsatisfiable (.forced 2 "Root" 1)) := rfl
  obtain ⟨right, lasting, _, sufficient⟩ := rejection_right_iff built (c := .empty) rfl
  have counts := sufficient (by decide)
  refine ⟨built, rfl, rejected, right.mpr counts _ rejected, lasting.mpr counts _ rejected _ ?_⟩
  exact Context.extends_insert _ _ (by simp [Context.get?, Context.empty, Table.get?, Table.empty])

/-- A choice that may be `false` is rejected, although holding `false` it is
feasible and the context that says so is accepted. -/
theorem rejection_falseChoice :
    Examples.falseChoice.build 0 = .ok Examples.falseChoiceModel ∧
      Context.empty.validate Examples.falseChoiceModel = .ok () ∧
      checkContext Examples.falseChoiceModel .empty =
        .error (.unsatisfiable (.forced 1 "Root" 0)) ∧
      (∃ a, Assignment.ofSlots Examples.falseChoiceModel [some (.bool false)] = .ok a ∧
        a.isComplete = true ∧ a.satisfies .empty = true ∧ a.isFeasible = true) ∧
      checkContext Examples.falseChoiceModel (Context.empty.insert ⟨0, .bool false⟩) = .ok () ∧
      enumerate ⟨Examples.falseChoiceModel, {}⟩ .empty 10 =
        .error (.unsatisfiable (.forced 1 "Root" 0)) ∧
      Search.enumerate Examples.falseChoiceModel .empty 10 = .ok [[.bool false]] :=
  ⟨rfl, rfl, rfl, ⟨_, rfl, rfl, rfl, rfl⟩, rfl, rfl, rfl⟩

end Solver

end DecisionSpace
