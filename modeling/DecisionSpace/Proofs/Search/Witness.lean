import DecisionSpace.Examples
import DecisionSpace.Proofs.Search.Attempt
import DecisionSpace.Sampling.Generator

/-!
# Witnesses

Every witness is a solution, for every model that was built, every context and
every source.  When the flips of an attempt are at least as many as the
variables, the converse holds as well: a solver finds a witness at its first
attempt as soon as the forced variables leave every constraint within its limit.
-/

set_option autoImplicit false

namespace DecisionSpace.Solver

open Sampling
open Search

variable {σ : Type} [Chance σ]

/-! ## What a witness is -/

theorem search_error {solver : Solver} {c : Context}
    (wellFormed : solver.model.WellFormed) (valid : c.validate solver.model = .ok ())
    {attempts : Nat} {s : σ} {e : Failure}
    (failed : (search solver c attempts s).1.result = .error e) :
    (∃ k, e = .unsatisfiable (.stuck k)) ∨
      e = .unsatisfiable
        (.exhausted solver.model.name solver.settings.restarts solver.stepLimit) := by
  induction attempts generalizing s with
  | zero =>
      simp only [search] at failed
      exact .inr (Except.error.inj failed).symm
  | succ attempts ih =>
      rw [search_succ] at failed
      cases outcome : (solver.attempt c s).1.outcome with
      | repaired => simp [outcome, ofSlots_attempt wellFormed valid] at failed
      | stuck k =>
          simp only [outcome] at failed
          exact .inl ⟨k, (Except.error.inj failed).symm⟩
      | limitReached =>
          simp only [outcome] at failed
          exact ih failed

theorem exists_solves_of_witness {solver : Solver} {c : Context}
    (wellFormed : solver.model.WellFormed) {s : σ} {a : Assignment}
    (found : (solver.witness c s).1.result = .ok a) :
    ∃ values, solver.model.Solves c values ∧ a = .ofValues solver.model values := by
  have checked := checked_of_witness found
  have valid := (checkContext_ok_iff.mp checked).1
  rw [witness_of_checked checked] at found
  obtain ⟨s', repaired, made⟩ := exists_attempt_of_search found
  rw [ofSlots_attempt wellFormed valid] at made
  exact ⟨_, solves_of_repaired wellFormed valid repaired, (Except.ok.inj made).symm⟩

/-- Every witness of a solver, whatever its settings and its source, is a solution
that holds every constant; and the assignment of the repaired values is always
made. -/
theorem witness_isSolution {serial : Nat} {d : Declaration} {solver : Solver}
    (built : d.build serial = .ok solver.model) (c : Context) (s : σ) :
    (∀ a, (solver.witness c s).1.result = .ok a →
      a.IsSolution solver.model c ∧
        ∀ id v x, solver.model.vars[id]? = some v → v.domain = .constant x →
          a.value? id = some x) ∧
    (c.validate solver.model = .ok () →
      (∀ s' : σ, ∃ a, Assignment.ofSlots solver.model
        ((solver.attempt c s').1.state.values.map some) = .ok a) ∧
      ∀ attempts (s' : σ) e, (search solver c attempts s').1.result = .error e →
        (∃ k, e = .unsatisfiable (.stuck k)) ∨
          e = .unsatisfiable
            (.exhausted solver.model.name solver.settings.restarts solver.stepLimit)) := by
  have wellFormed := Declaration.build_wellFormed built
  refine ⟨fun a found => ?_, fun valid => ⟨fun s' => ⟨_, ofSlots_attempt wellFormed valid s'⟩,
    fun attempts s' e failed => search_error wellFormed valid failed⟩⟩
  obtain ⟨values, solves, rfl⟩ := exists_solves_of_witness wellFormed found
  refine ⟨Assignment.isSolution_ofValues wellFormed solves, fun id v x known constant => ?_⟩
  obtain ⟨y, held, own⟩ := solves.canonical.getElem? known
  rw [constant] at own
  cases own
  rw [Assignment.value?_ofValues, held]

theorem witness_isSolution_overlapping :
    Examples.overlapping.build 0 = .ok Examples.overlappingModel ∧
      (Context.ofFact ⟨1, .bool true⟩).validate Examples.overlappingModel = .ok () ∧
      (∃ a : Assignment,
        a.slots = [some (.bool false), some (.bool true),
          some (.selection [.text "y", .text "z"]), some (.int 1)] ∧
        ((⟨Examples.overlappingModel, {}⟩ : Solver).witness (.ofFact ⟨1, .bool true⟩)
          (Script.ofWords [0])).1.result = .ok a ∧
        a.IsSolution Examples.overlappingModel (.ofFact ⟨1, .bool true⟩)) ∧
      ∀ s : Script, ∃ a, Assignment.ofSlots Examples.overlappingModel
        (((⟨Examples.overlappingModel, {}⟩ : Solver).attempt
          (.ofFact ⟨1, .bool true⟩) s).1.state.values.map some) = .ok a := by
  have built : Examples.overlapping.build 0 =
      .ok (⟨Examples.overlappingModel, {}⟩ : Solver).model := rfl
  have spec := witness_isSolution built (.ofFact ⟨1, .bool true⟩) (Script.ofWords [0])
  refine ⟨built, rfl, ⟨⟨Examples.overlappingModel, 0, _⟩, rfl, rfl, ?_⟩, (spec.2 rfl).1⟩
  exact (spec.1 _ rfl).1

/-! ## When there is a witness -/

theorem length_le_stepLimit {settings : Settings} {vars : Nat}
    (automatic : settings.maxRepairSteps = none) (granted : 1 ≤ settings.repairStepsPerVariable)
    (counted : vars ≤ maxFlips) : vars ≤ settings.stepLimit vars := by
  simp only [Settings.stepLimit, automatic]
  have product : vars ≤ settings.repairStepsPerVariable * vars := Nat.le_mul_of_pos_left vars granted
  exact le_max_of_le_left (le_min product counted)

theorem attempt_repaired {solver : Solver} {c : Context} (wellFormed : solver.model.WellFormed)
    (checked : checkContext solver.model c = .ok ())
    (enough : solver.model.vars.length ≤ solver.stepLimit) (s : σ) :
    (solver.attempt c s).1.outcome = .repaired := by
  obtain ⟨valid, room⟩ := checkContext_ok_iff.mp checked
  have consistent := start_consistent wellFormed valid s
  cases outcome : (solver.attempt c s).1.outcome with
  | repaired => rfl
  | limitReached => exact absurd outcome (not_limitReached wellFormed consistent _ enough _)
  | stuck k => exact absurd outcome (not_stuck wellFormed room consistent _ _ _ k)

theorem witness_eq_attempt {solver : Solver} {c : Context} (wellFormed : solver.model.WellFormed)
    (checked : checkContext solver.model c = .ok ()) (attempted : 1 ≤ solver.settings.restarts)
    (enough : solver.model.vars.length ≤ solver.stepLimit) (s : σ) :
    solver.witness c s =
      (⟨.ok (.ofValues solver.model (solver.attempt c s).1.state.values),
        { witnesses := 1, repairSteps := .ofNat (solver.attempt c s).1.state.flips }⟩,
        (solver.attempt c s).2) := by
  obtain ⟨attempts, restarts⟩ := Nat.exists_eq_add_of_le' attempted
  have valid := (checkContext_ok_iff.mp checked).1
  simp only [witness, checked, restarts, search_succ,
    attempt_repaired wellFormed checked enough s, ofSlots_attempt wellFormed valid s, Run.counted]
  simp [Tally.add]

/-- A repair that begins is never stuck.  With an attempt to make and a flip for
each variable, the first attempt succeeds, so that a solver finds a witness
exactly when the context is valid and leaves room for the forced variables.
Settings without an explicit bound grant as many flips, as long as the variables
can be counted at all. -/
theorem witness_ok_iff {serial : Nat} {d : Declaration} {solver : Solver}
    (built : d.build serial = .ok solver.model) (c : Context) :
    (checkContext solver.model c = .ok () →
      ∀ (policy : RepairPolicy) (flips : Nat) (s s' : σ) (k : Nat),
        (repair solver.model c policy flips
          (.ofValues solver.model (start solver.model c s).1) s').1.outcome ≠ .stuck k) ∧
    (1 ≤ solver.settings.restarts → solver.model.vars.length ≤ solver.stepLimit → ∀ s : σ,
      (checkContext solver.model c = .ok () →
        ∃ a flips, solver.witness c s =
          (⟨.ok a, { witnesses := 1, failures := 0, restarts := 0, repairSteps := flips }⟩,
            (solver.attempt c s).2)) ∧
      ((∃ a, (solver.witness c s).1.result = .ok a) ↔
        c.validate solver.model = .ok () ∧
          ∀ con ∈ solver.model.constraints,
            con.selectedCount (isForced solver.model c) ≤ con.limit)) ∧
    (solver.settings.maxRepairSteps = none → 1 ≤ solver.settings.repairStepsPerVariable →
      solver.model.vars.length ≤ maxFlips → solver.model.vars.length ≤ solver.stepLimit) := by
  have wellFormed := Declaration.build_wellFormed built
  refine ⟨fun checked policy flips s s' k => ?_, fun attempted enough s => ⟨fun checked => ?_, ?_⟩, ?_⟩
  · obtain ⟨valid, room⟩ := checkContext_ok_iff.mp checked
    exact not_stuck wellFormed room (start_consistent wellFormed valid s) policy flips s' k
  · exact ⟨_, _, witness_eq_attempt wellFormed checked attempted enough s⟩
  · rw [← checkContext_ok_iff]
    constructor
    · rintro ⟨a, found⟩
      exact checked_of_witness found
    · intro checked
      rw [witness_eq_attempt wellFormed checked attempted enough s]
      exact ⟨_, rfl⟩
  · exact fun automatic granted counted => length_le_stepLimit automatic granted counted

theorem witness_ok_iff_overlapping :
    Examples.overlapping.build 0 = .ok Examples.overlappingModel ∧
      checkContext Examples.overlappingModel (.ofFact ⟨1, .bool true⟩) = .ok () ∧
      4 ≤ (⟨Examples.overlappingModel, {}⟩ : Solver).stepLimit ∧
      ∃ a flips, (⟨Examples.overlappingModel, {}⟩ : Solver).witness (.ofFact ⟨1, .bool true⟩)
          (Script.ofWords [0]) =
        (⟨.ok a, { witnesses := 1, failures := 0, restarts := 0, repairSteps := flips }⟩,
          ((⟨Examples.overlappingModel, {}⟩ : Solver).attempt (.ofFact ⟨1, .bool true⟩)
            (Script.ofWords [0])).2) := by
  have built : Examples.overlapping.build 0 =
      .ok (⟨Examples.overlappingModel, {}⟩ : Solver).model := rfl
  obtain ⟨_, complete, automatic⟩ :=
    @witness_ok_iff Script _ _ _ _ built (.ofFact ⟨1, .bool true⟩)
  have enough := automatic rfl (by decide) (by decide)
  exact ⟨built, rfl, enough, (complete (by decide) enough (Script.ofWords [0])).1 rfl⟩

end DecisionSpace.Solver
