import DecisionSpace.Proofs.Search.Rejection

/-!
# Witnesses and enumerations

A small model can be solved in two ways, by repair of a random start and by a
walk through all choices.  They agree: both begin with the same check, which an
enumeration never survives only to find nothing, and whatever a repair finds the
walk finds as well.
-/

set_option autoImplicit false

namespace DecisionSpace.Solver

open Fallible
open Sampling
open Search

variable {m : Model} {c : Context}

/-! ## What the check reports -/

theorem checkContext_error {e : Failure} (rejected : checkContext m c = .error e) :
    (∃ id, e = .unknownVariable id) ∨ (∃ name cause, e = .invalidValue name cause) ∨
      IsForcedConflict e := by
  rcases bind_error_iff.mp rejected with invalid | ⟨_, _, overfull⟩
  · obtain ⟨entry, _, refused⟩ := exists_of_forM_error invalid
    rcases Context.checkEntry_error refused with unknown | ⟨v, cause, _, outside⟩
    · exact .inl ⟨_, unknown⟩
    · exact .inr (.inl ⟨_, _, outside⟩)
  · obtain ⟨con, _, failed⟩ := exists_of_forM_error overfull
    simp only [checkForced] at failed
    split at failed
    · exact .inr (.inr ⟨_, _, _, (Except.error.inj failed).symm⟩)
    · exact absurd failed (by simp)

theorem checkContext_not_infeasible (name : String) :
    checkContext m c ≠ .error (.unsatisfiable (.infeasible name)) := by
  intro rejected
  rcases checkContext_error rejected with ⟨id, same⟩ | ⟨path, cause, same⟩ | ⟨_, _, _, same⟩
  · exact absurd same (by simp)
  · exact absurd same (by simp)
  · exact absurd same (by simp)

/-! ## What an enumeration finds -/

theorem exists_solves_of_checked (wellFormed : m.WellFormed)
    (checked : checkContext m c = .ok ()) : ∃ values, m.Solves c values := by
  have valid := (checkContext_ok_iff.mp checked).1
  apply (exists_solves_iff wellFormed valid).mpr
  intro overfull
  apply (checkContext_ok_iff_not_overfull valid).mp checked
  apply overfull.mono wellFormed
  exact fun id inVars necessary => isForced_of_isNecessary inVars necessary

theorem solutions_ne_nil (wellFormed : m.WellFormed) (checked : checkContext m c = .ok ()) :
    m.solutions c ≠ [] := by
  obtain ⟨values, solves⟩ := exists_solves_of_checked wellFormed checked
  exact List.ne_nil_of_mem (Model.mem_solutions.mpr solves)

theorem enumerate_of_checked (wellFormed : m.WellFormed) (small : m.valueCount ≤ enumerationLimit)
    (checked : checkContext m c = .ok ()) (settings : Settings) {limit : Nat}
    (positive : 0 < limit) :
    enumerate ⟨m, settings⟩ c limit =
      .ok (((m.solutions c).take limit).map (Assignment.ofValues m)) := by
  have some := solutions_ne_nil wellFormed checked
  rw [enumerate_eq wellFormed small checked settings positive, if_neg]
  rwa [List.isEmpty_iff]

theorem enumerate_of_rejected (small : m.valueCount ≤ enumerationLimit) {e : Failure}
    (rejected : checkContext m c = .error e) (settings : Settings) {limit : Nat}
    (positive : 0 < limit) : enumerate ⟨m, settings⟩ c limit = .error e := by
  rw [enumerate, if_neg (Nat.not_lt_of_le small), if_neg (Nat.ne_of_gt positive), rejected]
  rfl

theorem witness_of_rejected {σ : Type} [Chance σ] {e : Failure}
    (rejected : checkContext m c = .error e) (settings : Settings) (s : σ) :
    (witness ⟨m, settings⟩ c s).1.result = .error e := by
  simp only [witness, rejected, counted_result]

/-- An enumeration of a small model succeeds exactly when the check does, and
otherwise it fails as the check and every witness fail.  Whatever a witness finds,
with any settings and any source, is listed by every enumeration that has room for
all solutions. -/
theorem enumerate_agrees_witness {serial : Nat} {d : Declaration} {m : Model}
    (built : d.build serial = .ok m) (small : m.valueCount ≤ enumerationLimit) (c : Context) :
    (∀ settings limit, 0 < limit →
      ((∃ found, enumerate ⟨m, settings⟩ c limit = .ok found) ↔ checkContext m c = .ok ()) ∧
      (∀ name, enumerate ⟨m, settings⟩ c limit ≠ .error (.unsatisfiable (.infeasible name))) ∧
      ∀ e, checkContext m c = .error e →
        enumerate ⟨m, settings⟩ c limit = .error e ∧
        ∀ (σ : Type) [Chance σ] (s : σ), (witness ⟨m, settings⟩ c s).1.result = .error e) ∧
    ∀ (σ : Type) [Chance σ] (settings : Settings) (s : σ) (a : Assignment),
      (witness ⟨m, settings⟩ c s).1.result = .ok a →
      ∀ other limit, (m.solutions c).length ≤ limit →
        ∃ found, enumerate ⟨m, other⟩ c limit = .ok found ∧ a ∈ found := by
  have wellFormed := Declaration.build_wellFormed built
  constructor
  · intro settings limit positive
    cases checked : checkContext m c with
    | ok u =>
        rw [enumerate_of_checked wellFormed small checked settings positive]
        exact ⟨⟨fun _ => rfl, fun _ => ⟨_, rfl⟩⟩, by simp, by simp⟩
    | error e =>
        rw [enumerate_of_rejected small checked settings positive]
        refine ⟨by simp, fun name same => ?_, fun e' same => ?_⟩
        · obtain rfl := Except.error.inj same
          exact checkContext_not_infeasible name checked
        · obtain rfl := Except.error.inj same
          exact ⟨rfl, fun σ _ s => witness_of_rejected checked settings s⟩
  · intro σ _ settings s a found other limit room
    have checked : checkContext m c = .ok () := checked_of_witness found
    obtain ⟨values, solves, rfl⟩ :=
      @exists_solves_of_witness σ _ ⟨m, settings⟩ c wellFormed s a found
    have listed : values ∈ m.solutions c := Model.mem_solutions.mpr solves
    have positive : 0 < limit := Nat.lt_of_lt_of_le (List.length_pos_of_mem listed) room
    refine ⟨_, enumerate_of_checked wellFormed small checked other positive, ?_⟩
    rw [List.take_of_length_le room]
    exact List.mem_map_of_mem listed

theorem enumerate_agrees_witness_overlapping :
    Examples.overlapping.build 0 = .ok Examples.overlappingModel ∧
      Examples.overlappingModel.valueCount ≤ enumerationLimit ∧
      (∃ found,
        enumerate ⟨Examples.overlappingModel, {}⟩ (.ofFact ⟨1, .bool true⟩) 6 = .ok found ∧
        Assignment.ofValues Examples.overlappingModel [.bool false, .bool true,
          .selection [.text "y", .text "z"], .int 1] ∈ found) ∧
      Examples.overfull.build 0 = .ok Examples.overfullModel ∧
      Examples.overfullModel.valueCount ≤ enumerationLimit ∧
      enumerate ⟨Examples.overfullModel, {}⟩ .empty 1 =
        .error (.unsatisfiable (.forced 2 "Root" 1)) := by
  have built : Examples.overlapping.build 0 = .ok Examples.overlappingModel := rfl
  have small : Examples.overlappingModel.valueCount ≤ enumerationLimit := by decide
  have found : (witness ⟨Examples.overlappingModel, {}⟩ (.ofFact ⟨1, .bool true⟩)
      (Script.ofWords [0])).1.result = .ok (.ofValues Examples.overlappingModel
        [.bool false, .bool true, .selection [.text "y", .text "z"], .int 1]) := rfl
  have overfull : Examples.overfull.build 0 = .ok Examples.overfullModel := rfl
  refine ⟨built, small, ?_, overfull, by decide, ?_⟩
  · exact (enumerate_agrees_witness built small _).2 Script {} _ _ found {} 6 (by decide)
  · exact (((enumerate_agrees_witness overfull (by decide) .empty).1 {} 1 (by decide)).2.2 _ rfl).1

end DecisionSpace.Solver
