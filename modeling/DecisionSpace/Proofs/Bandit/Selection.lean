import DecisionSpace.Proofs.Bandit.Argmax
import DecisionSpace.Proofs.Bandit.Calls

/-!
# Selections of bandits

What a bandit answers when it is asked for an arm.  The best score stands at a position
among the arms that agree with the context, and that position is taken back to a
position among all arms.  There is no best score only when there is no such arm.
-/

set_option autoImplicit false

namespace DecisionSpace

open Sampling

theorem scoreAll_length {σ : Type} (score : Stats → σ → Float × σ) (stats : List Stats) (s : σ) :
    (scoreAll score stats s).1.length = stats.length := by
  induction stats generalizing s with
  | nil => rfl
  | cons first rest ih =>
      simp only [scoreAll, List.length_cons]
      rw [ih]

namespace Bandit

/-! ## Arms that agree with a context -/

theorem mem_eligible {b : Bandit} {c : Context} {arm : Arm} {i : Nat} :
    (arm, i) ∈ b.eligible c ↔ b.arms[i]? = some arm ∧ arm.assignment.satisfies c := by
  simp only [eligible, List.mem_filter, List.mem_zipIdx_iff_getElem?]

theorem eligible_eq_nil_iff {b : Bandit} {c : Context} :
    b.eligible c = [] ↔ ∀ a ∈ b.assignments, ¬ a.satisfies c := by
  rw [List.eq_nil_iff_forall_not_mem]
  constructor
  · intro none a listed agrees
    obtain ⟨arm, member, rfl⟩ := List.mem_map.mp listed
    obtain ⟨i, stands⟩ := List.mem_iff_getElem?.mp member
    exact none (arm, i) (mem_eligible.mpr ⟨stands, agrees⟩)
  · intro none entry member
    obtain ⟨stands, agrees⟩ := mem_eligible.mp member
    exact none _ (List.mem_map_of_mem (List.mem_of_getElem? stands)) agrees

/-! ## What a selection answers -/

/-- The answers to a selection: the context is refused, or no arm agrees with it, or the
position of one that does. -/
inductive Selected (b : Bandit) (c : Context) : Except Failure Nat × Bandit → Prop where
  | refused {e : Failure} (invalid : c.validate b.model = .error e) : Selected b c (.error e, b)
  | none (valid : c.validate b.model = .ok ()) (empty : b.eligible c = []) :
      Selected b c (.error (.unsatisfiable (.noEligibleArm b.model.name)),
        { b with counters := b.counters.addRejection })
  | arm (valid : c.validate b.model = .ok ()) {i : Nat} {arm : Arm}
      (member : (arm, i) ∈ b.eligible c) : Selected b c (.ok i, b)

section
variable {σ : Type} (b : Bandit) (c : Context)

theorem selected (score : Stats → σ → Float × σ) (s : σ) :
    b.Selected c ((b.select c score s).1, (b.select c score s).2.1) := by
  have length : (scoreAll score ((b.eligible c).map (·.1.stats)) s).1.length =
      (b.eligible c).length := by
    rw [scoreAll_length, List.length_map]
  rw [select]
  cases valid : c.validate b.model with
  | error e => exact .refused valid
  | ok u =>
      dsimp only
      split
      · rename_i position found
        have inRange : position < (b.eligible c).length := by
          have := argmax_lt found
          rwa [List.length_map, length] at this
        have stands : ((b.eligible c).map (·.2)).getD position 0 = (b.eligible c)[position].2 := by
          simp [List.getD_eq_getElem?_getD, inRange]
        rw [stands]
        exact .arm valid (List.getElem_mem inRange)
      · rename_i none
        rw [argmax_eq_none_iff, List.map_eq_nil_iff, ← List.length_eq_zero_iff, length,
          List.length_eq_zero_iff] at none
        exact .none valid none

inductive Chosen : Except Failure Nat × Bandit → Prop where
  | failed {e : Failure} {left : Bandit} (selected : b.Selected c (.error e, left)) :
      Chosen (.error e, left)
  | arm {i : Nat} (selected : b.Selected c (.ok i, b)) :
      Chosen (.ok i, { b with counters := b.counters.addChoice })

theorem chosen [Words σ] (s : σ) :
    b.Chosen c ((b.chooseWith c s).1, (b.chooseWith c s).2.1) := by
  have selected := b.selected c b.policy.score s
  rw [chooseWith]
  split
  · rename_i i left s' result
    rw [result] at selected
    have same : left = b := by
      cases selected with
      | arm => rfl
    subst same
    exact .arm selected
  · rename_i e left s' result
    rw [result] at selected
    exact .failed selected

inductive Answers : Except Failure Nat → Prop where
  | choose : Answers (b.choose c).1
  | chooseWith {σ : Type} [Words σ] (s : σ) : Answers (b.chooseWith c s).1
  | optimal : Answers (b.optimal c).1

inductive Outcome : Except Failure Nat → Prop where
  | refused {e : Failure} (invalid : c.validate b.model = .error e) : Outcome (.error e)
  | none (valid : c.validate b.model = .ok ()) (unlike : ∀ a ∈ b.assignments, ¬ a.satisfies c) :
      Outcome (.error (.unsatisfiable (.noEligibleArm b.model.name)))
  | arm (valid : c.validate b.model = .ok ()) {i : Nat} {a : Assignment}
      (stands : b.assignments[i]? = some a) (agrees : a.satisfies c) : Outcome (.ok i)

variable {b c} {result : Except Failure Nat} {left : Bandit}

theorem Selected.outcome (selected : b.Selected c (result, left)) : b.Outcome c result := by
  cases selected with
  | refused invalid => exact .refused invalid
  | none valid empty => exact .none valid (eligible_eq_nil_iff.mp empty)
  | @arm valid i arm member =>
      obtain ⟨stands, agrees⟩ := mem_eligible.mp member
      refine .arm valid ?_ agrees
      rw [assignments, List.getElem?_map, stands]
      rfl

theorem Chosen.outcome (chosen : b.Chosen c (result, left)) : b.Outcome c result := by
  cases chosen with
  | failed selected => exact selected.outcome
  | arm selected => exact selected.outcome

theorem Outcome.of_step {step : UInt64} (outcome : Outcome { b with step } c result) :
    b.Outcome c result := by
  -- an outcome reads the model and the arms, which do not depend on the step
  cases outcome with
  | refused invalid => exact .refused invalid
  | none valid unlike => exact .none valid unlike
  | arm valid stands agrees => exact Outcome.arm (b := b) valid stands agrees

theorem Answers.outcome (answers : b.Answers c result) : b.Outcome c result := by
  cases answers with
  | choose => exact (chosen { b with step := b.step + 1 } c _).outcome.of_step
  | chooseWith s => exact (b.chosen c s).outcome
  | optimal => exact (b.selected c _ ()).outcome

end

end Bandit

end DecisionSpace
