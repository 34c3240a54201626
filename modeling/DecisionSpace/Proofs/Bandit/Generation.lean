import DecisionSpace.Proofs.Bandit.Merging
import DecisionSpace.Proofs.Bandit.Selection
import DecisionSpace.Proofs.Search.Agreement
import DecisionSpace.Proofs.Search.Distinct

/-!
# Generated arms

What a bandit has for arms when none are given.  They are different solutions of the
model, found by one search or the other, with the statistics of the prior.  When a small
model has no more solutions than arms are asked for, all of them are arms, and then a
context is refused only when no solution agrees with it.
-/

set_option autoImplicit false

namespace DecisionSpace

open Fallible
open Search

/-! ## Solutions -/

namespace Assignment

variable {m : Model} {c : Context} {a : Assignment}

theorem IsSolution.settled (solution : a.IsSolution m c) : Settled m a := by
  refine ⟨solution.model, solution.root, List.forall₂_iff_get.mpr ⟨solution.size.symm, ?_⟩⟩
  intro id inVars inSlots
  obtain ⟨x, held, valid⟩ := solution.canonical id _ (List.getElem?_eq_getElem inVars)
  rw [value?, List.getElem?_eq_getElem inSlots, Option.join_some] at held
  simp only [List.get_eq_getElem]
  rw [held]
  exact (fillSlot_some_ok_iff _ x _).mpr ⟨x, valid, rfl⟩

theorem isSolution_iff (wellFormed : m.WellFormed) :
    a.IsSolution m c ↔ ∃ values, m.Solves c values ∧ a = ofValues m values := by
  constructor
  · intro solution
    have complete : a.isComplete = true := by
      refine List.all_eq_true.mpr fun id listed => ?_
      obtain rfl := solution.model
      rw [view, solution.root] at listed
      change id ∈ a.model.root.subtree at listed
      rw [wellFormed.root, List.mem_range] at listed
      obtain ⟨x, held, _⟩ := solution.canonical id _ (List.getElem?_eq_getElem listed)
      rw [held]
      rfl
    exact exists_solves wellFormed (ofSlots_of_settled solution.settled) complete
      solution.satisfies solution.feasible
  · intro solves
    obtain ⟨values, solves, rfl⟩ := solves
    exact isSolution_ofValues wellFormed solves

theorem isSolution_iff_satisfies :
    a.IsSolution m c ↔ a.IsSolution m .empty ∧ a.satisfies c := by
  constructor
  · intro solution
    exact ⟨⟨solution.model, solution.root, solution.size, solution.canonical, rfl,
      solution.feasible⟩, solution.satisfies⟩
  · intro both
    obtain ⟨solution, agrees⟩ := both
    exact ⟨solution.model, solution.root, solution.size, solution.canonical, agrees,
      solution.feasible⟩

theorem ofValues_injective (m : Model) : Function.Injective (ofValues m) := by
  intro values others same
  have slots : values.map some = others.map some := congrArg slots same
  exact List.map_injective_iff.mpr (Option.some_injective Value) slots

end Assignment

namespace Model

variable {m : Model}

theorem mem_map_solutions (wellFormed : m.WellFormed) {c : Context} {a : Assignment} :
    a ∈ (m.solutions c).map (Assignment.ofValues m) ↔ a.IsSolution m c := by
  rw [List.mem_map, Assignment.isSolution_iff wellFormed]
  constructor
  · intro listed
    obtain ⟨values, member, same⟩ := listed
    exact ⟨values, mem_solutions.mp member, same.symm⟩
  · intro solves
    obtain ⟨values, solves, same⟩ := solves
    exact ⟨values, mem_solutions.mpr solves, same.symm⟩

theorem nodup_map_solutions (wellFormed : m.WellFormed) (c : Context) :
    ((m.solutions c).map (Assignment.ofValues m)).Nodup :=
  (nodup_of_ascending (solutions_ascending wellFormed c)).map (Assignment.ofValues_injective m)

theorem length_solutions_le (wellFormed : m.WellFormed) {c : Context} {all : List Assignment}
    (covers : ∀ a : Assignment, a.IsSolution m c → a ∈ all) :
    (m.solutions c).length ≤ all.length := by
  have subset : (m.solutions c).map (Assignment.ofValues m) ⊆ all := by
    intro a listed
    exact covers a ((mem_map_solutions wellFormed).mp listed)
  rw [← List.length_map (Assignment.ofValues m)]
  exact ((nodup_map_solutions wellFormed c).subperm subset).length_le

end Model

/-! ## What a plan generates -/

namespace BanditPlan

theorem candidates_of_empty {p : BanditPlan} (unarmed : p.assignments = [])
    (fresh : p.restored = []) (seed : UInt64) :
    p.candidates seed =
      if p.model.valueCount ≤ Solver.enumerationLimit then
        Solver.enumerate ⟨p.model, p.settings⟩ .empty p.armLimit
      else (Solver.distinctWitnesses ⟨p.model, p.settings⟩ .empty p.armLimit seed).result := by
  simp only [candidates, unarmed, fresh, List.isEmpty_nil, Bool.and_self, if_true,
    Solver.isEnumerable, decide_eq_true_eq]

section
variable {p : BanditPlan} (wellFormed : p.model.WellFormed)

include wellFormed

theorem solutions_of_candidates (unarmed : p.assignments = []) (fresh : p.restored = [])
    (positive : 0 < p.armLimit) {seed : UInt64} {given : List Assignment}
    (run : p.candidates seed = .ok given) :
    given.Nodup ∧ given.length ≤ p.armLimit ∧
      (∀ a ∈ given, a.IsSolution p.model .empty) ∧
      (p.model.valueCount ≤ Solver.enumerationLimit →
        given = ((p.model.solutions .empty).take p.armLimit).map (Assignment.ofValues p.model)) := by
  rw [candidates_of_empty unarmed fresh] at run
  split at run
  · rename_i small
    cases checked : Solver.checkContext p.model .empty with
    | error e =>
        rw [Solver.enumerate_of_rejected small checked _ positive] at run
        simp at run
    | ok u =>
        rw [Solver.enumerate_of_checked wellFormed small checked _ positive] at run
        obtain rfl := Except.ok.inj run
        refine ⟨?_, ?_, ?_, fun _ => rfl⟩
        · rw [List.map_take]
          exact (Model.nodup_map_solutions wellFormed .empty).sublist (List.take_sublist _ _)
        · rw [List.length_map]
          exact List.length_take_le _ _
        · intro a listed
          rw [List.map_take] at listed
          exact (Model.mem_map_solutions wellFormed).mp (List.mem_of_mem_take listed)
  · rename_i large
    cases checked : Solver.checkContext p.model .empty with
    | error e =>
        rw [Solver.distinctWitnesses, if_neg (Nat.ne_of_gt positive)] at run
        simp [checked] at run
    | ok u =>
        let solver : Solver := ⟨p.model, p.settings⟩
        have own : solver.model.WellFormed := wellFormed
        obtain ⟨_, distinct, few, solutions⟩ :=
          Solver.of_distinctWitnesses own checked positive run
        exact ⟨distinct, few, solutions, fun small => absurd small large⟩

theorem arms_of_generated (unarmed : p.assignments = []) (fresh : p.restored = [])
    {fallback : UInt64} {b : Bandit} (run : p.build fallback = .ok b) :
    ∃ seed given, p.candidates seed = .ok given ∧ given ≠ [] ∧ 0 < p.armLimit ∧
      b.model = p.model ∧ b.arms = given.map fun a => ⟨a, p.policy.prior⟩ := by
  obtain ⟨given, found, run⟩ := bind_ok_iff.mp run
  obtain ⟨_, run⟩ := check_bind_ok_iff.mp run
  have positive : 0 < p.armLimit := by
    -- without room for any arm nothing is generated, and the build fails
    by_contra none
    have zero : p.armLimit = 0 := by omega
    have nothing : given = [] := by
      rw [candidates_of_empty unarmed fresh, zero] at found
      split at found
      · rename_i small
        rw [Solver.enumerate, if_neg (Nat.not_lt_of_le small), if_pos rfl] at found
        exact (Except.ok.inj found).symm
      · exact (Except.ok.inj found).symm
    rw [fresh, nothing] at run
    simp at run
  obtain ⟨distinct, _, solutions, _⟩ :=
    solutions_of_candidates wellFormed unarmed fresh positive found
  have own : ∀ a ∈ given, a.model = p.model := fun a member => (solutions a member).settled.model
  have collected : given.foldl (addNew p.policy.prior) [] =
      given.map fun a => ⟨a, p.policy.prior⟩ := by
    rw [foldl_addNew_merged own, merged, FirstOccurrence.eraseDups_of_nodup distinct]
    rfl
  rw [fresh, List.foldl_nil, collected] at run
  dsimp only at run
  split at run
  · simp at run
  · rename_i some
    obtain rfl := Except.ok.inj run
    exact ⟨_, given, found, by simpa using some, positive, rfl, rfl⟩

end

end BanditPlan

theorem Bandit.answers_of_cover {m : Model} {b : Bandit} (model : b.model = m)
    (listed : ∀ a, a ∈ b.assignments ↔ a.IsSolution m .empty) {c : Context}
    (valid : c.validate m = .ok ()) {result : Except Failure Nat} (answers : b.Answers c result) :
    ((∃ i, result = .ok i) ↔ ∃ a : Assignment, a.IsSolution m c) ∧
      ((∀ a : Assignment, ¬ a.IsSolution m c) →
        result = .error (.unsatisfiable (.noEligibleArm m.name))) := by
  have outcome := answers.outcome
  cases outcome with
  | refused invalid =>
      rw [model, valid] at invalid
      simp at invalid
  | none _ unlike =>
      have unsolved : ∀ a : Assignment, ¬ a.IsSolution m c := by
        intro a solution
        obtain ⟨plain, agrees⟩ := Assignment.isSolution_iff_satisfies.mp solution
        exact unlike a ((listed a).mpr plain) agrees
      rw [model]
      refine ⟨⟨?_, ?_⟩, fun _ => rfl⟩
      · intro chosen
        obtain ⟨i, impossible⟩ := chosen
        simp at impossible
      · intro solved
        obtain ⟨a, solution⟩ := solved
        exact absurd solution (unsolved a)
  | @arm _ i a stands agrees =>
      have plain := (listed a).mp (List.mem_of_getElem? stands)
      have solution := Assignment.isSolution_iff_satisfies.mpr ⟨plain, agrees⟩
      refine ⟨⟨fun _ => ⟨a, solution⟩, fun _ => ⟨i, rfl⟩⟩, ?_⟩
      intro unsolved
      exact absurd solution (unsolved a)

/-- A plan without given and restored arms that can be built has between one arm and as
many as it may generate, which are different solutions with the statistics of the prior.
When the model can be enumerated and there is room for all solutions, all are arms; then,
whatever was called before, asking for an arm under a valid context succeeds when a
solution agrees with it, and otherwise finds no arm. -/
theorem Bandit.generated_cover {serial : Nat} {d : Declaration} {p : BanditPlan}
    (built : d.build serial = .ok p.model) (unarmed : p.assignments = [])
    (fresh : p.restored = []) {fallback : UInt64} {b : Bandit}
    (run : p.build fallback = .ok b) :
    (1 ≤ b.size ∧ b.size ≤ p.armLimit ∧ b.assignments.Nodup ∧
      (∀ a ∈ b.assignments, a.IsSolution p.model .empty) ∧
      ∀ arm ∈ b.arms, arm.stats = p.policy.prior) ∧
    (p.model.valueCount ≤ Solver.enumerationLimit →
      (∃ all : List Assignment, all.length ≤ p.armLimit ∧
        ∀ a : Assignment, a.IsSolution p.model .empty → a ∈ all) →
      (∀ a, a ∈ b.assignments ↔ a.IsSolution p.model .empty) ∧
      ∀ calls c, c.validate p.model = .ok () → ∀ result, (b.run calls).Answers c result →
        ((∃ i, result = .ok i) ↔ ∃ a : Assignment, a.IsSolution p.model c) ∧
        ((∀ a : Assignment, ¬ a.IsSolution p.model c) →
          result = .error (.unsatisfiable (.noEligibleArm p.model.name)))) := by
  have wellFormed := Declaration.build_wellFormed built
  obtain ⟨seed, given, found, some, positive, model, arms⟩ :=
    BanditPlan.arms_of_generated wellFormed unarmed fresh run
  obtain ⟨distinct, few, solutions, enumerated⟩ :=
    BanditPlan.solutions_of_candidates wellFormed unarmed fresh positive found
  have assignments : b.assignments = given := by
    rw [Bandit.assignments, arms, List.map_map]
    exact List.map_id _
  have size : b.size = given.length := by
    rw [Bandit.size, arms, List.length_map]
  refine ⟨⟨?_, ?_, ?_, ?_, ?_⟩, ?_⟩
  · rw [size]
    exact List.length_pos_iff.mpr some
  · rwa [size]
  · rwa [assignments]
  · rwa [assignments]
  · intro arm member
    rw [arms] at member
    obtain ⟨a, _, rfl⟩ := List.mem_map.mp member
    rfl
  · intro small room
    obtain ⟨all, roomy, covers⟩ := room
    have within := Model.length_solutions_le wellFormed covers
    have every : given = (p.model.solutions .empty).map (Assignment.ofValues p.model) := by
      rw [enumerated small, List.take_of_length_le (within.trans roomy)]
    have listed : ∀ a, a ∈ b.assignments ↔ a.IsSolution p.model .empty := by
      intro a
      rw [assignments, every, Model.mem_map_solutions wellFormed]
    refine ⟨listed, ?_⟩
    intro calls c valid result answers
    have kept := b.kept_run calls
    refine Bandit.answers_of_cover (kept.model.trans model) ?_ valid answers
    rwa [kept.assignments]

theorem Bandit.generated_cover_overlapping :
    let m := Examples.overlappingModel
    let plan : BanditPlan := { model := m, policy := ⟨.greedy, .binomial {}⟩ }
    ∃ b, Examples.overlapping.build 0 = .ok m ∧ plan.build 0 = .ok b ∧ 1 ≤ b.size ∧
      m.valueCount ≤ Solver.enumerationLimit ∧ (m.solutions .empty).length ≤ plan.armLimit ∧
      (∀ a, a ∈ b.assignments ↔ a.IsSolution m .empty) ∧
      (Context.ofFact ⟨1, .bool true⟩).validate m = .ok () ∧
      (∃ i, (b.choose (.ofFact ⟨1, .bool true⟩)).1 = .ok i) ∧
      (Context.ofFact ⟨0, .bool true⟩).validate m = .ok () ∧
      (b.optimal (.ofFact ⟨0, .bool true⟩)).1 =
        .error (.unsatisfiable (.noEligibleArm m.name)) := by
  intro m plan
  have built : Examples.overlapping.build 0 = .ok plan.model := rfl
  have succeeds : (plan.build 0).isOk = true := by decide +kernel
  obtain ⟨b, run⟩ : ∃ b, plan.build 0 = .ok b := by
    cases run : plan.build 0 with
    | error e =>
        rw [run] at succeeds
        exact absurd succeeds Bool.false_ne_true
    | ok b => exact ⟨b, rfl⟩
  have wellFormed := Declaration.build_wellFormed built
  have few : (m.solutions .empty).length ≤ plan.armLimit := by decide +kernel
  obtain ⟨⟨nonempty, _⟩, cover⟩ := Bandit.generated_cover built rfl rfl run
  obtain ⟨listed, answers⟩ := cover (by decide)
    ⟨(m.solutions .empty).map (.ofValues m), by simpa using few,
      fun a solution => (Model.mem_map_solutions wellFormed).mpr solution⟩
  obtain ⟨chosen, _⟩ := answers [] (.ofFact ⟨1, .bool true⟩) rfl _ .choose
  obtain ⟨_, refused⟩ := answers [] (.ofFact ⟨0, .bool true⟩) rfl _ .optimal
  have on : m.solutions (.ofFact ⟨1, .bool true⟩) ≠ [] := by decide +kernel
  have off : m.solutions (.ofFact ⟨0, .bool true⟩) = [] := by decide +kernel
  refine ⟨b, built, run, nonempty, by decide, few, listed, rfl, ?_, rfl, ?_⟩
  · obtain ⟨values, member⟩ := List.exists_mem_of_ne_nil _ on
    exact chosen.mpr ⟨_, (Model.mem_map_solutions wellFormed).mp (List.mem_map_of_mem member)⟩
  · refine refused ?_
    intro a solution
    have member := (Model.mem_map_solutions wellFormed).mpr solution
    rw [off] at member
    simp at member

end DecisionSpace
