import DecisionSpace.Proofs.Bandit.Merging

/-!
# Restored bandits

A snapshot keeps what a bandit has learned.  Read back into a new plan over the same
declaration, it gives a bandit with the same arms and the same statistics: each arm
is read as the assignment it was written from, and no two arms fall together because
they are different assignments of one model.
-/

set_option autoImplicit false

namespace DecisionSpace

open Fallible

/-! ## Statistics that can be restored -/

structure RunningStats.Restorable (s : Stats) : Prop where
  mean : s.mean.isFinite
  deviations : s.squaredDeviations.isFinite ∧ ¬ s.squaredDeviations < 0
  weight : s.weight.isFinite ∧ ¬ s.weight < 0

instance (s : Stats) : Decidable s.Restorable :=
  decidable_of_iff
    (s.mean.isFinite ∧ (s.squaredDeviations.isFinite ∧ ¬ s.squaredDeviations < 0) ∧
      s.weight.isFinite ∧ ¬ s.weight < 0)
    ⟨fun ⟨mean, deviations, weight⟩ => ⟨mean, deviations, weight⟩,
      fun ⟨mean, deviations, weight⟩ => ⟨mean, deviations, weight⟩⟩

namespace BanditPlan

theorem checkStatistic_ok_iff (a : Assignment) (field : String) (x : Float) (signed : Bool) :
    checkStatistic a field x signed = .ok () ↔ x.isFinite ∧ (signed ∨ ¬ x < 0) := by
  rw [checkStatistic]
  cases x.isFinite <;> cases signed <;> by_cases negative : x < 0 <;> simp [negative]

theorem checkStats_ok_iff (a : Assignment) (s : Stats) :
    checkStats a s = .ok () ↔ s.Restorable := by
  simp only [checkStats, check_bind_ok_iff, checkStatistic_ok_iff]
  constructor
  · rintro ⟨mean, deviations, weight⟩
    exact ⟨mean.1, by simpa using deviations, by simpa using weight⟩
  · rintro ⟨mean, deviations, weight⟩
    exact ⟨⟨mean, .inl trivial⟩, by simpa using deviations, by simpa using weight⟩

end BanditPlan

/-! ## Assignments over another build -/

namespace Assignment

def onto (m : Model) (a : Assignment) : Assignment := { a with model := m }

section
variable {m m' : Model} {a b : Assignment}

theorem toMap_onto (same : a.model.SameLayout m') : (a.onto m').toMap = a.toMap := by
  simp only [toMap, entries, view, value?, onto, Model.scopeAt, Model.variableAt, same.scopes,
    same.vars]

theorem Settled.onto (settled : Settled m a) (same : m.SameLayout m') : Settled m' (a.onto m') :=
  ⟨rfl, settled.root, same.vars ▸ settled.slots⟩

theorem Settled.eq_of_onto (settled : Settled m a) (otherSettled : Settled m b)
    (same : a.onto m' = b.onto m') : a = b := by
  obtain ⟨model, scope, slots⟩ := a
  obtain ⟨otherModel, otherScope, otherSlots⟩ := b
  obtain rfl : model = m := settled.model
  obtain rfl : otherModel = model := otherSettled.model
  simpa [Assignment.onto] using same

theorem Settled.onto_self (settled : Settled m a) : a.onto m = a := by
  obtain rfl := settled.model
  rfl

end

end Assignment

def Arm.onto (m : Model) (arm : Arm) : Arm := { arm with assignment := arm.assignment.onto m }

theorem Arm.map_onto_self {m : Model} {arms : List Arm}
    (settled : ∀ arm ∈ arms, Assignment.Settled m arm.assignment) : arms.map (·.onto m) = arms := by
  have unchanged : arms.map (·.onto m) = arms.map id := by
    refine List.map_congr_left fun arm member => ?_
    rw [Arm.onto, (settled arm member).onto_self]
    rfl
  exact unchanged.trans (List.map_id _)

theorem Bandit.snapshot_onto {b b' : Bandit} (same : b.model.SameLayout b'.model)
    (settled : ∀ arm ∈ b.arms, Assignment.Settled b.model arm.assignment)
    (arms : b'.arms = b.arms.map (·.onto b'.model)) : b'.snapshot = b.snapshot := by
  have name : b'.model.name = b.model.name := by
    simp only [Model.name, Model.root, Model.scopeAt, same.scopes]
  simp only [snapshot, arms, List.map_map, name]
  refine congrArg _ (List.map_congr_left fun arm member => ?_)
  rw [← (settled arm member).model] at same
  exact congrArg (ArmSnapshot.mk · arm.stats) (Assignment.toMap_onto same)

theorem Model.Armed.onto {m m' : Model} {assignments : List Assignment}
    (armed : m.Armed assignments) (same : m.SameLayout m') :
    m'.Armed (assignments.map (·.onto m')) := by
  refine ⟨fun a member => ?_, ?_⟩
  · obtain ⟨b, listed, rfl⟩ := List.mem_map.mp member
    exact (armed.settled b listed).onto same
  · exact armed.distinct.map_on fun a member b otherMember equal =>
      (armed.settled a member).eq_of_onto (armed.settled b otherMember) equal

/-! ## Reading a snapshot back -/

namespace BanditPlan

section
variable {p : BanditPlan} {b : Bandit}

theorem restoreArm_toMap {serial : Nat} {d : Declaration} {m : Model}
    (built : d.build serial = .ok p.model) (same : m.SameLayout p.model) {arm : Arm}
    (settled : Assignment.Settled m arm.assignment) (restorable : arm.stats.Restorable) :
    restoreArm p.model ⟨arm.assignment.toMap, arm.stats⟩ =
      .ok (arm.assignment.onto p.model, arm.stats) := by
  have laid := Declaration.build_laid built
  refine (restoreArm_ok_iff _ _ _ _).mpr ⟨?_, (checkStats_ok_iff _ _).mpr restorable, rfl⟩
  obtain rfl := settled.model
  change Assignment.ofMap p.model arm.assignment.toMap = _
  rw [← Assignment.toMap_onto same]
  exact Assignment.ofMap_toMap_of_settled laid.isTree laid.domain_sound (settled.onto same)

theorem restore_snapshot_ok {serial : Nat} {d : Declaration} {m : Model}
    (built : d.build serial = .ok p.model) (same : m.SameLayout p.model)
    (armed : m.Armed b.assignments)
    (restorable : ∀ arm ∈ b.arms, arm.stats.Restorable) :
    p.restore b.snapshot = .ok { p with
      restored := p.restored ++
        b.arms.map fun arm => (arm.assignment.onto p.model, arm.stats) } := by
  refine bind_ok_iff.mpr ⟨_, mapM_ok_iff.mpr ?_, rfl⟩
  rw [Bandit.snapshot, List.forall₂_map_left_iff, List.forall₂_map_right_iff, List.forall₂_same]
  intro arm member
  have settled := armed.settled arm.assignment (List.mem_map.mpr ⟨arm, member, rfl⟩)
  exact restoreArm_toMap built same settled (restorable arm member)

theorem build_of_restored {m : Model} (model : p.model = m) (unarmed : p.assignments = [])
    (armed : m.Armed (p.restored.map (·.1))) (filled : p.restored ≠ []) (fallback : UInt64) :
    (∀ seed, p.candidates seed = .ok []) ∧
      p.build fallback = .ok
        { model := m, policy := p.policy, maximize := p.maximize, seed := p.seed.getD fallback
          arms := p.restored.map fun entry => ⟨entry.1, entry.2⟩ } := by
  have read : ∀ entry ∈ p.restored, entry.1.model = p.model :=
    fun entry member => (armed.settled _ (List.mem_map_of_mem member)).model.trans model.symm
  have built := build_of_armed fallback (by simp [unarmed]) read (.inr filled)
  refine ⟨fun seed => ?_, ?_⟩
  · rw [candidates_of_armed (.inr filled), unarmed]
  · rw [built, unarmed, List.nil_append, merged_of_distinct armed.distinct, model]

end

end BanditPlan

/-- A reachable bandit whose statistics can be restored has a snapshot that every empty
plan over a build of its declaration takes.  The plan then generates no arm, and its
bandit has the arms of the first one, over its own model: the same assignments in the
same order with the same statistics.  Its snapshot is the one it was made from. -/
theorem Bandit.restore_snapshot {serial serial' : Nat} {d : Declaration} {m : Model}
    (built : d.build serial = .ok m) {b : Bandit} (reachable : b.Reachable m)
    (restorable : ∀ arm ∈ b.arms, arm.stats.Restorable) {p : BanditPlan}
    (rebuilt : d.build serial' = .ok p.model) (unarmed : p.assignments = [])
    (fresh : p.restored = []) (fallback : UInt64) :
    ∃ q b', p.restore b.snapshot = .ok q ∧ (∀ seed, q.candidates seed = .ok []) ∧
      q.build fallback = .ok b' ∧
      b'.model = p.model ∧ b'.policy = p.policy ∧
      b'.arms = b.arms.map (·.onto p.model) ∧ (p.model = m → b'.arms = b.arms) ∧
      b'.snapshot = b.snapshot := by
  have laid := Declaration.build_laid built
  obtain ⟨model, armed, nonempty⟩ := reachable.armed laid.domain_sound
  have same := Declaration.sameLayout_of_build built rebuilt
  have restored := BanditPlan.restore_snapshot_ok rebuilt same armed restorable
  rw [fresh, List.nil_append] at restored
  -- different arms stay different over the new model, so none of them fall together
  have again := armed.onto same
  rw [Bandit.assignments, List.map_map] at again
  obtain ⟨idle, run⟩ := BanditPlan.build_of_restored
    (p := { p with restored := b.arms.map fun arm => (arm.assignment.onto p.model, arm.stats) })
    rfl unarmed (by rw [List.map_map]; exact again) (by simpa [Bandit.assignments] using nonempty)
    fallback
  rw [List.map_map] at run
  have settled : ∀ arm ∈ b.arms, Assignment.Settled m arm.assignment :=
    fun arm member => armed.settled _ (List.mem_map.mpr ⟨arm, member, rfl⟩)
  refine ⟨_, _, restored, idle, run, rfl, rfl, rfl, fun own => ?_, ?_⟩
  · obtain rfl := own
    exact Arm.map_onto_self settled
  · exact snapshot_onto (model ▸ same) (model ▸ settled) rfl

theorem Bandit.restore_snapshot_overlapping :
    let m := Examples.overlappingModel
    let slots (b : Bool) := [none, some (Value.bool b), none, some (.int 1)]
    let arms : List Assignment := [⟨m, 0, slots true⟩, ⟨m, 0, slots false⟩]
    let plan (m : Model) : BanditPlan := { model := m, policy := ⟨.greedy, .binomial {}⟩ }
    ∃ b m', ((plan m).addArms arms).build 0 = .ok b ∧
      Examples.overlapping.build 0 = .ok m ∧ Examples.overlapping.build 1 = .ok m' ∧
      let rewarded := b.run [.updateWeighted ⟨m, 0, slots false⟩ 1.0 3.0]
      rewarded.arms.map (·.stats.count) = [0, 1] ∧ rewarded.Reachable m ∧
      (∀ arm ∈ rewarded.arms, arm.stats.Restorable) ∧
      ∃ q b', (plan m').restore rewarded.snapshot = .ok q ∧ q.build 7 = .ok b' ∧
        b'.snapshot = rewarded.snapshot := by
  intro m slots arms plan
  have built : Examples.overlapping.build 0 = .ok m := rfl
  refine ⟨_, { m with serial := 1 }, rfl, built, rfl, ?_⟩
  intro rewarded
  have filled : ∀ b, Assignment.ofSlots m (slots b) = .ok ⟨m, 0, slots b⟩ := by
    rintro (_ | _) <;> rfl
  have obtained : ∀ a ∈ arms, a.Obtained :=
    List.forall_mem_cons.mpr ⟨.made built (filled true),
      List.forall_mem_cons.mpr ⟨.made built (filled false), by simp⟩⟩
  have identified : ∀ a ∈ arms, a.model.serial = m.serial → a.model = m := by
    simp [arms]
  have empty : (plan m).Assembled m := .empty rfl rfl rfl
  have assembled := empty.addArms obtained identified
  have run : ((plan m).addArms arms).build 0 = .ok _ := rfl
  have reachable : rewarded.Reachable m := .called _ (.built assembled run)
  have restorable : ∀ arm ∈ rewarded.arms, arm.stats.Restorable := by
    decide +kernel
  have rebuilt : Examples.overlapping.build 1 = .ok (plan { m with serial := 1 }).model := rfl
  obtain ⟨q, b', restored, _, run, _, _, _, _, same⟩ :=
    restore_snapshot built reachable restorable rebuilt rfl rfl 7
  exact ⟨by decide +kernel, reachable, restorable, q, b', restored, run, same⟩

end DecisionSpace
