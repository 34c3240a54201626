import DecisionSpace.Proofs.Bandit.Restoration
import DecisionSpace.Proofs.Bandit.Selection
import DecisionSpace.Proofs.Bandit.Updates

/-!
# Recognition of arms

Which arm a reward goes to.  A bandit recognizes an assignment of its own model that is
like one of its arms; anything else is unknown to it, be it an assignment of another
build, one seen from a scope below or one that is no arm.  What a bandit has answered it
recognizes ever after, and so it does what is made again from the slots or the paths.
-/

set_option autoImplicit false

namespace DecisionSpace

open Fallible

namespace Bandit

/-- A bandit recognizes an assignment as the arm at a position: valid rewards for it go
to this arm alone.  They are accepted unless the count of the arm is full. -/
structure Recognizes (b : Bandit) (a : Assignment) (i : Nat) : Prop where
  position : b.indexOf? a = some i
  learns : ∀ {reward weight : Float}, reward.isFinite → weight.isFinite → 0 < weight →
    (b.updateWeighted a reward weight).2.arms =
      b.arms.modify i fun arm => { arm with stats := b.policy.update arm.stats reward weight }
  answers : ∀ {reward weight : Float} {arm : Arm}, reward.isFinite → weight.isFinite →
    0 < weight → b.arms[i]? = some arm →
    (b.updateWeighted a reward weight).1 =
      if arm.stats.count.toNat + 1 < UInt64.size then .ok ()
      else .error (.breakdown .countOverflow)

section
variable {b : Bandit} {r : Reward} (valid : r.isValid)

include valid

theorem updateWeighted_known {i : Nat} {arm : Arm} (found : b.target? r.assignment = some i)
    (stands : b.arms[i]? = some arm) :
    (b.updateWeighted r.assignment r.value r.weight).2.arms =
        b.arms.modify i (b.rewarded · r.value r.weight) ∧
      (b.updateWeighted r.assignment r.value r.weight).1 =
        if arm.stats.count.toNat + 1 < UInt64.size then .ok ()
        else .error (.breakdown .countOverflow) := by
  have answer := b.updated r
  generalize b.updateWeighted r.assignment r.value r.weight = result at answer
  have bound := arm.stats.count.toNat_lt_size
  cases answer with
  | refused invalid => simp [invalid] at valid
  | unknown _ missing => simp [found] at missing
  | full _ otherFound otherStands full =>
      obtain rfl := Option.some.inj (found.symm.trans otherFound)
      obtain rfl := Option.some.inj (stands.symm.trans otherStands)
      rw [RunningStats.isFull_iff] at full
      rw [if_neg (by omega)]
      exact ⟨rfl, rfl⟩
  | accepted _ otherFound otherStands room =>
      obtain rfl := Option.some.inj (found.symm.trans otherFound)
      obtain rfl := Option.some.inj (stands.symm.trans otherStands)
      rw [← Bool.not_eq_true, RunningStats.isFull_iff] at room
      rw [if_pos (by omega)]
      exact ⟨rfl, rfl⟩

theorem updateWeighted_unknown (missing : b.target? r.assignment = none) :
    b.updateWeighted r.assignment r.value r.weight =
      (.error .unknownArm, { b with counters := b.counters.addUnknownArm }) := by
  have answer := b.updated r
  generalize b.updateWeighted r.assignment r.value r.weight = result at answer
  cases answer with
  | refused invalid => simp [invalid] at valid
  | unknown => rfl
  | full _ found => simp [missing] at found
  | accepted _ found => simp [missing] at found

end

theorem recognizes_of_target {b : Bandit} {a : Assignment} {i : Nat}
    (found : b.target? a = some i) : b.Recognizes a i := by
  obtain ⟨_, position⟩ := target?_eq_some_iff.mp found
  obtain ⟨arm, stands⟩ := exists_arm_of_target found
  refine ⟨position, ?_, ?_⟩
  · intro reward weight finite weightFinite positive
    have valid := (Reward.isValid_iff ⟨a, reward, weight⟩).mpr ⟨finite, weightFinite, positive⟩
    exact (updateWeighted_known valid found stands).1
  · intro reward weight arm finite weightFinite positive stands
    have valid := (Reward.isValid_iff ⟨a, reward, weight⟩).mpr ⟨finite, weightFinite, positive⟩
    exact (updateWeighted_known valid found stands).2

/-- In a reachable bandit an assignment is found at the position of the one arm it is like.
A valid reward goes to that arm when the assignment is of the model of the bandit, and is
accepted when the arm has room to count it; otherwise the arm is unknown.  Every arm, which
is all that a bandit answers, is recognized after any run of calls, and is made again from
its slots and from its paths. -/
theorem update_recognizes {serial : Nat} {d : Declaration} {m : Model}
    (built : d.build serial = .ok m) {b : Bandit} (reachable : b.Reachable m) :
    (∀ a i, b.indexOf? a = some i ↔
      ∃ x : Assignment, b.assignments[i]? = some x ∧ x.alike a) ∧
    (∀ (i j : Nat) (x y : Assignment), b.assignments[i]? = some x → b.assignments[j]? = some y →
      x.alike y → i = j) ∧
    (∀ a (i : Nat) (x : Assignment), a.model.serial = m.serial → b.assignments[i]? = some x →
      x.alike a → b.Recognizes a i) ∧
    (∀ a : Assignment, (a.model.serial ≠ m.serial ∨ a.scope ≠ 0 ∨ ∀ x ∈ b.assignments, ¬ x.alike a) →
      ∀ reward weight : Float, reward.isFinite → weight.isFinite → 0 < weight →
        (b.updateWeighted a reward weight).1 = .error .unknownArm ∧
        (b.updateWeighted a reward weight).2.arms = b.arms) ∧
    (∀ c i, b.Answers c (.ok i) → ∃ x, b.assignments[i]? = some x) ∧
    ∀ (i : Nat) (x : Assignment), b.assignments[i]? = some x →
      Assignment.ofSlots m x.slots = .ok x ∧ Assignment.ofMap m x.toMap = .ok x ∧
      x.model.serial = m.serial ∧ ∀ calls, (b.run calls).Recognizes x i := by
  have laid := Declaration.build_laid built
  obtain ⟨model, armed, _⟩ := reachable.armed laid.domain_sound
  have apart := Apart.of_armed armed
  have recognized : ∀ a (i : Nat) (x : Assignment), a.model.serial = m.serial →
      b.assignments[i]? = some x → x.alike a → ∀ b' : Bandit, b'.model = b.model →
        b'.assignments = b.assignments → b'.Recognizes a i := by
    intro a i x own stands alike b' sameModel same
    refine recognizes_of_target (target?_eq_some_iff.mpr ⟨?_, ?_⟩)
    · rw [own, sameModel, model]
    · rw [indexOf?_eq_some_iff (apart.of_assignments same), same]
      exact ⟨x, stands, alike⟩
  refine ⟨fun a i => indexOf?_eq_some_iff apart, apart, ?_, ?_, ?_, ?_⟩
  · intro a i x own stands alike
    exact recognized a i x own stands alike b rfl rfl
  · intro a stranger reward weight finite weightFinite positive
    have missing : b.target? a = none := by
      rw [target?_eq_none_iff, indexOf?_eq_none_iff, model]
      intro own x listed alike
      obtain foreign | below | unlike := stranger
      · exact foreign own
      · rw [Assignment.alike_iff, (armed.settled x listed).root] at alike
        exact below alike.1.symm
      · exact unlike x listed alike
    have valid := (Reward.isValid_iff ⟨a, reward, weight⟩).mpr ⟨finite, weightFinite, positive⟩
    have answer := updateWeighted_unknown valid missing
    exact ⟨congrArg Prod.fst answer, congrArg (·.2.arms) answer⟩
  · intro c i answers
    have outcome := answers.outcome
    cases outcome with
    | arm _ stands _ => exact ⟨_, stands⟩
  · intro i x stands
    have settled := armed.settled x (List.mem_of_getElem? stands)
    have own : x.model.serial = m.serial := by rw [settled.model]
    refine ⟨Assignment.ofSlots_of_settled settled,
      Assignment.ofMap_toMap_of_settled laid.isTree laid.domain_sound settled, own, ?_⟩
    intro calls
    have kept := b.kept_run calls
    exact recognized x i x own stands ((Assignment.alike_iff_eq rfl).mpr rfl) _ kept.model
      kept.assignments

theorem update_recognizes_overlapping :
    let m := Examples.overlappingModel
    let slots (b : Bool) := [none, some (Value.bool b), none, some (.int 1)]
    let arms : List Assignment := [⟨m, 0, slots true⟩, ⟨m, 0, slots false⟩]
    let plan : BanditPlan := { model := m, policy := ⟨.greedy, .binomial {}⟩ }
    let other : Assignment := ⟨{ m with serial := 1 }, 0, slots false⟩
    ∃ b, (plan.addArms arms).build 0 = .ok b ∧ b.Reachable m ∧
      b.assignments[1]? = some ⟨m, 0, slots false⟩ ∧
      (b.run [.choose .empty]).Recognizes ⟨m, 0, slots false⟩ 1 ∧
      b.indexOf? other = some 1 ∧
      (b.updateWeighted other 1.0 2.0).1 = .error .unknownArm := by
  intro m slots arms plan other
  have built : Examples.overlapping.build 0 = .ok m := rfl
  have made : ∀ a ∈ arms, Assignment.ofSlots m a.slots = .ok a :=
    List.forall_mem_cons.mpr ⟨rfl, List.forall_mem_cons.mpr ⟨rfl, by simp⟩⟩
  have empty : plan.Assembled m := .empty rfl rfl rfl
  have run : (plan.addArms arms).build 0 = .ok _ := rfl
  have reachable := Reachable.built (.of_slots built empty made) run
  obtain ⟨found, _, _, unknown, _, known⟩ := update_recognizes built reachable
  obtain ⟨_, _, _, later⟩ := known 1 ⟨m, 0, slots false⟩ rfl
  have position := (found other 1).mpr
    ⟨⟨m, 0, slots false⟩, rfl, (Assignment.alike_iff _ _).mpr ⟨rfl, rfl⟩⟩
  obtain ⟨answer, _⟩ := unknown other (.inl (by decide)) 1.0 2.0 (by decide +kernel)
    (by decide +kernel) (by decide +kernel)
  exact ⟨_, run, reachable, rfl, later _, position, answer⟩

/-- An arm restored with as many observations as 64 bits can count: a reward for it is not
accepted. -/
theorem update_refused_full :
    let m := Examples.overlappingModel
    let plan : BanditPlan := { model := m, policy := ⟨.greedy, .binomial {}⟩ }
    let a : Assignment := ⟨m, 0, [none, some (.bool true), none, some (.int 1)]⟩
    let arm : Arm := ⟨a, ⟨0.5, 0, 2, 0xffffffffffffffff⟩⟩
    let snapshot : Snapshot := ⟨m.name, [⟨arm.assignment.toMap, arm.stats⟩]⟩
    ∃ q b, plan.restore snapshot = .ok q ∧ q.build 0 = .ok b ∧ b.Reachable m ∧
      a.model.serial = m.serial ∧ b.indexOf? a = some 0 ∧
      (b.updateWeighted a 1.0 1.0).1.isOk = false := by
  intro m plan a arm snapshot
  have built : Examples.overlapping.build 0 = .ok plan.model := rfl
  have made : Assignment.ofSlots m a.slots = .ok a := rfl
  have settled : Assignment.Settled m arm.assignment :=
    Assignment.settled_of_ofSlots (Declaration.build_laid built).domain_sound made
  have restorable : arm.stats.Restorable := by decide +kernel
  have restored : plan.restore snapshot = .ok { plan with restored := [(a, arm.stats)] } := by
    refine bind_ok_iff.mpr ⟨_, mapM_ok_iff.mpr (.cons ?_ .nil), rfl⟩
    exact BanditPlan.restoreArm_toMap built (Declaration.sameLayout_of_build built built) settled
      restorable
  have empty : plan.Assembled m := .empty rfl rfl rfl
  have run : BanditPlan.build { plan with restored := [(a, arm.stats)] } 0 = .ok _ := rfl
  have reachable := Reachable.built (empty.restore restored) run
  exact ⟨_, _, restored, run, reachable, rfl, rfl, by decide +kernel⟩

end Bandit

end DecisionSpace
