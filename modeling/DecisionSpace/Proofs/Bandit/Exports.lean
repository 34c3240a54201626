import DecisionSpace.Proofs.Bandit.Conjugate
import DecisionSpace.Proofs.Bandit.Counts
import DecisionSpace.Proofs.Bandit.Stability

/-!
# Exported bandits

Whether a bandit can read its own snapshot back after a run.  What a bandit starts with can be
read back, and a snapshot is refused for a statistic alone.  Updates may lead to such a statistic:
a reward whose weight exceeds the weight before by all bits of a double rounds the mean past the
reward, and the squared deviations below zero.  Runs that stay away from there, and from the ends
of the doubles, do not.
-/

set_option autoImplicit false

namespace DecisionSpace

open Fallible
open Double

/-! ## Statistics that are refused -/

inductive RunningStats.Unfit (s : Stats) : String → Float → Prop where
  | mean (bad : s.mean.isFinite = false) : Unfit s "mean" s.mean
  | deviations (bad : s.squaredDeviations.isFinite = false ∨ s.squaredDeviations < 0) :
      Unfit s "squared_deviations" s.squaredDeviations
  | weight (bad : s.weight.isFinite = false ∨ s.weight < 0) : Unfit s "weight" s.weight

namespace BanditPlan

theorem checkStatistic_error {a : Assignment} {field : String} {x : Float} {signed : Bool}
    {e : Failure} (refused : checkStatistic a field x signed = .error e) :
    (x.isFinite = false ∨ signed = false ∧ x < 0) ∧
      e = .invalidValue (field ++ " of arm " ++ a.render) (.badStatistic x) := by
  rw [checkStatistic] at refused
  split at refused
  · rename_i bad
    refine ⟨?_, (Except.error.inj refused).symm⟩
    simpa using bad
  · cases refused

theorem checkStats_error {a : Assignment} {s : Stats} {e : Failure}
    (refused : checkStats a s = .error e) :
    ∃ field x, s.Unfit field x ∧
      e = .invalidValue (field ++ " of arm " ++ a.render) (.badStatistic x) := by
  obtain mean | ⟨_, _, refused⟩ := bind_error_iff.mp refused
  · obtain ⟨bad, rfl⟩ := checkStatistic_error mean
    exact ⟨_, _, .mean (by simpa using bad), rfl⟩
  · obtain deviations | ⟨_, _, weight⟩ := bind_error_iff.mp refused
    · obtain ⟨bad, rfl⟩ := checkStatistic_error deviations
      exact ⟨_, _, .deviations (by simpa using bad), rfl⟩
    · obtain ⟨bad, rfl⟩ := checkStatistic_error weight
      exact ⟨_, _, .weight (by simpa using bad), rfl⟩

section
variable {serial : Nat} {d : Declaration} {m : Model} {p : BanditPlan} {b : Bandit}
  (built : d.build serial = .ok p.model) (same : m.SameLayout p.model) (armed : m.Armed b.assignments)

include built same armed

theorem restore_snapshot_error {e : Failure} (refused : p.restore b.snapshot = .error e) :
    ∃ arm ∈ b.arms, ∃ field x, arm.stats.Unfit field x ∧
      e = .invalidValue (field ++ " of arm " ++ (arm.assignment.onto p.model).render)
        (.badStatistic x) := by
  obtain refused | ⟨_, _, impossible⟩ := bind_error_iff.mp refused
  · obtain ⟨before, kept, after, split, _, refused⟩ := mapM_error_iff.mp refused
    have member : kept ∈ b.snapshot.arms := by
      rw [split]
      exact List.mem_append_right _ List.mem_cons_self
    obtain ⟨arm, listed, rfl⟩ := List.mem_map.mp member
    have settled := armed.settled arm.assignment (List.mem_map_of_mem listed)
    have laid := Declaration.build_laid built
    have read : Assignment.ofMap p.model arm.assignment.toMap = .ok (arm.assignment.onto p.model) := by
      rw [← Assignment.toMap_onto (settled.model ▸ same)]
      exact Assignment.ofMap_toMap_of_settled laid.isTree laid.domain_sound (settled.onto same)
    have checked : checkStats (arm.assignment.onto p.model) arm.stats = .error e := by
      obtain unread | ⟨a, ofMap, refused⟩ := bind_error_iff.mp refused
      · rw [read] at unread
        cases unread
      · obtain rfl := Except.ok.inj (read.symm.trans ofMap)
        obtain checked | ⟨_, _, impossible⟩ := bind_error_iff.mp refused
        · exact checked
        · cases impossible
    exact ⟨arm, listed, checkStats_error checked⟩
  · cases impossible

theorem exists_restore_iff :
    (∃ q, p.restore b.snapshot = .ok q) ↔ ∀ arm ∈ b.arms, arm.stats.Restorable := by
  constructor
  · intro restored arm listed
    obtain ⟨q, restored⟩ := restored
    obtain ⟨entries, read, _⟩ := bind_ok_iff.mp restored
    have member : ⟨arm.assignment.toMap, arm.stats⟩ ∈ b.snapshot.arms := List.mem_map_of_mem listed
    obtain ⟨entry, _, one⟩ := exists_of_forall₂ (mapM_ok_iff.mp read) member
    exact (checkStats_ok_iff _ _).mp ((restoreArm_ok_iff _ _ entry.1 entry.2).mp one).2.1
  · intro restorable
    exact ⟨_, restore_snapshot_ok built same armed restorable⟩

end

/-! ## What a bandit starts with -/

theorem Assembled.restorable {m : Model} {p : BanditPlan} (assembled : p.Assembled m) :
    ∀ entry ∈ p.restored, entry.2.Restorable := by
  induction assembled with
  | empty _ _ fresh => simp [fresh]
  | addArms _ _ _ ih => exact ih
  | restore _ restored ih =>
      obtain ⟨arms, read, same⟩ := bind_ok_iff.mp restored
      obtain rfl := Except.ok.inj same
      refine List.forall_mem_append.mpr ⟨ih, fun entry member => ?_⟩
      obtain ⟨arm, _, one⟩ := exists_of_mapM_ok read member
      obtain ⟨_, checked, stats⟩ := (restoreArm_ok_iff _ arm entry.1 entry.2).mp one
      rw [stats]
      exact (checkStats_ok_iff _ _).mp checked
  | configure _ _ _ _ _ ih => exact ih

theorem latest_of_listed (prior : Stats) {restored : List (Assignment × Stats)} {a : Assignment}
    (listed : a ∈ restored.map (·.1)) : ∃ entry ∈ restored, latest prior restored a = entry.2 := by
  obtain ⟨entry, member, same⟩ := List.mem_map.mp listed
  have found : (restored.reverse.find? fun entry => entry.1 = a).isSome := by
    rw [List.find?_isSome]
    exact ⟨entry, List.mem_reverse.mpr member, by simpa using same⟩
  obtain ⟨last, found⟩ := Option.isSome_iff_exists.mp found
  refine ⟨last, List.mem_reverse.mp (List.mem_of_find?_eq_some found), ?_⟩
  rw [latest, found]
  rfl

theorem latest_of_unlisted (prior : Stats) {restored : List (Assignment × Stats)} {a : Assignment}
    (unlisted : a ∉ restored.map (·.1)) : latest prior restored a = prior := by
  have missing : (restored.reverse.find? fun entry => entry.1 = a) = none := by
    refine List.find?_eq_none.mpr fun entry member same => unlisted ?_
    exact List.mem_map.mpr ⟨entry, List.mem_reverse.mp member, by simpa using same⟩
  rw [latest, missing]
  rfl

/-- A plan with a posterior of an accepted configuration, or with restored arms alone. -/
def Warranted (p : BanditPlan) : Prop :=
  (∃ c : Config, c.validate = .ok () ∧ c.bandit.posterior = p.policy.posterior) ∨
    p.assignments = [] ∧ p.restored ≠ []

end BanditPlan

theorem Config.validate_posterior {c : Config} (accepted : c.validate = .ok ()) :
    c.bandit.posterior.validate = .ok () :=
  (check_bind_ok_iff.mp (check_bind_ok_iff.mp accepted).2).2

theorem not_neg_of_isPositive {x : Float} (positive : isPositive x) : x.isFinite ∧ ¬ x < 0 := by
  obtain ⟨finite, above⟩ := isFinite_of_isPositive positive
  rw [pos_iff_toRat_pos finite] at above
  exact ⟨finite, (not_neg_iff_toRat_nonneg finite).mpr above.le⟩

theorem Posterior.restorable_prior {p : Posterior} (accepted : p.validate = .ok ()) :
    p.prior.Restorable := by
  cases p with
  | normal prior =>
      obtain ⟨weight, accepted⟩ := check_bind_ok_iff.mp accepted
      obtain ⟨mean, spread⟩ := check_bind_ok_iff.mp accepted
      rw [require_ok_iff] at weight mean spread
      exact ⟨mean, not_neg_of_isPositive spread, not_neg_of_isPositive weight⟩
  | binomial prior =>
      obtain ⟨weight, above, below⟩ := (validate_binomial_iff prior).mp accepted
      have mean := isFinite_of_between isFinite_zero isFinite_one above below
      have spread := (not_neg_iff_toRat_nonneg isFinite_zero).mpr le_rfl
      exact ⟨mean, ⟨isFinite_zero, spread⟩, not_neg_of_isPositive weight⟩

theorem BanditPlan.restorable_of_build {m : Model} (sound : ∀ v ∈ m.vars, v.domain.Sound)
    {p : BanditPlan} (assembled : p.Assembled m) (warranted : p.Warranted) {fallback : UInt64}
    {b : Bandit} (run : p.build fallback = .ok b) : ∀ arm ∈ b.arms, arm.stats.Restorable := by
  intro arm member
  have supplied := assembled.supplied sound
  rw [stats_of_build sound supplied run member]
  by_cases listed : arm.assignment ∈ p.restored.map (·.1)
  · obtain ⟨entry, kept, same⟩ := latest_of_listed p.policy.prior listed
    rw [same]
    exact assembled.restorable entry kept
  · rw [latest_of_unlisted _ listed]
    rcases warranted with configured | ⟨unarmed, filled⟩
    · obtain ⟨c, accepted, posterior⟩ := configured
      exact Posterior.restorable_prior (posterior ▸ c.validate_posterior accepted)
    · -- there are no arms besides the restored ones
      obtain ⟨_, given, found, arms⟩ := arms_of_build sound supplied run
      rw [candidates_of_armed (.inr filled), unarmed] at found
      obtain rfl := Except.ok.inj found
      rw [arms, merged] at member
      obtain ⟨a, seen, rfl⟩ := List.mem_map.mp member
      exact absurd (List.mem_eraseDups.mp seen) listed

/-! ## Runs of one scale -/

def Posterior.reading : Posterior → Float → Float
  | .normal _, reward => reward
  | .binomial _, reward => RunningStats.clampUnit reward

theorem Policy.update_eq (p : Policy) (s : Stats) (reward weight : Float) :
    p.update s reward weight = s.accept (p.posterior.reading reward) weight := by
  obtain ⟨_, posterior⟩ := p
  cases posterior with
  | normal prior => rfl
  | binomial prior => rfl

namespace RunningStats

theorem abs_clampUnit_le {x : Float} (finite : x.isFinite) :
    (clampUnit x).isFinite ∧ |toRat (clampUnit x)| ≤ 1 := by
  rw [clampUnit]
  split
  · have none : toRat 0 = 0 := rfl
    exact ⟨isFinite_zero, by rw [none, abs_zero]; exact zero_le_one⟩
  · rename_i nonneg
    split
    · exact ⟨isFinite_one, by rw [toRat_one, abs_one]⟩
    · rename_i most
      rw [not_neg_iff_toRat_nonneg finite] at nonneg
      rw [one_lt_iff_one_lt_toRat finite, not_lt] at most
      exact ⟨finite, by rwa [abs_of_nonneg nonneg]⟩

theorem Modest.of_rate {a : ℚ} (prior : RatePrior) {reward weight : Float}
    (finite : reward.isFinite) (bounds : weight.isFinite ∧ a ≤ toRat weight ∧ toRat weight ≤ power 48 * a) :
    Modest a ((Posterior.binomial prior).reading reward) weight := by
  obtain ⟨rate, most⟩ := abs_clampUnit_le finite
  exact ⟨⟨rate, most.trans (power_le (show (0 : ℤ) ≤ 400 by norm_num))⟩, bounds⟩

theorem Steady.updates {a : ℚ} (scale : IsScale a) (p : Policy) {s : Stats} (steady : Steady a s)
    {rewards : List (Float × Float)}
    (modest : ∀ reward ∈ rewards, Modest a (p.posterior.reading reward.1) reward.2) :
    Steady a (p.updates s rewards) := by
  induction rewards generalizing s with
  | nil => exact steady
  | cons reward rest ih =>
      obtain ⟨first, others⟩ := List.forall_mem_cons.mp modest
      have next : Steady a (p.update s reward.1 reward.2) := by
        rw [p.update_eq]
        exact steady.accept scale first
      exact ih next others

end RunningStats

namespace Bandit

open RunningStats

/-- A run that brings each arm rewards of moderate size, with weights of the scale that its
statistics have. -/
def Gentle (b : Bandit) (calls : List Call) : Prop :=
  ∀ arm ∈ b.arms, ∃ a, IsScale a ∧ Steady a arm.stats ∧
    ∀ reward ∈ rewardsTo arm.assignment (offered b.model calls),
      Modest a (b.policy.posterior.reading reward.1) reward.2

theorem Gentle.restorable {b : Bandit} (apart : b.Apart) {calls : List Call} (gentle : b.Gentle calls) :
    ∀ arm ∈ (b.run calls).arms, arm.stats.Restorable := by
  rw [arms_run apart, List.forall_mem_map]
  intro arm member
  obtain ⟨a, scale, steady, modest⟩ := gentle arm member
  exact (steady.updates scale b.policy modest).restorable scale

/-- What a bandit starts with can be restored, if its prior comes from an accepted configuration
or it has none.  After a run, a plan over the same declaration reads its snapshot exactly when
the statistics of all arms are finite, and weights and squared deviations are not negative; there
is no other reason to refuse it.  They are after all runs whose rewards keep to a scale. -/
theorem restore_after_run {serial serial' : Nat} {d : Declaration} {m : Model}
    (built : d.build serial = .ok m) {p : BanditPlan} (assembled : p.Assembled m)
    (warranted : p.Warranted) {fallback : UInt64} {b : Bandit} (run : p.build fallback = .ok b)
    {p' : BanditPlan} (rebuilt : d.build serial' = .ok p'.model) (calls : List Call) :
    let left := b.run calls
    (∀ arm ∈ b.arms, arm.stats.Restorable) ∧
    ((∃ q, p'.restore left.snapshot = .ok q) ↔ ∀ arm ∈ left.arms, arm.stats.Restorable) ∧
    (∀ e, p'.restore left.snapshot = .error e → ∃ arm ∈ left.arms, ∃ field x,
      arm.stats.Unfit field x ∧
      e = .invalidValue (field ++ " of arm " ++ (arm.assignment.onto p'.model).render)
        (.badStatistic x)) ∧
    (b.Gentle calls →
      (∀ arm ∈ left.arms, arm.stats.Restorable) ∧ ∃ q, p'.restore left.snapshot = .ok q) := by
  intro left
  have sound := (Declaration.build_laid built).domain_sound
  have reachable : b.Reachable m := .built assembled run
  have apart := Apart.of_armed (reachable.armed sound).2.1
  have armed := ((reachable.called calls).armed sound).2.1
  have same := Declaration.sameLayout_of_build built rebuilt
  have accepted := p'.exists_restore_iff rebuilt same armed
  refine ⟨p.restorable_of_build sound assembled warranted run, accepted, ?_, ?_⟩
  · intro e refused
    exact BanditPlan.restore_snapshot_error rebuilt same armed refused
  · intro gentle
    have restorable := gentle.restorable apart
    exact ⟨restorable, accepted.mpr restorable⟩

theorem restore_after_run_overlapping :
    let m := Examples.overlappingModel
    let slots (v : Bool) := [none, some (Value.bool v), none, some (.int 1)]
    let arms : List Assignment := [⟨m, 0, slots true⟩, ⟨m, 0, slots false⟩]
    let plan (m : Model) : BanditPlan := { model := m, policy := ⟨.greedy, .binomial {}⟩ }
    let calls : List Call :=
      [.update ⟨m, 0, slots true⟩ 1.0, .updateWeighted ⟨m, 0, slots false⟩ (-3.5) 1000.0,
        .choose .empty, .update ⟨m, 1, slots true⟩ 1.0, .updateWeighted ⟨m, 0, slots true⟩ 0.25 0.5]
    ∃ b m', ((plan m).addArms arms).build 0 = .ok b ∧ Examples.overlapping.build 1 = .ok m' ∧
      (b.run calls).arms.map (·.stats.count) = [2, 1] ∧ b.Gentle calls ∧
      (∀ arm ∈ (b.run calls).arms, arm.stats.Restorable) ∧
      ∃ q, (plan m').restore (b.run calls).snapshot = .ok q := by
  intro m slots arms plan calls
  have built : Examples.overlapping.build 0 = .ok m := rfl
  have made : ∀ a ∈ arms, Assignment.ofSlots m a.slots = .ok a :=
    List.forall_mem_cons.mpr ⟨rfl, List.forall_mem_cons.mpr ⟨rfl, by simp⟩⟩
  have empty : (plan m).Assembled m := .empty rfl rfl rfl
  have assembled : ((plan m).addArms arms).Assembled m := .of_slots built empty made
  have warranted : ((plan m).addArms arms).Warranted :=
    .inl ⟨{ bandit := { posterior := .binomial {} } }, rfl, rfl⟩
  have run : ((plan m).addArms arms).build 0 = .ok _ := rfl
  have rebuilt : Examples.overlapping.build 1 = .ok (plan { m with serial := 1 }).model := rfl
  obtain ⟨_, _, _, kept⟩ := restore_after_run built assembled warranted run rebuilt calls
  refine ⟨_, _, run, rebuilt, by decide +kernel, ?gentle, kept ?gentle⟩
  have scale : IsScale (1 / 2) := ⟨by decide +kernel, by decide +kernel⟩
  have steady : Steady (1 / 2) ⟨0.5, 0, 2, 0⟩ :=
    ⟨by decide +kernel, by decide +kernel, by decide +kernel⟩
  have modest : ∀ v, ∀ reward ∈ rewardsTo ⟨m, 0, slots v⟩ (offered m calls),
      Modest (1 / 2) ((Posterior.binomial {}).reading reward.1) reward.2 := by
    have sized : ∀ v, ∀ reward ∈ rewardsTo ⟨m, 0, slots v⟩ (offered m calls), reward.1.isFinite ∧
        reward.2.isFinite ∧ 1 / 2 ≤ toRat reward.2 ∧ toRat reward.2 ≤ power 48 * (1 / 2) := by
      decide +kernel
    intro v reward member
    obtain ⟨finite, bounds⟩ := sized v reward member
    exact .of_rate {} finite bounds
  exact List.forall_mem_cons.mpr ⟨⟨1 / 2, scale, steady, modest true⟩,
    List.forall_mem_cons.mpr ⟨⟨1 / 2, scale, steady, modest false⟩, by simp⟩⟩

/-- A configuration starts from a weight of two, which is nothing beside the weight of the
reward.  The mean is rounded past the reward, and the deviations are negative. -/
theorem restore_refused_after_update :
    let m := Examples.overlappingModel
    let a : Assignment := ⟨m, 0, [none, some (.bool true), none, some (.int 1)]⟩
    let plan : BanditPlan := { model := m, policy := ⟨.greedy, .binomial {}⟩ }
    ∃ b, (plan.addArms [a]).build 0 = .ok b ∧ (plan.addArms [a]).Warranted ∧
      let answer := b.updateWeighted a 0.1 100000000000000000
      answer.1 = .ok () ∧ (∃ arm ∈ answer.2.arms, arm.stats.squaredDeviations < 0) ∧
      ∀ q, plan.restore answer.2.snapshot ≠ .ok q := by
  intro m a plan
  have built : Examples.overlapping.build 0 = .ok plan.model := rfl
  have run : (plan.addArms [a]).build 0 = .ok _ := rfl
  have empty : plan.Assembled m := .empty rfl rfl rfl
  have reachable : Reachable m _ :=
    .called [.updateWeighted a 0.1 100000000000000000]
      (.built (.of_slots built empty (List.forall_mem_cons.mpr ⟨rfl, by simp⟩)) run)
  have armed := (reachable.armed (Declaration.build_laid built).domain_sound).2.1
  have accepted := plan.exists_restore_iff built (Declaration.sameLayout_of_build built built) armed
  refine ⟨_, run, .inl ⟨{ bandit := { posterior := .binomial {} } }, rfl, rfl⟩, ?_, ?_, ?_⟩
  · exact (Reply.isDone_done _).mp (by decide +kernel)
  · decide +kernel
  · intro q restored
    have restorable := accepted.mp ⟨q, restored⟩
    exact absurd restorable (by decide +kernel)

end Bandit

end DecisionSpace
