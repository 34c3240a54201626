import DecisionSpace.Proofs.Bandit.Accounts
import DecisionSpace.Proofs.Bandit.Restoration

/-!
# Counts of observations

What the counts of the arms say after a run.  A count starts where a snapshot left it and
grows by one with every accepted reward.  It has 64 bits and a snapshot may bring any number,
so a reward breaks down when the arm is full, and so does the sum over the arms when it has
no room, although none of the counts is wrong.
-/

set_option autoImplicit false

namespace DecisionSpace

open Fallible

/-! ## What was imported -/

namespace BanditPlan

section
variable {m : Model} {p : BanditPlan} {fallback : UInt64} {b : Bandit}
  (sound : ∀ v ∈ m.vars, v.domain.Sound) (supplied : Supplied m p)
  (run : p.build fallback = .ok b)

include sound supplied run

theorem arms_of_build :
    b.policy = p.policy ∧ ∃ given, p.candidates (p.seed.getD fallback) = .ok given ∧
      b.arms = merged p.policy.prior (given ++ p.restored.map (·.1)) p.restored := by
  obtain ⟨given, found, run⟩ := bind_ok_iff.mp run
  obtain ⟨accepted, run⟩ := check_bind_ok_iff.mp run
  rw [supplied.model] at accepted
  have settled := supplied.candidates sound found (forM_ok_iff.mp accepted)
  have own : ∀ a ∈ given ++ p.restored.map (·.1), a.model = m := by
    refine List.forall_mem_append.mpr ⟨fun a member => (settled a member).model, ?_⟩
    intro a listed
    obtain ⟨entry, member, rfl⟩ := List.mem_map.mp listed
    exact (supplied.restored entry member).model
  dsimp only at run
  split at run
  · cases run
  · obtain rfl := Except.ok.inj run
    refine ⟨rfl, given, found, ?_⟩
    dsimp only
    rw [foldl_addNew_merged (List.forall_mem_append.mp own).1]
    exact foldl_addRestored_merged own

theorem stats_of_build {arm : Arm} (member : arm ∈ b.arms) :
    arm.stats = latest p.policy.prior p.restored arm.assignment := by
  obtain ⟨_, given, _, arms⟩ := arms_of_build sound supplied run
  rw [arms] at member
  obtain ⟨a, _, rfl⟩ := List.mem_map.mp member
  rfl

end

end BanditPlan

namespace Bandit

def Reply.breaksDown : Reply → Bool
  | .done (.error (.breakdown .countOverflow)) => true
  | _ => false

theorem Reply.not_isDone_of_breaksDown {reply : Reply} (breaks : reply.breaksDown) :
    reply.isDone = false := by
  cases reply with
  | done result =>
      cases result with
      | ok u => cases breaks
      | error e => rfl
  | _ => rfl

/-! ## One call -/

theorem offered_of_no_reward (m : Model) {call : Call} (none : call.reward? = none) :
    offered m [call] = [] := by
  rw [offered, List.filterMap_cons, none]
  rfl

theorem rewardsTo_offered {m : Model} {call : Call} {r : Reward} (brings : call.reward? = some r)
    (a : Assignment) :
    rewardsTo a (offered m [call]) =
      if r.isFor m ∧ a.alike r.assignment then [(r.value, r.weight)] else [] := by
  rw [offered_of_reward brings]
  by_cases fit : r.isFor m
  · rw [if_pos fit, rewardsTo_singleton]
    simp only [fit, true_and]
  · rw [if_neg fit, if_neg fun both => fit both.1]
    rfl

theorem hasRoom_of_no_reward (b : Bandit) {call : Call} (none : call.reward? = none) :
    b.HasRoom [call] := by
  intro arm _
  rw [offered_of_no_reward b.model none]
  exact arm.stats.count.toNat_lt_size

theorem hasRoom_of_reward_iff (b : Bandit) {call : Call} {r : Reward}
    (brings : call.reward? = some r) :
    b.HasRoom [call] ↔ ∀ arm ∈ b.arms, r.isFor b.model → arm.assignment.alike r.assignment →
      arm.stats.isFull = false := by
  refine forall₂_congr fun arm _ => ?_
  have bound := arm.stats.count.toNat_lt_size
  rw [rewardsTo_offered brings, ← Bool.not_eq_true, RunningStats.isFull_iff]
  by_cases known : r.isFor b.model ∧ arm.assignment.alike r.assignment
  · rw [if_pos known, List.length_singleton]
    constructor
    · intro room _ _
      omega
    · intro room
      have := room known.1 known.2
      omega
  · rw [if_neg known, List.length_nil]
    constructor
    · intro _ fit alike
      exact absurd ⟨fit, alike⟩ known
    · intro _
      exact bound

section
variable {b : Bandit} (apart : b.Apart)

include apart

theorem eq_of_alike {a : Assignment} {i : Nat} {arm other : Arm} (found : b.target? a = some i)
    (stands : b.arms[i]? = some arm) (member : other ∈ b.arms) (alike : other.assignment.alike a) :
    other = arm := by
  obtain ⟨_, position⟩ := target?_eq_some_iff.mp found
  obtain ⟨j, otherStands⟩ := List.mem_iff_getElem?.mp member
  have same : b.indexOf? a = some j :=
    (indexOf?_eq_some_iff apart).mpr ⟨_, getElem?_assignments otherStands, alike⟩
  obtain rfl := Option.some.inj (position.symm.trans same)
  exact Option.some.inj (otherStands.symm.trans stands)

theorem breaksDown_reply_iff (call : Call) : (b.reply call).breaksDown ↔ ¬ b.HasRoom [call] := by
  cases brings : call.reward? with
  | none =>
      have calm : (b.reply call).breaksDown = false := by
        cases call with
        | update a value => cases brings
        | updateWeighted a value weight => cases brings
        | _ => rfl
      simp only [calm, Bool.false_eq_true, false_iff, not_not]
      exact b.hasRoom_of_no_reward brings
  | some r =>
      rw [(b.after_of_reward brings).1, b.hasRoom_of_reward_iff brings]
      have answer := b.updated r
      generalize b.updateWeighted r.assignment r.value r.weight = result at answer
      cases answer with
      | refused invalid =>
          have unfit : ¬ r.isFor b.model := by
            rw [Reward.isFor_iff, invalid]
            exact fun fit => Bool.false_ne_true fit.1
          simp [Reply.breaksDown, unfit]
      | unknown valid missing =>
          simp only [Reply.breaksDown, Bool.false_eq_true, false_iff, not_not]
          intro arm member fit alike
          have nowhere := target?_eq_none_iff.mp missing (Reward.isFor_iff.mp fit).2
          exact absurd alike (indexOf?_eq_none_iff.mp nowhere _ (List.mem_map_of_mem member))
      | @full valid i arm found stands full =>
          simp only [Reply.breaksDown, true_iff]
          intro room
          obtain ⟨own, position⟩ := target?_eq_some_iff.mp found
          obtain ⟨x, listed, alike⟩ := (indexOf?_eq_some_iff apart).mp position
          obtain rfl := Option.some.inj (listed.symm.trans (getElem?_assignments stands))
          have unfull := room arm (List.mem_of_getElem? stands)
            (Reward.isFor_iff.mpr ⟨valid, own⟩) alike
          rw [full] at unfull
          cases unfull
      | @accepted valid i arm found stands room =>
          simp only [Reply.breaksDown, Bool.false_eq_true, false_iff, not_not]
          intro other member _ alike
          rwa [eq_of_alike apart found stands member alike]

/-- The count of an arm grows by the rewards for it that are accepted, whether or not it has
room for those that are offered. -/
theorem toNat_count_earning (call : Call) {arm : Arm} (member : arm ∈ b.arms) :
    (arm.earning b.policy (offered b.model [call])).stats.count.toNat =
      arm.stats.count.toNat +
        (rewardsTo arm.assignment (accepted [(call, b.reply call)])).length := by
  by_cases room : arm.stats.count.toNat +
      (rewardsTo arm.assignment (offered b.model [call])).length < UInt64.size
  · rw [accepted_reply apart call member room]
    exact b.policy.toNat_count_updates arm.stats _ (positive_of_offered b.model [call] _) room
  · -- the arm is full, so it counts on nothing and the reward for it breaks down
    have breaks := (breaksDown_reply_iff apart call).mpr fun all => room (all arm member)
    have bound := arm.stats.count.toNat_lt_size
    cases brings : call.reward? with
    | none => exact absurd bound (by rwa [offered_of_no_reward _ brings] at room)
    | some r =>
        have known : r.isFor b.model ∧ arm.assignment.alike r.assignment := by
          by_contra unknown
          rw [rewardsTo_offered brings, if_neg unknown] at room
          exact room bound
        have positive := ((Reward.isValid_iff r).mp (Reward.isFor_iff.mp known.1).1).2.2
        have full : arm.stats.isFull := by
          rw [rewardsTo_offered brings, if_pos known, List.length_singleton] at room
          rw [RunningStats.isFull_iff]
          omega
        rw [accepted_of_reward brings, Reply.not_isDone_of_breaksDown breaks,
          if_neg Bool.false_ne_true, offered_of_reward brings, if_pos known.1,
          arm.earning_singleton, if_pos known.2]
        dsimp only
        rw [b.policy.count_update _ positive, arm.stats.nextCount_of_full full]
        rfl

theorem hasRoom_cons_iff (call : Call) (rest : List Call) :
    b.HasRoom (call :: rest) ↔ b.HasRoom [call] ∧ (b.after call).HasRoom rest := by
  constructor
  · intro room
    refine ⟨fun arm member => ?_, room.after apart⟩
    have space := room arm member
    rw [offered_cons, rewardsTo_append, List.length_append] at space
    omega
  · intro both arm member
    obtain ⟨first, later⟩ := both
    have listed : arm.earning b.policy (offered b.model [call]) ∈ (b.after call).arms := by
      rw [arms_after apart]
      exact List.mem_map_of_mem member
    have space := later _ listed
    have grown := toNat_count_earning apart call member
    rw [accepted_reply apart call member (first arm member)] at grown
    rw [(b.kept_after call).model, grown] at space
    rw [offered_cons, rewardsTo_append, List.length_append, ← Nat.add_assoc]
    exact space

/-! ## Whole runs -/

theorem forall_not_breaksDown_iff (calls : List Call) :
    (∀ entry ∈ b.transcript calls, ¬ entry.2.breaksDown) ↔ b.HasRoom calls := by
  induction calls generalizing b with
  | nil =>
      refine iff_of_true (fun entry none => absurd none List.not_mem_nil) ?_
      exact fun arm _ => arm.stats.count.toNat_lt_size
  | cons call rest ih =>
      rw [hasRoom_cons_iff apart, ← ih (apart_after apart call), transcript, List.forall_mem_cons,
        breaksDown_reply_iff apart, not_not]

theorem toNat_count_run (calls : List Call) {arm : Arm} (member : arm ∈ b.arms) :
    (arm.earning b.policy (offered b.model calls)).stats.count.toNat =
      arm.stats.count.toNat +
        (rewardsTo arm.assignment (accepted (b.transcript calls))).length := by
  -- after each call the arm that has learned is an arm of the bandit that is left
  induction calls generalizing b arm with
  | nil => rfl
  | cons call rest ih =>
      have listed : arm.earning b.policy (offered b.model [call]) ∈ (b.after call).arms := by
        rw [arms_after apart]
        exact List.mem_map_of_mem member
      have later := ih (apart_after apart call) listed
      rw [(b.kept_after call).policy, (b.kept_after call).model, ← Arm.earning_append,
        ← offered_cons, toNat_count_earning apart call member] at later
      rw [transcript, accepted_cons, rewardsTo_append, List.length_append, ← Nat.add_assoc]
      exact later

end

theorem total_snapshot (b : Bandit) : b.snapshot.total = b.tally := by
  rw [Snapshot.total, snapshot, List.foldl_map, tally, List.sum_eq_foldl, List.foldl_map]

theorem tally_run_le (b : Bandit) (calls : List Call) :
    (b.run calls).tally ≤ b.tally + calls.length := by
  obtain ⟨n, few, grown⟩ := b.grown_run calls
  rw [grown.tally]
  exact Nat.add_le_add_left few _

theorem length_rewardsTo_offered_le (m : Model) (a : Assignment) (calls : List Call) :
    (rewardsTo a (offered m calls)).length ≤ calls.length := by
  rw [rewardsTo, List.length_map, offered]
  exact (List.length_filter_le _ _).trans
    ((List.length_filter_le _ _).trans (List.length_filterMap_le _ _))

theorem hasRoom_of_tally {b : Bandit} {calls : List Call}
    (short : b.tally + calls.length < UInt64.size) : b.HasRoom calls := by
  intro arm member
  have count : arm.stats.count.toNat ≤ b.tally :=
    List.le_sum_of_mem (List.mem_map_of_mem member)
  have length := length_rewardsTo_offered_le b.model arm.assignment calls
  omega

/-- The arms of a bandit that was built from a snapshot start with the statistics that were
read for them last.  After any run each count is the imported one and the accepted rewards for
the arm, and the snapshot that is then made counts as many observations as the arms do, as
long as 64 bits hold their number.  No update of a run breaks down exactly when every arm has
room for the valid rewards offered to it. -/
theorem observations_run {serial : Nat} {d : Declaration} {m : Model} (built : d.build serial = .ok m)
    {p q : BanditPlan} (assembled : p.Assembled m) {s : Snapshot} (read : p.restore s = .ok q)
    {fallback : UInt64} {b : Bandit} (run : q.build fallback = .ok b) (calls : List Call) :
    let left := b.run calls
    let counts := b.arms.map fun arm => arm.stats.count.toNat +
      (rewardsTo arm.assignment (accepted (b.transcript calls))).length
    (∀ arm ∈ b.arms,
      arm.stats = BanditPlan.latest q.policy.prior q.restored arm.assignment) ∧
    left.assignments = b.assignments ∧
    left.arms.map (·.stats.count.toNat) = counts ∧
    left.snapshot.observations =
      (if counts.sum < UInt64.size then .ok counts.sum
      else .error (.breakdown .countOverflow)) ∧
    ((∀ entry ∈ b.transcript calls, ¬ entry.2.breaksDown) ↔ b.HasRoom calls) ∧
    (b.tally + calls.length < UInt64.size →
      b.HasRoom calls ∧ left.snapshot.observations = .ok counts.sum) := by
  intro left counts
  have sound := (Declaration.build_laid built).domain_sound
  have restored := assembled.restore read
  obtain ⟨_, armed, _⟩ := (Reachable.built restored run).armed sound
  have apart := Apart.of_armed armed
  have grown : left.arms.map (·.stats.count.toNat) = counts := by
    rw [show left.arms = _ from arms_run apart calls, List.map_map]
    exact List.map_congr_left fun arm member => toNat_count_run apart calls member
  have total : left.snapshot.total = counts.sum := by
    rw [total_snapshot, tally, grown]
  have observations : left.snapshot.observations =
      (if counts.sum < UInt64.size then .ok counts.sum
      else .error (.breakdown .countOverflow)) := by
    rw [Snapshot.observations, total]
  refine ⟨fun arm member => ?_, (b.kept_run calls).assignments, grown, observations,
    forall_not_breaksDown_iff apart calls, fun short => ⟨hasRoom_of_tally short, ?_⟩⟩
  · exact BanditPlan.stats_of_build sound (restored.supplied sound) run member
  · rw [observations, if_pos]
    rw [← total, total_snapshot]
    exact (b.tally_run_le calls).trans_lt short

/-! ## Two imported arms -/

def countedArms (count : Bool → UInt64) : List Arm :=
  [true, false].map fun v =>
    ⟨⟨Examples.overlappingModel, 0, [none, some (.bool v), none, some (.int 1)]⟩,
      ⟨0.5, 0, 2, count v⟩⟩

theorem restore_countedArms (count : Bool → UInt64) {p : BanditPlan}
    (model : p.model = Examples.overlappingModel) (fresh : p.restored = []) :
    p.restore ⟨"Root", (countedArms count).map fun arm => ⟨arm.assignment.toMap, arm.stats⟩⟩ =
      .ok { p with restored := (countedArms count).map fun arm => (arm.assignment, arm.stats) } := by
  have built : Examples.overlapping.build 0 = .ok p.model := by
    rw [model]
    rfl
  have settled : ∀ arm ∈ countedArms count, Assignment.Settled p.model arm.assignment := by
    intro arm member
    obtain ⟨v, _, rfl⟩ := List.mem_map.mp member
    rw [model] at built ⊢
    let slots := [none, some (Value.bool v), none, some (.int 1)]
    have filled : Assignment.ofSlots Examples.overlappingModel slots =
        .ok ⟨Examples.overlappingModel, 0, slots⟩ := by
      cases v with
      | _ => rfl
    exact Assignment.settled_of_ofSlots (Declaration.build_laid built).domain_sound filled
  have read : ((countedArms count).map fun arm => ArmSnapshot.mk arm.assignment.toMap arm.stats).mapM
      (BanditPlan.restoreArm p.model) =
        .ok ((countedArms count).map fun arm => (arm.assignment, arm.stats)) := by
    rw [mapM_ok_iff, List.forall₂_map_left_iff, List.forall₂_map_right_iff, List.forall₂_same]
    intro arm member
    have restorable : arm.stats.Restorable := by
      obtain ⟨v, _, rfl⟩ := List.mem_map.mp member
      have unlearned : RunningStats.Restorable ⟨0.5, 0, 2, 0⟩ := by decide +kernel
      exact ⟨unlearned.mean, unlearned.deviations, unlearned.weight⟩
    have own := settled arm member
    have restored := BanditPlan.restoreArm_toMap built
      (Declaration.sameLayout_of_build built built) own restorable
    rwa [own.onto_self] at restored
  refine bind_ok_iff.mpr ⟨_, read, ?_⟩
  rw [fresh]
  rfl

theorem observations_run_overlapping :
    let m := Examples.overlappingModel
    let plan : BanditPlan := { model := m, policy := ⟨.greedy, .normal {}⟩ }
    let arms := countedArms fun v => if v then 5 else 0xfffffffffffffff0
    let s : Snapshot := ⟨"Root", arms.map fun arm => ⟨arm.assignment.toMap, arm.stats⟩⟩
    let slots (v : Bool) := [none, some (Value.bool v), none, some (.int 1)]
    let calls : List Call :=
      [.update ⟨m, 0, slots true⟩ 1.0, .updateWeighted ⟨m, 0, slots false⟩ 0.5 2.0, .snapshot,
        .update ⟨m, 1, slots true⟩ 1.0, .update ⟨m, 0, slots true⟩ 0.25]
    ∃ q b, plan.restore s = .ok q ∧ q.build 0 = .ok b ∧
      (b.run calls).arms.map (·.stats.count.toNat) = [7, 0xfffffffffffffff1] ∧
      (b.run calls).snapshot.observations = .ok 0xfffffffffffffff8 := by
  intro m plan arms s slots calls
  have built : Examples.overlapping.build 0 = .ok m := rfl
  have empty : plan.Assembled m := .empty rfl rfl rfl
  have read : plan.restore s = .ok _ := restore_countedArms _ rfl rfl
  have run : BanditPlan.build { plan with restored := arms.map fun arm => (arm.assignment, arm.stats) }
      0 = .ok _ := rfl
  refine ⟨_, _, read, run, ?_⟩
  obtain ⟨_, _, counts, observations, _⟩ := observations_run built empty read run calls
  rw [counts, observations]
  refine ⟨by decide +kernel, ?_⟩
  rw [if_pos (by decide +kernel)]
  exact congrArg Except.ok (by decide +kernel)

/-- Two imported arms whose counts fit into 64 bits together.  After one accepted reward they
no longer do, and their sum breaks down although each count is right; a reward for the arm
that is full breaks down as well. -/
theorem observations_overflow :
    let m := Examples.overlappingModel
    let plan : BanditPlan := { model := m, policy := ⟨.greedy, .normal {}⟩ }
    let arms := countedArms fun v => if v then 0xffffffffffffffff else 0
    let s : Snapshot := ⟨"Root", arms.map fun arm => ⟨arm.assignment.toMap, arm.stats⟩⟩
    let a (v : Bool) : Assignment := ⟨m, 0, [none, some (.bool v), none, some (.int 1)]⟩
    ∃ q b, plan.restore s = .ok q ∧ q.build 0 = .ok b ∧
      s.observations = .ok 0xffffffffffffffff ∧
      (b.update (a false) 1.0).1 = .ok () ∧
      (b.update (a false) 1.0).2.snapshot.observations = .error (.breakdown .countOverflow) ∧
      (b.update (a true) 1.0).1 = .error (.breakdown .countOverflow) := by
  intro m plan arms s a
  have read : plan.restore s = .ok _ := restore_countedArms _ rfl rfl
  refine ⟨_, _, read, rfl, rfl, ?_, ?_, ?_⟩
  · exact (Reply.isDone_done _).mp (by decide +kernel)
  · exact if_neg (by decide +kernel)
  · rfl

end Bandit

end DecisionSpace
