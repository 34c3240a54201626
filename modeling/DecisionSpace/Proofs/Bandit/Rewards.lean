import DecisionSpace.Proofs.Bandit.Selection
import DecisionSpace.Proofs.Bandit.Updates

/-!
# Rewards over a run

What an arm has learned after a run of calls.  Every accepted reward goes to one arm, so
each arm has learned from its own rewards in their order, whatever else was called in
between, and the growth of all counts together is the growth of the number of updates.
-/

set_option autoImplicit false

namespace DecisionSpace

/-! ## The rewards of an arm -/

def Reward.isFor (m : Model) (r : Reward) : Bool :=
  r.isValid && r.assignment.model.serial == m.serial

theorem Reward.isFor_iff {m : Model} {r : Reward} :
    r.isFor m ↔ r.isValid ∧ r.assignment.model.serial = m.serial := by
  simp [isFor]

def rewardsTo (a : Assignment) (rewards : List Reward) : List (Float × Float) :=
  (rewards.filter fun r => a.alike r.assignment).map fun r => (r.value, r.weight)

theorem rewardsTo_append (a : Assignment) (rewards more : List Reward) :
    rewardsTo a (rewards ++ more) = rewardsTo a rewards ++ rewardsTo a more := by
  rw [rewardsTo, List.filter_append, List.map_append]
  rfl

theorem rewardsTo_singleton (a : Assignment) (r : Reward) :
    rewardsTo a [r] = if a.alike r.assignment then [(r.value, r.weight)] else [] := by
  rw [rewardsTo, List.filter_cons]
  split
  · rfl
  · rfl

def Policy.updates (p : Policy) (s : Stats) (rewards : List (Float × Float)) : Stats :=
  rewards.foldl (fun s reward => p.update s reward.1 reward.2) s

def Arm.earning (p : Policy) (rewards : List Reward) (arm : Arm) : Arm :=
  { arm with stats := p.updates arm.stats (rewardsTo arm.assignment rewards) }

theorem Arm.earning_append (p : Policy) (rewards more : List Reward) (arm : Arm) :
    arm.earning p (rewards ++ more) = (arm.earning p rewards).earning p more := by
  simp only [earning, rewardsTo_append, Policy.updates, List.foldl_append]

theorem Arm.earning_singleton (p : Policy) (r : Reward) (arm : Arm) :
    arm.earning p [r] =
      if arm.assignment.alike r.assignment then
        { arm with stats := p.update arm.stats r.value r.weight }
      else arm := by
  rw [earning, rewardsTo_singleton]
  split
  · rfl
  · rfl

theorem Policy.toNat_count_updates (p : Policy) (s : Stats) (rewards : List (Float × Float))
    (positive : ∀ reward ∈ rewards, 0 < reward.2)
    (room : s.count.toNat + rewards.length < UInt64.size) :
    (p.updates s rewards).count.toNat = s.count.toNat + rewards.length := by
  induction rewards generalizing s with
  | nil => rfl
  | cons reward rest ih =>
      obtain ⟨first, others⟩ := List.forall_mem_cons.mp positive
      rw [List.length_cons] at room
      have unfull : s.isFull = false := by
        rw [← Bool.not_eq_true, RunningStats.isFull_iff]
        omega
      have next : (p.update s reward.1 reward.2).count.toNat = s.count.toNat + 1 := by
        rw [p.count_update s first, s.toNat_nextCount unfull]
      have later := ih (p.update s reward.1 reward.2) others (by omega)
      rw [updates, List.foldl_cons, List.length_cons]
      rw [updates, next] at later
      omega

namespace Bandit

/-! ## The answers to calls -/

inductive Reply where
  | arm (result : Except Failure Nat)
  | done (result : Except Failure Unit)
  | position (found : Option Nat)
  | exported (s : Snapshot)

def Reply.isDone : Reply → Bool
  | .done (.ok ()) => true
  | _ => false

theorem Reply.isDone_done (result : Except Failure Unit) :
    (Reply.done result).isDone ↔ result = .ok () := by
  cases result with
  | error e => simp [isDone]
  | ok u => simp [isDone]

def Call.reward? : Call → Option Reward
  | .update a value => some ⟨a, value, 1.0⟩
  | .updateWeighted a value weight => some ⟨a, value, weight⟩
  | _ => none

def reply (b : Bandit) : Call → Reply
  | .choose c => .arm (b.choose c).1
  | @Call.chooseWith _ _ c s => .arm (b.chooseWith c s).1
  | .optimal c => .arm (b.optimal c).1
  | .update a reward => .done (b.update a reward).1
  | .updateWeighted a reward weight => .done (b.updateWeighted a reward weight).1
  | .indexOf a => .position (b.indexOf? a)
  | .snapshot => .exported b.snapshot

def transcript (b : Bandit) : List Call → List (Call × Reply)
  | [] => []
  | call :: rest => (call, b.reply call) :: (b.after call).transcript rest

def accepted (entries : List (Call × Reply)) : List Reward :=
  (entries.filter (·.2.isDone)).filterMap (·.1.reward?)

def offered (m : Model) (calls : List Call) : List Reward :=
  (calls.filterMap Call.reward?).filter (Reward.isFor m)

/-- Whether the count of every arm has room for the rewards of a run. -/
def HasRoom (b : Bandit) (calls : List Call) : Prop :=
  ∀ arm ∈ b.arms, arm.stats.count.toNat +
    (rewardsTo arm.assignment (offered b.model calls)).length < UInt64.size

instance (b : Bandit) (calls : List Call) : Decidable (b.HasRoom calls) :=
  inferInstanceAs (Decidable (∀ arm ∈ b.arms, _))

/-! ## One call -/

theorem after_of_reward (b : Bandit) {call : Call} {r : Reward} (brings : call.reward? = some r) :
    b.reply call = .done (b.updateWeighted r.assignment r.value r.weight).1 ∧
      b.after call = (b.updateWeighted r.assignment r.value r.weight).2 := by
  cases call with
  | update a value =>
      obtain rfl := Option.some.inj brings
      exact ⟨rfl, rfl⟩
  | updateWeighted a value weight =>
      obtain rfl := Option.some.inj brings
      exact ⟨rfl, rfl⟩
  | _ => simp [Call.reward?] at brings

theorem Selected.unchanged {b left : Bandit} {c : Context} {result : Except Failure Nat}
    (selected : b.Selected c (result, left)) :
    left.arms = b.arms ∧ left.counters.updates = b.counters.updates := by
  cases selected with
  | refused invalid => exact ⟨rfl, rfl⟩
  | none valid empty => exact ⟨rfl, rfl⟩
  | arm valid member => exact ⟨rfl, rfl⟩

theorem Chosen.unchanged {b left : Bandit} {c : Context} {result : Except Failure Nat}
    (chosen : b.Chosen c (result, left)) :
    left.arms = b.arms ∧ left.counters.updates = b.counters.updates := by
  cases chosen with
  | failed selected => exact selected.unchanged
  | arm selected => exact ⟨rfl, rfl⟩

theorem after_of_no_reward (b : Bandit) {call : Call} (none : call.reward? = none) :
    (b.after call).arms = b.arms ∧
      (b.after call).counters.updates = b.counters.updates := by
  cases call with
  | choose c => exact (chosen { b with step := b.step + 1 } c _).unchanged
  | chooseWith c s => exact (b.chosen c s).unchanged
  | optimal c => exact (b.selected c _ ()).unchanged
  | update a value => simp [Call.reward?] at none
  | updateWeighted a value weight => simp [Call.reward?] at none
  | indexOf a => exact ⟨rfl, rfl⟩
  | snapshot => exact ⟨rfl, rfl⟩

theorem offered_cons (m : Model) (call : Call) (rest : List Call) :
    offered m (call :: rest) = offered m [call] ++ offered m rest := by
  simp only [offered, List.filterMap_cons, List.filterMap_nil]
  cases call.reward? with
  | none => rfl
  | some r => exact List.filter_append [r] _

theorem accepted_cons (entry : Call × Reply) (rest : List (Call × Reply)) :
    accepted (entry :: rest) = accepted [entry] ++ accepted rest := by
  simp only [accepted]
  rw [← List.filterMap_append, ← List.filter_append]
  rfl

theorem offered_of_reward {m : Model} {call : Call} {r : Reward} (brings : call.reward? = some r) :
    offered m [call] = if r.isFor m then [r] else [] := by
  simp only [offered, List.filterMap_cons, brings, List.filterMap_nil, List.filter_cons,
    List.filter_nil]

theorem accepted_of_reward {call : Call} {r : Reward} (brings : call.reward? = some r)
    (reply : Reply) : accepted [(call, reply)] = if reply.isDone then [r] else [] := by
  rw [accepted, List.filter_cons]
  split
  · rw [List.filterMap_cons, brings]
    rfl
  · rfl

theorem positive_of_offered (m : Model) (calls : List Call) (a : Assignment) :
    ∀ reward ∈ rewardsTo a (offered m calls), 0 < reward.2 := by
  intro reward member
  obtain ⟨r, kept, rfl⟩ := List.mem_map.mp member
  have fit := (List.mem_filter.mp (List.mem_filter.mp kept).1).2
  rw [Reward.isFor_iff, Reward.isValid_iff] at fit
  exact fit.1.2.2

section
variable {b : Bandit} (apart : b.Apart)

include apart

theorem modify_target? {r : Reward} {i : Nat} (found : b.target? r.assignment = some i) :
    b.arms.modify i (b.rewarded · r.value r.weight) =
      b.arms.map (Arm.earning b.policy [r]) := by
  obtain ⟨_, position⟩ := target?_eq_some_iff.mp found
  rw [modify_indexOf? apart position]
  exact List.map_congr_left fun arm _ => (arm.earning_singleton _ r).symm

theorem arms_updateWeighted (r : Reward) :
    (b.updateWeighted r.assignment r.value r.weight).2.arms =
      b.arms.map (Arm.earning b.policy (if r.isFor b.model then [r] else [])) := by
  have idle : b.arms = b.arms.map (Arm.earning b.policy []) := (List.map_id _).symm
  have learning : ∀ i, b.target? r.assignment = some i → r.isValid →
      b.arms.modify i (b.rewarded · r.value r.weight) =
        b.arms.map (Arm.earning b.policy (if r.isFor b.model then [r] else [])) := by
    intro i found valid
    rw [if_pos (Reward.isFor_iff.mpr ⟨valid, (target?_eq_some_iff.mp found).1⟩)]
    exact modify_target? apart found
  have answer := b.updated r
  generalize b.updateWeighted r.assignment r.value r.weight = result at answer
  cases answer with
  | refused invalid name cause =>
      rw [if_neg (by simp [Reward.isFor, invalid])]
      exact idle
  | unknown valid missing =>
      split
      · rename_i fit
        have nowhere := target?_eq_none_iff.mp missing (Reward.isFor_iff.mp fit).2
        refine idle.trans (List.map_congr_left fun arm member => ?_)
        have unlike := indexOf?_eq_none_iff.mp nowhere _ (List.mem_map_of_mem member)
        rw [arm.earning_singleton, if_neg unlike]
        rfl
      · exact idle
  | full valid found stands full => exact learning _ found valid
  | accepted valid found stands room => exact learning _ found valid

theorem arms_after (call : Call) :
    (b.after call).arms = b.arms.map (Arm.earning b.policy (offered b.model [call])) := by
  cases brings : call.reward? with
  | none =>
      rw [(b.after_of_no_reward brings).1, offered, List.filterMap_cons, brings]
      exact (List.map_id _).symm
  | some r =>
      rw [(b.after_of_reward brings).2, offered_of_reward brings]
      exact arms_updateWeighted apart r

theorem apart_after (call : Call) : (b.after call).Apart :=
  apart.of_assignments (b.kept_after call).assignments

theorem arms_run (calls : List Call) :
    (b.run calls).arms = b.arms.map (Arm.earning b.policy (offered b.model calls)) := by
  induction calls generalizing b with
  | nil => exact (List.map_id _).symm
  | cons call rest ih =>
      have kept := b.kept_after call
      have later := ih (apart_after apart call)
      rw [arms_after apart, kept.policy, kept.model, List.map_map] at later
      rw [offered_cons]
      refine later.trans (List.map_congr_left fun arm _ => ?_)
      exact (arm.earning_append _ _ _).symm

theorem ok_iff_isFor {r : Reward} {arm : Arm} (member : arm ∈ b.arms)
    (alike : arm.assignment.alike r.assignment)
    (room : r.isFor b.model → arm.stats.count.toNat + 1 < UInt64.size) :
    (b.updateWeighted r.assignment r.value r.weight).1 = .ok () ↔ r.isFor b.model := by
  rw [updateWeighted_ok_iff]
  constructor
  · intro accepted
    obtain ⟨valid, i, _, found, _⟩ := accepted
    exact Reward.isFor_iff.mpr ⟨valid, (target?_eq_some_iff.mp found).1⟩
  · intro fit
    obtain ⟨valid, own⟩ := Reward.isFor_iff.mp fit
    obtain ⟨j, stands⟩ := List.mem_iff_getElem?.mp member
    have position : b.indexOf? r.assignment = some j :=
      (indexOf?_eq_some_iff apart).mpr ⟨_, getElem?_assignments stands, alike⟩
    refine ⟨valid, j, arm, target?_eq_some_iff.mpr ⟨own, position⟩, stands, ?_⟩
    rw [← Bool.not_eq_true, RunningStats.isFull_iff]
    have space := room fit
    omega

theorem accepted_reply (call : Call) {arm : Arm} (member : arm ∈ b.arms)
    (room : arm.stats.count.toNat +
      (rewardsTo arm.assignment (offered b.model [call])).length < UInt64.size) :
    rewardsTo arm.assignment (accepted [(call, b.reply call)]) =
      rewardsTo arm.assignment (offered b.model [call]) := by
  cases brings : call.reward? with
  | none =>
      rw [accepted, offered, List.filterMap_cons, brings, List.filter_cons]
      split
      · rw [List.filterMap_cons, brings]
        rfl
      · rfl
  | some r =>
      rw [accepted_of_reward brings, (b.after_of_reward brings).1]
      rw [offered_of_reward brings] at room ⊢
      by_cases alike : arm.assignment.alike r.assignment
      · have space : r.isFor b.model → arm.stats.count.toNat + 1 < UInt64.size := by
          intro fit
          rwa [if_pos fit, rewardsTo_singleton, if_pos alike] at room
        have done := (Reply.isDone_done _).trans (ok_iff_isFor apart member alike space)
        rw [Bool.eq_iff_iff.mpr done]
      · have nothing : ∀ given : Bool,
            rewardsTo arm.assignment (if given then [r] else []) = [] := by
          intro given
          cases given with
          | false => rfl
          | true => exact (rewardsTo_singleton _ r).trans (if_neg alike)
        rw [nothing, nothing]

theorem HasRoom.after {call : Call} {rest : List Call} (room : b.HasRoom (call :: rest)) :
    (b.after call).HasRoom rest := by
  intro arm member
  rw [arms_after apart] at member
  obtain ⟨before, listed, rfl⟩ := List.mem_map.mp member
  have space := room before listed
  rw [offered_cons, rewardsTo_append, List.length_append] at space
  have count := b.policy.toNat_count_updates before.stats _
    (positive_of_offered b.model [call] before.assignment) (by omega)
  rw [(b.kept_after call).model, Arm.earning]
  dsimp only
  rw [count]
  omega

theorem accepted_transcript {calls : List Call} (room : b.HasRoom calls) {arm : Arm}
    (member : arm ∈ b.arms) :
    rewardsTo arm.assignment (accepted (b.transcript calls)) =
      rewardsTo arm.assignment (offered b.model calls) := by
  -- the room for the rest of the run is what the first call leaves of it
  induction calls generalizing b arm with
  | nil => rfl
  | cons call rest ih =>
      have space := room arm member
      rw [offered_cons, rewardsTo_append, List.length_append] at space
      have first := accepted_reply apart call member (by omega)
      have listed : arm.earning b.policy (offered b.model [call]) ∈ (b.after call).arms := by
        rw [arms_after apart]
        exact List.mem_map_of_mem member
      have others := ih (apart_after apart call) (room.after apart) listed
      rw [(b.kept_after call).model] at others
      rw [transcript, accepted_cons, rewardsTo_append, offered_cons, rewardsTo_append, first]
      exact congrArg _ others

end

/-! ## All counts together -/

def tally (b : Bandit) : Nat := (b.arms.map (·.stats.count.toNat)).sum

theorem tally_modify (arms : List Arm) {i : Nat} {arm : Arm} (stands : arms[i]? = some arm)
    (f : Arm → Arm) :
    ((arms.modify i f).map (·.stats.count.toNat)).sum + arm.stats.count.toNat =
      (arms.map (·.stats.count.toNat)).sum + (f arm).stats.count.toNat := by
  induction arms generalizing i with
  | nil => simp at stands
  | cons first rest ih =>
      cases i with
      | zero =>
          obtain rfl : first = arm := by simpa using stands
          simp only [List.modify_zero_cons, List.map_cons, List.sum_cons]
          omega
      | succ i =>
          have later := ih (by simpa using stands)
          simp only [List.modify_succ_cons, List.map_cons, List.sum_cons]
          omega

/-- The arms and the bandit have counted the same number of rewards more. -/
structure Grown (b left : Bandit) (n : Nat) : Prop where
  tally : left.tally = b.tally + n
  updates : left.counters.updates = b.counters.updates.raise n

theorem Grown.of_unchanged {b left : Bandit} (arms : left.arms = b.arms)
    (updates : left.counters.updates = b.counters.updates) : b.Grown left 0 := by
  refine ⟨?_, updates.trans (Count.raise_zero _).symm⟩
  rw [Bandit.tally, Bandit.tally, arms, Nat.add_zero]

theorem Grown.trans {a b c : Bandit} {n k : Nat} (first : a.Grown b n) (second : b.Grown c k) :
    a.Grown c (n + k) where
  tally := by rw [second.tally, first.tally, Nat.add_assoc]
  updates := by rw [second.updates, first.updates, Count.raise_add]

theorem grown_after (b : Bandit) (call : Call) : ∃ n ≤ 1, b.Grown (b.after call) n := by
  cases brings : call.reward? with
  | none =>
      obtain ⟨arms, updates⟩ := b.after_of_no_reward brings
      exact ⟨0, Nat.zero_le 1, .of_unchanged arms updates⟩
  | some r =>
      rw [(b.after_of_reward brings).2]
      have answer := b.updated r
      generalize b.updateWeighted r.assignment r.value r.weight = result at answer
      cases answer with
      | refused invalid name cause => exact ⟨0, Nat.zero_le 1, .of_unchanged rfl rfl⟩
      | unknown valid missing => exact ⟨0, Nat.zero_le 1, .of_unchanged rfl rfl⟩
      | @full valid i arm found stands full =>
          -- neither side counts an update that breaks down
          have sum := tally_modify b.arms stands (b.rewarded · r.value r.weight)
          rw [rewarded, b.policy.count_update _ ((r.isValid_iff).mp valid).2.2,
            arm.stats.nextCount_of_full full] at sum
          refine ⟨0, Nat.zero_le 1, ?_, (Count.raise_zero _).symm⟩
          simp only [tally]
          omega
      | @accepted valid i arm found stands room =>
          have sum := tally_modify b.arms stands (b.rewarded · r.value r.weight)
          rw [rewarded, b.policy.count_update _ ((r.isValid_iff).mp valid).2.2,
            arm.stats.toNat_nextCount room] at sum
          refine ⟨1, le_rfl, ?_, rfl⟩
          simp only [tally]
          omega

theorem grown_run (b : Bandit) (calls : List Call) :
    ∃ n ≤ calls.length, b.Grown (b.run calls) n := by
  induction calls generalizing b with
  | nil => exact ⟨0, le_rfl, .of_unchanged rfl rfl⟩
  | cons call rest ih =>
      obtain ⟨n, one, first⟩ := b.grown_after call
      obtain ⟨k, few, later⟩ := ih (b.after call)
      refine ⟨n + k, ?_, first.trans later⟩
      rw [List.length_cons]
      omega

/-! ## Whole runs -/

/-- After a run that the counts have room for, the assignments are those from before, and
each arm has learned from the accepted rewards that are for it, in their order.  The updates
that the bandit counts grow by as much as the counts of the arms together.  Runs that agree on
these rewards, arm for arm, leave the same arms. -/
theorem run_isolated {serial : Nat} {d : Declaration} {m : Model} (built : d.build serial = .ok m)
    {b : Bandit} (reachable : b.Reachable m) (calls : List Call) (room : b.HasRoom calls) :
    let left := b.run calls
    let rewards (arm : Arm) (calls : List Call) :=
      rewardsTo arm.assignment (accepted (b.transcript calls))
    left.assignments = b.assignments ∧ (∀ a, left.indexOf? a = b.indexOf? a) ∧
      left.arms = b.arms.map (fun arm =>
        { arm with stats := b.policy.updates arm.stats (rewards arm calls) }) ∧
      left.arms.map (·.stats.count.toNat) = b.arms.map (fun arm =>
        arm.stats.count.toNat + (rewards arm calls).length) ∧
      (∃ n, left.tally = b.tally + n ∧ left.counters.updates = b.counters.updates.raise n ∧
        ((b.counters.updates : Nat) + n < UInt64.size →
          (left.counters.updates : Nat) = b.counters.updates + n)) ∧
      ∀ others, b.HasRoom others → (∀ arm ∈ b.arms, rewards arm others = rewards arm calls) →
        (b.run others).arms = left.arms := by
  intro left rewards
  obtain ⟨_, armed, _⟩ := reachable.armed (Declaration.build_laid built).domain_sound
  have apart := Apart.of_armed armed
  have same := (b.kept_run calls).assignments
  have learned : ∀ calls, b.HasRoom calls → (b.run calls).arms = b.arms.map (fun arm =>
      { arm with stats := b.policy.updates arm.stats (rewards arm calls) }) := by
    intro calls room
    rw [arms_run apart]
    refine List.map_congr_left fun arm member => ?_
    rw [Arm.earning, ← accepted_transcript apart room member]
  have found : ∀ a, left.indexOf? a = b.indexOf? a := by
    intro a
    rw [indexOf?_eq, indexOf?_eq, same]
  obtain ⟨n, _, grown⟩ := b.grown_run calls
  refine ⟨same, found, learned calls room, ?_, ⟨n, grown.tally, grown.updates, fun small => ?_⟩, ?_⟩
  · rw [learned calls room, List.map_map]
    refine List.map_congr_left fun arm member => ?_
    have given : rewards arm calls = rewardsTo arm.assignment (offered b.model calls) :=
      accepted_transcript apart room member
    have space := room arm member
    rw [← given] at space
    refine b.policy.toNat_count_updates arm.stats _ ?_ space
    rw [given]
    exact positive_of_offered b.model calls arm.assignment
  · rw [show left.counters.updates = _ from grown.updates, Count.toNat_raise small]
  · intro others roomToo agree
    rw [learned calls room, learned others roomToo]
    refine List.map_congr_left fun arm member => ?_
    rw [agree arm member]

theorem run_isolated_overlapping :
    let m := Examples.overlappingModel
    let slots (b : Bool) := [none, some (Value.bool b), none, some (.int 1)]
    let arms : List Assignment := [⟨m, 0, slots true⟩, ⟨m, 0, slots false⟩]
    let plan : BanditPlan := { model := m, policy := ⟨.greedy, .binomial {}⟩ }
    let calls : List Call :=
      [.update ⟨m, 0, slots true⟩ 1.0, .choose .empty, .updateWeighted ⟨m, 0, slots false⟩ 0.5 2.0,
        .update ⟨m, 1, slots true⟩ 1.0, .update ⟨m, 0, slots true⟩ 0.25]
    let others : List Call :=
      [.updateWeighted ⟨m, 0, slots false⟩ 0.5 2.0, .update ⟨m, 0, slots true⟩ 1.0,
        .updateWeighted ⟨m, 0, slots true⟩ 1.0 0.0, .snapshot, .update ⟨m, 0, slots true⟩ 0.25]
    ∃ b, (plan.addArms arms).build 0 = .ok b ∧ b.HasRoom calls ∧ b.HasRoom others ∧
      (b.run calls).arms.map (·.stats.count.toNat) = [2, 1] ∧
      (b.run calls).counters.updates = 3 ∧ (b.run calls).counters.unknownArms = 1 ∧
      (b.run others).arms = (b.run calls).arms := by
  intro m slots arms plan calls others
  have built : Examples.overlapping.build 0 = .ok m := rfl
  have made : ∀ a ∈ arms, Assignment.ofSlots m a.slots = .ok a :=
    List.forall_mem_cons.mpr ⟨rfl, List.forall_mem_cons.mpr ⟨rfl, by simp⟩⟩
  have empty : plan.Assembled m := .empty rfl rfl rfl
  have run : (plan.addArms arms).build 0 = .ok _ := rfl
  have reachable := Reachable.built (.of_slots built empty made) run
  refine ⟨_, run, by decide +kernel, by decide +kernel, ?_⟩
  obtain ⟨_, _, _, _, _, alike⟩ := run_isolated built reachable calls (by decide +kernel)
  refine ⟨by decide +kernel, by decide +kernel, by decide +kernel, ?_⟩
  exact alike others (by decide +kernel) (by decide +kernel)

end Bandit

end DecisionSpace
