import DecisionSpace.Bandit

/-!
# Calls on bandits

A bandit lives through a run of calls.  Whatever is called with whatever arguments,
and whether or not the call succeeds, the model, the policy and the assignments of the
arms stay; only the statistics of arms, the counters and the step move.
-/

set_option autoImplicit false

namespace DecisionSpace

theorem Arm.map_assignment_modify {f : Arm → Arm}
    (same : ∀ arm, (f arm).assignment = arm.assignment) (arms : List Arm) (i : Nat) :
    (arms.modify i f).map (·.assignment) = arms.map (·.assignment) := by
  refine List.ext_getElem (by simp) fun n inLeft inRight => ?_
  simp only [List.getElem_map, List.getElem_modify]
  split
  · exact same _
  · rfl

namespace Bandit

open Sampling

def assignments (b : Bandit) : List Assignment := b.arms.map (·.assignment)

inductive Call : Type 1 where
  | choose (c : Context)
  | chooseWith {σ : Type} [Words σ] (c : Context) (s : σ)
  | optimal (c : Context)
  | update (a : Assignment) (reward : Float)
  | updateWeighted (a : Assignment) (reward weight : Float)
  | indexOf (a : Assignment)
  | snapshot

def after (b : Bandit) : Call → Bandit
  | .choose c => (b.choose c).2
  | @Call.chooseWith _ _ c s => (b.chooseWith c s).2.1
  | .optimal c => (b.optimal c).2
  | .update a reward => (b.update a reward).2
  | .updateWeighted a reward weight => (b.updateWeighted a reward weight).2
  | .indexOf _ | .snapshot => b

def run (b : Bandit) (calls : List Call) : Bandit := calls.foldl after b

/-- Everything of a bandit that stays as it is. -/
structure Kept (b b' : Bandit) : Prop where
  model : b'.model = b.model
  policy : b'.policy = b.policy
  assignments : b'.assignments = b.assignments
  maximize : b'.maximize = b.maximize
  seed : b'.seed = b.seed

theorem Kept.refl (b : Bandit) : Kept b b := ⟨rfl, rfl, rfl, rfl, rfl⟩

theorem Kept.trans {a b c : Bandit} (first : Kept a b) (second : Kept b c) : Kept a c where
  model := second.model.trans first.model
  policy := second.policy.trans first.policy
  assignments := second.assignments.trans first.assignments
  maximize := second.maximize.trans first.maximize
  seed := second.seed.trans first.seed

/-! ## One call -/

section
variable {σ : Type} (b : Bandit) (c : Context)

theorem exists_counters_select (score : Stats → σ → Float × σ) (s : σ) :
    ∃ counters, (b.select c score s).2.1 = { b with counters } := by
  rw [select]
  cases c.validate b.model with
  | error e => exact ⟨b.counters, rfl⟩
  | ok u =>
      dsimp only
      split
      · exact ⟨b.counters, rfl⟩
      · exact ⟨_, rfl⟩

theorem exists_counters_chooseWith [Words σ] (s : σ) :
    ∃ counters, (b.chooseWith c s).2.1 = { b with counters } := by
  obtain ⟨counters, selected⟩ := b.exists_counters_select c b.policy.score s
  rw [chooseWith]
  split
  · rename_i i b' s' result
    rw [result] at selected
    obtain rfl : b' = { b with counters } := selected
    exact ⟨_, rfl⟩
  · rename_i e b' s' result
    rw [result] at selected
    exact ⟨counters, selected⟩

end

theorem kept_counters (b : Bandit) (counters : Counters) : Kept b { b with counters } :=
  ⟨rfl, rfl, rfl, rfl, rfl⟩

theorem kept_updateWeighted (b : Bandit) (a : Assignment) (reward weight : Float) :
    Kept b (b.updateWeighted a reward weight).2 := by
  rw [updateWeighted]
  split
  · exact .refl b
  · split
    · exact .refl b
    · split
      · exact b.kept_counters _
      · dsimp only
        have same := fun i =>
          Arm.map_assignment_modify (f := (b.rewarded · reward weight)) (fun _ => rfl) b.arms i
        split <;> exact ⟨rfl, rfl, same _, rfl, rfl⟩

theorem kept_after (b : Bandit) (call : Call) : Kept b (b.after call) := by
  cases call with
  | choose c =>
      obtain ⟨counters, left⟩ := { b with step := b.step + 1 }.exists_counters_chooseWith c
        (ChaCha.ofStream b.seed b.step)
      change Kept b ({ b with step := b.step + 1 }.chooseWith c _).2.1
      rw [left]
      exact ⟨rfl, rfl, rfl, rfl, rfl⟩
  | chooseWith c s =>
      obtain ⟨counters, left⟩ := b.exists_counters_chooseWith c s
      change Kept b (b.chooseWith c s).2.1
      rw [left]
      exact b.kept_counters counters
  | optimal c =>
      obtain ⟨counters, left⟩ := b.exists_counters_select c
        (fun stats (s : Unit) => (b.policy.mean stats, s)) ()
      change Kept b (b.select c _ ()).2.1
      rw [left]
      exact b.kept_counters counters
  | update a reward => exact b.kept_updateWeighted a reward 1.0
  | updateWeighted a reward weight => exact b.kept_updateWeighted a reward weight
  | indexOf a => exact .refl b
  | snapshot => exact .refl b

/-! ## Many calls -/

theorem kept_run (b : Bandit) (calls : List Call) : Kept b (b.run calls) := by
  induction calls generalizing b with
  | nil => exact .refl b
  | cons call rest ih => exact (b.kept_after call).trans (ih (b.after call))

end Bandit

end DecisionSpace
