import DecisionSpace.Examples
import DecisionSpace.Proofs.Bandit.Arms
import DecisionSpace.Proofs.FirstOccurrence
import DecisionSpace.Proofs.Search.Distinct

/-!
# Merged arms

What the arms of a plan become.  Given and restored arms are collected one after the other;
a given arm that is there already is left out, a restored one hands over its statistics.  So
the arms are the first occurrences of all of them, each with the statistics that were restored
for it last.
-/

set_option autoImplicit false

namespace DecisionSpace

open Fallible

namespace BanditPlan

/-! ## Assembling a plan -/

inductive Call where
  | arm (a : Assignment)
  | assignments (given : List Assignment)
  | restore (s : Snapshot)
  | armLimit (limit : Nat)
  | maximize (large : Bool)
  | seed (seed : UInt64)
  | settings (settings : Search.Settings)

def Call.given : Call → List Assignment
  | .arm a => [a]
  | .assignments given => given
  | _ => []

def Call.kept : Call → List ArmSnapshot
  | .restore s => s.arms
  | _ => []

def add (p : BanditPlan) : Call → Except Failure BanditPlan
  | .arm a => .ok (p.addArms [a])
  | .assignments given => .ok (p.addArms given)
  | .restore s => p.restore s
  | .armLimit armLimit => .ok { p with armLimit }
  | .maximize maximize => .ok { p with maximize }
  | .seed seed => .ok { p with seed := some seed }
  | .settings settings => .ok { p with settings }

def assemble (p : BanditPlan) (calls : List Call) : Except Failure BanditPlan := calls.foldlM add p

structure Extended (p q : BanditPlan) (given : List Assignment)
    (restored : List (Assignment × Stats)) : Prop where
  model : q.model = p.model
  policy : q.policy = p.policy
  assignments : q.assignments = p.assignments ++ given
  restored : q.restored = p.restored ++ restored

theorem add_ok {p : BanditPlan} {call : Call} {restored : List (Assignment × Stats)}
    (accepted : call.kept.mapM (restoreArm p.model) = .ok restored) :
    ∃ q, p.add call = .ok q ∧ Extended p q call.given restored := by
  have nothing : call.kept = [] → restored = [] := by
    intro none
    rw [none] at accepted
    exact (Except.ok.inj accepted).symm
  cases call with
  | restore s =>
      refine ⟨{ p with restored := p.restored ++ restored }, ?_, rfl, rfl, ?_, rfl⟩
      · exact bind_ok_iff.mpr ⟨restored, accepted, rfl⟩
      · exact (List.append_nil _).symm
  | arm a =>
      refine ⟨_, rfl, rfl, rfl, rfl, ?_⟩
      rw [nothing rfl, List.append_nil]
      rfl
  | assignments given =>
      refine ⟨_, rfl, rfl, rfl, rfl, ?_⟩
      rw [nothing rfl, List.append_nil]
      rfl
  | _ =>
      refine ⟨_, rfl, rfl, rfl, (List.append_nil _).symm, ?_⟩
      rw [nothing rfl, List.append_nil]

theorem assemble_ok {p : BanditPlan} {calls : List Call} {restored : List (Assignment × Stats)}
    (accepted : (calls.flatMap Call.kept).mapM (restoreArm p.model) = .ok restored) :
    ∃ q, p.assemble calls = .ok q ∧ Extended p q (calls.flatMap Call.given) restored := by
  induction calls generalizing p restored with
  | nil =>
      obtain rfl := Except.ok.inj accepted
      exact ⟨p, rfl, rfl, rfl, (List.append_nil _).symm, (List.append_nil _).symm⟩
  | cons call rest ih =>
      rw [List.flatMap_cons, List.mapM_append] at accepted
      obtain ⟨own, ofCall, accepted⟩ := bind_ok_iff.mp accepted
      obtain ⟨others, ofRest, joined⟩ := bind_ok_iff.mp accepted
      obtain rfl := Except.ok.inj joined
      obtain ⟨q, step, first⟩ := add_ok ofCall
      rw [← first.model] at ofRest
      obtain ⟨q', run, later⟩ := ih ofRest
      refine ⟨q', bind_ok_iff.mpr ⟨q, step, run⟩, later.model.trans first.model,
        later.policy.trans first.policy, ?_, ?_⟩
      · rw [later.assignments, first.assignments, List.flatMap_cons, List.append_assoc]
      · rw [later.restored, first.restored, List.append_assoc]

/-! ## Collecting the arms -/

def latest (prior : Stats) (restored : List (Assignment × Stats)) (a : Assignment) : Stats :=
  ((restored.reverse.find? fun entry => entry.1 = a).map (·.2)).getD prior

/-- The first occurrences of assignments, with the statistics that were restored for them. -/
def merged (prior : Stats) (seen : List Assignment) (restored : List (Assignment × Stats)) :
    List Arm :=
  seen.eraseDups.map fun a => ⟨a, latest prior restored a⟩

theorem map_assignment_merged (prior : Stats) (seen : List Assignment)
    (restored : List (Assignment × Stats)) :
    (merged prior seen restored).map (·.assignment) = seen.eraseDups := by
  rw [merged, List.map_map]
  exact List.map_id _

theorem latest_concat (prior : Stats) (restored : List (Assignment × Stats))
    (entry : Assignment × Stats) (a : Assignment) :
    latest prior (restored ++ [entry]) a =
      if entry.1 = a then entry.2 else latest prior restored a := by
  rw [latest, List.reverse_append, List.reverse_singleton, List.singleton_append, List.find?_cons]
  by_cases same : entry.1 = a
  · simp [same]
  · simp [same, latest]

theorem merged_concat (prior : Stats) (seen : List Assignment)
    (restored : List (Assignment × Stats)) (a : Assignment) :
    merged prior (seen ++ [a]) restored =
      if a ∈ seen.eraseDups then merged prior seen restored
      else merged prior seen restored ++ [⟨a, latest prior restored a⟩] := by
  rw [merged, FirstOccurrence.eraseDups_concat]
  split
  · rfl
  · rw [List.map_append]
    rfl

section
variable {m : Model} {prior : Stats} {seen : List Assignment}
  {restored : List (Assignment × Stats)}

theorem merged_of_unlisted {entry : Assignment × Stats} (new : entry.1 ∉ seen.eraseDups) :
    merged prior seen (restored ++ [entry]) = merged prior seen restored := by
  refine List.map_congr_left fun a listed => ?_
  have different : entry.1 ≠ a := fun same => new (same ▸ listed)
  rw [latest_concat, if_neg different]

theorem merged_of_listed {entry : Assignment × Stats} {i : Nat} (inRange : i < seen.eraseDups.length)
    (stands : seen.eraseDups[i] = entry.1) :
    (merged prior seen restored).modify i (fun arm => { arm with stats := entry.2 }) =
      merged prior seen (restored ++ [entry]) := by
  have distinct : seen.eraseDups.Nodup := FirstOccurrence.nodup_eraseDups seen
  -- first occurrences are distinct, so the arm at `i` is the only one like the entry
  refine List.ext_getElem (by simp [merged]) fun j _ before => ?_
  have inRange' : j < seen.eraseDups.length := by simpa [merged] using before
  have same : i = j ↔ entry.1 = seen.eraseDups[j] := by
    rw [← stands, distinct.getElem_inj_iff]
  simp only [merged, List.getElem_modify, List.getElem_map, latest_concat, same]
  split
  · rfl
  · rfl

section
variable (own : ∀ a ∈ seen, a.model = m)

include own

theorem alike_listed_iff {a b : Assignment} (model : a.model = m) (listed : b ∈ seen.eraseDups) :
    b.alike a = true ↔ b = a := by
  have sameModel := (own b (List.mem_eraseDups.mp listed)).trans model.symm
  exact Assignment.alike_iff_eq sameModel

theorem any_alike_merged (prior : Stats) (restored : List (Assignment × Stats)) {a : Assignment}
    (model : a.model = m) :
    ((merged prior seen restored).any fun arm => arm.assignment.alike a) = true ↔
      a ∈ seen.eraseDups := by
  rw [List.any_eq_true]
  constructor
  · intro some
    obtain ⟨arm, member, alike⟩ := some
    obtain ⟨b, listed, rfl⟩ := List.mem_map.mp member
    rwa [← (alike_listed_iff own model listed).mp alike]
  · intro listed
    exact ⟨_, List.mem_map_of_mem listed, (Assignment.alike_iff_eq rfl).mpr rfl⟩

theorem addNew_merged {a : Assignment} (model : a.model = m) :
    addNew prior (merged prior seen []) a = merged prior (seen ++ [a]) [] := by
  have known := any_alike_merged own prior [] model
  rw [addNew, merged_concat]
  by_cases listed : a ∈ seen.eraseDups
  · rw [if_pos (known.mpr listed), if_pos listed]
  · rw [if_neg fun some => listed (known.mp some), if_neg listed]
    rfl

theorem addRestored_merged {entry : Assignment × Stats} (model : entry.1.model = m) :
    addRestored (merged prior seen restored) entry =
      merged prior (seen ++ [entry.1]) (restored ++ [entry]) := by
  have known := any_alike_merged own prior restored model
  rw [addRestored, merged_concat]
  split
  -- the arm is there already and hands over its statistics
  · rename_i i found
    obtain ⟨inRange, alike, _⟩ := List.findIdx?_eq_some_iff_getElem.mp found
    have inRange' : i < seen.eraseDups.length := by simpa [merged] using inRange
    have stands : seen.eraseDups[i] = entry.1 := by
      refine (alike_listed_iff own model (List.getElem_mem inRange')).mp ?_
      simpa [merged] using alike
    rw [if_pos (stands ▸ List.getElem_mem inRange')]
    exact merged_of_listed inRange' stands
  · rename_i absent
    have new : entry.1 ∉ seen.eraseDups := by
      rw [← known, List.any_eq_true]
      intro some
      obtain ⟨arm, member, alike⟩ := some
      have unlike := List.findIdx?_eq_none_iff.mp absent arm member
      rw [alike] at unlike
      cases unlike
    rw [if_neg new, merged_of_unlisted new, latest_concat, if_pos rfl]

end

theorem foldl_addNew_merged {given : List Assignment} (own : ∀ a ∈ given, a.model = m) :
    given.foldl (addNew prior) [] = merged prior given [] := by
  -- from the end, since the arms so far are merged when the last one comes
  induction given using List.reverseRecOn with
  | nil => rfl
  | append_singleton before a ih =>
      obtain ⟨earlier, last⟩ := List.forall_mem_append.mp own
      rw [List.foldl_append, ih earlier]
      exact addNew_merged earlier (last a List.mem_cons_self)

theorem foldl_addRestored_merged {given : List Assignment} {restored : List (Assignment × Stats)}
    (own : ∀ a ∈ given ++ restored.map (·.1), a.model = m) :
    restored.foldl addRestored (merged prior given []) =
      merged prior (given ++ restored.map (·.1)) restored := by
  induction restored using List.reverseRecOn with
  | nil => rw [List.map_nil, List.append_nil]; rfl
  | append_singleton before entry ih =>
      rw [List.map_append, ← List.append_assoc] at own ⊢
      obtain ⟨earlier, last⟩ := List.forall_mem_append.mp own
      rw [List.foldl_append, ih earlier]
      exact addRestored_merged earlier (last entry.1 (by simp))

theorem merged_of_distinct {restored : List (Assignment × Stats)}
    (distinct : (restored.map (·.1)).Nodup) :
    merged prior (restored.map (·.1)) restored = restored.map fun entry => ⟨entry.1, entry.2⟩ := by
  induction restored using List.reverseRecOn with
  | nil => rfl
  | append_singleton before entry ih =>
      rw [List.map_append, List.map_singleton] at distinct
      obtain ⟨earlier, _, apart⟩ := List.nodup_append.mp distinct
      have new : entry.1 ∉ (before.map (·.1)).eraseDups := by
        rw [List.mem_eraseDups]
        exact fun listed => apart _ listed _ List.mem_cons_self rfl
      rw [List.map_append, List.map_singleton, merged_concat, if_neg new, merged_of_unlisted new,
        ih earlier, latest_concat, if_pos rfl, List.map_append]
      rfl

end

/-! ## Building -/

theorem model_of_restoreArm {m : Model} {arm : ArmSnapshot} {entry : Assignment × Stats}
    (restored : restoreArm m arm = .ok entry) : entry.1.model = m := by
  obtain ⟨ofMap, _⟩ := (restoreArm_ok_iff m arm entry.1 entry.2).mp restored
  obtain ⟨slots, _, filled⟩ := bind_ok_iff.mp ofMap
  exact ((Assignment.ofSlots_ok_iff _ _ _).mp filled).2.1

section
variable {p : BanditPlan} (fallback : UInt64)

theorem candidates_of_armed (armed : p.assignments ≠ [] ∨ p.restored ≠ []) (seed : UInt64) :
    p.candidates seed = .ok p.assignments := by
  have some : ¬ (p.assignments.isEmpty && p.restored.isEmpty) = true := by
    rw [Bool.and_eq_true, List.isEmpty_iff, List.isEmpty_iff]
    intro none
    exact armed.elim (absurd none.1) (absurd none.2)
  rw [candidates, if_neg some]

theorem build_of_armed (own : ∀ a ∈ p.assignments, a.model = p.model ∧ a.scope = 0)
    (restored : ∀ entry ∈ p.restored, entry.1.model = p.model)
    (armed : p.assignments ≠ [] ∨ p.restored ≠ []) :
    p.build fallback = .ok
      { model := p.model, policy := p.policy, maximize := p.maximize, seed := p.seed.getD fallback
        arms := merged p.policy.prior (p.assignments ++ p.restored.map (·.1)) p.restored } := by
  have accepted : p.assignments.forM (checkArm p.model) = .ok () := by
    refine forM_ok_iff.mpr fun a given => (checkArm_ok_iff _ a).mpr ?_
    obtain ⟨model, root⟩ := own a given
    exact ⟨by rw [model], root⟩
  have models : ∀ a ∈ p.assignments ++ p.restored.map (·.1), a.model = p.model := by
    refine List.forall_mem_append.mpr ⟨fun a given => (own a given).1, fun a listed => ?_⟩
    obtain ⟨entry, member, rfl⟩ := List.mem_map.mp listed
    exact restored entry member
  have collected : p.restored.foldl addRestored (p.assignments.foldl (addNew p.policy.prior) []) =
      merged p.policy.prior (p.assignments ++ p.restored.map (·.1)) p.restored := by
    rw [foldl_addNew_merged fun a given => (own a given).1]
    exact foldl_addRestored_merged models
  have some : merged p.policy.prior (p.assignments ++ p.restored.map (·.1)) p.restored ≠ [] := by
    rw [merged, Ne, List.map_eq_nil_iff, FirstOccurrence.eraseDups_eq_nil_iff, List.append_eq_nil_iff,
      List.map_eq_nil_iff]
    intro none
    exact armed.elim (absurd none.1) (absurd none.2)
  refine bind_ok_iff.mpr ⟨_, candidates_of_armed armed _, check_bind_ok_iff.mpr ⟨accepted, ?_⟩⟩
  dsimp only
  rw [collected, if_neg (by simpa using some)]

theorem checkArm_error {m : Model} {a : Assignment} {e : Failure} (refused : checkArm m a = .error e) :
    ∃ name cause, e = .invalidValue name cause := by
  rw [checkArm] at refused
  split at refused
  · exact ⟨_, _, (Except.error.inj refused).symm⟩
  · split at refused
    · exact ⟨_, _, (Except.error.inj refused).symm⟩
    · cases refused

theorem build_of_foreign {a : Assignment} (given : a ∈ p.assignments)
    (foreign : a.model.serial ≠ p.model.serial ∨ a.scope ≠ 0) :
    ∃ b ∈ p.assignments, ∃ name cause, checkArm p.model b = .error (.invalidValue name cause) ∧
      p.build fallback = .error (.invalidValue name cause) := by
  have candidates := candidates_of_armed (.inl (List.ne_nil_of_mem given)) (p.seed.getD fallback)
  cases checked : p.assignments.forM (checkArm p.model) with
  | ok u =>
      obtain ⟨same, root⟩ := (checkArm_ok_iff _ a).mp (forM_ok_iff.mp checked a given)
      exact absurd root (foreign.resolve_left (not_not_intro same))
  | error e =>
      obtain ⟨b, listed, refused⟩ := exists_of_forM_error checked
      obtain ⟨name, cause, rfl⟩ := checkArm_error refused
      refine ⟨b, listed, name, cause, refused, ?_⟩
      rw [build, candidates]
      change (p.assignments.forM (checkArm p.model) >>= _) = _
      rw [checked]
      rfl

end

/-- Calls on an empty plan whose snapshots can be read leave a plan that builds, if there is
an arm at all and the given ones are the model's own.  However the calls are mixed, the arms
are the first occurrences among the given and then the restored ones, each with the statistics
that were restored for it last or else those of the prior, and none is generated.  A given arm
of another model or from below the root makes the plan fail. -/
theorem merge_arms {p : BanditPlan} (unarmed : p.assignments = []) (fresh : p.restored = [])
    {calls : List Call} {restored : List (Assignment × Stats)}
    (accepted : (calls.flatMap Call.kept).mapM (restoreArm p.model) = .ok restored) :
    let given := calls.flatMap Call.given
    ∃ q, p.assemble calls = .ok q ∧
      ((∀ a ∈ given, a.model = p.model ∧ a.scope = 0) → (given ≠ [] ∨ restored ≠ []) →
        (∀ seed, q.candidates seed = .ok given) ∧
        ∀ fallback, ∃ b, q.build fallback = .ok b ∧ b.model = p.model ∧
          b.assignments = (given ++ restored.map (·.1)).eraseDups ∧
          b.arms = b.assignments.map fun a => ⟨a, latest p.policy.prior restored a⟩) ∧
      ((∃ a ∈ given, a.model.serial ≠ p.model.serial ∨ a.scope ≠ 0) →
        ∀ fallback, ∃ a ∈ given, ∃ name cause,
          checkArm p.model a = .error (.invalidValue name cause) ∧
            q.build fallback = .error (.invalidValue name cause)) := by
  intro given
  obtain ⟨q, run, model, policy, assignments, kept⟩ := assemble_ok accepted
  have assignments : q.assignments = given := by rwa [unarmed, List.nil_append] at assignments
  rw [fresh, List.nil_append] at kept
  have read : ∀ entry ∈ restored, entry.1.model = q.model := by
    intro entry member
    obtain ⟨arm, _, one⟩ := exists_of_mapM_ok accepted member
    exact (model_of_restoreArm one).trans model.symm
  refine ⟨q, run, fun own armed => ⟨fun seed => ?_, fun fallback => ?_⟩, fun foreign fallback => ?_⟩
  · rw [candidates_of_armed (by rwa [assignments, kept]), assignments]
  · have built := build_of_armed (p := q) fallback (by rwa [assignments, model]) (by rwa [kept])
      (by rwa [assignments, kept])
    rw [model, policy, assignments, kept] at built
    refine ⟨_, built, rfl, map_assignment_merged _ _ _, ?_⟩
    rw [Bandit.assignments, map_assignment_merged]
    rfl
  · obtain ⟨a, listed, foreign⟩ := foreign
    rw [← assignments] at listed ⊢
    rw [← model] at foreign ⊢
    exact build_of_foreign fallback listed foreign

theorem merge_arms_overlapping :
    let m := Examples.overlappingModel
    let tags (names : List String) : Value := .selection (names.map .text)
    let arm (names : List String) : Assignment :=
      ⟨m, 0, [none, some (.bool true), some (tags names), some (.int 1)]⟩
    let counted (count : UInt64) : Stats := ⟨0, 0, 0, count⟩
    let kept (names : List String) (count : UInt64) : ArmSnapshot :=
      ⟨Table.ofList [("b", .bool true), ("tags", tags names)], counted count⟩
    let plan : BanditPlan := { model := m, policy := ⟨.greedy, .binomial {}⟩ }
    let calls : List Call :=
      [.restore ⟨"Root", [kept ["z", "x"] 1, kept ["y"] 2, kept ["y"] 3]⟩, .arm (arm ["z"]),
        .armLimit 0, .assignments [arm ["x", "z"], arm ["z"]], .restore ⟨"Root", [kept ["x", "z"] 4]⟩]
    let restored : List (Assignment × Stats) :=
      [(arm ["x", "z"], counted 1), (arm ["y"], counted 2), (arm ["y"], counted 3),
        (arm ["x", "z"], counted 4)]
    let foreign : List Call := calls ++ [.arm { arm ["x"] with model := { m with serial := 1 } }]
    (calls.flatMap Call.kept).mapM (restoreArm m) = .ok restored ∧
      (∃ q b, plan.assemble calls = .ok q ∧ q.build 7 = .ok b ∧
        b.assignments = [arm ["z"], arm ["x", "z"], arm ["y"]] ∧
        b.arms.map (·.stats.count) = [0, 4, 3]) ∧
      ∃ q name cause, plan.assemble foreign = .ok q ∧
        q.build 7 = .error (.invalidValue name cause) := by
  intro m tags arm counted kept plan calls restored foreign
  have accepted : (calls.flatMap Call.kept).mapM (restoreArm plan.model) = .ok restored := by
    simp only [calls, kept, counted, tags, plan, m, restored, arm]
    rfl
  have accepted' : (foreign.flatMap Call.kept).mapM (restoreArm plan.model) = .ok restored := by
    have same : foreign.flatMap Call.kept = calls.flatMap Call.kept := by
      rw [List.flatMap_append]
      exact List.append_nil _
    rw [same]
    exact accepted
  have own : ∀ a ∈ calls.flatMap Call.given, a.model = plan.model ∧ a.scope = 0 := by
    simp [calls, Call.given, arm, plan]
  obtain ⟨q, run, builds, _⟩ := merge_arms (p := plan) rfl rfl accepted
  obtain ⟨q', run', _, fails⟩ := merge_arms (p := plan) rfl rfl accepted'
  obtain ⟨_, built⟩ := builds own (.inr (List.cons_ne_nil _ _))
  obtain ⟨b, built, _, assignments, arms⟩ := built 7
  have merged : (calls.flatMap Call.given ++ restored.map (·.1)).eraseDups =
      [arm ["z"], arm ["x", "z"], arm ["y"]] := by decide +kernel
  have stranger : ∃ a ∈ foreign.flatMap Call.given, a.model.serial ≠ plan.model.serial ∨ a.scope ≠ 0 :=
    ⟨{ arm ["x"] with model := { m with serial := 1 } }, by simp [foreign, Call.given], .inl (by decide)⟩
  obtain ⟨_, _, name, cause, _, failed⟩ := fails stranger 7
  rw [merged] at assignments
  refine ⟨accepted, ⟨q, b, run, built, assignments, ?_⟩, q', name, cause, run', failed⟩
  rw [arms, assignments]
  decide +kernel

end BanditPlan

end DecisionSpace
