import DecisionSpace.Bandit.Plan
import DecisionSpace.Proofs.Bandit.Calls
import DecisionSpace.Proofs.Decoding
import DecisionSpace.Proofs.Search.Attempt

/-!
# Arms of bandits

Which arms a bandit can have.  Arms come from given assignments, from snapshots or
from a search; whatever their source, a bandit that is built has settled assignments
of its own model, each once, and no call takes that away.
-/

set_option autoImplicit false

namespace DecisionSpace

open Fallible
open Sampling

/-- Assignments that can be given to a plan: made from slots for a model that was
built, or seen from a scope below. -/
inductive Assignment.Obtained : Assignment → Prop where
  | made {serial : Nat} {d : Declaration} {m : Model} {slots : List (Option Value)} {a : Assignment}
      (built : d.build serial = .ok m) (filled : ofSlots m slots = .ok a) : Obtained a
  | view {a b : Assignment} {name : String} (obtained : Obtained a) (below : a.sub name = .ok b) :
      Obtained b

/-- Plans that can be assembled over a model: an empty one with any settings, then
given arms, snapshots and other settings in any order.  Models have serial numbers of
their own, so an assignment with the number of the model is one of the model. -/
inductive BanditPlan.Assembled (m : Model) : BanditPlan → Prop where
  | empty {p : BanditPlan} (model : p.model = m) (unarmed : p.assignments = [])
      (fresh : p.restored = []) : Assembled m p
  | addArms {p : BanditPlan} {arms : List Assignment} (assembled : Assembled m p)
      (obtained : ∀ a ∈ arms, a.Obtained)
      (identified : ∀ a ∈ arms, a.model.serial = m.serial → a.model = m) :
      Assembled m (p.addArms arms)
  | restore {p q : BanditPlan} {s : Snapshot} (assembled : Assembled m p)
      (restored : p.restore s = .ok q) : Assembled m q
  | configure {p : BanditPlan} (armLimit : Nat) (maximize : Bool) (seed : Option UInt64)
      (settings : Search.Settings) (assembled : Assembled m p) :
      Assembled m { p with armLimit, maximize, seed, settings }

inductive Bandit.Reachable (m : Model) : Bandit → Prop where
  | built {p : BanditPlan} {fallback : UInt64} {b : Bandit} (assembled : p.Assembled m)
      (run : p.build fallback = .ok b) : Reachable m b
  | called {b : Bandit} (calls : List Bandit.Call) (reachable : Reachable m b) :
      Reachable m (b.run calls)

/-! ## What a plan is supplied with -/

namespace Assignment

theorem Obtained.settled {a : Assignment} (obtained : a.Obtained) :
    Settled a.model { a with scope := 0 } := by
  induction obtained with
  | @made _ _ m slots a built filled =>
      have settled := settled_of_ofSlots (Declaration.build_laid built).domain_sound filled
      exact ⟨rfl, rfl, settled.model ▸ settled.slots⟩
  | view _ below ih =>
      obtain ⟨scope, _, rfl⟩ := map_ok_iff.mp below
      exact ih

end Assignment

namespace BanditPlan

theorem checkArm_ok_iff (m : Model) (a : Assignment) :
    checkArm m a = .ok () ↔ a.model.serial = m.serial ∧ a.scope = 0 := by
  rw [checkArm]
  by_cases same : a.model.serial = m.serial <;> by_cases root : a.scope = 0 <;> simp [same, root]

theorem restoreArm_ok_iff (m : Model) (arm : ArmSnapshot) (a : Assignment) (stats : Stats) :
    restoreArm m arm = .ok (a, stats) ↔
      Assignment.ofMap m arm.values = .ok a ∧ checkStats a arm.stats = .ok () ∧
        stats = arm.stats := by
  rw [restoreArm, bind_ok_iff]
  simp only [check_bind_ok_iff, Except.ok.injEq, Prod.mk.injEq]
  constructor
  · rintro ⟨a, read, passing, rfl, rfl⟩
    exact ⟨read, passing, rfl⟩
  · rintro ⟨read, passing, rfl⟩
    exact ⟨a, read, passing, rfl, rfl⟩

theorem Assembled.of_slots {serial : Nat} {d : Declaration} {m : Model}
    (built : d.build serial = .ok m) {p : BanditPlan} (assembled : p.Assembled m)
    {arms : List Assignment} (made : ∀ a ∈ arms, Assignment.ofSlots m a.slots = .ok a) :
    (p.addArms arms).Assembled m := by
  refine assembled.addArms ?_ ?_
  · intro a member
    exact .made built (made a member)
  · intro a member _
    exact ((Assignment.ofSlots_ok_iff m a.slots a).mp (made a member)).2.1

structure Supplied (m : Model) (p : BanditPlan) : Prop where
  model : p.model = m
  given : ∀ a ∈ p.assignments, checkArm m a = .ok () → Assignment.Settled m a
  restored : ∀ entry ∈ p.restored, Assignment.Settled m entry.1

theorem Assembled.supplied {m : Model} (sound : ∀ v ∈ m.vars, v.domain.Sound) {p : BanditPlan}
    (assembled : p.Assembled m) : Supplied m p := by
  induction assembled with
  | empty model unarmed fresh => exact ⟨model, by simp [unarmed], by simp [fresh]⟩
  | addArms _ obtained identified ih =>
      refine ⟨ih.model, List.forall_mem_append.mpr ⟨ih.given, fun a member accepted => ?_⟩,
        ih.restored⟩
      -- the check compares serial numbers; that they tell models apart makes it enough
      obtain ⟨sameSerial, root⟩ := (checkArm_ok_iff _ a).mp accepted
      have settled := (obtained a member).settled
      rw [identified a member sameSerial] at settled
      exact ⟨identified a member sameSerial, root, settled.slots⟩
  | restore _ restored ih =>
      obtain ⟨arms, read, same⟩ := bind_ok_iff.mp restored
      obtain rfl := Except.ok.inj same
      refine ⟨ih.model, ih.given, List.forall_mem_append.mpr ⟨ih.restored, fun entry member => ?_⟩⟩
      obtain ⟨arm, _, one⟩ := exists_of_mapM_ok read member
      obtain ⟨ofMap, _⟩ := (restoreArm_ok_iff _ arm entry.1 entry.2).mp one
      obtain ⟨slots, _, filled⟩ := bind_ok_iff.mp ofMap
      rw [ih.model] at filled
      exact Assignment.settled_of_ofSlots sound filled
  | configure armLimit maximize seed settings _ ih => exact ⟨ih.model, ih.given, ih.restored⟩

theorem Supplied.candidates {m : Model} (sound : ∀ v ∈ m.vars, v.domain.Sound) {p : BanditPlan}
    (supplied : Supplied m p) {seed : UInt64} {given : List Assignment}
    (run : p.candidates seed = .ok given) (checked : ∀ a ∈ given, checkArm m a = .ok ()) :
    ∀ a ∈ given, Assignment.Settled m a := by
  obtain rfl := supplied.model
  have generated : (∀ a ∈ given, ∃ slots, Assignment.ofSlots p.model slots = .ok a) →
      ∀ a ∈ given, Assignment.Settled p.model a := by
    intro made a member
    obtain ⟨slots, filled⟩ := made a member
    exact Assignment.settled_of_ofSlots sound filled
  rw [BanditPlan.candidates] at run
  split at run
  · dsimp only at run
    split at run
    · exact generated (Solver.ofSlots_of_enumerate run)
    · exact generated (Solver.ofSlots_of_distinctWitnesses run)
  · obtain rfl := Except.ok.inj run
    exact fun a member => supplied.given a member (checked a member)

end BanditPlan

/-! ## Collecting arms -/

structure Model.Armed (m : Model) (assignments : List Assignment) : Prop where
  settled : ∀ a ∈ assignments, Assignment.Settled m a
  distinct : assignments.Nodup

namespace Model.Armed

theorem empty (m : Model) : m.Armed (([] : List Arm).map (·.assignment)) :=
  ⟨by simp, List.nodup_nil⟩

section
variable {m : Model} {arms : List Arm} (armed : m.Armed (arms.map (·.assignment)))

include armed

theorem append {a : Assignment} (settled : Assignment.Settled m a)
    (new : ∀ arm ∈ arms, ¬ arm.assignment.alike a) (stats : Stats) :
    m.Armed ((arms ++ [Arm.mk a stats]).map (·.assignment)) := by
  rw [List.map_append, List.map_singleton]
  have absent : a ∉ arms.map (·.assignment) := by
    intro listed
    obtain ⟨arm, member, rfl⟩ := List.mem_map.mp listed
    exact new arm member ((Assignment.alike_iff_eq rfl).mpr rfl)
  refine ⟨List.forall_mem_append.mpr ⟨armed.settled, by simpa using settled⟩, ?_⟩
  refine List.nodup_append.mpr ⟨armed.distinct, List.nodup_singleton a, ?_⟩
  intro b listed c own same
  rw [same, List.mem_singleton.mp own] at listed
  exact absent listed

theorem addNew {a : Assignment} (settled : Assignment.Settled m a) (prior : Stats) :
    m.Armed ((BanditPlan.addNew prior arms a).map (·.assignment)) := by
  rw [BanditPlan.addNew]
  split
  · exact armed
  · rename_i absent
    exact armed.append settled (by simpa using absent) prior

theorem addRestored {entry : Assignment × Stats} (settled : Assignment.Settled m entry.1) :
    m.Armed ((BanditPlan.addRestored arms entry).map (·.assignment)) := by
  rw [BanditPlan.addRestored]
  split
  · rwa [Arm.map_assignment_modify (by intro arm; rfl)]
  · rename_i absent
    exact armed.append settled (by simpa using absent) entry.2

theorem foldl_addNew {given : List Assignment} (settled : ∀ a ∈ given, Assignment.Settled m a)
    (prior : Stats) :
    m.Armed ((given.foldl (BanditPlan.addNew prior) arms).map (·.assignment)) := by
  induction given generalizing arms with
  | nil => exact armed
  | cons a rest ih =>
      obtain ⟨head, tail⟩ := List.forall_mem_cons.mp settled
      exact ih (armed.addNew head prior) tail

theorem foldl_addRestored {restored : List (Assignment × Stats)}
    (settled : ∀ entry ∈ restored, Assignment.Settled m entry.1) :
    m.Armed ((restored.foldl BanditPlan.addRestored arms).map (·.assignment)) := by
  induction restored generalizing arms with
  | nil => exact armed
  | cons entry rest ih =>
      obtain ⟨head, tail⟩ := List.forall_mem_cons.mp settled
      exact ih (armed.addRestored head) tail

end

end Model.Armed

/-- The arms of a bandit that is built are settled assignments of its model, each
once, and there are some. -/
theorem BanditPlan.armed_of_build {m : Model} (sound : ∀ v ∈ m.vars, v.domain.Sound)
    {p : BanditPlan} (supplied : Supplied m p) {fallback : UInt64} {b : Bandit}
    (run : p.build fallback = .ok b) :
    b.model = m ∧ m.Armed b.assignments ∧ b.assignments ≠ [] := by
  obtain ⟨given, found, run⟩ := bind_ok_iff.mp run
  obtain ⟨accepted, run⟩ := check_bind_ok_iff.mp run
  rw [supplied.model] at accepted
  have settled := supplied.candidates sound found (forM_ok_iff.mp accepted)
  have armed : m.Armed ((p.restored.foldl addRestored
      (given.foldl (addNew p.policy.prior) [])).map (·.assignment)) := by
    have collected := (Model.Armed.empty m).foldl_addNew settled p.policy.prior
    exact collected.foldl_addRestored supplied.restored
  dsimp only at run
  split at run
  · exact absurd run (by simp)
  · rename_i some
    obtain rfl := Except.ok.inj run
    exact ⟨supplied.model, armed, by simpa [Bandit.assignments] using some⟩

theorem Bandit.Reachable.armed {m : Model} (sound : ∀ v ∈ m.vars, v.domain.Sound) {b : Bandit}
    (reachable : b.Reachable m) :
    b.model = m ∧ m.Armed b.assignments ∧ b.assignments ≠ [] := by
  induction reachable with
  | built assembled run => exact BanditPlan.armed_of_build sound (assembled.supplied sound) run
  | @called b calls _ ih =>
      have kept := b.kept_run calls
      rw [kept.model, kept.assignments]
      exact ih

end DecisionSpace
