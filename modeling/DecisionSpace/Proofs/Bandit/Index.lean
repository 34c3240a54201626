import DecisionSpace.Bandit.Plan
import DecisionSpace.Proofs.Bandit.Updates
import DecisionSpace.Proofs.Fallible
import DecisionSpace.Proofs.Solution
import DecisionSpace.Table

/-!
# The index of the arms

A build enters the position of every arm under its assignment, and both of its loops ask this
index whether there is an arm already.  No call touches the index afterwards.  Looking an
assignment up in it gives the position that a search among the arms gives.
-/

set_option autoImplicit false

namespace DecisionSpace

open Fallible

namespace Assignment

structure Key where
  scope : Nat
  slots : List (Option Value)
  deriving DecidableEq

def key (a : Assignment) : Key := ⟨a.scope, a.slots⟩

theorem alike_iff_key (a b : Assignment) : a.alike b = true ↔ a.key = b.key := by
  rw [alike_iff, key, key, Key.mk.injEq]

end Assignment

structure ArmIndex where
  arms : List Arm
  positions : List (Assignment.Key × Nat)

namespace ArmIndex

def empty : ArmIndex := ⟨[], []⟩

def position? (x : ArmIndex) (a : Assignment) : Option Nat := x.positions.lookup a.key

def push (x : ArmIndex) (arm : Arm) : ArmIndex where
  arms := x.arms ++ [arm]
  positions := (arm.assignment.key, x.arms.length) :: x.positions

def addNew (prior : Stats) (x : ArmIndex) (a : Assignment) : ArmIndex :=
  match x.position? a with
  | some _ => x
  | none => x.push ⟨a, prior⟩

def addRestored (x : ArmIndex) (entry : Assignment × Stats) : ArmIndex :=
  match x.position? entry.1 with
  | some i => { x with arms := x.arms.modify i fun arm => { arm with stats := entry.2 } }
  | none => x.push ⟨entry.1, entry.2⟩

/-- The index holds for each assignment the first arm that is like it. -/
def Agrees (x : ArmIndex) : Prop :=
  ∀ a, x.position? a = (x.arms.map (·.assignment)).findIdx? (·.alike a)

theorem agrees_empty : empty.Agrees := fun _ => rfl

variable {x : ArmIndex}

theorem position?_push (arm : Arm) (a : Assignment) :
    (x.push arm).position? a =
      if a.key = arm.assignment.key then some x.arms.length else x.position? a :=
  Table.lookup_cons_eq_ite _ _ _ _

section
variable (agrees : x.Agrees)

include agrees

theorem Agrees.findIdx?_arms (a : Assignment) :
    x.arms.findIdx? (fun arm => arm.assignment.alike a) = x.position? a := by
  rw [agrees a, List.findIdx?_map]
  rfl

theorem Agrees.push {arm : Arm} (new : x.position? arm.assignment = none) :
    (x.push arm).Agrees := by
  intro a
  rw [position?_push, ArmIndex.push, List.map_append, List.findIdx?_append, ← agrees a]
  by_cases same : a.key = arm.assignment.key
  · -- assignments with one key are looked up alike, so there was no arm like `a`
    have absent : x.position? a = none := by
      rw [position?, same]
      exact new
    have alike : arm.assignment.alike a = true := (Assignment.alike_iff_key _ _).mpr same.symm
    simp [same, absent, alike]
  · have unlike : arm.assignment.alike a = false := by
      rw [Bool.eq_false_iff, ne_eq, Assignment.alike_iff_key]
      exact Ne.symm same
    simp [same, unlike]

theorem Agrees.addNew (prior : Stats) (a : Assignment) :
    (x.addNew prior a).Agrees ∧ (x.addNew prior a).arms = BanditPlan.addNew prior x.arms a := by
  have scan : (x.arms.any fun arm => arm.assignment.alike a) = (x.position? a).isSome := by
    rw [← agrees.findIdx?_arms, List.findIdx?_isSome]
  rw [ArmIndex.addNew, BanditPlan.addNew, scan]
  cases found : x.position? a with
  | some i => exact ⟨agrees, rfl⟩
  | none => exact ⟨agrees.push found, rfl⟩

theorem Agrees.addRestored (entry : Assignment × Stats) :
    (x.addRestored entry).Agrees ∧
      (x.addRestored entry).arms = BanditPlan.addRestored x.arms entry := by
  rw [ArmIndex.addRestored, BanditPlan.addRestored, agrees.findIdx?_arms]
  cases found : x.position? entry.1 with
  | some i =>
      refine ⟨fun a => ?_, rfl⟩
      dsimp only
      rw [Arm.map_assignment_modify (by intro arm; rfl), ← agrees a]
      rfl
  | none => exact ⟨agrees.push found, rfl⟩

/-- What each step keeps and does to the arms, a whole loop does. -/
theorem Agrees.foldl {β : Type} {step : ArmIndex → β → ArmIndex} {plain : List Arm → β → List Arm}
    (one : ∀ x : ArmIndex, x.Agrees → ∀ e, (step x e).Agrees ∧ (step x e).arms = plain x.arms e)
    (entries : List β) :
    (entries.foldl step x).Agrees ∧ (entries.foldl step x).arms = entries.foldl plain x.arms := by
  induction entries generalizing x with
  | nil => exact ⟨agrees, rfl⟩
  | cons e rest ih =>
      obtain ⟨kept, arms⟩ := one x agrees e
      obtain ⟨indexed, same⟩ := ih kept
      refine ⟨indexed, ?_⟩
      rw [List.foldl_cons, same, arms]
      rfl

end

end ArmIndex

namespace BanditPlan

def collect (p : BanditPlan) (given : List Assignment) : Except Failure ArmIndex := do
  let x ← given.foldlM
    (fun x a => (checkArm p.model a).map fun _ => x.addNew p.policy.prior a) ArmIndex.empty
  .ok (p.restored.foldl ArmIndex.addRestored x)

theorem foldlM_checkArm (m : Model) (prior : Stats) (given : List Assignment) (x : ArmIndex) :
    given.foldlM (fun x a => (checkArm m a).map fun _ => x.addNew prior a) x =
      (given.forM (checkArm m)).map fun _ => given.foldl (ArmIndex.addNew prior) x := by
  induction given generalizing x with
  | nil => rfl
  | cons a rest ih =>
      rw [List.foldlM_cons, List.forM]
      cases checkArm m a with
      | error cause => rfl
      | ok u =>
          change rest.foldlM _ (x.addNew prior a) = _
          rw [ih]
          rfl

/-- A build has the arms that its loops collect, and after any calls an assignment is looked
up in the index of these loops as it is searched for among the arms. -/
theorem index_of_build {p : BanditPlan} {fallback : UInt64} {b : Bandit}
    (run : p.build fallback = .ok b) :
    ∃ given x, p.candidates (p.seed.getD fallback) = .ok given ∧ p.collect given = .ok x ∧
      x.arms = b.arms ∧ ∀ calls a, x.position? a = (b.run calls).indexOf? a := by
  obtain ⟨given, found, run⟩ := bind_ok_iff.mp run
  obtain ⟨accepted, run⟩ := check_bind_ok_iff.mp run
  obtain ⟨indexed, arms⟩ :=
    ArmIndex.agrees_empty.foldl (fun _ agrees => agrees.addNew p.policy.prior) given
  obtain ⟨agrees, all⟩ := indexed.foldl (fun _ agrees => agrees.addRestored) p.restored
  rw [arms] at all
  dsimp only at run
  split at run
  · exact absurd run (by simp)
  · obtain rfl := Except.ok.inj run
    refine ⟨given, _, found, ?_, all, fun calls a => ?_⟩
    · rw [collect, foldlM_checkArm, accepted]
      rfl
    · rw [Bandit.indexOf?_eq, (Bandit.kept_run _ calls).assignments, agrees a, all]
      rfl

end BanditPlan

end DecisionSpace
