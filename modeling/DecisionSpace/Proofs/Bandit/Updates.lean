import DecisionSpace.Proofs.Bandit.Arms
import DecisionSpace.Proofs.Bandit.Statistics

/-!
# Updates of bandits

A reward is for one assignment.  A bandit first refuses numbers that it cannot work with
and then looks for the arm that the assignment is like; that arm alone learns from the
reward, and counts it as long as there is room.  Since no two arms are alike, there is no
other arm that could have been meant.
-/

set_option autoImplicit false

namespace DecisionSpace

structure Reward where
  assignment : Assignment
  value : Float
  weight : Float

def Reward.isValid (r : Reward) : Bool := r.value.isFinite && (r.weight.isFinite && 0 < r.weight)

theorem Reward.isValid_iff (r : Reward) :
    r.isValid ↔ r.value.isFinite ∧ r.weight.isFinite ∧ 0 < r.weight := by
  simp [isValid]

/-! ## Counts -/

theorem Policy.count_update (p : Policy) (s : Stats) {weight : Float} (positive : 0 < weight)
    (value : Float) : (p.update s value weight).count = s.nextCount := by
  obtain ⟨strategy, posterior⟩ := p
  cases posterior with
  | normal prior => exact s.count_accept positive value
  | binomial prior => exact s.count_accept positive (RunningStats.clampUnit value)

namespace Bandit

/-! ## Finding an arm -/

def Apart (b : Bandit) : Prop :=
  ∀ ⦃i j : Nat⦄ ⦃x y : Assignment⦄, b.assignments[i]? = some x → b.assignments[j]? = some y →
    x.alike y → i = j

theorem Apart.of_armed {b : Bandit} {m : Model} (armed : m.Armed b.assignments) : b.Apart := by
  intro i j x y stands otherStands alike
  have model := (armed.settled x (List.mem_of_getElem? stands)).model
  have otherModel := (armed.settled y (List.mem_of_getElem? otherStands)).model
  rw [Assignment.alike_iff_eq (model.trans otherModel.symm)] at alike
  obtain ⟨inRange, _⟩ := List.getElem?_eq_some_iff.mp stands
  exact (List.getElem?_inj inRange armed.distinct).mp (by rw [stands, otherStands, alike])

theorem Apart.of_assignments {b b' : Bandit} (apart : b.Apart)
    (same : b'.assignments = b.assignments) : b'.Apart := by
  unfold Apart
  rwa [same]

theorem getElem?_assignments {b : Bandit} {i : Nat} {arm : Arm} (stands : b.arms[i]? = some arm) :
    b.assignments[i]? = some arm.assignment := by
  rw [assignments, List.getElem?_map, stands]
  rfl

theorem indexOf?_eq (b : Bandit) (a : Assignment) :
    b.indexOf? a = b.assignments.findIdx? fun x => x.alike a := by
  rw [assignments, List.findIdx?_map]
  rfl

theorem indexOf?_eq_none_iff {b : Bandit} {a : Assignment} :
    b.indexOf? a = none ↔ ∀ x ∈ b.assignments, ¬ x.alike a := by
  simp only [indexOf?_eq, List.findIdx?_eq_none_iff, Bool.not_eq_true]

theorem indexOf?_eq_some_iff {b : Bandit} (apart : b.Apart) {a : Assignment} {i : Nat} :
    b.indexOf? a = some i ↔ ∃ x, b.assignments[i]? = some x ∧ x.alike a := by
  constructor
  · intro found
    rw [indexOf?_eq] at found
    obtain ⟨inRange, alike, _⟩ := List.findIdx?_eq_some_iff_getElem.mp found
    exact ⟨_, List.getElem?_eq_getElem inRange, alike⟩
  · intro some
    obtain ⟨x, stands, alike⟩ := some
    cases found : b.indexOf? a with
    | none => exact absurd alike (indexOf?_eq_none_iff.mp found x (List.mem_of_getElem? stands))
    | some j =>
        rw [indexOf?_eq] at found
        obtain ⟨inRange, otherAlike, _⟩ := List.findIdx?_eq_some_iff_getElem.mp found
        rw [Assignment.alike_iff] at alike otherAlike
        have both : b.assignments[j].alike x := by
          rw [Assignment.alike_iff]
          exact ⟨otherAlike.1.trans alike.1.symm, otherAlike.2.trans alike.2.symm⟩
        rw [apart (List.getElem?_eq_getElem inRange) stands both]

theorem modify_indexOf? {b : Bandit} (apart : b.Apart) {a : Assignment} {i : Nat}
    (found : b.indexOf? a = some i) (f : Arm → Arm) :
    b.arms.modify i f = b.arms.map fun arm => if arm.assignment.alike a then f arm else arm := by
  refine List.ext_getElem (by simp) ?_
  intro j inLeft inRight
  rw [List.length_modify] at inLeft
  rw [List.getElem_modify, List.getElem_map]
  have stands := getElem?_assignments (List.getElem?_eq_getElem inLeft)
  have here : i = j ↔ b.arms[j].assignment.alike a := by
    have spec := indexOf?_eq_some_iff apart (a := a) (i := j)
    rw [found, Option.some.injEq, stands] at spec
    simpa using spec
  by_cases same : i = j
  · rw [if_pos same, if_pos (here.mp same)]
  · rw [if_neg same, if_neg (fun alike => same (here.mpr alike))]

def target? (b : Bandit) (a : Assignment) : Option Nat :=
  if a.model.serial = b.model.serial then b.indexOf? a else none

theorem target?_eq_some_iff {b : Bandit} {a : Assignment} {i : Nat} :
    b.target? a = some i ↔ a.model.serial = b.model.serial ∧ b.indexOf? a = some i := by
  rw [target?]
  split
  · rename_i own
    simp [own]
  · rename_i foreign
    simp [foreign]

theorem target?_eq_none_iff {b : Bandit} {a : Assignment} :
    b.target? a = none ↔ (a.model.serial = b.model.serial → b.indexOf? a = none) := by
  rw [target?]
  split
  · rename_i own
    simp [own]
  · rename_i foreign
    simp [foreign]

theorem exists_arm_of_target {b : Bandit} {a : Assignment} {i : Nat}
    (found : b.target? a = some i) : ∃ arm, b.arms[i]? = some arm := by
  obtain ⟨_, position⟩ := target?_eq_some_iff.mp found
  obtain ⟨inRange, _⟩ := List.findIdx?_eq_some_iff_getElem.mp position
  exact ⟨_, List.getElem?_eq_getElem inRange⟩

/-! ## What an update answers -/

/-- The answers to a reward.  An arm whose count is full still learns from it, although the
update breaks down. -/
inductive Updated (b : Bandit) (r : Reward) : Except Failure Unit × Bandit → Prop where
  | refused (invalid : r.isValid = false) (name : String) (cause : Refusal) :
      Updated b r (.error (.invalidValue name cause), b)
  | unknown (valid : r.isValid) (missing : b.target? r.assignment = none) :
      Updated b r (.error .unknownArm, { b with counters := b.counters.addUnknownArm })
  | full (valid : r.isValid) {i : Nat} {arm : Arm} (found : b.target? r.assignment = some i)
      (stands : b.arms[i]? = some arm) (full : arm.stats.isFull) :
      Updated b r (.error (.breakdown .countOverflow),
        { b with arms := b.arms.modify i (b.rewarded · r.value r.weight) })
  | accepted (valid : r.isValid) {i : Nat} {arm : Arm} (found : b.target? r.assignment = some i)
      (stands : b.arms[i]? = some arm) (room : arm.stats.isFull = false) :
      Updated b r (.ok (),
        { b with
          arms := b.arms.modify i (b.rewarded · r.value r.weight)
          counters := b.counters.addUpdate r.value })

theorem updated (b : Bandit) (r : Reward) :
    b.Updated r (b.updateWeighted r.assignment r.value r.weight) := by
  rw [updateWeighted]
  split
  · rename_i infinite
    refine .refused ?_ _ _
    simp only [Bool.not_eq_eq_eq_not, Bool.not_true] at infinite
    rw [Reward.isValid, infinite, Bool.false_and]
  · rename_i finite
    split
    · rename_i bad
      refine .refused ?_ _ _
      simp only [Bool.not_eq_eq_eq_not, Bool.not_true] at bad
      rw [Reward.isValid, bad, Bool.and_false]
    · rename_i good
      have valid : r.isValid := by
        simpa [Reward.isValid] using And.intro finite good
      split
      · rename_i missing
        exact .unknown valid missing
      · rename_i i found
        obtain ⟨arm, stands⟩ := exists_arm_of_target found
        have positive := ((Reward.isValid_iff r).mp valid).2.2
        dsimp only
        rw [stands, Option.any_some, RunningStats.overflows_of_pos _ positive]
        split
        · rename_i full
          exact .full valid found stands full
        · rename_i room
          exact .accepted valid found stands (by simpa using room)

theorem updateWeighted_ok_iff (b : Bandit) (r : Reward) :
    (b.updateWeighted r.assignment r.value r.weight).1 = .ok () ↔
      r.isValid ∧ ∃ i arm, b.target? r.assignment = some i ∧ b.arms[i]? = some arm ∧
        arm.stats.isFull = false := by
  have answer := b.updated r
  generalize b.updateWeighted r.assignment r.value r.weight = result at answer
  cases answer with
  | refused invalid name cause => simp [invalid]
  | unknown valid missing => simp [missing]
  | full valid found stands full => simp [found, stands, full]
  | accepted valid found stands room =>
      simp only [true_iff]
      exact ⟨valid, _, _, found, stands, room⟩

end Bandit

end DecisionSpace
