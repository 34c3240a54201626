import DecisionSpace.Examples
import DecisionSpace.Proofs.Search.Attempt

/-!
# What a search can reach

A source may answer a coin with either side and a number with anything below its
bound.  Given the right answers, a random value is any canonical value of its
domain and a start is any canonical vector that holds the facts of the context.
A start that already solves the problem is left as it is, so every solution is
the witness of some sequence of answers.

The answers are dictated as a list.  A dictation that does not fit the questions
asked breaks off for good; one that is still being read afterwards has answered
all of them.
-/

set_option autoImplicit false

namespace DecisionSpace

namespace Sampling

inductive Answer where
  | coin (b : Bool)
  | number (i : Nat)
  deriving DecidableEq, Repr

/-- A source whose answers are dictated, as long as they fit the questions. -/
inductive Dictation where
  | reading (answers : List Answer)
  | broken
  deriving DecidableEq, Repr

namespace Dictation

def coin : Dictation → Bool × Dictation
  | .reading (.coin b :: rest) => (b, .reading rest)
  | _ => (false, .broken)

def below (n : Nat) : Dictation → Nat × Dictation
  | .reading (.number i :: rest) => if i < n then (i, .reading rest) else (0, .broken)
  | _ => (0, .broken)

theorem below_lt (n : Nat) (s : Dictation) (positive : 0 < n) : (below n s).1 < n := by
  unfold below
  split
  · split
    · assumption
    · exact positive
  · exact positive

instance : Chance Dictation := ⟨coin, below, below_lt⟩

/-- Whatever is to be read afterwards, there are answers that make a draw give `x`. -/
def CanGive {α : Type} (draw : Dictation → α × Dictation) (x : α) : Prop :=
  ∀ rest, ∃ answers, draw (.reading answers) = (x, .reading rest)

theorem canGive_coin (b : Bool) : CanGive Chance.coin b :=
  fun rest => ⟨.coin b :: rest, rfl⟩

theorem canGive_below {n i : Nat} (inside : i < n) : CanGive (Chance.below n) i :=
  fun rest => ⟨.number i :: rest, if_pos inside⟩

theorem canGive_pure {α : Type} (x : α) : CanGive (fun s => (x, s)) x :=
  fun rest => ⟨rest, rfl⟩

theorem CanGive.map {α β : Type} {draw : Dictation → α × Dictation} {x : α} (f : α → β)
    (given : CanGive draw x) : CanGive (fun s => (f (draw s).1, (draw s).2)) (f x) := by
  intro rest
  obtain ⟨answers, run⟩ := given rest
  exact ⟨answers, by simp only [run]⟩

theorem canGive_draws {α : Type} {draw : Dictation → α × Dictation} {xs : List α}
    (each : ∀ x ∈ xs, CanGive draw x) : CanGive (draws draw xs.length) xs := by
  induction xs with
  | nil => exact canGive_pure []
  | cons x xs ih =>
      obtain ⟨head, tail⟩ := List.forall_mem_cons.mp each
      intro rest
      obtain ⟨middle, others⟩ := ih tail rest
      obtain ⟨answers, first⟩ := head middle
      exact ⟨answers, by simp only [List.length_cons, draws, first, others]⟩

end Dictation

end Sampling

namespace Search

open Sampling Dictation

/-! ## Random values -/

def flagsOf (items elements : List Value) : List Bool := elements.map (· ∈ items)

theorem chosen_flagsOf (items elements : List Value) :
    chosen elements (flagsOf items elements) = elements.filter (· ∈ items) := by
  induction elements with
  | nil => rfl
  | cons v rest ih =>
      by_cases member : v ∈ items
      · rw [List.filter_cons_of_pos (by simpa using member), ← ih]
        simp [chosen, flagsOf, member]
      · rw [List.filter_cons_of_neg (by simpa using member), ← ih]
        simp [chosen, flagsOf, member]

theorem canGive_boundedFlags {flags : List Bool} {min max : Nat}
    (atLeast : min ≤ flags.count true) (atMost : flags.count true ≤ max) :
    CanGive (boundedFlags flags.length min max) flags := by
  intro rest
  have coinsGiven : CanGive (coins flags.length) flags := canGive_draws fun b _ => canGive_coin b
  obtain ⟨answers, tossed⟩ := coinsGiven rest
  refine ⟨answers, ?_⟩
  simp only [boundedFlags, tossed, Nat.sub_eq_zero_of_le atLeast, turn,
    Nat.sub_eq_zero_of_le atMost]

theorem canGive_randomValue {d : Domain} (sound : d.Sound) {x : Value} (canonical : d.Canonical x) :
    CanGive (randomValue d) x := by
  cases canonical with
  | boolean b => exact (canGive_coin b).map Value.bool
  | constant => exact canGive_pure x
  | @nominal elements value member =>
      obtain ⟨i, inside, rfl⟩ := List.mem_iff_getElem.mp member
      have drawn := (canGive_below inside).map fun i => elements[i]?.getD default
      rwa [List.getElem?_eq_getElem inside, Option.getD_some] at drawn
  | @multiSelect elements items min max sub atLeast atMost =>
      have chooses : chosen elements (flagsOf items elements) = items := by
        rw [chosen_flagsOf, Domain.filter_mem_eq_of_sublist sub sound.1.nodup]
      have size : (flagsOf items elements).length = elements.length := by simp [flagsOf]
      have count := chosen_length elements _ size
      rw [chooses] at count
      have drawn := canGive_boundedFlags (count ▸ atLeast) (count ▸ atMost)
      rw [size] at drawn
      have given := drawn.map fun flags => Value.selection (chosen elements flags)
      rwa [chooses] at given

/-! ## Starts -/

theorem canGive_startFrom {c : Context} {id : Nat} {vars : List Variable} {values : List Value}
    (sound : ∀ v ∈ vars, v.domain.Sound)
    (canonical : List.Forall₂ (fun v x => v.domain.Canonical x) vars values)
    (agrees : c.AgreesFrom id values) : CanGive (startFrom c id vars) values := by
  induction canonical generalizing id with
  | nil => exact canGive_pure []
  | @cons v x vars values own _ ih =>
      obtain ⟨ownSound, othersSound⟩ := List.forall_mem_cons.mp sound
      obtain ⟨held, agreesRest⟩ := Context.agreesFrom_cons.mp agrees
      intro rest
      obtain ⟨middle, others⟩ := ih othersSound agreesRest rest
      cases fixed : c.get? id with
      | some y =>
          -- a fixed variable asks nothing
          obtain rfl := held y fixed
          exact ⟨middle, by simp only [startFrom, fixed, others]⟩
      | none =>
          obtain ⟨answers, first⟩ := canGive_randomValue ownSound own middle
          exact ⟨answers, by simp only [startFrom, fixed, first, others]⟩

theorem canGive_start {m : Model} (wellFormed : m.WellFormed) {c : Context}
    (valid : c.validate m = .ok ()) {values : List Value} (canonical : m.Canonical values)
    (agrees : c.Agrees values) : CanGive (start m c) values :=
  canGive_startFrom wellFormed.sound canonical
    ((Context.agreesFrom_zero_iff valid canonical.length_eq).mpr agrees)

theorem repair_of_solves {σ : Type} [Chance σ] {m : Model} {c : Context} {values : List Value}
    (solves : m.Solves c values) (policy : RepairPolicy) (flips : Nat) (s : σ) :
    repair m c policy flips (.ofValues m values) s = (⟨.repaired, .ofValues m values⟩, s) := by
  have consistent := State.consistent_ofValues solves.canonical solves.agrees
  have satisfied := (State.violated_eq_nil_iff consistent).mpr solves.feasible
  exact repair_of_violated_nil satisfied c policy flips s

end Search

namespace Solver

open Sampling Dictation
open Search

theorem canGive_witness {solver : Solver} {c : Context} (wellFormed : solver.model.WellFormed)
    (checked : checkContext solver.model c = .ok ()) (attempted : 1 ≤ solver.settings.restarts)
    {values : List Value} (solves : solver.model.Solves c values) :
    CanGive (solver.witness c) ⟨.ok (.ofValues solver.model values), { witnesses := 1 }⟩ := by
  obtain ⟨attempts, restarts⟩ := Nat.exists_eq_add_of_le' attempted
  have valid := (checkContext_ok_iff.mp checked).1
  intro rest
  obtain ⟨answers, started⟩ := canGive_start wellFormed valid solves.canonical solves.agrees rest
  have attempt : solver.attempt c (reading answers) =
      (⟨.repaired, .ofValues solver.model values⟩, reading rest) := by
    simp only [Solver.attempt, started, repair_of_solves solves]
  have made := (Assignment.ofSlots_ofValues wellFormed).mpr solves.canonical
  refine ⟨answers, ?_⟩
  simp only [witness, checked, restarts, search_succ, attempt]
  rw [show (State.ofValues solver.model values).values = values from rfl, made]
  rfl

/-- Every complete and feasible assignment that agrees with the context is the
witness of some sequence of answers.  The answers fit the questions, the first
attempt asks all of them, and it makes no flip. -/
theorem exists_answers_of_feasible {serial : Nat} {d : Declaration} {solver : Solver}
    (built : d.build serial = .ok solver.model) {c : Context}
    (checked : checkContext solver.model c = .ok ()) (attempted : 1 ≤ solver.settings.restarts)
    {slots : List (Option Value)} {a : Assignment}
    (made : Assignment.ofSlots solver.model slots = .ok a) (complete : a.isComplete = true)
    (agrees : a.satisfies c = true) (feasible : a.isFeasible = true) (rest : List Answer) :
    ∃ answers, solver.witness c (Dictation.reading answers) =
      (⟨.ok a, { witnesses := 1, failures := 0, restarts := 0, repairSteps := 0 }⟩,
        Dictation.reading rest) := by
  have wellFormed := Declaration.build_wellFormed built
  obtain ⟨values, solves, rfl⟩ := Assignment.exists_solves wellFormed made complete agrees feasible
  exact canGive_witness wellFormed checked attempted solves rest

theorem exists_answers_of_feasible_overlapping :
    Examples.overlapping.build 0 = .ok Examples.overlappingModel ∧
      checkContext Examples.overlappingModel (.ofFact ⟨1, .bool true⟩) = .ok () ∧
      ∃ a : Assignment,
        a.slots = [some (.bool false), some (.bool true),
          some (.selection [.text "x", .text "z"]), some (.int 1)] ∧
        a.isComplete = true ∧ a.satisfies (.ofFact ⟨1, .bool true⟩) = true ∧
        a.isFeasible = true ∧
        ∃ answers, (⟨Examples.overlappingModel, { restarts := 1, maxRepairSteps := some 0 }⟩ :
            Solver).witness (.ofFact ⟨1, .bool true⟩) (Dictation.reading answers) =
          (⟨.ok a, { witnesses := 1, failures := 0, restarts := 0, repairSteps := 0 }⟩,
            Dictation.reading []) := by
  have built : Examples.overlapping.build 0 = .ok (⟨Examples.overlappingModel,
    { restarts := 1, maxRepairSteps := some 0 }⟩ : Solver).model := rfl
  have made : Assignment.ofSlots Examples.overlappingModel
      [some (.bool false), some (.bool true), some (.selection [.text "z", .text "x"]), none] =
      .ok (.ofValues Examples.overlappingModel [.bool false, .bool true,
        .selection [.text "x", .text "z"], .int 1]) := rfl
  exact ⟨built, rfl, _, rfl, rfl, rfl, rfl,
    exists_answers_of_feasible built rfl (by decide) made rfl rfl rfl []⟩

end Solver

end DecisionSpace
