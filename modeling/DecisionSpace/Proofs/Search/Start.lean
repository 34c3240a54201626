import DecisionSpace.Proofs.Solution
import DecisionSpace.Search.Start
import Mathlib.Data.Bool.Count

/-!
# Where an attempt starts

Whatever the source, the values that an attempt starts from are canonical, and
they hold the facts of a valid context.  The one step that needs an argument is
a multi-select: switching random elements on or off until the bounds are kept
never runs out of elements to switch.
-/

set_option autoImplicit false

namespace DecisionSpace.Search

open Sampling

variable {σ : Type}

theorem draws_length {α : Type} (draw : σ → α × σ) (n : Nat) (s : σ) :
    (draws draw n s).1.length = n := by
  induction n generalizing s with
  | zero => rfl
  | succ n ih => simp only [draws, List.length_cons, ih]

/-! ## Switching flags -/

theorem exists_nthPosition? (flag : Bool) (n : Nat) (flags : List Bool)
    (few : n < flags.count flag) :
    ∃ i, nthPosition? flag n flags = some i ∧ flags[i]? = some flag := by
  induction flags generalizing n with
  | nil => simp at few
  | cons f rest ih =>
      by_cases same : f = flag
      · cases n with
        | zero => exact ⟨0, by simp [nthPosition?, same], by simp [same]⟩
        | succ n =>
            have fewer : n < rest.count flag := by
              rw [same, List.count_cons_self] at few
              omega
            obtain ⟨i, found, held⟩ := ih n fewer
            exact ⟨i + 1, by simp [nthPosition?, same, found], by simpa using held⟩
      · have fewer : n < rest.count flag := by
          rwa [List.count_cons_of_ne same] at few
        obtain ⟨i, found, held⟩ := ih n fewer
        exact ⟨i + 1, by simp [nthPosition?, same, found], by simpa using held⟩

theorem count_set_not {flag : Bool} {flags : List Bool} {i : Nat}
    (held : flags[i]? = some flag) : (flags.set i !flag).count flag + 1 = flags.count flag := by
  obtain ⟨inFlags, same⟩ := List.getElem?_eq_some_iff.mp held
  have positive : 0 < flags.count flag :=
    List.count_pos_iff.mpr (List.mem_of_getElem? held)
  rw [List.count_set inFlags, same]
  simp
  omega

section
variable [Chance σ]

theorem turn_length (flag : Bool) (k : Nat) (flags : List Bool) (s : σ) :
    (turn flag k flags s).1.length = flags.length := by
  induction k generalizing flags s with
  | zero => rfl
  | succ k ih =>
      simp only [turn]
      rw [ih, List.length_set]

theorem turn_count (flag : Bool) (k : Nat) (flags : List Bool) (s : σ)
    (enough : k ≤ flags.count flag) :
    (turn flag k flags s).1.count flag + k = flags.count flag := by
  induction k generalizing flags s with
  | zero => rfl
  | succ k ih =>
      simp only [turn]
      have drawn := Chance.below_lt (flags.count flag) s (by omega)
      obtain ⟨i, found, held⟩ := exists_nthPosition? flag _ flags drawn
      rw [found, Option.getD_some]
      have one := count_set_not held
      have rest := ih (flags.set i !flag) (Chance.below (flags.count flag) s).2 (by omega)
      omega

theorem boundedFlags_spec {size min max : Nat} (ordered : min ≤ max) (fits : max ≤ size) (s : σ) :
    (boundedFlags size min max s).1.length = size ∧
      min ≤ (boundedFlags size min max s).1.count true ∧
      (boundedFlags size min max s).1.count true ≤ max := by
  have tossed : (coins size s).1.length = size := draws_length Chance.coin size s
  simp only [boundedFlags]
  -- from here on only the number of heads matters, not how they were tossed
  generalize (coins size s).1 = flags at tossed
  generalize (coins size s).2 = s
  have split := List.count_false_add_count_true flags
  have raised := turn_count false (min - flags.count true) flags s (by omega)
  have raisedLength := turn_length false (min - flags.count true) flags s
  generalize turn false (min - flags.count true) flags s = middle at raised raisedLength
  have splitMiddle := List.count_false_add_count_true middle.1
  have lowered := turn_count true (middle.1.count true - max) middle.1 middle.2 (by omega)
  refine ⟨?_, ?_, ?_⟩
  · rw [turn_length, raisedLength, tossed]
  · omega
  · omega

end

/-! ## Random values -/

theorem chosen_sublist (elements : List Value) (flags : List Bool) :
    (chosen elements flags).Sublist elements := by
  induction elements generalizing flags with
  | nil => simp [chosen]
  | cons v rest ih =>
      cases flags with
      | nil => simp [chosen]
      | cons flag flags =>
          cases flag with
          | true => exact (ih flags).cons_cons v
          | false => exact (ih flags).cons v

theorem chosen_length (elements : List Value) (flags : List Bool)
    (size : flags.length = elements.length) :
    (chosen elements flags).length = flags.count true := by
  induction elements generalizing flags with
  | nil =>
      rw [List.length_nil, List.length_eq_zero_iff] at size
      simp [chosen, size]
  | cons v rest ih =>
      cases flags with
      | nil => simp at size
      | cons flag flags =>
          have tail := ih flags (by simpa using size)
          cases flag with
          | true =>
              rw [List.count_cons_self, ← tail]
              rfl
          | false =>
              rw [List.count_cons_of_ne (by simp), ← tail]
              rfl

section
variable [Chance σ]

theorem canonical_randomValue {d : Domain} (sound : d.Sound) (s : σ) :
    d.Canonical (randomValue d s).1 := by
  cases d with
  | boolean => exact .boolean _
  | constant value => exact .constant value
  | nominal elements =>
      have positive : 0 < elements.length := List.length_pos_iff.mpr sound.nonempty
      have drawn := Chance.below_lt elements.length s positive
      apply Domain.Canonical.nominal
      change (elements[(Chance.below elements.length s).1]?.getD default) ∈ elements
      rw [List.getElem?_eq_getElem drawn, Option.getD_some]
      exact List.getElem_mem drawn
  | multiSelect elements min max =>
      obtain ⟨length, atLeast, atMost⟩ := boundedFlags_spec sound.2.1 sound.2.2 s
      have size := chosen_length elements _ length
      change Domain.Canonical (.multiSelect elements min max)
        (.selection (chosen elements (boundedFlags elements.length min max s).1))
      apply Domain.Canonical.multiSelect (chosen_sublist _ _)
      · rw [size]
        exact atLeast
      · rw [size]
        exact atMost

/-! ## Starts -/

theorem startFrom_spec (c : Context) (id : Nat) (vars : List Variable) (s : σ)
    (sound : ∀ v ∈ vars, v.domain.Sound) (facts : c.CanonicalFrom id vars) :
    List.Forall₂ (fun v x => v.domain.Canonical x) vars (startFrom c id vars s).1 ∧
      c.AgreesFrom id (startFrom c id vars s).1 := by
  induction vars generalizing id s with
  | nil => exact ⟨.nil, c.agreesFrom_nil id⟩
  | cons v rest ih =>
      obtain ⟨own, others⟩ := List.forall_mem_cons.mp sound
      obtain ⟨head, tail⟩ := Context.canonicalFrom_cons.mp facts
      simp only [startFrom]
      cases fixed : c.get? id with
      | some x =>
          obtain ⟨canonical, agrees⟩ := ih (id + 1) s others tail
          refine ⟨.cons (head x fixed) canonical, Context.agreesFrom_cons.mpr ⟨fun y same => ?_, agrees⟩⟩
          exact Option.some.inj (fixed.symm.trans same)
      | none =>
          obtain ⟨canonical, agrees⟩ := ih (id + 1) (randomValue v.domain s).2 others tail
          refine ⟨.cons (canonical_randomValue own s) canonical,
            Context.agreesFrom_cons.mpr ⟨fun y same => ?_, agrees⟩⟩
          rw [fixed] at same
          exact absurd same (by simp)

/-- An attempt starts from canonical values that hold the facts of a valid
context. -/
theorem start_spec {m : Model} (wellFormed : m.WellFormed) {c : Context}
    (valid : c.validate m = .ok ()) (s : σ) :
    m.Canonical (start m c s).1 ∧ c.Agrees (start m c s).1 := by
  obtain ⟨canonical, agrees⟩ := startFrom_spec c 0 m.vars s wellFormed.sound
    (Context.canonicalFrom_zero wellFormed valid)
  have size : (start m c s).1.length = m.vars.length := Model.Canonical.length_eq canonical
  exact ⟨canonical, (Context.agreesFrom_zero_iff valid size).mp agrees⟩

end

end DecisionSpace.Search
