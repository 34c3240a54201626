import DecisionSpace.Proofs.Search.Forced
import DecisionSpace.Proofs.Search.Repair
import DecisionSpace.Proofs.Search.Start

/-!
# Attempts

An attempt is a start and its repair.  A search returns what one of its attempts
has repaired, and what an attempt has repaired solves the problem.  An attempt
whose constraints have room for the forced variables is never stuck, and it
needs no more flips than the model has variables.
-/

set_option autoImplicit false

namespace DecisionSpace

open Fallible
open Sampling
open Search

variable {σ : Type} [Chance σ]

theorem Search.consistent_start {m : Model} {c : Context} (wellFormed : m.WellFormed)
    (valid : c.validate m = .ok ()) (s : σ) :
    (State.ofValues m (start m c s).1).Consistent m c := by
  obtain ⟨canonical, agrees⟩ := start_spec wellFormed valid s
  exact State.consistent_ofValues canonical agrees

namespace Solver

def attempt (solver : Solver) (c : Context) (s : σ) : Repair × σ :=
  let (values, s) := start solver.model c s
  repair solver.model c solver.settings.repairPolicy solver.stepLimit (.ofValues solver.model values) s

theorem search_succ (solver : Solver) (c : Context) (attempts : Nat) (s : σ) :
    search solver c (attempts + 1) s =
      let r := (solver.attempt c s).1
      let rest := search solver c attempts (solver.attempt c s).2
      match r.outcome with
      | .repaired =>
          (⟨Assignment.ofSlots solver.model (r.state.values.map some),
            { repairSteps := .ofNat r.state.flips }⟩, (solver.attempt c s).2)
      | .stuck k =>
          (⟨.error (.unsatisfiable (.stuck k)), { repairSteps := .ofNat r.state.flips }⟩,
            (solver.attempt c s).2)
      | .limitReached =>
          (⟨rest.1.result, rest.1.tally.add { restarts := 1, repairSteps := .ofNat r.state.flips }⟩,
            rest.2) :=
  rfl

theorem exists_attempt_of_search {solver : Solver} {c : Context} {attempts : Nat} {s : σ}
    {a : Assignment} (found : (search solver c attempts s).1.result = .ok a) :
    ∃ s' : σ, (solver.attempt c s').1.outcome = .repaired ∧
      Assignment.ofSlots solver.model ((solver.attempt c s').1.state.values.map some) = .ok a := by
  induction attempts generalizing s with
  | zero => simp [search] at found
  | succ attempts ih =>
      rw [search_succ] at found
      cases outcome : (solver.attempt c s).1.outcome with
      | repaired =>
          simp only [outcome] at found
          exact ⟨s, outcome, found⟩
      | stuck k => simp [outcome] at found
      | limitReached =>
          simp only [outcome] at found
          exact ih found

@[simp]
theorem counted_result {α : Type} (run : Run α) : run.counted.result = run.result := by
  unfold Run.counted
  split
  · rfl
  · rfl

theorem witness_of_checked {solver : Solver} {c : Context}
    (checked : checkContext solver.model c = .ok ()) (s : σ) :
    (solver.witness c s).1.result = (search solver c solver.settings.restarts s).1.result := by
  simp only [witness, checked, counted_result]

theorem checked_of_witness {solver : Solver} {c : Context} {s : σ} {a : Assignment}
    (found : (solver.witness c s).1.result = .ok a) : checkContext solver.model c = .ok () := by
  cases checked : checkContext solver.model c with
  | error e => simp [witness, checked] at found
  | ok u => rfl

section
variable {solver : Solver} {c : Context} (wellFormed : solver.model.WellFormed)
  (valid : c.validate solver.model = .ok ())

include wellFormed valid

theorem start_consistent (s : σ) :
    (State.ofValues solver.model (start solver.model c s).1).Consistent solver.model c :=
  consistent_start wellFormed valid s

theorem attempt_ends (s : σ) :
    Ends solver.model c solver.stepLimit (.ofValues solver.model (start solver.model c s).1)
      (solver.attempt c s).1 :=
  repair_ends wellFormed _ _ (start_consistent wellFormed valid s) _

theorem attempt_consistent (s : σ) :
    (solver.attempt c s).1.state.Consistent solver.model c :=
  (run_spec wellFormed (start_consistent wellFormed valid s)
    (attempt_ends wellFormed valid s).run).1

theorem ofSlots_attempt (s : σ) :
    Assignment.ofSlots solver.model ((solver.attempt c s).1.state.values.map some) =
      .ok (.ofValues solver.model (solver.attempt c s).1.state.values) :=
  (Assignment.ofSlots_ofValues wellFormed).mpr (attempt_consistent wellFormed valid s).canonical

theorem solves_of_repaired {s : σ} (repaired : (solver.attempt c s).1.outcome = .repaired) :
    solver.model.Solves c (solver.attempt c s).1.state.values := by
  have consistent := attempt_consistent wellFormed valid s
  have none := (attempt_ends wellFormed valid s).repaired repaired
  exact ⟨consistent.canonical, consistent.agrees, (State.violated_eq_nil_iff consistent).mp none⟩

end

/-! ## Attempts that have room -/

section
variable {m : Model} {c : Context}

/-- A violated constraint has more selected than forced variables, so one of
them can be switched off. -/
theorem candidates_ne_nil
    (room : ∀ con ∈ m.constraints, con.selectedCount (isForced m c) ≤ con.limit) {st : State}
    (consistent : st.Consistent m c) {k : Nat} (overfull : k ∈ st.violated m) :
    st.candidates m c k ≠ [] := by
  intro none
  obtain ⟨con, known, tooMany⟩ := (State.mem_violated consistent).mp overfull
  -- nothing can be switched off, so whatever is selected is forced
  have forced : ∀ id ∈ con.vars, m.isSelectedIn st.values id = true → isForced m c id = true := by
    intro id member on
    apply isForced_of_unswitchable consistent.agrees on
    intro unfixed
    by_contra switchable
    have candidate : id ∈ st.candidates m c k := by
      rw [State.candidates, known]
      exact List.mem_filter.mpr ⟨member, (State.isFlippable_iff consistent id).mpr
        ⟨on, unfixed, eq_true_of_ne_false switchable⟩⟩
    rw [none] at candidate
    exact absurd candidate (by simp)
  have bound : con.selectedCount (m.isSelectedIn st.values) ≤ con.selectedCount (isForced m c) :=
    List.countP_mono_left forced
  have allowed := room con (List.mem_of_getElem? known)
  omega

theorem not_stuck (wellFormed : m.WellFormed)
    (room : ∀ con ∈ m.constraints, con.selectedCount (isForced m c) ≤ con.limit) {st : State}
    (consistent : st.Consistent m c) (policy : RepairPolicy) (flips : Nat) (s : σ) (k : Nat) :
    (repair m c policy flips st s).1.outcome ≠ .stuck k := by
  intro stuck
  have ends := repair_ends wellFormed policy flips consistent s
  have after := (run_spec wellFormed consistent ends.run).1
  obtain ⟨overfull, none⟩ := ends.stuck k stuck
  exact candidates_ne_nil room after overfull none

theorem violated_of_remaining_zero {st : State} (wellFormed : m.WellFormed)
    (consistent : st.Consistent m c) (none : st.remaining m = 0) : st.violated m = [] := by
  apply (State.violated_eq_nil_iff consistent).mpr
  intro con member
  have off : ∀ id ∈ con.vars, ¬ m.isSelectedIn st.values id = true := by
    intro id named
    have inVars := wellFormed.inRange con member id named
    exact List.countP_eq_zero.mp none id (List.mem_range.mpr inVars)
  rw [Constraint.selectedCount, List.countP_eq_zero.mpr off]
  exact Nat.zero_le _

/-- As many flips as there are variables are enough: when all of them are made,
nothing is selected any more. -/
theorem not_limitReached (wellFormed : m.WellFormed) {values : List Value}
    (consistent : (State.ofValues m values).Consistent m c) (policy : RepairPolicy) {flips : Nat}
    (enough : m.vars.length ≤ flips) (s : σ) :
    (repair m c policy flips (.ofValues m values) s).1.outcome ≠ .limitReached := by
  intro limit
  have ends := repair_ends wellFormed policy flips consistent s
  obtain ⟨after, conserved⟩ := run_spec wellFormed consistent ends.run
  obtain ⟨violated, made⟩ := ends.limitReached limit
  -- all flips were made, and each took one of the variables that were selected at the start
  have most : (State.ofValues m values).remaining m ≤ m.vars.length := by
    have bound := List.countP_le_length (p := m.isSelectedIn values) (l := List.range m.vars.length)
    rwa [List.length_range] at bound
  apply violated
  apply violated_of_remaining_zero wellFormed after
  omega

end

/-! ## Results are made from slots -/

theorem ofSlots_of_witness {solver : Solver} {c : Context} {s : σ} {a : Assignment}
    (found : (solver.witness c s).1.result = .ok a) :
    ∃ slots, Assignment.ofSlots solver.model slots = .ok a := by
  have checked := checked_of_witness found
  rw [witness_of_checked checked] at found
  obtain ⟨s', _, made⟩ := exists_attempt_of_search found
  exact ⟨_, made⟩

theorem mem_of_mem_collect {limit : Nat} {found kept : List Assignment} {a : Assignment}
    (listed : a ∈ collect limit found kept) : a ∈ found ∨ a ∈ kept := by
  induction found generalizing kept with
  | nil => exact .inr listed
  | cons first rest ih =>
      rw [collect] at listed
      split at listed
      · exact .inr listed
      · obtain later | before := ih listed
        · exact .inl (List.mem_cons_of_mem _ later)
        · split at before
          · exact .inr before
          · obtain before | same := List.mem_append.mp before
            · exact .inr before
            · exact .inl (List.mem_singleton.mp same ▸ List.mem_cons_self)

theorem ofSlots_of_distinctWitnesses {solver : Solver} {c : Context} {limit : Nat} {seed : UInt64}
    {found : List Assignment} (run : (solver.distinctWitnesses c limit seed).result = .ok found) :
    ∀ a ∈ found, ∃ slots, Assignment.ofSlots solver.model slots = .ok a := by
  rw [distinctWitnesses] at run
  split at run
  · obtain rfl := Except.ok.inj run
    simp
  · split at run
    · exact absurd run (by simp)
    · dsimp only at run
      split at run
      · exact absurd run (by simp)
      · obtain rfl := Except.ok.inj run
        intro a member
        have listed := (mem_of_mem_collect member).resolve_right List.not_mem_nil
        obtain ⟨one, ran, result⟩ := List.mem_filterMap.mp listed
        obtain ⟨i, _, rfl⟩ := List.mem_map.mp ran
        exact ofSlots_of_witness (toOption_eq_some_iff.mp result)

theorem ofSlots_of_enumerate {solver : Solver} {c : Context} {limit : Nat} {found : List Assignment}
    (run : solver.enumerate c limit = .ok found) :
    ∀ a ∈ found, ∃ slots, Assignment.ofSlots solver.model slots = .ok a := by
  rw [enumerate] at run
  split at run
  · exact absurd run (by simp)
  · split at run
    · obtain rfl := Except.ok.inj run
      simp
    · obtain ⟨_, run⟩ := check_bind_ok_iff.mp run
      split at run
      · exact absurd run (by simp)
      · intro a member
        obtain ⟨values, _, made⟩ := exists_of_mapM_ok run member
        exact ⟨_, made⟩

end Solver

end DecisionSpace
