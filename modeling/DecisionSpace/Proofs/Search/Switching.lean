import DecisionSpace.Examples
import DecisionSpace.Proofs.Search.Attempt
import DecisionSpace.Sampling.Generator
import Mathlib.Algebra.Order.BigOperators.Group.List

/-!
# What a repair switches off

A repair is followed variable by variable.  It switches off selected variables of violated
constraints, each once, and leaves all others alone.  What the constraints exceed their limits
by bounds how many it takes: a step lowers no excess by more than one, and it lowers that of
the constraint that it is made for.
-/

set_option autoImplicit false

namespace DecisionSpace

def Model.excess (m : Model) (values : List Value) (con : Constraint) : Nat :=
  con.violation (m.isSelectedIn values)

def Model.totalExcess (m : Model) (values : List Value) : Nat :=
  (m.constraints.map (m.excess values)).sum

theorem Model.excess_eq_zero_iff (m : Model) (values : List Value) (con : Constraint) :
    m.excess values con = 0 ↔ con.selectedCount (m.isSelectedIn values) ≤ con.limit :=
  Nat.sub_eq_zero_iff_le

theorem Model.excess_pos_iff (m : Model) (values : List Value) (con : Constraint) :
    0 < m.excess values con ↔ con.limit < con.selectedCount (m.isSelectedIn values) :=
  Nat.sub_pos_iff_lt

namespace Search

open Sampling

/-! ## Runs under a policy -/

inductive Switches (m : Model) (c : Context) (policy : RepairPolicy) :
    State → List Nat → State → Prop where
  | done (st : State) : Switches m c policy st [] st
  | switchOff {st st' : State} {k id : Nat} {ids : List Nat} (overfull : k ∈ st.violated m)
      (picks : policy.Picks (st.candidates m c k) id)
      (rest : Switches m c policy (st.flip m id) ids st') :
      Switches m c policy st (id :: ids) st'

theorem Repairs.exists_switches {m : Model} {c : Context} {policy : RepairPolicy} {flips : Nat}
    {st : State} {r : Repair} (repairs : Repairs m c policy flips st r) :
    ∃ ids, Switches m c policy st ids r.state := by
  induction repairs with
  | repaired _ => exact ⟨[], .done _⟩
  | limitReached _ => exact ⟨[], .done _⟩
  | stuck _ _ => exact ⟨[], .done _⟩
  | flip overfull picks _ ih =>
      obtain ⟨ids, rest⟩ := ih
      exact ⟨_ :: ids, .switchOff overfull picks rest⟩

theorem exists_switches {σ : Type} [Chance σ] (m : Model) (c : Context) (policy : RepairPolicy)
    (flips : Nat) (st : State) (s : σ) :
    ∃ ids, Switches m c policy st ids (repair m c policy flips st s).1.state :=
  (repairs_repair m c policy flips st s).exists_switches

section
variable {m : Model} {c : Context} {policy : RepairPolicy} {st st' : State} {ids : List Nat}

/-! ## One step -/

namespace State

section
variable {id : Nat} (consistent : st.Consistent m c) (flippable : st.isFlippable m c id = true)

include consistent flippable

theorem values_flip :
    ∃ off, (m.variableAt id).domain.unselected? = some off ∧
      (st.flip m id).values = st.values.set id off := by
  obtain ⟨_, _, switchable⟩ := (isFlippable_iff consistent id).mp flippable
  obtain ⟨off, unselected⟩ := Option.isSome_iff_exists.mp switchable
  refine ⟨off, unselected, ?_⟩
  unfold flip
  rw [unselected]

theorem getElem?_flip (other : Nat) :
    (st.flip m id).values[other]? =
      if other = id then (m.variableAt id).domain.unselected? else st.values[other]? := by
  obtain ⟨off, unselected, values⟩ := values_flip consistent flippable
  obtain ⟨on, _, _⟩ := (isFlippable_iff consistent id).mp flippable
  obtain ⟨_, _, _, held, _⟩ := Model.getElem?_of_isSelectedIn on
  obtain ⟨inValues, _⟩ := List.getElem?_eq_some_iff.mp held
  rw [values, unselected]
  split
  · rename_i same
    rw [same, List.getElem?_set_self inValues]
  · rename_i different
    rw [List.getElem?_set_ne (Ne.symm different)]

theorem isSelectedIn_flip (other : Nat) :
    m.isSelectedIn (st.flip m id).values other =
      (other != id && m.isSelectedIn st.values other) := by
  obtain ⟨off, unselected, values⟩ := values_flip consistent flippable
  obtain ⟨on, _, _⟩ := (isFlippable_iff consistent id).mp flippable
  obtain ⟨v, _, known, held, _⟩ := Model.getElem?_of_isSelectedIn on
  rw [Model.variableAt_of_getElem? known] at unselected
  rw [values]
  by_cases same : other = id
  · subst same
    rw [Model.isSelectedIn_set known held, (Domain.canonical_of_unselected? unselected).2]
    simp
  · rw [Model.isSelectedIn_set_of_ne same]
    simp [same]

theorem isFlippable_flip (wellFormed : m.WellFormed) {other : Nat}
    (later : (st.flip m id).isFlippable m c other = true) :
    other ≠ id ∧ st.isFlippable m c other = true := by
  have after := (flip_spec wellFormed consistent flippable).1
  obtain ⟨on, unfixed, switchable⟩ := (isFlippable_iff after other).mp later
  rw [isSelectedIn_flip consistent flippable, Bool.and_eq_true, bne_iff_ne] at on
  exact ⟨on.1, (isFlippable_iff consistent other).mpr ⟨on.2, unfixed, switchable⟩⟩

theorem excess_flip (wellFormed : m.WellFormed) {con : Constraint} (member : con ∈ m.constraints) :
    m.excess st.values con =
      m.excess (st.flip m id).values con +
        if id ∈ con.vars ∧ 0 < m.excess st.values con then 1 else 0 := by
  obtain ⟨on, _, _⟩ := (isFlippable_iff consistent id).mp flippable
  have counts : con.selectedCount (m.isSelectedIn st.values) =
      con.selectedCount (m.isSelectedIn (st.flip m id).values) +
        if id ∈ con.vars then 1 else 0 := by
    apply countP_switch (wellFormed.nodup con member) on
    · simp [isSelectedIn_flip consistent flippable]
    · intro other different
      simp [isSelectedIn_flip consistent flippable, different]
  simp only [Model.excess, Constraint.violation]
  by_cases named : id ∈ con.vars
  · simp only [named, if_true, true_and] at counts ⊢
    split
    · omega
    · omega
  · simp only [named, if_false, false_and] at counts ⊢
    omega

theorem totalExcess_flip_lt (wellFormed : m.WellFormed) {k : Nat} (overfull : k ∈ st.violated m)
    (candidate : id ∈ st.candidates m c k) :
    m.totalExcess (st.flip m id).values < m.totalExcess st.values := by
  obtain ⟨con, known, tooMany⟩ := (mem_violated consistent).mp overfull
  have named : id ∈ con.vars := by
    rw [candidates, known] at candidate
    exact (List.mem_filter.mp candidate).1
  apply List.sum_lt_sum
  · intro other member
    rw [excess_flip consistent flippable wellFormed member]
    exact Nat.le_add_right _ _
  · have member := List.mem_of_getElem? known
    refine ⟨con, member, ?_⟩
    rw [excess_flip consistent flippable wellFormed member,
      if_pos ⟨named, (m.excess_pos_iff st.values con).mpr tooMany⟩]
    exact Nat.lt_succ_self _

end

end State

/-! ## Runs -/

structure Switched (m : Model) (c : Context) (st : State) (ids : List Nat) (st' : State) :
    Prop where
  flips : st'.flips = st.flips + ids.length
  nodup : ids.Nodup
  flippable : ∀ id ∈ ids, st.isFlippable m c id = true
  overfull : ∀ id ∈ ids, ∃ con ∈ m.constraints, id ∈ con.vars ∧ 0 < m.excess st.values con
  values : ∀ id, st'.values[id]? =
    if id ∈ ids then (m.variableAt id).domain.unselected? else st.values[id]?

theorem Switches.switched (wellFormed : m.WellFormed) (consistent : st.Consistent m c)
    (switches : Switches m c policy st ids st') : Switched m c st ids st' := by
  induction switches with
  | done st => exact ⟨rfl, List.nodup_nil, by simp, by simp, by simp⟩
  | @switchOff st st' k id ids overfull picks rest ih =>
      have candidate := picks.mem
      obtain ⟨named, flippable⟩ := List.mem_filter.mp candidate
      obtain ⟨after, counted, _⟩ := State.flip_spec wellFormed consistent flippable
      have later := ih after
      -- what is switched off later could be switched off now, and is another variable
      have earlier : ∀ other ∈ ids, other ≠ id ∧ st.isFlippable m c other = true :=
        fun other member =>
          State.isFlippable_flip consistent flippable wellFormed (later.flippable other member)
      refine ⟨?_, ?_, ?_, ?_, ?_⟩
      · rw [later.flips, counted, List.length_cons]
        omega
      · exact List.nodup_cons.mpr ⟨fun again => (earlier id again).1 rfl, later.nodup⟩
      · exact List.forall_mem_cons.mpr ⟨flippable, fun other member => (earlier other member).2⟩
      · refine List.forall_mem_cons.mpr ⟨?_, fun other member => ?_⟩
        · obtain ⟨con, known, tooMany⟩ := (State.mem_violated consistent).mp overfull
          rw [known] at named
          exact ⟨con, List.mem_of_getElem? known, named, (m.excess_pos_iff _ con).mpr tooMany⟩
        · -- no excess grows
          obtain ⟨con, listed, named, positive⟩ := later.overfull other member
          refine ⟨con, listed, named, positive.trans_le ?_⟩
          rw [State.excess_flip consistent flippable wellFormed listed]
          exact Nat.le_add_right _ _
      · intro other
        rw [later.values, State.getElem?_flip consistent flippable]
        by_cases same : other = id
        · subst same
          simp
        · simp [same]

/-- A run takes at least as many steps as it lowers any one excess by. -/
theorem Switches.excess_le (wellFormed : m.WellFormed) (consistent : st.Consistent m c)
    (switches : Switches m c policy st ids st') {con : Constraint} (member : con ∈ m.constraints) :
    m.excess st.values con ≤ m.excess st'.values con + ids.length := by
  induction switches with
  | done st => exact Nat.le_add_right _ _
  | @switchOff st st' k id ids overfull picks rest ih =>
      have flippable := (List.mem_filter.mp picks.mem).2
      have later := ih (State.flip_spec wellFormed consistent flippable).1
      have step := State.excess_flip consistent flippable wellFormed member
      rw [List.length_cons]
      split at step
      · omega
      · omega

theorem Switches.length_le (wellFormed : m.WellFormed) (consistent : st.Consistent m c)
    (switches : Switches m c policy st ids st') :
    m.totalExcess st'.values + ids.length ≤ m.totalExcess st.values := by
  induction switches with
  | done st => exact le_rfl
  | @switchOff st st' k id ids overfull picks rest ih =>
      have flippable := (List.mem_filter.mp picks.mem).2
      have later := ih (State.flip_spec wellFormed consistent flippable).1
      have step := State.totalExcess_flip_lt consistent flippable wellFormed overfull picks.mem
      rw [List.length_cons]
      omega

end

/-! ## Repairs -/

/-- A variable that was switched off: it was selected and not fixed, a violated constraint
names it, and it holds the value of its kind that is not selected. -/
structure SwitchedOff (m : Model) (c : Context) (initial final : List Value) (id : Nat) : Prop where
  selected : m.isSelectedIn initial id = true
  unfixed : c.get? id = none
  off : (m.variableAt id).domain = .boolean ∧ final[id]? = some (.bool false) ∨
    ∃ elements max, (m.variableAt id).domain = .multiSelect elements 0 max ∧
      final[id]? = some (.selection [])
  overfull : ∃ con ∈ m.constraints, id ∈ con.vars ∧ 0 < m.excess initial con

section
variable {m : Model} {c : Context} {values : List Value} {ids : List Nat} {st' : State}

theorem Switched.switchedOff (consistent : (State.ofValues m values).Consistent m c)
    (switched : Switched m c (.ofValues m values) ids st') {id : Nat} (member : id ∈ ids) :
    SwitchedOff m c values st'.values id := by
  obtain ⟨on, unfixed, switchable⟩ :=
    (State.isFlippable_iff consistent id).mp (switched.flippable id member)
  obtain ⟨off, unselected⟩ := Option.isSome_iff_exists.mp switchable
  have held := switched.values id
  rw [if_pos member, unselected] at held
  refine ⟨on, unfixed, ?_, switched.overfull id member⟩
  rcases (Domain.unselected?_eq_some_iff _ off).mp unselected with
    ⟨boolean, rfl⟩ | ⟨elements, max, multiSelect, rfl⟩
  · exact .inl ⟨boolean, held⟩
  · exact .inr ⟨elements, max, multiSelect, held⟩

theorem Switched.mem_iff (consistent : (State.ofValues m values).Consistent m c)
    (switched : Switched m c (.ofValues m values) ids st') (id : Nat) :
    id ∈ ids ↔ st'.values[id]? ≠ values[id]? := by
  have after := switched.values id
  constructor
  · intro member same
    obtain ⟨on, _, switchable⟩ :=
      (State.isFlippable_iff consistent id).mp (switched.flippable id member)
    obtain ⟨v, x, known, held, selected⟩ := Model.getElem?_of_isSelectedIn on
    change values[id]? = some x at held
    rw [if_pos member, same, held, Model.variableAt_of_getElem? known] at after
    rw [(Domain.canonical_of_unselected? after.symm).2] at selected
    exact absurd selected (by simp)
  · intro changed
    by_contra absent
    rw [if_neg absent] at after
    exact changed after

end

section
variable {σ : Type} [Chance σ] {m : Model} {c : Context} (wellFormed : m.WellFormed)

include wellFormed

theorem excess_of_repaired {st : State} (consistent : st.Consistent m c) {policy : RepairPolicy}
    {limit : Nat} {s : σ} (repaired : (repair m c policy limit st s).1.outcome = .repaired) :
    ∀ con ∈ m.constraints, m.excess (repair m c policy limit st s).1.state.values con = 0 := by
  intro con member
  have ends := repair_ends wellFormed policy limit consistent s
  have after := (run_spec wellFormed consistent ends.run).1
  exact (m.excess_eq_zero_iff _ con).mpr
    ((State.violated_eq_nil_iff after).mp (ends.repaired repaired) con member)

theorem flips_of_repaired {values : List Value}
    (consistent : (State.ofValues m values).Consistent m c) {policy : RepairPolicy} {limit : Nat}
    {s : σ} (repaired : (repair m c policy limit (.ofValues m values) s).1.outcome = .repaired) :
    (∀ con ∈ m.constraints,
      m.excess values con ≤ (repair m c policy limit (.ofValues m values) s).1.state.flips) ∧
    (repair m c policy limit (.ofValues m values) s).1.state.flips ≤ m.totalExcess values := by
  have zero := excess_of_repaired wellFormed consistent repaired
  obtain ⟨ids, switches⟩ := exists_switches m c policy limit (.ofValues m values) s
  have flips := (switches.switched wellFormed consistent).flips
  have unspent : (State.ofValues m values).flips = 0 := rfl
  rw [unspent, Nat.zero_add] at flips
  rw [flips]
  constructor
  · intro con member
    have least := switches.excess_le wellFormed consistent member
    rwa [zero con member, Nat.zero_add] at least
  · exact (Nat.le_add_left _ _).trans (switches.length_le wellFormed consistent)

theorem flips_of_limitReached {values : List Value}
    (consistent : (State.ofValues m values).Consistent m c) {policy : RepairPolicy} {limit : Nat}
    {s : σ} (stopped : (repair m c policy limit (.ofValues m values) s).1.outcome = .limitReached) :
    (∃ con ∈ m.constraints,
      0 < m.excess (repair m c policy limit (.ofValues m values) s).1.state.values con) ∧
    (repair m c policy limit (.ofValues m values) s).1.state.flips = limit := by
  have ends := repair_ends wellFormed policy limit consistent s
  have after := (run_spec wellFormed consistent ends.run).1
  obtain ⟨violated, spent⟩ := ends.limitReached stopped
  obtain ⟨k, overfull⟩ := List.exists_mem_of_ne_nil _ violated
  obtain ⟨con, known, tooMany⟩ := (State.mem_violated after).mp overfull
  exact ⟨⟨con, List.mem_of_getElem? known, (m.excess_pos_iff _ con).mpr tooMany⟩,
    spent.trans (Nat.zero_add _)⟩

omit wellFormed in
theorem repair_of_feasible {st : State} (consistent : st.Consistent m c)
    (feasible : ∀ con ∈ m.constraints, m.excess st.values con = 0) (policy : RepairPolicy)
    (limit : Nat) (s : σ) : (repair m c policy limit st s).1 = ⟨.repaired, st⟩ := by
  have none : st.violated m = [] :=
    (State.violated_eq_nil_iff consistent).mpr fun con member =>
      (m.excess_eq_zero_iff st.values con).mp (feasible con member)
  rw [repair_of_violated_nil none]

end

/-- A repair of a start that the check of the context lets pass switches off selected variables
of violated constraints, none of them fixed and none of them twice, and leaves all others alone.
To repair everything it takes at least as many flips as any constraint is over its limit, and
at most as many as they all are together; when it ends before that, its flips are used up.  So
it leaves a feasible start as it is, and a single constraint takes as many flips as it is over
its limit. -/
theorem repair_switchesOff {serial : Nat} {d : Declaration} {m : Model}
    (built : d.build serial = .ok m) {c : Context} (checked : Solver.checkContext m c = .ok ())
    (policy : RepairPolicy) (limit : Nat) {σ τ : Type} [Chance σ] [Chance τ] (s : σ) (s' : τ) :
    let initial := (start m c s).1
    let r := (repair m c policy limit (.ofValues m initial) s').1
    let final := r.state.values
    (∀ id, final[id]? = initial[id]? ∨ SwitchedOff m c initial final id) ∧
    (∃ ids, Switches m c policy (.ofValues m initial) ids r.state ∧ ids.Nodup ∧
      r.state.flips = ids.length ∧ ∀ id, id ∈ ids ↔ final[id]? ≠ initial[id]?) ∧
    (r.outcome = .repaired ∧ (∀ con ∈ m.constraints, m.excess final con = 0) ∧
        (∀ con ∈ m.constraints, m.excess initial con ≤ r.state.flips) ∧
        r.state.flips ≤ m.totalExcess initial ∨
      r.outcome = .limitReached ∧ (∃ con ∈ m.constraints, 0 < m.excess final con) ∧
        r.state.flips = limit) ∧
    ((∀ con ∈ m.constraints, m.excess initial con = 0) →
      r.outcome = .repaired ∧ final = initial) ∧
    ∀ con, m.constraints = [con] → r.outcome = .repaired →
      r.state.flips = m.excess initial con := by
  intro initial r final
  have wellFormed := Declaration.build_wellFormed built
  obtain ⟨valid, room⟩ := Solver.checkContext_ok_iff.mp checked
  have consistent := consistent_start wellFormed valid s
  obtain ⟨ids, switches⟩ := exists_switches m c policy limit (.ofValues m initial) s'
  have switched := switches.switched wellFormed consistent
  have flips : r.state.flips = ids.length := switched.flips.trans (Nat.zero_add _)
  refine ⟨fun id => ?_, ⟨ids, switches, switched.nodup, flips, switched.mem_iff consistent⟩,
    ?_, fun feasible => ?_, fun con single repaired => ?_⟩
  · by_cases member : id ∈ ids
    · exact .inr (switched.switchedOff consistent member)
    · have unchanged := switched.values id
      rw [if_neg member] at unchanged
      exact .inl unchanged
  · cases outcome : r.outcome with
    | repaired =>
        exact .inl ⟨rfl, excess_of_repaired wellFormed consistent outcome,
          flips_of_repaired wellFormed consistent outcome⟩
    | stuck k =>
        exact absurd outcome (Solver.not_stuck wellFormed room consistent policy limit s' k)
    | limitReached => exact .inr ⟨rfl, flips_of_limitReached wellFormed consistent outcome⟩
  · have unchanged : r = ⟨.repaired, .ofValues m initial⟩ :=
      repair_of_feasible consistent feasible policy limit s'
    exact ⟨congrArg Repair.outcome unchanged, congrArg (·.state.values) unchanged⟩
  · obtain ⟨atLeast, atMost⟩ := flips_of_repaired wellFormed consistent repaired
    have total : m.totalExcess initial = m.excess initial con := by
      simp [Model.totalExcess, single]
    exact Nat.le_antisymm (total ▸ atMost) (atLeast con (by simp [single]))

theorem repair_switchesOff_overlapping :
    let m := Examples.overlappingModel
    let initial := (start m {} (Script.ofWords [0])).1
    let run := fun limit words =>
      (repair m {} .random limit (.ofValues m initial) (Script.ofWords words)).1
    Examples.overlapping.build 0 = .ok m ∧ Solver.checkContext m {} = .ok () ∧
      m.constraints.map (m.excess initial) = [1, 1] ∧
      (run 5 [0]).outcome = .repaired ∧ (run 5 [0]).state.flips = 1 ∧
      (run 5 [0, 0xffffffff]).outcome = .repaired ∧ (run 5 [0, 0xffffffff]).state.flips = 2 ∧
      (run 5 [0, 0xffffffff]).state.flips ≤ m.totalExcess initial ∧
      SwitchedOff m {} initial (run 5 [0, 0xffffffff]).state.values 1 ∧
      (∃ con ∈ m.constraints, 0 < m.excess (run 1 [0, 0xffffffff]).state.values con) ∧
      (run 1 [0, 0xffffffff]).state.flips = 1 := by
  intro m initial run
  have built : Examples.overlapping.build 0 = .ok m := rfl
  have checked : Solver.checkContext m {} = .ok () := rfl
  obtain ⟨frame, _, whole, _⟩ := repair_switchesOff built checked .random 5
    (Script.ofWords [0]) (Script.ofWords [0, 0xffffffff])
  obtain ⟨_, _, cut, _⟩ := repair_switchesOff built checked .random 1
    (Script.ofWords [0]) (Script.ofWords [0, 0xffffffff])
  obtain ⟨_, _, _, atMost⟩ := whole.resolve_right fun limit => absurd limit.1 (by decide)
  obtain ⟨_, violated, spent⟩ := cut.resolve_left fun repaired => absurd repaired.1 (by decide)
  refine ⟨built, checked, by decide, by decide, by decide, by decide, by decide, atMost, ?_,
    violated, spent⟩
  exact (frame 1).resolve_left (by decide)

end Search

end DecisionSpace
