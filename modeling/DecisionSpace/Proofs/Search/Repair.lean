import DecisionSpace.Proofs.Search.Counting
import DecisionSpace.Proofs.Solution
import DecisionSpace.Search.Repair
import Mathlib.Logic.Relation

/-!
# Repairs

A repair is a run of steps, each of which switches one variable off.  `Step`
says what a step may do, whatever the source and the policy pick, and a
consistent state stays consistent: its values are canonical and hold the facts of
the context, and its selection and its counts are those of the values.

Each step consumes a selected variable for good, so the flips made and the
variables still selected always add up to the same number.
-/

set_option autoImplicit false

namespace DecisionSpace.Search

open Sampling

namespace State

structure Tracks (m : Model) (st : State) : Prop where
  selected : ∀ id, st.isSelected id = m.isSelectedIn st.values id
  counts : m.Counts (m.isSelectedIn st.values) st.counts

structure Consistent (m : Model) (c : Context) (st : State) : Prop where
  canonical : m.Canonical st.values
  agrees : c.Agrees st.values
  selected : ∀ id, st.isSelected id = m.isSelectedIn st.values id
  counts : m.Counts (m.isSelectedIn st.values) st.counts

theorem Consistent.tracks {m : Model} {c : Context} {st : State}
    (consistent : st.Consistent m c) : st.Tracks m :=
  ⟨consistent.selected, consistent.counts⟩

def remaining (m : Model) (st : State) : Nat :=
  (List.range m.vars.length).countP (m.isSelectedIn st.values)

end State

inductive Step (m : Model) (c : Context) : State → State → Prop where
  | switchOff {st : State} {k id : Nat} (overfull : k ∈ st.violated m)
      (candidate : id ∈ st.candidates m c k) : Step m c st (st.flip m id)

namespace State

variable {m : Model} {c : Context} {st : State}

/-! ## States that keep track of their values -/

theorem isSelected_ofValues (values : List Value) (id : Nat) :
    (ofValues m values).isSelected id = m.isSelectedIn values id := by
  simp only [isSelected, ofValues, Model.isSelectedIn, List.getElem?_map]
  cases (m.vars.zip values)[id]? <;> rfl

theorem tracks_ofValues (m : Model) (values : List Value) : (ofValues m values).Tracks m := by
  refine ⟨isSelected_ofValues values, ?_⟩
  have same : (ofValues m values).isSelected = m.isSelectedIn values :=
    funext (isSelected_ofValues values)
  change m.Counts (m.isSelectedIn values) _
  rw [← same]
  exact Model.counts_map m _

theorem Tracks.isFlippable_iff (tracks : st.Tracks m) (c : Context) (id : Nat) :
    st.isFlippable m c id = true ↔ m.isSelectedIn st.values id = true ∧ c.get? id = none ∧
      (m.variableAt id).domain.unselected?.isSome = true := by
  simp only [isFlippable, Bool.and_eq_true, tracks.selected, Bool.not_eq_true',
    Context.contains_eq_isSome, Option.isSome_eq_false_iff, Option.isNone_iff_eq_none, and_assoc]

theorem Tracks.exists_unselected (tracks : st.Tracks m) {id : Nat}
    (flippable : st.isFlippable m c id = true) :
    ∃ v off, m.vars[id]? = some v ∧ v.domain.unselected? = some off := by
  obtain ⟨on, _, switchable⟩ := (tracks.isFlippable_iff c id).mp flippable
  obtain ⟨v, _, known, _⟩ := Model.getElem?_of_isSelectedIn on
  rw [Model.variableAt_of_getElem? known] at switchable
  obtain ⟨off, unselected⟩ := Option.isSome_iff_exists.mp switchable
  exact ⟨v, off, known, unselected⟩

theorem flip_eq {id : Nat} {v : Variable} {off : Value} (known : m.vars[id]? = some v)
    (unselected : v.domain.unselected? = some off) :
    st.flip m id =
      { values := st.values.set id off
        selected := st.selected.set id false
        counts := (m.constraintsOn id).foldl (fun counts k => counts.modify k (· - 1)) st.counts
        flips := st.flips + 1 } := by
  simp only [flip, Model.variableAt_of_getElem? known, unselected]

theorem Tracks.flip (distinct : ∀ con ∈ m.constraints, con.vars.Nodup) (tracks : st.Tracks m)
    {id : Nat} (flippable : st.isFlippable m c id = true) :
    (st.flip m id).Tracks m ∧ (st.flip m id).flips = st.flips + 1 ∧
      (st.flip m id).remaining m + 1 = st.remaining m := by
  obtain ⟨on, _, _⟩ := (tracks.isFlippable_iff c id).mp flippable
  obtain ⟨v, off, known, unselected⟩ := tracks.exists_unselected flippable
  obtain ⟨_, x, _, held, _⟩ := Model.getElem?_of_isSelectedIn on
  have offNow : m.isSelectedIn (st.values.set id off) id = false := by
    rw [Model.isSelectedIn_set known held, (Domain.canonical_of_unselected? unselected).2]
  have others : ∀ other, other ≠ id →
      m.isSelectedIn (st.values.set id off) other = m.isSelectedIn st.values other :=
    fun other different => Model.isSelectedIn_set_of_ne different
  rw [flip_eq known unselected]
  refine ⟨⟨?_, tracks.counts.lower distinct on offNow others⟩, rfl, ?_⟩
  · -- the selection changes where the values do
    intro other
    have before := tracks.selected other
    simp only [isSelected] at before ⊢
    by_cases same : other = id
    · subst same
      rw [offNow, List.getElem?_set_self']
      cases st.selected[other]? <;> rfl
    · rw [List.getElem?_set_ne (Ne.symm same), before, others other same]
  · obtain ⟨inVars, _⟩ := List.getElem?_eq_some_iff.mp known
    have one := countP_switch (List.nodup_range (n := m.vars.length)) on offNow others
    rw [if_pos (List.mem_range.mpr inVars)] at one
    exact one.symm

/-! ## Consistent states -/

theorem consistent_ofValues {values : List Value} (canonical : m.Canonical values)
    (agrees : c.Agrees values) : (ofValues m values).Consistent m c :=
  have tracks := tracks_ofValues m values
  ⟨canonical, agrees, tracks.selected, tracks.counts⟩

theorem mem_violated (consistent : st.Consistent m c) {k : Nat} :
    k ∈ st.violated m ↔ ∃ con, m.constraints[k]? = some con ∧
      con.limit < con.selectedCount (m.isSelectedIn st.values) := by
  simp only [violated, List.mem_filter, List.mem_range, decide_eq_true_eq]
  constructor
  · rintro ⟨inRange, overfull⟩
    have known := List.getElem?_eq_getElem inRange
    rw [consistent.counts k _ known, known] at overfull
    exact ⟨_, known, overfull⟩
  · rintro ⟨con, known, overfull⟩
    obtain ⟨inRange, _⟩ := List.getElem?_eq_some_iff.mp known
    rw [consistent.counts k con known, known]
    exact ⟨inRange, overfull⟩

theorem violated_eq_nil_iff (consistent : st.Consistent m c) :
    st.violated m = [] ↔
      ∀ con ∈ m.constraints, con.selectedCount (m.isSelectedIn st.values) ≤ con.limit := by
  rw [List.eq_nil_iff_forall_not_mem]
  constructor
  · intro none con member
    obtain ⟨k, known⟩ := List.mem_iff_getElem?.mp member
    by_contra overfull
    exact none k ((mem_violated consistent).mpr ⟨con, known, Nat.lt_of_not_le overfull⟩)
  · intro all k member
    obtain ⟨con, known, overfull⟩ := (mem_violated consistent).mp member
    have bound := all con (List.mem_of_getElem? known)
    omega

theorem isFlippable_iff (consistent : st.Consistent m c) (id : Nat) :
    st.isFlippable m c id = true ↔ m.isSelectedIn st.values id = true ∧ c.get? id = none ∧
      (m.variableAt id).domain.unselected?.isSome = true :=
  consistent.tracks.isFlippable_iff c id

/-! ## Steps -/

theorem flip_spec (wellFormed : m.WellFormed) (consistent : st.Consistent m c) {id : Nat}
    (flippable : st.isFlippable m c id = true) :
    (st.flip m id).Consistent m c ∧ (st.flip m id).flips = st.flips + 1 ∧
      (st.flip m id).remaining m + 1 = st.remaining m := by
  obtain ⟨_, unfixed, _⟩ := (isFlippable_iff consistent id).mp flippable
  obtain ⟨v, off, known, unselected⟩ := consistent.tracks.exists_unselected flippable
  obtain ⟨tracks, flips, remaining⟩ := consistent.tracks.flip wellFormed.nodup flippable
  refine ⟨⟨?_, ?_, tracks.selected, tracks.counts⟩, flips, remaining⟩
  · rw [flip_eq known unselected]
    exact consistent.canonical.set known (Domain.canonical_of_unselected? unselected).1
  · intro other y fixed
    have different : id ≠ other := by
      rintro rfl
      rw [unfixed] at fixed
      exact absurd fixed (by simp)
    rw [flip_eq known unselected, List.getElem?_set_ne different]
    exact consistent.agrees other y fixed

end State

variable {m : Model} {c : Context} {st st' : State}

theorem Step.spec (wellFormed : m.WellFormed) (consistent : st.Consistent m c)
    (step : Step m c st st') :
    st'.Consistent m c ∧ st'.flips = st.flips + 1 ∧ st'.remaining m + 1 = st.remaining m := by
  obtain ⟨_, candidate⟩ := step
  exact State.flip_spec wellFormed consistent (List.mem_filter.mp candidate).2

theorem run_spec (wellFormed : m.WellFormed) (consistent : st.Consistent m c)
    (run : Relation.ReflTransGen (Step m c) st st') :
    st'.Consistent m c ∧ st'.flips + st'.remaining m = st.flips + st.remaining m := by
  induction run with
  | refl => exact ⟨consistent, rfl⟩
  | tail _ step ih =>
      obtain ⟨before, conserved⟩ := ih
      obtain ⟨after, flips, remaining⟩ := step.spec wellFormed before
      exact ⟨after, by omega⟩

/-! ## How repairs go -/

def RepairPolicy.Picks : RepairPolicy → List Nat → Nat → Prop
  | .random, candidates, id => id ∈ candidates
  | .lowestPath, candidates, id => id ∈ candidates ∧ ∀ other ∈ candidates, id ≤ other

theorem RepairPolicy.Picks.mem {policy : RepairPolicy} {candidates : List Nat} {id : Nat}
    (picks : policy.Picks candidates id) : id ∈ candidates := by
  cases policy with
  | random => exact picks
  | lowestPath => exact picks.1

/-- How a repair of at most so many flips may go, whatever its source. -/
inductive Repairs (m : Model) (c : Context) (policy : RepairPolicy) :
    Nat → State → Repair → Prop where
  | repaired {flips : Nat} {st : State} (nothing : st.violated m = []) :
      Repairs m c policy flips st ⟨.repaired, st⟩
  | limitReached {st : State} (violated : st.violated m ≠ []) :
      Repairs m c policy 0 st ⟨.limitReached, st⟩
  | stuck {flips k : Nat} {st : State} (overfull : k ∈ st.violated m)
      (none : st.candidates m c k = []) : Repairs m c policy (flips + 1) st ⟨.stuck k, st⟩
  | flip {flips k id : Nat} {st : State} {r : Repair} (overfull : k ∈ st.violated m)
      (picks : policy.Picks (st.candidates m c k) id)
      (rest : Repairs m c policy flips (st.flip m id) r) : Repairs m c policy (flips + 1) st r

section
variable {σ : Type} [Chance σ]

theorem chooseFlip_picks (policy : RepairPolicy) (first : Nat) (rest : List Nat) (s : σ) :
    policy.Picks (first :: rest) (chooseFlip policy first rest s).1 := by
  cases policy with
  | random => exact pick_mem first rest s
  | lowestPath => exact List.min?_eq_some_iff.mp List.min?_cons'

theorem repair_of_violated_nil (nothing : st.violated m = []) (c : Context) (policy : RepairPolicy)
    (flips : Nat) (s : σ) : repair m c policy flips st s = (⟨.repaired, st⟩, s) := by
  unfold repair
  rw [nothing]

theorem repairs_repair (m : Model) (c : Context) (policy : RepairPolicy) (flips : Nat) (st : State)
    (s : σ) : Repairs m c policy flips st (repair m c policy flips st s).1 := by
  -- on the flips that are left; the state and the source change with every step
  induction flips generalizing st s with
  | zero =>
      cases violated : st.violated m with
      | nil =>
          rw [repair_of_violated_nil violated]
          exact .repaired violated
      | cons k ks =>
          unfold repair
          simp only [violated]
          exact .limitReached (by simp [violated])
  | succ flips ih =>
      cases violated : st.violated m with
      | nil =>
          rw [repair_of_violated_nil violated]
          exact .repaired violated
      | cons k ks =>
          have overfull : (pick k ks s).1 ∈ st.violated m := violated ▸ pick_mem k ks s
          unfold repair
          simp only [violated]
          cases candidates : st.candidates m c (pick k ks s).1 with
          | nil => exact .stuck overfull candidates
          | cons first others =>
              have picks := chooseFlip_picks policy first others (pick k ks s).2
              rw [← candidates] at picks
              exact .flip overfull picks (ih _ _)

end

structure Ends (m : Model) (c : Context) (flips : Nat) (st : State) (r : Repair) : Prop where
  run : Relation.ReflTransGen (Step m c) st r.state
  repaired : r.outcome = .repaired → r.state.violated m = []
  limitReached : r.outcome = .limitReached →
    r.state.violated m ≠ [] ∧ r.state.flips = st.flips + flips
  stuck : ∀ k, r.outcome = .stuck k → k ∈ r.state.violated m ∧ r.state.candidates m c k = []

theorem Ends.cons {flips : Nat} {r : Repair} (step : Step m c st st')
    (counted : st'.flips = st.flips + 1) (ends : Ends m c flips st' r) :
    Ends m c (flips + 1) st r := by
  refine ⟨.head step ends.run, ends.repaired, fun limit => ?_, ends.stuck⟩
  obtain ⟨violated, made⟩ := ends.limitReached limit
  exact ⟨violated, by omega⟩

theorem Repairs.ends (wellFormed : m.WellFormed) (consistent : st.Consistent m c)
    {policy : RepairPolicy} {flips : Nat} {r : Repair} (repairs : Repairs m c policy flips st r) :
    Ends m c flips st r := by
  induction repairs with
  | repaired nothing => exact ⟨.refl, fun _ => nothing, by simp, by simp⟩
  | limitReached violated => exact ⟨.refl, by simp, fun _ => ⟨violated, rfl⟩, by simp⟩
  | stuck overfull none =>
      refine ⟨.refl, by simp, by simp, fun j stuck => ?_⟩
      obtain rfl := Outcome.stuck.inj stuck
      exact ⟨overfull, none⟩
  | flip overfull picks _ ih =>
      have step := Step.switchOff overfull picks.mem
      obtain ⟨after, counted, _⟩ := step.spec wellFormed consistent
      exact (ih after).cons step counted

/-- A repair takes steps until nothing is violated, its flips are used up, or a
violated constraint has no candidate. -/
theorem repair_ends {σ : Type} [Chance σ] (wellFormed : m.WellFormed) (policy : RepairPolicy)
    (flips : Nat) (consistent : st.Consistent m c) (s : σ) :
    Ends m c flips st (repair m c policy flips st s).1 :=
  (repairs_repair m c policy flips st s).ends wellFormed consistent

end DecisionSpace.Search
