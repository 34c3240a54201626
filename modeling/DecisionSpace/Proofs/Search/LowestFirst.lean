import DecisionSpace.Proofs.Search.Switching
import Mathlib.Data.List.Sort

/-!
# Lowest variables first

Where no two constraints share a variable and the policy takes the lowest candidate, it does
not matter which violated constraint a step is made for.  Each constraint has a list of its own
that it will switch off: the lowest of its switchable variables, as many as it is over its
limit.  A step takes the first element off one of these lists and leaves the others as they
are, so a repair that ends well has used all of them up.
-/

set_option autoImplicit false

namespace DecisionSpace

def Model.isSwitchable (m : Model) (c : Context) (values : List Value) (id : Nat) : Bool :=
  m.isSelectedIn values id && !c.contains id && (m.variableAt id).domain.unselected?.isSome

/-- The lowest switchable variables of a constraint, as many as it is over its limit. -/
def Model.lowest (m : Model) (c : Context) (values : List Value) (con : Constraint) : List Nat :=
  ((con.vars.filter (m.isSwitchable c values)).insertionSort (· ≤ ·)).take (m.excess values con)

theorem Model.lowest_nodup {m : Model} (wellFormed : m.WellFormed) (c : Context)
    (values : List Value) {con : Constraint} (member : con ∈ m.constraints) :
    (m.lowest c values con).Nodup := by
  have distinct := (wellFormed.nodup con member).filter (m.isSwitchable c values)
  exact ((List.perm_insertionSort _ _).nodup_iff.mpr distinct).sublist (List.take_sublist _ _)

theorem Model.switchable_of_mem_lowest {m : Model} {c : Context} {values : List Value}
    {con : Constraint} {id : Nat} (low : id ∈ m.lowest c values con) :
    (m.variableAt id).domain.unselected?.isSome = true := by
  have listed := (List.mem_insertionSort (· ≤ ·)).mp (List.mem_of_mem_take low)
  have switchable := (List.mem_filter.mp listed).2
  rw [isSwitchable, Bool.and_eq_true] at switchable
  exact switchable.2

namespace Search

open Sampling

theorem insertionSort_eq_cons {ids : List Nat} {id : Nat} (member : id ∈ ids)
    (least : ∀ other ∈ ids, id ≤ other) :
    ids.insertionSort (· ≤ ·) = id :: (ids.erase id).insertionSort (· ≤ ·) := by
  have order := List.pairwise_insertionSort (· ≤ ·) ids
  have rest := List.pairwise_insertionSort (· ≤ ·) (ids.erase id)
  have first : ∀ other ∈ (ids.erase id).insertionSort (· ≤ ·), id ≤ other := fun other listed =>
    least other (List.mem_of_mem_erase ((List.mem_insertionSort (· ≤ ·)).mp listed))
  have same : (ids.insertionSort (· ≤ ·)).Perm (id :: (ids.erase id).insertionSort (· ≤ ·)) :=
    (List.perm_insertionSort _ ids).trans
      ((List.perm_cons_erase member).trans ((List.perm_insertionSort _ _).symm.cons id))
  exact same.eq_of_pairwise (fun _ _ _ _ => Nat.le_antisymm) order
    (List.pairwise_cons.mpr ⟨first, rest⟩)

section
variable {m : Model} {c : Context}

theorem State.isFlippable_eq {st : State} (consistent : st.Consistent m c) (id : Nat) :
    st.isFlippable m c id = m.isSwitchable c st.values id := by
  rw [isFlippable, consistent.selected, Model.isSwitchable]

/-! ## One step -/

namespace State

section
variable {st : State} {id : Nat} (wellFormed : m.WellFormed) (consistent : st.Consistent m c)

include consistent in
theorem isSwitchable_flip (flippable : st.isFlippable m c id = true) (other : Nat) :
    m.isSwitchable c (st.flip m id).values other =
      (other != id && m.isSwitchable c st.values other) := by
  simp only [Model.isSwitchable, isSelectedIn_flip consistent flippable, Bool.and_assoc]

include wellFormed consistent

theorem lowest_flip {k : Nat} {con : Constraint} (known : m.constraints[k]? = some con)
    (overfull : k ∈ st.violated m)
    (picks : RepairPolicy.lowestPath.Picks (st.candidates m c k) id) :
    m.lowest c st.values con = id :: m.lowest c (st.flip m id).values con := by
  have member := List.mem_of_getElem? known
  have flippable := (List.mem_filter.mp picks.mem).2
  have candidates : st.candidates m c k = con.vars.filter (m.isSwitchable c st.values) := by
    rw [State.candidates, known]
    exact List.filter_congr fun other _ => isFlippable_eq consistent other
  rw [candidates] at picks
  obtain ⟨listed, least⟩ := picks
  obtain ⟨named, _⟩ := List.mem_filter.mp listed
  have left : con.vars.filter (m.isSwitchable c (st.flip m id).values) =
      (con.vars.filter (m.isSwitchable c st.values)).erase id := by
    rw [((wellFormed.nodup con member).filter _).erase_eq_filter, List.filter_filter]
    apply List.filter_congr
    intro other _
    rw [isSwitchable_flip consistent flippable]
  obtain ⟨_, same, tooMany⟩ := (mem_violated consistent).mp overfull
  obtain rfl := Option.some.inj (known.symm.trans same)
  have step := excess_flip consistent flippable wellFormed member
  rw [if_pos ⟨named, (m.excess_pos_iff st.values con).mpr tooMany⟩] at step
  rw [Model.lowest, Model.lowest, left, step, insertionSort_eq_cons listed least,
    List.take_succ_cons]

theorem lowest_flip_of_notMem (flippable : st.isFlippable m c id = true) {con : Constraint}
    (member : con ∈ m.constraints) (absent : id ∉ con.vars) :
    m.lowest c (st.flip m id).values con = m.lowest c st.values con := by
  have left : con.vars.filter (m.isSwitchable c (st.flip m id).values) =
      con.vars.filter (m.isSwitchable c st.values) := by
    apply List.filter_congr
    intro other named
    have different : other ≠ id := fun same => absent (same ▸ named)
    simp [isSwitchable_flip consistent flippable, different]
  have step := excess_flip consistent flippable wellFormed member
  rw [if_neg (fun both => absent both.1), Nat.add_zero] at step
  rw [Model.lowest, Model.lowest, left, step]

end

end State

/-! ## Runs -/

def Independent (m : Model) : Prop :=
  m.constraints.Pairwise fun k l => k.vars.Disjoint l.vars

theorem Independent.unique (independent : Independent m) {k l : Constraint}
    (first : k ∈ m.constraints) (second : l ∈ m.constraints) {id : Nat} (named : id ∈ k.vars)
    (again : id ∈ l.vars) : k = l := by
  by_contra different
  have : Std.Symm fun k l : Constraint => k.vars.Disjoint l.vars := ⟨fun _ _ => List.disjoint_symm⟩
  exact List.Pairwise.forall independent first second different named again

/-- A run that leaves nothing violated switches off the lists of all constraints, each in its
order, and they are as long as the constraints are over their limits. -/
theorem Switches.lowest {st st' : State} {ids : List Nat} (wellFormed : m.WellFormed)
    (independent : Independent m) (consistent : st.Consistent m c)
    (switches : Switches m c .lowestPath st ids st')
    (repaired : ∀ con ∈ m.constraints, m.excess st'.values con = 0) {con : Constraint}
    (member : con ∈ m.constraints) :
    ids.filter (· ∈ con.vars) = m.lowest c st.values con ∧
      (m.lowest c st.values con).length = m.excess st.values con := by
  induction switches with
  | done st => simp [Model.lowest, repaired con member]
  | @switchOff st st' k id ids overfull picks rest ih =>
      obtain ⟨named, flippable⟩ := List.mem_filter.mp picks.mem
      obtain ⟨later, length⟩ := ih (State.flip_spec wellFormed consistent flippable).1 repaired
      have step := State.excess_flip consistent flippable wellFormed member
      obtain ⟨own, known, tooMany⟩ := (State.mem_violated consistent).mp overfull
      rw [known] at named
      by_cases listed : id ∈ con.vars
      · -- the step was made for this constraint
        obtain rfl := independent.unique (List.mem_of_getElem? known) member named listed
        rw [if_pos ⟨listed, (m.excess_pos_iff st.values own).mpr tooMany⟩] at step
        rw [State.lowest_flip wellFormed consistent known overfull picks,
          List.filter_cons_of_pos (by simpa using listed), later, List.length_cons, length, step]
        exact ⟨rfl, rfl⟩
      · rw [if_neg (fun both => listed both.1), Nat.add_zero] at step
        rw [List.filter_cons_of_neg (by simpa using listed), later, step, ← length,
          State.lowest_flip_of_notMem wellFormed consistent flippable member listed]
        exact ⟨rfl, rfl⟩

end

/-! ## Repairs -/

section
variable {σ : Type} [Chance σ] {m : Model} {c : Context} {values : List Value}
  (wellFormed : m.WellFormed) (consistent : (State.ofValues m values).Consistent m c)

include wellFormed consistent

theorem repaired_of_enough
    (room : ∀ con ∈ m.constraints, con.selectedCount (Solver.isForced m c) ≤ con.limit)
    (policy : RepairPolicy) {limit : Nat} (enough : m.vars.length ≤ limit) (s : σ) :
    (repair m c policy limit (.ofValues m values) s).1.outcome = .repaired := by
  cases outcome : (repair m c policy limit (.ofValues m values) s).1.outcome with
  | repaired => rfl
  | limitReached =>
      exact absurd outcome (Solver.not_limitReached wellFormed consistent policy enough s)
  | stuck k => exact absurd outcome (Solver.not_stuck wellFormed room consistent policy limit s k)

theorem lowestPath_settles (independent : Independent m) {limit : Nat} {s : σ}
    (repaired : (repair m c .lowestPath limit (.ofValues m values) s).1.outcome = .repaired)
    (id : Nat) :
    (repair m c .lowestPath limit (.ofValues m values) s).1.state.values[id]? =
      if ∃ con ∈ m.constraints, id ∈ m.lowest c values con then
        (m.variableAt id).domain.unselected?
      else values[id]? := by
  have zero := excess_of_repaired wellFormed consistent repaired
  obtain ⟨ids, switches⟩ := exists_switches m c .lowestPath limit (.ofValues m values) s
  have switched := switches.switched wellFormed consistent
  have order : ∀ con ∈ m.constraints, ids.filter (· ∈ con.vars) = m.lowest c values con :=
    fun con member => (switches.lowest wellFormed independent consistent zero member).1
  have listed : id ∈ ids ↔ ∃ con ∈ m.constraints, id ∈ m.lowest c values con := by
    constructor
    · intro flipped
      obtain ⟨con, member, named, _⟩ := switched.overfull id flipped
      have kept : id ∈ ids.filter (· ∈ con.vars) :=
        List.mem_filter.mpr ⟨flipped, by simpa using named⟩
      exact ⟨con, member, order con member ▸ kept⟩
    · rintro ⟨con, member, low⟩
      have kept : id ∈ ids.filter (· ∈ con.vars) := (order con member).symm ▸ low
      exact (List.mem_filter.mp kept).1
  rw [switched.values]
  simp only [listed]
  rfl

end

/-- Where no variable is named by two constraints and the lowest candidates go first, a repair
that succeeds does the same whatever its source: of each constraint it switches off the lowest
switchable variables, exactly as many as the constraint is over its limit, and it leaves all
others alone. -/
theorem repair_lowestPath_confluent {serial : Nat} {d : Declaration} {m : Model}
    (built : d.build serial = .ok m) {c : Context} (checked : Solver.checkContext m c = .ok ())
    (independent : Independent m) {ρ : Type} [Chance ρ] {s : ρ} {initial : List Value}
    (started : (start m c s).1 = initial) :
    (∀ con ∈ m.constraints, (m.lowest c initial con).Nodup ∧
      (m.lowest c initial con).length = m.excess initial con) ∧
    ∀ {σ : Type} [Chance σ] (limit : Nat) (s' : σ),
      let r := (repair m c .lowestPath limit (.ofValues m initial) s').1
      r.outcome = .repaired →
        (∀ con ∈ m.constraints, ∀ id ∈ m.lowest c initial con,
          ∃ off, (m.variableAt id).domain.unselected? = some off ∧
            r.state.values[id]? = some off) ∧
        (∀ id, (∀ con ∈ m.constraints, id ∉ m.lowest c initial con) →
          r.state.values[id]? = initial[id]?) ∧
        ∀ {τ : Type} [Chance τ] (other : Nat) (t : τ),
          let r' := (repair m c .lowestPath other (.ofValues m initial) t).1
          r'.outcome = .repaired → r'.state.values = r.state.values := by
  have wellFormed := Declaration.build_wellFormed built
  obtain ⟨valid, room⟩ := Solver.checkContext_ok_iff.mp checked
  have consistent := consistent_start wellFormed valid s
  rw [started] at consistent
  refine ⟨fun con member => ⟨m.lowest_nodup wellFormed c initial member, ?_⟩, ?_⟩
  · -- some repair succeeds, and then the list was long enough
    obtain ⟨ids, switches⟩ := exists_switches m c .lowestPath m.vars.length (.ofValues m initial) s
    have repaired := repaired_of_enough wellFormed consistent room .lowestPath le_rfl s
    have zero := excess_of_repaired wellFormed consistent repaired
    exact (switches.lowest wellFormed independent consistent zero member).2
  · intro σ _ limit s' r repaired
    have settled := lowestPath_settles wellFormed consistent independent repaired
    refine ⟨fun con member id low => ?_, fun id high => ?_, ?_⟩
    · obtain ⟨off, unselected⟩ := Option.isSome_iff_exists.mp (Model.switchable_of_mem_lowest low)
      refine ⟨off, unselected, ?_⟩
      rw [settled id, if_pos ⟨con, member, low⟩, unselected]
    · rw [settled id, if_neg fun ⟨con, member, low⟩ => high con member low]
    · intro τ _ other t r' repaired'
      apply List.ext_getElem?
      intro id
      rw [settled id, lowestPath_settles wellFormed consistent independent repaired' id]

theorem repair_lowestPath_confluent_apart :
    let m := Examples.apartModel
    let c : Context := .ofFact ⟨0, .bool true⟩
    let initial := (start m c (Script.ofWords [0])).1
    Examples.apart.build 0 = .ok m ∧ Solver.checkContext m c = .ok () ∧ Independent m ∧
      m.constraints.map (m.excess initial) = [1, 1] ∧
      m.constraints.map (m.lowest c initial) = [[1], [4]] ∧
      (∀ words ∈ [[0], [0xffffffff]],
        (repair m c .lowestPath 2 (.ofValues m initial) (Script.ofWords words)).1.outcome =
          .repaired) ∧
      ∀ (s s' : Script) (r r' : Repair),
        (repair m c .lowestPath 2 (.ofValues m initial) s).1 = r →
        (repair m c .lowestPath 2 (.ofValues m initial) s').1 = r' →
        r.outcome = .repaired → r'.outcome = .repaired →
          (∃ off, (m.variableAt 1).domain.unselected? = some off ∧
            r.state.values[1]? = some off) ∧
          r.state.values[3]? = initial[3]? ∧ r'.state.values = r.state.values := by
  intro m c initial
  have built : Examples.apart.build 0 = .ok m := rfl
  have checked : Solver.checkContext m c = .ok () := rfl
  have independent : Independent m := by
    simp [Independent, m, Examples.apartModel]
  have lists : m.constraints.map (m.lowest c initial) = [[1], [4]] := by decide +kernel
  have listed : 1 ∈ m.lowest c initial ⟨0, 3, [3, 2, 1, 0]⟩ := by decide +kernel
  have absent : ∀ con ∈ m.constraints, 3 ∉ m.lowest c initial con := by decide +kernel
  refine ⟨built, checked, independent, by decide +kernel, lists, by decide +kernel, ?_⟩
  rintro s s' _ _ rfl rfl repaired repaired'
  have started : (start m c (Script.ofWords [0])).1 = initial := rfl
  obtain ⟨_, settled⟩ := repair_lowestPath_confluent built checked independent started
  obtain ⟨low, high, same⟩ := settled 2 s repaired
  exact ⟨low ⟨0, 3, [3, 2, 1, 0]⟩ (by decide) 1 listed, high 3 absent, same 2 s' repaired'⟩

end Search

end DecisionSpace
