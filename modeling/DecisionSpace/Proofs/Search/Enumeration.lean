import DecisionSpace.Examples
import DecisionSpace.Proofs.Search.Forced
import DecisionSpace.Proofs.Search.Walk

/-!
# Enumerations

The plain enumeration of a model filters the product of all candidate values: it
lists the canonical vectors in lexicographic order and drops those that are not
solutions.  The walk, which fixes the variables of the context and leaves a
branch as soon as a constraint is overfull, finds the same vectors in the same
order.  Both lists ascend strictly and have the same members, and there is only
one such list.
-/

set_option autoImplicit false

namespace DecisionSpace

namespace Model

def ranks (vars : List Variable) (values : List Value) : List Nat :=
  List.zipWith (fun v x => v.domain.rank x) vars values

def vectors (m : Model) : List (List Value) :=
  Search.product (m.vars.map fun v => Search.candidateValues v.domain)

def solutions (m : Model) (c : Context) : List (List Value) :=
  m.vectors.filter fun values =>
    (Assignment.ofValues m values).satisfies c && (Assignment.ofValues m values).isFeasible

end Model

namespace Search

/-! ## Products -/

theorem mem_product {choices : List (List Value)} {values : List Value} :
    values ∈ product choices ↔ List.Forall₂ (fun own x => x ∈ own) choices values := by
  induction choices generalizing values with
  | nil =>
      rw [product, List.mem_singleton, List.forall₂_nil_left_iff]
  | cons own rest ih =>
      rw [product, List.mem_flatMap]
      constructor
      · rintro ⟨x, member, listed⟩
        obtain ⟨tail, inRest, rfl⟩ := List.mem_map.mp listed
        exact .cons member (ih.mp inRest)
      · intro related
        obtain ⟨x, tail, member, inRest, rfl⟩ := List.forall₂_cons_left_iff.mp related
        exact ⟨x, member, List.mem_map.mpr ⟨tail, ih.mpr inRest, rfl⟩⟩

theorem product_ascending {vars : List Variable} {choices : List (List Value)}
    (ascending : List.Forall₂
      (fun v own => own.Pairwise fun x y => v.domain.rank x < v.domain.rank y) vars choices) :
    (product choices).Pairwise fun xs ys => Model.ranks vars xs < Model.ranks vars ys := by
  induction ascending with
  | nil => exact List.pairwise_singleton _ _
  | @cons v own vars rest ascends _ ih =>
      rw [product, List.pairwise_flatMap]
      constructor
      · intro x _
        refine List.pairwise_map.mpr (ih.imp fun {xs ys} less => ?_)
        exact List.cons_lt_cons_iff.mpr (.inr ⟨rfl, less⟩)
      · refine ascends.imp fun {x y} less => ?_
        rintro _ xsMember _ ysMember
        obtain ⟨xs, _, rfl⟩ := List.mem_map.mp xsMember
        obtain ⟨ys, _, rfl⟩ := List.mem_map.mp ysMember
        exact List.cons_lt_cons_iff.mpr (.inl less)

theorem nodup_of_ascending {vars : List Variable} {xs : List (List Value)}
    (ascending : xs.Pairwise fun a b => Model.ranks vars a < Model.ranks vars b) : xs.Nodup := by
  apply List.Pairwise.imp _ ascending
  rintro a b less rfl
  exact lt_irrefl _ less

theorem eq_of_ascending {vars : List Variable} {xs ys : List (List Value)}
    (left : xs.Pairwise fun a b => Model.ranks vars a < Model.ranks vars b)
    (right : ys.Pairwise fun a b => Model.ranks vars a < Model.ranks vars b)
    (same : ∀ values, values ∈ xs ↔ values ∈ ys) : xs = ys := by
  have perm := (List.perm_ext_iff_of_nodup (nodup_of_ascending left)
    (nodup_of_ascending right)).mpr same
  refine perm.eq_of_pairwise (fun a b _ _ less more => ?_) left right
  exact absurd (lt_trans less more) (lt_irrefl _)

/-! ## The choices of the levels -/

theorem mem_levelOf (m : Model) {c : Context} {id : Nat} {v : Variable}
    (valid : ∀ x, c.get? id = some x → v.domain.Canonical x) (x : Value) :
    x ∈ (levelOf m c id v).values ↔
      v.domain.Canonical x ∧ ∀ y, c.get? id = some y → x = y := by
  simp only [levelOf]
  cases fixed : c.get? id with
  | none =>
      rw [mem_candidateValues]
      simp
  | some y =>
      rw [List.mem_singleton]
      constructor
      · rintro rfl
        exact ⟨valid x fixed, fun z same => Option.some.inj same⟩
      · exact fun both => both.2 y rfl

theorem mem_product_levels {m : Model} {c : Context} (vars : List Variable) (id : Nat)
    (facts : c.CanonicalFrom id vars) (values : List Value) :
    values ∈ product ((levelsFrom m c id vars).map (·.values)) ↔
      List.Forall₂ (fun v x => v.domain.Canonical x) vars values ∧ c.AgreesFrom id values := by
  induction vars generalizing id values with
  | nil =>
      rw [levelsFrom, List.map_nil, mem_product, List.forall₂_nil_left_iff,
        List.forall₂_nil_left_iff]
      constructor
      · rintro rfl
        exact ⟨rfl, c.agreesFrom_nil id⟩
      · exact fun both => both.1
  | cons v rest ih =>
      obtain ⟨own, others⟩ := Context.canonicalFrom_cons.mp facts
      have head := mem_levelOf m own
      have tail := fun values => ih (id + 1) others values
      simp only [mem_product] at tail
      rw [levelsFrom, List.map_cons, mem_product]
      constructor
      · intro related
        obtain ⟨x, xs, member, listed, rfl⟩ := List.forall₂_cons_left_iff.mp related
        obtain ⟨canonical, held⟩ := (head x).mp member
        obtain ⟨canonicalRest, agrees⟩ := (tail xs).mp listed
        exact ⟨.cons canonical canonicalRest, Context.agreesFrom_cons.mpr ⟨held, agrees⟩⟩
      · rintro ⟨related, agrees⟩
        obtain ⟨x, xs, canonical, canonicalRest, rfl⟩ := List.forall₂_cons_left_iff.mp related
        obtain ⟨held, agreesRest⟩ := Context.agreesFrom_cons.mp agrees
        exact .cons ((head x).mpr ⟨canonical, held⟩) ((tail xs).mpr ⟨canonicalRest, agreesRest⟩)

theorem levels_ascending {m : Model} {c : Context} (vars : List Variable) (id : Nat)
    (sound : ∀ v ∈ vars, v.domain.Sound) :
    List.Forall₂ (fun v own => own.Pairwise fun x y => v.domain.rank x < v.domain.rank y) vars
      ((levelsFrom m c id vars).map (·.values)) := by
  induction vars generalizing id with
  | nil => exact .nil
  | cons v rest ih =>
      obtain ⟨own, others⟩ := List.forall_mem_cons.mp sound
      refine .cons ?_ (ih (id + 1) others)
      simp only [levelOf]
      split
      · exact List.pairwise_singleton _ _
      · exact candidateValues_ascending own

end Search

/-! ## Solutions -/

namespace Model

variable {m : Model} {c : Context}

theorem mem_vectors {values : List Value} : values ∈ m.vectors ↔ m.Canonical values := by
  rw [vectors, Search.mem_product, List.forall₂_map_left_iff]
  simp only [Search.mem_candidateValues]
  rfl

theorem mem_solutions {values : List Value} : values ∈ m.solutions c ↔ m.Solves c values := by
  rw [solutions, List.mem_filter, mem_vectors, Bool.and_eq_true_iff, Assignment.satisfies_ofValues]
  constructor
  · rintro ⟨canonical, agrees, feasible⟩
    exact ⟨canonical, agrees, (Assignment.isFeasible_ofValues canonical).mp feasible⟩
  · intro solves
    exact ⟨solves.canonical, solves.agrees,
      (Assignment.isFeasible_ofValues solves.canonical).mpr solves.feasible⟩

theorem solutions_ascending (wellFormed : m.WellFormed) (c : Context) :
    (m.solutions c).Pairwise fun xs ys => ranks m.vars xs < ranks m.vars ys := by
  apply List.Pairwise.filter
  apply Search.product_ascending
  apply List.forall₂_map_right_iff.mpr
  apply List.forall₂_same.mpr
  exact fun v member => Search.candidateValues_ascending (wellFormed.sound v member)

end Model

namespace Search

variable {m : Model} {c : Context}

theorem mem_walk (wellFormed : m.WellFormed) (valid : c.validate m = .ok ())
    {values : List Value} :
    values ∈ (product ((levels m c).map (·.values))).filter
        (keeps (m.constraints.map (·.limit)) (levels m c) (m.constraints.map fun _ => 0)) ↔
      m.Solves c values := by
  have facts := Context.canonicalFrom_zero wellFormed valid
  rw [List.mem_filter, levels_eq_levelsFrom, mem_product_levels m.vars 0 facts,
    ← levels_eq_levelsFrom]
  constructor
  · rintro ⟨⟨canonical, agrees⟩, kept⟩
    have size := Model.Canonical.length_eq canonical
    exact ⟨canonical, (Context.agreesFrom_zero_iff valid size).mp agrees,
      (keeps_levels_iff wellFormed c size).mp kept⟩
  · intro solves
    have size := solves.canonical.length_eq
    exact ⟨⟨solves.canonical, (Context.agreesFrom_zero_iff valid size).mpr solves.agrees⟩,
      (keeps_levels_iff wellFormed c size).mpr solves.feasible⟩

/-- A cut walk with pruning is the beginning of the plain enumeration. -/
theorem enumerateValues_eq (wellFormed : m.WellFormed) (valid : c.validate m = .ok ())
    (limit : Nat) : enumerateValues m c limit = (m.solutions c).take limit := by
  rw [enumerateValues]
  split
  · rename_i none
    rw [none, List.take_zero]
  · rename_i nonzero
    rw [walk_eq_take _ _ _ _ (Nat.pos_of_ne_zero nonzero)]
    congr 1
    -- the two products differ, since a fixed variable has one value in the walk and all of its
    -- values in the plain enumeration; only the order and the members can be compared
    have ascending := product_ascending (levels_ascending (m := m) (c := c) m.vars 0 wellFormed.sound)
    rw [← levels_eq_levelsFrom] at ascending
    refine eq_of_ascending (ascending.filter _) (Model.solutions_ascending wellFormed c) ?_
    intro values
    rw [mem_walk wellFormed valid, Model.mem_solutions]

/-! ## Small models -/

theorem valueCount_le_foldl (vars : List Variable) (n : Nat) :
    n ≤ vars.foldl (fun n v => n + v.domain.valueCount) n ∧
      ∀ v ∈ vars, v.domain.valueCount ≤ vars.foldl (fun n v => n + v.domain.valueCount) n := by
  induction vars generalizing n with
  | nil => simp
  | cons v rest ih =>
      obtain ⟨grows, each⟩ := ih (n + v.domain.valueCount)
      rw [List.foldl_cons]
      refine ⟨by omega, List.forall_mem_cons.mpr ⟨by omega, each⟩⟩

theorem isNumbered_of_small (small : m.valueCount ≤ Solver.enumerationLimit) {v : Variable}
    (member : v ∈ m.vars) : isNumbered v.domain = true := by
  have own := (valueCount_le_foldl m.vars 0).2 v member
  have bound : v.domain.valueCount ≤ 20 := Nat.le_trans own small
  cases domain : v.domain with
  | multiSelect elements min max =>
      rw [domain] at bound
      have length : elements.length ≤ 20 := bound
      have fits : elements.length < 64 := by omega
      simpa [isNumbered] using fits
  | boolean => rfl
  | constant value => rfl
  | nominal elements => rfl

theorem enumerate_eq_ok (small : m.valueCount ≤ Solver.enumerationLimit) (c : Context)
    (limit : Nat) : enumerate m c limit = .ok (enumerateValues m c limit) := by
  apply if_pos
  refine List.all_eq_true.mpr fun entry listed => ?_
  obtain ⟨v, id⟩ := entry
  have member : v ∈ m.vars := by
    obtain ⟨_, inVars, same⟩ := List.mem_zipIdx listed
    rw [same]
    exact List.getElem_mem _
  simp only [isNumbered_of_small small member, Bool.or_true]

end Search

namespace Solver

open Fallible
open Search

variable {m : Model} {c : Context}

theorem ofSlots_solutions (wellFormed : m.WellFormed) {found : List (List Value)}
    (solve : ∀ values ∈ found, m.Solves c values) :
    (found.mapM fun values => Assignment.ofSlots m (values.map some)) =
      .ok (found.map (Assignment.ofValues m)) := by
  rw [mapM_ok_iff, List.forall₂_map_right_iff, List.forall₂_same]
  intro values member
  exact (Assignment.ofSlots_ofValues wellFormed).mpr (solve values member).canonical

theorem enumerate_eq (wellFormed : m.WellFormed) (small : m.valueCount ≤ enumerationLimit)
    (checked : checkContext m c = .ok ()) (settings : Settings) {limit : Nat}
    (positive : 0 < limit) :
    enumerate ⟨m, settings⟩ c limit =
      if (m.solutions c).isEmpty then .error (.unsatisfiable (.infeasible m.name))
      else .ok (((m.solutions c).take limit).map (Assignment.ofValues m)) := by
  have valid := (checkContext_ok_iff.mp checked).1
  have walked := enumerateValues_eq wellFormed valid limit
  have solve : ∀ values ∈ (m.solutions c).take limit, m.Solves c values :=
    fun values member => Model.mem_solutions.mp (List.mem_of_mem_take member)
  have made := ofSlots_solutions wellFormed solve
  rw [enumerate, if_neg (Nat.not_lt_of_le small), if_neg (Nat.ne_of_gt positive), checked]
  simp only [bind, Except.bind, walked]
  cases solutions : m.solutions c with
  | nil =>
      rw [List.take_nil]
      rfl
  | cons first rest =>
      obtain ⟨limit, rfl⟩ := Nat.exists_eq_add_of_le' positive
      rw [solutions] at made
      rw [List.take_succ_cons] at made ⊢
      exact made

/-- The enumeration of a small model is the beginning of its solutions.  These are
the vectors that make a feasible assignment holding the context and are left
unchanged by it; they ascend lexicographically by rank, so that no vector occurs
twice, and a solver returns them as assignments. -/
theorem enumerate_eq_solutions {serial : Nat} {d : Declaration} {m : Model}
    (built : d.build serial = .ok m) (small : m.valueCount ≤ enumerationLimit) {c : Context}
    (valid : c.validate m = .ok ()) :
    (∀ limit, Search.enumerate m c limit = .ok ((m.solutions c).take limit)) ∧
    (∀ values, values ∈ m.solutions c ↔
      Assignment.ofSlots m (values.map some) = .ok (Assignment.ofValues m values) ∧
        (Assignment.ofValues m values).satisfies c = true ∧
        (Assignment.ofValues m values).isFeasible = true) ∧
    ((m.solutions c).Pairwise fun xs ys => Model.ranks m.vars xs < Model.ranks m.vars ys) ∧
    (∀ limit, ((m.solutions c).take limit).Nodup ∧
      (m.solutions c).take limit <+: (m.solutions c).take (limit + 1)) ∧
    (∀ settings limit, checkContext m c = .ok () → 0 < limit →
      enumerate ⟨m, settings⟩ c limit =
        if (m.solutions c).isEmpty then .error (.unsatisfiable (.infeasible m.name))
        else .ok (((m.solutions c).take limit).map (Assignment.ofValues m))) := by
  have wellFormed := Declaration.build_wellFormed built
  have ascending := Model.solutions_ascending wellFormed c
  refine ⟨fun limit => ?_, fun values => ?_, ascending, fun limit => ⟨?_, ?_⟩, ?_⟩
  · rw [enumerate_eq_ok small, enumerateValues_eq wellFormed valid]
  · rw [Model.solutions, List.mem_filter, Model.mem_vectors, Assignment.ofSlots_ofValues wellFormed,
      Bool.and_eq_true_iff]
  · exact (nodup_of_ascending ascending).sublist (List.take_sublist limit _)
  · exact List.take_prefix_take_left (Nat.le_succ limit)
  · exact fun settings limit checked positive => enumerate_eq wellFormed small checked settings positive

theorem enumerate_eq_solutions_overlapping :
    Examples.overlapping.build 0 = .ok Examples.overlappingModel ∧
      Examples.overlappingModel.valueCount ≤ enumerationLimit ∧
      (Context.ofFact ⟨1, .bool true⟩).validate Examples.overlappingModel = .ok () ∧
      Search.enumerate Examples.overlappingModel (.ofFact ⟨1, .bool true⟩) 3 =
        .ok [[.bool false, .bool true, .selection [.text "x"], .int 1],
          [.bool false, .bool true, .selection [.text "y"], .int 1],
          [.bool false, .bool true, .selection [.text "x", .text "y"], .int 1]] ∧
      enumerate ⟨Examples.overlappingModel, {}⟩ (.ofFact ⟨1, .bool true⟩) 1 =
        .ok [.ofValues Examples.overlappingModel
          [.bool false, .bool true, .selection [.text "x"], .int 1]] := by
  have built : Examples.overlapping.build 0 = .ok Examples.overlappingModel := rfl
  have small : Examples.overlappingModel.valueCount ≤ enumerationLimit := by decide
  obtain ⟨walk, _, _, _, solver⟩ :=
    enumerate_eq_solutions built small (c := .ofFact ⟨1, .bool true⟩) rfl
  exact ⟨built, small, rfl, walk 3, solver {} 1 rfl (by decide)⟩

end Solver

end DecisionSpace
