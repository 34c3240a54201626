import DecisionSpace.Model
import DecisionSpace.Proofs.Fallible
import DecisionSpace.Proofs.Path
import Mathlib.Data.List.Induction
import Mathlib.Data.List.Nodup

/-!
# The tree of scopes

The scopes of a model form a tree through their lists of children.  `Below` walks
down this tree and collects the names of the scopes that it enters.  `IsTree`
says what holds of each scope and its children alone; from it follows what holds
of the whole tree: every scope is at the end of one way from the root, which is
its path, and the variables in the range of a scope are those declared in it or
below it.
-/

set_option autoImplicit false

namespace DecisionSpace

open Fallible
open DecisionSpace.Path

theorem Scope.contains_iff (s : Scope) (v : Nat) :
    s.contains v = true ↔ s.first ≤ v ∧ v < s.first + s.size := by
  simp [Scope.contains]

theorem Scope.mem_subtree_iff (s : Scope) (v : Nat) : v ∈ s.subtree ↔ s.contains v = true := by
  rw [Scope.contains_iff, Scope.subtree, List.mem_range'_1]

namespace Model

theorem scopeAt_eq_getElem {m : Model} {id : Nat} (inRange : id < m.scopes.length) :
    m.scopeAt id = m.scopes[id] := by
  simp [scopeAt, inRange]

theorem variableAt_of_getElem? {m : Model} {id : Nat} {v : Variable}
    (known : m.vars[id]? = some v) : m.variableAt id = v := by
  simp [variableAt, known]

theorem variableAt_eq_getElem {m : Model} {id : Nat} (inRange : id < m.vars.length) :
    m.variableAt id = m.vars[id] :=
  variableAt_of_getElem? (List.getElem?_eq_getElem inRange)

inductive Below (m : Model) (top : Nat) : Nat → List String → Prop where
  | self : Below m top top []
  | child {id next : Nat} {names : List String} (above : Below m top id names)
      (member : next ∈ (m.scopeAt id).children) :
      Below m top next (names ++ [(m.scopeAt next).name])

def DeclaredIn (m : Model) (id v : Nat) : Prop :=
  v < m.vars.length ∧ ∃ names, m.Below id (m.variableAt v).scope names

/-- The variable has a path from the scope: the names of the scopes on the way down
to it, then its own. -/
def PathFrom (m : Model) (id v : Nat) (path : String) : Prop :=
  v < m.vars.length ∧ ∃ names, m.Below id (m.variableAt v).scope names ∧
    path = ofNames (names ++ [(m.variableAt v).name])

structure IsChild (m : Model) (parent id : Nat) : Prop where
  inRange : id < m.scopes.length
  linked : (m.scopeAt id).parent = some parent
  later : parent < id
  named : IsName (m.scopeAt id).name
  path : (m.scopeAt id).path = join (m.scopeAt parent).path (m.scopeAt id).name

structure IsOwn (m : Model) (scope id : Nat) : Prop where
  inRange : id < m.vars.length
  declared : (m.variableAt id).scope = scope
  named : IsName (m.variableAt id).name
  path : (m.variableAt id).path = join (m.scopeAt scope).path (m.variableAt id).name

/-- The scopes form a tree, each next to the scopes and the variables it
declares. -/
structure IsTree (m : Model) : Prop where
  reached : ∀ id, id < m.scopes.length → ∃ names, m.Below 0 id names
  nonempty : 0 < m.scopes.length
  orphan : m.root.parent = none
  unnamed : m.root.path = ""
  whole : ∀ v, m.root.contains v = true ↔ v < m.vars.length
  child : ∀ id next, next ∈ (m.scopeAt id).children → m.IsChild id next
  childNames : ∀ id, ((m.scopeAt id).children.map fun next => (m.scopeAt next).name).Nodup
  own : ∀ id v, v ∈ (m.scopeAt id).vars → m.IsOwn id v
  ownNames : ∀ id, ((m.scopeAt id).vars.map fun v => (m.variableAt v).name).Nodup
  span : ∀ id v, (m.scopeAt id).contains v = true ↔
    v ∈ (m.scopeAt id).vars ∨ ∃ next ∈ (m.scopeAt id).children, (m.scopeAt next).contains v = true

/-! ## Ways through the tree -/

section
variable {m : Model} {top id other : Nat} {names more : List String}

theorem Below.trans (above : m.Below top id names) (below : m.Below id other more) :
    m.Below top other (names ++ more) := by
  induction below with
  | self =>
      rw [List.append_nil]
      exact above
  | child _ member ih =>
      rw [← List.append_assoc]
      exact .child ih member

theorem Below.of_child {next : Nat} (member : next ∈ (m.scopeAt id).children)
    (below : m.Below next other names) :
    m.Below id other ((m.scopeAt next).name :: names) := by
  have first : m.Below id next ([] ++ [(m.scopeAt next).name]) := .child .self member
  exact first.trans below

theorem below_append_singleton_iff {name : String} :
    m.Below top other (names ++ [name]) ↔
      ∃ id, m.Below top id names ∧ other ∈ (m.scopeAt id).children ∧ (m.scopeAt other).name = name := by
  constructor
  · intro below
    generalize all : names ++ [name] = way at below
    cases below with
    | self => simp at all
    | @child id _ way above member =>
        obtain ⟨rfl, last⟩ := List.append_inj' all rfl
        exact ⟨id, above, member, (List.singleton_inj.mp last).symm⟩
  · rintro ⟨id, above, member, rfl⟩
    exact .child above member

theorem below_nil_iff : m.Below top other [] ↔ other = top := by
  constructor
  · intro below
    generalize none : ([] : List String) = names at below
    cases below with
    | self => rfl
    | child => simp at none
  · rintro rfl
    exact .self

theorem Below.exists_between {all : List String} (below : m.Below top other all) :
    ∀ names more, all = names ++ more →
      ∃ id, m.Below top id names ∧ m.Below id other more := by
  -- a way is cut at its end first: either nothing is left behind the cut, or the last step is
  induction below with
  | self =>
      intro names more split
      obtain ⟨rfl, rfl⟩ := List.append_eq_nil_iff.mp split.symm
      exact ⟨top, .self, .self⟩
  | @child id next way above member ih =>
      intro names more split
      rcases List.eq_nil_or_concat more with rfl | ⟨init, last, rfl⟩
      · rw [List.append_nil] at split
        exact ⟨next, split ▸ .child above member, .self⟩
      · rw [List.concat_eq_append, ← List.append_assoc] at split
        obtain ⟨same, lastSame⟩ := List.append_inj' split rfl
        obtain ⟨between, first, second⟩ := ih names init same
        obtain rfl := List.singleton_inj.mp lastSame
        rw [List.concat_eq_append]
        exact ⟨between, first, .child second member⟩

end

namespace IsTree

variable {m : Model} (tree : m.IsTree)

include tree

theorem lt_of_below {top id : Nat} {names : List String} (inRange : top < m.scopes.length)
    (below : m.Below top id names) : id < m.scopes.length := by
  cases below with
  | self => exact inRange
  | child _ member => exact (tree.child _ _ member).inRange

theorem child_unique {id next other : Nat} (member : next ∈ (m.scopeAt id).children)
    (otherMember : other ∈ (m.scopeAt id).children)
    (same : (m.scopeAt next).name = (m.scopeAt other).name) : next = other :=
  List.inj_on_of_nodup_map (tree.childNames id) member otherMember same

theorem below_unique {top id other : Nat} {names : List String} (below : m.Below top id names)
    (again : m.Below top other names) : id = other := by
  induction below generalizing other with
  | self => exact (below_nil_iff.mp again).symm
  | @child id next way above member ih =>
      obtain ⟨mid, before, otherMember, same⟩ := below_append_singleton_iff.mp again
      obtain rfl := ih before
      exact tree.child_unique member otherMember same.symm

theorem named_of_below {top id : Nat} {names : List String} (below : m.Below top id names) :
    ∀ name ∈ names, IsName name := by
  induction below with
  | self => simp
  | @child id next way above member ih => exact isName_append ih (tree.child id next member).named

theorem path_of_below {id : Nat} {names : List String} (below : m.Below 0 id names) :
    (m.scopeAt id).path = ofNames names := by
  induction below with
  | self => exact tree.unnamed
  | @child id next way above member ih =>
      rw [(tree.child id next member).path, ih, join_ofNames (tree.named_of_below above)]

theorem names_unique {id : Nat} {names others : List String} (below : m.Below 0 id names)
    (again : m.Below 0 id others) : names = others :=
  ofNames_injective (tree.named_of_below below) (tree.named_of_below again)
    ((tree.path_of_below below).symm.trans (tree.path_of_below again))

theorem path_injective {id other : Nat} (inRange : id < m.scopes.length)
    (otherInRange : other < m.scopes.length)
    (same : (m.scopeAt id).path = (m.scopeAt other).path) : id = other := by
  obtain ⟨names, below⟩ := tree.reached id inRange
  obtain ⟨others, otherBelow⟩ := tree.reached other otherInRange
  rw [tree.path_of_below below, tree.path_of_below otherBelow] at same
  obtain rfl := ofNames_injective (tree.named_of_below below) (tree.named_of_below otherBelow) same
  exact tree.below_unique below otherBelow

theorem mem_children_iff (id next : Nat) :
    next ∈ (m.scopeAt id).children ↔
      next < m.scopes.length ∧ (m.scopeAt next).parent = some id := by
  constructor
  · intro member
    have child := tree.child id next member
    exact ⟨child.inRange, child.linked⟩
  · rintro ⟨inRange, linked⟩
    obtain ⟨names, below⟩ := tree.reached next inRange
    cases below with
    | self =>
        have orphan : (m.scopeAt 0).parent = none := tree.orphan
        rw [orphan] at linked
        exact absurd linked (by simp)
    | @child above _ _ _ member =>
        have same := (tree.child above next member).linked
        obtain rfl := Option.some.inj (same.symm.trans linked)
        exact member

/-! ## Following names -/

theorem child_ok_iff (id next : Nat) (name : String) :
    m.child id name = .ok next ↔ next ∈ (m.scopeAt id).children ∧ (m.scopeAt next).name = name := by
  simp only [Model.child]
  cases search : (m.scopeAt id).children.find? fun c => (m.scopeAt c).name = name with
  | none =>
      have others := List.find?_eq_none.mp search
      constructor
      · intro found
        exact absurd found (by simp)
      · rintro ⟨member, same⟩
        exact absurd same (by simpa using others next member)
  | some found =>
      have member := List.mem_of_find?_eq_some search
      have same : (m.scopeAt found).name = name := by simpa using List.find?_some search
      constructor
      · intro result
        obtain rfl := Except.ok.inj result
        exact ⟨member, same⟩
      · rintro ⟨nextMember, nextSame⟩
        rw [tree.child_unique member nextMember (same.trans nextSame.symm)]

theorem foldlM_child_iff (top id : Nat) (names : List String) :
    names.foldlM m.child top = .ok id ↔ m.Below top id names := by
  induction names using List.reverseRecOn generalizing id with
  | nil =>
      rw [below_nil_iff, List.foldlM_nil]
      exact ⟨fun same => (Except.ok.inj same).symm, fun same => same ▸ rfl⟩
  | append_singleton names name ih =>
      rw [List.foldlM_append, bind_ok_iff, below_append_singleton_iff]
      refine exists_congr fun mid => and_congr (ih mid) ?_
      simp only [List.foldlM_cons, List.foldlM_nil, bind_pure]
      exact tree.child_ok_iff mid id name

/-! ## Ranges of variables -/

theorem exists_own {id v : Nat} (contained : (m.scopeAt id).contains v = true) :
    ∃ scope names, m.Below id scope names ∧ v ∈ (m.scopeAt scope).vars := by
  -- a child stands later in the list of scopes, so the way down ends
  induction fuel : m.scopes.length - id using Nat.strongRecOn generalizing id with
  | ind rest ih =>
      rcases (tree.span id v).mp contained with own | ⟨next, member, inside⟩
      · exact ⟨id, [], .self, own⟩
      · have child := tree.child id next member
        have inRange := child.inRange
        have later := child.later
        obtain ⟨scope, names, below, own⟩ := ih _ (by omega) inside rfl
        exact ⟨scope, _, .of_child member below, own⟩

theorem contains_of_below {top id v : Nat} {names : List String} (below : m.Below top id names)
    (contained : (m.scopeAt id).contains v = true) : (m.scopeAt top).contains v = true := by
  induction below with
  | self => exact contained
  | @child id next _ _ member ih => exact ih ((tree.span id v).mpr (.inr ⟨next, member, contained⟩))

theorem mem_vars_iff (id v : Nat) :
    v ∈ (m.scopeAt id).vars ↔ v < m.vars.length ∧ (m.variableAt v).scope = id := by
  constructor
  · intro listed
    have own := tree.own id v listed
    exact ⟨own.inRange, own.declared⟩
  · rintro ⟨inRange, declared⟩
    obtain ⟨scope, _, _, listed⟩ := tree.exists_own ((tree.whole v).mpr inRange)
    have same := (tree.own scope v listed).declared
    obtain rfl := same.symm.trans declared
    exact listed

/-- The range of a scope holds exactly the variables declared in it or below it. -/
theorem contains_iff (id v : Nat) :
    (m.scopeAt id).contains v = true ↔ m.DeclaredIn id v := by
  constructor
  · intro contained
    obtain ⟨scope, names, below, listed⟩ := tree.exists_own contained
    have own := tree.own scope v listed
    exact ⟨own.inRange, names, own.declared ▸ below⟩
  · rintro ⟨inVars, names, below⟩
    apply tree.contains_of_below below
    exact (tree.span _ v).mpr (.inl ((tree.mem_vars_iff _ v).mpr ⟨inVars, rfl⟩))

/-! ## Paths of variables -/

theorem isOwn {v : Nat} (inRange : v < m.vars.length) : m.IsOwn (m.variableAt v).scope v :=
  tree.own _ v ((tree.mem_vars_iff _ v).mpr ⟨inRange, rfl⟩)

theorem declaredIn_root {v : Nat} (inRange : v < m.vars.length) : m.DeclaredIn 0 v :=
  (tree.contains_iff 0 v).mp ((tree.whole v).mpr inRange)

theorem named_of_variable {top v : Nat} {names : List String} (inRange : v < m.vars.length)
    (below : m.Below top (m.variableAt v).scope names) :
    ∀ name ∈ names ++ [(m.variableAt v).name], IsName name :=
  isName_append (tree.named_of_below below) (tree.isOwn inRange).named

theorem variable_path {v : Nat} {names : List String} (inRange : v < m.vars.length)
    (below : m.Below 0 (m.variableAt v).scope names) :
    (m.variableAt v).path = ofNames (names ++ [(m.variableAt v).name]) := by
  rw [(tree.isOwn inRange).path, tree.path_of_below below, join_ofNames (tree.named_of_below below)]

theorem pathFrom_unique {id v other : Nat} {path : String} (leads : m.PathFrom id v path)
    (again : m.PathFrom id other path) : v = other := by
  obtain ⟨inRange, names, below, rfl⟩ := leads
  obtain ⟨otherInRange, others, otherBelow, same⟩ := again
  have names := ofNames_injective (tree.named_of_variable inRange below)
    (tree.named_of_variable otherInRange otherBelow) same
  obtain ⟨rfl, last⟩ := List.append_inj' names rfl
  have sameScope := tree.below_unique below otherBelow
  have listed := (tree.mem_vars_iff _ v).mpr ⟨inRange, rfl⟩
  have otherListed := (tree.mem_vars_iff _ other).mpr ⟨otherInRange, sameScope.symm⟩
  exact List.inj_on_of_nodup_map (tree.ownNames _) listed otherListed (List.singleton_inj.mp last)

theorem variable_path_injective {v other : Nat} (inRange : v < m.vars.length)
    (otherInRange : other < m.vars.length)
    (same : (m.variableAt v).path = (m.variableAt other).path) : v = other := by
  obtain ⟨_, names, below⟩ := tree.declaredIn_root inRange
  obtain ⟨_, others, otherBelow⟩ := tree.declaredIn_root otherInRange
  refine tree.pathFrom_unique ⟨inRange, names, below, tree.variable_path inRange below⟩ ?_
  exact ⟨otherInRange, others, otherBelow, same.trans (tree.variable_path otherInRange otherBelow)⟩

theorem findIdx?_path_iff (path : String) (v : Nat) :
    m.vars.findIdx? (·.path = path) = some v ↔
      v < m.vars.length ∧ (m.variableAt v).path = path := by
  rw [List.findIdx?_eq_some_iff_getElem]
  constructor
  · rintro ⟨inRange, same, _⟩
    rw [variableAt_eq_getElem inRange]
    exact ⟨inRange, by simpa using same⟩
  · rintro ⟨inRange, rfl⟩
    rw [variableAt_eq_getElem inRange]
    refine ⟨inRange, by simp, fun earlier before found => ?_⟩
    have earlierInRange := Nat.lt_trans before inRange
    rw [decide_eq_true_eq, ← variableAt_eq_getElem earlierInRange,
      ← variableAt_eq_getElem inRange] at found
    exact Nat.ne_of_lt before (tree.variable_path_injective earlierInRange inRange found)

theorem pathFrom_iff {id v : Nat} (inRange : id < m.scopes.length) (path : String) :
    m.PathFrom id v path ↔
      v < m.vars.length ∧ (m.variableAt v).path = join (m.scopeAt id).path path := by
  obtain ⟨above, reached⟩ := tree.reached id inRange
  have named := tree.named_of_below reached
  rw [tree.path_of_below reached]
  constructor
  · rintro ⟨inVars, names, below, rfl⟩
    refine ⟨inVars, ?_⟩
    rw [join_ofNames_ofNames named (by simp), ← List.append_assoc]
    exact tree.variable_path inVars (reached.trans below)
  · rintro ⟨inVars, same⟩
    obtain ⟨_, way, below⟩ := tree.declaredIn_root inVars
    rw [tree.variable_path inVars below] at same
    -- the names of the variable begin with those of the scope, so its way passes the scope
    obtain ⟨rest, filled, split, rfl⟩ := (join_eq_ofNames_iff named
      (tree.named_of_variable inVars below) (by simp) path).mp same.symm
    obtain ⟨names, last, rfl⟩ := (List.eq_nil_or_concat rest).resolve_left filled
    rw [List.concat_eq_append, ← List.append_assoc] at split
    obtain ⟨rfl, sameLast⟩ := List.append_inj' split rfl
    obtain ⟨between, first, second⟩ := below.exists_between above names rfl
    obtain rfl := tree.below_unique first reached
    exact ⟨inVars, names, second, by rw [List.concat_eq_append, sameLast]⟩

theorem pathFrom_relativeTo {id v : Nat} (inRange : id < m.scopes.length)
    (declared : m.DeclaredIn id v) :
    m.PathFrom id v (relativeTo (m.scopeAt id).path (m.variableAt v).path) := by
  obtain ⟨inVars, names, below⟩ := declared
  obtain ⟨above, reached⟩ := tree.reached id inRange
  refine ⟨inVars, names, below, ?_⟩
  rw [tree.path_of_below reached, tree.variable_path inVars (reached.trans below),
    List.append_assoc]
  exact relativeTo_ofNames (tree.named_of_below reached) (by simp)

end IsTree

end Model

end DecisionSpace
