import DecisionSpace.Declaration
import DecisionSpace.Proofs.Domain
import DecisionSpace.Proofs.Tree
import Mathlib.Data.List.Forall2

/-!
# The layout of a declaration

A built model lists the scopes of its declaration in pre-order.  Each part of the
declaration, a scope with all that is below it, takes up one piece of the list of
scopes and one piece of the list of variables, and these pieces are the layout of
the part from their first places on.  So what holds of a scope of the model is
read off the layout of one declaration, and the scopes of a built model form a
tree.
-/

set_option autoImplicit false

namespace DecisionSpace

open Fallible
open DecisionSpace.Path

structure Model.SameLayout (m m' : Model) : Prop where
  scopes : m'.scopes = m.scopes
  vars : m'.vars = m.vars

namespace Declaration

mutual

def preorder (names : List String) : Declaration → List (List String × Declaration)
  | ⟨name, vars, limits, children⟩ =>
      (names, ⟨name, vars, limits, children⟩) :: preorderChildren names children

def preorderChildren (names : List String) : List Declaration → List (List String × Declaration)
  | [] => []
  | child :: rest => preorder (names ++ [child.name]) child ++ preorderChildren names rest

end

/-! ## What the checks accept -/

theorem checkName_ok_iff (what : Named) (name : String) :
    checkName what name = .ok () ↔ IsName name := by
  simp only [checkName]
  by_cases empty : name = ""
  · subst empty
    exact ⟨fun accepted => absurd accepted (by simp), fun named => absurd rfl named.nonempty⟩
  · rw [if_neg (by simpa using empty)]
    by_cases separated : hasSeparator name = true
    · rw [if_pos separated]
      exact ⟨fun accepted => absurd accepted (by simp),
        fun named => absurd separated (by simp [named.plain])⟩
    · rw [if_neg separated]
      exact ⟨fun _ => ⟨empty, by simpa using separated⟩, fun _ => rfl⟩

theorem nodup_fresh_cons_iff {α β : Type} (key : α → β) (x : α) (rest : List α) (met : List β) :
    ((x :: rest).map key).Nodup ∧ (∀ y ∈ x :: rest, key y ∉ met) ↔
      key x ∉ met ∧ (rest.map key).Nodup ∧ ∀ y ∈ rest, key y ∉ key x :: met := by
  simp only [List.map_cons, List.nodup_cons, List.mem_cons, List.mem_map, forall_eq_or_imp, not_or,
    not_exists, not_and]
  constructor
  · rintro ⟨⟨new, nodup⟩, unknown, fresh⟩
    exact ⟨unknown, nodup, fun y member => ⟨new y member, fresh y member⟩⟩
  · rintro ⟨unknown, nodup, fresh⟩
    exact ⟨⟨fun y member => (fresh y member).1, nodup⟩, unknown, fun y member => (fresh y member).2⟩

theorem checkVariables_ok_iff (scope path : String) (met : List String)
    (vars : List (String × Domain)) :
    checkVariables scope path met vars = .ok () ↔
      (∀ v ∈ vars, IsName v.1 ∧ v.2.Sound) ∧ (vars.map (·.1)).Nodup ∧ ∀ v ∈ vars, v.1 ∉ met := by
  induction vars generalizing met with
  | nil => simp [checkVariables]
  | cons v rest ih =>
      obtain ⟨name, domain⟩ := v
      simp only [checkVariables, check_bind_ok_iff, checkName_ok_iff]
      by_cases known : name ∈ met
      · simp [known]
      · rw [if_neg known, check_bind_ok_iff, mapError_ok_iff, Domain.check_ok_iff, ih,
          nodup_fresh_cons_iff, List.forall_mem_cons]
        constructor
        · rintro ⟨named, sound, each, fresh⟩
          exact ⟨⟨⟨named, sound⟩, each⟩, known, fresh⟩
        · rintro ⟨⟨⟨named, sound⟩, each⟩, _, fresh⟩
          exact ⟨named, sound, each, fresh⟩

theorem checkChildren_ok_iff (scope path : String) (met : List String)
    (children : List Declaration) :
    checkChildren scope path met children = .ok () ↔
      (∀ c ∈ children, check (join path c.name) c = .ok ()) ∧ (children.map (·.name)).Nodup ∧
        ∀ c ∈ children, c.name ∉ met := by
  induction children generalizing met with
  | nil => simp [checkChildren]
  | cons c rest ih =>
      simp only [checkChildren]
      by_cases known : c.name ∈ met
      · simp [known]
      · rw [if_neg known, check_bind_ok_iff, ih, nodup_fresh_cons_iff, List.forall_mem_cons]
        constructor
        · rintro ⟨own, each, fresh⟩
          exact ⟨⟨own, each⟩, known, fresh⟩
        · rintro ⟨⟨own, each⟩, _, fresh⟩
          exact ⟨own, each, fresh⟩

theorem check_ok_iff (path : String) (d : Declaration) :
    check path d = .ok () ↔
      IsName d.name ∧
      ((∀ v ∈ d.vars, IsName v.1 ∧ v.2.Sound) ∧ (d.vars.map (·.1)).Nodup) ∧
      (∀ c ∈ d.children, check (join path c.name) c = .ok ()) ∧ (d.children.map (·.name)).Nodup := by
  obtain ⟨name, vars, limits, children⟩ := d
  simp only [check, check_bind_ok_iff, checkName_ok_iff, checkVariables_ok_iff,
    checkChildren_ok_iff]
  simp

/-! ## Pieces of lists -/

/-- The list `xs` takes up the places of `all` from `n` on. -/
def StandsAt {α : Type} (xs all : List α) (n : Nat) : Prop :=
  ∀ i x, xs[i]? = some x → all[n + i]? = some x

theorem standsAt_self {α : Type} (all : List α) : StandsAt all all 0 := by
  intro i x held
  rwa [Nat.zero_add]

theorem StandsAt.head {α : Type} {x : α} {xs all : List α} {n : Nat}
    (stands : StandsAt (x :: xs) all n) : all[n]? = some x :=
  stands 0 x rfl

theorem StandsAt.tail {α : Type} {x : α} {xs all : List α} {n : Nat}
    (stands : StandsAt (x :: xs) all n) : StandsAt xs all (n + 1) := by
  intro i y held
  rw [Nat.add_assoc, Nat.add_comm 1]
  exact stands (i + 1) y held

theorem StandsAt.left {α : Type} {xs ys all : List α} {n : Nat}
    (stands : StandsAt (xs ++ ys) all n) : StandsAt xs all n := by
  intro i x held
  obtain ⟨inLeft, _⟩ := List.getElem?_eq_some_iff.mp held
  apply stands i x
  rwa [List.getElem?_append_left inLeft]

theorem StandsAt.right {α : Type} {xs ys all : List α} {n : Nat}
    (stands : StandsAt (xs ++ ys) all n) : StandsAt ys all (n + xs.length) := by
  intro i y held
  rw [Nat.add_assoc]
  apply stands (xs.length + i) y
  rwa [List.getElem?_append_right (Nat.le_add_right _ _), Nat.add_sub_cancel_left]

theorem StandsAt.lt_length {α : Type} {xs all : List α} {n i : Nat} (stands : StandsAt xs all n)
    (inRange : i < xs.length) : n + i < all.length :=
  (List.getElem?_eq_some_iff.mp (stands i xs[i] (List.getElem?_eq_getElem inRange))).1

mutual

theorem length_scopes_layout (parent : Option Nat) (path : String) (scope first : Nat)
    (names : List String) : ∀ d : Declaration,
      (layout parent path scope first d).scopes.length = (preorder names d).length
  | ⟨name, vars, limits, children⟩ => by
      simp only [layout, preorder, List.length_cons]
      rw [length_scopes_layoutChildren]

theorem length_scopes_layoutChildren (parent : Nat) (path : String) (scope first : Nat)
    (names : List String) : ∀ children : List Declaration,
      (layoutChildren parent path scope first children).scopes.length =
        (preorderChildren names children).length
  | [] => rfl
  | child :: rest => by
      simp only [layoutChildren, Layout.append, preorderChildren, List.length_append]
      rw [length_scopes_layout _ _ _ _ (names ++ [child.name]) child,
        length_scopes_layoutChildren _ _ _ _ names rest]

end

/-! ## Parts of a declaration -/

/-- A scope of the declaration `d`, with all that is below it, and the places that
it takes up in a model. -/
structure Part (d : Declaration) (m : Model) (parent : Option Nat) (names : List String)
    (scope first : Nat) (e : Declaration) : Prop where
  listed : StandsAt (preorder names e) (preorder [] d) scope
  scopes : StandsAt (layout parent (ofNames names) scope first e).scopes m.scopes scope
  vars : StandsAt (layout parent (ofNames names) scope first e).vars m.vars first
  sound : check (ofNames names) e = .ok ()
  named : ∀ name ∈ names, IsName name

structure Parts (d : Declaration) (m : Model) (parent : Nat) (names : List String)
    (scope first : Nat) (children : List Declaration) : Prop where
  listed : StandsAt (preorderChildren names children) (preorder [] d) scope
  scopes : StandsAt (layoutChildren parent (ofNames names) scope first children).scopes m.scopes scope
  vars : StandsAt (layoutChildren parent (ofNames names) scope first children).vars m.vars first
  sound : ∀ c ∈ children, check (join (ofNames names) c.name) c = .ok ()
  named : ∀ name ∈ names, IsName name

section
variable {d e child : Declaration} {m : Model} {parent : Option Nat} {top scope first : Nat}
  {names : List String} {rest : List Declaration}

def headScope (parent : Option Nat) (names : List String) (scope first : Nat) (e : Declaration) : Scope where
  name := e.name
  path := ofNames names
  parent := parent
  children :=
    (layoutChildren scope (ofNames names) (scope + 1) (first + e.vars.length) e.children).roots
  first := first
  own := e.vars.length
  size := e.vars.length +
    (layoutChildren scope (ofNames names) (scope + 1) (first + e.vars.length) e.children).vars.length

theorem scopes_layout (parent : Option Nat) (names : List String) (scope first : Nat) (e : Declaration) :
    (layout parent (ofNames names) scope first e).scopes = headScope parent names scope first e ::
      (layoutChildren scope (ofNames names) (scope + 1) (first + e.vars.length) e.children).scopes := by
  obtain ⟨name, vars, limits, children⟩ := e
  simp only [layout, headScope, List.length_map]

theorem vars_layout (parent : Option Nat) (names : List String) (scope first : Nat) (e : Declaration) :
    (layout parent (ofNames names) scope first e).vars =
      e.vars.map (fun v => ⟨scope, v.1, join (ofNames names) v.1, v.2⟩) ++
      (layoutChildren scope (ofNames names) (scope + 1) (first + e.vars.length) e.children).vars := by
  obtain ⟨name, vars, limits, children⟩ := e
  simp only [layout, List.length_map]

theorem roots_layout (parent : Option Nat) (path : String) (scope first : Nat) (e : Declaration) :
    (layout parent path scope first e).roots = [scope] := by
  obtain ⟨name, vars, limits, children⟩ := e
  simp only [layout]

theorem preorder_eq (names : List String) (e : Declaration) :
    preorder names e = (names, e) :: preorderChildren names e.children := by
  obtain ⟨name, vars, limits, children⟩ := e
  simp only [preorder]

theorem Part.scope_eq (part : Part d m parent names scope first e) :
    m.scopes[scope]? = some (headScope parent names scope first e) := by
  have stands := part.scopes
  rw [scopes_layout] at stands
  exact stands.head

theorem Part.scopeAt (part : Part d m parent names scope first e) :
    m.scopeAt scope = headScope parent names scope first e := by
  simp [Model.scopeAt, part.scope_eq]

theorem Part.entry (part : Part d m parent names scope first e) :
    (preorder [] d)[scope]? = some (names, e) := by
  have stands := part.listed
  rw [preorder_eq] at stands
  exact stands.head

theorem layoutChildren_cons (named : ∀ name ∈ names, IsName name) (top scope first : Nat)
    (child : Declaration) (rest : List Declaration) :
    layoutChildren top (ofNames names) scope first (child :: rest) =
      (layout (some top) (ofNames (names ++ [child.name])) scope first child).append
        (layoutChildren top (ofNames names) (scope + (preorder (names ++ [child.name]) child).length)
          (first +
            (layout (some top) (ofNames (names ++ [child.name])) scope first child).vars.length)
          rest) := by
  simp only [layoutChildren, join_ofNames named]
  rw [length_scopes_layout _ _ _ _ (names ++ [child.name])]

theorem Part.below (part : Part d m parent names scope first e) :
    Parts d m scope names (scope + 1) (first + e.vars.length) e.children := by
  obtain ⟨listed, scopes, vars, sound, named⟩ := part
  rw [preorder_eq] at listed
  rw [scopes_layout] at scopes
  rw [vars_layout] at vars
  have ownVars := vars.right
  rw [List.length_map] at ownVars
  exact ⟨listed.tail, scopes.tail, ownVars, ((check_ok_iff _ _).mp sound).2.2.1, named⟩

theorem Parts.head (parts : Parts d m top names scope first (child :: rest)) :
    Part d m (some top) (names ++ [child.name]) scope first child := by
  obtain ⟨listed, scopes, vars, sound, named⟩ := parts
  have own := sound child List.mem_cons_self
  rw [join_ofNames named] at own
  rw [layoutChildren_cons named] at scopes vars
  exact ⟨listed.left, scopes.left, vars.left, own,
    isName_append named ((check_ok_iff _ _).mp own).1⟩

theorem Parts.tail (parts : Parts d m top names scope first (child :: rest)) :
    Parts d m top names (scope + (preorder (names ++ [child.name]) child).length)
      (first + (layout (some top) (ofNames (names ++ [child.name])) scope first child).vars.length)
      rest := by
  obtain ⟨listed, scopes, vars, sound, named⟩ := parts
  rw [layoutChildren_cons named] at scopes vars
  have scopesRight := scopes.right
  rw [length_scopes_layout _ _ _ _ (names ++ [child.name])] at scopesRight
  exact ⟨listed.right, scopesRight, vars.right,
    fun c member => sound c (List.mem_cons_of_mem _ member), named⟩

theorem Parts.roots (parts : Parts d m top names scope first rest) :
    List.Forall₂
      (fun id c => scope ≤ id ∧ ∃ first', Part d m (some top) (names ++ [c.name]) id first' c)
      (layoutChildren top (ofNames names) scope first rest).roots rest := by
  induction rest generalizing scope first with
  | nil => exact .nil
  | cons child rest ih =>
      rw [layoutChildren_cons parts.named]
      simp only [Layout.append, roots_layout, List.singleton_append]
      refine .cons ⟨Nat.le_refl _, first, parts.head⟩ ((ih parts.tail).imp fun id c both => ⟨?_, both.2⟩)
      exact Nat.le_trans (Nat.le_add_right _ _) both.1

theorem Part.children (part : Part d m parent names scope first e) :
    List.Forall₂
      (fun id c => scope < id ∧ ∃ first', Part d m (some scope) (names ++ [c.name]) id first' c)
      (m.scopeAt scope).children e.children := by
  rw [part.scopeAt]
  exact part.below.roots

theorem Part.own (part : Part d m parent names scope first e) :
    (m.scopeAt scope).vars.map m.variableAt =
      e.vars.map fun v => ⟨scope, v.1, join (ofNames names) v.1, v.2⟩ := by
  have stands := part.vars
  rw [vars_layout] at stands
  rw [part.scopeAt]
  apply List.ext_getElem
  · simp [Scope.vars, headScope]
  · intro i inOwn inVars
    have held := stands.left i _ (List.getElem?_eq_getElem inVars)
    simp [Scope.vars, headScope, Model.variableAt, held]

theorem Parts.span (parts : Parts d m top names scope first rest) (v : Nat) :
    (∃ id ∈ (layoutChildren top (ofNames names) scope first rest).roots,
        (m.scopeAt id).contains v = true) ↔
      first ≤ v ∧ v < first + (layoutChildren top (ofNames names) scope first rest).vars.length := by
  induction rest generalizing scope first with
  | nil => simp [layoutChildren, Layout.empty]
  | cons child rest ih =>
      -- the range of a child ends where that of the next one begins
      have own := parts.head.scopeAt
      have size : (layout (some top) (ofNames (names ++ [child.name])) scope first child).vars.length =
          (headScope (some top) (names ++ [child.name]) scope first child).size := by
        rw [vars_layout, List.length_append, List.length_map]
        rfl
      rw [layoutChildren_cons parts.named]
      simp only [Layout.append, roots_layout, List.singleton_append, List.length_append]
      rw [List.exists_mem_cons_iff, ih parts.tail, own, Scope.contains_iff, size]
      simp only [headScope]
      omega

theorem Part.span (part : Part d m parent names scope first e) (v : Nat) :
    (m.scopeAt scope).contains v = true ↔
      v ∈ (m.scopeAt scope).vars ∨
        ∃ id ∈ (m.scopeAt scope).children, (m.scopeAt id).contains v = true := by
  have below := part.below.span v
  rw [part.scopeAt, Scope.contains_iff, Scope.vars, List.mem_range'_1]
  simp only [headScope]
  rw [below]
  omega

end

mutual

theorem Part.exists_at {d : Declaration} {m : Model} {parent : Option Nat} {names : List String}
    {scope first : Nat} : ∀ e : Declaration, Part d m parent names scope first e →
      m.Below 0 scope names → ∀ id, scope ≤ id → id < scope + (preorder names e).length →
      ∃ names' e' parent' first', m.Below 0 id names' ∧ Part d m parent' names' id first' e'
  | ⟨name, vars, limits, children⟩ => by
      -- the first place is that of the scope itself, the others belong to its children
      intro part reached id atLeast atMost
      simp only [preorder, List.length_cons] at atMost
      rcases Nat.eq_or_lt_of_le atLeast with rfl | later
      · exact ⟨_, _, _, _, reached, part⟩
      · have listed : ∀ next ∈ (layoutChildren scope (ofNames names) (scope + 1)
            (first + vars.length) children).roots, next ∈ (m.scopeAt scope).children := by
          intro next member
          rw [part.scopeAt]
          exact member
        exact Parts.exists_at children part.below reached listed id later (by omega)

theorem Parts.exists_at {d : Declaration} {m : Model} {top : Nat} {names : List String}
    {scope first : Nat} : ∀ rest : List Declaration, Parts d m top names scope first rest →
      m.Below 0 top names →
      (∀ next ∈ (layoutChildren top (ofNames names) scope first rest).roots,
        next ∈ (m.scopeAt top).children) →
      ∀ id, scope ≤ id → id < scope + (preorderChildren names rest).length →
      ∃ names' e' parent' first', m.Below 0 id names' ∧ Part d m parent' names' id first' e'
  | [] => by
      intro _ _ _ id atLeast atMost
      simp [preorderChildren] at atMost
      omega
  | child :: rest => by
      intro parts reached listed id atLeast atMost
      rw [layoutChildren_cons parts.named] at listed
      simp only [Layout.append, roots_layout, List.singleton_append, List.forall_mem_cons] at listed
      simp only [preorderChildren, List.length_append] at atMost
      have head := parts.head
      rcases Nat.lt_or_ge id (scope + (preorder (names ++ [child.name]) child).length) with inside | outside
      · have below : m.Below 0 scope (names ++ [(m.scopeAt scope).name]) := .child reached listed.1
        rw [head.scopeAt] at below
        exact Part.exists_at child head below id atLeast inside
      · exact Parts.exists_at rest parts.tail reached listed.2 id outside (by omega)

end

/-! ## Variables in pre-order -/

def variablesOf (entry : (List String × Declaration) × Nat) : List Variable :=
  entry.1.2.vars.map fun v => ⟨entry.2, v.1, ofNames (entry.1.1 ++ [v.1]), v.2⟩

mutual

theorem layout_vars (parent : Option Nat) (scope first : Nat) (names : List String)
    (named : ∀ name ∈ names, IsName name) : ∀ e : Declaration, check (ofNames names) e = .ok () →
      (layout parent (ofNames names) scope first e).vars =
        ((preorder names e).zipIdx scope).flatMap variablesOf
  | ⟨name, vars, limits, children⟩ => by
      intro sound
      have each := ((check_ok_iff _ _).mp sound).2.2.1
      rw [vars_layout, preorder_eq, List.zipIdx_cons, List.flatMap_cons,
        layoutChildren_vars scope (scope + 1) _ names named children each]
      simp only [variablesOf, join_ofNames named]

theorem layoutChildren_vars (top scope first : Nat) (names : List String)
    (named : ∀ name ∈ names, IsName name) : ∀ children : List Declaration,
      (∀ c ∈ children, check (join (ofNames names) c.name) c = .ok ()) →
      (layoutChildren top (ofNames names) scope first children).vars =
        ((preorderChildren names children).zipIdx scope).flatMap variablesOf
  | [] => by
      intro _
      rfl
  | child :: rest => by
      intro sound
      obtain ⟨head, tail⟩ := List.forall_mem_cons.mp sound
      rw [join_ofNames named] at head
      have childNamed := isName_append named ((check_ok_iff _ _).mp head).1
      rw [layoutChildren_cons named]
      simp only [Layout.append, preorderChildren]
      rw [List.zipIdx_append, List.flatMap_append,
        layout_vars (some top) scope first (names ++ [child.name]) childNamed child head,
        layoutChildren_vars top _ _ names named rest tail]

end

/-! ## Whole models -/

section
variable {d e : Declaration} {m : Model} {parent : Option Nat} {scope first : Nat}
  {names : List String}

theorem Part.lt_length (part : Part d m parent names scope first e) : scope < m.scopes.length :=
  (List.getElem?_eq_some_iff.mp part.scope_eq).1

theorem Part.exists_child (part : Part d m parent names scope first e) {next : Nat}
    (member : next ∈ (m.scopeAt scope).children) :
    scope < next ∧ ∃ c ∈ e.children, ∃ first', Part d m (some scope) (names ++ [c.name]) next first' c := by
  obtain ⟨c, declared, later, first', child⟩ := exists_of_forall₂ part.children member
  exact ⟨later, c, declared, first', child⟩

theorem Part.isChild (part : Part d m parent names scope first e) {next : Nat}
    (member : next ∈ (m.scopeAt scope).children) : m.IsChild scope next := by
  obtain ⟨later, c, _, first', child⟩ := part.exists_child member
  refine ⟨child.lt_length, ?_, later, ?_, ?_⟩
  · rw [child.scopeAt]
    rfl
  · rw [child.scopeAt]
    exact ((check_ok_iff _ _).mp child.sound).1
  · rw [child.scopeAt, part.scopeAt]
    exact (join_ofNames part.named _).symm

theorem Part.childNames (part : Part d m parent names scope first e) :
    ((m.scopeAt scope).children.map fun next => (m.scopeAt next).name) = e.children.map (·.name) := by
  apply List.forall₂_eq_eq_eq ▸ List.forall₂_map_left_iff.mpr (List.forall₂_map_right_iff.mpr _)
  refine part.children.imp fun id c both => ?_
  obtain ⟨_, first', child⟩ := both
  rw [child.scopeAt]
  rfl

theorem Part.own_lt (part : Part d m parent names scope first e) {v : Nat}
    (listed : v ∈ (m.scopeAt scope).vars) : v < m.vars.length := by
  have stands := part.vars
  rw [vars_layout] at stands
  rw [part.scopeAt] at listed
  obtain ⟨i, inRange, rfl⟩ := List.mem_range'.mp listed
  rw [Nat.one_mul]
  exact stands.left.lt_length (by rw [List.length_map]; exact inRange)

theorem Part.exists_declared (part : Part d m parent names scope first e) {v : Nat}
    (listed : v ∈ (m.scopeAt scope).vars) : ∃ declared ∈ e.vars,
      m.variableAt v = ⟨scope, declared.1, join (ofNames names) declared.1, declared.2⟩ := by
  have held : m.variableAt v ∈ (m.scopeAt scope).vars.map m.variableAt := List.mem_map_of_mem listed
  rw [part.own] at held
  obtain ⟨declared, inVars, same⟩ := List.mem_map.mp held
  exact ⟨declared, inVars, same.symm⟩

theorem Part.isOwn (part : Part d m parent names scope first e) {v : Nat}
    (listed : v ∈ (m.scopeAt scope).vars) : m.IsOwn scope v := by
  obtain ⟨declared, inVars, same⟩ := part.exists_declared listed
  refine ⟨part.own_lt listed, ?_, ?_, ?_⟩
  · rw [same]
  · rw [same]
    exact (((check_ok_iff _ _).mp part.sound).2.1.1 declared inVars).1
  · rw [same, part.scopeAt]
    rfl

theorem Part.domain_sound (part : Part d m parent names scope first e) {v : Nat}
    (listed : v ∈ (m.scopeAt scope).vars) : (m.variableAt v).domain.Sound := by
  obtain ⟨declared, inVars, same⟩ := part.exists_declared listed
  rw [same]
  exact (((check_ok_iff _ _).mp part.sound).2.1.1 declared inVars).2

theorem Part.ownNames (part : Part d m parent names scope first e) :
    ((m.scopeAt scope).vars.map fun v => (m.variableAt v).name) = e.vars.map (·.1) := by
  have own := congrArg (List.map Variable.name) part.own
  rw [List.map_map, List.map_map] at own
  exact own

end

/-- The model holds the layout of a declaration that passed its check. -/
structure Laid (d : Declaration) (m : Model) : Prop where
  checked : check "" d = .ok ()
  scopes : m.scopes = (layout none "" 0 0 d).scopes
  vars : m.vars = (layout none "" 0 0 d).vars

namespace Laid

variable {d : Declaration} {m : Model} (laid : Laid d m)

include laid

theorem part : Part d m none [] 0 0 d := by
  refine ⟨standsAt_self _, ?_, ?_, laid.checked, by simp⟩
  · rw [laid.scopes]
    exact standsAt_self _
  · rw [laid.vars]
    exact standsAt_self _

theorem scopes_length : m.scopes.length = (preorder [] d).length := by
  rw [laid.scopes, length_scopes_layout]

theorem exists_part {id : Nat} (inRange : id < m.scopes.length) :
    ∃ names e parent first, m.Below 0 id names ∧ Part d m parent names id first e := by
  rw [laid.scopes_length] at inRange
  exact Part.exists_at d laid.part .self id (Nat.zero_le _) (by omega)

theorem root_subtree : m.root.subtree = List.range m.vars.length := by
  have size : (headScope none [] 0 0 d).size = m.vars.length := by
    rw [laid.vars, ← ofNames_nil, vars_layout, List.length_append, List.length_map]
    rfl
  rw [Model.root, laid.part.scopeAt, Scope.subtree, size, List.range_eq_range']
  rfl

theorem isTree : m.IsTree := by
  have root := laid.part
  -- beyond the list there are empty scopes, for which nothing is to be shown
  have places : ∀ id, m.scopeAt id = default ∨
      ∃ names e parent first, m.Below 0 id names ∧ Part d m parent names id first e := by
    intro id
    by_cases inRange : id < m.scopes.length
    · exact .inr (laid.exists_part inRange)
    · exact .inl (by simp [Model.scopeAt, Nat.not_lt.mp inRange])
  constructor
  case reached =>
    intro id inRange
    obtain ⟨names, _, _, _, below, _⟩ := laid.exists_part inRange
    exact ⟨names, below⟩
  case nonempty => exact root.lt_length
  case orphan =>
    rw [Model.root, root.scopeAt]
    rfl
  case unnamed =>
    rw [Model.root, root.scopeAt]
    rfl
  case whole =>
    intro v
    rw [← Scope.mem_subtree_iff, laid.root_subtree, List.mem_range]
  case child =>
    intro id next member
    rcases places id with outside | ⟨_, _, _, _, _, part⟩
    · rw [outside] at member
      exact absurd member List.not_mem_nil
    · exact part.isChild member
  case childNames =>
    intro id
    rcases places id with outside | ⟨_, _, _, _, _, part⟩
    · rw [outside]
      exact List.nodup_nil
    · rw [part.childNames]
      exact ((check_ok_iff _ _).mp part.sound).2.2.2
  case own =>
    intro id v listed
    rcases places id with outside | ⟨_, _, _, _, _, part⟩
    · rw [outside] at listed
      exact absurd listed List.not_mem_nil
    · exact part.isOwn listed
  case ownNames =>
    intro id
    rcases places id with outside | ⟨_, _, _, _, _, part⟩
    · rw [outside]
      exact List.nodup_nil
    · rw [part.ownNames]
      exact ((check_ok_iff _ _).mp part.sound).2.1.2
  case span =>
    intro id v
    rcases places id with outside | ⟨_, _, _, _, _, part⟩
    · rw [outside]
      have empty : (default : Scope) = ⟨"", "", none, [], 0, 0, 0⟩ := rfl
      simp [empty, Scope.contains, Scope.vars]
    · exact part.span v

theorem domain_sound : ∀ v ∈ m.vars, v.domain.Sound := by
  intro v member
  obtain ⟨id, inRange, rfl⟩ := List.mem_iff_getElem.mp member
  have tree := laid.isTree
  obtain ⟨_, names, below⟩ := tree.declaredIn_root inRange
  obtain ⟨_, _, _, _, _, part⟩ := laid.exists_part (tree.lt_of_below tree.nonempty below)
  rw [← Model.variableAt_eq_getElem inRange]
  exact part.domain_sound ((tree.mem_vars_iff _ id).mpr ⟨inRange, rfl⟩)

end Laid

theorem build_laid {d : Declaration} {m : Model} {serial : Nat} (built : d.build serial = .ok m) :
    Laid d m := by
  obtain ⟨checked, built⟩ := check_bind_ok_iff.mp built
  obtain ⟨constraints, _, built⟩ := bind_ok_iff.mp built
  obtain rfl := Except.ok.inj built
  exact ⟨mapError_ok_iff.mp checked, rfl, rfl⟩

theorem sameLayout_of_build {serial serial' : Nat} {d : Declaration} {m m' : Model}
    (built : d.build serial = .ok m) (rebuilt : d.build serial' = .ok m') : m.SameLayout m' where
  scopes := (build_laid rebuilt).scopes.trans (build_laid built).scopes.symm
  vars := (build_laid rebuilt).vars.trans (build_laid built).vars.symm

end Declaration

end DecisionSpace
