import DecisionSpace.Proofs.FirstOccurrence
import DecisionSpace.Proofs.Resolution

/-!
# What the builder accepts

A declaration is well formed when each of its scopes is sound by itself and each
of its constraints names enough variables of the model that the tree is laid out
in.  The builder accepts exactly the well formed declarations.  The constraints
of the model then follow the scopes in pre-order, and each lists the variables
that its references name, in the order in which they are named first.
-/

set_option autoImplicit false

namespace DecisionSpace

open Fallible
open FirstOccurrence
open DecisionSpace.Path

namespace Declaration

/-! ## Well formed declarations -/

structure SoundScope (e : Declaration) : Prop where
  named : IsName e.name
  vars : ∀ v ∈ e.vars, IsName v.1 ∧ v.2.Sound
  varNames : (e.vars.map (·.1)).Nodup
  childNames : (e.children.map (·.name)).Nodup

def declaredLimits (d : Declaration) : List (Nat × AtMost) :=
  (preorder [] d).zipIdx.flatMap fun entry => entry.1.2.limits.map fun l => (entry.2, l)

/-- The model that references are resolved in: the scopes and variables of the
declaration, still without constraints. -/
def frozen (serial : Nat) (d : Declaration) : Model :=
  ⟨serial, (layout none "" 0 0 d).scopes, (layout none "" 0 0 d).vars, []⟩

def AtMost.Names (m : Model) (scope : Nat) (l : AtMost) (ids : List Nat) : Prop :=
  List.Forall₂ (fun reference v => m.resolveIn scope reference = .ok v) l.references ids

structure AtMost.Fits (m : Model) (scope : Nat) (l : AtMost) (ids : List Nat) : Prop where
  named : AtMost.Names m scope l ids
  some : l.references ≠ []
  room : l.limit ≤ ids.eraseDups.length

/-- Sound scopes, and constraints that fit the model they are laid out in. -/
structure WellFormed (d : Declaration) : Prop where
  scopes : ∀ entry ∈ preorder [] d, entry.2.SoundScope
  limits : ∀ entry ∈ d.declaredLimits, ∃ ids, AtMost.Fits (d.frozen 0) entry.1 entry.2 ids

/-! ## Scopes -/

mutual

theorem check_ok_iff_soundScope (path : String) (names : List String) : ∀ d : Declaration,
    check path d = .ok () ↔ ∀ entry ∈ preorder names d, entry.2.SoundScope
  | ⟨name, vars, limits, children⟩ => by
      rw [check_ok_iff, preorder_eq, List.forall_mem_cons,
        ← check_children_iff_soundScope path names children]
      constructor
      · rintro ⟨named, ⟨sound, varNames⟩, below, childNames⟩
        exact ⟨⟨named, sound, varNames, childNames⟩, below⟩
      · rintro ⟨⟨named, sound, varNames, childNames⟩, below⟩
        exact ⟨named, ⟨sound, varNames⟩, below, childNames⟩

theorem check_children_iff_soundScope (path : String) (names : List String) :
    ∀ children : List Declaration,
      (∀ c ∈ children, check (join path c.name) c = .ok ()) ↔
        ∀ entry ∈ preorderChildren names children, entry.2.SoundScope
  | [] => by simp [preorderChildren]
  | child :: rest => by
      rw [List.forall_mem_cons, preorderChildren, List.forall_mem_append,
        check_ok_iff_soundScope _ (names ++ [child.name]) child,
        check_children_iff_soundScope path names rest]

end

/-! ## Constraints -/

mutual

theorem layout_limits (parent : Option Nat) (path : String) (scope first : Nat)
    (names : List String) : ∀ d : Declaration,
      (layout parent path scope first d).limits =
        ((preorder names d).zipIdx scope).flatMap fun entry =>
          entry.1.2.limits.map fun l => (entry.2, l)
  | ⟨name, vars, limits, children⟩ => by
      rw [preorder_eq, List.zipIdx_cons, List.flatMap_cons, layout,
        layoutChildren_limits scope path (scope + 1) _ names children]

theorem layoutChildren_limits (parent : Nat) (path : String) (scope first : Nat)
    (names : List String) : ∀ children : List Declaration,
      (layoutChildren parent path scope first children).limits =
        ((preorderChildren names children).zipIdx scope).flatMap fun entry =>
          entry.1.2.limits.map fun l => (entry.2, l)
  | [] => rfl
  | child :: rest => by
      simp only [layoutChildren, Layout.append, preorderChildren]
      rw [List.zipIdx_append, List.flatMap_append,
        layout_limits _ _ scope first (names ++ [child.name]) child,
        length_scopes_layout _ _ _ _ (names ++ [child.name]) child,
        layoutChildren_limits parent path _ _ names rest]

end

theorem resolveAll_ok_iff (m : Model) (scope : Nat) (references : List String)
    (seen vars : List Nat) :
    resolveAll m scope references seen.eraseDups = .ok vars ↔
      ∃ ids, List.Forall₂ (fun reference v => m.resolveIn scope reference = .ok v) references ids ∧
        vars = (seen ++ ids).eraseDups := by
  induction references generalizing seen with
  | nil =>
      simp only [List.forall₂_nil_left_iff, exists_eq_left, List.append_nil, resolveAll]
      exact ⟨fun same => (Except.ok.inj same).symm, fun same => same ▸ rfl⟩
  | cons reference rest ih =>
      simp only [resolveAll, bind_ok_iff, ← eraseDups_concat, ih, List.append_assoc,
        List.singleton_append]
      constructor
      · rintro ⟨v, resolved, ids, others, rfl⟩
        exact ⟨v :: ids, .cons resolved others, rfl⟩
      · rintro ⟨_, _ | ⟨resolved, others⟩, rfl⟩
        exact ⟨_, resolved, _, others, rfl⟩

theorem AtMost.Names.isEmpty_eq {m : Model} {scope : Nat} {l : AtMost} {ids : List Nat}
    (named : AtMost.Names m scope l ids) : ids.eraseDups.isEmpty = l.references.isEmpty := by
  have size := List.Forall₂.length_eq named
  cases ids with
  | nil =>
      obtain none := List.length_eq_zero_iff.mp size
      simp [none]
  | cons v rest =>
      have some := List.ne_nil_of_length_eq_add_one size
      simp [List.eraseDups_cons, some]

theorem resolve_ok_iff (m : Model) (scope : Nat) (l : AtMost) (k : Constraint) :
    AtMost.resolve m scope l = .ok k ↔
      ∃ ids, AtMost.Fits m scope l ids ∧ k = ⟨scope, l.limit, ids.eraseDups⟩ := by
  have all := resolveAll_ok_iff m scope l.references []
  simp only [List.eraseDups_nil, List.nil_append] at all
  simp only [AtMost.resolve, bind_ok_iff, mapError_ok_iff, all]
  constructor
  · rintro ⟨_, ⟨ids, named, rfl⟩, resolved⟩
    rw [AtMost.Names.isEmpty_eq named] at resolved
    split at resolved
    · exact absurd resolved (by simp)
    · rename_i some
      split at resolved
      · exact absurd resolved (by simp)
      · exact ⟨ids, ⟨named, by simpa using some, by omega⟩, (Except.ok.inj resolved).symm⟩
  · rintro ⟨ids, fits, rfl⟩
    have room := fits.room
    refine ⟨_, ⟨ids, fits.named, rfl⟩, ?_⟩
    rw [fits.named.isEmpty_eq, if_neg (by simpa using fits.some), if_neg (by omega)]

/-! ## Whole declarations -/

theorem limits_frozen (d : Declaration) : (layout none "" 0 0 d).limits = d.declaredLimits :=
  layout_limits none "" 0 0 [] d

theorem build_ok_iff (serial : Nat) (d : Declaration) (m : Model) :
    d.build serial = .ok m ↔
      check "" d = .ok () ∧ ∃ constraints,
        List.Forall₂ (fun declared k =>
          AtMost.resolve (d.frozen serial) declared.1 declared.2 = .ok k)
          d.declaredLimits constraints ∧
        m = { d.frozen serial with constraints } := by
  rw [build, check_bind_ok_iff, mapError_ok_iff]
  simp only [bind_ok_iff, mapError_ok_iff, mapM_ok_iff, limits_frozen]
  refine and_congr_right fun _ => exists_congr fun constraints => and_congr_right fun _ => ?_
  rw [Except.ok.injEq, eq_comm]
  rfl

theorem build_error (serial : Nat) (d : Declaration) {e : Failure}
    (failed : d.build serial = .error e) : ∃ cause, e = .invalidModel cause := by
  simp only [build, bind_error_iff, mapError_error_iff] at failed
  rcases failed with ⟨cause, _, rfl⟩ | ⟨_, _, ⟨cause, _, rfl⟩ | ⟨_, _, impossible⟩⟩
  · exact ⟨cause, rfl⟩
  · exact ⟨cause, rfl⟩
  · exact absurd impossible (by simp)

theorem AtMost.Fits.congr {m other : Model} {scope : Nat} {l : AtMost} {ids : List Nat}
    (fits : AtMost.Fits m scope l ids) (same : m.SameLayout other) :
    AtMost.Fits other scope l ids := by
  refine ⟨?_, fits.some, fits.room⟩
  refine List.Forall₂.imp (fun reference v resolved => ?_) fits.named
  rwa [← Model.resolveIn_congr same]

theorem exists_build_iff (serial : Nat) (d : Declaration) :
    (∃ m, d.build serial = .ok m) ↔ d.WellFormed := by
  have accepted := check_ok_iff_soundScope "" [] d
  simp only [build_ok_iff]
  constructor
  · rintro ⟨_, checked, constraints, resolved, rfl⟩
    refine ⟨accepted.mp checked, fun entry member => ?_⟩
    obtain ⟨k, _, run⟩ := exists_of_forall₂ resolved member
    obtain ⟨ids, fits, _⟩ := (resolve_ok_iff _ _ _ k).mp run
    exact ⟨ids, fits.congr ⟨rfl, rfl⟩⟩
  · intro wellFormed
    have each : ∀ entry ∈ d.declaredLimits,
        ∃ k, AtMost.resolve (d.frozen serial) entry.1 entry.2 = .ok k := by
      intro entry member
      obtain ⟨ids, fits⟩ := wellFormed.limits entry member
      exact ⟨_, (resolve_ok_iff _ _ _ _).mpr ⟨ids, fits.congr ⟨rfl, rfl⟩, rfl⟩⟩
    obtain ⟨constraints, resolved⟩ := exists_forall₂_iff.mpr each
    exact ⟨_, accepted.mpr wellFormed.scopes, constraints, resolved, rfl⟩

structure AtMost.Becomes (m : Model) (scope : Nat) (l : AtMost) (k : Constraint) : Prop where
  declared : k.scope = scope
  limit : k.limit = l.limit
  vars : ∃ ids, AtMost.Names m scope l ids ∧ k.vars = ids.eraseDups
  nodup : k.vars.Nodup
  inside : ∀ v ∈ k.vars, m.DeclaredIn scope v

theorem place_lt_of_mem {d : Declaration} {entry : Nat × AtMost}
    (member : entry ∈ d.declaredLimits) : entry.1 < (preorder [] d).length := by
  obtain ⟨⟨scope, place⟩, listed, declared⟩ := List.mem_flatMap.mp member
  obtain ⟨l, _, rfl⟩ := List.mem_map.mp declared
  exact List.snd_lt_of_mem_zipIdx listed

theorem AtMost.Fits.becomes {d : Declaration} {m : Model} (laid : Laid d m)
    {entry : Nat × AtMost} (member : entry ∈ d.declaredLimits) {ids : List Nat}
    (fits : AtMost.Fits m entry.1 entry.2 ids) :
    AtMost.Becomes m entry.1 entry.2 ⟨entry.1, entry.2.limit, ids.eraseDups⟩ := by
  have inRange := place_lt_of_mem member
  rw [← laid.scopes_length] at inRange
  refine ⟨rfl, rfl, ⟨ids, fits.named, rfl⟩, nodup_eraseDups ids, fun v listed => ?_⟩
  have named : v ∈ ids := List.mem_eraseDups.mp listed
  obtain ⟨_, _, found⟩ := exists_of_forall₂ (List.Forall₂.flip fits.named) named
  exact laid.isTree.declaredIn_of_resolveIn inRange found

theorem build_constraints {serial : Nat} {d : Declaration} {m : Model}
    (built : d.build serial = .ok m) :
    List.Forall₂ (fun declared k => AtMost.Becomes m declared.1 declared.2 k)
      d.declaredLimits m.constraints := by
  have laid := build_laid built
  obtain ⟨_, constraints, resolved, rfl⟩ := (build_ok_iff serial d m).mp built
  have members := (List.forall₂_and_left _ _).mpr ⟨fun _ member => member, resolved⟩
  refine members.imp fun entry k both => ?_
  obtain ⟨ids, fits, rfl⟩ := (resolve_ok_iff _ _ _ k).mp both.2
  exact AtMost.Fits.becomes laid both.1 (fits.congr ⟨rfl, rfl⟩)

/-- The builder accepts exactly the well formed declarations and reports a fault of the
model for all others.  The constraints of what it builds are the declared ones, scope
by scope in pre-order and in the order of each scope. -/
theorem build_accepts_wellFormed (serial : Nat) (d : Declaration) :
    ((∃ m, d.build serial = .ok m) ↔ d.WellFormed) ∧
    (∀ e, d.build serial = .error e → ∃ cause, e = .invalidModel cause) ∧
    ∀ m, d.build serial = .ok m →
      m.scopes = (d.frozen serial).scopes ∧ m.vars = (d.frozen serial).vars ∧
      List.Forall₂ (fun declared k => AtMost.Becomes m declared.1 declared.2 k)
        d.declaredLimits m.constraints := by
  refine ⟨exists_build_iff serial d, fun e failed => build_error serial d failed, ?_⟩
  intro m built
  have laid := build_laid built
  exact ⟨laid.scopes, laid.vars, build_constraints built⟩

theorem build_accepts_wellFormed_nested :
    Examples.nested.build 0 = .ok Examples.nestedModel ∧
      Examples.nested.WellFormed ∧
      AtMost.Becomes Examples.nestedModel 0 ⟨1, ["/flag", "tags", "Inner/flag"]⟩ ⟨0, 1, [0, 1, 2]⟩ ∧
      (∃ e, { Examples.namesakes with limits := [⟨1, ["flag"]⟩] }.build 0 = .error e ∧
        ∃ cause, e = .invalidModel cause) ∧
      ¬{ Examples.namesakes with limits := [⟨1, ["flag"]⟩] }.WellFormed := by
  have built : Examples.nested.build 0 = .ok Examples.nestedModel := rfl
  have ambiguous : { Examples.namesakes with limits := [⟨1, ["flag"]⟩] }.build 0 =
      .error (.invalidModel (.badReference "Root"
        (.ambiguous "flag" ["Child/flag", "Child/Grand/flag"]))) := rfl
  obtain ⟨accepted, _, constraints⟩ := build_accepts_wellFormed 0 Examples.nested
  obtain ⟨rejected, faulty, _⟩ :=
    build_accepts_wellFormed 0 { Examples.namesakes with limits := [⟨1, ["flag"]⟩] }
  refine ⟨built, accepted.mp ⟨_, built⟩, ?_, ⟨_, ambiguous, faulty _ ambiguous⟩, ?_⟩
  · exact (List.forall₂_cons.mp (constraints _ built).2.2).1
  · intro wellFormed
    obtain ⟨m, impossible⟩ := rejected.mpr wellFormed
    rw [ambiguous] at impossible
    exact absurd impossible (by simp)

end Declaration

end DecisionSpace
