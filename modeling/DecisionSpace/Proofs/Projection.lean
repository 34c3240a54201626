import DecisionSpace.Assignment
import DecisionSpace.Proofs.Resolution

/-!
# Lookups in a child view

What an assignment holds can be asked for in the view of a child scope, or from its
parent under the name of the child.  The parent follows a path, so the variable has
to stand exactly there; the view takes a plain name for any variable below it that
bears it.  `Diverges` lists the references that the two answer differently, and the
main statement says that they agree on all others.
-/

set_option autoImplicit false

namespace DecisionSpace

open Fallible
open DecisionSpace.Path

namespace Model

def Bears (m : Model) (scope v : Nat) (name : String) : Prop :=
  m.DeclaredIn scope v ∧ (m.variableAt v).name = name

theorem pathFrom_plain_iff {m : Model} {scope : Nat} {name : String}
    (plain : hasSeparator name = false) (v : Nat) :
    m.PathFrom scope v name ↔ m.Bears scope v name ∧ (m.variableAt v).scope = scope := by
  constructor
  · rintro ⟨inRange, names, below, same⟩
    have top : names = [] := by
      by_contra some
      rw [ofNames_append some (by simp)] at same
      simp [same, hasSeparator, separator] at plain
    subst top
    rw [List.nil_append, ofNames_singleton] at same
    exact ⟨⟨⟨inRange, [], below⟩, same.symm⟩, below_nil_iff.mp below⟩
  · rintro ⟨⟨⟨inRange, _⟩, rfl⟩, declared⟩
    refine ⟨inRange, [], below_nil_iff.mpr declared, ?_⟩
    rw [List.nil_append, ofNames_singleton]

namespace IsTree

variable {m : Model} (tree : m.IsTree) {scope : Nat}

include tree

theorem plain_of_bears {v : Nat} {name : String} (bears : m.Bears scope v name) :
    hasSeparator name = false :=
  bears.2 ▸ (tree.isOwn bears.1.1).named.plain

theorem resolveIn_plain_ok_iff {name : String} (plain : hasSeparator name = false) (v : Nat) :
    m.resolveIn scope name = .ok v ↔
      m.Bears scope v name ∧ ∀ w, m.Bears scope w name → w = v := by
  have members : ∀ w, w ∈ m.candidates scope name ↔ m.Bears scope w name :=
    fun w => tree.mem_candidates_iff w name
  rw [resolveIn_name_ok_iff plain]
  constructor
  · intro only
    simp only [only, List.mem_singleton] at members
    exact ⟨(members v).mp rfl, fun w bears => (members w).mpr bears⟩
  · rintro ⟨bears, only⟩
    have nodup : (m.candidates scope name).Nodup := (candidates_sorted name).imp Nat.ne_of_lt
    have alone : [v].Nodup := List.nodup_singleton v
    refine List.Perm.eq_singleton ((List.perm_ext_iff_of_nodup nodup alone).mpr fun w => ?_)
    rw [members, List.mem_singleton]
    exact ⟨only w, fun same => same ▸ bears⟩

theorem not_pathFrom_anchored (v : Nat) (path : String) : ¬m.PathFrom scope v ("/" ++ path) := by
  rintro ⟨inRange, names, below, same⟩
  exact ofNames_ne_anchored (tree.named_of_variable inRange below) path same.symm

theorem pathFrom_child_iff (inRange : scope < m.scopes.length) {next : Nat}
    (member : next ∈ (m.scopeAt scope).children) (v : Nat) (path : String) :
    m.PathFrom scope v ((m.scopeAt next).name ++ "/" ++ path) ↔ m.PathFrom next v path := by
  have child := tree.child scope next member
  rw [tree.pathFrom_iff inRange, tree.pathFrom_iff child.inRange, child.path, join_join child.named]

end IsTree

end Model

namespace Assignment

def HoldsAt (a : Assignment) (path : String) (x : Value) : Prop :=
  ∃ v, a.model.PathFrom a.scope v path ∧ a.value? v = some x

theorem get_ok_iff (a : Assignment) (reference : String) (x : Value) :
    a.get reference = .ok x ↔
      ∃ v, a.model.resolveIn a.scope reference = .ok v ∧ a.value? v = some x := by
  simp only [get, bind_ok_iff, mapError_ok_iff]
  refine exists_congr fun v => and_congr_right fun _ => ?_
  cases a.value? v with
  | none => simp
  | some held => simp

/-- The references that a view answers differently from its parent, which is asked for
them under the name of the view. -/
inductive Diverges (b : Assignment) (reference : String) : Prop where
  | anchored {path : String} {v : Nat} (anchor : reference = "/" ++ path)
      (leads : b.model.PathFrom b.scope v path) (held : (b.value? v).isSome)
  | deeper {v : Nat} (bears : b.model.Bears b.scope v reference)
      (only : ∀ w, b.model.Bears b.scope w reference → w = v)
      (below : (b.model.variableAt v).scope ≠ b.scope) (held : (b.value? v).isSome)
  | shadowed {v w : Nat} (bears : b.model.Bears b.scope v reference)
      (own : (b.model.variableAt v).scope = b.scope)
      (again : b.model.Bears b.scope w reference) (different : w ≠ v)
      (held : (b.value? v).isSome)

section
variable {a b : Assignment} {name : String}

theorem get_path_ok_iff (tree : a.model.IsTree) (inRange : a.scope < a.model.scopes.length)
    {reference : String} (separated : hasSeparator reference = true) (x : Value) :
    a.get reference = .ok x ↔ a.HoldsAt (unanchored reference) x := by
  simp only [get_ok_iff, tree.resolveIn_path_ok_iff inRange separated, HoldsAt]

theorem get_plain_ok_iff (tree : a.model.IsTree) {reference : String}
    (plain : hasSeparator reference = false) (x : Value) :
    a.get reference = .ok x ↔
      ∃ v, (a.model.Bears a.scope v reference ∧
        ∀ w, a.model.Bears a.scope w reference → w = v) ∧ a.value? v = some x := by
  simp only [get_ok_iff, tree.resolveIn_plain_ok_iff plain]

theorem sub_ok_iff (tree : a.model.IsTree) :
    a.sub name = .ok b ↔
      ∃ next, next ∈ (a.model.scopeAt a.scope).children ∧ (a.model.scopeAt next).name = name ∧
        b = { a with scope := next } := by
  simp only [sub, map_ok_iff, tree.child_ok_iff, and_assoc, eq_comm (b := b)]

theorem get_qualified_ok_iff (tree : a.model.IsTree) (inRange : a.scope < a.model.scopes.length)
    (projected : a.sub name = .ok b) (reference : String) (x : Value) :
    a.get (name ++ "/" ++ reference) = .ok x ↔ b.HoldsAt reference x := by
  obtain ⟨next, member, rfl, rfl⟩ := (sub_ok_iff tree).mp projected
  have child := tree.child _ next member
  have separated : hasSeparator ((a.model.scopeAt next).name ++ "/" ++ reference) = true := by
    simp [hasSeparator, separator]
  rw [get_path_ok_iff tree inRange separated, unanchored_qualified child.named]
  simp only [HoldsAt, tree.pathFrom_child_iff inRange member]
  rfl

theorem Diverges.not_agrees (tree : b.model.IsTree) (inRange : b.scope < b.model.scopes.length)
    {reference : String} (diverges : b.Diverges reference) :
    ¬∀ x, b.get reference = .ok x ↔ b.HoldsAt reference x := by
  intro agrees
  cases diverges with
  | @anchored path v anchor leads held =>
      subst anchor
      obtain ⟨x, held⟩ := Option.isSome_iff_exists.mp held
      have answer : b.get ("/" ++ path) = .ok x := by
        rw [get_path_ok_iff tree inRange (hasSeparator_anchored path), unanchored_anchored]
        exact ⟨v, leads, held⟩
      obtain ⟨w, leads, _⟩ := (agrees x).mp answer
      exact tree.not_pathFrom_anchored w path leads
  | @deeper v bears only below held =>
      have plain := tree.plain_of_bears bears
      obtain ⟨x, held⟩ := Option.isSome_iff_exists.mp held
      have answer := (get_plain_ok_iff tree plain x).mpr ⟨v, ⟨bears, only⟩, held⟩
      obtain ⟨w, leads, _⟩ := (agrees x).mp answer
      obtain ⟨again, own⟩ := (Model.pathFrom_plain_iff plain w).mp leads
      exact below (only w again ▸ own)
  | @shadowed v w bears own again different held =>
      have plain := tree.plain_of_bears bears
      obtain ⟨x, held⟩ := Option.isSome_iff_exists.mp held
      have leads := (Model.pathFrom_plain_iff plain v).mpr ⟨bears, own⟩
      have answer := (agrees x).mpr ⟨v, leads, held⟩
      obtain ⟨u, ⟨_, only⟩, _⟩ := (get_plain_ok_iff tree plain x).mp answer
      exact different ((only w again).trans (only v bears).symm)

theorem agrees_of_not_diverges (tree : b.model.IsTree)
    (inRange : b.scope < b.model.scopes.length) {reference : String}
    (converges : ¬b.Diverges reference) (x : Value) :
    b.get reference = .ok x ↔ b.HoldsAt reference x := by
  by_cases separated : hasSeparator reference = true
  · rw [get_path_ok_iff tree inRange separated]
    rcases anchored_or_relative reference with ⟨path, rfl⟩ | relative
    · -- the parent cannot follow the anchor, so the view must not either
      rw [unanchored_anchored]
      constructor
      · rintro ⟨v, leads, held⟩
        exact absurd (.anchored rfl leads (by simp [held])) converges
      · rintro ⟨v, leads, _⟩
        exact absurd leads (tree.not_pathFrom_anchored v path)
    · rw [relative]
  · have plain : hasSeparator reference = false := by simpa using separated
    rw [get_plain_ok_iff tree plain]
    constructor
    · rintro ⟨v, ⟨bears, only⟩, held⟩
      by_cases own : (b.model.variableAt v).scope = b.scope
      · exact ⟨v, (Model.pathFrom_plain_iff plain v).mpr ⟨bears, own⟩, held⟩
      · exact absurd (.deeper bears only own (by simp [held])) converges
    · rintro ⟨v, leads, held⟩
      obtain ⟨bears, own⟩ := (Model.pathFrom_plain_iff plain v).mp leads
      refine ⟨v, ⟨bears, fun w again => ?_⟩, held⟩
      by_contra different
      exact converges (.shadowed bears own again different (by simp [held]))

/-- A view answers a reference as its parent answers it under the name of the view, with
the same value or both with none, exactly when the reference does not diverge. -/
theorem sub_get_agrees_iff {d : Declaration} {serial : Nat}
    (built : d.build serial = .ok a.model) (inRange : a.scope < a.model.scopes.length)
    (projected : a.sub name = .ok b) (reference : String) :
    (∀ x, b.get reference = .ok x ↔ a.get (name ++ "/" ++ reference) = .ok x) ↔
      ¬b.Diverges reference := by
  have tree := (Declaration.build_laid built).isTree
  simp only [get_qualified_ok_iff tree inRange projected]
  have view : b.model.IsTree ∧ b.scope < b.model.scopes.length := by
    obtain ⟨next, member, _, rfl⟩ := (sub_ok_iff tree).mp projected
    exact ⟨tree, (tree.child _ next member).inRange⟩
  constructor
  · intro agrees diverges
    exact diverges.not_agrees view.1 view.2 agrees
  · exact fun converges => agrees_of_not_diverges view.1 view.2 converges

end

def namesakesOn (scope : Nat) : Assignment :=
  ⟨Examples.namesakesModel, scope, List.replicate 3 (some (.bool true))⟩

theorem sub_get_agrees_iff_namesakes :
    Examples.namesakes.build 0 = .ok (namesakesOn 0).model ∧
      (namesakesOn 0).scope < (namesakesOn 0).model.scopes.length ∧
      (namesakesOn 0).sub "Child" = .ok (namesakesOn 1) ∧
      ¬∀ x, (namesakesOn 1).get "flag" = .ok x ↔
        (namesakesOn 0).get ("Child" ++ "/" ++ "flag") = .ok x := by
  have built : Examples.namesakes.build 0 = .ok (namesakesOn 0).model := rfl
  have inRange : (namesakesOn 0).scope < (namesakesOn 0).model.scopes.length := by decide
  have declared := (Declaration.build_laid built).isTree.contains_iff 1
  refine ⟨built, inRange, rfl, fun agrees => ?_⟩
  refine (sub_get_agrees_iff built inRange rfl "flag").mp agrees ?_
  exact .shadowed ⟨(declared 0).mp rfl, rfl⟩ rfl ⟨(declared 1).mp rfl, rfl⟩ (by decide) rfl

/-- The parent answers what the child view refuses, and the other way round. -/
theorem sub_get_disagrees_namesakes :
    Examples.namesakes.build 0 = .ok Examples.namesakesModel ∧
      Assignment.ofSlots Examples.namesakesModel (List.replicate 3 (some (.bool true))) =
        .ok (namesakesOn 0) ∧
      (namesakesOn 0).sub "Child" = .ok (namesakesOn 1) ∧
      ((namesakesOn 0).get ("Child" ++ "/" ++ "flag") = .ok (.bool true) ∧
        (namesakesOn 1).get "flag" =
          .error (.unresolved (.ambiguous "flag" ["Child/flag", "Child/Grand/flag"]))) ∧
      ((namesakesOn 0).get ("Child" ++ "/" ++ "leaf") =
          .error (.unresolved (.missing "Child/leaf" "Root")) ∧
        (namesakesOn 1).get "leaf" = .ok (.bool true)) ∧
      (namesakesOn 0).get ("Child" ++ "/" ++ "/flag") =
          .error (.unresolved (.missing "Child//flag" "Root")) ∧
        (namesakesOn 1).get "/flag" = .ok (.bool true) :=
  ⟨rfl, rfl, rfl, ⟨rfl, rfl⟩, ⟨rfl, rfl⟩, rfl, rfl⟩

end Assignment

end DecisionSpace
