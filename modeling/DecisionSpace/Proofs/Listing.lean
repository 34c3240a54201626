import DecisionSpace.Proofs.Decoding

/-!
# What a view lists

The paths of a listing are cut off the full paths of the variables behind a number of bytes.
The cut never misses a character, and what is left of the path leads from the scope of the view
to the variable.  So a listing has one entry for each variable of the view that has a value, the
view finds what an entry says under its path, and a child lists what its parent lists behind the
name of the child.
-/

set_option autoImplicit false

namespace DecisionSpace

open Fallible
open DecisionSpace.Path

namespace Path

/-! ## Cutting paths -/

/-- What is left of a text behind so many bytes, unless they end beyond it or inside one of its
characters. -/
def cut? (bytes : Nat) (text : String) : Option String :=
  if valid : String.Pos.Raw.IsValid text ⟨bytes⟩ then
    some (text.sliceFrom ⟨⟨bytes⟩, valid⟩).copy
  else none

def width (scope : String) : Nat :=
  if scope.isEmpty then 0 else scope.utf8ByteSize + separator.utf8Size

theorem cut?_append (front rest : String) : cut? front.utf8ByteSize (front ++ rest) = some rest := by
  have valid : String.Pos.Raw.IsValid (front ++ rest) ⟨front.utf8ByteSize⟩ :=
    String.Pos.Raw.isValid_iff_exists_append.mpr ⟨front, rest, rfl, rfl⟩
  have here : (String.Pos.mk _ valid).Splits front rest := ⟨rfl, rfl⟩
  have same := (String.Pos.splits (String.Pos.mk _ valid)).eq here
  rw [cut?, dif_pos valid, same.2]

theorem cut?_join (scope path : String) : cut? (width scope) (join scope path) = some path := by
  by_cases top : scope.isEmpty
  · have whole := cut?_append "" path
    rw [String.empty_append] at whole
    rw [width, join, if_pos top, if_pos top]
    exact whole
  · have size : (scope ++ "/").utf8ByteSize = scope.utf8ByteSize + separator.utf8Size :=
      String.utf8ByteSize_append
    rw [width, join, if_neg top, if_neg top, ← size]
    exact cut?_append (scope ++ "/") path

end Path

namespace Assignment

def cutEntries? (a : Assignment) : Option (List (String × Value)) :=
  (a.view.subtree.filterMap fun id =>
    (a.value? id).map fun x => ((a.model.variableAt id).path, x)).mapM fun e =>
      (cut? (width a.view.path) e.1).map fun path => (path, e.2)

def listed (a : Assignment) : List Nat := a.view.subtree.filter fun v => (a.value? v).isSome

theorem mapM_eq_some_map {α β : Type} {f : α → Option β} {g : α → β} {xs : List α}
    (each : ∀ x ∈ xs, f x = some (g x)) : xs.mapM f = some (xs.map g) := by
  induction xs with
  | nil => rfl
  | cons x rest ih =>
      obtain ⟨first, others⟩ := List.forall_mem_cons.mp each
      rw [List.mapM_cons, first, ih others]
      rfl

theorem forall₂_filterMap {α β : Type} (f : α → Option β) (xs : List α) :
    List.Forall₂ (fun x y => x ∈ xs ∧ f x = some y) (xs.filter fun x => (f x).isSome)
      (xs.filterMap f) := by
  induction xs with
  | nil => exact .nil
  | cons x rest ih =>
      have later := ih.imp fun _ _ found => And.imp_left (List.mem_cons_of_mem x) found
      cases here : f x with
      | none =>
          rw [List.filter_cons_of_neg (by simp [here]), List.filterMap_cons_none here]
          exact later
      | some y =>
          rw [List.filter_cons_of_pos (by simp [here]), List.filterMap_cons_some here]
          exact .cons ⟨List.mem_cons_self, here⟩ later

section
variable {a b : Assignment} (tree : a.model.IsTree)

include tree

theorem mem_listed_iff (v : Nat) :
    v ∈ a.listed ↔ a.model.DeclaredIn a.scope v ∧ (a.value? v).isSome := by
  rw [listed, List.mem_filter, Scope.mem_subtree_iff, view, tree.contains_iff]

theorem view_of_sub {name : String} (projected : a.sub name = .ok b) :
    b.model.IsTree ∧ b.scope < b.model.scopes.length := by
  obtain ⟨next, member, _, rfl⟩ := (sub_ok_iff tree).mp projected
  exact ⟨tree, (tree.child _ next member).inRange⟩

variable (inRange : a.scope < a.model.scopes.length)

include inRange

/-! ## The entries of a view -/

theorem cut?_of_mem_subtree {v : Nat} (member : v ∈ a.view.subtree) :
    cut? (width a.view.path) (a.model.variableAt v).path =
      some (relativeTo a.view.path (a.model.variableAt v).path) := by
  rw [Scope.mem_subtree_iff] at member
  have leads := tree.pathFrom_relativeTo inRange ((tree.contains_iff _ v).mp member)
  have full := ((tree.pathFrom_iff inRange _).mp leads).2
  rw [view]
  generalize relativeTo (a.model.scopeAt a.scope).path (a.model.variableAt v).path = path at full ⊢
  rw [full, cut?_join]

theorem cutEntries?_eq : a.cutEntries? = some a.entries := by
  have cuts : ∀ e ∈ a.view.subtree.filterMap fun id =>
      (a.value? id).map fun x => ((a.model.variableAt id).path, x),
      (cut? (width a.view.path) e.1).map (fun path => (path, e.2)) =
        some (relativeTo a.view.path e.1, e.2) := by
    intro e member
    obtain ⟨v, inView, written⟩ := List.mem_filterMap.mp member
    obtain ⟨x, _, rfl⟩ := Option.map_eq_some_iff.mp written
    rw [cut?_of_mem_subtree tree inRange inView, Option.map_some]
  rw [cutEntries?, mapM_eq_some_map cuts, List.map_filterMap, entries]
  simp only [Option.map_map, Function.comp_def]

theorem get_anchored_ok_iff (path : String) (x : Value) :
    a.get ("/" ++ path) = .ok x ↔ a.HoldsAt path x := by
  rw [get_path_ok_iff tree inRange (hasSeparator_anchored path), unanchored_anchored]

theorem entries_forall₂ : List.Forall₂ (fun v e => a.model.PathFrom a.scope v e.1 ∧
    a.value? v = some e.2 ∧ a.get ("/" ++ e.1) = .ok e.2) a.listed a.entries := by
  have written := forall₂_filterMap (fun v => (a.value? v).map fun x =>
    (relativeTo a.view.path (a.model.variableAt v).path, x)) a.view.subtree
  simp only [Option.isSome_map] at written
  refine written.imp fun v e found => ?_
  obtain ⟨inView, entry⟩ := found
  obtain ⟨leads, held⟩ := pathFrom_of_entry tree inRange inView entry
  exact ⟨leads, held, (get_anchored_ok_iff tree inRange e.1 e.2).mpr ⟨v, leads, held⟩⟩

theorem toMap_entries_perm : a.toMap.entries.Perm a.entries := by
  have nodup := (entries_keys_nodup tree inRange).of_map
  refine (List.perm_ext_iff_of_nodup (a.toMap.keys_nodup.of_map) nodup).mpr fun e => ?_
  rw [← a.toMap.get?_eq_some_iff, get?_toMap tree inRange, mem_entries_iff tree inRange]

/-! ## The entries of a child -/

theorem holdsAt_sub_iff {name : String} (projected : a.sub name = .ok b) (path : String)
    (x : Value) : b.HoldsAt path x ↔ a.HoldsAt (name ++ "/" ++ path) x := by
  obtain ⟨next, member, rfl, rfl⟩ := (sub_ok_iff tree).mp projected
  simp only [HoldsAt, tree.pathFrom_child_iff inRange member]
  rfl

theorem get?_toMap_sub {name : String} (projected : a.sub name = .ok b) (path : String) :
    b.toMap.get? path = a.toMap.get? (name ++ "/" ++ path) := by
  obtain ⟨childTree, childInRange⟩ := view_of_sub tree projected
  apply Option.ext
  intro x
  rw [get?_toMap childTree childInRange, get?_toMap tree inRange]
  exact holdsAt_sub_iff tree inRange projected path x

theorem get?_toMap_chain {names : List String} (projected : names.foldlM sub a = .ok b)
    (path : String) : b.toMap.get? path =
      a.toMap.get? (names.foldr (fun name below => name ++ "/" ++ below) path) := by
  induction names generalizing a with
  | nil =>
      obtain rfl := Except.ok.inj projected
      rfl
  | cons name rest ih =>
      rw [List.foldlM_cons] at projected
      obtain ⟨child, first, others⟩ := bind_ok_iff.mp projected
      obtain ⟨childTree, childInRange⟩ := view_of_sub tree first
      rw [ih childTree childInRange others, get?_toMap_sub tree inRange first]
      rfl

end

/-- Any view of a built model lists, in the order of the variables, one entry for each variable of
its subtree that has a value.  The cuts that make its paths do not fail; a path is the one from the
scope of the view, and under it the view finds the value again.  Made into a table, the listing
loses no entry.  What a child lists is what its parent lists behind the name of the child, and so
on along any chain of children. -/
theorem entries_addressable {serial : Nat} {d : Declaration} {a : Assignment}
    (built : d.build serial = .ok a.model) (inRange : a.scope < a.model.scopes.length) :
    a.cutEntries? = some a.entries ∧
    (∃ ids : List Nat, ids.Pairwise (· < ·) ∧
      (∀ v, v ∈ ids ↔ a.model.DeclaredIn a.scope v ∧ (a.value? v).isSome) ∧
      List.Forall₂ (fun v e => a.model.PathFrom a.scope v e.1 ∧ a.value? v = some e.2 ∧
        a.get ("/" ++ e.1) = .ok e.2) ids a.entries) ∧
    a.toMap.entries.Perm a.entries ∧
    (∀ name b, a.sub name = .ok b →
      ∀ path, b.toMap.get? path = a.toMap.get? (name ++ "/" ++ path)) ∧
    ∀ (names : List String) (b : Assignment), names.foldlM sub a = .ok b →
      ∀ path, b.toMap.get? path =
        a.toMap.get? (names.foldr (fun name below => name ++ "/" ++ below) path) := by
  have tree := (Declaration.build_laid built).isTree
  refine ⟨cutEntries?_eq tree inRange, ⟨a.listed, ?_, ?_, ?_⟩, ?_, ?_, ?_⟩
  · exact List.Pairwise.filter _ List.pairwise_lt_range'
  · exact mem_listed_iff tree
  · exact entries_forall₂ tree inRange
  · exact toMap_entries_perm tree inRange
  · exact fun name b projected => get?_toMap_sub tree inRange projected
  · exact fun names b projected => get?_toMap_chain tree inRange projected

def siblingsOn (scope : Nat) : Assignment :=
  ⟨Examples.siblingsModel, scope,
    [none, some (.bool true), some (.bool false), some (.bool true)]⟩

theorem entries_addressable_siblings :
    Examples.siblings.build 0 = .ok (siblingsOn 1).model ∧
      (siblingsOn 1).scope < (siblingsOn 1).model.scopes.length ∧
      (siblingsOn 1).cutEntries? = some [("x", .bool true), ("Ä/x", .bool false)] ∧
      (siblingsOn 1).sub "Ä" = .ok (siblingsOn 2) ∧
      (siblingsOn 2).toMap.get? "x" = (siblingsOn 1).toMap.get? "Ä/x" ∧
      ["A", "Ä"].foldlM sub (siblingsOn 0) = .ok (siblingsOn 2) ∧
      (siblingsOn 2).toMap.get? "x" = (siblingsOn 0).toMap.get? "A/Ä/x" := by
  have built : Examples.siblings.build 0 = .ok (siblingsOn 1).model := rfl
  have root : (siblingsOn 0).scope < (siblingsOn 0).model.scopes.length := by decide
  have inRange : (siblingsOn 1).scope < (siblingsOn 1).model.scopes.length := by decide
  obtain ⟨cuts, _, _, children, _⟩ := entries_addressable built inRange
  obtain ⟨_, _, _, _, chains⟩ := entries_addressable (a := siblingsOn 0) built root
  refine ⟨built, inRange, cuts, rfl, ?_, rfl, ?_⟩
  · exact children "Ä" (siblingsOn 2) rfl "x"
  · exact chains ["A", "Ä"] (siblingsOn 2) rfl "x"

end Assignment

end DecisionSpace
