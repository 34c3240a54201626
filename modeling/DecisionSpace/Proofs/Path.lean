import DecisionSpace.Path
import Mathlib.Data.List.Basic

/-!
# Names along a path

A path is the names of some scopes and of a variable, joined by the separator.
Names are not empty and hold no separator, so a path can be taken apart again:
different names have different paths, and a path that continues another one
continues its names.
-/

set_option autoImplicit false

namespace DecisionSpace.Path

structure IsName (name : String) : Prop where
  nonempty : name ≠ ""
  plain : hasSeparator name = false

def ofNames (names : List String) : String := "/".intercalate names

def segments (path : String) : List String := (path.toList.splitOn separator).map String.ofList

theorem isName_append {names : List String} {last : String} (named : ∀ name ∈ names, IsName name)
    (lastNamed : IsName last) : ∀ name ∈ names ++ [last], IsName name := by
  intro name member
  rcases List.mem_append.mp member with before | rest
  · exact named name before
  · rw [List.mem_singleton.mp rest]
    exact lastNamed

theorem separator_notMem {name : String} (plain : hasSeparator name = false) :
    separator ∉ name.toList := by
  simpa [hasSeparator] using plain

@[simp]
theorem ofNames_nil : ofNames [] = "" := rfl

@[simp]
theorem ofNames_singleton (name : String) : ofNames [name] = name := String.intercalate_singleton

theorem ofNames_append {names more : List String} (some : names ≠ []) (others : more ≠ []) :
    ofNames (names ++ more) = ofNames names ++ "/" ++ ofNames more :=
  String.intercalate_append_of_ne_nil some others

theorem ofNames_eq_empty_iff {names : List String} (named : ∀ name ∈ names, IsName name) :
    ofNames names = "" ↔ names = [] := by
  constructor
  · intro empty
    cases names with
    | nil => rfl
    | cons name rest =>
        have first := (named name List.mem_cons_self).nonempty
        cases rest with
        | nil => exact absurd empty first
        | cons next rest =>
            have split : ofNames ([name] ++ next :: rest) = name ++ "/" ++ ofNames (next :: rest) :=
              ofNames_append (by simp) (by simp)
            rw [List.singleton_append] at split
            rw [split] at empty
            simp at empty
  · rintro rfl
    rfl

theorem join_ofNames_ofNames {names more : List String} (named : ∀ name ∈ names, IsName name)
    (others : more ≠ []) : join (ofNames names) (ofNames more) = ofNames (names ++ more) := by
  have empty := ofNames_eq_empty_iff named
  by_cases none : names = []
  · subst none
    simp [join]
  · have filled : ofNames names ≠ "" := fun same => none (empty.mp same)
    rw [ofNames_append none others]
    simp [join, filled]

theorem join_ofNames {names : List String} (named : ∀ name ∈ names, IsName name) (name : String) :
    join (ofNames names) name = ofNames (names ++ [name]) := by
  rw [← join_ofNames_ofNames named (by simp), ofNames_singleton]

/-! ## Taking paths apart -/

theorem ofNames_segments (path : String) : ofNames (segments path) = path := by
  rw [← String.toList_inj, ofNames, String.toList_intercalate, segments, List.map_map]
  have same : String.toList ∘ String.ofList = id := funext fun chars => String.toList_ofList
  rw [same, List.map_id]
  exact List.intercalate_splitOn separator

theorem segments_ofNames {names : List String} (named : ∀ name ∈ names, IsName name)
    (some : names ≠ []) : segments (ofNames names) = names := by
  have plain : ∀ chars ∈ names.map String.toList, separator ∉ chars := by
    intro chars member
    obtain ⟨name, inNames, rfl⟩ := List.mem_map.mp member
    exact separator_notMem (named name inNames).plain
  have split := List.splitOn_intercalate separator plain (by simpa using some)
  have chars : (ofNames names).toList = [separator].intercalate (names.map String.toList) :=
    String.toList_intercalate
  rw [segments, chars, split, List.map_map]
  have same : String.ofList ∘ String.toList = id := funext fun name => String.ofList_toList
  rw [same, List.map_id]

theorem segments_ne_nil (path : String) : segments path ≠ [] := by
  simp [segments, List.splitOn_ne_nil]

theorem segments_append (first rest : String) :
    segments (first ++ "/" ++ rest) = segments first ++ segments rest := by
  have chars : (first ++ "/" ++ rest).toList = first.toList ++ separator :: rest.toList := by
    simp [separator]
  rw [segments, chars, List.splitOn, List.splitOnP_append_cons _ _ (by simp), List.map_append]
  rfl

theorem ofNames_injective {names others : List String} (named : ∀ name ∈ names, IsName name)
    (othersNamed : ∀ name ∈ others, IsName name) (same : ofNames names = ofNames others) :
    names = others := by
  by_cases none : names = []
  · subst none
    exact ((ofNames_eq_empty_iff othersNamed).mp same.symm).symm
  · have some : others ≠ [] := by
      rintro rfl
      exact none ((ofNames_eq_empty_iff named).mp same)
    rw [← segments_ofNames named none, same, segments_ofNames othersNamed some]

theorem join_eq_ofNames_iff {names all : List String} (named : ∀ name ∈ names, IsName name)
    (allNamed : ∀ name ∈ all, IsName name) (filled : all ≠ []) (relative : String) :
    join (ofNames names) relative = ofNames all ↔
      ∃ rest, rest ≠ [] ∧ all = names ++ rest ∧ relative = ofNames rest := by
  constructor
  · intro same
    by_cases none : names = []
    · subst none
      exact ⟨all, filled, rfl, same⟩
    · have some : ofNames names ≠ "" := fun empty => none ((ofNames_eq_empty_iff named).mp empty)
      rw [join, if_neg (by simpa using some)] at same
      -- any text has segments, and names are their own
      refine ⟨segments relative, segments_ne_nil relative, ?_, (ofNames_segments relative).symm⟩
      rw [← segments_ofNames allNamed filled, ← same, segments_append, segments_ofNames named none]
  · rintro ⟨rest, more, rfl, rfl⟩
    exact join_ofNames_ofNames named more

theorem relativeTo_ofNames {names more : List String} (named : ∀ name ∈ names, IsName name)
    (others : more ≠ []) : relativeTo (ofNames names) (ofNames (names ++ more)) = ofNames more := by
  by_cases none : names = []
  · subst none
    simp [relativeTo]
  · have some : ofNames names ≠ "" := fun empty => none ((ofNames_eq_empty_iff named).mp empty)
    have chars : (ofNames names ++ "/" ++ ofNames more).toList.drop ((ofNames names).length + 1) =
        (ofNames more).toList := by
      simp [← String.length_toList]
    rw [relativeTo, if_neg (by simpa using some), ofNames_append none others, chars,
      String.ofList_toList]

/-! ## References -/

/-- A reference without its anchor, the one separator that it may begin with. -/
def unanchored (reference : String) : String :=
  match reference.toList with
  | '/' :: rest => String.ofList rest
  | _ => reference

theorem ofString_of_separator {reference : String} (path : hasSeparator reference = true) :
    Reference.ofString reference = .path (unanchored reference) := by
  unfold Reference.ofString unanchored
  cases chars : reference.toList with
  | nil => simp [hasSeparator, chars] at path
  | cons first rest =>
      by_cases anchored : first = '/'
      · subst anchored
        rfl
      · simp [anchored, path]

theorem ofString_of_plain {reference : String} (plain : hasSeparator reference = false) :
    Reference.ofString reference = .name reference := by
  unfold Reference.ofString
  split
  · rename_i rest chars
    simp [hasSeparator, chars, separator] at plain
  · rw [if_neg (by simp [plain])]

theorem hasSeparator_anchored (relative : String) : hasSeparator ("/" ++ relative) = true := by
  simp [hasSeparator, separator]

theorem unanchored_anchored (relative : String) : unanchored ("/" ++ relative) = relative := by
  simp [unanchored]

theorem unanchored_qualified {name : String} (named : IsName name) (relative : String) :
    unanchored (name ++ "/" ++ relative) = name ++ "/" ++ relative := by
  have some : name.toList ≠ [] := by simpa using named.nonempty
  obtain ⟨first, rest, chars⟩ := List.exists_cons_of_ne_nil some
  have different : first ≠ '/' := by
    rintro rfl
    exact separator_notMem named.plain (by rw [chars]; exact List.mem_cons_self)
  simp [unanchored, chars, different]

theorem anchored_or_relative (reference : String) :
    (∃ path, reference = "/" ++ path) ∨ unanchored reference = reference := by
  unfold unanchored
  split
  · rename_i rest chars
    exact .inl ⟨String.ofList rest, by rw [← String.toList_inj]; simp [chars]⟩
  · exact .inr rfl

theorem ofNames_ne_anchored {names : List String} (named : ∀ name ∈ names, IsName name)
    (path : String) : ofNames names ≠ "/" ++ path := by
  intro same
  have some : names ≠ [] := by
    rintro rfl
    simp at same
  have split : segments ("" ++ "/" ++ path) = segments "" ++ segments path := segments_append "" path
  rw [String.empty_append, ← same, segments_ofNames named some] at split
  have empty : "" ∈ names := by
    rw [split]
    exact List.mem_append_left _ (by decide)
  exact (named "" empty).nonempty rfl

theorem join_join {name : String} (named : IsName name) (scope path : String) :
    join (join scope name) path = join scope (name ++ "/" ++ path) := by
  by_cases top : scope = ""
  · simp [join, top, named.nonempty]
  · simp [join, top, String.append_assoc]

end DecisionSpace.Path
