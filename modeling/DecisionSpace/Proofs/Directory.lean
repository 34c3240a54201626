import DecisionSpace.Proofs.Acceptance
import DecisionSpace.Proofs.Arena
import DecisionSpace.Proofs.Resolution
import DecisionSpace.Table
import Mathlib.Data.List.Sort

/-!
# Directories of variables

A builder enters every variable under its local name and under its path before it resolves
the references of constraints, and a model keeps both maps.  A reference looked up in them is
answered as one that is searched for among the variables.
-/

set_option autoImplicit false

namespace DecisionSpace

open DecisionSpace.Path

structure Directory where
  byName : Table String (List Nat)
  byPath : Table String Nat

namespace Directory

def empty : Directory := ⟨.empty, .empty⟩

def named (directory : Directory) (name : String) : List Nat :=
  (directory.byName.get? name).getD []

/-- A variable joins those with its name; of two with one path the later stays. -/
def enter (directory : Directory) (entry : Variable × Nat) : Directory where
  byName := directory.byName.insert entry.1.name (directory.named entry.1.name ++ [entry.2])
  byPath := directory.byPath.insert entry.1.path entry.2

def ofVars (vars : List Variable) : Directory := vars.zipIdx.foldl enter empty

def resolvePath (directory : Directory) (s : Scope) (relative reference : String) :
    Except Unresolved Nat :=
  match directory.byPath.get? (join s.path relative) with
  | some id => .ok id
  | none => .error (.missing reference s.name)

def resolveName (directory : Directory) (m : Model) (s : Scope) (name : String) :
    Except Unresolved Nat :=
  match (directory.named name).filter s.contains with
  | [] => .error (.missing name s.name)
  | [id] => .ok id
  | many => .error (.ambiguous name (many.map fun id => (m.variableAt id).path))

def resolveIn (directory : Directory) (m : Model) (scope : Nat) (reference : String) :
    Except Unresolved Nat :=
  match Reference.ofString reference with
  | .path relative => directory.resolvePath (m.scopeAt scope) relative reference
  | .name name => directory.resolveName m (m.scopeAt scope) name

/-! ## What the entries are -/

theorem ofVars_concat (vars : List Variable) (v : Variable) :
    ofVars (vars ++ [v]) = (ofVars vars).enter (v, vars.length) := by
  rw [ofVars, List.zipIdx_append, List.foldl_append, Nat.zero_add]
  rfl

theorem named_enter (directory : Directory) (entry : Variable × Nat) (name : String) :
    (directory.enter entry).named name =
      directory.named name ++ if entry.1.name = name then [entry.2] else [] := by
  rw [named, enter, Table.get?_insert]
  by_cases same : name = entry.1.name
  · subst same
    simp
  · rw [if_neg same, if_neg fun other => same other.symm, List.append_nil]
    rfl

theorem named_ofVars (vars : List Variable) (name : String) :
    (ofVars vars).named name =
      (List.range vars.length).filter fun v => (vars[v]?.getD default).name = name := by
  induction vars using List.reverseRecOn with
  | nil => rfl
  | append_singleton vars v ih =>
      -- the variables before the last one keep their positions
      have earlier : ∀ k ∈ List.range vars.length,
          decide (((vars ++ [v])[k]?.getD default).name = name) =
            decide ((vars[k]?.getD default).name = name) := by
        intro k inRange
        rw [List.getElem?_append_left (List.mem_range.mp inRange)]
      rw [ofVars_concat, named_enter, ih, List.length_append, List.length_singleton,
        List.range_succ, List.filter_append, List.filter_congr earlier]
      by_cases same : v.name = name
      · simp [same]
      · simp [same]

theorem byPath_ofVars {vars : List Variable} (nodup : (vars.map (·.path)).Nodup)
    (path : String) : (ofVars vars).byPath.get? path = vars.findIdx? (·.path = path) := by
  induction vars using List.reverseRecOn with
  | nil => rfl
  | append_singleton vars v ih =>
      rw [List.map_append, List.nodup_append] at nodup
      obtain ⟨before, _, apart⟩ := nodup
      rw [ofVars_concat, enter, Table.get?_insert, List.findIdx?_append, ih before]
      by_cases same : path = v.path
      · have absent : vars.findIdx? (·.path = path) = none := by
          rw [List.findIdx?_eq_none_iff]
          intro other member
          have different := apart _ (List.mem_map_of_mem member) v.path (by simp)
          simpa [same] using different
        rw [if_pos same, absent, Option.none_or]
        simp [same]
      · simp [same, Ne.symm same]

end Directory

/-! ## Looking references up -/

namespace Model.IsTree

variable {m : Model} (tree : m.IsTree)

include tree

theorem filter_named (scope : Nat) (name : String) :
    ((Directory.ofVars m.vars).named name).filter (m.scopeAt scope).contains =
      m.candidates scope name := by
  rw [Directory.named_ofVars]
  refine List.Pairwise.eq_of_mem_iff ?_ (candidates_sorted name) fun v => ?_
  · exact (List.pairwise_lt_range.filter _).filter _
  · rw [tree.mem_candidates_iff, List.mem_filter, List.mem_filter, tree.contains_iff,
      List.mem_range, decide_eq_true_eq]
    constructor
    · rintro ⟨⟨_, own⟩, declared⟩
      exact ⟨declared, own⟩
    · rintro ⟨declared, own⟩
      exact ⟨⟨declared.1, own⟩, declared⟩

theorem resolveIn_directory (scope : Nat) (reference : String) :
    (Directory.ofVars m.vars).resolveIn m scope reference = m.resolveIn scope reference := by
  rw [Directory.resolveIn, Model.resolveIn]
  cases Reference.ofString reference with
  | path relative =>
      simp only [Directory.resolvePath, Directory.byPath_ofVars tree.variable_paths_nodup]
      rfl
  | name name =>
      simp only [Directory.resolveName, tree.filter_named]
      rfl

end Model.IsTree

namespace Declaration

/-- The two maps of a model lead every reference, from any scope, to what a search among its
variables finds, also while the builder is still resolving the constraints. -/
theorem directory_of_build {serial : Nat} {d : Declaration} {m : Model}
    (built : d.build serial = .ok m) (scope : Nat) (reference : String) :
    (Directory.ofVars m.vars).resolveIn m scope reference = m.resolveIn scope reference ∧
      (Directory.ofVars (d.frozen serial).vars).resolveIn (d.frozen serial) scope reference =
        (d.frozen serial).resolveIn scope reference := by
  have lookup := (build_laid built).isTree.resolveIn_directory scope reference
  obtain ⟨_, constraints, _, rfl⟩ := (build_ok_iff serial d m).mp built
  exact ⟨lookup, lookup⟩

end Declaration

end DecisionSpace
