import DecisionSpace.Config.Yaml.Node
import DecisionSpace.Config.Yaml.Value

/-! # YAML documents

What a node stands for depends on the setting that it is given for.  Only the
settings are read, and references only where they are met on the way; since a
reference may lead back to where it stands, their number is limited. -/
set_option autoImplicit false
namespace DecisionSpace.Yaml

/-- Reading counts down how many references may still be followed. -/
abbrev Reading := StateT Nat Option

def referencesPerPart : Nat := 100

abbrev Reader (α : Type) := Tree → Node → Reading α

def follow : Reader Node := fun tree node => do
  match node with
  | .reference number => do
      match ← get with
      | 0 => failure
      | n + 1 => do
          set n
          (tree.targets.lookup number : Option Node)
  | node => return node

/-! ## Scalars of a known kind -/

/-- Whether a scalar may be a value of this kind.  It is plain, or a block with the
tag of the kind. -/
def admits (kind : String) (tag : Option String) (style : Style) : Bool :=
  style = .plain || (style = .literal && tag = some (kindTag kind))

def text : Reader String := fun tree node => do
  match ← follow tree node with
  | .scalar _ _ s => return s
  | _ => failure

def natural : Reader Document := fun tree node => do
  match ← follow tree node with
  | .scalar tag style s => do
      let n ← (unsigned? s.toList : Option Nat)
      if admits "int" tag style then return .int n else failure
  | _ => failure

/-- A natural number or a null.  With the tag of a null, no other word may stand. -/
def naturalOrNull : Reader Document := fun tree node => do
  let node ← follow tree node
  match node with
  | .scalar none .plain s =>
      if s = "" || isNullWord s then return .null else natural tree node
  | .scalar (some tag) .plain s =>
      if tag ≠ kindTag "null" then natural tree node
      else if isNullWord s then return .null
      else failure
  | _ => natural tree node

def truth : Reader Document := fun tree node => do
  match ← follow tree node with
  | .scalar tag style s => do
      let b ← (truth? s : Option Bool)
      if admits "bool" tag style then return .bool b else failure
  | _ => failure

/-- A name of a choice: any scalar, or a local tag with nothing after it. -/
def choice : Reader Document := fun tree node => do
  match ← follow tree node with
  | .scalar tag style s =>
      match tag.filter isLocalTag with
      | none => return .text s
      | some tag =>
          if style = .plain && (s = "" || isNullWord s) then
            return .text (String.ofList (tag.toList.drop 1))
          else failure
  | _ => failure

/-! ## Groups and free content -/

/-- A group of settings with the readers of its fields.  Its keys are scalars, of
which unknown ones are passed over with their values; a group may be blank. -/
def group (fields : List (String × Reader Document)) : Reader Document := fun tree node => do
  match ← follow tree node with
  | .map _ entries => do
      let known ← entries.mapM fun (k, d) => do
        let name ← text tree k
        match fields.lookup name with
        | some read => return some (Document.text name, ← read tree d)
        | none => return none
      return .map (known.filterMap id)
  | .scalar _ .plain "" => return .map []
  | _ => failure

def noLocalTag (tag : Option String) : Reading Unit := do
  if tag.any isLocalTag then failure

def content : Nat → Reader Document
  | depth, tree, node => do
      match depth, ← follow tree node with
      | _, .scalar tag style s => (scalar? tag style s : Option Document)
      | depth + 1, .list tag items => do
          noLocalTag tag
          return .list (← items.mapM (content depth tree))
      | depth + 1, .map tag entries => do
          noLocalTag tag
          return .map (← entries.mapM fun (k, d) =>
            return (← content depth tree k, ← content depth tree d))
      | _, _ => failure

/-- How deep lists and maps may stand in a group that names its type, which is three
deep itself. -/
def maxContent : Nat := 128 - 3

def typed : Reader Document := fun tree node => do
  match ← follow tree node with
  | .map tag entries => do
      noLocalTag tag
      return .map (← entries.mapM fun (k, d) => do
        match ← content maxContent tree k with
        | .text "type" => return (.text "type", .text (← text tree d))
        | k => return (k, ← content maxContent tree d))
  | .list tag (type :: rest) => do
      noLocalTag tag
      return .list (.text (← text tree type) :: (← rest.mapM (content maxContent tree)))
  | _ => failure

/-! ## Settings -/

def search : Reader Document :=
  group [("restarts", natural), ("repair_policy", choice), ("max_repair_steps", naturalOrNull),
    ("repair_steps_per_variable", natural), ("min_repair_steps", natural)]

def bandit : Reader Document :=
  group [("arm_limit", natural), ("maximize", truth), ("posterior", typed)]

def settings : Reader Document :=
  group [("random_seed", naturalOrNull), ("solver", search), ("bandit", bandit)]

def read? (s : String) : Option Document := do
  let tree ← tree? s
  match tree.root with
  | none => some (.map [])
  | some node => (settings tree node).run' (referencesPerPart * tree.size)

end DecisionSpace.Yaml
