import DecisionSpace.Domain
import DecisionSpace.Path

/-! # Models

A model is a tree of scopes laid out in two lists, scopes and variables, both in
depth-first pre-order; an identifier is a position in its list.  The variables
of a scope and of all scopes below it therefore stand next to each other. -/
set_option autoImplicit false
namespace DecisionSpace

structure Scope where
  name : String
  /-- Names from below the root, joined; empty for the root. -/
  path : String
  parent : Option Nat
  children : List Nat
  first : Nat
  own : Nat
  size : Nat
  deriving DecidableEq, Inhabited

namespace Scope

def vars (s : Scope) : List Nat := List.range' s.first s.own

def subtree (s : Scope) : List Nat := List.range' s.first s.size

def contains (s : Scope) (id : Nat) : Bool :=
  s.first ≤ id && id < s.first + s.size

end Scope

structure Variable where
  scope : Nat
  name : String
  path : String
  domain : Domain
  deriving DecidableEq, Inhabited

def Variable.validate (v : Variable) (value : Value) : Except Failure Value :=
  (v.domain.validate value).mapError (.invalidValue v.path)

structure Constraint where
  scope : Nat
  limit : Nat
  vars : List Nat
  deriving DecidableEq, Inhabited

namespace Constraint

def selectedCount (c : Constraint) (isSelected : Nat → Bool) : Nat :=
  c.vars.countP isSelected

def violation (c : Constraint) (isSelected : Nat → Bool) : Nat :=
  c.selectedCount isSelected - c.limit

def isSatisfied (c : Constraint) (isSelected : Nat → Bool) : Bool :=
  c.violation isSelected = 0

end Constraint

/-- A finished model.  The serial number tells two models apart that were built
from the same declaration. -/
structure Model where
  serial : Nat
  scopes : List Scope
  vars : List Variable
  constraints : List Constraint
  deriving Inhabited

namespace Model

/-- The scope at a position; the positions in use come from the model itself. -/
def scopeAt (m : Model) (id : Nat) : Scope := m.scopes[id]?.getD default

def root (m : Model) : Scope := m.scopeAt 0

def name (m : Model) : String := m.root.name

def variableAt (m : Model) (id : Nat) : Variable := m.vars[id]?.getD default

def constraintsOn (m : Model) (id : Nat) : List Nat :=
  (List.range m.constraints.length).filter fun c =>
    (m.constraints[c]?.getD default).vars.contains id

def constraintsIn (m : Model) (scope : Nat) : List Nat :=
  (List.range m.constraints.length).filter fun c =>
    (m.constraints[c]?.getD default).scope = scope

def variablesIn (m : Model) (scope : Nat) : List Variable :=
  (m.vars.drop (m.scopeAt scope).first).take (m.scopeAt scope).size

def valueCount (m : Model) : Nat := m.vars.foldl (fun n v => n + v.domain.valueCount) 0

def resolvePath (m : Model) (s : Scope) (relative reference : String) : Except Unresolved Nat :=
  let full := if s.path.isEmpty then relative else s.path ++ "/" ++ relative
  match m.vars.findIdx? (·.path = full) with
  | some id => .ok id
  | none => .error (.missing reference s.name)

def resolveName (m : Model) (s : Scope) (name : String) : Except Unresolved Nat :=
  match s.subtree.filter fun id => (m.variableAt id).name = name with
  | [] => .error (.missing name s.name)
  | [id] => .ok id
  | many => .error (.ambiguous name (many.map fun id => (m.variableAt id).path))

/-- The variable that a reference names in a scope: a path is relative to the
scope, a local name has to be unique in the scope and below it. -/
def resolveIn (m : Model) (scope : Nat) (reference : String) : Except Unresolved Nat :=
  match Path.Reference.ofString reference with
  | .path relative => m.resolvePath (m.scopeAt scope) relative reference
  | .name name => m.resolveName (m.scopeAt scope) name

def resolve (m : Model) (reference : String) : Except Unresolved Nat := m.resolveIn 0 reference

def child (m : Model) (scope : Nat) (name : String) : Except Failure Nat :=
  match (m.scopeAt scope).children.find? fun c => (m.scopeAt c).name = name with
  | some id => .ok id
  | none => .error (.unknownScope name (m.scopeAt scope).name)

end Model

end DecisionSpace
