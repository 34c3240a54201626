import DecisionSpace.Model

/-! # Declarations

A declaration is the tree that a model is built from.  `check` walks it in
pre-order and reports the first fault in names and domains; `layout` numbers
scopes and variables in the same order; `build` then resolves the references of
the constraints in the finished layout. -/
set_option autoImplicit false
namespace DecisionSpace

structure AtMost where
  limit : Nat
  references : List String
  deriving DecidableEq, Inhabited

structure Declaration where
  name : String
  vars : List (String × Domain) := []
  limits : List AtMost := []
  children : List Declaration := []
  deriving Inhabited

namespace Declaration

def checkName (what : Named) (name : String) : Except ModelFault Unit :=
  if name.isEmpty then .error (.emptyName what)
  else if Path.hasSeparator name then .error (.separatorInName what name)
  else .ok ()

def checkVariables (scope path : String) (met : List String) :
    List (String × Domain) → Except ModelFault Unit
  | [] => .ok ()
  | (name, domain) :: rest => do
      checkName .variable name
      if name ∈ met then .error (.duplicateVariable name scope)
      else do
        domain.check.mapError (.badDomain (Path.join path name))
        checkVariables scope path (name :: met) rest

mutual

/-- The first fault in the names and domains of a declaration whose scope has
the given path. -/
def check (path : String) : Declaration → Except ModelFault Unit
  | ⟨name, vars, _, children⟩ => do
      checkName .scope name
      checkVariables name path [] vars
      checkChildren name path [] children

def checkChildren (scope path : String) (met : List String) :
    List Declaration → Except ModelFault Unit
  | [] => .ok ()
  | child :: rest =>
      if child.name ∈ met then .error (.duplicateScope child.name scope)
      else do
        check (Path.join path child.name) child
        checkChildren scope path (child.name :: met) rest

end

structure Layout where
  roots : List Nat
  scopes : List Scope
  vars : List Variable
  limits : List (Nat × AtMost)
  deriving Inhabited

def Layout.empty : Layout := ⟨[], [], [], []⟩

def Layout.append (a b : Layout) : Layout :=
  ⟨a.roots ++ b.roots, a.scopes ++ b.scopes, a.vars ++ b.vars, a.limits ++ b.limits⟩

mutual

/-- Lays a declaration out from the given scope and variable numbers on. -/
def layout (parent : Option Nat) (path : String) (scope first : Nat) : Declaration → Layout
  | ⟨name, vars, limits, children⟩ =>
      let own := vars.map fun v => Variable.mk scope v.1 (Path.join path v.1) v.2
      let below := layoutChildren scope path (scope + 1) (first + own.length) children
      { roots := [scope]
        scopes :=
          { name, path, parent
            children := below.roots
            first
            own := own.length
            size := own.length + below.vars.length } :: below.scopes
        vars := own ++ below.vars
        limits := limits.map (fun l => (scope, l)) ++ below.limits }

def layoutChildren (parent : Nat) (path : String) (scope first : Nat) : List Declaration → Layout
  | [] => .empty
  | child :: rest =>
      let one := layout (some parent) (Path.join path child.name) scope first child
      one.append
        (layoutChildren parent path (scope + one.scopes.length) (first + one.vars.length) rest)

end

/-- The variables that the references name, each once, in order of first
occurrence. -/
def resolveAll (m : Model) (scope : Nat) : List String → List Nat → Except Unresolved (List Nat)
  | [], found => .ok found
  | reference :: rest, found => do
      let id ← m.resolveIn scope reference
      resolveAll m scope rest (if id ∈ found then found else found ++ [id])

def AtMost.resolve (m : Model) (scope : Nat) (l : AtMost) : Except ModelFault Constraint := do
  let vars ← (resolveAll m scope l.references []).mapError
    (.badReference (m.scopeAt scope).name)
  if vars.isEmpty then .error (.noReferences (m.scopeAt scope).name)
  else if vars.length < l.limit then .error (.limitTooHigh l.limit vars.length)
  else .ok ⟨scope, l.limit, vars⟩

def build (serial : Nat) (d : Declaration) : Except Failure Model := do
  (check "" d).mapError .invalidModel
  let l := layout none "" 0 0 d
  let bare : Model := ⟨serial, l.scopes, l.vars, []⟩
  let constraints ← (l.limits.mapM fun (scope, limit) => AtMost.resolve bare scope limit).mapError
    .invalidModel
  .ok { bare with constraints }

end Declaration

end DecisionSpace
