import DecisionSpace.Context
import DecisionSpace.Value.Shape

/-! # Assignments

An assignment has one slot for each variable of its model; a slot is empty or
holds a value in canonical form.  It is seen from one scope: names are resolved
relative to it, and listings cover its subtree.  Two assignments are alike when
they have the same scope and the same slots, whatever their models. -/
set_option autoImplicit false
namespace DecisionSpace

structure Assignment where
  model : Model
  scope : Nat
  slots : List (Option Value)
  deriving Inhabited

namespace Assignment

/-- What becomes of one slot: a value is brought into canonical form, an empty
slot of a constant is filled. -/
def fillSlot (v : Variable) (slot : Option Value) : Except Failure (Option Value) :=
  match slot, v.domain with
  | some value, _ => (v.validate value).map some
  | none, .constant c => .ok (some c)
  | none, _ => .ok none

def ofSlots (m : Model) (slots : List (Option Value)) : Except Failure Assignment :=
  if slots.length ≠ m.vars.length then
    .error (.invalidValue m.name (.slotCount m.vars.length slots.length))
  else
    ((m.vars.zip slots).mapM fun p => fillSlot p.1 p.2).map fun slots => ⟨m, 0, slots⟩

def putPath (m : Model) (slots : List (Option Value)) (entry : String × Value) :
    Except Failure (List (Option Value)) := do
  let f ← m.fact ("/" ++ entry.1) entry.2
  .ok (slots.set f.id (some f.value))

/-- The assignment that a table of full paths describes; the paths are read in
ascending order. -/
def ofMap (m : Model) (map : Table String Value) : Except Failure Assignment := do
  let slots ← map.entries.foldlM (putPath m) (List.replicate m.vars.length none)
  ofSlots m slots

def view (a : Assignment) : Scope := a.model.scopeAt a.scope

def value? (a : Assignment) (id : Nat) : Option Value := a.slots[id]?.join

/-- Whether a variable counts toward constraints: a constant always does, any
other variable when its value is selected. -/
def isSelected (a : Assignment) (id : Nat) : Bool :=
  match (a.model.variableAt id).domain with
  | .constant _ => true
  | _ => (a.value? id).any Value.isSelected

def get (a : Assignment) (reference : String) : Except Failure Value := do
  let id ← (a.model.resolveIn a.scope reference).mapError .unresolved
  match a.value? id with
  | some v => .ok v
  | none => .error (.unassigned (a.model.variableAt id).path)

def getAs (a : Assignment) (shape : Shape) (reference : String) : Except Failure shape.Carrier := do
  let v ← a.get reference
  shape.extract reference v

def getBool (a : Assignment) (reference : String) : Except Failure Bool := do
  let v ← a.get reference
  v.asBool?.elim (.error (Shape.bool.mismatch reference v)) .ok

def getInt (a : Assignment) (reference : String) : Except Failure Int64 := do
  let v ← a.get reference
  v.asInt?.elim (.error (Shape.int.mismatch reference v)) .ok

def getText (a : Assignment) (reference : String) : Except Failure String := do
  let v ← a.get reference
  v.asText?.elim (.error (Shape.text.mismatch reference v)) .ok

def getSelection (a : Assignment) (reference : String) : Except Failure (List Value) := do
  let v ← a.get reference
  v.asSelection?.elim (.error ((Shape.list .any).mismatch reference v)) .ok

def sub (a : Assignment) (name : String) : Except Failure Assignment :=
  (a.model.child a.scope name).map fun scope => { a with scope }

def isComplete (a : Assignment) : Bool := a.view.subtree.all fun id => (a.value? id).isSome

def satisfies (a : Assignment) (c : Context) : Bool :=
  c.entries.all fun e => a.value? e.1 = some e.2

def isFeasible (a : Assignment) : Bool := a.model.constraints.all (·.isSatisfied a.isSelected)

inductive Defect where
  | incomplete
  | infeasible
  | contextViolated
  deriving DecidableEq

def Defect.message : Defect → String
  | .incomplete => "incomplete"
  | .infeasible => "infeasible"
  | .contextViolated => "context violated"

/-- The first thing that the assignment lacks to be a solution that agrees with
a context. -/
def defect? (a : Assignment) (c : Context) : Option Defect :=
  if !a.isComplete then some .incomplete
  else if !a.isFeasible then some .infeasible
  else if !a.satisfies c then some .contextViolated
  else none

/-- The values in the view with paths relative to it, in the order of the
variables. -/
def entries (a : Assignment) : List (String × Value) :=
  a.view.subtree.filterMap fun id =>
    (a.value? id).map fun v => (Path.relativeTo a.view.path (a.model.variableAt id).path, v)

def toMap (a : Assignment) : Table String Value := Table.ofList a.entries

def alike (a b : Assignment) : Bool := a.scope = b.scope ∧ a.slots = b.slots

def render (a : Assignment) : String :=
  "\x7b" ++ ", ".intercalate (a.entries.map fun e => e.1 ++ "=" ++ e.2.render) ++ "\x7d"

end Assignment

end DecisionSpace
