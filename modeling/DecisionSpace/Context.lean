import DecisionSpace.Declaration
import DecisionSpace.Table

/-! # Contexts

A context fixes some variables to values that solutions and choices must hold.
Its facts are made by a model, which resolves the name and brings the value into
canonical form; the context itself keeps identifiers only, so that it can be
checked against any model. -/
set_option autoImplicit false
namespace DecisionSpace

structure Fact where
  id : Nat
  value : Value
  deriving DecidableEq

def Model.factIn (m : Model) (scope : Nat) (reference : String) (value : Value) :
    Except Failure Fact := do
  let id ← (m.resolveIn scope reference).mapError .unresolved
  let canonical ← (m.variableAt id).validate value
  .ok ⟨id, canonical⟩

def Model.fact (m : Model) (reference : String) (value : Value) : Except Failure Fact :=
  m.factIn 0 reference value

structure Context where
  table : Table Nat Value := .empty
  deriving DecidableEq, Inhabited

namespace Context

def empty : Context := {}

/-- A later fact for the same variable replaces an earlier one. -/
def insert (c : Context) (f : Fact) : Context := ⟨c.table.insert f.id f.value⟩

def extend (c : Context) (facts : List Fact) : Context := facts.foldl insert c

def ofFacts (facts : List Fact) : Context := empty.extend facts

def ofFact (f : Fact) : Context := empty.insert f

def ofPairs (m : Model) (pairs : List (String × Value)) : Except Failure Context :=
  (pairs.mapM fun p => m.fact p.1 p.2).map ofFacts

def get? (c : Context) (id : Nat) : Option Value := c.table.get? id

def contains (c : Context) (id : Nat) : Bool := c.table.contains id

def entries (c : Context) : List (Nat × Value) := c.table.entries

def size (c : Context) : Nat := c.table.size

def isEmpty (c : Context) : Bool := c.table.isEmpty

theorem get?_insert (c : Context) (f : Fact) (id : Nat) :
    (c.insert f).get? id = if id = f.id then some f.value else c.get? id :=
  Table.get?_insert c.table f.id id f.value

/-- Refuses an entry for a variable that the model does not have, or whose value
is not in the canonical form of its domain. -/
def checkEntry (m : Model) (entry : Nat × Value) : Except Failure Unit :=
  match m.vars[entry.1]? with
  | none => .error (.unknownVariable entry.1)
  | some v => do
      let canonical ← v.validate entry.2
      if canonical = entry.2 then .ok () else .error (.invalidValue v.path (.notCanonical entry.2))

def validate (c : Context) (m : Model) : Except Failure Unit :=
  c.entries.forM (checkEntry m)

end Context

end DecisionSpace
