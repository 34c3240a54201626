import DecisionSpace.Failure

/-! # Domains

The domain of a variable says which values it may hold and which of these is its
canonical form.  Only a selection has more than one form: `validate` puts its
elements into the order of the domain. -/
set_option autoImplicit false
namespace DecisionSpace

inductive Domain where
  | boolean
  | constant (value : Value)
  | nominal (elements : List Value)
  | multiSelect (elements : List Value) (min max : Nat)
  deriving DecidableEq, Inhabited

namespace Domain

def optionalMultiple (elements : List Value) : Domain := .multiSelect elements 0 elements.length

def multiple (elements : List Value) : Domain := .multiSelect elements 1 elements.length

def kindName : Domain → String
  | .boolean => "boolean"
  | .constant _ => "constant"
  | .nominal _ => "nominal"
  | .multiSelect .. => "multi-select"

def isSearchable : Domain → Bool
  | .constant _ => false
  | _ => true

def isAlwaysSelected : Domain → Bool
  | .boolean => false
  | .constant _ | .nominal _ => true
  | .multiSelect _ min _ => 0 < min

def unselected? : Domain → Option Value
  | .boolean => some (.bool false)
  | .multiSelect _ 0 _ => some (.selection [])
  | _ => none

/-- Whether a variable of this domain counts as selected when it holds `v`: a
constant always does. -/
def selects : Domain → Value → Bool
  | .constant _, _ => true
  | _, v => v.isSelected

def valueCount : Domain → Nat
  | .boolean => 1
  | .constant _ => 0
  | .nominal elements | .multiSelect elements _ _ => elements.length

/-- Refuses the first element that is outside the domain or was met before. -/
def checkElements (elements met : List Value) : List Value → Except Refusal Unit
  | [] => .ok ()
  | v :: rest =>
      if v ∉ elements then .error (.outsideDomain v)
      else if v ∈ met then .error (.repeated v)
      else checkElements elements (v :: met) rest

/-- Accepts the values of the domain and gives their canonical form. -/
def validate : Domain → Value → Except Refusal Value
  | .boolean, .bool b => .ok (.bool b)
  | .constant c, v => if c = v then .ok v else .error (.notTheConstant c v)
  | .nominal elements, v => if v ∈ elements then .ok v else .error (.outsideDomain v)
  | .multiSelect elements min max, .selection items => do
      checkElements elements [] items
      if items.length < min ∨ max < items.length then
        .error (.wrongSize items.length min max)
      else
        .ok (.selection (elements.filter (· ∈ items)))
  | domain, v => .error (.wrongShape domain.kindName v.typeName)

def checkDistinct (met : List Value) : List Value → Except DomainFault Unit
  | [] => .ok ()
  | v :: rest =>
      if v.isSelection then .error .nestedSelection
      else if v ∈ met then .error (.duplicate v)
      else checkDistinct (v :: met) rest

def checkElementList (elements : List Value) : Except DomainFault Unit :=
  if elements.isEmpty then .error .empty else checkDistinct [] elements

def check : Domain → Except DomainFault Unit
  | .boolean => .ok ()
  | .constant value => if value.isSelection then .error .constantSelection else .ok ()
  | .nominal elements => checkElementList elements
  | .multiSelect elements min max => do
      checkElementList elements
      if max < min ∨ elements.length < max then .error (.bounds min max elements.length)
      else .ok ()

end Domain

end DecisionSpace
