import DecisionSpace.Value
import DecisionSpace.Decimal.Shortest

/-! # Failures

Each failure is a cause with the data its text needs; `message` gives the text.
The causes are grouped by what went wrong: a reference that names no variable, a
refused value, a faulty declaration, a problem without a solution, or a
computation that cannot go on. -/
set_option autoImplicit false
namespace DecisionSpace

inductive Unresolved where
  | missing (reference scope : String)
  | ambiguous (name : String) (candidates : List String)
  deriving DecidableEq

def Unresolved.message : Unresolved → String
  | .missing reference scope => s!"Not found: variable '{reference}' in scope '{scope}'"
  | .ambiguous name candidates =>
      s!"Ambiguous name '{name}', candidates: " ++ ", ".intercalate candidates

inductive Refusal where
  | notTheConstant (constant got : Value)
  | outsideDomain (value : Value)
  | repeated (value : Value)
  | wrongSize (size min max : Nat)
  | wrongShape (kind shape : String)
  | notCanonical (value : Value)
  | slotCount (expected got : Nat)
  | notFinite (number : Float)
  | notPositive (number : Float)
  | foreignAssignment (model : String)
  | partialView
  | badStatistic (number : Float)

def Refusal.message : Refusal → String
  | .notTheConstant constant got =>
      "constant can only be " ++ constant.render ++ ", got " ++ got.render
  | .outsideDomain value => value.render ++ " is not in the domain"
  | .repeated value => value.render ++ " selected more than once"
  | .wrongSize size min max => s!"{size} elements selected, allowed {min}..={max}"
  | .wrongShape kind shape => s!"{kind} variable cannot hold a {shape} value"
  | .notCanonical value => value.render ++ " is not in canonical domain order"
  | .slotCount expected got => s!"expected {expected} values, got {got}"
  | .notFinite number => Decimal.render number ++ " is not a finite number"
  | .notPositive number => Decimal.render number ++ " is not a positive finite number"
  | .foreignAssignment model => s!"assignment belongs to another model than '{model}'"
  | .partialView => "arms must be assignments of the whole model"
  | .badStatistic number => Decimal.render number ++ " is not a valid snapshot statistic"

inductive DomainFault where
  | constantSelection
  | empty
  | nestedSelection
  | duplicate (value : Value)
  | bounds (min max size : Nat)
  deriving DecidableEq

def DomainFault.message : DomainFault → String
  | .constantSelection => "constant cannot be a selection"
  | .empty => "empty domain"
  | .nestedSelection => "domain values cannot be selections"
  | .duplicate value => "duplicate domain value " ++ value.render
  | .bounds min max size => s!"bounds {min}..={max} do not fit a domain of {size}"

inductive Named where
  | scope
  | variable
  deriving DecidableEq

def Named.noun : Named → String
  | .scope => "scope"
  | .variable => "variable"

inductive ModelFault where
  | emptyName (what : Named)
  | separatorInName (what : Named) (name : String)
  | duplicateVariable (name scope : String)
  | duplicateScope (name scope : String)
  | badDomain (path : String) (cause : DomainFault)
  | badReference (scope : String) (cause : Unresolved)
  | noReferences (scope : String)
  | limitTooHigh (limit referenced : Nat)
  | tooManyValues (model : String) (values limit : Nat)
  | noArms (model : String)
  deriving DecidableEq

def ModelFault.message : ModelFault → String
  | .emptyName what => "empty " ++ what.noun ++ " name"
  | .separatorInName what name => what.noun ++ s!" name '{name}' contains '/'"
  | .duplicateVariable name scope => s!"duplicate variable '{name}' in scope '{scope}'"
  | .duplicateScope name scope => s!"duplicate child scope '{name}' in scope '{scope}'"
  | .badDomain path cause => s!"variable '{path}': " ++ cause.message
  | .badReference scope cause => s!"constraint in scope '{scope}': " ++ cause.message
  | .noReferences scope => s!"constraint in scope '{scope}' references no variables"
  | .limitTooHigh limit referenced =>
      s!"at-most limit {limit} exceeds the {referenced} referenced variables"
  | .tooManyValues model values limit =>
      s!"'{model}' spans {values} values, more than the {limit} that can be enumerated"
  | .noArms model => s!"bandit over '{model}' has no arms"

inductive Conflict where
  | forced (selected : Nat) (scope : String) (limit : Nat)
  | stuck (constraint : Nat)
  | exhausted (model : String) (attempts flips : Nat)
  | noWitness (model : String) (attempts : Nat)
  | infeasible (model : String)
  | noEligibleArm (model : String)
  deriving DecidableEq

def Conflict.message : Conflict → String
  | .forced selected scope limit =>
      s!"{selected} variables are always selected in a constraint of '{scope}' " ++
        s!"allowing at most {limit}"
  | .stuck constraint => s!"constraint #{constraint} has no variable left to switch off"
  | .exhausted model attempts flips =>
      s!"no feasible assignment for '{model}' after {attempts} attempts of {flips} flips"
  | .noWitness model attempts => s!"no witness found for '{model}' in {attempts} attempts"
  | .infeasible model => s!"'{model}' has no feasible assignment"
  | .noEligibleArm model => s!"no arm of '{model}' is consistent with the context"

inductive Breakdown where
  | countOverflow
  | tooManySubsets
  | emptyRange
  deriving DecidableEq

def Breakdown.message : Breakdown → String
  | .countOverflow => "attempt to add with overflow"
  | .tooManySubsets => "attempt to shift left with overflow"
  | .emptyRange => "cannot sample empty range"

inductive Failure where
  | unresolved (cause : Unresolved)
  | unknownScope (name parent : String)
  | unassigned (path : String)
  | unknownVariable (id : Nat)
  | typeMismatch (name expected found : String)
  | invalidValue (name : String) (cause : Refusal)
  | invalidModel (cause : ModelFault)
  | unsatisfiable (cause : Conflict)
  | unknownArm
  | breakdown (cause : Breakdown)

def Failure.message : Failure → String
  | .unresolved cause => cause.message
  | .unknownScope name parent => s!"Not found: child scope '{name}' of '{parent}'"
  | .unassigned path => s!"Not found: value for '{path}'"
  | .unknownVariable id => s!"Not found: variable #{id}"
  | .typeMismatch name expected found =>
      s!"Type mismatch for '{name}': expected {expected}, found {found}"
  | .invalidValue name cause => s!"Invalid value for '{name}': " ++ cause.message
  | .invalidModel cause => "Invalid model: " ++ cause.message
  | .unsatisfiable cause => "Unsatisfiable: " ++ cause.message
  | .unknownArm => "Assignment is not an arm of this bandit"
  | .breakdown cause => cause.message

end DecisionSpace
