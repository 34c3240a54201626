/-! # Settings of a search

A search makes a number of attempts, each of which may switch off a limited
number of variables. -/
set_option autoImplicit false
namespace DecisionSpace.Search

inductive RepairPolicy where
  | random
  | lowestPath
  deriving DecidableEq, Repr, Inhabited

def maxFlips : Nat := UInt64.size - 1

structure Settings where
  restarts : Nat := 5
  repairPolicy : RepairPolicy := .random
  maxRepairSteps : Option Nat := none
  repairStepsPerVariable : Nat := 10
  minRepairSteps : Nat := 100
  deriving DecidableEq, Inhabited

/-- The bound on the flips of one attempt on a model with so many variables. -/
def Settings.stepLimit (s : Settings) (vars : Nat) : Nat :=
  match s.maxRepairSteps with
  | some steps => steps
  | none => max (min (s.repairStepsPerVariable * vars) maxFlips) s.minRepairSteps

end DecisionSpace.Search
