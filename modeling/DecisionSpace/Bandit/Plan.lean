import DecisionSpace.Bandit
import DecisionSpace.Config
import DecisionSpace.Search.Solver

/-! # Plans of bandits

A plan collects what a bandit is built from: a model and a policy, given arms,
and arms restored from snapshots.  Without either kind of arm the build
generates feasible assignments, all of them when the model is small enough and
random ones otherwise. -/
set_option autoImplicit false
namespace DecisionSpace

structure BanditPlan where
  model : Model
  policy : Policy
  assignments : List Assignment := []
  restored : List (Assignment × Stats) := []
  armLimit : Nat := 500
  maximize : Bool := true
  seed : Option UInt64 := none
  settings : Search.Settings := {}
  deriving Inhabited

namespace BanditPlan

def ofConfig (m : Model) (c : Config) : BanditPlan where
  model := m
  policy := ⟨.thompson, c.bandit.posterior⟩
  armLimit := c.bandit.armLimit
  maximize := c.bandit.maximize
  seed := c.randomSeed
  settings := c.search

def addArms (p : BanditPlan) (arms : List Assignment) : BanditPlan :=
  { p with assignments := p.assignments ++ arms }

def checkStatistic (a : Assignment) (field : String) (x : Float) (signed : Bool) :
    Except Failure Unit :=
  if !x.isFinite || (!signed && x < 0) then
    .error (.invalidValue (field ++ " of arm " ++ a.render) (.badStatistic x))
  else .ok ()

def checkStats (a : Assignment) (s : Stats) : Except Failure Unit := do
  checkStatistic a "mean" s.mean true
  checkStatistic a "squared_deviations" s.squaredDeviations false
  checkStatistic a "weight" s.weight false

def restoreArm (m : Model) (arm : ArmSnapshot) : Except Failure (Assignment × Stats) := do
  let a ← Assignment.ofMap m arm.values
  checkStats a arm.stats
  .ok (a, arm.stats)

def restore (p : BanditPlan) (s : Snapshot) : Except Failure BanditPlan := do
  let arms ← s.arms.mapM (restoreArm p.model)
  .ok { p with restored := p.restored ++ arms }

def checkArm (m : Model) (a : Assignment) : Except Failure Unit :=
  if a.model.serial ≠ m.serial then
    .error (.invalidValue a.model.name (.foreignAssignment m.name))
  else if a.scope ≠ 0 then .error (.invalidValue (m.scopeAt a.scope).path .partialView)
  else .ok ()

def addNew (prior : Stats) (arms : List Arm) (a : Assignment) : List Arm :=
  if arms.any fun arm => arm.assignment.alike a then arms else arms ++ [⟨a, prior⟩]

def addRestored (arms : List Arm) (entry : Assignment × Stats) : List Arm :=
  match arms.findIdx? fun arm => arm.assignment.alike entry.1 with
  | some i => arms.modify i fun arm => { arm with stats := entry.2 }
  | none => arms ++ [⟨entry.1, entry.2⟩]

/-- The given arms, or generated ones when there are none of either kind. -/
def candidates (p : BanditPlan) (seed : UInt64) : Except Failure (List Assignment) :=
  if p.assignments.isEmpty && p.restored.isEmpty then
    let solver : Solver := ⟨p.model, p.settings⟩
    if solver.isEnumerable then solver.enumerate .empty p.armLimit
    else (solver.distinctWitnesses .empty p.armLimit seed).result
  else .ok p.assignments

/-- Builds the bandit; `fallback` is the seed of a plan without one. -/
def build (p : BanditPlan) (fallback : UInt64) : Except Failure Bandit := do
  let seed := p.seed.getD fallback
  let given ← p.candidates seed
  given.forM (checkArm p.model)
  let arms := p.restored.foldl addRestored (given.foldl (addNew p.policy.prior) [])
  if arms.isEmpty then .error (.invalidModel (.noArms p.model.name))
  else .ok { model := p.model, policy := p.policy, arms, maximize := p.maximize, seed }

end BanditPlan

end DecisionSpace
