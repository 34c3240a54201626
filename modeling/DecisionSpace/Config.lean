import DecisionSpace.Bandit.Posterior
import DecisionSpace.Search.Settings

/-! # Configurations

A configuration holds the seed, the settings of the search and those of the
bandit.  `validate` reports the first setting that neither can work with: the
search is checked before the bandit. -/
set_option autoImplicit false
namespace DecisionSpace

structure BanditSettings where
  armLimit : Nat := 500
  maximize : Bool := true
  posterior : Posterior := .normal {}
  deriving Inhabited

structure Config where
  randomSeed : Option UInt64 := none
  search : Search.Settings := {}
  bandit : BanditSettings := {}
  deriving Inhabited

inductive ConfigFault where
  | restarts
  | maxRepairSteps
  | minRepairSteps
  | armLimit
  | priorWeight
  | priorMean
  | priorSpread
  | rateMean
  deriving DecidableEq

def ConfigFault.message : ConfigFault → String
  | .restarts => "Invalid configuration: solver.restarts must be positive"
  | .maxRepairSteps => "Invalid configuration: solver.max_repair_steps must be positive"
  | .minRepairSteps => "Invalid configuration: solver.min_repair_steps must be positive"
  | .armLimit => "Invalid configuration: bandit.arm_limit must be positive"
  | .priorWeight => "Invalid configuration: prior_weight must be positive"
  | .priorMean => "Invalid configuration: prior_mean must be finite"
  | .priorSpread => "Invalid configuration: prior_squared_deviations must be positive"
  | .rateMean => "Invalid configuration: binomial prior_mean must lie in (0, 1)"

def require (condition : Bool) (fault : ConfigFault) : Except ConfigFault Unit :=
  if condition then .ok () else .error fault

def Search.Settings.validate (s : Search.Settings) : Except ConfigFault Unit := do
  require (s.restarts != 0) .restarts
  require (s.maxRepairSteps != some 0) .maxRepairSteps
  require (s.maxRepairSteps.isSome || s.minRepairSteps != 0) .minRepairSteps

def isPositive (x : Float) : Bool := x.isFinite && 0 < x

def Posterior.validate : Posterior → Except ConfigFault Unit
  | .normal p => do
      require (isPositive p.weight) .priorWeight
      require p.mean.isFinite .priorMean
      require (isPositive p.squaredDeviations) .priorSpread
  | .binomial p => do
      require (isPositive p.weight) .priorWeight
      require (0 < p.mean && p.mean < 1) .rateMean

def BanditSettings.validate (s : BanditSettings) : Except ConfigFault Unit := do
  require (s.armLimit != 0) .armLimit
  s.posterior.validate

/-- Refuses settings that the search or the bandit cannot work with. -/
def Config.validate (c : Config) : Except ConfigFault Unit := do
  c.search.validate
  c.bandit.validate

end DecisionSpace
