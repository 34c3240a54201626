import DecisionSpace.Config
import DecisionSpace.Config.Document

/-! # Settings of a document

The settings are looked up by name; unknown names are passed over, a repeated
name is refused, and a setting that is not given keeps its default.  A group of
settings may also be written as a list in the order of its fields.  No kind of
scalar is converted into another, except that an integer may stand for a
float. -/
set_option autoImplicit false
namespace DecisionSpace
namespace Document

def nat? (bound : Nat) : Document → Option Nat
  | .int i => if 0 ≤ i ∧ i ≤ bound then some i.toNat else none
  | _ => none

def max32 : Nat := UInt32.size - 1

def max64 : Nat := UInt64.size - 1

def bool? : Document → Option Bool
  | .bool b => some b
  | _ => none

def float? : Document → Option Float
  | .float x => some x
  | .int i =>
      if 0 ≤ i ∧ i ≤ max64 then some i.toNat.toUInt64.toFloat
      else if Int64.minValue.toInt ≤ i ∧ i < 0 then some (Int64.ofInt i).toFloat
      else none
  | _ => none

def orNull? {α : Type} (read : Document → Option α) : Document → Option (Option α)
  | .null => some none
  | d => (read d).map some

/-- The position of the field that a key stands for, by its name or by the
position itself, if the group has such a field.  Nothing else may be a key. -/
def position? (names : List String) : Document → Option (Option Nat)
  | .text name => some (names.findIdx? (· = name))
  | .int i => if 0 ≤ i then some (some i.toNat) else none
  | _ => none

/-- The value of the field at a position, if it is given; a repeated field is
refused. -/
def fieldAt? (placed : List (Option Nat × Document)) (i : Nat) : Option (Option Document) :=
  match placed.filter (·.1 = some i) with
  | [] => some none
  | [e] => some (some e.2)
  | _ => none

/-- The fields of a group, by key or by their order.  A list that is longer than
the group is refused when it is `strict`. -/
def fields? (strict : Bool) (names : List String) : Document → Option (List (Option Document))
  | .moment => some (names.map fun _ => none)
  | .map entries => do
      let placed ← entries.mapM fun (k, d) => (position? names k).map (·, d)
      (List.range names.length).mapM (fieldAt? placed)
  | .list items =>
      if strict && names.length < items.length then none
      else some ((List.range names.length).map fun i => items[i]?)
  | _ => none

def field {α : Type} (read : Document → Option α) (default : α) : Option Document → Option α
  | none => some default
  | some d => read d

end Document

open Document

def Search.RepairPolicy.ofName? : String → Option Search.RepairPolicy
  | "random" => some .random
  | "lowest_path" => some .lowestPath
  | _ => none

/-- A policy is a name, or the only key of a table with nothing in it. -/
def Search.RepairPolicy.ofDocument? : Document → Option Search.RepairPolicy
  | .text name | .map [(.text name, .map [])] | .map [(.text name, .list [])] => ofName? name
  | _ => none

def Search.Settings.ofDocument? (d : Document) : Option Search.Settings := do
  let names := ["restarts", "repair_policy", "max_repair_steps", "repair_steps_per_variable",
    "min_repair_steps"]
  match ← fields? false names d with
  | [restarts, repairPolicy, maxRepairSteps, perVariable, minRepairSteps] =>
      let base : Search.Settings := {}
      some {
        restarts := ← field (nat? max32) base.restarts restarts
        repairPolicy := ← field Search.RepairPolicy.ofDocument? base.repairPolicy repairPolicy
        maxRepairSteps := ← field (orNull? (nat? max64)) base.maxRepairSteps maxRepairSteps
        repairStepsPerVariable := ← field (nat? max64) base.repairStepsPerVariable perVariable
        minRepairSteps := ← field (nat? max64) base.minRepairSteps minRepairSteps }
  | _ => none

def NormalPrior.ofDocument? (d : Document) : Option NormalPrior := do
  match ← fields? true ["prior_mean", "prior_squared_deviations", "prior_weight"] d with
  | [mean, squaredDeviations, weight] =>
      let base : NormalPrior := {}
      some {
        mean := ← field float? base.mean mean
        squaredDeviations := ← field float? base.squaredDeviations squaredDeviations
        weight := ← field float? base.weight weight }
  | _ => none

def RatePrior.ofDocument? (d : Document) : Option RatePrior := do
  match ← fields? true ["prior_mean", "prior_weight"] d with
  | [mean, weight] =>
      let base : RatePrior := {}
      some {
        mean := ← field float? base.mean mean
        weight := ← field float? base.weight weight }
  | _ => none

def Posterior.ofType? (type : Document) (rest : Document) : Option Posterior :=
  match type with
  | .text "normal" => (NormalPrior.ofDocument? rest).map .normal
  | .text "binomial" => (RatePrior.ofDocument? rest).map .binomial
  | _ => none

def Posterior.isTypeKey : Document → Bool
  | .text name => name = "type"
  | _ => false

/-- A posterior always names its type, as a list in the first place. -/
def Posterior.ofDocument? : Document → Option Posterior
  | .map entries =>
      match entries.filter fun e => isTypeKey e.1 with
      | [e] => ofType? e.2 (.map entries)
      | _ => none
  | .list (type :: rest) => ofType? type (.list rest)
  | _ => none

def BanditSettings.ofDocument? (d : Document) : Option BanditSettings := do
  match ← fields? false ["arm_limit", "maximize", "posterior"] d with
  | [armLimit, maximize, posterior] =>
      let base : BanditSettings := {}
      some {
        armLimit := ← field (nat? max64) base.armLimit armLimit
        maximize := ← field bool? base.maximize maximize
        posterior := ← field Posterior.ofDocument? base.posterior posterior }
  | _ => none

def Config.ofDocument? (d : Document) : Option Config := do
  match ← fields? false ["random_seed", "solver", "bandit"] d with
  | [randomSeed, search, bandit] =>
      let base : Config := {}
      some {
        randomSeed := ← field (orNull? fun d => (nat? max64 d).map (·.toUInt64)) base.randomSeed
          randomSeed
        search := ← field Search.Settings.ofDocument? base.search search
        bandit := ← field BanditSettings.ofDocument? base.bandit bandit }
  | _ => none

end DecisionSpace
