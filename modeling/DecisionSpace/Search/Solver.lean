import DecisionSpace.Assignment
import DecisionSpace.Count
import DecisionSpace.Sampling.ChaCha
import DecisionSpace.Search.Enumeration
import DecisionSpace.Search.Repair

/-! # Solvers

A solver finds assignments of a model that agree with a context and satisfy
every constraint: one by random repair, several by repeated repair, or all of
them by enumeration when the model is small.  Each run returns the work it did
as a tally, and tallies add up. -/
set_option autoImplicit false
namespace DecisionSpace

open Sampling
open Search

structure Tally where
  witnesses : Count := 0
  failures : Count := 0
  restarts : Count := 0
  repairSteps : Count := 0
  deriving DecidableEq, Inhabited

namespace Tally

def add (t u : Tally) : Tally :=
  ⟨t.witnesses + u.witnesses, t.failures + u.failures, t.restarts + u.restarts,
    t.repairSteps + u.repairSteps⟩

def averageRepairSteps (t : Tally) : Float :=
  if t.witnesses = 0 then 0 else t.repairSteps.toFloat / t.witnesses.toFloat

end Tally

structure Solver where
  model : Model
  settings : Settings := {}
  deriving Inhabited

structure Run (α : Type) where
  result : Except Failure α
  tally : Tally

def Run.counted {α : Type} (run : Run α) : Run α :=
  match run.result with
  | .ok _ => ⟨run.result, run.tally.add { witnesses := 1 }⟩
  | .error _ => ⟨run.result, run.tally.add { failures := 1 }⟩

namespace Solver

def stepLimit (solver : Solver) : Nat :=
  solver.settings.stepLimit solver.model.vars.length

/-- Whether a variable counts as selected in every assignment that agrees with
the context, as far as its kind and its fixed value tell. -/
def isForced (m : Model) (c : Context) (id : Nat) : Bool :=
  let domain := (m.variableAt id).domain
  match c.get? id with
  | some value => if domain.isSearchable then value.isSelected else domain.isAlwaysSelected
  | none => domain.isAlwaysSelected

def checkForced (m : Model) (c : Context) (k : Constraint) : Except Failure Unit :=
  let forced := k.selectedCount (isForced m c)
  if k.limit < forced then
    .error (.unsatisfiable (.forced forced (m.scopeAt k.scope).name k.limit))
  else .ok ()

/-- Validates the context and refuses constraints that no choice can satisfy. -/
def checkContext (m : Model) (c : Context) : Except Failure Unit := do
  c.validate m
  m.constraints.forM (checkForced m c)

section
variable {σ : Type} [Chance σ]

def search (solver : Solver) (c : Context) : (attempts : Nat) → σ → Run Assignment × σ
  | 0, s =>
      let failure := Conflict.exhausted solver.model.name solver.settings.restarts solver.stepLimit
      (⟨.error (.unsatisfiable failure), {}⟩, s)
  | attempts + 1, s =>
      let m := solver.model
      let (values, s) := start m c s
      let (r, s) := repair m c solver.settings.repairPolicy solver.stepLimit (.ofValues m values) s
      match r.outcome with
      | .repaired =>
          (⟨Assignment.ofSlots m (r.state.values.map some), { repairSteps := .ofNat r.state.flips }⟩, s)
      | .stuck k => (⟨.error (.unsatisfiable (.stuck k)), { repairSteps := .ofNat r.state.flips }⟩, s)
      | .limitReached =>
          let (run, s) := search solver c attempts s
          (⟨run.result, run.tally.add { restarts := 1, repairSteps := .ofNat r.state.flips }⟩, s)

def witness (solver : Solver) (c : Context) (s : σ) : Run Assignment × σ :=
  match checkContext solver.model c with
  | .error e => (Run.counted ⟨.error e, {}⟩, s)
  | .ok () =>
      let (run, s) := search solver c solver.settings.restarts s
      (run.counted, s)

def witnesses (solver : Solver) (c : Context) (n : Nat) (s : σ) : List (Run Assignment) × σ :=
  draws (solver.witness c) n s

end

def witnessSeeded (solver : Solver) (c : Context) (seed : UInt64) : Run Assignment :=
  (solver.witness c (ChaCha.ofSeed seed)).1

/-- Adds to the kept assignments what is like none of them, until there are `limit`. -/
def collect (limit : Nat) : (found kept : List Assignment) → List Assignment
  | [], kept => kept
  | a :: rest, kept =>
      if kept.length = limit then kept
      else collect limit rest (if kept.any a.alike then kept else kept ++ [a])

def dedup (found : List Assignment) : List Assignment := collect found.length found []

def maxAttempts : Nat := UInt64.size - 1

/-- Up to `limit` different assignments from twice as many runs, each on its own
seed. -/
def distinctWitnesses (solver : Solver) (c : Context) (limit : Nat) (seed : UInt64) :
    Run (List Assignment) :=
  if limit = 0 then ⟨.ok [], {}⟩
  else
    match checkContext solver.model c with
    | .error e => ⟨.error e, {}⟩
    | .ok () =>
        let attempts := min (2 * limit) maxAttempts
        let runs := (List.range attempts).map fun i => solver.witnessSeeded c (seed + i.toUInt64)
        let tally := runs.foldl (fun t run => t.add run.tally) {}
        let found := collect limit (runs.filterMap (·.result.toOption)) []
        if found.isEmpty then
          ⟨.error (.unsatisfiable (.noWitness solver.model.name attempts)), tally⟩
        else ⟨.ok found, tally⟩

def enumerationLimit : Nat := 20

def isEnumerable (solver : Solver) : Bool := solver.model.valueCount ≤ enumerationLimit

def enumerate (solver : Solver) (c : Context) (limit : Nat) : Except Failure (List Assignment) :=
  let m := solver.model
  if enumerationLimit < m.valueCount then
    .error (.invalidModel (.tooManyValues m.name m.valueCount enumerationLimit))
  else if limit = 0 then .ok []
  else do
    checkContext m c
    match enumerateValues m c limit with
    | [] => .error (.unsatisfiable (.infeasible m.name))
    | found => found.mapM fun values => Assignment.ofSlots m (values.map some)

end Solver

end DecisionSpace
