import DecisionSpace.Assignment
import DecisionSpace.Bandit.Counters
import DecisionSpace.Bandit.Policy
import DecisionSpace.Bandit.Snapshot
import DecisionSpace.Sampling.ChaCha

/-! # Bandits

A bandit chooses among arms, which are assignments of one model, and learns from
the rewards that come back.  Arms and their order never change; each operation
returns its answer together with the bandit that it leaves. -/
set_option autoImplicit false
namespace DecisionSpace

open Sampling

structure Arm where
  assignment : Assignment
  stats : Stats
  deriving Inhabited

structure Bandit where
  model : Model
  policy : Policy
  arms : List Arm
  maximize : Bool
  seed : UInt64
  step : UInt64 := 0
  counters : Counters := {}
  deriving Inhabited

namespace Bandit

def size (b : Bandit) : Nat := b.arms.length

def isEmpty (b : Bandit) : Bool := b.arms.isEmpty

def indexOf? (b : Bandit) (a : Assignment) : Option Nat :=
  b.arms.findIdx? fun arm => arm.assignment.alike a

def eligible (b : Bandit) (c : Context) : List (Arm × Nat) :=
  b.arms.zipIdx.filter fun (arm, _) => arm.assignment.satisfies c

def signed (b : Bandit) (score : Float) : Float := (if b.maximize then 1.0 else -1.0) * score

section
variable {σ : Type}

def select (b : Bandit) (c : Context) (score : Stats → σ → Float × σ) (s : σ) :
    Except Failure Nat × Bandit × σ :=
  match c.validate b.model with
  | .error e => (.error e, b, s)
  | .ok () =>
      let eligible := b.eligible c
      let (scores, s) := scoreAll score (eligible.map (·.1.stats)) s
      match argmax (scores.map b.signed) with
      | some position => (.ok ((eligible.map (·.2)).getD position 0), b, s)
      | none =>
          (.error (.unsatisfiable (.noEligibleArm b.model.name)),
            { b with counters := b.counters.addRejection }, s)

def chooseWith [Words σ] (b : Bandit) (c : Context) (s : σ) : Except Failure Nat × Bandit × σ :=
  match b.select c b.policy.score s with
  | (.ok i, b, s) => (.ok i, { b with counters := b.counters.addChoice }, s)
  | (.error e, b, s) => (.error e, b, s)

end

/-- Chooses an arm that agrees with a context.  Each call has a stream of the
seed of its own. -/
def choose (b : Bandit) (c : Context) : Except Failure Nat × Bandit :=
  let (result, b, _) :=
    { b with step := b.step + 1 }.chooseWith c (ChaCha.ofStream b.seed b.step)
  (result, b)

/-- A choice for a caller that cannot go on without one: a failure breaks it down and
leaves its message alone. -/
def demand (b : Bandit) (c : Context) : Except String Nat × Bandit :=
  let (result, b) := b.choose c
  (result.mapError Failure.message, b)

def optimal (b : Bandit) (c : Context) : Except Failure Nat × Bandit :=
  let (result, b, _) := b.select c (fun stats (s : Unit) => (b.policy.mean stats, s)) ()
  (result, b)

def rewarded (b : Bandit) (arm : Arm) (reward weight : Float) : Arm :=
  { arm with stats := b.policy.update arm.stats reward weight }

/-- Adds a reward that counts as `weight` observations to the arm that an
assignment of the same model is like.  A reward that the arm cannot count any
more changes its statistics but not the counters. -/
def updateWeighted (b : Bandit) (a : Assignment) (reward weight : Float) :
    Except Failure Unit × Bandit :=
  if !reward.isFinite then (.error (.invalidValue "reward" (.notFinite reward)), b)
  else if !(weight.isFinite && 0 < weight) then
    (.error (.invalidValue "weight" (.notPositive weight)), b)
  else
    match (if a.model.serial = b.model.serial then b.indexOf? a else none) with
    | none => (.error .unknownArm, { b with counters := b.counters.addUnknownArm })
    | some i =>
        let arms := b.arms.modify i fun arm => b.rewarded arm reward weight
        if b.arms[i]?.any fun arm => arm.stats.overflows weight then
          (.error (.breakdown .countOverflow), { b with arms })
        else (.ok (), { b with arms, counters := b.counters.addUpdate reward })

def update (b : Bandit) (a : Assignment) (reward : Float) : Except Failure Unit × Bandit :=
  b.updateWeighted a reward 1.0

def snapshot (b : Bandit) : Snapshot where
  model := b.model.name
  arms := b.arms.map fun arm => ⟨arm.assignment.toMap, arm.stats⟩

end Bandit

end DecisionSpace
