import DecisionSpace.Bandit.RunningStats
import DecisionSpace.Failure
import DecisionSpace.Sampling.Beta
import DecisionSpace.Sampling.Gamma

/-! # Posteriors

A posterior says what is believed about the expected reward of an arm.  All
belief lies in the statistics of the arm, which start from a prior. -/
set_option autoImplicit false
namespace DecisionSpace

open Sampling

structure NormalPrior where
  mean : Float := 0
  squaredDeviations : Float := 0.02
  weight : Float := 0.02
  deriving Inhabited

structure RatePrior where
  mean : Float := 0.5
  weight : Float := 2
  deriving Inhabited

inductive Posterior where
  | normal (prior : NormalPrior)
  | binomial (prior : RatePrior)
  deriving Inhabited

/-- Fails when an observation of such a weight cannot be counted any more. -/
def RunningStats.checkCount (s : Stats) (weight : Float) : Except Failure Unit :=
  if s.overflows weight then .error (.breakdown .countOverflow) else .ok ()

namespace Posterior

def prior : Posterior → Stats
  | .normal p => .ofPrior p.mean p.squaredDeviations p.weight
  | .binomial p => .ofPrior p.mean 0 p.weight

section
variable {α : Type} [OfNat α 0] [OfNat α 1] [Add α] [Sub α] [Mul α] [Div α] [LT α] [DecidableLT α]
  [LE α] [DecidableLE α]

def update : Posterior → RunningStats α → (reward weight : α) → RunningStats α
  | .normal _, s, reward, weight => s.accept reward weight
  | .binomial _, s, reward, weight => s.acceptRate reward weight

/-- A plausible rate of success, by a way to draw from beta distributions. -/
def sampleRate {σ : Type} (draw : Beta α → σ → α × σ) (stats : RunningStats α) (s : σ) : α × σ :=
  match Beta.ofParameters? stats.sum stats.remainder with
  | some rate => draw rate s
  | none => (stats.mean, s)

end

def mean (_ : Posterior) (s : Stats) : Float := s.mean

/-- Draws of a normal posterior before it falls back to the mean. -/
def maxDraws : Nat := 16

section
variable {σ : Type} [Words σ]

def normalStep (precision : Gamma) (stats : Stats) (s : σ) : Option Float × σ :=
  let (tau, s) := precision.sample s
  let deviation := (1.0 / (tau * stats.weight)).sqrt
  let (x, s) := normal? stats.mean deviation s
  (x.filter Float.isFinite, s)

def sampleNormal (stats : Stats) (s : σ) : Float × σ :=
  let shape := stats.weight / 2.0
  let rate := stats.squaredDeviations / 2.0
  if 0 < rate then
    match Gamma.ofParameters? shape (1.0 / rate) with
    | some precision => untilAccepted (normalStep precision stats) stats.mean maxDraws s
    | none => (stats.mean, s)
  else (stats.mean, s)

def sample (p : Posterior) (stats : Stats) (s : σ) : Float × σ :=
  match p with
  | .normal _ => sampleNormal stats s
  | .binomial _ => sampleRate Beta.sample stats s

end

end Posterior

end DecisionSpace
