import DecisionSpace.Bandit.Posterior

/-! # Policies

A policy scores arms by their statistics; the arm with the highest score is
chosen.  Thompson sampling scores by one draw from the posterior, the greedy
policy by its mean. -/
set_option autoImplicit false
namespace DecisionSpace

open Sampling

inductive Strategy where
  | thompson
  | greedy
  deriving DecidableEq, Inhabited

structure Policy where
  strategy : Strategy
  posterior : Posterior
  deriving Inhabited

/-- The score that stands in for no number. -/
def scoreKey (score : Float) : Float := if score.isNaN then -1.0 / 0.0 else score

def better (best : Option (Nat × Float)) (i : Nat) (score : Float) : Option (Nat × Float) :=
  match best with
  | some (j, top) => if scoreKey score ≤ top then some (j, top) else some (i, scoreKey score)
  | none => some (i, scoreKey score)

def bestFrom (best : Option (Nat × Float)) (i : Nat) : List Float → Option (Nat × Float)
  | [] => best
  | score :: rest => bestFrom (better best i score) (i + 1) rest

/-- The position of the highest score, the first one of equals. -/
def argmax (scores : List Float) : Option Nat := (bestFrom none 0 scores).map (·.1)

def scoreAll {σ : Type} (score : Stats → σ → Float × σ) : List Stats → σ → List Float × σ
  | [], s => ([], s)
  | stats :: rest, s =>
      let (x, s) := score stats s
      let (xs, s) := scoreAll score rest s
      (x :: xs, s)

namespace Policy

def prior (p : Policy) : Stats := p.posterior.prior

def update (p : Policy) (stats : Stats) (reward weight : Float) : Stats :=
  p.posterior.update stats reward weight

def mean (p : Policy) (stats : Stats) : Float := p.posterior.mean stats

section
variable {σ : Type} [Words σ]

def score (p : Policy) (stats : Stats) (s : σ) : Float × σ :=
  match p.strategy with
  | .thompson => p.posterior.sample stats s
  | .greedy => (p.posterior.mean stats, s)

def choose (p : Policy) (arms : List Stats) (s : σ) : Option Nat × σ :=
  let (scores, s) := scoreAll p.score arms s
  (argmax scores, s)

end

end Policy

end DecisionSpace
