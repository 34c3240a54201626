import DecisionSpace.Sampling.Source
import DecisionSpace.Sampling.Elementary

/-! # The beta distribution

Both methods draw a logistic number and accept it against the density; one is
for parameters above one, the other for the rest.  The parameters are ordered
first, and the result is turned round when they were swapped. -/
set_option autoImplicit false
namespace DecisionSpace.Sampling

open Elementary (log exp)

structure Beta (α : Type) where
  alpha : α
  beta : α

/-- Both parameters have to be positive. -/
def Beta.ofParameters? {α : Type} [OfNat α 0] [LT α] [DecidableLT α] (alpha beta : α) :
    Option (Beta α) :=
  if 0 < alpha && 0 < beta then some ⟨alpha, beta⟩ else none

section
variable {σ : Type} [Words σ]

def logistic (a scale u : Float) : Float × Float :=
  let v := scale * log (u / (1.0 - u))
  (v, a * exp v)

def betaLargeStep (a b total scale offset : Float) (s : σ) : Option Float × σ :=
  let (u1, s) := openUnit s
  let (u2, s) := openUnit s
  let (v, w) := logistic a scale u1
  let z := u1 * u1 * u2
  let r := offset * v - log 4.0
  let q := a + r - w
  let t := log z
  if q + 1.0 + log 5.0 ≥ 5.0 * z || q ≥ t || !(r + total * log (total / (b + w)) < t) then
    (some w, s)
  else (none, s)

def betaSmallStep (a b total scale low high : Float) (s : σ) : Option Float × σ :=
  let (u1, s) := openUnit s
  let (u2, s) := openUnit s
  let (v, w) := logistic a scale u1
  let check (z : Float) : Option Float :=
    if !(total * (log (total / (b + w)) + v) - log 4.0 < log z) then some w else none
  if u1 < 0.5 then
    let y := u1 * u2
    let z := u1 * y
    (if 0.25 * u2 + z - y ≥ low then none else check z, s)
  else
    let z := u1 * u1 * u2
    (if z ≤ 0.25 then some w else if z ≥ high then none else check z, s)

/-- The logistic number for a distribution with ordered parameters, and whether
the larger one came first in it. -/
def betaWeight (a b : Float) (s : σ) : (Float × Bool) × σ :=
  let total := a + b
  if 1.0 < a then
    let scale := ((total - 2.0) / (2.0 * a * b - total)).sqrt
    let offset := a + 1.0 / scale
    let (w, s) := untilAccepted (betaLargeStep a b total scale offset) 0 patience s
    ((w, false), s)
  else
    let scale := 1.0 / a
    let delta := 1.0 + b - a
    let low := delta * (1.0 / 18.0 / 4.0 + 3.0 / 18.0 / 4.0 * a) / (b * scale - 14.0 / 18.0)
    let high := 0.25 + (0.5 + 0.25 / delta) * a
    let (w, s) := untilAccepted (betaSmallStep b a total scale low high) 0 patience s
    ((w, true), s)

def Beta.sample (d : Beta Float) (s : σ) : Float × σ :=
  let swapped := !(d.alpha < d.beta)
  let a := if swapped then d.beta else d.alpha
  let b := if swapped then d.alpha else d.beta
  let ((w, turned), s) := betaWeight a b s
  let other := if turned then a else b
  let share :=
    if swapped != turned then other / (other + w)
    else if w.isInf then 1.0
    else w / (other + w)
  (share, s)

end

end DecisionSpace.Sampling
