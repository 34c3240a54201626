import DecisionSpace.Sampling.Ziggurat

/-! # The gamma distribution

A shape above one is drawn by squeezing a cubed normal number, shape one is
exponential, and a shape below one is a drawn from the shape above it and a
power of a unit float. -/
set_option autoImplicit false
namespace DecisionSpace.Sampling

open Elementary (log)

structure Gamma where
  shape : Float
  scale : Float

def Gamma.ofParameters? (shape scale : Float) : Option Gamma :=
  if 0 < shape && 0 < scale then some ⟨shape, scale⟩ else none

section
variable {σ : Type} [Words σ]

/-- One attempt at a shape above one; `d` and `c` are the constants of the
shape. -/
def gammaStep (d c : Float) (s : σ) : Option Float × σ :=
  let (x, s) := standardNormal s
  let t := 1.0 + c * x
  if t ≤ 0 then (none, s)
  else
    let v := t * t * t
    let (u, s) := openUnit s
    let q := x * x
    if u < 1.0 - 0.0331 * q * q || log u < 0.5 * q + d * (1.0 - v + log v) then (some v, s)
    else (none, s)

def gammaLarge (shape scale : Float) (s : σ) : Float × σ :=
  let d := shape - 1.0 / 3.0
  let c := 1.0 / (9.0 * d).sqrt
  let (v, s) := untilAccepted (gammaStep d c) 0 patience s
  (d * v * scale, s)

def Gamma.sample (g : Gamma) (s : σ) : Float × σ :=
  if g.shape == 1.0 then
    let (x, s) := standardExponential s
    (x * (1.0 / (1.0 / g.scale)), s)
  else if g.shape < 1.0 then
    let (u, s) := openUnit s
    let (x, s) := gammaLarge (g.shape + 1.0) g.scale s
    (x * u.pow (1.0 / g.shape), s)
  else gammaLarge g.shape g.scale s

end

end DecisionSpace.Sampling
