import DecisionSpace.Sampling.Source
import DecisionSpace.Sampling.Elementary
import DecisionSpace.Sampling.Ziggurat.Normal
import DecisionSpace.Sampling.Ziggurat.Exponential

/-! # The ziggurat method

A density that falls away from zero is covered by layers of equal area.  A draw
picks a layer and a point in it; a point inside the next layer is accepted at
once, one between the layers against the density, and one beyond the bottom
layer is drawn from the tail. -/
set_option autoImplicit false
namespace DecisionSpace.Sampling

open Elementary (log exp)

namespace Ziggurat

structure Layers where
  symmetric : Bool
  edges : Array Float
  heights : Array Float
  density : Float → Float

def Layers.edge (l : Layers) (i : Nat) : Float := l.edges.getD i 0

def Layers.height (l : Layers) (i : Nat) : Float := l.heights.getD i 0

section
variable {σ : Type} [Words σ]

/-- One attempt to draw, given how the tail is drawn. -/
def attempt (l : Layers) (tail : Float → σ → Float × σ) (s : σ) : Option Float × σ :=
  let (word, s) := Words.next64 s
  let i := (word &&& 0xff).toNat
  let u := if l.symmetric then withFraction 1 word - 3.0 else openUnitOf word
  let x := u * l.edge i
  if (if l.symmetric then x.abs else x) < l.edge (i + 1) then (some x, s)
  else if i = 0 then
    let (x, s) := tail u s
    (some x, s)
  else
    let (v, s) := unit s
    if l.height (i + 1) + (l.height i - l.height (i + 1)) * v < l.density x then (some x, s)
    else (none, s)

def draw (l : Layers) (tail : Float → σ → Float × σ) (s : σ) : Float × σ :=
  untilAccepted (attempt l tail) 0 patience s

end

def normal : Layers where
  symmetric := true
  edges := Normal.abscissaBits.map Float.ofBits
  heights := Normal.densityBits.map Float.ofBits
  density x := exp (-x * x / 2.0)

def exponential : Layers where
  symmetric := false
  edges := Exponential.abscissaBits.map Float.ofBits
  heights := Exponential.densityBits.map Float.ofBits
  density x := exp (-x)

end Ziggurat

section
variable {σ : Type} [Words σ]

def normalTailStep (edge : Float) (s : σ) : Option Float × σ :=
  let (a, s) := openUnit s
  let (b, s) := openUnit s
  let x := log a / edge
  let y := log b
  (if -2.0 * y < x * x then none else some x, s)

def normalTail (u : Float) (s : σ) : Float × σ :=
  let edge := Ziggurat.normal.edge 1
  let (x, s) := untilAccepted (normalTailStep edge) 0 patience s
  (if u < 0 then x - edge else edge - x, s)

def standardNormal (s : σ) : Float × σ := Ziggurat.draw Ziggurat.normal normalTail s

def exponentialTail (_ : Float) (s : σ) : Float × σ :=
  let (v, s) := unit s
  (Ziggurat.exponential.edge 1 - log v, s)

def standardExponential (s : σ) : Float × σ :=
  Ziggurat.draw Ziggurat.exponential exponentialTail s

def normal? (mean deviation : Float) (s : σ) : Option Float × σ :=
  if deviation.isFinite then
    let (z, s) := standardNormal s
    (some (mean + deviation * z), s)
  else (none, s)

end

end DecisionSpace.Sampling
