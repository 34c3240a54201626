import DecisionSpace.Context
import DecisionSpace.Sampling.Source

/-! # Random starts

An attempt starts from one value for each variable: constants and fixed
variables keep theirs, every other variable takes a random one.  A multi-select
tosses a coin for each element and is then brought within its bounds by
switching elements on or off. -/
set_option autoImplicit false
namespace DecisionSpace.Search

open Sampling

section
variable {σ : Type} [Chance σ]

def coins (n : Nat) (s : σ) : List Bool × σ := draws Chance.coin n s

def nthPosition? (flag : Bool) : Nat → List Bool → Option Nat
  | _, [] => none
  | n, f :: rest =>
      if f = flag then
        match n with
        | 0 => some 0
        | n + 1 => (nthPosition? flag n rest).map (· + 1)
      else (nthPosition? flag n rest).map (· + 1)

/-- Turns so many entries that equal `flag` round, each a random one. -/
def turn (flag : Bool) : Nat → List Bool → σ → List Bool × σ
  | 0, flags, s => (flags, s)
  | k + 1, flags, s =>
      let (n, s) := Chance.below (flags.count flag) s
      turn flag k (flags.set ((nthPosition? flag n flags).getD 0) !flag) s

def chosen (elements : List Value) (flags : List Bool) : List Value :=
  ((elements.zip flags).filter (·.2)).map (·.1)

def boundedFlags (size min max : Nat) (s : σ) : List Bool × σ :=
  let (flags, s) := coins size s
  let (flags, s) := turn false (min - flags.count true) flags s
  turn true (flags.count true - max) flags s

def randomValue : Domain → σ → Value × σ
  | .boolean, s =>
      let (b, s) := Chance.coin s
      (.bool b, s)
  | .constant value, s => (value, s)
  | .nominal elements, s =>
      let (i, s) := Chance.below elements.length s
      (elements[i]?.getD default, s)
  | .multiSelect elements min max, s =>
      let (flags, s) := boundedFlags elements.length min max s
      (.selection (chosen elements flags), s)

def startFrom (c : Context) : Nat → List Variable → σ → List Value × σ
  | _, [], s => ([], s)
  | id, v :: rest, s =>
      let (value, s) :=
        match c.get? id with
        | some fixed => (fixed, s)
        | none => randomValue v.domain s
      let (values, s) := startFrom c (id + 1) rest s
      (value :: values, s)

def start (m : Model) (c : Context) (s : σ) : List Value × σ := startFrom c 0 m.vars s

end

end DecisionSpace.Search
