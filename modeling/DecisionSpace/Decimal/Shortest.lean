import DecisionSpace.Decimal.Binary

/-! # The shortest decimal that reads back

The reals that round to a double form an interval.  Among the decimals in it
those with the fewest digits are taken, of these the nearest to the double, and
of two equally near the larger.  `render` lays the digits out positionally,
whatever the size of the number. -/
set_option autoImplicit false
namespace DecisionSpace.Decimal

/-- The reals that round to one positive double: from halfway to the neighbour
below to halfway to the neighbour above, the ends included for an even
significand. -/
structure Interval where
  low : Ratio
  high : Ratio
  closed : Bool

/-- Below a power of two the neighbour is half as far away. -/
def Interval.around (significand : Nat) (exponent : Int) : Interval :=
  let narrow := significand = leadingBit ∧ -1074 < exponent
  let low := if narrow then 4 * significand - 1 else 4 * significand - 2
  ⟨.scaled low 2 (exponent - 2), .scaled (4 * significand + 2) 2 (exponent - 2),
    significand % 2 = 0⟩

def Interval.contains (i : Interval) (x : Ratio) : Bool :=
  if i.closed then i.low.le x && x.le i.high else i.low.lt x && x.lt i.high

def magnitude (x : Ratio) : Int :=
  ((digits (x.num * Nat.pow 10 400 / x.den)).length : Int) - 400

structure Scientific where
  digits : Nat
  exponent : Int
  deriving DecidableEq, Repr

def Scientific.ratio (s : Scientific) : Ratio := .scaled s.digits 10 s.exponent

/-- The neighbour of `x` on the grid of step `10 ^ exponent` that lies in the
interval; the nearer of two, and the upper one when both are equally near. -/
def nearestOnGrid? (x : Ratio) (interval : Interval) (exponent : Int) : Option Scientific :=
  let step := Ratio.scaled 1 10 exponent
  let below := x.num * step.den / (x.den * step.num)
  let lower : Scientific := ⟨below, exponent⟩
  let upper : Scientific := ⟨below + 1, exponent⟩
  match interval.contains lower.ratio, interval.contains upper.ratio with
  | true, true =>
      let middle : Ratio := ⟨(2 * below + 1) * step.num, 2 * step.den⟩
      some (if x.lt middle then lower else upper)
  | true, false => some lower
  | false, true => some upper
  | false, false => none

def shortest (significand : Nat) (exponent : Int) : Scientific :=
  let x := Ratio.scaled significand 2 exponent
  let interval := Interval.around significand exponent
  let k := magnitude x
  let found := (List.range 17).findSome? fun (n : Nat) =>
    nearestOnGrid? x interval (k - (n + 1))
  found.getD ⟨significand * Nat.pow 5 (-exponent).toNat * Nat.pow 2 exponent.toNat, min exponent 0⟩

def Scientific.positional (s : Scientific) : String :=
  let ds := Decimal.digits s.digits
  if 0 ≤ s.exponent then String.ofList (ds ++ List.replicate s.exponent.toNat '0')
  else
    let places := (-s.exponent).toNat
    let padded := List.replicate (places + 1 - ds.length) '0' ++ ds
    let fraction := padded.drop (padded.length - places)
    let shown := (fraction.reverse.dropWhile (· == '0')).reverse
    let whole := padded.take (padded.length - places)
    String.ofList (if shown.isEmpty then whole else whole ++ '.' :: shown)

/-- The text of a double in messages: the shortest digits that read back, never
an exponent, no fraction on whole numbers. -/
def render (x : Float) : String :=
  match Reading.ofFloat x with
  | .nan => "NaN"
  | .infinite negative => if negative then "-inf" else "inf"
  | .finite negative significand exponent =>
      let magnitude := if significand = 0 then "0" else (shortest significand exponent).positional
      if negative then "-" ++ magnitude else magnitude

end DecisionSpace.Decimal
