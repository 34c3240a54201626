import DecisionSpace.Decimal.Binary

/-! # Decimals with a set number of places

The exact value of the double is rounded to the last place; a tie goes to the
even neighbour. -/
set_option autoImplicit false
namespace DecisionSpace.Decimal

/-- The natural number nearest to a fraction, the even one of two. -/
def roundEven (x : Ratio) : Nat :=
  let q := x.num / x.den
  let r := x.num % x.den
  if 2 * r < x.den then q
  else if x.den < 2 * r then q + 1
  else if q % 2 = 0 then q
  else q + 1

def pointed (units places : Nat) : String :=
  let ds := digits units
  let padded := List.replicate (places + 1 - ds.length) '0' ++ ds
  let whole := padded.take (padded.length - places)
  let fraction := padded.drop (padded.length - places)
  String.ofList (if places = 0 then whole else whole ++ '.' :: fraction)

def renderPlaces (places : Nat) (x : Float) : String :=
  match Reading.ofFloat x with
  | .nan => "NaN"
  | .infinite negative => if negative then "-inf" else "inf"
  | .finite negative significand exponent =>
      let exact := Ratio.scaled significand 2 exponent
      let text := pointed (roundEven ⟨exact.num * Nat.pow 10 places, exact.den⟩) places
      if negative then "-" ++ text else text

end DecisionSpace.Decimal
