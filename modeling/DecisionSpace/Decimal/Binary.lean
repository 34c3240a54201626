/-! # Binary numbers read exactly

A double is a number `m * 2 ^ q` with a sign, an infinity, or no number.  The
magnitude is held as a fraction of naturals, so that the decimal modules compare
and divide without rounding. -/
set_option autoImplicit false
namespace DecisionSpace.Decimal

inductive Reading where
  | nan
  | infinite (negative : Bool)
  | finite (negative : Bool) (significand : Nat) (exponent : Int)
  deriving DecidableEq, Repr

/-- The bit that stands before the fraction of a double in the normal range, `2 ^ 52`. -/
def leadingBit : Nat := 0x10000000000000

/-- Decodes the sign bit, the eleven exponent bits and the 52 fraction bits. -/
def Reading.ofBits (bits : UInt64) : Reading :=
  let negative := bits >>> 63 == 1
  let biased := ((bits >>> 52) &&& 0x7ff).toNat
  let fraction := (bits &&& 0xfffffffffffff).toNat
  if biased = 0x7ff then
    if fraction = 0 then .infinite negative else .nan
  else if biased = 0 then .finite negative fraction (-1074)
  else .finite negative (fraction + leadingBit) ((biased : Int) - 1075)

def Reading.ofFloat (x : Float) : Reading := Reading.ofBits x.toBits

structure Ratio where
  num : Nat
  den : Nat
  deriving DecidableEq, Repr

def Ratio.scaled (m b : Nat) (e : Int) : Ratio :=
  if 0 ≤ e then ⟨m * b.pow e.toNat, 1⟩ else ⟨m, b.pow (-e).toNat⟩

def Ratio.lt (x y : Ratio) : Bool := x.num * y.den < y.num * x.den

def Ratio.le (x y : Ratio) : Bool := x.num * y.den ≤ y.num * x.den

def digits (n : Nat) : List Char := Nat.toDigits 10 n

end DecisionSpace.Decimal
