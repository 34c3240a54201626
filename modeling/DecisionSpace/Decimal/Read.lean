/-! # Reading decimals

A decimal is given by its digits and a power of ten; it is read as the nearest
double. -/
set_option autoImplicit false
namespace DecisionSpace.Decimal

def digitValue? (c : Char) : Option Nat :=
  if '0' ≤ c ∧ c ≤ '9' then some (c.toNat - '0'.toNat)
  else if 'a' ≤ c ∧ c ≤ 'f' then some (c.toNat - 'a'.toNat + 10)
  else if 'A' ≤ c ∧ c ≤ 'F' then some (c.toNat - 'A'.toNat + 10)
  else none

def natural? (base : Nat) (ds : List Char) : Option Nat :=
  if ds.isEmpty then none
  else
    ds.foldl
      (fun n c =>
        match n, digitValue? c with
        | some n, some d => if d < base then some (n * base + d) else none
        | _, _ => none)
      (some 0)

/-- The double nearest to `m * 10 ^ e`.  Numbers beyond the range need not be
worked out. -/
def nearest (m : Nat) (e : Int) : Float :=
  if m = 0 then 0
  else if 400 < e then 1.0 / 0.0
  else if e + (Nat.toDigits 10 m).length < -400 then 0
  else Float.ofScientific m (e < 0) e.natAbs

def float? (negative : Bool) (whole fraction : List Char) (exponent : Int) : Option Float :=
  (natural? 10 (whole ++ fraction)).map fun m =>
    let x := nearest m (exponent - fraction.length)
    if negative then -x else x

end DecisionSpace.Decimal
