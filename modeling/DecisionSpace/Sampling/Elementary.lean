/-! # The logarithm and the exponential

Both bring their argument near to zero by a multiple of `ln 2`, which is kept as
a sum of two floats, and evaluate a polynomial there.  Every rounding is part of
the answer, since an attempt that compares huge terms may turn on the last bit,
and so the order of the operations matters. -/
set_option autoImplicit false
namespace DecisionSpace.Sampling.Elementary

def ln2High : Float := 6.93147180369123816490e-01

def ln2Low : Float := 1.90821492927058770002e-10

def log2e : Float := 1.44269504088896338700

def horner (coefficients : List Float) (x : Float) : Float :=
  coefficients.foldr (fun c tail => c + x * tail) 0

structure Reduced where
  mantissa : Float
  exponent : Int

/-- The reduced form of a positive number that is not subnormal.  The added bits
are those from `√½` to one, so that a carry moves a large fraction down to the
next power. -/
def reduceNormal (x : Float) : Reduced :=
  let bits := x.toBits + 0x00095f6200000000
  ⟨Float.ofBits ((bits &&& 0x000fffffffffffff) + 0x3fe6a09e00000000),
    (bits >>> 52).toNat - 1023⟩

def reduce (x : Float) : Reduced :=
  if x.toBits < 0x0010000000000000 then
    let r := reduceNormal (x * 18014398509481984.0)
    { r with exponent := r.exponent - 54 }
  else reduceNormal x

def log (x : Float) : Float :=
  if x == 0 then -1.0 / 0.0
  else if x < 0 then 0.0 / 0.0
  else if !x.isFinite then x
  else
    let r := reduce x
    let k := Float.ofInt r.exponent
    let f := r.mantissa - 1.0
    let half := 0.5 * f * f
    let s := f / (2.0 + f)
    let z := s * s
    let w := z * z
    let even := w * horner
      [3.999999999940941908e-01, 2.222219843214978396e-01, 1.531383769920937332e-01] w
    let odd := z * horner
      [6.666666666666735130e-01, 2.857142874366239149e-01, 1.818357216161805012e-01,
        1.479819860511658591e-01] w
    s * (half + (odd + even)) + k * ln2Low - half + f + k * ln2High

def expNearZero (high low : Float) : Float :=
  let x := high - low
  let z := x * x
  let c := x - z * horner
    [1.66666666666666019037e-01, -2.77777777770155933842e-03, 6.61375632143793436117e-05,
      -1.65339022054652515390e-06, 4.13813679705723846039e-08] z
  1.0 + (x * c / (2.0 - c) - low + high)

/-- The multiple of `ln 2` that is taken from an argument of the exponential:
none below half of `ln 2`, one below one and a half, else the nearest. -/
def expShift (x : Float) : Int64 :=
  let size := x.abs.toBits >>> 32
  if size ≤ 0x3fd62e42 then 0
  else if size < 0x3ff0a2b2 then if x < 0 then -1 else 1
  else (log2e * x + if x < 0 then -0.5 else 0.5).toInt64

def exp (x : Float) : Float :=
  if x.isNaN then x
  else if x > 709.782712893383973096 then 1.0 / 0.0
  else if x < -745.13321910194110842 then 0
  else if x.abs.toBits >>> 32 ≤ 0x3e300000 then 1.0 + x
  else
    let k := expShift x
    let multiple := k.toFloat
    (expNearZero (x - multiple * ln2High) (multiple * ln2Low)).scaleB k.toInt

end DecisionSpace.Sampling.Elementary
