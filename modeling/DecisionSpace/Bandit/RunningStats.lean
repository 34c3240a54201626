/-! # Running statistics

The weighted mean of a sequence of observations and the weighted sum of their
squared deviations from it, kept up to date one observation at a time.  The
weight may include prior observations that are not counted.  The definitions
work over any type of numbers, so that they can be run on doubles and read over
the rationals. -/
set_option autoImplicit false
namespace DecisionSpace

structure RunningStats (α : Type) where
  mean : α
  squaredDeviations : α
  weight : α
  /-- Number of observations accepted; it stays at the largest number of its
  type. -/
  count : UInt64
  deriving Inhabited

namespace RunningStats

section
variable {α : Type} [OfNat α 0] [Add α] [Sub α] [Mul α] [Div α] [LT α] [DecidableLT α]
  [LE α] [DecidableLE α]

def ofPrior (mean squaredDeviations weight : α) : RunningStats α :=
  ⟨mean, squaredDeviations, weight, 0⟩

def isFull (s : RunningStats α) : Bool := s.count.toNat + 1 == UInt64.size

def nextCount (s : RunningStats α) : UInt64 := if s.isFull then s.count else s.count + 1

/-- Adds one observation.  An observation without positive weight is ignored;
the first one replaces a mean that has no weight. -/
def accept (s : RunningStats α) (value weight : α) : RunningStats α :=
  if 0 < weight then
    let total := s.weight + weight
    if s.weight ≤ 0 then ⟨value, 0, total, s.nextCount⟩
    else
      let delta := value - s.mean
      let mean := s.mean + delta * weight / total
      ⟨mean, s.squaredDeviations + weight * delta * (value - mean), total, s.nextCount⟩
  else s

def overflows (s : RunningStats α) (weight : α) : Bool := 0 < weight && s.isFull

def sum (s : RunningStats α) : α := s.mean * s.weight

def remainder (s : RunningStats α) : α := s.weight - s.sum

def variance (s : RunningStats α) : α :=
  if 0 < s.weight then s.squaredDeviations / s.weight else 0

variable [OfNat α 1]

def clampUnit (x : α) : α := if x < 0 then 0 else if 1 < x then 1 else x

def acceptRate (s : RunningStats α) (rate weight : α) : RunningStats α :=
  s.accept (clampUnit rate) weight

end

def standardDeviation (s : RunningStats Float) : Float := s.variance.sqrt

end RunningStats

abbrev Stats := RunningStats Float

end DecisionSpace
