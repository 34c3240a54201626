import DecisionSpace.Count

/-! # Counters of a bandit

The sum of the rewards is kept in millionths, in 64 bits with saturation, so
that it does not depend on the order of the rewards as long as it fits. -/
set_option autoImplicit false
namespace DecisionSpace

structure Counters where
  choices : Count := 0
  rejections : Count := 0
  updates : Count := 0
  unknownArms : Count := 0
  /-- Sum of the rewards in millionths. -/
  rewardUnits : Int64 := 0
  deriving DecidableEq, Inhabited

namespace Counters

def unitsPerOne : Float := 1000000.0

def toUnits (reward : Float) : Int64 := (reward * unitsPerOne).round.toInt64

def saturatingAdd (a b : Int64) : Int64 :=
  let sum := a.toInt + b.toInt
  if sum < Int64.minValue.toInt then Int64.minValue
  else if Int64.maxValue.toInt < sum then Int64.maxValue
  else Int64.ofInt sum

def addChoice (c : Counters) : Counters := { c with choices := c.choices + 1 }

def addRejection (c : Counters) : Counters := { c with rejections := c.rejections + 1 }

def addUnknownArm (c : Counters) : Counters := { c with unknownArms := c.unknownArms + 1 }

def addUpdate (c : Counters) (reward : Float) : Counters :=
  { c with
    updates := c.updates + 1
    rewardUnits := saturatingAdd c.rewardUnits (toUnits reward) }

def rewardSum (c : Counters) : Float := c.rewardUnits.toFloat / unitsPerOne

def averageReward (c : Counters) : Float :=
  if c.updates = 0 then 0 else c.rewardSum / c.updates.toFloat

end Counters

end DecisionSpace
