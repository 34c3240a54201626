import DecisionSpace.Bandit.RunningStats
import DecisionSpace.Failure
import DecisionSpace.Table
import DecisionSpace.Value

/-! # Snapshots

A snapshot keeps the belief of a bandit without its model: for each arm the
values by path, and the statistics. -/
set_option autoImplicit false
namespace DecisionSpace

structure ArmSnapshot where
  values : Table String Value
  stats : Stats
  deriving Inhabited

structure Snapshot where
  model : String
  arms : List ArmSnapshot
  deriving Inhabited

namespace Snapshot

def size (s : Snapshot) : Nat := s.arms.length

def isEmpty (s : Snapshot) : Bool := s.arms.isEmpty

def total (s : Snapshot) : Nat := s.arms.foldl (fun n arm => n + arm.stats.count.toNat) 0

/-- The observations of all arms, if 64 bits hold their number. -/
def observations (s : Snapshot) : Except Failure Nat :=
  if s.total < UInt64.size then .ok s.total else .error (.breakdown .countOverflow)

end Snapshot

end DecisionSpace
