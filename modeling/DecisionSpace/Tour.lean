import DecisionSpace.Bandit.Plan
import DecisionSpace.Config.Load
import DecisionSpace.Decimal.Places
import DecisionSpace.Examples
import DecisionSpace.Inspect

/-! # A tour of the library

The tour builds a model, finds an assignment and reads its values, and lets a
bandit choose twice.  It is a function of a configuration: its result is what
the program prints, up to the step that fails. -/
set_option autoImplicit false
namespace DecisionSpace.Tour

abbrev Telling := ExceptT Failure (StateM (List String))

def say (line : String) : Telling Unit := modify (· ++ [line])

def attempt {α : Type} (result : Except Failure α) : Telling α := result

def boolText (b : Bool) : String := if b then "true" else "false"

def armAt (b : Bandit) (i : Nat) : Assignment := (b.arms[i]?.getD default).assignment

def showAssignment (m : Model) (c : Config) (seed : UInt64) : Telling Unit := do
  let solver : Solver := ⟨m, c.search⟩
  let a ← attempt (solver.witnessSeeded .empty seed).result
  say a.render
  say (boolText (← attempt (a.getBool "boolean variable")))
  say (boolText (← attempt (a.getBool "Child model variable")))
  let child ← attempt (a.sub "Child model")
  say (boolText (← attempt (child.getBool "Child model variable")))
  let texts : List String ← attempt (a.getAs (.list .text) "any number of")
  say ("Optional multiple: " ++ Inspect.bracketed (texts.map Inspect.quoted))
  let size ← attempt (a.getInt "only one of")
  say ("Mandatory nominal: " ++ toString size.toInt)
  say ""

def showBandit (m : Model) (c : Config) (seed : UInt64) : Telling Unit := do
  let b ← attempt ((BanditPlan.ofConfig m c).build seed)
  let (chosen, b) := b.choose .empty
  let i ← attempt chosen
  let (rewarded, b) := b.update (armAt b i) (-2.0)
  attempt rewarded
  let five ← attempt (m.fact "only one of" (.int 5))
  let (chosen, b) := b.choose (.ofFact five)
  let i ← attempt chosen
  let a := armAt b i
  say a.render
  let (rewarded, b) := b.update a 1.0
  attempt rewarded
  let size ← attempt (a.getInt "only one of")
  say ("Should be 5: " ++ toString size.toInt)
  let n := b.counters
  say (toString n.choices ++ " choices, " ++ toString n.updates ++
    " updates, average reward " ++ Decimal.renderPlaces 2 n.averageReward)

/-- The whole tour; `entropy` is the seed of a configuration without one. -/
def tell (entropy : UInt64) (c : Config) : Telling Unit := do
  let m ← attempt ((Examples.tour "Root").build 0)
  let seed := c.randomSeed.getD entropy
  showAssignment m c seed
  showBandit m c seed

structure Transcript where
  lines : List String
  failure : Option Failure

def run (entropy : UInt64) (c : Config) : Transcript :=
  match (tell entropy c).run.run [] with
  | (.ok _, lines) => ⟨lines, none⟩
  | (.error e, lines) => ⟨lines, some e⟩

end DecisionSpace.Tour
