import DecisionSpace.Search.Settings
import DecisionSpace.Search.Start

/-! # Repair

A repair starts from one value for each variable and switches variables off
until every constraint holds.  Each step takes a random violated constraint and
one of its selected variables that are neither fixed nor mandatory.  The number
of selected variables of every constraint is kept up to date step by step. -/
set_option autoImplicit false
namespace DecisionSpace.Search

open Sampling

structure State where
  values : List Value
  selected : List Bool
  counts : List Nat
  flips : Nat
  deriving DecidableEq

namespace State

def isSelected (st : State) (id : Nat) : Bool := st.selected[id]?.getD false

def ofValues (m : Model) (values : List Value) : State :=
  let selected := (m.vars.zip values).map fun p => p.1.domain.selects p.2
  { values, selected
    counts := m.constraints.map fun k => k.selectedCount fun id => selected[id]?.getD false
    flips := 0 }

def isFlippable (m : Model) (c : Context) (st : State) (id : Nat) : Bool :=
  st.isSelected id && !c.contains id && (m.variableAt id).domain.unselected?.isSome

def violated (m : Model) (st : State) : List Nat :=
  (List.range m.constraints.length).filter fun k =>
    (m.constraints[k]?.getD default).limit < st.counts[k]?.getD 0

def candidates (m : Model) (c : Context) (st : State) (constraint : Nat) : List Nat :=
  (m.constraints[constraint]?.getD default).vars.filter (st.isFlippable m c)

def flip (m : Model) (st : State) (id : Nat) : State :=
  match (m.variableAt id).domain.unselected? with
  | none => st
  | some value =>
      { values := st.values.set id value
        selected := st.selected.set id false
        counts := (m.constraintsOn id).foldl (fun counts k => counts.modify k (· - 1)) st.counts
        flips := st.flips + 1 }

end State

inductive Outcome where
  | repaired
  /-- The last flip was made and some constraint is still violated. -/
  | limitReached
  | stuck (constraint : Nat)
  deriving DecidableEq

structure Repair where
  outcome : Outcome
  state : State

section
variable {σ : Type} [Chance σ]

def chooseFlip (policy : RepairPolicy) (first : Nat) (rest : List Nat) (s : σ) : Nat × σ :=
  match policy with
  | .random => pick first rest s
  | .lowestPath => (rest.foldl min first, s)

/-- Switches variables off until every constraint holds, at most `flips` more. -/
def repair (m : Model) (c : Context) (policy : RepairPolicy) (flips : Nat) (st : State) (s : σ) :
    Repair × σ :=
  match st.violated m with
  | [] => (⟨.repaired, st⟩, s)
  | k :: ks =>
      match flips with
      | 0 => (⟨.limitReached, st⟩, s)
      | flips + 1 =>
          let (k, s) := pick k ks s
          match st.candidates m c k with
          | [] => (⟨.stuck k, st⟩, s)
          | v :: vs =>
              let (v, s) := chooseFlip policy v vs s
              repair m c policy flips (st.flip m v) s
  termination_by structural flips

end

end DecisionSpace.Search
