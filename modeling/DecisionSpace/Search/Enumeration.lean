import DecisionSpace.Context

/-! # Complete enumeration

A walk through the variables in order tries every value of each and leaves a
branch as soon as a constraint would have too many selected variables.  The
order is lexicographic: `false` before `true`, elements as the domain lists
them, subsets by counting with the first element as the lowest digit. -/
set_option autoImplicit false
namespace DecisionSpace.Search

/-- The subsets of a list, counted up with the first element as the lowest
digit. -/
def subsets : List Value → List (List Value)
  | [] => [[]]
  | v :: rest => (subsets rest).flatMap fun s => [s, v :: s]

def candidateValues : Domain → List Value
  | .boolean => [.bool false, .bool true]
  | .constant value => [value]
  | .nominal elements => elements
  | .multiSelect elements min max =>
      ((subsets elements).filter fun s => min ≤ s.length ∧ s.length ≤ max).map .selection

structure Level where
  domain : Domain
  constraints : List Nat
  values : List Value

def levels (m : Model) (c : Context) : List Level :=
  m.vars.zipIdx.map fun (v, id) =>
    { domain := v.domain
      constraints := m.constraintsOn id
      values :=
        match c.get? id with
        | some fixed => [fixed]
        | none => candidateValues v.domain }

/-- The counts after one more variable of these constraints was selected, unless
one of them is full. -/
def select? (limits counts touched : List Nat) : Option (List Nat) :=
  if touched.any fun k => limits[k]?.getD 0 ≤ counts[k]?.getD 0 then none
  else some (touched.foldl (fun counts k => counts.modify k (· + 1)) counts)

/-- The first `room` value vectors for the levels that keep the counts within
the limits. -/
def walk (limits : List Nat) : List Level → List Nat → Nat → List (List Value)
  | [], _, _ => [[]]
  | level :: rest, counts, room =>
      level.values.foldl
        (fun found value =>
          if room ≤ found.length then found
          else
            let next := if level.domain.selects value then select? limits counts level.constraints
              else some counts
            match next with
            | none => found
            | some counts =>
                found ++ (walk limits rest counts (room - found.length)).map (value :: ·))
        []

def isNumbered : Domain → Bool
  | .multiSelect elements _ _ => elements.length < 64
  | _ => true

def enumerateValues (m : Model) (c : Context) (limit : Nat) : List (List Value) :=
  if limit = 0 then []
  else walk (m.constraints.map (·.limit)) (levels m c) (m.constraints.map fun _ => 0) limit

def enumerate (m : Model) (c : Context) (limit : Nat) : Except Failure (List (List Value)) :=
  if m.vars.zipIdx.all fun (v, id) => (c.get? id).isSome || isNumbered v.domain then
    .ok (enumerateValues m c limit)
  else .error (.breakdown .tooManySubsets)

end DecisionSpace.Search
