/-! # Values

A value is what a variable can hold: a truth value, a 64-bit integer, a text, or
a selection of values taken from a multi-select domain.  Equality is decidable
and agrees with `=`.  The order puts truth values first, then integers, texts
and selections; selections compare element by element, a proper initial segment
first. -/
set_option autoImplicit false
namespace DecisionSpace

inductive Value where
  | bool (b : Bool)
  | int (i : Int64)
  | text (s : String)
  | selection (items : List Value)
  deriving Inhabited

namespace Value

mutual

def decEq : (a b : Value) → Decidable (a = b)
  | .bool x, .bool y => if h : x = y then .isTrue (by rw [h]) else .isFalse (by simp [h])
  | .int x, .int y => if h : x = y then .isTrue (by rw [h]) else .isFalse (by simp [h])
  | .text x, .text y => if h : x = y then .isTrue (by rw [h]) else .isFalse (by simp [h])
  | .selection xs, .selection ys =>
      match decEqList xs ys with
      | .isTrue h => .isTrue (by rw [h])
      | .isFalse h => .isFalse (by simp [h])
  | .bool _, .int _ | .bool _, .text _ | .bool _, .selection _
  | .int _, .bool _ | .int _, .text _ | .int _, .selection _
  | .text _, .bool _ | .text _, .int _ | .text _, .selection _
  | .selection _, .bool _ | .selection _, .int _ | .selection _, .text _ =>
      .isFalse (by simp)

def decEqList : (xs ys : List Value) → Decidable (xs = ys)
  | [], [] => .isTrue rfl
  | [], _ :: _ | _ :: _, [] => .isFalse (by simp)
  | x :: xs, y :: ys =>
      match decEq x y with
      | .isTrue hx =>
          match decEqList xs ys with
          | .isTrue hxs => .isTrue (by rw [hx, hxs])
          | .isFalse hxs => .isFalse (by simp [hxs])
      | .isFalse hx => .isFalse (by simp [hx])

end

instance : DecidableEq Value := decEq

def typeName : Value → String
  | .bool _ => "bool"
  | .int _ => "int"
  | .text _ => "text"
  | .selection _ => "selection"

/-- A truth value counts as selected when true, a selection when it has an
element; an integer or a text always does. -/
def isSelected : Value → Bool
  | .bool b => b
  | .selection items => !items.isEmpty
  | .int _ | .text _ => true

def isSelection : Value → Bool
  | .selection _ => true
  | _ => false

def asBool? : Value → Option Bool
  | .bool b => some b
  | _ => none

def asInt? : Value → Option Int64
  | .int i => some i
  | _ => none

def asText? : Value → Option String
  | .text s => some s
  | _ => none

def asSelection? : Value → Option (List Value)
  | .selection items => some items
  | _ => none

mutual

/-- The order of values, shape before content. -/
def compare : Value → Value → Ordering
  | .bool x, .bool y => Ord.compare x y
  | .bool _, _ => .lt
  | .int _, .bool _ => .gt
  | .int x, .int y => Ord.compare x y
  | .int _, _ => .lt
  | .text _, .bool _ | .text _, .int _ => .gt
  | .text x, .text y => Ord.compare x y
  | .text _, .selection _ => .lt
  | .selection xs, .selection ys => compareList xs ys
  | .selection _, _ => .gt

def compareList : List Value → List Value → Ordering
  | [], [] => .eq
  | [], _ :: _ => .lt
  | _ :: _, [] => .gt
  | x :: xs, y :: ys => (compare x y).then (compareList xs ys)

end

instance : Ord Value := ⟨compare⟩

mutual

def render : Value → String
  | .bool b => if b then "true" else "false"
  | .int i => toString i.toInt
  | .text s => s
  | .selection items => "[" ++ renderList items ++ "]"

def renderList : List Value → String
  | [] => ""
  | [v] => v.render
  | v :: w :: rest => v.render ++ ", " ++ renderList (w :: rest)

end

def sort (values : List Value) : List Value :=
  values.mergeSort fun a b => (compare a b).isLE

def distinct (values : List Value) : List Value :=
  values.foldl (fun met v => if v ∈ met then met else met ++ [v]) []

end Value

end DecisionSpace
