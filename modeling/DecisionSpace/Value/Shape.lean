import DecisionSpace.Failure

/-! # Typed access to values

A shape names a type that values can be read at.  `extract` reads a value at a
shape and refuses every other shape with a mismatch; `embed` is the way back. -/
set_option autoImplicit false
namespace DecisionSpace

inductive Shape where
  | any
  | bool
  | int
  | int32
  | text
  | list (element : Shape)
  deriving DecidableEq

namespace Shape

def Carrier : Shape → Type
  | .any => Value
  | .bool => Bool
  | .int => Int64
  | .int32 => Int32
  | .text => String
  | .list element => List element.Carrier

def expected : Shape → String
  | .any => "any"
  | .bool => "bool"
  | .int | .int32 => "int"
  | .text => "text"
  | .list _ => "selection"

def embed : (s : Shape) → s.Carrier → Value
  | .any, v => v
  | .bool, b => .bool b
  | .int, i => .int i
  | .int32, i => .int i.toInt64
  | .text, t => .text t
  | .list element, items => .selection (items.map element.embed)

def mismatch (s : Shape) (name : String) (v : Value) : Failure :=
  .typeMismatch name s.expected v.typeName

def narrow? (i : Int64) : Option Int32 :=
  if i.toInt32.toInt64 = i then some i.toInt32 else none

/-- Reads a value at a shape; `name` labels the failure.  Of a list the first
element that cannot be read decides the failure. -/
def extract : (s : Shape) → (name : String) → Value → Except Failure s.Carrier
  | .any, _, v => .ok v
  | .bool, name, v => v.asBool?.elim (.error (mismatch .bool name v)) .ok
  | .int, name, v => v.asInt?.elim (.error (mismatch .int name v)) .ok
  | .int32, name, v =>
      match v.asInt? with
      | none => .error (mismatch .int32 name v)
      | some i =>
          (narrow? i).elim (.error (.typeMismatch name "int (32-bit)" "int (64-bit)")) .ok
  | .text, name, v => v.asText?.elim (.error (mismatch .text name v)) .ok
  | .list element, name, v =>
      match v.asSelection? with
      | none => .error (mismatch (.list element) name v)
      | some items => items.mapM (element.extract name)

end Shape

end DecisionSpace
