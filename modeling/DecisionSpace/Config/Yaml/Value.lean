import DecisionSpace.Config.Document
import DecisionSpace.Config.Yaml.Scalar

/-! # Values of YAML scalars

A plain scalar is a null, a truth value, an integer or a float if it looks like one,
and a text otherwise.  A tag says which of them it has to be. -/
set_option autoImplicit false
namespace DecisionSpace.Yaml

/-! ## Words and numbers -/

def isNullWord (s : String) : Bool := ["~", "null", "Null", "NULL"].contains s

def truth? (s : String) : Option Bool :=
  if ["true", "True", "TRUE"].contains s then some true
  else if ["false", "False", "FALSE"].contains s then some false
  else none

def afterPlus? : List Char → Option (List Char)
  | '+' :: '+' :: _ => none
  | '+' :: '-' :: _ => none
  | '+' :: rest => some rest
  | cs => some cs

def isPaddedDigits (cs : List Char) : Bool :=
  match cs with
  | '-' :: '0' :: c :: rest | '+' :: '0' :: c :: rest | '0' :: c :: rest =>
      (c :: rest).all Char.isDigit
  | _ => false

def magnitude? : List Char → Option Nat
  | '0' :: 'x' :: ds => Decimal.natural? 16 ds
  | '0' :: 'o' :: ds => Decimal.natural? 8 ds
  | '0' :: 'b' :: ds => Decimal.natural? 2 ds
  | ds => Decimal.natural? 10 ds

def unsigned? (cs : List Char) : Option Nat :=
  if isPaddedDigits cs then none else (afterPlus? cs).bind magnitude?

def integer? (cs : List Char) : Option Int :=
  let i :=
    match cs with
    | '-' :: ds => if isPaddedDigits cs then none else (magnitude? ds).map fun n => -(n : Int)
    | _ => (unsigned? cs).map Int.ofNat
  i.filter fun i => -Int.ofNat (Nat.pow 2 127) ≤ i && i < Nat.pow 2 128

def isExponentMark (c : Char) : Bool := c = 'e' || c = 'E'

def exponent? : List Char → Option Int
  | [] => some 0
  | _ :: '-' :: ds => (Decimal.natural? 10 ds).map fun n => -(n : Int)
  | _ :: '+' :: ds => (Decimal.natural? 10 ds).map Int.ofNat
  | _ :: ds => (Decimal.natural? 10 ds).map Int.ofNat

def digitsFloat? (negative : Bool) (cs : List Char) : Option Float := do
  let mantissa := cs.takeWhile (!isExponentMark ·)
  let e ← exponent? (cs.dropWhile (!isExponentMark ·))
  let whole := mantissa.takeWhile (· != '.')
  let fraction := (mantissa.dropWhile (· != '.')).drop 1
  let x ← Decimal.float? negative whole fraction e
  if x.isFinite then some x else none

def isInfinity (s : String) : Bool := [".inf", ".Inf", ".INF"].contains s

def float? (cs : List Char) : Option Float :=
  if [".nan", ".NaN", ".NAN"].contains (String.ofList cs) then some (0.0 / 0.0)
  else
    match cs with
    | '-' :: ds =>
        if isInfinity (String.ofList ds) then some (-1.0 / 0.0) else digitsFloat? true ds
    | _ =>
        (afterPlus? cs).bind fun ds =>
          if isInfinity (String.ofList ds) then some (1.0 / 0.0) else digitsFloat? false ds

/-! ## Scalars -/

/-- An integer of 64 bits.  A zero with a minus sign is no position of a field, and
so it is given as a float. -/
def ofInteger? (cs : List Char) (i : Int) : Option Document :=
  if i = 0 && cs.head? = some '-' then some (.float 0)
  else if Int64.minValue.toInt ≤ i && i < UInt64.size then some (.int i)
  else none

/-- A plain scalar without a tag.  Integers of more than 64 bits are refused. -/
def plain? (s : String) : Option Document :=
  let cs := s.toList
  if s = "" || isNullWord s then some .null
  else
    match truth? s, integer? cs, float? cs with
    | some b, _, _ => some (.bool b)
    | none, some i, _ => ofInteger? cs i
    | none, none, some x => some (if isPaddedDigits cs then .text s else .float x)
    | none, none, none => some (.text s)

def kindTag (kind : String) : String := "tag:yaml.org,2002:" ++ kind

def isLocalTag (tag : String) : Bool := tag.startsWith "!"

def scalar? (tag : Option String) (style : Style) (s : String) : Option Document :=
  match tag with
  | none => if style = .plain then plain? s else some (.text s)
  | some tag =>
      let cs := s.toList
      if isLocalTag tag then none
      else if tag = kindTag "bool" then (truth? s).map .bool
      else if tag = kindTag "int" then (integer? cs).bind (ofInteger? cs)
      else if tag = kindTag "float" then (float? cs).map .float
      else if tag = kindTag "null" then if isNullWord s then some .null else none
      else some (.text s)

end DecisionSpace.Yaml
