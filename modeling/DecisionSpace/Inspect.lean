import DecisionSpace.Assignment

/-! # Inspection texts

An inspection text shows how a value is made up: constructors by name, texts in
quotes, lists in brackets.  It is meant for people who look for a fault, where
the plain text of a value would hide the difference between a text and a
number. -/
set_option autoImplicit false
namespace DecisionSpace.Inspect

def escape : Char → List Char
  | '"' => ['\\', '"']
  | '\\' => ['\\', '\\']
  | '\n' => ['\\', 'n']
  | '\r' => ['\\', 'r']
  | '\t' => ['\\', 't']
  | c => [c]

def quoted (s : String) : String := String.ofList ('"' :: s.toList.flatMap escape ++ ['"'])

def bracketed (items : List String) : String := "[" ++ ", ".intercalate items ++ "]"

mutual

def value : Value → String
  | .bool b => "Bool(" ++ (if b then "true" else "false") ++ ")"
  | .int i => "Int(" ++ toString i.toInt ++ ")"
  | .text s => "Text(" ++ quoted s ++ ")"
  | .selection items => "Selection(" ++ bracketed (values items) ++ ")"

def values : List Value → List String
  | [] => []
  | v :: rest => value v :: values rest

end

def slot : Option Value → String
  | some v => "Some(" ++ value v ++ ")"
  | none => "None"

def assignment (a : Assignment) : String :=
  "Assignment \x7b model: " ++ quoted a.model.name ++ ", scope: " ++ quoted a.view.name ++
    ", values: " ++ bracketed (a.slots.map slot) ++ " \x7d"

end DecisionSpace.Inspect
