/-! # Paths

A path lists the names of the scopes below the root and the name of a variable,
joined by a separator.  The root has the empty path. -/
set_option autoImplicit false
namespace DecisionSpace.Path

def separator : Char := '/'

def hasSeparator (s : String) : Bool := s.toList.contains separator

def join (scope name : String) : String :=
  if scope.isEmpty then name else scope ++ "/" ++ name

/-- What is left of `path`, which lies below the scope with path `scope`. -/
def relativeTo (scope path : String) : String :=
  if scope.isEmpty then path else String.ofList (path.toList.drop (scope.length + 1))

inductive Reference where
  | name (name : String)
  | path (relative : String)
  deriving DecidableEq, Repr

/-- One leading separator anchors a reference; any other separator makes it a
path. -/
def Reference.ofString (s : String) : Reference :=
  match s.toList with
  | '/' :: rest => .path (String.ofList rest)
  | _ => if hasSeparator s then .path s else .name s

end DecisionSpace.Path
