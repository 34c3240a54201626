import DecisionSpace.Config.Decode
import DecisionSpace.Config.Toml
import DecisionSpace.Config.Yaml

/-! # Loading configurations

A configuration is read from the text of a file; the name of the file says in
which format it is written.  What was read is validated before it is used. -/
set_option autoImplicit false
namespace DecisionSpace

inductive Format where
  | toml
  | yaml
  deriving DecidableEq

/-- The part of a file name after its last point.  A point at the beginning
does not count. -/
def extension? (name : String) : Option String :=
  let reversed := name.toList.reverse
  let last := reversed.takeWhile (· != '.')
  match reversed.dropWhile (· != '.') with
  | '.' :: _ :: _ => some (String.ofList last.reverse)
  | _ => none

/-- Two extensions stand for one format, every other name for the other. -/
def Format.ofFileName (name : String) : Format :=
  match extension? name with
  | some "yaml" | some "yml" => .yaml
  | _ => .toml

inductive ConfigFailure where
  | unreadable
  | malformed (format : Format)
  | invalid (cause : ConfigFault)
  deriving DecidableEq

namespace Config

def parse (format : Format) (text : String) : Except ConfigFailure Config :=
  let read :=
    match format with
    | .toml => Toml.read? text
    | .yaml => Yaml.read? text
  match read.bind Config.ofDocument? with
  | none => .error (.malformed format)
  | some c => (c.validate.mapError .invalid).map fun _ => c

def load (name : String) (content : Option String) : Except ConfigFailure Config :=
  match content with
  | none => .error .unreadable
  | some text => parse (Format.ofFileName name) text

end Config

end DecisionSpace
