import DecisionSpace.Tour

/-! # Command line

The program takes the path of a configuration file, or nothing for the default
configuration, and prints the tour. -/
set_option autoImplicit false
namespace DecisionSpace.CommandLine

def loadMessage : ConfigFailure → String
  | .unreadable => "the configuration file cannot be read"
  | .malformed .toml => "the configuration is not well-formed TOML"
  | .malformed .yaml => "the configuration is not well-formed YAML"
  | .invalid cause => cause.message

def readContent (path : String) : IO (Option String) := do
  try
    return some (← IO.FS.readFile path)
  catch _ =>
    return none

def fileName (path : String) : String :=
  String.ofList (path.toList.reverse.takeWhile (· != '/')).reverse

def loadConfig : List String → IO (Except ConfigFailure Config)
  | [] => return .ok {}
  | path :: _ => return Config.load (fileName path) (← readContent path)

def freshEntropy : IO UInt64 := do
  let high ← IO.rand 0 (UInt32.size - 1)
  let low ← IO.rand 0 (UInt32.size - 1)
  return (high * UInt32.size + low).toUInt64

end DecisionSpace.CommandLine

open DecisionSpace CommandLine in
/-- Prints the tour and gives the exit code. -/
def main (args : List String) : IO UInt32 := do
  match ← loadConfig args with
  | .error e =>
      IO.eprintln ("Error: " ++ loadMessage e)
      return 1
  | .ok config =>
      let transcript := Tour.run (← freshEntropy) config
      for line in transcript.lines do
        IO.println line
      match transcript.failure with
      | none => return 0
      | some e =>
          IO.eprintln ("Error: " ++ e.message)
          return 1
