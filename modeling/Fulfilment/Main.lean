import Fulfilment.Cli.Services
import Fulfilment.Json.Printer

/-!
# Command line

The first argument names a service, the others are its options. The settings that the service would run with are
printed as one document.
-/

namespace Fulfilment

namespace Cli

open Json

def printOption : Option OptionValue → List Char
  | none => "null".toList
  | some (.text s) => printText s
  | some (.number n) => printInt n
  | some (.switch on) => if on then "true".toList else "false".toList

def printSettings (settings : List (String × Option OptionValue)) : String :=
  String.ofList (printMembers (settings.map fun s => (s.1, printOption s.2)))

/-- The options of a service, one a line. -/
def usage (service : String) (os : List CliOption) : String :=
  "\n".intercalate (s!"Usage: {service} [OPTIONS]" :: "" :: os.map fun o => "  " ++ o.label)

/-- The variables that options can be set by, as far as they are there. -/
def environment (os : List CliOption) : IO (List (String × String)) := do
  let found ← os.mapM fun o => do
    match o.envName with
    | none => return none
    | some v => return (← IO.getEnv v).map fun value => (v, value)
  return found.filterMap id

def run (service : String) (os : List CliOption) (arguments : List String) : IO UInt32 := do
  match Options.parse os arguments (← environment os) with
  | .ok settings =>
    IO.println (printSettings settings)
    return 0
  | .error .help =>
    IO.println (usage service os)
    return 0
  | .error e =>
    IO.eprintln e.message
    return 2

end Cli

end Fulfilment

open Fulfilment in
def main : List String → IO UInt32
  | service :: arguments =>
    match Services.options? service with
    | some os => Cli.run service os arguments
    | none => do
      IO.eprintln s!"error: there is no service '{service}'"
      return 2
  | [] => do
    IO.eprintln "error: a service is required"
    return 2
