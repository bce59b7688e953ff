import PlcGateway.CommandLine
import PlcGateway.Gateway
import PlcGateway.Settings.File

/-!
# The program

Reads the command line and the configuration, and says what a gateway with this configuration scans:
it prints the status that the gateway reports when it begins to run. Connections to PLCs and to the
bus are not made here.
-/

namespace PlcGateway.Main

/-- The version that the gateway reports. -/
def gatewayVersion : String := "0.2.0"

/-- What there is under a path. -/
def contentOf (path : String) : IO FileContent := do
  try
    let content ← IO.FS.readBinFile path
    return .bytes content.toList
  catch
    | .noFileOrDirectory .. => return .nothing
    | _ => return .noFile

/-- Loads the configuration and prints the status; gives the exit code. -/
def report (arguments : Arguments) : IO UInt32 := do
  match Settings.load arguments.config (← contentOf arguments.config) with
  | .error e =>
    IO.eprintln e.message
    return 1
  | .ok settings =>
    let gateway := Gateway.ofSettings settings ()
    IO.println (gateway.status gatewayVersion).text
    return 0

/-- Runs the program and gives its exit code. -/
def run (arguments : List String) : IO UInt32 := do
  match Arguments.parse "slmp.json5" arguments with
  | .error .displayHelp =>
    IO.println CommandLine.usage
    return 0
  | .error e =>
    IO.eprintln e.message
    return 2
  | .ok arguments => report arguments

end PlcGateway.Main

/-- The entry of the program. -/
def main (arguments : List String) : IO UInt32 := PlcGateway.Main.run arguments
