import FleetRegistry.Command.Run

/-!
The command line. The server's answers are read from standard input, one JSON object with a status
and a body for each line; what the command prints goes to standard output, and what goes wrong to
standard error.
-/
namespace FleetRegistry.CommandLine

/-- The words that a usage fault is reported with. -/
def usageText : Command.UsageFault → String
  | .helpRequested | .nothingGiven =>
    "usage: fleet-registry [OPTIONS] <clusters|dns-records> <ACTION>"
  | .versionRequested => "fleet-registry"
  | .missingCommand => "error: a command is missing"
  | .unknownCommand => "error: unknown command"
  | .invalidValue => "error: invalid or missing value"
  | .missingArgument => "error: an argument is missing"
  | .unknownArgument => "error: unknown argument"
  | .repeatedOption => "error: an option is repeated"
  | .surplusValue => "error: a switch takes no value"

/-- Reads answers until the input ends. -/
partial def readResponses (input : IO.FS.Stream) (done : List HttpResponse) :
    IO (List HttpResponse) := do
  let line ← input.getLine
  if line.isEmpty then return done.reverse
  match (Json.parse? line).bind HttpResponse.ofJson? with
  | some response => readResponses input (response :: done)
  | none => readResponses input done

/-- The content of the file that a command names, if it names one. -/
def readNamedFile (action : Command.Action) : IO (Option String) :=
  match action with
  | .create file => do
    try return some (← IO.FS.readFile file) catch _ => return none
  | _ => return none

/-- The variables that settings come from. -/
def readVariables : IO (String → Option String) := do
  let names := [ClientConfig.namespaceVariable, ClientConfig.managerVariable,
    ClientConfig.pageSizeVariable]
  let pairs ← names.mapM fun name => return (name, ← IO.getEnv name)
  return fun name => (pairs.lookup name).join

end FleetRegistry.CommandLine

open FleetRegistry CommandLine in
/-- Runs the command line. -/
def main (words : List String) : IO UInt32 := do
  match ofWords words with
  | .error fault =>
    IO.eprintln (usageText fault)
    return 2
  | .ok line =>
    let config := line.config (← readVariables)
    let content ← readNamedFile line.action
    let responses ← readResponses (← IO.getStdin) []
    let (report, _) := line.run (fun _ => content) { config, exchange := { responses } }
    IO.print report.printed
    match report.failure with
    | none => return 0
    | some failure =>
      IO.eprintln ("error: " ++ failure.message)
      return 1
