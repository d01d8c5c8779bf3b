import ReportQuery.Command.Run
/-!
# The program

From the arguments to what the program writes and its exit code: 0 if it has done what it
was asked to do, 1 if the command has failed, 2 if the arguments have a fault.
-/

namespace ReportQuery

/-- What the program ends with. -/
structure Ending where
  exitCode : UInt32
  /-- What is written to the standard output. -/
  output : String
  /-- What is written to the standard error output, beside the log. -/
  complaint : String
  log : List LogEntry
deriving DecidableEq

namespace Ending

/-- How the program is used. -/
def usage : String :=
  "usage: gaarf [-v] [--config FILE] COMMAND\n\n" ++
  "commands:\n" ++
  "  compile FILE [-s SCHEMA] [-m NAME=VALUE]... [-p NAME=VALUE]... [-o text|json]\n" ++
  "  expand FILE [-m NAME=VALUE]... [-p NAME=VALUE]...\n" ++
  "  resources [-s SCHEMA]\n"

/-- The ending of a program that has run no command. -/
def ofStop : ArgumentStop → Ending
  | .help => ⟨0, usage, "", []⟩
  | .version => ⟨0, "gaarf 0.1.0\n", "", []⟩
  | .misuse => ⟨2, "", usage, []⟩

/-- The ending of a program that has run a command. Details are logged on demand. -/
def ofOutcome (verbose : Bool) (o : Outcome) : Ending :=
  let log := o.log.filter fun e => verbose || e.level = .warning
  match o.result with
  | .ok output => ⟨0, String.ofList (output ++ ['\n']), "", log⟩
  | .error e => ⟨1, "", e.message ++ "\n", log⟩

end Ending

/-- Runs the program. -/
def runProgram {m : Type → Type} [Monad m] (host : Host m) (arguments : List String) : m Ending := do
  match Invocation.read arguments with
  | .error stop => return .ofStop stop
  | .ok i => return .ofOutcome i.verbose (← i.run host)

end ReportQuery
