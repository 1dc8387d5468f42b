import CucumberExpressions.Report
import CucumberExpressions.Resolution

/-!
# The program

The whole program, from the words of the command line and the files to what it writes and how it
ends.

## Main definitions

* `Program.Ending` — how a run ends
* `Program.Result` — how a run ends and what it has written
* `Program.run` — a run of the program
-/

namespace CucumberExpressions.Program

/-- How a run ends: at the command line with an exit status, with a status, or by a failure that is
not foreseen. -/
inductive Ending
  | exit (status : Nat)
  | status (status : Nat)
  | fault (fault : Fault)
  deriving DecidableEq, Repr

/-- The result of a run: how it ends, and what it has written. -/
structure Result where
  ending : Ending
  output : String
  errorOutput : String
  deriving DecidableEq, Repr

/-- A run that is refused. -/
def refuse (message : String) : Result where
  ending := .status 2
  output := ""
  errorOutput := "error: " ++ message ++ "\n"

/-- A run with the given options. If it is asked for, the log is shown at the error output. -/
def carryOut (options : Options) : Result :=
  if options.expressions.isEmpty then
    refuse "no expressions given"
  else
    let report := options.report
    ⟨.status report.status, report.output,
      if options.verbose then report.loggedErrorOutput else report.errorOutput⟩

/-- A run with the given arguments, where the current directory is searched for settings. -/
def runWith (view : FileView) (arguments : CommandLine.Arguments) : Result :=
  match Options.resolve view arguments "." with
  | .ok options => carryOut options
  | .error (.refusal refusal) => refuse refusal.message
  | .error (.fault fault) => ⟨.fault fault, "", ""⟩

/-- A run of the program. -/
def run (view : FileView) (words : List String) : Result :=
  match CommandLine.Arguments.ofWords words with
  | .ok arguments => runWith view arguments
  | .error exit => ⟨.exit exit.status, exit.output, exit.errorOutput⟩

/-- The paths that a run of the program may read. -/
def pathsRead (words : List String) : List String :=
  match CommandLine.Arguments.ofWords words with
  | .ok arguments =>
    arguments.settingsPath "." :: arguments.files.filterMap CommandLine.Given.toOption
  | .error _ => []

end CucumberExpressions.Program
