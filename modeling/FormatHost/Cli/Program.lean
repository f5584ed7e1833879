/-
FormatHost.Cli.Program — the whole program: from a command line to an exit
code.

The exit code is 0 when all went well, 1 when a command failed and 2 when
the command line cannot be read.
-/
import FormatHost.Cli.Commands

namespace FormatHost.Cli

/-- The program's name on the command line. -/
def programName : String := "fmtbridge"

def programVersion : String := "0.1.0"

def helpText : String :=
  "Format files through a project's own formatter installation\n\n" ++
    "Usage: " ++ programName ++ " [OPTIONS] <COMMAND>\n\n" ++
    "Commands:\n" ++
    "  format  Format a file and print or write the result\n" ++
    "  init    Write a starter .prettierrc\n" ++
    "  info    Show the module, readiness and parser for a file\n" ++
    "  help    Print this message\n"

/-- The variable of the environment that names the bundled package. -/
def bundledVariable : String := "FMTBRIDGE_BUNDLED"

/-- What a run of the program leaves. -/
structure Ending where
  exitCode : Nat
  output : String := ""
  /-- What is reported as an error. -/
  complaint : String := ""
  machine : Machine
  events : List Event := []

namespace UsageProblem

/-- What is said about a command line that cannot be read. -/
def message : UsageProblem → String
  | .helpAsked => helpText
  | .versionAsked => programName ++ " " ++ programVersion ++ "\n"
  | .nothingGiven => helpText
  | .missingCommand => "error: a command is required\n"
  | .unknownCommand => "error: unrecognized command\n"
  | .unknownArgument => "error: unexpected argument\n"
  | .missingOperand => "error: a file is required\n"
  | .invalidValue => "error: a value is required\n"
  | .unexpectedValue => "error: unexpected value\n"
  | .repeatedOption => "error: an option is given more than once\n"

/-- Whether the message is what the user asked for. -/
def isAsked : UsageProblem → Bool
  | .helpAsked => true
  | .versionAsked => true
  | _ => false

def ending (m : Machine) (p : UsageProblem) : Ending :=
  if p.isAsked then { exitCode := 0, output := p.message, machine := m }
  else { exitCode := 2, complaint := p.message, machine := m }

end UsageProblem

/-- The end of a command. -/
def Ending.ofOutcome (o : Outcome Machine (Except CommandFailure String)) : Ending :=
  match o.value with
  | .ok output => { exitCode := 0, output, machine := o.state, events := o.events }
  | .error e =>
    { exitCode := 1, complaint := "Error: " ++ e.userMessage ++ "\n", machine := o.state
      events := o.events }

/-- Run the program. `environment` is the bundled package that the
environment names. -/
def runProgram (m : Machine) (loader : Loader) (environment : Option String)
    (arguments : List String) : Ending :=
  match Invocation.parse environment arguments with
  | .ok i => .ofOutcome (execute m loader i)
  | .error p => p.ending m

end FormatHost.Cli
