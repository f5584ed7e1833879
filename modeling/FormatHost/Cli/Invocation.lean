/-
FormatHost.Cli.Invocation — the commands of the program and their options.

* §1 invocations;
* §2 the grammars of the program and its commands. Global options may
  stand before or after the command, where the later one wins;
* §3 from a command line to an invocation.
-/
import FormatHost.Cli.Usage
import FormatHost.Path

namespace FormatHost.Cli

/-! ## §1 Invocations -/

inductive Command
  /-- Format a file and print the result, or write it back. -/
  | format (file : Path) (write force : Bool) (range language : Option String)
  /-- Write a starter configuration file. -/
  | init (dir : Option Path)
  /-- Show how a file would be formatted. -/
  | info (file : Path) (language : Option String)
  deriving Repr, DecidableEq

/-- The options that every command has. -/
structure GlobalOptions where
  /-- The settings file. -/
  settings : Option Path := none
  /-- The workspace folder, unless it is the current directory. -/
  root : Option Path := none
  /-- The formatter package that is used when the project has none. -/
  bundled : Option Path := none
  deriving Repr, DecidableEq

/-- The log level unless another is asked for. -/
def defaultLogLevel : String := "warn"

structure Invocation where
  command : Command
  options : GlobalOptions := {}
  logLevel : String := defaultLogLevel
  verbose : Bool := false
  deriving Repr, DecidableEq

/-! ## §2 Grammars -/

def globalOptions : List OptionRule :=
  [⟨"settings", .path, none⟩, ⟨"root", .path, none⟩, ⟨"bundled", .path, none⟩,
    ⟨"log-level", .text, none⟩, ⟨"verbose", .switch, some 'v'⟩, ⟨"help", .help, some 'h'⟩]

def formatOptions : List OptionRule :=
  [⟨"write", .switch, some 'w'⟩, ⟨"force", .switch, none⟩, ⟨"range", .text, none⟩,
    ⟨"language", .text, none⟩]

def infoOptions : List OptionRule := [⟨"language", .text, none⟩]

/-- The command that shows the help of another. -/
def helpCommand : String := "help"

def commandNames : List String := ["format", "init", "info"]

def programGrammar : Grammar :=
  { options := globalOptions ++ [⟨"version", .version, some 'V'⟩]
    commands := commandNames ++ [helpCommand] }

def commandGrammar (command : String) : Grammar :=
  { options := globalOptions ++
      (match command with
        | "format" => formatOptions
        | "info" => infoOptions
        | _ => [])
    hasOperand := true }

/-! ## §3 Command lines -/

/-- What the help command says about its arguments: they name a command of
the program, which has no commands of its own. -/
def helpProblem : List String → UsageProblem
  | [] => .helpAsked
  | [command] => if programGrammar.commands.contains command then .helpAsked else .unknownCommand
  | _ => .unknownCommand

/-- Finish a level. The environment may give the bundled package where the
level does not. -/
def finish (environment : Option String) (r : Level) : Except UsageProblem Level := do
  let r ← r.settle
  if !r.isOn "bundled" && environment == some "" then .error .invalidValue else .ok r

/-- The operand of a command that has to have one. -/
def requiredOperand (r : Level) : Except UsageProblem Path :=
  match r.operand with
  | some file => .ok ⟨file⟩
  | none => .error .missingOperand

/-- The command that a level below it describes. -/
def commandOf (name : String) (r : Level) : Except UsageProblem Command := do
  match name with
  | "format" =>
    return .format (← requiredOperand r) (r.isOn "write") (r.isOn "force") (r.value? "range")
      (r.value? "language")
  | "info" => return .info (← requiredOperand r) (r.value? "language")
  | _ => return .init (r.operand.map Path.mk)

/-- The invocation from the program's level and the command's. -/
def Invocation.ofLevels (environment : Option String) (outer inner : Level) (command : Command) :
    Invocation :=
  let value? (name : String) : Option String := inner.value? name <|> outer.value? name
  { command
    options :=
      { settings := (value? "settings").map Path.mk
        root := (value? "root").map Path.mk
        bundled := (value? "bundled" <|> environment).map Path.mk }
    logLevel := (value? "log-level").getD defaultLogLevel
    verbose := (value? "verbose").isSome }

/-- A command line without a command. -/
def withoutCommand (environment : Option String) (r : Level) : UsageProblem :=
  match finish environment r with
  | .error e => e
  | .ok r => if r.given.isEmpty && environment.isNone then .nothingGiven else .missingCommand

/-- Read a command line. `environment` is the bundled package that the
environment names. -/
def Invocation.parse (environment : Option String) (arguments : List String) :
    Except UsageProblem Invocation := do
  match ← Level.read programGrammar {} arguments with
  | (outer, none) => .error (withoutCommand environment outer)
  | (outer, some (name, rest)) =>
    if name = helpCommand then .error (helpProblem rest)
    else
      let (inner, _) ← Level.read (commandGrammar name) {} rest
      let inner ← finish environment inner
      let command ← commandOf name inner
      return .ofLevels environment (← finish environment outer) inner command

end FormatHost.Cli
