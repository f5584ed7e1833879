/-
FormatHost.Cli.Usage — reading command lines.

A command line has levels: the program's own, and below it that of the
command it names. Each level has a grammar: options by name, some also by
letter, commands, and at most one operand. An option occurs at most once
in a level.

* §1 grammars;
* §2 what is wrong with a command line, or what else it asks for;
* §3 a level that is being read. The last option or operand is `pending`:
  it is settled, and only then checked, when the next one starts;
* §4 single arguments;
* §5 whole levels.
-/
import FormatHost.Text

namespace FormatHost.Cli

/-! ## §1 Grammars -/

/-- What an option is for. -/
inductive OptionKind
  /-- It is on when it occurs. -/
  | switch
  /-- Its value is any text. -/
  | text
  /-- Its value is a path, which is not empty. -/
  | path
  /-- It asks for help instead. -/
  | help
  /-- It asks for the version instead. -/
  | version
  deriving Repr, DecidableEq

def OptionKind.takesValue : OptionKind → Bool
  | .text => true
  | .path => true
  | _ => false

/-- An option, named after two dashes. -/
structure OptionRule where
  name : String
  kind : OptionKind
  /-- Its letter after one dash; options that take a value have none. -/
  letter : Option Char := none
  deriving Repr, DecidableEq

/-- What one level of a command line may hold. -/
structure Grammar where
  options : List OptionRule
  commands : List String := []
  hasOperand : Bool := false
  deriving Repr

namespace Grammar

def named? (g : Grammar) (name : String) : Option OptionRule := g.options.find? (·.name = name)

def lettered? (g : Grammar) (letter : Char) : Option OptionRule :=
  g.options.find? (·.letter = some letter)

end Grammar

/-! ## §2 Problems -/

/-- Why a command line names no run of a command. -/
inductive UsageProblem
  | helpAsked
  | versionAsked
  /-- Nothing at all was given. -/
  | nothingGiven
  | missingCommand
  | unknownCommand
  | unknownArgument
  | missingOperand
  /-- A value is missing or empty. -/
  | invalidValue
  /-- A value for an option that takes none. -/
  | unexpectedValue
  | repeatedOption
  deriving Repr, DecidableEq

/-! ## §3 Levels -/

/-- The last thing that was given. -/
inductive Pending
  | option (rule : OptionRule) (value : Option String)
  | operand (value : String)
  deriving Repr, DecidableEq

structure Level where
  /-- The options that are settled, with their values. -/
  given : List (String × String) := []
  operand : Option String := none
  pending : Option Pending := none
  /-- Whether the operand was met, settled or not. -/
  operandMet : Bool := false
  /-- Whether all that follows are operands. -/
  optionsEnded : Bool := false
  deriving Repr

namespace Level

def value? (r : Level) (name : String) : Option String := r.given.lookup name

def isOn (r : Level) (name : String) : Bool := (r.value? name).isSome

/-- Whether an option waits for its value. -/
def isWaiting (r : Level) : Bool :=
  match r.pending with
  | some (.option _ none) => true
  | _ => false

/-- Settle an option. -/
def give (r : Level) (rule : OptionRule) (value : String) : Except UsageProblem Level :=
  if r.isOn rule.name then .error .repeatedOption
  else if rule.kind = .path && value = "" then .error .invalidValue
  else .ok { r with given := r.given ++ [(rule.name, value)] }

/-- Settle what is pending. -/
def settle (r : Level) : Except UsageProblem Level :=
  let r' := { r with pending := none }
  match r.pending with
  | none => .ok r'
  | some (.option _ none) => .error .invalidValue
  | some (.option rule (some value)) => r'.give rule value
  | some (.operand "") => .error .invalidValue
  | some (.operand value) => .ok { r' with operand := some value }

/-! ## §4 Arguments -/

/-- An option without a value. -/
def occur (r : Level) (rule : OptionRule) : Except UsageProblem Level := do
  let r ← r.settle
  match rule.kind with
  | .help => .error .helpAsked
  | .version => .error .versionAsked
  | _ => r.give rule "true"

/-- The name of an option and, after `=`, its value. -/
def cutValue (cs : List Char) : String × Option String :=
  match Text.splitOnce '=' cs with
  | some (name, value) => (String.ofList name, some (String.ofList value))
  | none => (String.ofList cs, none)

/-- What follows two dashes. -/
def readName (g : Grammar) (r : Level) (cs : List Char) : Except UsageProblem Level := do
  let (name, value?) := cutValue cs
  match g.named? name, value? with
  | none, _ => .error .unknownArgument
  | some rule, some value =>
    if rule.kind.takesValue then (← r.settle).give rule value else .error .unexpectedValue
  | some rule, none =>
    if rule.kind.takesValue then return { ← r.settle with pending := some (.option rule none) }
    else r.occur rule

/-- What follows one dash. -/
def readLetters (g : Grammar) : Level → List Char → Except UsageProblem Level
  | r, [] => .ok r
  | r, c :: cs => do
    match g.lettered? c with
    | some rule => readLetters g (← r.occur rule) cs
    | none => .error .unknownArgument

/-- What is neither an option nor the value of one. -/
def readOperand (g : Grammar) (r : Level) (argument : String) : Except UsageProblem Level := do
  if g.hasOperand && !r.operandMet then
    return { ← r.settle with pending := some (.operand argument), operandMet := true }
  else if g.commands.isEmpty || (r.optionsEnded && g.commands.contains argument) then
    .error .unknownArgument
  else .error .unknownCommand

/-- What is no option: the value that an option waits for, or an operand. -/
def readPlain (g : Grammar) (r : Level) (argument : String) : Except UsageProblem Level :=
  match r.pending with
  | some (.option rule none) => .ok { r with pending := some (.option rule (some argument)) }
  | _ => readOperand g r argument

/-- One argument. A single dash is no option. -/
def readArgument (g : Grammar) (r : Level) (argument : String) : Except UsageProblem Level :=
  if r.optionsEnded then readOperand g r argument
  else
    match argument.toList with
    | ['-', '-'] => .ok { r with optionsEnded := true }
    | '-' :: '-' :: cs => readName g r cs
    | '-' :: c :: cs => readLetters g r (c :: cs)
    | _ => readPlain g r argument

/-! ## §5 Whole levels -/

/-- Whether an argument names a command. -/
def entersCommand (g : Grammar) (r : Level) (argument : String) : Bool :=
  !r.optionsEnded && !r.isWaiting && g.commands.contains argument

/-- Read a level up to a command, or to the end: the level, still
unsettled, and the command with what follows it. -/
def read (g : Grammar) : Level → List String → Except UsageProblem (Level × Option (String × List String))
  | r, [] => .ok (r, none)
  | r, a :: rest => do
    if entersCommand g r a then return (r, some (a, rest))
    else read g (← readArgument g r a) rest

end Level
end FormatHost.Cli
