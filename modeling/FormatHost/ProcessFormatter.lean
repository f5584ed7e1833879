/-
FormatHost.ProcessFormatter — a formatter behind a command line.

Each question starts the formatter's entry point as a process, with flags
for what is asked and the text as its input.

* §1 running the formatter;
* §2 what it answers;
* §3 loading packages as such formatters.
-/
import FormatHost.Config.Discovery
import FormatHost.Formatter
import FormatHost.OptionFlags
import FormatHost.Process

namespace FormatHost

/-- An installed formatter that is run by a command. -/
structure ProcessFormatter where
  /-- The command that runs the entry point. -/
  node : Path
  entry : Path
  /-- The most milliseconds that a call may take. -/
  timeout : Option Nat := none
  deriving Repr, DecidableEq

namespace ProcessFormatter

/-! ## §1 Running -/

/-- What a process that failed has to say: its errors, else how it ended. -/
def complaint (f : Finished) : String :=
  match Text.trim (Text.Utf8.decodeLossy f.errors) with
  | [] => "Formatter exited with " ++ f.ending.message
  | said => String.ofList said

/-- The answer of a process. -/
def answer (timeout : Option Nat) (f : Finished) : Except Failure String :=
  match timeout.filter (· < f.elapsed) with
  | some limit =>
    .error (.invocation ("Formatter timed out after " ++ toString (limit / 1000) ++ "s"))
  | none =>
    if f.ending ≠ .exit 0 then .error (.invocation (complaint f))
    else
      match Text.Utf8.decode? f.output with
      | some cs => .ok (String.ofList cs)
      | none => .error .invalidOutput

/-- Run the formatter on an input. -/
def run (p : ProcessFormatter) (m : Machine) (arguments : List String) (input : String) :
    Except Failure String := do
  let f ← Failure.ofIo (m.execute p.node (p.entry.text :: arguments)
    (Text.Utf8.encode input.toList))
  answer p.timeout f

/-! ## §2 Questions -/

def pluginFlags (plugins : List String) : List String := plugins.flatMap fun p => ["--plugin", p]

/-- A value that the formatter wrote. -/
def written {α : Type} (parse? : String → Option α) (text : String) : Except Failure α :=
  match parse? text with
  | some a => .ok a
  | none => .error .invalidOutput

def supportInfo (p : ProcessFormatter) (m : Machine) (plugins : List String) :
    Except Failure SupportInfo := do
  written SupportInfo.parse? (← p.run m ("--support-info" :: pluginFlags plugins) "")

/-- The arguments of a question about a file. -/
def fileInfoArguments (path : Path) (o : FileInfoOptions) : List String :=
  ["--file-info", path.text] ++
    (match o.ignorePath with | some i => ["--ignore-path", i.text] | none => []) ++
    (if o.withNodeModules then ["--with-node-modules"] else []) ++ pluginFlags o.plugins

def fileInfo (p : ProcessFormatter) (m : Machine) (path : Path) (o : FileInfoOptions) :
    Except Failure FileInfo := do
  written FileInfo.parse? (← p.run m (fileInfoArguments path o) "")

/-- The process as a formatter. Configuration is not asked of the process
but looked for here. -/
def toFormatter (p : ProcessFormatter) : Formatter where
  capabilities := .all
  format := fun m text options => p.run m (OptionFlags.formatArguments options) text
  supportInfo := p.supportInfo
  fileInfo := p.fileInfo
  resolveConfig := Config.resolve
  resolveConfigFile := fun m path => Config.findFile m (path.parent?.getD path)

end ProcessFormatter

/-! ## §3 Loading -/

/-- Loads packages by their entry point; without a command for running it
one is looked for. -/
structure ProcessLoader where
  node : Option Path := none
  timeout : Option Nat := none
  deriving Repr, DecidableEq

namespace ProcessLoader

/-- The command that runs entry points. -/
def nodeCommand : String := "node"

def load (l : ProcessLoader) (m : Machine) (i : Install) : Except Failure Formatter := do
  let entry ← match i.entry with
    | some entry => .ok entry
    | none => .error (.loadFailed i.path "package declares no entry point")
  if !(← Failure.ofIo (m.exists? entry)) then
    .error (.loadFailed i.path ("entry point " ++ entry.text ++ " does not exist"))
  else
    match l.node <|> m.command? nodeCommand with
    | some node => .ok (ProcessFormatter.toFormatter ⟨node, entry, l.timeout⟩)
    | none => .error (.loadFailed i.path "node not found: cannot find binary path")

def toLoader (l : ProcessLoader) : Loader := ⟨l.load⟩

end ProcessLoader
end FormatHost
