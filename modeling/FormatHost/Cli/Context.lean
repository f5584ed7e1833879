/-
FormatHost.Cli.Context — what a command works with.

* §1 the context and the service that global options ask for;
* §2 the formatter for a path, and the language of a file: given, or
  guessed from the formatter's language table;
* §3 files as documents.
-/
import FormatHost.Cli.Failure
import FormatHost.Cli.Invocation
import FormatHost.Parser
import FormatHost.Service.Provide
import FormatHost.Settings.Decode

namespace FormatHost.Cli

/-! ## §1 Contexts -/

structure Context where
  machine : Machine
  settings : Settings
  /-- The workspace folder. -/
  root : Path

def readSettings (m : Machine) : Option Path → Except CommandFailure Settings
  | none => .ok {}
  | some file =>
    match Settings.load m file with
    | .ok s => .ok s
    | .error e => .error (.config e.message)

/-- The package that is used when the project has none. -/
def readBundled (m : Machine) : Option Path → Except CommandFailure (Option Install)
  | none => .ok none
  | some dir =>
    match readInstall m dir defaultPackage .bundled with
    | .ok i => .ok (some i)
    | .error e => .error (.module e)

namespace Context

/-- The context of global options, and a fresh service for it. -/
def create (m : Machine) (loader : Loader) (o : GlobalOptions) :
    Except CommandFailure (Context × Service) := do
  let settings ← readSettings m o.settings
  let root := m.absolute (o.root.getD m.cwd)
  let bundled ← readBundled m o.bundled
  return (⟨m, settings, root⟩,
    { resolver := { loader, bundled }
      settings
      workspace := ⟨[root]⟩
      statusBar := { text := settings.statusItemText } })

/-! ## §2 Formatter and language -/

/-- The formatter for a path. -/
def moduleFor (c : Context) (path : Path) : Run Service (Except CommandFailure Handle) := do
  match ← Service.moduleFor c.machine (some path) (some c.root) c.settings with
  | some h => return .ok h
  | none => return .error (.noFormatter path.text)

/-- Whether a language lists the name of a file or its extension. -/
def lists (l : Language) (name : String) (extension? : Option String) : Bool :=
  l.filenames.contains name || extension?.any l.extensions.contains

/-- The first identifier of the first language that lists a file. -/
def languageInTable (languages : List Language) (path : Path) : Option String := do
  let name ← path.fileName?
  let l ← languages.find? fun l => lists l name (Parser.dottedExtension? path)
  l.identifiers.head?

/-- The language of a file, as the formatter's table has it. A table that
cannot be read is reported. -/
def guessLanguage (c : Context) (path : Path) : Run Service String := do
  match ← c.moduleFor path with
  | .error _ => return Parser.plainText
  | .ok h =>
    match ← h.supportInfo c.machine [] with
    | .ok info => return (languageInTable info.languages path).getD Parser.plainText
    | .error e =>
      Run.warn ("Cannot read formatter language support: " ++ e.message)
      return Parser.plainText

/-! ## §3 Documents -/

/-- The language of a file: the given one, or a guess. -/
def languageOf (c : Context) (path : Path) : Option String → Run Service String
  | some language => return language
  | none => c.guessLanguage path

/-- A file as a document. -/
def document (c : Context) (file : Path) (language? : Option String) :
    Run Service (Except CommandFailure Document) := do
  let path := c.machine.absolute file
  match c.machine.readText path, Uri.ofFilePath? path with
  | .error e, _ => return .error (.io e)
  | .ok _, none => return .error (.invalidArgument ("not a file path: " ++ path.text))
  | .ok text, some uri => return .ok ⟨uri, ← c.languageOf path language?, text⟩

end Context
end FormatHost.Cli
