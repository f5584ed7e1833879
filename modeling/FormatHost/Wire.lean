/-
FormatHost.Wire — values as the editor reads and writes them.

The editor talks JSON: positions, ranges and edits of a document, the
filters of a registration, merged options with their origins, formatters
and what they were asked, and failures by kind.
-/
import FormatHost.Bits
import FormatHost.Config.Merge
import FormatHost.Edit
import FormatHost.FormatFailure
import FormatHost.Formatter
import FormatHost.Registration

namespace FormatHost

open Json

/-! ## §1 Places in a document, and edits -/

namespace Position

def decode? (s : Source) : Option Position := do
  let number := Source.int? 0 (bitValues 32 - 1)
  match ← s.record? ["line", "character"] with
  | [some line, some character] =>
    some ⟨(← number line).toNat, (← number character).toNat⟩
  | _ => none

def toValue (p : Position) : Value :=
  .obj [("character", .ofNat p.character), ("line", .ofNat p.line)]

end Position

def Range.toValue (r : Range) : Value :=
  .obj [("end", r.stop.toValue), ("start", r.start.toValue)]

def TextEdit.toValue (e : TextEdit) : Value :=
  .obj [("newText", .str e.newText), ("range", e.range.toValue)]

def EditResult.toValue (r : EditResult) : Value :=
  .obj [("edits", .arr (r.edits.map TextEdit.toValue)), ("noop", .bool r.isNoop)]

/-! ## §2 Statuses and registrations -/

def Status.decode? : Source → Option Status := Source.choice? Status.names

/-- Only the fields that are set. -/
def DocumentFilter.toValue (f : DocumentFilter) : Value :=
  let field (name : String) (text? : Option String) : Options :=
    (text?.map fun text => (name, Value.str text)).toList
  .obj (field "language" f.language ++ field "pattern" f.pattern ++ field "scheme" f.scheme)

def Selectors.toValue (s : Selectors) : Value :=
  .obj [("language", .arr (s.language.map DocumentFilter.toValue)),
    ("range", .arr (s.range.map DocumentFilter.toValue))]

def Path.toValue (p : Path) : Value := .str p.text

def Registration.toValue (r : Registration) : Value :=
  .obj [("activation", .ofNat r.activation),
    ("root", .ofOption Path.toValue r.folder),
    ("selectors", r.selectors.toValue)]

/-! ## §3 Options -/

/-- The name of a layer of options. -/
def Config.Provenance.name : Config.Provenance → String
  | .callerOverride => "override"
  | .projectFile => "project-file"
  | .editorDefault => "editor-default"

/-- Options, where each came from, and whether the project has any. -/
def Config.MergedOptions.toValue (r : Config.MergedOptions) : Value :=
  .obj [("has_project_config", .bool r.hasProjectConfig),
    ("options", .obj r.options),
    ("provenance", .obj (r.provenance.mapValues fun p => .str p.name))]

/-! ## §4 Formatters -/

def Install.toValue (i : Install) : Value :=
  .obj [("entry", .ofOption Path.toValue i.entry),
    ("origin", .str i.origin.name),
    ("path", i.path.toValue),
    ("version", .ofOption (fun v => .str v.text) i.version)]

def Handle.toValue (h : Handle) : Value :=
  .obj [("above_v3", .bool h.isAboveV3),
    ("origin", .str h.origin.name),
    ("path", h.path.toValue),
    ("version", .ofOption (fun v => .str v.text) h.version)]

/-- A list of names. -/
def namesValue (names : List String) : Value := .arr (names.map .str)

def Call.toValue : Call → Value
  | .format text options =>
    .obj [("fn", .str "format"), ("options", .obj options), ("text", .str text)]
  | .supportInfo plugins => .obj [("fn", .str "support_info"), ("plugins", namesValue plugins)]
  | .fileInfo path o =>
    .obj [("fn", .str "file_info"),
      ("ignore_path", .ofOption Path.toValue o.ignorePath),
      ("path", path.toValue),
      ("plugins", namesValue o.plugins),
      ("resolve_config", .bool o.resolveConfig),
      ("with_node_modules", .bool o.withNodeModules)]
  | .resolveConfig path o =>
    .obj [("config", .ofOption Path.toValue o.config),
      ("editorconfig", .bool o.editorConfig),
      ("fn", .str "resolve_config"),
      ("path", path.toValue)]

/-! ## §5 Failures -/

def Failure.kind : Failure → String
  | .notFound _ => "NotFound"
  | .loadFailed .. => "LoadFailed"
  | .unsupported _ => "Unsupported"
  | .invocation _ => "Invocation"
  | .invalidOutput => "InvalidOutput"
  | .configDiscovery .. => "ConfigDiscovery"
  | .glob _ => "Glob"
  | .version => "Version"
  | .json => "Json"
  | .json5 => "Json5"
  | .yaml => "Yaml"
  | .toml => "Toml"
  | .io _ => "Io"

/-- A failure inside the formatter keeps its own kind. -/
def FormatFailure.kind : FormatFailure → String
  | .moduleNotFound _ => "ModuleNotFound"
  | .configResolutionFailed .. => "ConfigResolutionFailed"
  | .configRequiredMissing _ => "ConfigRequiredMissing"
  | .parserUnresolvable _ => "ParserUnresolvable"
  | .invocationFailed _ => "FormatInvocationFailed"
  | .settings _ => "Settings"
  | .pattern _ => "Pattern"
  | .module e => "Module:" ++ e.kind
  | .json => "Json"
  | .yaml => "Yaml"
  | .io _ => "Io"

end FormatHost
