/-
FormatHost.Config.Merge — the options of one format call.

The options come in layers: the editor's defaults, which count only where
the project has no configuration; the range; the project's options; the
parser and the file path; the caller's options. A later layer wins, and
every option remembers the layer it came from.
-/
import FormatHost.Json.Value
import FormatHost.Path

namespace FormatHost.Config

open Json

/-- The layer that an option came from. -/
inductive Provenance
  | callerOverride
  | projectFile
  | editorDefault
  deriving Repr, DecidableEq

/-- Options, and the layer that each came from: two tables, which every
writer has to keep in step. -/
structure MergedOptions where
  options : Options := []
  provenance : Fields Provenance := []
  hasProjectConfig : Bool := false
  deriving Repr

/-- What one request adds to its options. -/
structure RequestOptions where
  parser : String := ""
  filepath : Option Path := none
  /-- The range to format, in UTF-16 units. -/
  range : Option (Nat × Nat) := none
  /-- Whether a pragma is not to be required. -/
  force : Bool := false
  deriving Repr, DecidableEq

namespace RequestOptions

/-- The options for the range. -/
def rangeOptions (r : RequestOptions) : Options :=
  match r.range with
  | some (start, stop) => [("rangeEnd", .ofNat stop), ("rangeStart", .ofNat start)]
  | none => []

/-- The options for the parser and the file. -/
def ownOptions (r : RequestOptions) : Options :=
  (match r.filepath with | some p => [("filepath", .str p.text)] | none => []) ++
    [("parser", .str r.parser)]

end RequestOptions

/-- The option that makes a pragma necessary. -/
def requirePragma : String := "requirePragma"

namespace MergedOptions

/-- The options with one more, and the layer it is from. -/
def set (r : MergedOptions) (key : String) (v : Value) (p : Provenance) : MergedOptions :=
  { r with options := r.options.insert key v, provenance := r.provenance.insert key p }

/-- The options with a layer put over them, one option after the other. -/
def layer (r : MergedOptions) (top : Options) (p : Provenance) : MergedOptions :=
  top.foldl (fun r e => r.set e.1 e.2 p) r

/-- The options with layers put over them, in turn. -/
def layerAll (r : MergedOptions) (layers : List (Options × Provenance)) : MergedOptions :=
  layers.foldl (fun r l => r.layer l.1 l.2) r

/-- Turn off a pragma requirement that is on. It stays with its layer. -/
def waivePragma (r : MergedOptions) : MergedOptions :=
  match r.options.find? requirePragma with
  | some (.bool true) => { r with options := r.options.insert requirePragma (.bool false) }
  | _ => r

end MergedOptions

/-- The layers of a format call, the weakest first. -/
def layers (project : Option Options) (editorDefaults : Options) (request : RequestOptions)
    (overrides : Options) : List (Options × Provenance) :=
  [(if project.isNone then editorDefaults else [], .editorDefault),
    (request.rangeOptions, .callerOverride),
    (project.getD [], .projectFile),
    (request.ownOptions, .callerOverride),
    (overrides, .callerOverride)]

/-- The options of a format call. -/
def merge (project : Option Options) (editorDefaults : Options) (request : RequestOptions)
    (overrides : Options) : MergedOptions :=
  let start : MergedOptions := { hasProjectConfig := project.isSome }
  let merged := start.layerAll (layers project editorDefaults request overrides)
  if request.force then merged.waivePragma else merged

end FormatHost.Config
