/-
FormatHost.Config.Project — a project's options as a format call sees
them.

* §1 plugins named by options;
* §2 looking up the project's options for a document: by the formatter
  when it is capable of that, else here;
* §3 looking up and merging in one step.
-/
import FormatHost.Config.Discovery
import FormatHost.Config.Merge
import FormatHost.Formatter
import FormatHost.FormatFailure

namespace FormatHost.Config

open Json

/-! ## §1 Plugins -/

/-- The plugins that options list by name. -/
def pluginNames (options : Option Options) : List String :=
  match options.bind (Fields.find? · "plugins") with
  | some (.arr items) => items.filterMap Value.str?
  | _ => []

/-! ## §2 Looking up -/

/-- What was found for a document. -/
inductive ProjectConfig
  | found (options : Options)
  | missing
  /-- Configuration is required and there is none. -/
  | disabled
  | failed (e : FormatFailure)
  deriving Repr

namespace ProjectConfig

def options? : ProjectConfig → Option Options
  | .found options => some options
  | _ => none

end ProjectConfig

variable {σ : Type}

/-- The options that apply to a path. -/
def discover (h : Handle) (m : Machine) (path : Path) (s : Settings) (folder : Option Path) :
    Run σ (Except Failure (Option Options)) :=
  let o := s.configOptions m.home folder
  if h.has .resolveConfig then h.resolveConfig m path o
  else return resolve m path o

/-- What was found, once looking for it has not failed. -/
def ofFound (s : Settings) : Option Options → ProjectConfig
  | some options => .found options
  | none => if s.requireConfig then .disabled else .missing

/-- Look up the project's options for a document. -/
def loadProject (h : Handle) (m : Machine) (path? : Option Path) (s : Settings)
    (folder : Option Path) : Run σ ProjectConfig := do
  match path? with
  | none => return ofFound s none
  | some path =>
    match ← discover h m path s folder with
    | .ok found => return ofFound s found
    | .error e => return .failed (.configResolutionFailed path e)

/-! ## §3 In one step -/

/-- Merged options, or why there are none. -/
inductive Resolution
  | resolved (r : MergedOptions)
  | failed (e : FormatFailure)
  | disabled
  deriving Repr

/-- Look up the project's options and merge them with the rest. -/
def resolveRequest (h : Handle) (m : Machine) (path? : Option Path) (s : Settings)
    (folder : Option Path) (request : RequestOptions) (overrides : Options) :
    Run σ Resolution := do
  match ← loadProject h m path? s folder with
  | .failed e => return .failed e
  | .disabled => return .disabled
  | project => return .resolved (merge project.options? s.editorDefaults request overrides)

end FormatHost.Config
