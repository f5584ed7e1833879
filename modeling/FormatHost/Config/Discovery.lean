/-
FormatHost.Config.Discovery — the configuration that applies to a file.

* §1 the names of configuration files, and the nearest one above a file.
  A manifest counts only when it carries formatter options;
* §2 the project's options for a file: those of the configuration file
  over those of `.editorconfig`.
-/
import FormatHost.Config.File
import FormatHost.EditorConfig
import FormatHost.Support

namespace FormatHost.Config

/-! ## §1 Finding the file -/

/-- The names that are looked for in each directory, in order. -/
def fileNames : List String :=
  [manifestFile, ".prettierrc", ".prettierrc.json", ".prettierrc.yaml", ".prettierrc.yml",
    ".prettierrc.json5", ".prettierrc.toml", ".prettierrc.js", ".prettierrc.cjs",
    ".prettierrc.mjs", "prettier.config.js", "prettier.config.cjs", "prettier.config.mjs"]

/-- Files whose change can change a project's options. -/
def watchedFiles : List String := fileNames ++ [EditorConfig.fileName]

/-- Whether a manifest on disk carries formatter options; one that cannot
be read does not. -/
def carriesOptions (m : Machine) (p : Path) : Bool :=
  match Manifest.read m p with
  | .ok manifest => manifest.prettier.isSome
  | .error _ => false

/-- Whether a candidate is a configuration file. -/
def qualifies (m : Machine) (dir : Path) (name : String) : Except Failure Bool := do
  if ← Failure.ofIo (m.exists? (dir / name)) then
    .ok (name ≠ manifestFile || carriesOptions m (dir / name))
  else .ok false

/-- The first of the candidates that is a configuration file. -/
def firstFile (m : Machine) : List (Path × String) → Except Failure (Option Path)
  | [] => .ok none
  | (dir, name) :: rest => do
    if ← qualifies m dir name then .ok (some (dir / name)) else firstFile m rest

/-- All candidates for files in a directory: nearest directory first, in
each directory by name. -/
def candidates (start : Path) : List (Path × String) :=
  start.ancestors.flatMap fun dir => fileNames.map (dir, ·)

/-- The configuration file that applies to files in a directory. -/
def findFile (m : Machine) (start : Path) : Except Failure (Option Path) :=
  firstFile m (candidates start)

/-! ## §2 The project's options -/

/-- The configuration file for a document: the one that is asked for, else
the nearest. -/
def fileFor (m : Machine) (document : Path) (o : ConfigOptions) : Except Failure (Option Path) :=
  match o.config with
  | some p => .ok (some p)
  | none => findFile m (document.parent?.getD document)

/-- The options of the configuration file that applies to a document. -/
def fileOptions (m : Machine) (document : Path) (o : ConfigOptions) :
    Except Failure (Option Options) := do
  match ← fileFor m document o with
  | none => .ok none
  | some p => ((← ConfigFile.load m p).optionsFor document).map some

/-- The project's options for a document; none when nothing applies. -/
def resolve (m : Machine) (document : Path) (o : ConfigOptions) :
    Except Failure (Option Options) := do
  let file? ← fileOptions m document o
  let base? ← if o.editorConfig then EditorConfig.resolve m document else .ok none
  .ok (match base?, file? with
    | none, file? => file?
    | some base, none => some base
    | some base, some file => some (base.overlay file))

end FormatHost.Config
