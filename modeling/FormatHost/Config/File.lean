/-
FormatHost.Config.File — configuration files of a project.

A configuration file holds options, and under `overrides` options for
some files only.

* §1 overrides and how they are read from a value;
* §2 files: from a value, and from disk by the kind of the file;
* §3 the options for a document. An override applies when one of its
  `files` patterns matches and none of its `excludeFiles`; later ones
  win.
-/
import FormatHost.Glob.Match
import FormatHost.Install
import FormatHost.Json5
import FormatHost.Toml.Document
import FormatHost.Yaml.Value

namespace FormatHost

open Json

/-! ## §1 Overrides -/

/-- Options for the files that some patterns match. -/
structure Override where
  files : List String := []
  excludeFiles : List String := []
  options : Options := []
  deriving Repr

namespace Override

/-- No pattern, one, or a list. -/
def patterns? : Source → Option (List String)
  | .null => some []
  | .str s => s.map ([·])
  | s => s.list? Source.string?

def decode? (s : Source) : Option Override := do
  match ← s.record? ["files", "excludeFiles", "options"] with
  | [files, excludeFiles, options] =>
    some
      { files := ← orDefault patterns? [] files
        excludeFiles := ← orDefault patterns? [] excludeFiles
        options := ← orDefault (Source.options? nesting) [] options }
  | _ => none

end Override

/-! ## §2 Files -/

/-- A configuration file as read. -/
structure ConfigFile where
  path : Path
  options : Options := []
  overrides : List Override := []
  deriving Repr

namespace ConfigFile

/-- The file at a path whose content is a value. -/
def ofValue (path : Path) (v : Value) : Except Failure ConfigFile := do
  let options : Options ← match v with
    | .obj fields => .ok fields
    | .null => .ok []
    | v => .error (.configDiscovery path (.expectedObject v))
  let overrides ← match options.find? "overrides" with
    | none => .ok []
    | some v =>
      match v.source.list? Override.decode? with
      | some overrides => .ok overrides
      | none => .error (.configDiscovery path .invalidOverrides)
  .ok ⟨path, options.erase "overrides", overrides⟩

/-- What the name of a configuration file says about its content. -/
inductive Kind
  | manifest
  | script
  | json
  | json5
  | yaml
  | toml
  /-- JSON if it reads as such, YAML if not. -/
  | unnamed
  deriving Repr, DecidableEq

def kind (p : Path) : Kind :=
  if p.fileName? = some manifestFile then .manifest
  else
    match p.extension? with
    | some "js" => .script
    | some "cjs" => .script
    | some "mjs" => .script
    | some "json" => .json
    | some "json5" => .json5
    | some "yaml" => .yaml
    | some "yml" => .yaml
    | some "toml" => .toml
    | _ => .unnamed

/-- The value that a text stands for, read as a kind of file. -/
def parse (kind : Kind) (text : String) : Except Failure Value :=
  let orElse (v : Option Value) (e : Failure) : Except Failure Value :=
    match v with
    | some v => .ok v
    | none => .error e
  match kind with
  | .json => orElse (Value.parse? text) .json
  | .json5 => orElse (Json5.value? text) .json5
  | .yaml => orElse (Yaml.value? text) .yaml
  | .toml => orElse (Toml.value? text) .toml
  | _ => orElse (Value.parse? text <|> Yaml.value? text) .yaml

/-- The configuration file on disk. -/
def load (m : Machine) (path : Path) : Except Failure ConfigFile :=
  match kind path with
  | .manifest => do
    match (← Manifest.read m path).prettier with
    | some (.str name) => .error (.configDiscovery path (.sharedPackage name))
    | some v => ofValue path v
    | none => .ok ⟨path, [], []⟩
  | .script => .error (.configDiscovery path .javaScript)
  | kind => do ofValue path (← parse kind (← Failure.ofIo (m.readText path)))

/-! ## §3 Options for a document -/

/-- The dialect of override patterns. -/
def dialect : Glob.Dialect := {}

/-- A document as override patterns see it: its path below the file's
directory, and its name. -/
structure Target where
  relative : String
  name : String
  deriving Repr, DecidableEq

def target (path document : Path) : Target :=
  let base := path.parent?.getD ⟨""⟩
  ⟨Path.slashed ((document.stripPrefix? base).getD document),
    document.fileName?.getD ""⟩

/-- Whether a pattern matches: one without a slash speaks of the name. -/
def patternMatches (t : Target) (pattern : String) : Except Failure Bool :=
  match Glob.parse dialect pattern with
  | .error e => .error (.glob e)
  | .ok g => .ok (g.isMatch (if pattern.toList.contains '/' then t.relative else t.name))

/-- Whether one of the patterns matches; those after the first match are
not looked at. -/
def anyMatches (t : Target) : List String → Except Failure Bool
  | [] => .ok false
  | p :: ps => do
    if ← patternMatches t p then .ok true else anyMatches t ps

/-- Whether an override applies. -/
def applies (t : Target) (o : Override) : Except Failure Bool := do
  let included ← anyMatches t o.files
  let excluded ← anyMatches t o.excludeFiles
  .ok (included && !excluded)

/-- The options with those of the overrides that apply put over them. -/
def applyOverrides (t : Target) : Options → List Override → Except Failure Options
  | options, [] => .ok options
  | options, o :: os => do
    let options := if ← applies t o then options.overlay o.options else options
    applyOverrides t options os

/-- The options for a document. -/
def optionsFor (c : ConfigFile) (document : Path) : Except Failure Options :=
  applyOverrides (target c.path document) c.options c.overrides

end ConfigFile
end FormatHost
