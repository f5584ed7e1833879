/-
FormatHost.Settings.Decode — settings from JSON and YAML.

Settings are one flat object in which every field may be missing. Fields
that are not settings are passed over, but have to be well-formed; a
setting may occur only once.

* §1 what has to be known of a format;
* §2 settings from fields;
* §3 the two formats;
* §4 settings files, whose format is known by their extension.
-/
import FormatHost.Bits
import FormatHost.FormatFailure
import FormatHost.Yaml.Decode

namespace FormatHost.Settings

open Json

/-! ## §1 Formats -/

/-- What a value is when a formatting default is read from it. -/
inductive Raw
  | unset
  | number (n : UInt32)
  | flag (b : Bool)
  | word (s : String)
  /-- A well-formed value of no such type. -/
  | other

/-- How the values of a format are read. -/
structure Format (σ : Type) where
  bool? : σ → Option Bool
  text? : σ → Option String
  nullableText? : σ → Option (Option String)
  texts? : σ → Option (List String)
  int? : Int → Int → σ → Option Int
  manager? : σ → Option PackageManager
  /-- Nothing for a value that is not well-formed. -/
  raw? : σ → Option Raw

/-! ## §2 Fields -/

variable {σ : Type}

/-- A field that occurs at most once, or its default. -/
def readField {α : Type} (fields : List (String × σ)) (name : String) (decode : σ → Option α)
    (default : α) : Option α :=
  match fields.filter (·.1 == name) with
  | [] => some default
  | [(_, v)] => decode v
  | _ => none

def Raw.number? : Raw → Option (Option UInt32)
  | .unset => some none
  | .number n => some (some n)
  | _ => none

def Raw.flag? : Raw → Option (Option Bool)
  | .unset => some none
  | .flag b => some (some b)
  | _ => none

def Raw.word? : Raw → Option (Option String)
  | .unset => some none
  | .word s => some (some s)
  | _ => none

/-- The values of a list of options, each under its name. -/
def readGroup {κ α : Type} (fields : List (String × σ)) (raw? : σ → Option Raw)
    (as? : Raw → Option (Option α)) (name : κ → String) (keys : List κ) :
    Option (List (κ × Option α)) :=
  keys.mapM fun k => (readField fields (name k) (fun v => (raw? v).bind as?) none).map (k, ·)

/-- The value of a key in a list. -/
def groupValue {κ α : Type} [BEq κ] (group : List (κ × Option α)) (k : κ) : Option α :=
  (group.lookup k).join

def readDefaults (f : Format σ) (fields : List (String × σ)) : Option EditorDefaults := do
  let numbers ← readGroup fields f.raw? Raw.number? NumberOption.name NumberOption.all
  let flags ← readGroup fields f.raw? Raw.flag? FlagOption.name FlagOption.all
  let words ← readGroup fields f.raw? Raw.word? WordOption.name WordOption.all
  some ⟨groupValue numbers, groupValue flags, groupValue words⟩

/-- The names of the settings that are not formatting defaults. -/
def ownNames : List String := ({} : Settings).ownFields.map (·.1)

/-- Settings from fields. -/
def ofFields? (f : Format σ) (fields : List (String × σ)) : Option Settings := do
  let others := fields.filter fun e => !ownNames.contains e.1
  if others.any fun e => (f.raw? e.2).isNone then none
  else
    let d : Settings := {}
    let flag (name : String) (default : Bool) := readField fields name f.bool? default
    let text? (name : String) (default : Option String) :=
      readField fields name f.nullableText? default
    some
      { enable := ← flag "enable" d.enable
        disableLanguages := ← readField fields "disableLanguages" f.texts? d.disableLanguages
        onlyUseLocalVersion := ← flag "onlyUseLocalVersion" d.onlyUseLocalVersion
        requireConfig := ← flag "requireConfig" d.requireConfig
        ignorePath := ← text? "ignorePath" d.ignorePath
        documentSelectors := ← readField fields "documentSelectors" f.texts? d.documentSelectors
        formatterPriority := ← readField fields "formatterPriority"
          (fun v => (f.int? (-bitValues 31) (bitValues 31 - 1) v).map Int32.ofInt) d.formatterPriority
        useEditorConfig := ← flag "useEditorConfig" d.useEditorConfig
        withNodeModules := ← flag "withNodeModules" d.withNodeModules
        resolveGlobalModules := ← flag "resolveGlobalModules" d.resolveGlobalModules
        packageManager := ← readField fields "packageManager" f.manager? d.packageManager
        prettierPath := ← text? "prettierPath" d.prettierPath
        configPath := ← text? "configPath" d.configPath
        statusItemText := ← readField fields "statusItemText" f.text? d.statusItemText
        defaults := ← readDefaults f others }

/-! ## §3 JSON and YAML -/

/-- Whole numbers that a formatting default may have. -/
def fitsNumber (i : Int) : Bool := 0 ≤ i && i < bitValues 32

def rawOfInt (i : Int) : Raw := if fitsNumber i then .number (UInt32.ofNat i.toNat) else .other

def rawOfValue : Value → Raw
  | .null => .unset
  | .num (.int i) => rawOfInt i
  | .bool b => .flag b
  | .str s => .word s
  | _ => .other

def jsonFormat : Format Source where
  bool? := Source.bool?
  text? := Source.string?
  nullableText? := Source.nullable? Source.string?
  texts? := Source.list? Source.string?
  int? := Source.int?
  manager? := PackageManager.decode?
  raw? := fun s => (s.value? (nesting - 1)).map rawOfValue

def decode? : Source → Option Settings
  | .obj fields => do ofFields? jsonFormat (← readableFields fields)
  | _ => none

/-- Settings from a JSON text. -/
def parse? (text : String) : Option Settings := (Source.parse? text).bind decode?

def rawOfScalar : Yaml.Scalar → Raw
  | .null => .unset
  | .bool b => .flag b
  | .int i => rawOfInt i
  | .float _ => .other
  | .text s => .word s

def yamlRaw? (t : Yaml.Tree) : Option Raw :=
  if t.hasMeaning then some ((t.meaning?.map rawOfScalar).getD .other) else none

def yamlFormat : Format Yaml.Tree where
  bool? := Yaml.Tree.bool?
  text? := Yaml.Tree.text?
  nullableText? := Yaml.Tree.nullable? Yaml.Tree.text?
  texts? := Yaml.Tree.list? Yaml.Tree.text?
  int? := Yaml.Tree.int?
  manager? := Yaml.Tree.choice? PackageManager.names
  raw? := yamlRaw?

/-- Settings from a YAML text. -/
def parseYaml? (text : String) : Option Settings := do
  ofFields? yamlFormat (← (← Yaml.tree? text).fields?)

/-! ## §4 Files -/

/-- Settings from a text, by the extension of its file. -/
def parseFile (extension? : Option String) (text : String) : Except FormatFailure Settings :=
  let orElse (s : Option Settings) (e : FormatFailure) : Except FormatFailure Settings :=
    match s with
    | some s => .ok s
    | none => .error e
  match extension? with
  | some "yaml" => orElse (parseYaml? text) .yaml
  | some "yml" => orElse (parseYaml? text) .yaml
  | some "json" => orElse (parse? text) .json
  | _ => .error (.settings .unknownFormat)

/-- The settings in a file, which have to be acceptable. -/
def load (m : Machine) (path : Path) : Except FormatFailure Settings := do
  let text ← match m.readText path with
    | .ok text => .ok text
    | .error e => .error (.settings (.unreadableFile path e))
  let settings ← parseFile path.extension? text
  match settings.problem? with
  | some problem => .error (.settings problem)
  | none => .ok settings

end FormatHost.Settings
