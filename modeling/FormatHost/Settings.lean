/-
FormatHost.Settings — what the user sets in the editor.

* §1 formatting defaults: twenty options of three types, each set or not;
* §2 settings, their defaults, and the values a formatter cannot accept;
* §3 settings as JSON;
* §4 what the parts of the program take from settings.
-/
import FormatHost.PackageManager
import FormatHost.Support

namespace FormatHost

open Json

/-! ## §1 Formatting defaults -/

/-- Options that are a number. -/
inductive NumberOption
  | printWidth
  | tabWidth
  deriving Repr, DecidableEq

/-- Options that are on or off. -/
inductive FlagOption
  | useTabs
  | semi
  | singleQuote
  | jsxSingleQuote
  | bracketSpacing
  | bracketSameLine
  | vueIndentScriptAndStyle
  | singleAttributePerLine
  | experimentalTernaries
  | insertPragma
  | requirePragma
  deriving Repr, DecidableEq

/-- Options that are a word. -/
inductive WordOption
  | quoteProps
  | trailingComma
  | arrowParens
  | proseWrap
  | endOfLine
  | htmlWhitespaceSensitivity
  | embeddedLanguageFormatting
  deriving Repr, DecidableEq

namespace NumberOption

def all : List NumberOption := [.printWidth, .tabWidth]

def name : NumberOption → String
  | .printWidth => "printWidth"
  | .tabWidth => "tabWidth"

end NumberOption

namespace FlagOption

def all : List FlagOption :=
  [.useTabs, .semi, .singleQuote, .jsxSingleQuote, .bracketSpacing, .bracketSameLine,
    .vueIndentScriptAndStyle, .singleAttributePerLine, .experimentalTernaries, .insertPragma,
    .requirePragma]

def name : FlagOption → String
  | .useTabs => "useTabs"
  | .semi => "semi"
  | .singleQuote => "singleQuote"
  | .jsxSingleQuote => "jsxSingleQuote"
  | .bracketSpacing => "bracketSpacing"
  | .bracketSameLine => "bracketSameLine"
  | .vueIndentScriptAndStyle => "vueIndentScriptAndStyle"
  | .singleAttributePerLine => "singleAttributePerLine"
  | .experimentalTernaries => "experimentalTernaries"
  | .insertPragma => "insertPragma"
  | .requirePragma => "requirePragma"

end FlagOption

namespace WordOption

def all : List WordOption :=
  [.quoteProps, .trailingComma, .arrowParens, .proseWrap, .endOfLine,
    .htmlWhitespaceSensitivity, .embeddedLanguageFormatting]

def name : WordOption → String
  | .quoteProps => "quoteProps"
  | .trailingComma => "trailingComma"
  | .arrowParens => "arrowParens"
  | .proseWrap => "proseWrap"
  | .endOfLine => "endOfLine"
  | .htmlWhitespaceSensitivity => "htmlWhitespaceSensitivity"
  | .embeddedLanguageFormatting => "embeddedLanguageFormatting"

end WordOption

/-- The formatting defaults that are set. -/
structure EditorDefaults where
  number : NumberOption → Option UInt32 := fun _ => none
  flag : FlagOption → Option Bool := fun _ => none
  word : WordOption → Option String := fun _ => none

namespace EditorDefaults

/-- The same options are set to the same values. -/
def agrees (a b : EditorDefaults) : Bool :=
  (NumberOption.all.all fun k => a.number k == b.number k) &&
    (FlagOption.all.all fun k => a.flag k == b.flag k) &&
    (WordOption.all.all fun k => a.word k == b.word k)

instance : BEq EditorDefaults := ⟨agrees⟩

/-- The options that are set, as fields. -/
def fields (d : EditorDefaults) : List (String × Value) :=
  (NumberOption.all.filterMap fun k => (d.number k).map fun n => (k.name, .ofNat n.toNat)) ++
    (FlagOption.all.filterMap fun k => (d.flag k).map fun b => (k.name, .bool b)) ++
    (WordOption.all.filterMap fun k => (d.word k).map fun s => (k.name, .str s))

/-- The options that are set, as formatter options. -/
def toOptions (d : EditorDefaults) : Options := Fields.ofList d.fields

end EditorDefaults

/-! ## §2 Settings -/

/-- The ignore file that is used unless another is set. -/
def defaultIgnorePath : String := ".prettierignore"

structure Settings where
  /-- A change counts only after a restart. -/
  enable : Bool := true
  /-- Languages that are never formatted. -/
  disableLanguages : List String := []
  /-- Whether only the project's own formatter may be used. -/
  onlyUseLocalVersion : Bool := false
  /-- Whether files without project configuration are left alone. -/
  requireConfig : Bool := false
  /-- The ignore file; without one nothing is ignored. -/
  ignorePath : Option String := some defaultIgnorePath
  /-- More patterns of files to format, below the workspace folder. -/
  documentSelectors : List String := []
  formatterPriority : Int32 := 1
  useEditorConfig : Bool := true
  withNodeModules : Bool := false
  /-- Whether global packages are looked at. -/
  resolveGlobalModules : Bool := false
  packageManager : PackageManager := .npm
  /-- The directory of the formatter package, instead of looking for one. -/
  prettierPath : Option String := none
  /-- The configuration file, instead of looking for one. -/
  configPath : Option String := none
  statusItemText : String := "Prettier"
  defaults : EditorDefaults := {}
  deriving BEq

/-- A setting that no formatter accepts. -/
inductive SettingsProblem
  | zeroTabWidth
  | zeroPrintWidth
  | unreadableFile (path : Path) (e : IoError)
  | unknownFormat
  deriving Repr

def SettingsProblem.message : SettingsProblem → String
  | .zeroTabWidth => "tabWidth must be greater than 0"
  | .zeroPrintWidth => "printWidth must be greater than 0"
  | .unreadableFile path e => "Failed to read settings file '" ++ path.text ++ "': " ++ e.message
  | .unknownFormat => "Unsupported settings file format. Use .yaml, .yml, or .json"

namespace Settings

/-- The first value that no formatter accepts. -/
def problem? (s : Settings) : Option SettingsProblem :=
  if s.defaults.number .tabWidth = some 0 then some .zeroTabWidth
  else if s.defaults.number .printWidth = some 0 then some .zeroPrintWidth
  else none

/-! ## §3 JSON -/

def ownFields (s : Settings) : List (String × Value) :=
  let texts (xs : List String) : Value := .arr (xs.map .str)
  let text? (t : Option String) : Value := Value.ofOption .str t
  [("enable", .bool s.enable),
    ("disableLanguages", texts s.disableLanguages),
    ("onlyUseLocalVersion", .bool s.onlyUseLocalVersion),
    ("requireConfig", .bool s.requireConfig),
    ("ignorePath", text? s.ignorePath),
    ("documentSelectors", texts s.documentSelectors),
    ("formatterPriority", .num (.int s.formatterPriority.toInt)),
    ("useEditorConfig", .bool s.useEditorConfig),
    ("withNodeModules", .bool s.withNodeModules),
    ("resolveGlobalModules", .bool s.resolveGlobalModules),
    ("packageManager", .str s.packageManager.command),
    ("prettierPath", text? s.prettierPath),
    ("configPath", text? s.configPath),
    ("statusItemText", .str s.statusItemText)]

/-- Settings as one flat object. -/
def toValue (s : Settings) : Value := .obj (Fields.ofList (s.ownFields ++ s.defaults.fields))

/-! ## §4 What settings mean -/

def isLanguageDisabled (s : Settings) (language : String) : Bool :=
  s.disableLanguages.contains language

/-- The formatting defaults as formatter options. -/
def editorDefaults (s : Settings) : Options := s.defaults.toOptions

end Settings

/-- What settings say about finding the formatter. -/
structure ResolverSettings where
  onlyUseLocalVersion : Bool := false
  /-- The formatter's directory, when it is set. -/
  modulePath : Option Path := none
  resolveGlobalModules : Bool := false
  packageManager : PackageManager := .npm
  deriving Repr, DecidableEq

namespace Settings

/-- Settings for finding the formatter, paths below the workspace folder. -/
def resolverSettings (s : Settings) (home : Path) (folder : Option Path) : ResolverSettings :=
  { onlyUseLocalVersion := s.onlyUseLocalVersion
    modulePath := s.prettierPath.bind fun raw => expandSetting home raw folder
    resolveGlobalModules := s.resolveGlobalModules
    packageManager := s.packageManager }

/-- How the project's configuration is looked for. -/
def configOptions (s : Settings) (home : Path) (folder : Option Path) : ConfigOptions :=
  { editorConfig := s.useEditorConfig
    config := s.configPath.bind fun raw => expandSetting home raw folder }

/-- The ignore file, and whether it is the one used by default. -/
def ignoreFile (s : Settings) (home : Path) (folder : Option Path) : Option (Path × Bool) := do
  let raw ← s.ignorePath
  let path ← expandSetting home raw folder
  some (path, Text.trimString raw == defaultIgnorePath)

end Settings
end FormatHost
