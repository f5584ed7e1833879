/-
FormatHost.Support — what a formatter says about itself and about files.

* §1 the table of supported languages;
* §2 the facts about one file;
* §3 optional capabilities;
* §4 what is asked: options of the two questions about a file.
-/
import FormatHost.Json.Decode
import FormatHost.Path

namespace FormatHost

open Json

/-! ## §1 Languages -/

/-- One language of the table. -/
structure Language where
  name : String := ""
  /-- Parsers for the language, preferred first. -/
  parsers : List String := []
  /-- File extensions with their dot. -/
  extensions : List String := []
  /-- Whole file names. -/
  filenames : List String := []
  /-- Identifiers that editors use for the language. -/
  identifiers : List String := []
  group : Option String := none
  deriving Repr, DecidableEq, Inhabited

namespace Language

def fieldNames : List String :=
  ["name", "parsers", "extensions", "filenames", "vscodeLanguageIds", "group"]

def decode? (s : Source) : Option Language := do
  match ← s.record? fieldNames with
  | [name, parsers, extensions, filenames, identifiers, group] =>
    some
      { name := ← orDefault Source.string? "" name
        parsers := ← orDefault (Source.list? Source.string?) [] parsers
        extensions := ← orDefault (Source.list? Source.string?) [] extensions
        filenames := ← orDefault (Source.list? Source.string?) [] filenames
        identifiers := ← orDefault (Source.list? Source.string?) [] identifiers
        group := ← orDefault (Source.nullable? Source.string?) none group }
  | _ => none

def toValue (l : Language) : Value :=
  let texts (xs : List String) : Value := .arr (xs.map .str)
  .obj (Fields.ofList
    ([("name", .str l.name), ("parsers", texts l.parsers), ("extensions", texts l.extensions),
      ("filenames", texts l.filenames), ("vscodeLanguageIds", texts l.identifiers)] ++
      (match l.group with | some g => [("group", .str g)] | none => [])))

end Language

/-- The formatter's table of languages. -/
structure SupportInfo where
  languages : List Language := []
  deriving Repr, DecidableEq, Inhabited

namespace SupportInfo

def decode? (s : Source) : Option SupportInfo := do
  match ← s.record? ["languages"] with
  | [languages] => some ⟨← orDefault (Source.list? Language.decode?) [] languages⟩
  | _ => none

def parse? (text : String) : Option SupportInfo := (Source.parse? text).bind decode?

def toValue (i : SupportInfo) : Value :=
  .obj [("languages", .arr (i.languages.map Language.toValue))]

end SupportInfo

/-! ## §2 Files -/

/-- What the formatter knows about one file. -/
structure FileInfo where
  /-- Whether the formatter's own rules exclude the file. -/
  ignored : Bool := false
  /-- The parser that the file's name and the plugins suggest. -/
  inferredParser : Option String := none
  deriving Repr, DecidableEq, Inhabited

namespace FileInfo

def decode? (s : Source) : Option FileInfo := do
  match ← s.record? ["ignored", "inferredParser"] with
  | [ignored, parser] =>
    some
      { ignored := ← orDefault Source.bool? false ignored
        inferredParser := ← orDefault (Source.nullable? Source.string?) none parser }
  | _ => none

def parse? (text : String) : Option FileInfo := (Source.parse? text).bind decode?

def toValue (i : FileInfo) : Value :=
  .obj [("ignored", .bool i.ignored),
    ("inferredParser", Value.ofOption .str i.inferredParser)]

end FileInfo

/-! ## §3 Capabilities -/

/-- What a formatter need not be able to do. -/
inductive Capability
  | fileInfo
  | resolveConfig
  | resolveConfigFile
  deriving Repr, DecidableEq

/-- The optional capabilities of a formatter. -/
structure Capabilities where
  fileInfo : Bool := false
  resolveConfig : Bool := false
  resolveConfigFile : Bool := false
  deriving Repr, DecidableEq

namespace Capabilities

def all : Capabilities := ⟨true, true, true⟩

def has (c : Capabilities) : Capability → Bool
  | .fileInfo => c.fileInfo
  | .resolveConfig => c.resolveConfig
  | .resolveConfigFile => c.resolveConfigFile

end Capabilities

/-! ## §4 Questions -/

/-- How a file is to be looked at. -/
structure FileInfoOptions where
  ignorePath : Option Path := none
  plugins : List String := []
  /-- Whether the project's configuration counts for the parser. -/
  resolveConfig : Bool := false
  withNodeModules : Bool := false
  deriving Repr, DecidableEq

/-- How a file's configuration is to be looked for. -/
structure ConfigOptions where
  editorConfig : Bool := false
  /-- The configuration file to use instead of looking for one. -/
  config : Option Path := none
  deriving Repr, DecidableEq

end FormatHost
