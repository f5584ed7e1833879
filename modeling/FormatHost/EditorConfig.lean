/-
FormatHost.EditorConfig — options from `.editorconfig` files.

An `.editorconfig` file holds lines before its first section, where only
`root` counts, and sections of properties for the files that the
section's pattern matches. The files above a document apply from the
outermost one in; a file with `root = true` hides those above it.

* §1 reading a file;
* §2 which sections apply;
* §3 the files that apply to a document, and their properties;
* §4 formatter options from properties.
-/
import FormatHost.Bits
import FormatHost.Failure
import FormatHost.Glob.Match

namespace FormatHost.EditorConfig

open Json

/-! ## §1 Reading -/

/-- The name of the file in each directory. -/
def fileName : String := ".editorconfig"

/-- A key and its value, in small letters. -/
abbrev Property := String × String

structure Section where
  pattern : String
  properties : List Property
  deriving Repr, DecidableEq

/-- A file as read. -/
structure File where
  /-- Whether files further up are hidden. -/
  isRoot : Bool := false
  sections : List Section := []
  deriving Repr, DecidableEq

/-- What a line says. -/
inductive Line
  | silent
  | header (pattern : String)
  | property (key value : String)
  deriving Repr, DecidableEq

/-- The pattern of a line in brackets. -/
def header? (cs : List Char) : Option (List Char) :=
  match cs with
  | '[' :: rest =>
    match rest.reverse with
    | ']' :: inner => some inner.reverse
    | _ => none
  | _ => none

/-- The key and value around the first `=`, or else the first `:`. -/
def keyValue? (cs : List Char) : Option (List Char × List Char) :=
  match Text.splitOnce '=' cs with
  | some kv => some kv
  | none => Text.splitOnce ':' cs

def small (cs : List Char) : String := String.ofList ((Text.trim cs).map Text.lowerAscii)

def readLine (cs : List Char) : Line :=
  let cs := Text.trim cs
  match cs with
  | [] => .silent
  | '#' :: _ => .silent
  | ';' :: _ => .silent
  | _ =>
    match header? cs with
    | some pattern => .header (String.ofList (Text.trim pattern))
    | none =>
      match keyValue? cs with
      | some (key, value) => .property (small key) (small value)
      | none => .silent

/-- The sections of a list of lines, and the properties before the first
one. -/
def splitSections : List Line → List Property × List Section
  | [] => ([], [])
  | l :: ls =>
    let (front, sections) := splitSections ls
    match l with
    | .silent => (front, sections)
    | .header pattern => ([], ⟨pattern, front⟩ :: sections)
    | .property key value => ((key, value) :: front, sections)

/-- Whether the last `root` among properties is `true`. -/
def isRoot (preamble : List Property) : Bool :=
  match (preamble.filter (·.1 = "root")).getLast? with
  | some (_, value) => value = "true"
  | none => false

def parse (content : String) : File :=
  let (preamble, sections) := splitSections ((Text.lines content.toList).map readLine)
  ⟨isRoot preamble, sections⟩

/-! ## §2 Sections -/

/-- In section patterns a star stops at a slash. -/
def dialect : Glob.Dialect := { literalSeparator := true }

/-- A section's pattern as a glob: bound to the file's directory when it
holds a slash, else for any depth. -/
def globText (pattern : String) : String :=
  match pattern.toList with
  | '/' :: rest => String.ofList rest
  | cs => if cs.contains '/' then pattern else "**/" ++ pattern

/-- Whether a section applies to a path below the file's directory. A
pattern that cannot be read applies to nothing. -/
def sectionMatches (pattern relative : String) : Bool :=
  match Glob.parse dialect (globText pattern) with
  | .ok g => g.isMatch relative
  | .error _ => false

/-! ## §3 Files that apply -/

/-- The files in the directories, nearest first, up to one that hides the
rest. -/
def readLayers (m : Machine) : List Path → Except Failure (List (Path × File))
  | [] => .ok []
  | dir :: dirs => do
    let p := dir / fileName
    if ← Failure.ofIo (m.exists? p) then
      let file := parse (← Failure.ofIo (m.readText p))
      if file.isRoot then .ok [(dir, file)]
      else return (dir, file) :: (← readLayers m dirs)
    else readLayers m dirs

/-- The properties of one file that apply to a document. -/
def layerProperties (document : Path) (layer : Path × File) : List Property :=
  match document.stripPrefix? layer.1 with
  | none => []
  | some relative =>
    (layer.2.sections.filter fun s => sectionMatches s.pattern (relative.slashed)).flatMap
      (·.properties)

/-- All properties that apply to a document, the nearest file's last. -/
def properties (m : Machine) (document : Path) : Except Failure (List Property) :=
  match document.parent? with
  | none => .ok []
  | some dir => do
    let layers ← readLayers m dir.ancestors
    .ok (layers.reverse.flatMap (layerProperties document))

/-! ## §4 Options -/

/-- The options a property sets at once. -/
def setOption (o : Options) (property : Property) : Options :=
  match property with
  | ("indent_style", "tab") => o.insert "useTabs" (.bool true)
  | ("indent_style", "space") => o.insert "useTabs" (.bool false)
  | ("quote_type", "single") => o.insert "singleQuote" (.bool true)
  | ("quote_type", "double") => o.insert "singleQuote" (.bool false)
  | ("end_of_line", value) =>
    if value = "lf" ∨ value = "crlf" ∨ value = "cr" then o.insert "endOfLine" (.str value) else o
  | ("max_line_length", value) =>
    match Text.boundedDecimal? (bitValues 64) value.toList with
    | some n => o.insert "printWidth" (.ofNat n)
    | none => o
  | _ => o

/-- The last value of a key. -/
def last? (properties : List Property) (key : String) : Option String :=
  ((properties.filter (·.1 = key)).getLast?).map (·.2)

/-- The width of an indentation: the last `indent_size`, or the last
`tab_width` when that is `tab` or missing. -/
def indentWidth? (properties : List Property) : Option Nat :=
  let number (s : String) := Text.boundedDecimal? (bitValues 64) s.toList
  match last? properties "indent_size" with
  | none => (last? properties "tab_width").bind number
  | some size => if size = "tab" then (last? properties "tab_width").bind number else number size

/-- The formatter options that properties stand for. -/
def toOptions (properties : List Property) : Options :=
  let options := properties.foldl setOption []
  match indentWidth? properties with
  | some n => options.insert "tabWidth" (.ofNat n)
  | none => options

/-- The options for a document; none when no property sets any. -/
def resolve (m : Machine) (document : Path) : Except Failure (Option Options) := do
  match toOptions (← properties m document) with
  | [] => .ok none
  | options => .ok (some options)

end FormatHost.EditorConfig
