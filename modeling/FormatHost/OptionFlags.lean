/-
FormatHost.OptionFlags — options as command line flags.

* §1 the name of a flag: capitals become small letters with a dash;
* §2 the flags of one option, and of a table of options.
-/
import FormatHost.Json.Value
import FormatHost.Text

namespace FormatHost.OptionFlags

open Json

/-! ## §1 Names -/

def isCapital (c : Char) : Bool := 'A' ≤ c && c ≤ 'Z'

/-- `tabWidth` becomes `tab-width`. -/
def dashed : List Char → List Char
  | [] => []
  | c :: cs => if isCapital c then '-' :: Text.lowerAscii c :: dashed cs else c :: dashed cs

def flagName (key : String) : String := String.ofList (dashed key.toList)

/-! ## §2 Flags -/

/-- Options that are not flags of their own name. -/
def skipped : List String := ["filepath", "plugins", "overrides", "$schema"]

/-- The flags of one option; lists, objects and null have none. -/
def flagsOf (key : String) (value : Value) : List String :=
  match value with
  | .bool true => ["--" ++ flagName key]
  | .bool false => ["--no-" ++ flagName key]
  | .num n => ["--" ++ flagName key, n.text]
  | .str s => ["--" ++ flagName key, s]
  | _ => []

/-- The plugins that options name: a list, of which the texts count, or a
single one. -/
def plugins (options : Options) : List String :=
  match options.find? "plugins" with
  | some (.arr items) => items.filterMap Value.str?
  | some (.str single) => [single]
  | _ => []

/-- The flags of the file that the text stands for. -/
def pathFlags (options : Options) : List String :=
  match options.find? "filepath" with
  | some (.str p) => ["--stdin-filepath", p]
  | _ => []

/-- All options as flags. -/
def flags (options : Options) : List String :=
  pathFlags options ++ (plugins options).flatMap (fun p => ["--plugin", p]) ++
    (options.filter fun e => !skipped.contains e.1).flatMap fun e => flagsOf e.1 e.2

/-- A file that lists nothing to ignore. -/
def emptyIgnoreFile : String := "/dev/null"

/-- The arguments for formatting. The formatter is not to look for
configuration or ignore files of its own. -/
def formatArguments (options : Options) : List String :=
  flags options ++
    ["--no-config", "--no-editorconfig", "--ignore-path", emptyIgnoreFile, "--with-node-modules"]

end FormatHost.OptionFlags
