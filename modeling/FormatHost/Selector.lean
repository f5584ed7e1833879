/-
FormatHost.Selector — which documents the formatter handles.

* §1 filters. Every field that is set has to match; an exact match scores
  10, the wildcard `*` 5;
* §2 selectors: the best score among filters counts;
* §3 the selectors of a formatter's language table in a workspace folder.
-/
import FormatHost.Document
import FormatHost.Glob.Match
import FormatHost.Settings

namespace FormatHost

/-! ## §1 Filters -/

/-- A condition on documents. -/
structure DocumentFilter where
  language : Option String := none
  scheme : Option String := none
  /-- A glob for the document's path. -/
  pattern : Option String := none
  deriving Repr, DecidableEq

namespace DocumentFilter

def ofLanguage (language : String) : DocumentFilter := { language := some language }

/-- Files whose path matches a glob. -/
def ofPattern (pattern : String) : DocumentFilter :=
  { scheme := some Uri.fileScheme, pattern := some pattern }

/-- The score of one field. -/
def fieldScore (expected actual : String) : Nat :=
  if expected = actual then 10 else if expected = "*" then 5 else 0

/-- Whether a glob matches the path of a document. A pattern that cannot
be read matches nothing. -/
def patternMatches (pattern : String) (d : Document) : Bool :=
  match Glob.parse {} pattern, d.path? with
  | .ok g, some p => g.isMatch p.text
  | _, _ => false

/-- The scores of the fields that are set. -/
def fieldScores (f : DocumentFilter) (d : Document) : List Nat :=
  (f.language.map (fieldScore · d.language)).toList ++
    (f.scheme.map (fieldScore · d.uri.scheme)).toList ++
    (f.pattern.map fun p => if patternMatches p d then 10 else 0).toList

/-- The best score of a field, unless one does not match. -/
def score (f : DocumentFilter) (d : Document) : Nat :=
  let scores := f.fieldScores d
  if scores.contains 0 then 0 else scores.foldl max 0

end DocumentFilter

/-! ## §2 Selectors -/

/-- The best score of a document among filters. -/
def bestScore (filters : List DocumentFilter) (d : Document) : Nat :=
  (filters.map (·.score d)).foldl max 0

/-- The filters for whole documents and for ranges. -/
structure Selectors where
  language : List DocumentFilter := []
  range : List DocumentFilter := []
  deriving Repr, DecidableEq

namespace Selectors

def score (s : Selectors) (d : Document) : Nat := bestScore s.language d

def rangeScore (s : Selectors) (d : Document) : Nat := bestScore s.range d

/-! ## §3 From a language table -/

/-- Languages in which a range can be formatted. -/
def rangeLanguages : List String :=
  ["javascript", "javascriptreact", "typescript", "typescriptreact", "json", "jsonc", "graphql"]

/-- All language identifiers of a table, each once. -/
def identifiers (info : SupportInfo) : List String :=
  (info.languages.flatMap (·.identifiers)).eraseDups

/-- An extension without its dots. -/
def bareExtension (s : String) : String := String.ofList (s.toList.dropWhile (· = '.'))

/-- All extensions of a table without their dots, each once. -/
def extensions (info : SupportInfo) : List String :=
  ((info.languages.flatMap (·.extensions)).map bareExtension).eraseDups

/-- The text of a folder without slashes at its end. -/
def folderText (folder : Path) : String :=
  String.ofList (Text.dropRightWhile (· = '/') folder.text.toList)

/-- The patterns of a folder: those of the settings, and one for all
extensions. -/
def folderPatterns (info : SupportInfo) (folder : Path) (s : Settings) : List String :=
  (s.documentSelectors.map fun p => folderText folder ++ "/" ++ p) ++
    match extensions info with
    | [] => []
    | es => [folderText folder ++ "/**/*.\x7b" ++ ",".intercalate es ++ "\x7d"]

/-- Whether a filter speaks of no language that is turned off. -/
def isEnabled (s : Settings) (f : DocumentFilter) : Bool :=
  match f.language with
  | some l => !s.isLanguageDisabled l
  | none => true

/-- The selectors of a language table, in a workspace folder or outside
of any. -/
def build (info : SupportInfo) (folder : Option Path) (s : Settings) : Selectors :=
  let patterns := match folder with
    | some folder => (folderPatterns info folder s).map DocumentFilter.ofPattern
    | none => []
  let languages := (identifiers info).map DocumentFilter.ofLanguage
  { language := (patterns ++ languages).filter (isEnabled s)
    range := (rangeLanguages.map DocumentFilter.ofLanguage).filter (isEnabled s) }

end Selectors
end FormatHost
