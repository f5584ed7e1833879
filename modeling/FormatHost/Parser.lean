/-
FormatHost.Parser — choosing the parser for a document.

What the formatter says about the file counts first. Otherwise the
language table is asked:

* §1 by the language identifier. Languages without extensions apply to
  the file names they list only;
* §2 by the file name, then its extension; identifiers of dialects stand
  for their base language last;
* §3 the parser of a document.
-/
import FormatHost.Formatter
import FormatHost.FormatFailure

namespace FormatHost.Parser

/-- The identifier of documents without a language, which has no parser. -/
def plainText : String := "plaintext"

/-- Identifiers of dialects, and their base language. -/
def aliases : List (String × String) :=
  [("javascriptreact", "javascript"), ("javascript.jsx", "javascript"),
    ("typescriptreact", "typescript"), ("typescript.jsx", "typescript"),
    ("typescript.tsx", "typescript")]

/-! ## §1 By identifier -/

/-- Whether a language can apply to a file of the given name. -/
def admits (l : Language) (fileName? : Option String) : Bool :=
  !l.extensions.isEmpty || fileName?.any l.filenames.contains

/-- The first language of an identifier. -/
def byIdentifier (languages : List Language) (identifier : String) (fileName? : Option String) :
    Option Language :=
  languages.find? fun l => l.identifiers.contains identifier && admits l fileName?

/-! ## §2 By file name -/

/-- The extension of a path, with its dot. -/
def dottedExtension? (p : Path) : Option String := p.extension?.map ("." ++ ·)

/-- The first language that lists the file's name, or else its extension. -/
def byFileName (languages : List Language) (p : Path) : Option Language := do
  let name ← p.fileName?
  match languages.find? (·.filenames.contains name) with
  | some l => some l
  | none =>
    let extension ← dottedExtension? p
    languages.find? (·.extensions.contains extension)

/-- The language of a document. -/
def languageFor (languages : List Language) (path? : Option Path) (identifier : String) :
    Option Language :=
  let fileName? := path?.bind Path.fileName?
  byIdentifier languages identifier fileName? <|>
    path?.bind (byFileName languages) <|>
    (aliases.lookup identifier).bind fun base => byIdentifier languages base fileName?

/-- The parser that the language table has for a document. -/
def ofTable (languages : List Language) (path? : Option Path) (identifier : String) :
    Option String :=
  if identifier = plainText then none
  else (languageFor languages path? identifier).bind (·.parsers.head?)

/-! ## §3 Choosing -/

/-- What the parser was looked for for. -/
def subject (path? : Option Path) (identifier : String) : String :=
  match path? with
  | some p => p.text
  | none => identifier

/-- The parser of a document: the one inferred from the file, or else that
of the language table. -/
def select {σ : Type} (h : Handle) (m : Machine) (path? : Option Path) (identifier : String)
    (info : Option FileInfo) (plugins : List String) : Run σ (Except FormatFailure String) := do
  match info.bind (·.inferredParser) with
  | some parser => return .ok parser
  | none =>
    let unresolvable := FormatFailure.parserUnresolvable (subject path? identifier)
    if identifier = plainText then return .error unresolvable
    else
      Run.warn ("Parser not inferred, trying language " ++ identifier)
      match ← h.supportInfo m plugins with
      | .error e => return .error (.module e)
      | .ok table =>
        match ofTable table.languages path? identifier with
        | some parser => return .ok parser
        | none => return .error unresolvable

end FormatHost.Parser
