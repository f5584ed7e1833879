/-
FormatHost.Template — a starter configuration file.

The file is written by the formatter's own rules: its text is formatted
before it is saved.
-/
import FormatHost.Formatter
import FormatHost.FormatFailure
import FormatHost.Json.Print

namespace FormatHost.Template

open Json

/-- The name of the file. -/
def fileName : String := ".prettierrc"

/-- The options that the file starts with. -/
def starter : Options := [("tabWidth", .ofNat 2), ("useTabs", .bool false)]

/-- The options for formatting the file itself. -/
def formatOptions (file : Path) : Options := Fields.insert starter "filepath" (.str file.text)

/-- Write the file into a folder; the file, and the machine after it. -/
def write {σ : Type} (h : Handle) (m : Machine) (folder : Path) :
    Run σ (Except FormatFailure (Path × Machine)) := do
  let file := folder / fileName
  match ← h.format m (Value.obj starter).pretty (formatOptions file) with
  | .error e => return .error (.module e)
  | .ok text =>
    match m.disk.writeText m.cwd file text with
    | .error e => return .error (.io e)
    | .ok disk => return .ok (file, { m with disk })

end FormatHost.Template
