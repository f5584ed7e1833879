/-
FormatHost.GlobalInstall — packages that are installed globally.
-/
import FormatHost.Event
import FormatHost.PackageManager
import FormatHost.Process

namespace FormatHost.GlobalInstall

variable {σ : Type}

/-- The directory from the finished command of a package manager. A
command that failed is reported and gives none. -/
def ofFinished (manager : PackageManager) (f : Finished) :
    Run σ (Except Failure (Option Path)) := do
  if f.ending ≠ .exit 0 then
    Run.warn (manager.command ++ " could not report its global module root: " ++
      String.ofList (Text.trim (Text.Utf8.decodeLossy f.errors)))
    return .ok none
  else
    match Text.Utf8.decode? f.output with
    | some cs => return .ok (manager.directory? (String.ofList cs))
    | none => return .error .invalidOutput

/-- Ask a package manager for the directory of its global packages; none
when it is not installed. -/
def directory (m : Machine) (manager : PackageManager) : Run σ (Except Failure (Option Path)) :=
  match m.command? manager.command with
  | none => return .ok none
  | some program =>
    match m.execute program manager.question [] with
    | .error e => return .error (.io e)
    | .ok f => ofFinished manager f

/-- The package in a directory of packages. -/
def findIn (m : Machine) (root : Path) (package : String) : Except Failure (Option Install) := do
  let dir := root.joinName package
  if ← Failure.ofIo (m.exists? (dir / manifestFile)) then
    (readInstall m dir package .global).map some
  else .ok none

/-- The global install of a package. -/
def find (m : Machine) (manager : PackageManager) (package : String) :
    Run σ (Except Failure (Option Install)) := do
  match ← directory m manager with
  | .error e => return .error e
  | .ok none => return .ok none
  | .ok (some root) => return findIn m root package

end FormatHost.GlobalInstall
