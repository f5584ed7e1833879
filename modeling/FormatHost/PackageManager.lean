/-
FormatHost.PackageManager — package managers and their global packages.

A package manager is asked for the directory of its global packages by
running its command. The first line of the answer that is not blank
counts.
-/
import FormatHost.Install

namespace FormatHost

open Json

/-- The package managers that can be asked. -/
inductive PackageManager
  | npm
  | yarn
  | pnpm
  deriving Repr, DecidableEq, Inhabited

namespace PackageManager

def all : List PackageManager := [.npm, .yarn, .pnpm]

/-- The manager's command, which is also its name in settings. -/
def command : PackageManager → String
  | .npm => "npm"
  | .yarn => "yarn"
  | .pnpm => "pnpm"

def names : List (String × PackageManager) := all.map fun p => (p.command, p)

def decode? : Source → Option PackageManager := Source.choice? names

/-- What the command is asked. -/
def question : PackageManager → List String
  | .yarn => ["global", "dir"]
  | _ => ["root", "-g"]

/-- The directory of global packages, from the command's answer. -/
def directory? (manager : PackageManager) (answer : String) : Option Path := do
  let line ← ((Text.lines answer.toList).map Text.trim).find? fun l => !l.isEmpty
  let dir : Path := ⟨String.ofList line⟩
  match manager with
  | .yarn => dir / modulesDirectory
  | _ => dir

end PackageManager
end FormatHost
