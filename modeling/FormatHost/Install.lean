/-
FormatHost.Install — formatter packages on disk.

* §1 package manifests and the entry point they name;
* §2 installs: a package directory with its version, entry and origin;
* §3 looking upwards for the local install, and for the project's root.
-/
import FormatHost.Failure
import FormatHost.Json.Decode
import FormatHost.Version

namespace FormatHost

open Json

/-! ## §1 Manifests -/

/-- The file that marks a project or package. -/
def manifestFile : String := "package.json"

/-- The directory of a project's installed packages. -/
def modulesDirectory : String := "node_modules"

/-- The parts of a package manifest that matter here. -/
structure Manifest where
  name : Option String := none
  version : Option String := none
  bin : Option Value := none
  main : Option String := none
  /-- Formatter configuration kept in the manifest. -/
  prettier : Option Value := none
  deriving Repr, Inhabited

namespace Manifest

def decode? (s : Source) : Option Manifest := do
  let text := orDefault (Source.nullable? Source.string?) none
  let value := orDefault (Source.nullable? (Source.value? (nesting - 1))) none
  match ← s.record? ["name", "version", "bin", "main", "prettier"] with
  | [name, version, bin, main, prettier] =>
    some
      { name := ← text name, version := ← text version, bin := ← value bin
        main := ← text main, prettier := ← value prettier }
  | _ => none

def parse? (text : String) : Option Manifest := (Source.parse? text).bind decode?

/-- The manifest in a file. -/
def read (m : Machine) (p : Path) : Except Failure Manifest := do
  match parse? (← Failure.ofIo (m.readText p)) with
  | some manifest => .ok manifest
  | none => .error .json

/-- The command of a package named `package` among named commands: the one
of its own name, else the first. -/
def command? (commands : Options) (package : String) : Option String :=
  match commands.find? package with
  | some v => v.str?
  | none => (commands.head?).bind (·.2.str?)

/-- The entry point, relative to the package: the only command, the
command chosen among several, else the main file. -/
def entry? (m : Manifest) (package : String) : Option Path :=
  match m.bin with
  | some (.str bin) => some ⟨bin⟩
  | some (.obj commands) =>
    match command? commands package with
    | some bin => some ⟨bin⟩
    | none => m.main.map Path.mk
  | _ => m.main.map Path.mk

end Manifest

/-! ## §2 Installs -/

/-- Where a formatter was found. -/
inductive Origin
  /-- Among the project's own packages. -/
  | local
  /-- Shipped with the editor. -/
  | bundled
  /-- Among the package manager's global packages. -/
  | global
  deriving Repr, DecidableEq

namespace Origin

def name : Origin → String
  | .local => "local"
  | .bundled => "bundled"
  | .global => "global"

def decode? : Source → Option Origin :=
  Source.choice? [("local", .local), ("bundled", .bundled), ("global", .global)]

end Origin

/-- A formatter package on disk. -/
structure Install where
  /-- The directory that holds the manifest. -/
  path : Path
  version : Option Version
  entry : Option Path
  origin : Origin
  deriving Repr, DecidableEq

/-- The package installed in a directory. -/
def readInstall (m : Machine) (dir : Path) (package : String) (origin : Origin) :
    Except Failure Install := do
  let manifest ← match Manifest.read m (dir / manifestFile) with
    | .ok manifest => .ok manifest
    | .error e => .error (.loadFailed dir e.message)
  let version ← match manifest.version with
    | none => .ok none
    | some raw =>
      match Version.parse? raw with
      | some v => .ok (some v)
      | none => .error .version
  .ok ⟨dir, version, (manifest.entry? package).map dir.join, origin⟩

/-! ## §3 Looking upwards -/

/-- The package's place below a directory. -/
def installPlace (dir : Path) (package : String) : Path :=
  (dir / modulesDirectory).joinName package

/-- The first of the directories whose package has a manifest. -/
def nearestInstall (m : Machine) (package : String) : List Path → Except Failure (Option Install)
  | [] => .ok none
  | dir :: dirs => do
    let candidate := installPlace dir package
    if ← Failure.ofIo (m.exists? (candidate / manifestFile)) then
      (readInstall m candidate package .local).map some
    else nearestInstall m package dirs

/-- The install of the package nearest above `start`. -/
def findLocalInstall (m : Machine) (start : Path) (package : String) :
    Except Failure (Option Install) :=
  nearestInstall m package start.ancestors

/-- The directory to start from for a path: itself, or the one that holds
it. -/
def startDirectory (m : Machine) (p : Path) : Path :=
  if m.isDirectory p then p else p.parent?.getD p

/-- The nearest directory at or above a path that holds a manifest, else
the directory to start from. -/
def projectRoot (m : Machine) (p : Path) : Path :=
  let start := startDirectory m p
  (start.ancestors.find? fun dir => m.isFile (dir / manifestFile)).getD start

end FormatHost
