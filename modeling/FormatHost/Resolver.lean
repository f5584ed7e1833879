/-
FormatHost.Resolver — finding the formatter for a document, and
remembering it.

The formatter for a document is the one installed nearest above it, or
else the bundled one. What was found, nothing included, is remembered for
the document's project until that is forgotten.

* §1 the state of a resolver;
* §2 loading packages; the bundled one is loaded once;
* §3 finding: `locate` does not look at what is remembered, `resolve`
  does;
* §4 the formatter outside any workspace;
* §5 forgetting.
-/
import FormatHost.Formatter
import FormatHost.GlobalInstall
import FormatHost.Settings
import FormatHost.Table

namespace FormatHost

/-! ## §1 State -/

/-- The name of the formatter's package. -/
def defaultPackage : String := "prettier"

structure Resolver where
  package : String := defaultPackage
  loader : Loader
  /-- The package that is used when the project has none. -/
  bundled : Option Install
  /-- What was found for each project. -/
  cache : PathMap (Option Handle) := {}
  bundledHandle : Option Handle := none
  /-- What was found outside any workspace. -/
  global : Option (Option Handle) := none

namespace Resolver

/-- The project of a path, for which its formatter is remembered. -/
def cacheKey (m : Machine) (path : Path) : Path := projectRoot m path

/-- What is remembered for a project. -/
def cached? (r : Resolver) (project : Path) : Option (Option Handle) := r.cache.find? project

/-- Remember what was found for a project. -/
def store (project : Path) (h : Option Handle) : Run Resolver Unit :=
  Run.modify fun r => { r with cache := r.cache.insert project h }

/-! ## §2 Loading -/

/-- Load a package. -/
def load (m : Machine) (i : Install) : Run Resolver (Except Failure Handle) := do
  Run.emit (.load i)
  return ((← Run.get).loader.load m i).map (Handle.ofInstall i)

/-- The bundled formatter. Only a success is remembered. -/
def loadBundled (m : Machine) : Run Resolver (Option Handle) := do
  let r ← Run.get
  match r.bundledHandle, r.bundled with
  | some h, _ => return some h
  | none, none => return none
  | none, some i =>
    match ← load m i with
    | .ok h =>
      Run.modify fun r => { r with bundledHandle := some h }
      return some h
    | .error e =>
      Run.error ("Failed to load bundled " ++ r.package ++ ": " ++ e.message)
      return none

/-! ## §3 Finding -/

/-- The install that a document's project has. -/
def findLocal (package : String) (m : Machine) (path : Path) (s : ResolverSettings) :
    Except Failure (Option Install) :=
  match s.modulePath with
  | some dir => (readInstall m dir package .local).map some
  | none => findLocalInstall m (startDirectory m path) package

/-- The formatter of a document's project; a failure is reported. -/
def locateLocal (m : Machine) (path : Path) (s : ResolverSettings) :
    Run Resolver (Option Handle) := do
  let package := (← Run.get).package
  match findLocal package m path s with
  | .ok none => return none
  | .error e =>
    Run.error ("Failed to locate local " ++ package ++ ": " ++ e.message)
    return none
  | .ok (some i) =>
    match ← load m i with
    | .ok h => return some h
    | .error e =>
      Run.error ("Failed to load " ++ package ++ " from " ++ i.path.text ++ ": " ++ e.message)
      return none

/-- Find the formatter for a document: the project's, or else the bundled
one unless the settings rule it out. -/
def locate (m : Machine) (path : Path) (s : ResolverSettings) : Run Resolver (Option Handle) := do
  match ← locateLocal m path s with
  | some h => return some h
  | none =>
    if s.onlyUseLocalVersion then
      Run.warn ("Local " ++ (← Run.get).package ++
        " required but not resolvable, not using the bundled version")
      return none
    else loadBundled m

/-- The formatter for a document. -/
def resolve (m : Machine) (path : Path) (s : ResolverSettings) : Run Resolver (Option Handle) := do
  let project := cacheKey m path
  match (← Run.get).cached? project with
  | some h => return h
  | none =>
    let h ← locate m path s
    if h.isNone then Run.error "Formatter module not found"
    store project h
    return h

/-- The formatter for a document, or why there is none. -/
def require (m : Machine) (path : Path) (s : ResolverSettings) :
    Run Resolver (Except Failure Handle) := do
  match ← resolve m path s with
  | some h => return .ok h
  | none =>
    let package := (← Run.get).package
    return .error (.notFound
      (package ++ " (onlyUseLocalVersion: " ++ toString s.onlyUseLocalVersion ++ ")"))

/-! ## §4 Outside any workspace -/

/-- The formatter among global packages; a failure is reported. -/
def locateGlobal (m : Machine) (s : ResolverSettings) : Run Resolver (Option Handle) := do
  let package := (← Run.get).package
  match ← GlobalInstall.find m s.packageManager package with
  | .ok none => return none
  | .error e =>
    Run.warn ("Failed to look up global modules: " ++ e.message)
    return none
  | .ok (some i) =>
    match ← load m i with
    | .ok h => return some h
    | .error e =>
      Run.error ("Failed to load global " ++ package ++ ": " ++ e.message)
      return none

/-- The formatter outside any workspace: a global one if the settings ask
for it, or else the bundled one. -/
def resolveGlobal (m : Machine) (s : ResolverSettings) : Run Resolver (Option Handle) := do
  match (← Run.get).global with
  | some h => return h
  | none =>
    let found ← if s.resolveGlobalModules then locateGlobal m s else pure none
    let h ← match found with
      | some h => pure (some h)
      | none => loadBundled m
    Run.modify fun r => { r with global := some h }
    return h

/-! ## §5 Forgetting -/

/-- Forget one project. -/
def invalidate (project : Path) : Run Resolver Unit :=
  Run.modify fun r => { r with cache := r.cache.erase project }

/-- Forget the projects at and below a directory. -/
def invalidateTree (dir : Path) : Run Resolver Unit :=
  Run.modify fun r => { r with cache := r.cache.filterKeys fun p => !p.startsWith dir }

/-- Forget what was found outside any workspace. -/
def invalidateGlobal : Run Resolver Unit := Run.modify fun r => { r with global := none }

/-- Forget everything. -/
def invalidateAll : Run Resolver Unit :=
  Run.modify fun r => { r with cache := {}, bundledHandle := none, global := none }

end Resolver
end FormatHost
