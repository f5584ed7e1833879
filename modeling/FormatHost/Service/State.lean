/-
FormatHost.Service.State — the state of the format service.

The service ties the parts together: the resolver, the ignore rules, the
registrations, the open folders, the settings and the status bar. With a
watcher it also listens to file events.

* §1 the state and its parts;
* §2 operations of the parts, as operations of the service;
* §3 the formatter and the status for a document.
-/
import FormatHost.Ignore.Cache
import FormatHost.Registration
import FormatHost.Resolver
import FormatHost.Workspace

namespace FormatHost

/-! ## §1 State -/

/-- What a subscription of the service is for. -/
inductive Listener
  | manifests
  | configFiles
  | ignoreFile
  deriving Repr, DecidableEq

structure Service where
  resolver : Resolver
  ignore : Ignore.Cache := {}
  registrations : Registrations := {}
  settings : Settings := {}
  workspace : Workspace := {}
  statusBar : StatusBar
  /-- The source of file events, when there is one. -/
  watcher : Option Watcher := none
  /-- The ignore files that are listened to. -/
  watchedIgnoreFiles : List Path := []
  /-- The subscriptions of the service, by their numbers. -/
  listeners : List (Nat × Listener) := []

namespace Service

/-! ## §2 Parts -/

variable {α : Type}

def onResolver (x : Run Resolver α) : Run Service α :=
  Run.on resolver (fun s r => { s with resolver := r }) x

def onIgnore (x : Run Ignore.Cache α) : Run Service α :=
  Run.on ignore (fun s c => { s with ignore := c }) x

def onRegistrations (x : Run Registrations α) : Run Service α :=
  Run.on registrations (fun s r => { s with registrations := r }) x

/-- Show a status. -/
def showStatus (status : Status) : Run Service Unit := do
  Run.modify fun s => { s with statusBar := s.statusBar.update status }
  Run.emit (.status status)

/-- Hide the status bar. -/
def hideStatus : Run Service Unit := do
  Run.modify fun s => { s with statusBar := s.statusBar.hide }
  Run.emit .hideStatus

/-! ## §3 Formatters -/

/-- The formatter for a path, or the one outside any workspace. -/
def moduleFor (m : Machine) (path? folder : Option Path) (settings : Settings) :
    Run Service (Option Handle) :=
  let s := settings.resolverSettings m.home folder
  match path? with
  | some path => onResolver (Resolver.resolve m path s)
  | none => onResolver (Resolver.resolveGlobal m s)

/-- The open folder that a document lies in. -/
def folderOf (s : Service) (d : Document) : Option Path := d.path?.bind s.workspace.folderFor

end Service
end FormatHost
