/-
FormatHost.Service.Watching — what the service does when files change.

* §1 subscriptions: to manifests and configuration files from the start,
  to an ignore file when it is first used;
* §2 what each kind of event changes;
* §3 delivering events.
-/
import FormatHost.Config.Discovery
import FormatHost.FormatFailure
import FormatHost.Service.State

namespace FormatHost.Service

/-! ## §1 Subscriptions -/

/-- Subscribe to a pattern, when there is a watcher. -/
def subscribe (pattern : WatchPattern) (l : Listener) : Run Service Unit :=
  Run.modify fun s =>
    match s.watcher with
    | none => s
    | some w =>
      let (id, w) := w.watch pattern
      { s with watcher := some w, listeners := s.listeners ++ [(id, l)] }

/-- The glob for package manifests. -/
def manifestGlob : String := "**/" ++ manifestFile

/-- Listen to a watcher from now on. -/
def registerWatcher (w : Watcher) : Run Service (Except FormatFailure Unit) := do
  match WatchPattern.ofGlob manifestGlob, WatchPattern.ofNames Config.watchedFiles with
  | .ok manifests, .ok configFiles =>
    Run.modify fun s => { s with watcher := some w }
    subscribe manifests .manifests
    subscribe configFiles .configFiles
    return .ok ()
  | .error e, _ => return .error (.pattern e)
  | _, .error e => return .error (.pattern e)

/-- Listen to an ignore file, when there is a watcher; once for each file. -/
def watchIgnoreFile (file : Path) : Run Service Unit := do
  let s ← Run.get
  if s.watcher.isSome && !s.watchedIgnoreFiles.contains file then
    Run.set { s with watchedIgnoreFiles := s.watchedIgnoreFiles ++ [file] }
    subscribe (.path file) .ignoreFile

/-! ## §2 Events -/

/-- End the registration of the folder that a changed file lies in. -/
def resetRegistration (changed : Path) : Run Service Unit := do
  onRegistrations (Registrations.invalidate ((← Run.get).workspace.folderFor changed))
  showStatus .ready

/-- A package manifest has changed: forget the formatters of all projects
at and below its directory. -/
def onManifestEvent (e : WatchEvent) : Run Service Unit := do
  match e.path.parent? with
  | some dir => onResolver (Resolver.invalidateTree dir)
  | none => pure ()
  resetRegistration e.path

/-- A configuration file has changed. -/
def onConfigFileEvent (e : WatchEvent) : Run Service Unit := resetRegistration e.path

/-- Apply other settings. Turning the formatter on or off counts only
after a restart; any other change drops every registration and every
formatter. -/
def onSettingsChanged (previous current : Settings) : Run Service Unit := do
  if previous.enable != current.enable then
    Run.warn "Changing the enable setting requires a restart to take effect"
  if { previous with enable := current.enable } != current then
    onRegistrations Registrations.invalidateAll
    onResolver Resolver.invalidateAll
    showStatus .ready

/-! ## §3 Delivery -/

/-- Follow an event of a subscription. -/
def handle (m : Machine) (l : Listener) (e : WatchEvent) : Run Service Unit :=
  match l with
  | .manifests => onManifestEvent e
  | .configFiles => onConfigFileEvent e
  | .ignoreFile => onIgnore (Ignore.Cache.handle m e)

/-- Follow events one after the other. -/
def handleEach (m : Machine) (l : Listener) : List WatchEvent → Run Service Unit
  | [] => return ()
  | e :: es => do
    handle m l e
    handleEach m l es

/-- Take the events of a subscription. -/
def takeEvents (id : Nat) : Run Service (List WatchEvent) := fun s =>
  match s.watcher with
  | none => ⟨[], s, []⟩
  | some w =>
    let (events, w) := w.takeAll id
    ⟨events, { s with watcher := some w }, []⟩

/-- Let the subscriptions follow the events they have received. -/
def settle (m : Machine) : List (Nat × Listener) → Run Service Unit
  | [] => return ()
  | (id, l) :: ls => do
    handleEach m l (← takeEvents id)
    settle m ls

/-- Deliver an event; the number of subscriptions that received it. -/
def deliver (m : Machine) (e : WatchEvent) : Run Service Nat := do
  let s ← Run.get
  match s.watcher with
  | none => return 0
  | some w =>
    let (n, w) := w.emit e
    Run.set { s with watcher := some w }
    settle m s.listeners
    return n

end FormatHost.Service
