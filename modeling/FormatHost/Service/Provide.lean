/-
FormatHost.Service.Provide — the service as the editor's provider.

* §1 registering the formatter for a folder when it is first needed;
* §2 edits for documents that the registered selectors match;
* §3 readiness of the active document.
-/
import FormatHost.Service.Format

namespace FormatHost.Service

/-! ## §1 Registering -/

/-- The plugins to ask for when the language table is read. From version 3
on plugins are not loaded by themselves. -/
def registrationPlugins (m : Machine) (handle : Handle) (d : Option Document)
    (settings : Settings) (folder : Option Path) : Run Service (List String) := do
  match d.bind Document.path? with
  | none => return []
  | some path =>
    if handle.isAboveV3 && handle.has .resolveConfig then
      match ← Config.loadProject handle m (some path) settings folder with
      | .failed e =>
        Run.error e.message
        showStatus .error
        return []
      | .disabled =>
        showStatus .disabled
        return []
      | project => return Config.pluginNames project.options?
    else return []

/-- Register a formatter for a folder under the selectors of its language
table. -/
def registerHandle (m : Machine) (handle : Handle) (folder : Option Path) (d : Option Document)
    (settings : Settings) : Run Service (Option Registration) := do
  let plugins ← registrationPlugins m handle d settings folder
  match ← handle.supportInfo m plugins with
  | .error e =>
    Run.error ("Failed to read formatter language support: " ++ e.message)
    showStatus .error
    return none
  | .ok info =>
    let selectors := Selectors.build info folder settings
    return some (← onRegistrations
      (Registrations.register folder selectors settings.formatterPriority))

/-- The registration of a folder, made now if there is none. -/
def ensureRegistered (m : Machine) (folder : Option Path) (d : Option Document) :
    Run Service (Option Registration) := do
  let s ← Run.get
  match s.registrations.get? folder with
  | some registration => return some registration
  | none =>
    match ← moduleFor m folder folder s.settings with
    | some handle => registerHandle m handle folder d s.settings
    | none =>
      let e := FormatFailure.moduleNotFound s.settings.onlyUseLocalVersion
      Run.error e.message
      showStatus e.status
      return none

/-- Register the formatter for documents outside any workspace. -/
def registerGlobal (m : Machine) : Run Service (Option Registration) :=
  ensureRegistered m none none

/-- The registration that a document falls under. -/
def registrationFor (m : Machine) (d : Document) : Run Service (Option Registration) := do
  ensureRegistered m ((← Run.get).folderOf d) (some d)

/-! ## §2 Edits -/

/-- The smallest edit that formats a document; nothing for documents that
no selector matches. -/
def provideDocumentEdits (m : Machine) (d : Document) : Run Service EditResult := do
  let registration? ← registrationFor m d
  if registration?.any fun r => 0 < r.selectors.score d then
    edits m { document := d } .minimal
  else return .noop

/-- The edit after formatting a range; nothing for documents that no range
selector matches. -/
def provideRangeEdits (m : Machine) (d : Document) (r : Range) : Run Service EditResult := do
  let registration? ← registrationFor m d
  if registration?.any fun r => 0 < r.selectors.rangeScore d then
    edits m { document := d, range := some (d.offsetAt r.start, d.offsetAt r.stop) } .fullDocument
  else return .noop

/-! ## §3 Readiness -/

/-- Whether a document of an active registration can be formatted. -/
def readinessIn (m : Machine) (s : Settings) (folder : Option Path) (d : Document) (path : Path)
    (registration : Registration) : Run Service Readiness := do
  let ignored ← match s.ignoreFile m.home folder with
    | some ignoreFile => do
      watchIgnoreFile ignoreFile.1
      isIgnored m path ignoreFile
    | none => pure false
  return if ignored then .ignored
    else if 0 < registration.selectors.score d then .ready
    else .disabled

/-- The readiness of a file. -/
def fileReadiness (m : Machine) (d : Document) (path : Path) : Run Service (Option Readiness) := do
  let s ← Run.get
  if s.settings.isLanguageDisabled d.language then return some .disabled
  else
    let folder := s.workspace.folderFor path
    match ← ensureRegistered m folder (some d) with
    | none => return none
    | some registration => return some (← readinessIn m s.settings folder d path registration)

/-- Follow a change of the active document: show its readiness. Without an
active file the status bar is hidden; without a formatter the error
stays. -/
def onActiveDocument (m : Machine) (d? : Option Document) : Run Service (Option Readiness) := do
  match d?.bind fun d => d.path?.map (d, ·) with
  | none =>
    hideStatus
    return none
  | some (d, path) =>
    match ← fileReadiness m d path with
    | none => return none
    | some readiness =>
      showStatus readiness.status
      return some readiness

end FormatHost.Service
