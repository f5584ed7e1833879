/-
FormatHost.Service.Format — one request, from end to end.

A request passes gates: the language may be turned off, a formatter has
to be found, configuration may be required, the ignore file or the
formatter itself may exclude the file, and a parser has to be known. What
passes is formatted. Every attempt ends in a text or none, and a status.

* §1 requests, and how an attempt ends;
* §2 the gates, last one first, and the formatter's call;
* §3 the attempt and its status;
* §4 formatting and edits.
-/
import FormatHost.Config.Project
import FormatHost.Edit
import FormatHost.Message
import FormatHost.Parser
import FormatHost.Service.Watching

namespace FormatHost

/-! ## §1 Requests -/

structure FormatRequest where
  document : Document
  /-- The range of bytes to format. -/
  range : Option (Nat × Nat) := none
  /-- Whether to pass over ignore rules and a required pragma. -/
  force : Bool := false
  /-- Options that win over all others. -/
  overrides : Options := []
  deriving Repr

/-- How an attempt ends that does not fail. -/
inductive Attempt
  | formatted (text : String) (configFailed : Bool)
  | skipped (status : Status)
  deriving Repr, DecidableEq

/-- What is known about a request once its project's options were looked
up. -/
structure Situation where
  request : FormatRequest
  settings : Settings
  folder : Option Path
  handle : Handle
  project : Option Options
  /-- Whether looking up the project's options failed. -/
  configFailed : Bool

namespace Situation

def path? (c : Situation) : Option Path := c.request.document.path?

/-- The plugins that the project names. -/
def plugins (c : Situation) : List String := Config.pluginNames c.project

/-- What the request adds to its options. -/
def requestOptions (c : Situation) (parser : String) : Config.RequestOptions :=
  let d := c.request.document
  { parser, filepath := c.path?
    range := c.request.range.map fun (start, stop) => (d.utf16Offset start, d.utf16Offset stop)
    force := c.request.force }

/-- The options of the formatter's call. -/
def options (c : Situation) (parser : String) : Options :=
  (Config.merge c.project c.settings.editorDefaults (c.requestOptions parser)
    c.request.overrides).options

/-- A failure of the formatter, with the file named in it. -/
def invocationFailure (c : Situation) (e : Failure) : FormatFailure :=
  .invocationFailed (match c.path? with
    | some path => Message.annotate e.message path
    | none => e.message)

end Situation

namespace Service

/-! ## §2 Gates -/

/-- Choose the parser and call the formatter. -/
def invoke (m : Machine) (c : Situation) (info : Option FileInfo) :
    Run Service (Except FormatFailure Attempt) := do
  let d := c.request.document
  match ← Parser.select c.handle m c.path? d.language info c.plugins with
  | .error e => return .error e
  | .ok parser =>
    match ← c.handle.format m d.text (c.options parser) with
    | .error e => return .error (c.invocationFailure e)
    | .ok text => return .ok (.formatted text c.configFailed)

/-- What the formatter knows about the file; a failure is reported and
counts as nothing. -/
def askFileInfo (m : Machine) (c : Situation) (path : Path) (ignoreFile : Option Path) :
    Run Service (Option FileInfo) := do
  let o : FileInfoOptions :=
    { ignorePath := ignoreFile, plugins := c.plugins, resolveConfig := true
      withNodeModules := c.settings.withNodeModules }
  match ← c.handle.fileInfo m path o with
  | .ok info => return info
  | .error e =>
    Run.warn ("File info unavailable for " ++ path.text ++ ": " ++ e.message)
    return none

/-- Whether the ignore file excludes a path. -/
def isIgnored (m : Machine) (path : Path) (ignoreFile : Path × Bool) : Run Service Bool :=
  onIgnore (Ignore.Cache.isIgnored m path ignoreFile.1 ignoreFile.2)

/-- Whether the ignore file excludes the request. A forced request does
not ask, but its ignore file is listened to all the same. -/
def ignoreGate (m : Machine) (c : Situation) (path : Path) (ignoreFile? : Option (Path × Bool)) :
    Run Service Bool := do
  match ignoreFile? with
  | none => return false
  | some ignoreFile =>
    watchIgnoreFile ignoreFile.1
    if c.request.force then return false else isIgnored m path ignoreFile

/-- The gates of a request's file. -/
def attemptFile (m : Machine) (c : Situation) (path : Path) :
    Run Service (Except FormatFailure Attempt) := do
  let ignoreFile? := c.settings.ignoreFile m.home c.folder
  if ← ignoreGate m c path ignoreFile? then return .ok (.skipped .ignored)
  else
    let info ← askFileInfo m c path (ignoreFile?.map (·.1))
    if !c.request.force && info.any (·.ignored) then return .ok (.skipped .ignored)
    else invoke m c info

/-- The gates after the project's options were looked up. -/
def attemptIn (m : Machine) (c : Situation) : Run Service (Except FormatFailure Attempt) :=
  match c.path? with
  | some path => attemptFile m c path
  | none => invoke m c none

/-- Look up the project's options and go on. That this failed is shown
and reported, but does not end the attempt. -/
def attemptWith (m : Machine) (request : FormatRequest) (settings : Settings)
    (folder : Option Path) (handle : Handle) : Run Service (Except FormatFailure Attempt) := do
  let d := request.document
  let situation (project : Option Options) (failed : Bool) : Situation :=
    ⟨request, settings, folder, handle, project, failed⟩
  match ← Config.loadProject handle m d.path? settings folder with
  | .disabled => return .error (.configRequiredMissing (d.path?.getD ⟨d.uri.text⟩))
  | .failed e =>
    Run.error e.message
    showStatus .error
    attemptIn m (situation none true)
  | .found options => attemptIn m (situation (some options) false)
  | .missing => attemptIn m (situation none false)

/-- The whole attempt. -/
def attempt (m : Machine) (request : FormatRequest) :
    Run Service (Except FormatFailure Attempt) := do
  let s ← Run.get
  let d := request.document
  if !request.force && s.settings.isLanguageDisabled d.language then
    return .ok (.skipped .disabled)
  else
    let folder := s.folderOf d
    match ← moduleFor m d.path? folder s.settings with
    | none => return .error (.moduleNotFound s.settings.onlyUseLocalVersion)
    | some handle => attemptWith m request s.settings folder handle

/-! ## §3 Ends -/

/-- Whether a failure is worth an error line: a missing configuration that
is required is not. -/
def isReported : FormatFailure → Bool
  | .configRequiredMissing _ => false
  | _ => true

/-- The status that an attempt leaves. -/
def finalStatus : Except FormatFailure Attempt → Status
  | .ok (.formatted _ configFailed) => if configFailed then .warn else .success
  | .ok (.skipped status) => status
  | .error e => e.status

/-- The text that an attempt gives. -/
def formattedText? : Except FormatFailure Attempt → Option String
  | .ok (.formatted text _) => some text
  | _ => none

/-- Attempt a request and show how it ended. -/
def execute (m : Machine) (request : FormatRequest) : Run Service (Option String) := do
  let r ← attempt m request
  match r with
  | .error e => if isReported e then Run.error e.message
  | .ok _ => pure ()
  showStatus (finalStatus r)
  return formattedText? r

/-! ## §4 Results -/

/-- The formatted text; the document's own when nothing was formatted. -/
def format (m : Machine) (request : FormatRequest) : Run Service String := do
  return (← execute m request).getD request.document.text

/-- The edits that format the document. -/
def edits (m : Machine) (request : FormatRequest) (mode : Edit.Mode) : Run Service EditResult := do
  match ← execute m request with
  | some formatted => return .compute request.document formatted mode
  | none => return .noop

/-- Format a document whatever its ignore rules and pragmas say. -/
def forceFormat (m : Machine) (d : Document) : Run Service EditResult :=
  edits m { document := d, force := true } .fullDocument

end Service
end FormatHost
