/-
FormatHost.Cli.Commands — what the commands do.

A command prints a text, changes files, or fails. The files that it has
changed stay changed when it fails later on.

* §1 what a command works on;
* §2 `format`;
* §3 `init`;
* §4 `info`;
* §5 running an invocation.
-/
import FormatHost.Cli.ByteRange
import FormatHost.Cli.Context
import FormatHost.Template

namespace FormatHost.Cli

open Json

/-! ## §1 Commands at work -/

/-- What a command works on: the service, and the machine whose files it
may change. -/
structure Desk where
  service : Service
  machine : Machine

namespace Desk

/-- An operation of the service. -/
def ask {α : Type} (x : Run Service α) : Run Desk α :=
  Run.on service (fun d s => { d with service := s }) x

@[simp] theorem ask_apply {α : Type} (x : Run Service α) (d : Desk) :
    ask x d = ⟨(x d.service).value, { d with service := (x d.service).state },
      (x d.service).events⟩ := rfl

/-- Leave the machine with changed files. -/
def leave (m : Machine) : Run Desk Unit := Run.modify fun d => { d with machine := m }

/-- Write a text to a file. -/
def writeText (file : Path) (text : String) : Run Desk (Except IoError Unit) := do
  let m := (← Run.get).machine
  match m.disk.writeText m.cwd file text with
  | .error e => return .error e
  | .ok disk =>
    leave { m with disk }
    return .ok ()

end Desk

/-- A command in its context; it answers the printed text. -/
abbrev Action := Context → Run Desk (Except CommandFailure String)

/-- A text as a line of its own. -/
def line (text : String) : String := text ++ "\n"

/-! ## §2 Formatting -/

/-- Write a file back, if its text has changed. -/
def writeBack (file : Path) (before after : String) :
    Run Desk (Except CommandFailure String) := do
  if after = before then return .ok ""
  else
    match ← Desk.writeText file after with
    | .ok () => return .ok ""
    | .error e => return .error (.io e)

/-- Print or write the formatted text, unless formatting failed. -/
def deliver (file : Path) (write : Bool) (before after : String) :
    Run Desk (Except CommandFailure String) := do
  let status := (← Run.get).service.statusBar.current
  if status = some .error then
    return .error (.internal ("formatting " ++ file.text ++ " failed, see the log for details"))
  else if write then writeBack file before after
  else return .ok after

def formatFile (file : Path) (write force : Bool) (range : Option (Nat × Nat))
    (language : Option String) : Action := fun c => do
  match ← Desk.ask (c.document file language) with
  | .error e => return .error e
  | .ok d =>
    let formatted ← Desk.ask (Service.format c.machine { document := d, range, force })
    deliver file write d.text formatted

/-! ## §3 Starting -/

/-- Write the starter configuration into a folder. -/
def writeStarter (h : Handle) (folder : Path) : Run Desk (Except CommandFailure String) := do
  match ← Template.write h (← Run.get).machine folder with
  | .error e => return .error (.format e)
  | .ok (file, m) =>
    Desk.leave m
    return .ok (line file.text)

def initFolder (dir : Option Path) : Action := fun c => do
  let folder := dir.getD c.root
  match ← Desk.ask (Service.moduleFor c.machine none (some c.root) c.settings) with
  | none => return .error (.noFormatter folder.text)
  | some h => writeStarter h folder

/-! ## §4 Showing -/

/-- What is known about a file. -/
structure FileReport where
  file : Path
  language : String
  handle : Handle
  readiness : Option Readiness
  info : Option FileInfo
  parser : Option String

namespace FileReport

def moduleFields (h : Handle) : Options :=
  [("origin", .str h.origin.name),
    ("path", .str h.path.text),
    ("version", Value.ofOption (fun v => .str v.text) h.version)]

def toValue (r : FileReport) : Value :=
  .obj
    [("file", .str r.file.text),
      ("ignored", Value.ofOption (fun i => .bool i.ignored) r.info),
      ("language", .str r.language),
      ("module", .obj (moduleFields r.handle)),
      ("parser", Value.ofOption .str r.parser),
      ("readiness", Value.ofOption (fun s => .str s.status.name) r.readiness)]

end FileReport

/-- Ask for everything that a report holds. -/
def examine (c : Context) (d : Document) (path : Path) (h : Handle) : Run Service FileReport := do
  let readiness ← Service.onActiveDocument c.machine (some d)
  let o : FileInfoOptions := { withNodeModules := c.settings.withNodeModules }
  let info := (← h.fileInfo c.machine path o).toOption.join
  let parser ← Parser.select h c.machine (some path) d.language info []
  return ⟨path, d.language, h, readiness, info, parser.toOption⟩

def showFile (file : Path) (language : Option String) : Action := fun c => do
  match ← Desk.ask (c.document file language) with
  | .error e => return .error e
  | .ok d =>
    let path := d.path?.getD file
    match ← Desk.ask (c.moduleFor path) with
    | .error e => return .error e
    | .ok h =>
      let report ← Desk.ask (examine c d path h)
      return .ok (line report.toValue.pretty)

/-! ## §5 Running -/

/-- The action of a command. A range is read before anything else is
done. -/
def Command.action : Command → Except CommandFailure Action
  | .format file write force range language => do
    return formatFile file write force (← ByteRange.parse? range) language
  | .init dir => .ok (initFolder dir)
  | .info file language => .ok (showFile file language)

/-- The start of a command: its action, context and service. -/
def prepare (m : Machine) (loader : Loader) (i : Invocation) :
    Except CommandFailure (Action × Context × Service) := do
  let action ← i.command.action
  let (context, service) ← Context.create m loader i.options
  return (action, context, service)

/-- Run an invocation on a machine, with a way to load formatters: what is
printed, the machine that is left, and the events on the way. -/
def execute (m : Machine) (loader : Loader) (i : Invocation) :
    Outcome Machine (Except CommandFailure String) :=
  match prepare m loader i with
  | .error e => ⟨.error e, m, []⟩
  | .ok (action, context, service) =>
    let o := action context ⟨service, m⟩
    ⟨o.value, o.state.machine, o.events⟩

/-- What a command leaves that does not fail. -/
structure Done where
  /-- The printed text. -/
  output : String
  /-- The machine, with the files that were changed. -/
  machine : Machine

/-- A run, for callers that do not ask what a failure leaves. -/
def run (m : Machine) (loader : Loader) (i : Invocation) :
    Except CommandFailure Done × List Event :=
  let o := execute m loader i
  (o.value.map fun output => { output, machine := o.state }, o.events)

end FormatHost.Cli
