/-
FormatHost.Main — the program at the command line.

A run works on a picture of the machine. Before it the files that it may
look at are read, after it those it has changed are written. Formatters
are run by the library's own shell; no process is started.
-/
import FormatHost.Cli.Program
import FormatHost.ProcessFormatter

namespace FormatHost.Cli

/-! ## §1 The picture of the machine -/

/-- How much of a command is read: a script is short, and of anything else
the start tells that it is none. -/
def commandSize : USize := 65536

/-- The bytes of a file. -/
def readFile (p : Path) : IO ByteArray := IO.FS.readBinFile p.text

/-- The first bytes of a command. -/
def readCommand (p : Path) : IO ByteArray := do
  (← IO.FS.Handle.mk p.text .read).read commandSize

/-- The system's code for reading a directory as a file. -/
def directoryCode : UInt32 := 21

/-- What lies at a path. -/
def readEntry (read : Path → IO ByteArray) (p : Path) : IO (Option Entry) := do
  try
    return some (.file (← read p).toList true)
  catch
    | .inappropriateType _ code _ =>
      return if code = directoryCode then some .directory else none
    | _ => return none

/-- The place of an absolute path. -/
def placeOf (p : Path) : List String :=
  p.components.foldl (fun place c =>
    match c with
    | .root => []
    | .here => place
    | .up => place.dropLast
    | .name s => place ++ [s]) []

/-- The machine with what lies at some paths. -/
def fetch (read : Path → IO ByteArray) (m : Machine) (paths : List Path) : IO Machine :=
  paths.foldlM (fun m p => do
    let p := m.absolute p
    match ← readEntry read p with
    | some e => return { m with disk := m.disk.put (placeOf p) e }
    | none => return m) m

/-- The machine without any files. -/
def bareMachine : IO Machine := do
  let cwd : Path := ⟨(← IO.currentDir).toString⟩
  let home := (← IO.getEnv "HOME").getD ""
  let directories := Text.splitAll ':' ((← IO.getEnv "PATH").getD "").toList
  return {
    disk := (Disk.mk fun _ => none).put (placeOf cwd) .directory
    cwd, home := ⟨home⟩
    searchPath := directories.map fun cs => ⟨String.ofList cs⟩ }

/-! ## §2 What a run may look at -/

/-- The file or directory that a command is about. -/
def Command.target? : Command → Option Path
  | .format file .. => some file
  | .init dir => dir
  | .info file _ => some file

/-- Files at and above a directory that say how to format. -/
def filesAbove (dir : Path) : List Path :=
  dir.ancestors.flatMap fun d =>
    (Config.watchedFiles ++ [defaultIgnorePath, Template.fileName]).map (d / ·) ++
      [installPlace d defaultPackage / manifestFile]

/-- The files that an invocation names, and those above them. -/
def firstPaths (m : Machine) (i : Invocation) : List Path :=
  let root := m.absolute (i.options.root.getD m.cwd)
  let target := m.absolute (i.command.target?.getD root)
  let named := [root, target] ++ i.options.settings.toList ++
    (i.options.bundled.map (· / manifestFile)).toList
  named ++ filesAbove root ++ filesAbove target

/-- The commands that a run may start. -/
def commandPaths (m : Machine) : List Path :=
  let commands := ProcessLoader.nodeCommand :: PackageManager.all.map PackageManager.command
  m.searchPath.flatMap fun d => commands.map (d / ·)

/-- The entry points of the packages that were found. -/
def entryPaths (m : Machine) (i : Invocation) : List Path :=
  let start := m.absolute (i.command.target?.getD m.cwd)
  let own := (findLocalInstall m (startDirectory m start) defaultPackage).toOption.join
  let bundled := i.options.bundled.bind fun d => (readInstall m d defaultPackage .bundled).toOption
  (own.bind (·.entry)).toList ++ (bundled.bind (·.entry)).toList

/-- The picture that an invocation needs, and the files that a run may
change. -/
def pictureFor (i : Invocation) : IO (Machine × List Path) := do
  let bare ← bareMachine
  let first := firstPaths bare i
  let m ← fetch readCommand bare (commandPaths bare)
  let m ← fetch readFile m first
  return (← fetch readFile m (entryPaths m i), first)

/-! ## §3 Running -/

/-- Write the files that a run has changed. -/
def writeChanges (before after : Machine) (paths : List Path) : IO Unit :=
  paths.forM fun p => do
    let place := placeOf (before.absolute p)
    match after.disk.entry? place with
    | some (.file bytes _) =>
      if after.disk.entry? place != before.disk.entry? place then
        IO.FS.writeBinFile (before.absolute p).text ⟨bytes.toArray⟩
    | _ => return ()

/-- Whether a log level leaves warnings out. -/
def isErrorsOnly (i : Invocation) : Bool :=
  !i.verbose && String.ofList (i.logLevel.toList.map Text.lowerAscii) == "error"

/-- Print the log lines of a run. -/
def printLog (errorsOnly : Bool) (events : List Event) : IO Unit :=
  events.forM fun
    | .log .error text => IO.eprintln ("ERROR " ++ text)
    | .log .warn text => if errorsOnly then return () else IO.eprintln ("WARN " ++ text)
    | _ => return ()

/-- Print how a run ended. -/
def Ending.report (e : Ending) : IO UInt32 := do
  IO.print e.output
  IO.eprint e.complaint
  return UInt32.ofNat e.exitCode

/-- Run the program in its surroundings. -/
def start (arguments : List String) : IO UInt32 := do
  let environment ← IO.getEnv bundledVariable
  match Invocation.parse environment arguments with
  | .error p => (p.ending (← bareMachine)).report
  | .ok i =>
    let (m, paths) ← pictureFor i
    let e := runProgram m (ProcessLoader.toLoader {}) environment arguments
    printLog (isErrorsOnly i) e.events
    writeChanges m e.machine paths
    e.report

end FormatHost.Cli

def main (arguments : List String) : IO UInt32 := FormatHost.Cli.start arguments
