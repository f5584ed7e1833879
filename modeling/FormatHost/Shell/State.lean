/-
FormatHost.Shell.State — the state of a shell.

* §1 how a shell goes on, and where its streams go;
* §2 the state;
* §3 parameters and variables;
* §4 writing, and messages;
* §5 channels, subshells and child processes;
* §6 the programs that commands name.
-/
import FormatHost.Shell.Builtin
import FormatHost.Shell.Script

namespace FormatHost.Shell

/-! ## §1 Flow and streams -/

/-- How a shell goes on after a command. -/
inductive Flow
  | next
  /-- Leave so many loops; with `again` the last of them goes on. -/
  | leaving (loops : Nat) (again : Bool)
  /-- Leave the function or the file that is being read. -/
  | returning
  /-- The shell has ended with the current status. -/
  | ended
  /-- The shell was stopped by a signal. -/
  | stopped (signal : Nat)
  /-- The shell never ends. -/
  | endless
  deriving Repr, DecidableEq

/-- Where a stream of output goes. -/
inductive Sink
  /-- What is collected: the output, the errors, and what is in pipes. -/
  | channel (n : Nat)
  | file (path : Path)
  | nowhere
  deriving Repr, DecidableEq

/-! ## §2 States -/

structure State where
  machine : Machine
  /-- The script's own name. -/
  name : String
  arguments : List String := []
  bindings : List (String × String) := []
  /-- The variables that commands are given. -/
  exported : List String := []
  functions : List (String × Command) := []
  status : Nat := 0
  /-- The status of the last substitution in a command. -/
  substituted : Option Nat := none
  flow : Flow := .next
  /-- The line of the command that runs. -/
  line : Nat := 1
  /-- The command on whose behalf a text is run. -/
  within : Option String := none
  /-- What is left of the input; nothing when it is closed. -/
  input : Option (List UInt8) := some []
  /-- Where streams go; one that is not listed is closed. -/
  streams : List (Nat × Sink) := [(1, .channel 0), (2, .channel 1)]
  /-- What each channel has taken, last piece first. -/
  channels : List (List (List UInt8)) := [[], []]
  /-- Milliseconds slept, by the shell and by what runs beside it. -/
  elapsed : Nat := 0
  beside : Nat := 0
  /-- Whether anything was left running beside the shell. -/
  company : Bool := false
  /-- How many loops a command stands in. -/
  loops : Nat := 0
  /-- Whether a failure ends the shell, and whether a missing value does. -/
  strict : Bool := false
  known : Bool := false
  /-- Whether the command's status is being asked for. -/
  asked : Bool := false
  /-- What is run on a signal; zero is the end of the shell. -/
  traps : List (Nat × List Char) := []
  /-- The values that the variables of a function hide. -/
  hidden : Option (List (String × Option String)) := none

namespace State

/-! ## §3 Parameters -/

/-- The number of a shell's process, as far as it matters. -/
def processId : String := "4242"

/-- The number of the process that runs beside the shell. -/
def besideId : String := "4243"

def setVariable (s : State) (name value : String) : State :=
  { s with bindings := (name, value) :: s.bindings.filter (·.1 ≠ name) }

def markExported (s : State) (name : String) : State :=
  { s with exported := name :: s.exported.filter (· ≠ name) }

def unset (s : State) (name : String) : State :=
  { s with
    bindings := s.bindings.filter (·.1 ≠ name)
    exported := s.exported.filter (· ≠ name) }

def valueOr (s : State) (name : String) : String := (s.bindings.lookup name).getD ""

/-- The characters at which values are cut into fields. -/
def separators (s : State) : List Char :=
  match s.bindings.lookup "IFS" with
  | some v => v.toList
  | none => [' ', '\t', '\n']

/-- The arguments in one text. -/
def joined (s : State) : String :=
  (String.ofList (s.separators.take 1)).intercalate s.arguments

/-- The letters of the options that are on. -/
def optionLetters (s : State) : String :=
  (if s.strict then "e" else "") ++ (if s.known then "u" else "")

/-- The value of a parameter. -/
def value? (s : State) (name : String) : Option String :=
  match name with
  | "#" => some (toString s.arguments.length)
  | "?" => some (toString s.status)
  | "$" => some processId
  | "!" => if s.company then some besideId else none
  | "-" => some s.optionLetters
  | "0" => some s.name
  | "*" | "@" => if s.arguments.isEmpty then none else some s.joined
  | _ =>
    match Text.decimal? name.toList with
    | some n => s.arguments[n - 1]?
    | none => s.bindings.lookup name

/-- Variables that commands are given, with their values. -/
def environment (s : State) : List (String × String) :=
  s.bindings.reverse.filter fun v => s.exported.contains v.1

/-! ## §4 Writing -/

/-- Write to a stream; nothing when it is closed. -/
def write? (s : State) (stream : Nat) (text : List UInt8) : Option State :=
  match s.streams.lookup stream with
  | none => if text.isEmpty then some s else none
  | some (.channel n) => some { s with channels := s.channels.modify n (text :: ·) }
  | some .nowhere => some s
  | some (.file p) =>
    let m := s.machine
    match m.disk.readBytes m.cwd p with
    | .error _ => some s
    | .ok old =>
      match m.disk.writeBytes m.cwd p (old ++ text) with
      | .ok disk => some { s with machine := { m with disk } }
      | .error _ => some s

def write (s : State) (stream : Nat) (text : List UInt8) : State := (s.write? stream text).getD s

/-- A message of the shell, on behalf of a command. -/
def say (s : State) (command : Option String) (message : String) : State :=
  let by_ := match command with | some c => c ++ ": " | none => ""
  s.write 2 (bytes (s.name ++ ": " ++ toString s.line ++ ": " ++ by_ ++ message ++ "\n"))

/-- A failure of a command of the shell, which goes on. -/
def complain (s : State) (command : Option String) (status : Nat) (message : String) : State :=
  { s.say command message with status }

/-- A failure that ends the shell. -/
def abort (s : State) (command : Option String) (message : String) : State :=
  { s.say command message with status := 2, flow := .ended }

/-- What a command has written, put into the state. -/
def add (s : State) (command : String) (w : Written) : State :=
  match s.write? 1 w.output with
  | some t =>
    let t := w.complaints.foldl (fun t c => t.say (some command) c) t
    { t.write 2 w.errors with status := w.status }
  | none => s.complain (some command) 1 (command ++ ": I/O error")

/-- What a tool has written, which speaks for itself. -/
def addTool (s : State) (tool : String) (w : Written) : State :=
  match s.write? 1 w.output with
  | some t =>
    let own := w.complaints.flatMap fun c => bytes (tool ++ ": " ++ c ++ "\n")
    { t.write 2 (own ++ w.errors) with status := w.status }
  | none => { s.write 2 (bytes (tool ++ ": write error: Bad file descriptor\n")) with status := 1 }

/-! ## §5 Other shells -/

def setStream (s : State) (stream : Nat) (sink : Sink) : State :=
  { s with streams := (stream, sink) :: s.streams.filter (·.1 ≠ stream) }

def closeStream (s : State) (stream : Nat) : State :=
  { s with streams := s.streams.filter (·.1 ≠ stream) }

/-- The output goes to a channel of its own. -/
def capturing (s : State) : State :=
  { s.setStream 1 (.channel s.channels.length) with channels := s.channels ++ [[]] }

/-- What the last channel has taken. -/
def captured (s : State) : List UInt8 := ((s.channels.getLast?.getD []).reverse).flatten

/-- What a shell or process beside this one has done to what they share. -/
def joining (s inner : State) : State :=
  { s with
    status := inner.status
    input := inner.input
    channels := inner.channels.take s.channels.length
    elapsed := inner.elapsed
    beside := inner.beside
    machine := { s.machine with disk := inner.machine.disk } }

/-- The state after a subshell; a signal and an endless run end this shell
too. -/
def afterSubshell (s inner : State) : State :=
  { s.joining inner with
    flow := match inner.flow with
      | .stopped n => .stopped n
      | .endless => .endless
      | _ => .next }

/-- A subshell starts without what the shell does on signals. -/
def subshell (s : State) : State := { s with traps := s.traps.filter (·.2.isEmpty), loops := 0 }

/-- A fresh shell as a child of this one. -/
def child (s : State) (name : String) (arguments : List String) : State :=
  { machine := s.machine, name, arguments
    bindings := s.environment.reverse, exported := s.exported
    input := s.input, streams := s.streams, channels := s.channels
    elapsed := s.elapsed, beside := s.beside
    traps := s.traps.filter (·.2.isEmpty) }

/-- What a shell says about a command that a signal has stopped. -/
def signalText? (n : Nat) : Option String :=
  [(1, "Hangup"), (3, "Quit"), (4, "Illegal instruction"), (5, "Trace/breakpoint trap"),
    (6, "Aborted"), (7, "Bus error"), (8, "Floating point exception"), (9, "Killed"),
    (10, "User defined signal 1"), (11, "Segmentation fault"), (12, "User defined signal 2"),
    (14, "Alarm clock"), (15, "Terminated")].lookup n

/-- The state after a command that ran as a process of its own. -/
def afterProcess (s inner : State) : State :=
  let t := s.joining inner
  match inner.flow with
  | .stopped n =>
    let t := match signalText? n with
      | some text => t.write 2 (bytes (text ++ "\n"))
      | none => t
    { t with status := 128 + n }
  | .endless => { t with flow := .endless }
  | _ => t

/-! ## §6 Programs -/

/-- The commands that are files of the system. -/
def systemTools : List String :=
  ["cat", "tr", "dirname", "basename", "sleep", "sh", "dash", "true", "false", "echo", "printf",
    "test", "env", "printenv", "head", "tail", "wc", "sort", "uniq", "cut", "sed", "grep", "seq",
    "expr", "tee", "tac", "yes", "["]

/-- The directories of the system's commands. -/
def systemDirectories : List String := ["/bin", "/usr/bin"]

end State

/-- What a command's name stands for. -/
inductive Program
  | tool (name : String)
  | file (path : String)
  deriving Repr, DecidableEq

/-- The program at a path. -/
def programAt? (m : Machine) (path : String) : Option Program :=
  let tool? := State.systemDirectories.findSome? fun dir =>
    State.systemTools.find? fun t => path = dir ++ "/" ++ t
  match tool? with
  | some t => some (.tool t)
  | none => if m.disk.isExecutable m.cwd ⟨path⟩ then some (.file path) else none

/-- The path of a command in a directory of the search path. -/
def pathIn (dir command : String) : String := (if dir = "" then "." else dir) ++ "/" ++ command

/-- The path of a command: the one it is, else in the first directory of
the search path that has it. -/
def commandPath? (m : Machine) (searchPath command : String) : Option String :=
  if command.toList.contains '/' then
    if (programAt? m command).isSome then some command else none
  else
    ((searchPath.splitOn ":").map (pathIn · command)).find? fun p => (programAt? m p).isSome

/-- The program of a command. -/
def program? (m : Machine) (searchPath command : String) : Option Program :=
  (commandPath? m searchPath command).bind (programAt? m)

/-- The interpreter that a file's first line names, with its argument. -/
def interpreter? (content : List Char) : Option (String × List String) :=
  match content with
  | '#' :: '!' :: rest =>
    let words := ((Text.splitAll ' ' (Text.trim (rest.takeWhile (· ≠ '\n')))).filter
      (!·.isEmpty)).map String.ofList
    match words with
    | w :: ws => some (w, ws)
    | [] => none
  | _ => none

/-- Milliseconds of a time in seconds, minutes or hours. -/
def milliseconds (s : String) : Nat :=
  let cs := s.toList
  let number (cs : List Char) : Nat :=
    match Text.splitOnce '.' cs with
    | some (whole, fraction) =>
      (Text.decimal? whole).getD 0 * 1000 +
        (Text.decimal? ((fraction ++ ['0', '0', '0']).take 3)).getD 0
    | none => (Text.decimal? cs).getD 0 * 1000
  match cs.getLast? with
  | some 's' => number cs.dropLast
  | some 'm' => number cs.dropLast * 60
  | some 'h' => number cs.dropLast * 3600
  | _ => number cs

end FormatHost.Shell
