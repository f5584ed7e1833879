/-
FormatHost.Process — programs that are started and run to their end.

* §1 how a process ends, and what it leaves behind;
* §2 starting a program by its path, with words and input.
-/
import FormatHost.Bits
import FormatHost.Shell.Run

namespace FormatHost

/-! ## §1 Endings -/

/-- How a process ended. -/
inductive Ending
  | exit (status : Nat)
  | signal (n : Nat)
  deriving Repr, DecidableEq

/-- The names of the signals that have one here. -/
def signalNames : List (Nat × String) :=
  [(1, "SIGHUP"), (2, "SIGINT"), (3, "SIGQUIT"), (4, "SIGILL"), (5, "SIGTRAP"), (6, "SIGABRT"),
    (7, "SIGBUS"), (8, "SIGFPE"), (9, "SIGKILL"), (10, "SIGUSR1"), (11, "SIGSEGV"),
    (12, "SIGUSR2"), (13, "SIGPIPE"), (14, "SIGALRM"), (15, "SIGTERM")]

def Ending.message : Ending → String
  | .exit status => "exit status: " ++ toString status
  | .signal n =>
    match signalNames.lookup n with
    | some name => "signal: " ++ toString n ++ " (" ++ name ++ ")"
    | none => "signal: " ++ toString n

/-- What a process has left behind. -/
structure Finished where
  ending : Ending
  output : List UInt8
  errors : List UInt8
  /-- Milliseconds it took. -/
  elapsed : Nat
  deriving Repr, DecidableEq

/-- Longer than any limit, in milliseconds: the time of a process that does
not end. -/
def forever : Nat := bitValues 70

/-! ## §2 Starting -/

namespace Machine

/-- The program that a path names; a name without a slash is looked for on
the search path. -/
def program (m : Machine) (p : Path) : Except IoError Shell.Program :=
  if p.text.toList.contains '/' then
    match Shell.programAt? m p.text with
    | some program => .ok program
    | none =>
      match m.disk.look m.cwd p with
      | .ok _ => .error .notExecutable
      | .error e => .error e
  else
    let searchPath := ":".intercalate (m.searchPath.map Path.text)
    match Shell.program? m searchPath p.text with
    | some program => .ok program
    | none => .error .notFound

/-- Whether a file can be started: it names an interpreter that exists. -/
def startable (m : Machine) : Shell.Program → Except IoError Unit
  | .tool _ => .ok ()
  | .file path => do
    match Shell.interpreter? (Text.Utf8.decodeLossy (← m.disk.readBytes m.cwd ⟨path⟩)) with
    | none => .error .notExecutable
    | some (interpreter, _) =>
      if (Shell.programAt? m interpreter).isSome then .ok () else .error .notFound

/-- Start a program and wait for its end, and for that of what it has left
running. -/
def execute (m : Machine) (p : Path) (arguments : List String) (input : List UInt8) :
    Except IoError Finished := do
  let program ← m.program p
  m.startable program
  let s : Shell.State :=
    { machine := m, name := p.text, arguments, input := some input
      bindings := [("PWD", m.cwd.text), ("PATH", ":".intercalate (m.searchPath.map Path.text)),
        ("HOME", m.home.text)]
      exported := ["PWD", "PATH", "HOME"] }
  let r := Shell.runProgram Shell.depth s program arguments
  let channel (n : Nat) : List UInt8 := ((r.channels[n]?.getD []).reverse).flatten
  let ending := match r.flow with
    | .stopped n => Ending.signal n
    | _ => .exit r.status
  let elapsed := if r.flow = .endless then forever else max r.elapsed r.beside
  .ok ⟨ending, channel 0, channel 1, elapsed⟩

end Machine
end FormatHost
