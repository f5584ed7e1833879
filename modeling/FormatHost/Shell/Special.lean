/-
FormatHost.Shell.Special — commands that change the shell.

These commands are functions from the state of a shell and their words to
the state after them.

* §1 leaving: the shell, functions and loops;
* §2 arguments, options and variables;
* §3 signals;
* §4 the current directory, and what commands are;
* §5 reading a line into variables.
-/
import FormatHost.Shell.State
import FormatHost.Shell.Tool

namespace FormatHost.Shell

namespace State

/-! ## §1 Leaving -/

/-- Commands whose failures end the shell. -/
def specialCommands : List String :=
  [".", ":", "break", "continue", "eval", "exec", "exit", "export", "readonly", "return", "set",
    "shift", "times", "trap", "unset"]

/-- Other commands that the shell runs itself. -/
def ownCommands : List String :=
  ["[", "cd", "command", "echo", "false", "getopts", "kill", "local", "printf", "pwd", "read",
    "test", "true", "type", "umask", "wait"]

/-- A status or count among a command's words. -/
def count? (words : List String) : Except String (Option Nat) :=
  match words with
  | [] => .ok none
  | w :: _ =>
    match Text.decimal? w.toList with
    | some n => .ok (some n)
    | none => .error ("Illegal number: " ++ w)

/-- Leave the shell, or only what `flow` leaves. -/
def leave (s : State) (command : String) (flow : Flow) (words : List String) : State :=
  match count? words with
  | .ok n => { s with status := (n.getD s.status) % 256, flow }
  | .error e => s.abort (some command) e

/-- Leave loops or go on with them. -/
def leaveLoops (s : State) (command : String) (again : Bool) (words : List String) : State :=
  match count? words with
  | .ok n =>
    if n = some 0 then s.abort (some command) "Illegal number: 0"
    else if s.loops = 0 then { s with status := 0 }
    else { s with status := 0, flow := .leaving (min (n.getD 1) s.loops) again }
  | .error e => s.abort (some command) e

/-! ## §2 Arguments, options and variables -/

/-- Drop arguments. -/
def shift (s : State) (words : List String) : State :=
  match count? words with
  | .ok n =>
    let n := n.getD 1
    if n > s.arguments.length then s.abort (some "shift") "can't shift that many"
    else { s with arguments := s.arguments.drop n, status := 0 }
  | .error e => s.abort (some "shift") e

/-- Turn an option on or off. -/
def setOption (s : State) (c : Char) (on : Bool) : State :=
  if c = 'e' then { s with strict := on } else if c = 'u' then { s with known := on } else s

/-- Options and arguments from the words of `set`. -/
def set (s : State) : List String → State
  | [] => { s with status := 0 }
  | w :: ws =>
    let named (on : Bool) (rest : List String) : Option State :=
      match rest with
      | "errexit" :: _ => some (s.setOption 'e' on)
      | "nounset" :: _ => some (s.setOption 'u' on)
      | name :: _ =>
        if ["noglob", "xtrace", "verbose", "noexec", "allexport", "notify", "noclobber",
            "monitor", "vi", "emacs", "ignoreeof", "interactive", "stdin", "debug",
            "nolog"].contains name then some s
        else none
      | [] => some s
    match w.toList with
    | ['-', '-'] => { s with arguments := ws, status := 0 }
    | [sign, 'o'] =>
      if sign = '-' ∨ sign = '+' then
        match named (sign = '-') ws with
        | some t =>
          match ws with
          | [] => { t with status := 0 }
          | _ :: rest => if rest.isEmpty then { t with status := 0 } else set t rest
        | none => s.abort (some "set") ("Illegal option -o " ++ ws.headD "")
      else { s with arguments := w :: ws, status := 0 }
    | sign :: c :: cs =>
      if sign = '-' ∨ sign = '+' then
        match (c :: cs).find? fun c => !("aCefmnuvxbIiVE".toList.contains c) with
        | some c => s.abort (some "set") ("Illegal option -" ++ String.ofList [c])
        | none =>
          let t := (c :: cs).foldl (fun t c => t.setOption c (sign = '-')) s
          if ws.isEmpty then { t with status := 0 } else set t ws
      else { s with arguments := w :: ws, status := 0 }
    | _ => { s with arguments := w :: ws, status := 0 }

/-- Assign and export variables. -/
def exportWords (s : State) : List String → State
  | [] => { s with status := 0 }
  | w :: ws =>
    if w.startsWith "-" then exportWords s ws
    else
      match Text.splitOnce '=' w.toList with
      | some (name, value) =>
        let name := String.ofList name
        exportWords ((s.setVariable name (String.ofList value)).markExported name) ws
      | none => exportWords (s.markExported w) ws

/-- Assign variables. -/
def assignWords (s : State) : List String → State
  | [] => { s with status := 0 }
  | w :: ws =>
    match Text.splitOnce '=' w.toList with
    | some (name, value) =>
      assignWords (s.setVariable (String.ofList name) (String.ofList value)) ws
    | none => assignWords s ws

def unsetWords (s : State) : List String → State
  | [] => { s with status := 0 }
  | "-f" :: ws =>
    { s with functions := s.functions.filter fun f => !ws.contains f.1, status := 0 }
  | "-v" :: ws => unsetWords s ws
  | w :: ws => unsetWords (s.unset w) ws

/-- Variables that get their values back at the end of the function. -/
def localWords (s : State) (words : List String) : State :=
  match s.hidden with
  | none => s.abort (some "local") "not in a function"
  | some hidden =>
    let names := words.map fun w => String.ofList (w.toList.takeWhile (· ≠ '='))
    assignWords { s with hidden := some (names.map (fun n => (n, s.bindings.lookup n)) ++ hidden) }
      words

/-- Give hidden values back. -/
def restore (s : State) (hidden : List (String × Option String)) : State :=
  hidden.foldl (fun s (name, value) => match value with
    | some v => s.setVariable name v
    | none => s.unset name) s

/-! ## §3 Signals -/

/-- Names of signals. -/
def signals : List (String × Nat) :=
  [("EXIT", 0), ("HUP", 1), ("INT", 2), ("QUIT", 3), ("ILL", 4), ("TRAP", 5), ("ABRT", 6),
    ("BUS", 7), ("FPE", 8), ("KILL", 9), ("USR1", 10), ("SEGV", 11), ("USR2", 12), ("PIPE", 13),
    ("ALRM", 14), ("TERM", 15), ("CHLD", 17), ("CONT", 18)]

/-- The number of a signal by its name or number. -/
def signal? (w : String) : Option Nat :=
  match Text.decimal? w.toList with
  | some n => some n
  | none => signals.lookup (if w.startsWith "SIG" then String.ofList (w.toList.drop 3) else w)

/-- What is run on signals. -/
def trap (s : State) (words : List String) : State :=
  let given := match words with
    | "--" :: ws => ws
    | ws => ws
  match given with
  | [] => { s with status := 0 }
  | action :: ws =>
    let resets := action = "-" || ws.isEmpty || (Text.decimal? action.toList).isSome
    let names := if resets && action ≠ "-" then given else ws
    match names.find? fun w => (signal? w).isNone with
    | some w => s.complain (some "trap") 1 (w ++ ": bad trap")
    | none =>
      let ns := names.filterMap signal?
      let kept := s.traps.filter fun t => !ns.contains t.1
      { s with
        status := 0
        traps := if resets then kept else ns.map (fun n => (n, action.toList)) ++ kept }

/-- The signal that a shell sends to itself, or why it sends none. -/
inductive Sent
  | own (signal : Nat)
  | done (status : Nat) (output : String)
  | fault (message : String)

def sent : List String → Sent
  | ["-l", n] =>
    match (Text.decimal? n.toList).bind fun n =>
        signals.find? fun (_, m) => m = (if n > 128 then n - 128 else n) with
    | some (name, _) => .done 0 (name ++ "\n")
    | none => .fault ("invalid signal number or exit status: " ++ n)
  | "-s" :: w :: pids => toPids (signal? w) pids
  | w :: pids =>
    if w.startsWith "-" ∧ w ≠ "--" then
      match signal? (String.ofList (w.toList.drop 1)) with
      | some n => toPids (some n) pids
      | none => .fault ("Illegal option -" ++ String.ofList ((w.toList.drop 1).take 1))
    else toPids (some 15) (w :: pids)
  | [] => usage
where
  usage : Sent := .fault ("Usage: kill [-s sigspec | -signum | -sigspec] [pid | job]... or\n" ++
    "kill -l [exitstatus]")
  toPids (signal : Option Nat) (pids : List String) : Sent :=
    match pids, signal with
    | [], _ => usage
    | pid :: _, some n =>
      if pid = processId then (if n = 0 then .done 0 "" else .own n)
      else if pid = besideId then .done 0 ""
      else if (Text.decimal? pid.toList).isSome then .fault "No such process"
      else .fault ("Illegal number: " ++ pid)
    | _, none => .fault "invalid signal number or name"

/-! ## §4 Directories and commands -/

/-- The text of an absolute path without `.`, `..` and repeated slashes. -/
def plainPath (p : Path) : String :=
  let names := p.components.foldl (fun names c => match c with
    | .name s => names ++ [s]
    | .up => names.dropLast
    | _ => names) []
  "/" ++ "/".intercalate names

def cd (s : State) (words : List String) : State :=
  let wanted := match words with
    | [] => s.valueOr "HOME"
    | "--" :: w :: _ => w
    | "-" :: _ => (s.bindings.lookup "OLDPWD").getD s.machine.cwd.text
    | w :: _ => w
  let place := plainPath (s.machine.cwd.join ⟨wanted⟩)
  if wanted = "" then { s with status := 0 }
  else if s.machine.isDirectory ⟨place⟩ then
    let t := (s.setVariable "OLDPWD" s.machine.cwd.text).setVariable "PWD" place
    let t := { t with machine := { t.machine with cwd := ⟨place⟩ }, status := 0 }
    if words.head? = some "-" then t.write 1 (bytes (place ++ "\n")) else t
  else s.complain (some "cd") 2 ("can't cd to " ++ wanted)

/-- Say what commands are; `brief` says only how they are run. The status
is a failure when one is not found. -/
def describe (s : State) (brief : Bool) : List String → State
  | [] => s
  | w :: ws =>
    let searchPath := s.valueOr "PATH"
    let (found, text) :=
      if keywords.contains w then (true, if brief then w else w ++ " is a shell keyword")
      else if (s.functions.lookup w).isSome then
        (true, if brief then w else w ++ " is a shell function")
      else if specialCommands.contains w then
        (true, if brief then w else w ++ " is a special shell builtin")
      else if ownCommands.contains w then
        (true, if brief then w else w ++ " is a shell builtin")
      else
        match commandPath? s.machine searchPath w with
        | some p => (true, if brief then p else w ++ " is " ++ p)
        | none => (false, w ++ ": not found")
    let t :=
      if found then s.write 1 (bytes (text ++ "\n"))
      else if brief then { s with status := 127 }
      else { s.write 1 (bytes (text ++ "\n")) with status := 127 }
    describe t brief ws

/-! ## §5 Reading lines -/

/-- The characters of a line, and those that are taken as they are; what
follows the line; and whether the line ended. -/
def takeLine (raw : Bool) : Nat → List UInt8 → List (UInt8 × Bool) × List UInt8 × Bool
  | 0, bs => ([], bs, false)
  | _ + 1, [] => ([], [], false)
  | fuel + 1, b :: bs =>
    if b = 10 then ([], bs, true)
    else if b = 92 ∧ !raw then
      match bs with
      | [] => ([], [], false)
      | c :: rest =>
        let (line, rest, ended) := takeLine raw fuel rest
        (if c = 10 then line else (c, true) :: line, rest, ended)
    else
      let (line, rest, ended) := takeLine raw fuel bs
      ((b, false) :: line, rest, ended)

/-- The parts of a line for so many variables; the last takes all that is
left, less blanks at its end. -/
def splitLine (separators : List Char) : Nat → List (UInt8 × Bool) → List (List UInt8)
  | 0, _ => []
  | n + 1, line =>
    let cuts (b : UInt8 × Bool) : Bool :=
      !b.2 && separators.contains (Char.ofNat b.1.toNat)
    let white (b : UInt8 × Bool) : Bool := cuts b && Fields.isWhite (Char.ofNat b.1.toNat)
    let line := line.dropWhile white
    if n = 0 then
      let trimmed := (line.reverse.dropWhile white).reverse
      -- one other separator at the end of a single part goes too
      let trimmed := match trimmed.reverse with
        | b :: rest => if cuts b && !rest.any cuts then rest.reverse else trimmed
        | [] => trimmed
      [trimmed.map (·.1)]
    else
      let part := line.takeWhile (!cuts ·)
      let rest := (line.drop part.length).dropWhile white
      let rest := match rest with
        | b :: more => if cuts b then more else rest
        | [] => rest
      part.map (·.1) :: splitLine separators n rest

/-- Read a line into variables. -/
def read (s : State) (words : List String) : State :=
  let o := Tool.Options.read ['p'] words
  if o.operands.isEmpty then s.complain (some "read") 2 "arg count"
  else
    let input := s.input.getD []
    let (line, rest, ended) := takeLine (o.has 'r') (input.length + 1) input
    let parts := splitLine s.separators o.operands.length line
    let assign (s : State) (part : String × List UInt8) : State :=
      s.setVariable part.1 (String.ofList (Text.Utf8.decodeLossy part.2))
    { (o.operands.zip parts).foldl assign s with input := s.input.map fun _ => rest, status := if ended then 0 else 1 }

end State
end FormatHost.Shell
