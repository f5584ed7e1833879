/-
FormatHost.Shell.Run — running scripts.

A script runs on a machine of its own: it reads its input, its words and
the machine's files, what it writes is collected, and what it does to
files is forgotten at its end.

* §1 tools, files and failures;
* §2 running commands: one function for each kind of command, word and
  script. All of them share a bound on how deep they call one another; a
  shell that exceeds it never ends.
-/
import FormatHost.Shell.Arithmetic
import FormatHost.Shell.LineEdit
import FormatHost.Shell.Special

namespace FormatHost.Shell

namespace State

/-! ## §1 Tools and files -/

/-- A tool that filters its input. -/
def filter? : String → Option (Machine → List String → List UInt8 → Written)
  | "cat" => some Tool.cat
  | "head" => some Tool.head
  | "tail" => some Tool.tail
  | "wc" => some Tool.wc
  | "sort" => some Tool.sort
  | "uniq" => some Tool.uniq
  | "cut" => some Tool.cut
  | "sed" => some LineEdit.sed
  | "grep" => some LineEdit.grep
  | "tr" => some fun _ => Tool.tr
  | "tee" => some fun _ _ input => { output := input }
  | "tac" => some fun m ws input =>
    (Tool.given m "tac" input ws).map fun text => (Tool.lines text).reverse.flatten
  | _ => none

/-- A tool that only looks at its words. -/
def wordTool (s : State) (name : String) (ws : List String) : Written :=
  match name with
  | "dirname" =>
    match ws with
    | [] => Tool.missingOperand name
    | w :: _ => { output := bytes (Tool.dirname w ++ "\n") }
  | "basename" =>
    match ws with
    | [] => Tool.missingOperand name
    | w :: rest => { output := bytes (Tool.basename w (rest.headD "") ++ "\n") }
  | "seq" => Tool.seq ws
  | "expr" => Tool.expr ws
  | "false" => { status := 1 }
  | "echo" => echo ws
  | "printf" => printf ws
  | "test" => testWords s.machine ws
  | "[" => bracketTest s.machine ws
  | "printenv" =>
    match ws with
    | [] => { output := bytes (String.join (s.environment.map fun v => v.1 ++ "=" ++ v.2 ++ "\n")) }
    | name :: _ =>
      match s.environment.lookup name with
      | some v => { output := bytes (v ++ "\n") }
      | none => { status := 1 }
  | _ => {}

/-- Run a filter on the input, which it uses up unless it reads files. -/
def runFilter (s : State) (name : String) (f : Machine → List String → List UInt8 → Written)
    (ws : List String) : State :=
  match s.input with
  | none =>
    if name = "cat" ∧ ws.isEmpty then
      s.addTool name (failure 1
        "cat: -: Bad file descriptor\ncat: closing standard input: Bad file descriptor")
    else s.addTool name (f s.machine ws [])
  | some input =>
    let t := s.addTool name (f s.machine ws input)
    let readsFiles := name = "cat" && !ws.isEmpty && !ws.contains "-" && !ws.contains "-n"
    if readsFiles then t else { t with input := some [] }

/-- The text of numbers of a stream. -/
def streamPath? : String → Option Nat
  | "/dev/stdout" | "/dev/fd/1" => some 1
  | "/dev/stderr" | "/dev/fd/2" => some 2
  | _ => none

/-- Open a file for writing. -/
def openFile (s : State) (stream : Nat) (atEnd : Bool) (name : String) : Except String State :=
  match streamPath? name with
  | some n =>
    match s.streams.lookup n with
    | some sink => .ok (s.setStream stream sink)
    | none => .error ("cannot create " ++ name ++ ": Directory nonexistent")
  | none =>
    if name = "/dev/null" then .ok (s.setStream stream .nowhere)
    else
      let m := s.machine
      let p := m.cwd.join ⟨name⟩
      let old := if atEnd then ((m.disk.readBytes m.cwd p).toOption.getD []) else []
      match m.disk.writeBytes m.cwd p old with
      | .ok disk => .ok ({ s with machine := { m with disk } }.setStream stream (.file p))
      | .error .isADirectory => .error ("cannot create " ++ name ++ ": Is a directory")
      | .error _ => .error ("cannot create " ++ name ++ ": Directory nonexistent")

/-- Open a file for reading. -/
def openInput (s : State) (name : String) : Except String State :=
  if name = "/dev/null" then .ok { s with input := some [] }
  else if name = "/dev/stdin" then .ok s
  else
    match s.machine.disk.readBytes s.machine.cwd ⟨name⟩ with
    | .ok bs => .ok { s with input := some bs }
    | .error .isADirectory => .ok { s with input := some [] }
    | .error _ => .error ("cannot open " ++ name ++ ": No such file")

/-- End the shell when a failure does. -/
def checked (s : State) : State :=
  if s.strict && !s.asked && s.flow = .next && s.status ≠ 0 then { s with flow := .ended } else s

/-- A leading tilde is the home directory. -/
def atHome (s : State) (w : Word) : Word :=
  match w with
  | .text false ('~' :: rest) :: more =>
    if (rest.isEmpty && more.isEmpty) || rest.head? = some '/' then
      .text true (s.valueOr "HOME").toList :: .text false rest :: more
    else w
  | w => w

end State

/-! ## §2 Running -/

/-- What is run with its streams redirected. -/
inductive Job
  | command (c : Command)
  | words (ws : List String)
  deriving Repr

mutual

/-- Add the fields of parts; values are cut into fields with `split`. -/
def expandParts (split : Bool) : Nat → State → List Part → Fields → Fields × State
  | 0, s, _, f => (f, { s with flow := .endless })
  | _ + 1, s, [], f => (f, s)
  | fuel + 1, s, p :: ps, f =>
    let separators := if split then s.separators else []
    let add (quoted : Bool) (f : Fields) (cs : List Char) : Fields :=
      if quoted then f.append true cs else f.appendSplit separators cs
    match p with
    | .text quoted cs => expandParts split fuel s ps (f.append quoted cs)
    | .loose cs => expandParts split fuel s ps (f.appendSplit separators cs)
    | .substitution quoted script =>
      let inner := runScript fuel s.subshell.capturing s.line script
      let text := (inner.captured.filter (· ≠ 0)).reverse.dropWhile (· = 10)
      let out := Text.Utf8.decodeLossy text.reverse
      let t := s.afterSubshell inner
      let t := { t with substituted := some t.status }
      if t.flow = .next then expandParts split fuel t ps (add quoted f out) else (f, t)
    | .arithmetic quoted expression =>
      let (field, s) := expandText fuel s (innerParts true expression)
      if s.flow ≠ .next then (f, s)
      else
        match Arithmetic.run (fun x => (s.value? x).getD "") field.text with
        | .ok (n, assigned) =>
          let s := assigned.foldr (fun (x, n) s => s.setVariable x (toString n)) s
          expandParts split fuel s ps (add quoted f (toString n).toList)
        | .error e => (f, s.abort s.within (e.message field.text))
    | .parameter quoted name use =>
      let value := s.value? name
      let missing (orEmpty : Bool) : Bool := value.isNone || (orEmpty && value == some "")
      -- a quoted part is a field, even without characters
      let opened := if quoted then f.append true [] else f
      let plain : Fields × State :=
        if name = "@" ∧ split then
          expandParts split fuel s ps (f.appendAll (add quoted) s.arguments)
        else if name = "*" ∧ !quoted ∧ split then
          expandParts split fuel s ps (f.appendAll (add false) s.arguments)
        else if name = "@" then
          expandParts split fuel s ps (add quoted f (" ".intercalate s.arguments).toList)
        else if s.known && value.isNone && name ≠ "*" then
          (f, s.abort none (name ++ ": parameter not set"))
        else expandParts split fuel s ps (add quoted f (value.getD "").toList)
      match use with
      | .value => plain
      | .length =>
        if s.known && value.isNone then (f, s.abort none (name ++ ": parameter not set"))
        else
          let length := (value.getD "").utf8ByteSize
          expandParts split fuel s ps (add quoted f (toString length).toList)
      | .otherwise orEmpty w =>
        if missing orEmpty then
          expandParts split fuel s (innerParts quoted w ++ ps) opened
        else plain
      | .instead orEmpty w =>
        if missing orEmpty then expandParts split fuel s ps opened
        else expandParts split fuel s (innerParts quoted w ++ ps) opened
      | .assign orEmpty w =>
        if missing orEmpty then
          let (field, s) := expandText fuel s (innerParts quoted w)
          let s := s.setVariable name field.text
          if s.flow ≠ .next then (f, s)
          else expandParts split fuel s ps (add quoted f field.text.toList)
        else plain
      | .require orEmpty w =>
        if missing orEmpty then
          let (field, s) := expandText fuel s (innerParts quoted w)
          let message := if !w.isEmpty then field.text
            else if orEmpty then "parameter not set or null" else "parameter not set"
          (f, s.abort none (name ++ ": " ++ message))
        else plain
      | .trimmed front longest w =>
        let (pattern, s) := expandText fuel s (innerParts false w)
        if s.flow ≠ .next then (f, s)
        else
          let cs := trimMatch front longest pattern (value.getD "").toList
          expandParts split fuel s ps (add quoted f cs)
      | .malformed => (f, s.abort none "Bad substitution")

/-- The text of parts, kept in one piece. -/
def expandText : Nat → State → List Part → Field × State
  | 0, s, _ => ([], { s with flow := .endless })
  | fuel + 1, s, ps =>
    let (f, s) := expandParts false fuel s ps {}
    ((f.toList.intersperse [(' ', true)]).flatten, s)

/-- The fields of words. -/
def expandWords : Nat → State → List Word → List Field × State
  | 0, s, _ => ([], { s with flow := .endless })
  | _ + 1, s, [] => ([], s)
  | fuel + 1, s, w :: ws =>
    let (f, s) := expandParts true fuel s (s.atHome w) {}
    if s.flow ≠ .next then ([], s)
    else
      -- a quoted list of no arguments is no field at all
      let isList := w = [.text true [], .parameter true "@" .value]
      let fields := if isList && s.arguments.isEmpty then [] else f.toList
      let (more, s) := expandWords fuel s ws
      (fields ++ more, s)

/-- Redirect streams from left to right; false when that fails. -/
def redirect : Nat → State → List Redirection → State × Bool
  | 0, s, _ => ({ s with flow := .endless }, false)
  | _ + 1, s, [] => (s, true)
  | fuel + 1, s, r :: rs =>
    let (result, s) : Except String State × State := match r.target with
      | .source w =>
        let (name, s) := expandText fuel s (s.atHome w)
        (if r.stream = 0 then s.openInput name.text else .ok s, s)
      | .file atEnd w =>
        let (name, s) := expandText fuel s (s.atHome w)
        (s.openFile r.stream atEnd name.text, s)
      | .document w =>
        let (text, s) := expandText fuel s w
        (.ok { s with input := some (bytes text.text) }, s)
      | .closed =>
        (.ok (if r.stream = 0 then { s with input := none } else s.closeStream r.stream), s)
      | .stream n =>
        if n = 0 ∨ r.stream = 0 then (.ok s, s)
        else
          match s.streams.lookup n with
          | some sink => (.ok (s.setStream r.stream sink), s)
          | none => (.error (toString n ++ ": Bad file descriptor"), s)
    match result with
    | .error e => (s.complain s.within 2 e, false)
    | .ok t => if s.flow = .next then redirect fuel t rs else (s, false)

/-- Run a job whose streams are redirected. -/
def runRedirected : Nat → State → List Redirection → Job → State
  | 0, s, _, _ => { s with flow := .endless }
  | fuel + 1, s, rs, job =>
    let (start, good) := redirect fuel s rs
    let inner :=
      if !good then start
      else match job with
        | .command c => run fuel start c
        | .words ws => runWords fuel start ws
    { inner with
      streams := s.streams
      input := if rs.any fun r => r.stream = 0 then s.input else inner.input }

/-- Run the lines of a script whose first line has the given number. -/
def runScript : Nat → State → Nat → List Char → State
  | 0, s, _, _ => { s with flow := .endless }
  | fuel + 1, s, first, script =>
    let read := Script.read first script
    let s := runAll fuel s read.commands
    match read.fault with
    | some fault =>
      if s.flow = .next then { s with line := fault.line }.abort s.within fault.message else s
    | none => s

/-- Run commands one after another. -/
def runAll : Nat → State → List Command → State
  | 0, s, _ => { s with flow := .endless }
  | _ + 1, s, [] => s
  | fuel + 1, s, c :: cs =>
    let t := run fuel s c
    if t.flow = .next then runAll fuel t cs else t

/-- Run a text at the end of the shell, or on a signal. -/
def runTrap : Nat → State → List Char → State
  | 0, s, _ => { s with flow := .endless }
  | fuel + 1, s, script =>
    let t := runScript fuel { s with flow := .next } 1 script
    if t.flow = .next then { t with status := s.status, flow := s.flow } else t

/-- Run the shell on a text, to its end. -/
def runWhole : Nat → State → List Char → State
  | 0, s, _ => { s with flow := .endless }
  | fuel + 1, s, script =>
    let t := runScript fuel s 1 script
    match t.flow, t.traps.lookup 0 with
    | .stopped _, _ => t
    | .endless, _ => t
    | _, some action =>
      runTrap fuel { t with flow := .ended, traps := t.traps.filter (·.1 ≠ 0) } action
    | _, none => t

/-- Run the shell on words: options, a file and its arguments. -/
def runShell : Nat → State → List String → State
  | 0, s, _ => { s with flow := .endless }
  | fuel + 1, s, words =>
    match words with
    | "-c" :: script :: rest =>
      runWhole fuel { s with name := rest.headD s.name, arguments := rest.drop 1 } script.toList
    | "-e" :: rest => runShell fuel { s with strict := true } rest
    | "-u" :: rest => runShell fuel { s with known := true } rest
    | "-eu" :: rest => runShell fuel { s with strict := true, known := true } rest
    | "-s" :: rest =>
      runWhole fuel { s with arguments := rest, input := some [] }
        (Text.Utf8.decodeLossy (s.input.getD []))
    | "--" :: file :: rest => runShell fuel s (file :: rest)
    | file :: arguments =>
      match s.machine.disk.readBytes s.machine.cwd ⟨file⟩ with
      | .ok bs =>
        runWhole fuel { s with name := file, arguments } (Text.Utf8.decodeLossy bs)
      | .error _ =>
        let e := s.name ++ ": 0: cannot open " ++ file ++ ": No such file\n"
        { s.write 2 (bytes e) with status := 2, flow := .ended }
    | [] =>
      runWhole fuel { s with input := some [] } (Text.Utf8.decodeLossy (s.input.getD []))

/-- Run a program as a process with the state of a fresh shell; the flow
tells how it ended. -/
def runProgram : Nat → State → Program → List String → State
  | 0, s, _, _ => { s with flow := .endless }
  | fuel + 1, s, program, ws =>
    match program with
    | .tool "sh" => runShell fuel s ws
    | .tool "dash" => runShell fuel s ws
    | .tool "sleep" => { s with status := 0, elapsed := s.elapsed + (ws.map milliseconds).sum }
    | .tool "yes" =>
      let line := bytes (" ".intercalate (if ws.isEmpty then ["y"] else ws) ++ "\n")
      { s.write 1 (List.replicate 1000 line).flatten with flow := .endless }
    | .tool "env" =>
      match ws with
      | [] => s.addTool "env" (s.wordTool "printenv" [])
      | w :: rest =>
        match Text.splitOnce '=' w.toList with
        | some (name, value) =>
          let name := String.ofList name
          runProgram fuel ((s.setVariable name (String.ofList value)).markExported name)
            (.tool "env") rest
        | none =>
          match program? s.machine (s.valueOr "PATH") w with
          | some p => runProgram fuel { s with name := w } p rest
          | none =>
            s.addTool "env" (failure 127 ("env: '" ++ w ++ "': No such file or directory"))
    | .tool name =>
      match State.filter? name with
      | some f => s.runFilter name f ws
      | none => s.addTool name (s.wordTool name ws)
    | .file path =>
      match s.machine.disk.readBytes s.machine.cwd ⟨path⟩ with
      | .error _ => s.addTool path (failure 126 (path ++ ": Permission denied"))
      | .ok bs =>
        match interpreter? (Text.Utf8.decodeLossy bs) with
        | none => runShell fuel s (path :: ws)
        | some (interpreter, own) =>
          match programAt? s.machine interpreter with
          | some p => runProgram fuel { s with name := interpreter } p (own ++ path :: ws)
          | none => s.addTool path (failure 127 (path ++ ": not found"))

/-- Run a command that is a program; with `replaces` it takes the place of
the shell. -/
def runExternal : Nat → State → Bool → String → List String → State
  | 0, s, _, _, _ => { s with flow := .endless }
  | fuel + 1, s, replaces, command, ws =>
    let speaker := if replaces then some "exec" else s.within
    match program? s.machine (s.valueOr "PATH") command with
    | none =>
      let present := command.toList.contains '/' &&
        (s.machine.isFile ⟨command⟩ || s.machine.isDirectory ⟨command⟩)
      let t := s.complain speaker (if present then 126 else 127)
        (command ++ (if present then ": Permission denied" else ": not found"))
      { t with flow := if replaces then .ended else .next }
    | some p =>
      let inner := runProgram fuel (s.child command ws) p ws
      if replaces then
        let flow := match inner.flow with
          | .stopped n => .stopped n
          | .endless => .endless
          | _ => Flow.ended
        { s.joining inner with traps := [], flow }
      else s.afterProcess inner

/-- Run a command by its words; `plainly` passes functions over. -/
def runNamed : Nat → State → Bool → List String → State
  | 0, s, _, _ => { s with flow := .endless }
  | _ + 1, s, _, [] => { s with status := 0 }
  | fuel + 1, s, plainly, name :: ws =>
    match name with
    | ":" => { s with status := 0 }
    | "exit" => s.leave name .ended ws
    | "return" => s.leave name .returning ws
    | "break" => s.leaveLoops name false ws
    | "continue" => s.leaveLoops name true ws
    | "shift" => s.shift ws
    | "set" => s.set ws
    | "export" => s.exportWords ws
    | "readonly" => s.assignWords ws
    | "unset" => s.unsetWords ws
    | "trap" => s.trap ws
    | "times" => { s with status := 0 }
    | "exec" =>
      match ws with
      | [] => { s with status := 0 }
      | command :: ws => runExternal fuel s true command ws
    | "eval" =>
      let t := runScript fuel { s with within := some name, status := 0 } 1
        (" ".intercalate ws).toList
      { t with within := s.within, line := s.line }
    | "." =>
      match ws with
      | [] => { s with status := 0 }
      | file :: _ =>
        let path := if file.toList.contains '/' then some file
          else ((s.valueOr "PATH").splitOn ":").findSome? fun dir =>
            if s.machine.isFile ⟨pathIn dir file⟩ then some (pathIn dir file) else none
        match path with
        | none => s.abort (some name) (file ++ ": not found")
        | some p =>
          match s.machine.disk.readBytes s.machine.cwd ⟨p⟩ with
          | .error _ => s.abort (some name) ("cannot open " ++ p ++ ": No such file")
          | .ok bs =>
            let t := runScript fuel { s with within := some p, status := 0 } 1
              (Text.Utf8.decodeLossy bs)
            { t with within := s.within, line := s.line
                     flow := if t.flow = .returning then .next else t.flow }
    | _ =>
      match if plainly then none else s.functions.lookup name with
      | some body =>
        let t := run fuel { s with arguments := ws, loops := 0, hidden := some [] } body
        let t := t.restore (t.hidden.getD [])
        { t with arguments := s.arguments, loops := s.loops, hidden := s.hidden
                 flow := if t.flow = .returning then .next else t.flow }
      | none =>
        match name with
        | "cd" => s.cd ws
        | "pwd" => s.add name { output := bytes (s.machine.cwd.text ++ "\n") }
        | "read" => s.read ws
        | "local" => s.localWords ws
        | "umask" => s.add name { output := bytes "0022\n" }
        | "wait" => { s with status := 0, elapsed := max s.elapsed s.beside }
        | "type" => { s with status := 0 }.describe false ws
        | "alias" | "hash" | "jobs" | "ulimit" | "unalias" => { s with status := 0 }
        | "command" =>
          match ws with
          | "-v" :: ws => { s with status := 0 }.describe true (ws.take 1)
          | "-V" :: ws => { s with status := 0 }.describe false (ws.take 1)
          | "-p" :: ws => runNamed fuel s true ws
          | ws => runNamed fuel s true ws
        | "kill" =>
          match State.sent ws with
          | .done status output => s.add name { status, output := bytes output }
          | .fault e => s.complain (some name) (if e = "No such process" then 1 else 2) e
          | .own n =>
            match if n = 9 then none else s.traps.lookup n with
            | some [] => { s with status := 0 }
            | some action => runTrap fuel { s with status := 0 } action
            | none => { s with flow := .stopped n }
        | _ =>
          if ["echo", "printf", "test", "[", "true", "false"].contains name then
            s.add name (s.wordTool name ws)
          else runExternal fuel s false name ws

/-- Run a command by its words. -/
def runWords : Nat → State → List String → State
  | 0, s, _ => { s with flow := .endless }
  | fuel + 1, s, ws => runNamed fuel s false ws

/-- Repeat a loop while its condition says so; `status` is that of the
body's last run. -/
def runLoop : Nat → State → Bool → Nat → Command → Command → State
  | 0, s, _, _, _, _ => { s with flow := .endless }
  | fuel + 1, s, onSuccess, status, condition, body =>
    let c := run fuel { s with asked := true } condition
    let c := { c with asked := s.asked }
    let t := if c.flow = .next ∧ (c.status = 0) = onSuccess then run fuel c body else c
    match t.flow with
    | .next =>
      if (c.status = 0) = onSuccess then runLoop fuel t onSuccess t.status condition body
      else { c with status }
    | .leaving n again =>
      if n > 1 then { t with flow := .leaving (n - 1) again }
      else if again then runLoop fuel { t with flow := .next } onSuccess t.status condition body
      else { t with flow := .next }
    | _ => t

/-- Run a body once for each value of a variable. -/
def runEach : Nat → State → String → List String → Command → State
  | 0, s, _, _, _ => { s with flow := .endless }
  | _ + 1, s, _, [], _ => s
  | fuel + 1, s, name, v :: vs, body =>
    let t := run fuel (s.setVariable name v) body
    match t.flow with
    | .next => runEach fuel t name vs body
    | .leaving n again =>
      if n > 1 then { t with flow := .leaving (n - 1) again }
      else if again then runEach fuel { t with flow := .next } name vs body
      else { t with flow := .next }
    | _ => t

/-- Whether one of several patterns matches. -/
def matchesAny : Nat → State → String → List Word → Bool × State
  | 0, s, _, _ => (false, { s with flow := .endless })
  | _ + 1, s, _, [] => (false, s)
  | fuel + 1, s, subject, w :: ws =>
    let (p, s) := expandText fuel s (s.atHome w)
    if s.flow ≠ .next then (false, s)
    else if matchesPattern p subject then (true, s)
    else matchesAny fuel s subject ws

/-- Run the first arm one of whose patterns matches. -/
def runArms : Nat → State → String → List (List Word × Option Command) → State
  | 0, s, _, _ => { s with flow := .endless }
  | _ + 1, s, _, [] => { s with status := 0 }
  | fuel + 1, s, subject, (ps, body) :: arms =>
    let (hit, s) := matchesAny fuel s subject ps
    if s.flow ≠ .next then s
    else if !hit then runArms fuel s subject arms
    else match body with
      | some c => run fuel s c
      | none => { s with status := 0 }

/-- Run assignments from left to right; `export_` hands them on. -/
def runAssignments (export_ : Bool) : Nat → State → List (String × Word) → State
  | 0, s, _ => { s with flow := .endless }
  | _ + 1, s, [] => s
  | fuel + 1, s, (name, w) :: as =>
    let (value, s) := expandText fuel s (s.atHome w)
    if s.flow ≠ .next then s
    else
      let t := s.setVariable name value.text
      runAssignments export_ fuel (if export_ then t.markExported name else t) as

/-- Run a command by its words, with its assignments and redirections. -/
def runSimple : Nat → State → List (String × Word) → List Word → List Redirection → State
  | 0, s, _, _, _ => { s with flow := .endless }
  | fuel + 1, s, as, ws, rs =>
    let (fields, s) := expandWords fuel { s with substituted := none } ws
    if s.flow ≠ .next then s
    else
      match fields.map Field.text with
      | [] =>
        let (t, good) := redirect fuel s rs
        let t := { t with streams := s.streams, input := s.input }
        if !good then t
        else
          let t := runAssignments false fuel t as
          if t.flow = .next then { t with status := t.substituted.getD 0 } else t
      | ["exec"] =>
        let (t, good) := redirect fuel s rs
        if good then { t with status := 0 } else { t with flow := .ended }
      | name :: words =>
        let special := State.specialCommands.contains name
        let t := runAssignments (!special) fuel s as
        if t.flow ≠ .next then t
        else
          let after :=
            if rs.isEmpty then runWords fuel t (name :: words)
            else runRedirected fuel t rs (.words (name :: words))
          if as.isEmpty || special then after
          else
            let names := as.map (·.1)
            let kept := after.restore (names.map fun n => (n, s.bindings.lookup n))
            { kept with exported := s.exported.filter names.contains ++
                          after.exported.filter (!names.contains ·) }

/-- Run a command; `fuel` bounds how deep commands call one another. -/
def run : Nat → State → Command → State
  | 0, s, _ => { s with flow := .endless }
  | fuel + 1, s, c =>
    match c with
    | .seq a b =>
      let r := run fuel s a
      if r.flow = .next then run fuel r b else r
    | .andThen a b =>
      let r := run fuel { s with asked := true } a
      let r := { r with asked := s.asked }
      if r.flow = .next ∧ r.status = 0 then run fuel r b else r
    | .orElse a b =>
      let r := run fuel { s with asked := true } a
      let r := { r with asked := s.asked }
      if r.flow = .next ∧ r.status ≠ 0 then run fuel r b else r
    | .negate a =>
      let r := run fuel { s with asked := true } a
      let r := { r with asked := s.asked }
      if r.flow = .next then { r with status := if r.status = 0 then 1 else 0 } else r
    | .pipe a b =>
      let left := run fuel s.subshell.capturing a
      let piped := left.captured
      let t := s.joining left
      let right := run fuel { t.subshell with input := some piped, elapsed := s.elapsed } b
      let after := s.afterSubshell right
      let stuck := left.flow = .endless && piped.isEmpty
      { after with
        input := left.input
        elapsed := max left.elapsed right.elapsed
        beside := max left.beside right.beside
        flow := match left.flow with
          | .stopped n => .stopped n
          | _ => if stuck then .endless else after.flow }.checked
    | .background a =>
      let r := run fuel { s.subshell with input := some [] } a
      { s.joining { r with input := s.input } with
        status := 0, elapsed := s.elapsed, beside := max s.beside r.elapsed, company := true }
    | .branch condition body otherwise =>
      let r := run fuel { s with asked := true } condition
      let r := { r with asked := s.asked }
      if r.flow ≠ .next then r
      else if r.status = 0 then run fuel r body
      else match otherwise with
        | some c => run fuel { r with status := 0 } c
        | none => { r with status := 0 }
    | .loop onSuccess condition body =>
      let r := runLoop fuel { s with loops := s.loops + 1 } onSuccess 0 condition body
      { r with loops := s.loops }
    | .forEach name items body =>
      let (fields, s) := expandWords fuel s items
      if s.flow ≠ .next then s
      else
        let r := runEach fuel { s with loops := s.loops + 1, status := 0 } name
          (fields.map Field.text) body
        { r with loops := s.loops }
    | .choose subject arms =>
      let (text, s) := expandText fuel s (s.atHome subject)
      if s.flow ≠ .next then s else runArms fuel s text.text arms
    | .group body rs =>
      if rs.isEmpty then run fuel s body
      else runRedirected fuel s rs (.command body)
    | .subshell body rs =>
      (s.afterSubshell (runRedirected fuel s.subshell rs (.command body))).checked
    | .define name body =>
      { s with functions := (name, body) :: s.functions.filter (·.1 ≠ name), status := 0 }
    | .simple line as ws rs => (runSimple fuel { s with line } as ws rs).checked

end

/-- How deep commands may call one another. -/
def depth : Nat := 10000

end FormatHost.Shell
