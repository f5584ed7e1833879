/-
FormatHost.Shell.Script — the commands of a shell script.

A script is read line by line: what stands on the lines before one that is
not well-formed is run.

* §1 commands;
* §2 reading tokens, and what is wrong with a script;
* §3 words, redirections and simple commands;
* §4 lists of commands and compound commands;
* §5 whole scripts.
-/
import FormatHost.Shell.Word

namespace FormatHost.Shell

/-! ## §1 Commands -/

/-- Where a stream goes or comes from. -/
inductive Target
  /-- A file that is read. -/
  | source (name : Word)
  /-- A file that is written, from its end on or from scratch. -/
  | file (atEnd : Bool) (name : Word)
  | stream (n : Nat)
  | closed
  /-- Text of the script itself. -/
  | document (text : Word)
  deriving Repr, DecidableEq

structure Redirection where
  /-- The stream that is redirected. -/
  stream : Nat
  target : Target
  deriving Repr, DecidableEq

inductive Command
  /-- A command by its words. The line is that of its first word. -/
  | simple (line : Nat) (assignments : List (String × Word)) (words : List Word)
      (redirections : List Redirection)
  | seq (a b : Command)
  | andThen (a b : Command)
  | orElse (a b : Command)
  | negate (a : Command)
  /-- The output of one command is the input of the other. -/
  | pipe (a b : Command)
  /-- Run beside what follows. -/
  | background (a : Command)
  | branch (condition body : Command) (otherwise : Option Command)
  /-- Repeat while the condition's success equals `onSuccess`. -/
  | loop (onSuccess : Bool) (condition body : Command)
  | forEach (name : String) (items : List Word) (body : Command)
  | choose (subject : Word) (arms : List (List Word × Option Command))
  | group (body : Command) (redirections : List Redirection)
  | subshell (body : Command) (redirections : List Redirection)
  | define (name : String) (body : Command)
  deriving Repr

/-! ## §2 Tokens and errors -/

/-- What is wrong with a script, and where. -/
structure Fault where
  line : Nat
  reason : String
  deriving Repr, DecidableEq

def Fault.message (f : Fault) : String := "Syntax error: " ++ f.reason

/-- The tokens that are left, and the last line of the script. -/
structure Source where
  lexemes : List Lexeme
  lastLine : Nat

abbrev Read (α : Type) := StateT Source (Except Fault) α

/-- Words that have a meaning where a command may start. -/
def keywords : List String :=
  ["!", "case", "do", "done", "elif", "else", "esac", "fi", "for", "if", "in", "then", "until",
    "while", "\x7b", "\x7d"]

def quotedName (s : String) : String := "\"" ++ s ++ "\""

/-- What a token is called in an error; `none` is the end of the script. -/
def tokenName : Option Token → String
  | none => "end of file"
  | some .lineEnd => "newline"
  | some (.stream _) => "redirection"
  | some (.broken _) => "end of file"
  | some (.op o) =>
    if o.startsWith "<" ∨ o.startsWith ">" then "redirection" else quotedName o
  | some (.word w) =>
    match w.plain? with
    | some s => if keywords.contains s then quotedName s else "word"
    | none => "word"

namespace Read

def peek : Read (Option Token) := do return (← get).lexemes.head?.map (·.token)

def skip : Read Unit := modify fun s => { s with lexemes := s.lexemes.drop 1 }

/-- The line of the token at the front. -/
def line : Read Nat := do
  let s ← get
  return (s.lexemes.head?.map (·.line)).getD s.lastLine

def fail {α : Type} (reason : String) : Read α := do throw ⟨← line, reason⟩

def Unclosed.reason : Unclosed → String
  | .quote => "Unterminated quoted string"
  | .bracket => "end of file unexpected (expecting \")\")"
  | .brace => "Missing '\x7d'"
  | .backquote => "EOF in backquote substitution"

/-- The token at the front should not be there. -/
def unexpected {α : Type} (expecting : Option String) : Read α := do
  match ← peek with
  | some (.broken u) => fail (Unclosed.reason u)
  | t =>
    fail (tokenName t ++ " unexpected" ++
      (match expecting with | some e => " (expecting " ++ e ++ ")" | none => ""))

/-- The word at the front, when it is plain text. -/
def peekPlain : Read (Option String) := do
  match ← peek with
  | some (.word w) => return w.plain?
  | _ => return none

def expectOp (o : String) : Read Unit := do
  if (← peek) = some (.op o) then skip else unexpected (some (quotedName o))

def expectKeyword (s : String) : Read Unit := do
  if (← peekPlain) = some s then skip else unexpected (some (quotedName s))

/-- Pass over line ends. -/
def lineEnds : Nat → Read Unit
  | 0 => pure ()
  | fuel + 1 => do
    if (← peek) = some .lineEnd then
      skip
      lineEnds fuel

/-! ## §3 Simple commands -/

/-- The word at the front, where something is expected. -/
def wordOr (expecting : Option String) : Read Word := do
  match ← peek with
  | some (.word w) => skip; return w
  | _ => unexpected expecting

def word : Read Word := wordOr none

def isRedirection : Option Token → Bool
  | some (.stream _) => true
  | some (.op o) => o.startsWith "<" || o.startsWith ">"
  | _ => false

/-- The redirection at the front. -/
def redirection : Read Redirection := do
  let stream? ← match ← peek with
    | some (.stream n) => do skip; pure (some n)
    | _ => pure none
  match ← peek with
  | some (.op o) =>
    skip
    let w ← word
    let stream := stream?.getD (if o.startsWith "<" then 0 else 1)
    let target ←
      if o = ">&" ∨ o = "<&" then
        match w.plain? with
        | some "-" => pure Target.closed
        | some s =>
          match Text.decimal? s.toList with
          | some n => pure (Target.stream n)
          | none => fail "Bad fd number"
        | none => fail "Bad fd number"
      else if o = "<" ∨ o = "<>" then pure (Target.source w)
      else if o = "<<" ∨ o = "<<-" then pure (Target.document w)
      else pure (Target.file (o = ">>") w)
    return ⟨stream, target⟩
  | _ => unexpected none

/-- The redirections at the front. -/
def redirections : Nat → Read (List Redirection)
  | 0 => unexpected none
  | fuel + 1 => do
    if isRedirection (← peek) then
      let r ← redirection
      return r :: (← redirections fuel)
    else return []

/-- The name and value of a word that assigns. -/
def assignment? : Word → Option (String × Word)
  | .text false s :: rest => do
    let (name, value) ← Text.splitOnce '=' s
    if isName name then
      some (String.ofList name, if value.isEmpty then rest else .text false value :: rest)
    else none
  | _ => none

/-- The words and redirections of a simple command. -/
def simpleRest : Nat → Read (List Word × List Redirection)
  | 0 => unexpected none
  | fuel + 1 => do
    if isRedirection (← peek) then
      let r ← redirection
      let (ws, rs) ← simpleRest fuel
      return (ws, r :: rs)
    else
      match ← peek with
      | some (.word w) =>
        skip
        let (ws, rs) ← simpleRest fuel
        return (w :: ws, rs)
      | some (.broken _) => unexpected none
      | _ => return ([], [])

/-- The assignments at the front of a command's words. -/
def splitAssignments : List Word → List (String × Word) × List Word
  | [] => ([], [])
  | w :: ws =>
    match assignment? w with
    | some a =>
      let (as, ws) := splitAssignments ws
      (a :: as, ws)
    | none => ([], w :: ws)

/-- The words up to the end of a list of items. -/
def items : Nat → Read (List Word)
  | 0 => unexpected none
  | fuel + 1 => do
    match ← peek with
    | some (.word w) => skip; return w :: (← items fuel)
    | _ => return []

/-- The patterns of an arm, between bars. -/
def patterns : Nat → Read (List Word)
  | 0 => unexpected none
  | fuel + 1 => do
    let w ← wordOr (some (quotedName ")"))
    if (← peek) = some (.op "|") then
      skip
      return w :: (← patterns fuel)
    else return [w]

/-! ## §4 Lists and compound commands -/

/-- Words that end a list of commands. -/
def closers : List String := ["then", "elif", "else", "fi", "do", "done", "esac", "\x7d"]

/-- Whether a token ends a list of commands. -/
def closes : Option Token → Bool
  | none => true
  | some (.op o) => o = ")" || o = ";;"
  | some (.word w) => w.plain?.any closers.contains
  | _ => false

mutual

/-- Commands up to a token that closes them, of which `closer` is expected;
without one they end at the end of the line. -/
def list (closer : Option String) : Nat → Read Command
  | 0 => unexpected none
  | fuel + 1 => do
    if closer.isSome then
      lineEnds (fuel + 1)
      if (← peek) = none then unexpected (closer.map quotedName)
    let a ← andOr fuel
    let (a, more) ← match ← peek with
      | some (.op ";") => do skip; pure (a, true)
      | some (.op "&") => do skip; pure (Command.background a, true)
      | t => pure (a, closer.isSome && t = some .lineEnd)
    if !more then return a
    else
      if closer.isSome then lineEnds (fuel + 1)
      let t ← peek
      if closes t || t = some .lineEnd then return a
      else return .seq a (← list closer fuel)

/-- Commands joined by `&&` and `||`, from the left. -/
def andOr : Nat → Read Command
  | 0 => unexpected none
  | fuel + 1 => do
    let a ← pipeline fuel
    andOrRest fuel a

def andOrRest : Nat → Command → Read Command
  | 0, _ => unexpected none
  | fuel + 1, a => do
    match ← peek with
    | some (.op "&&") =>
      skip
      lineEnds (fuel + 1)
      let b ← pipeline fuel
      andOrRest fuel (.andThen a b)
    | some (.op "||") =>
      skip
      lineEnds (fuel + 1)
      let b ← pipeline fuel
      andOrRest fuel (.orElse a b)
    | _ => return a

def pipeline : Nat → Read Command
  | 0 => unexpected none
  | fuel + 1 => do
    if (← peekPlain) = some "!" then
      skip
      return .negate (← pipes fuel)
    else pipes fuel

def pipes : Nat → Read Command
  | 0 => unexpected none
  | fuel + 1 => do
    let a ← command fuel
    if (← peek) = some (.op "|") then
      skip
      lineEnds (fuel + 1)
      return .pipe a (← pipes fuel)
    else return a

def command : Nat → Read Command
  | 0 => unexpected none
  | fuel + 1 => do
    match ← peek with
    | some (.op "(") =>
      skip
      let body ← list (some ")") fuel
      expectOp ")"
      return .subshell body (← redirections (fuel + 1))
    | _ =>
      match ← peekPlain with
      | some "\x7b" =>
        skip
        let body ← list (some "\x7d") fuel
        expectKeyword "\x7d"
        return .group body (← redirections (fuel + 1))
      | some "if" =>
        skip
        let c ← branches fuel
        return .group c (← redirections (fuel + 1))
      | some "while" =>
        skip
        let c ← loopBody fuel true
        return .group c (← redirections (fuel + 1))
      | some "until" =>
        skip
        let c ← loopBody fuel false
        return .group c (← redirections (fuel + 1))
      | some "for" =>
        skip
        let c ← forBody fuel
        return .group c (← redirections (fuel + 1))
      | some "case" =>
        skip
        let subject ← wordOr (some "word")
        lineEnds (fuel + 1)
        expectKeyword "in"
        let arms ← arms fuel
        return .group (.choose subject arms) (← redirections (fuel + 1))
      | some s => if keywords.contains s then unexpected none else simple fuel
      | none => simple fuel

/-- A command by its words, or the definition of a function. -/
def simple : Nat → Read Command
  | 0 => unexpected none
  | fuel + 1 => do
    let line ← line
    let (words, rs) ← simpleRest (fuel + 1)
    if words.isEmpty && rs.isEmpty then unexpected none
    let (as, ws) := splitAssignments words
    match ws, as, rs, ← peek with
    | [w], [], [], some (.op "(") =>
      skip
      expectOp ")"
      match w.plain? with
      | some name =>
        if isName name.toList then
          lineEnds (fuel + 1)
          return .define name (← command fuel)
        else fail "Bad function name"
      | none => fail "Bad function name"
    | _, _, _, _ => return .simple line as ws rs

/-- The rest of an `if` after that word. -/
def branches : Nat → Read Command
  | 0 => unexpected none
  | fuel + 1 => do
    let condition ← list (some "then") fuel
    expectKeyword "then"
    let body ← list (some "fi") fuel
    match ← peekPlain with
    | some "elif" => skip; return .branch condition body (some (← branches fuel))
    | some "else" =>
      skip
      let otherwise ← list (some "fi") fuel
      expectKeyword "fi"
      return .branch condition body (some otherwise)
    | _ =>
      expectKeyword "fi"
      return .branch condition body none

def loopBody : Nat → Bool → Read Command
  | 0, _ => unexpected none
  | fuel + 1, onSuccess => do
    let condition ← list (some "do") fuel
    expectKeyword "do"
    let body ← list (some "done") fuel
    expectKeyword "done"
    return .loop onSuccess condition body

/-- The rest of a `for` after that word; without `in` it runs over the
arguments. -/
def forBody : Nat → Read Command
  | 0 => unexpected none
  | fuel + 1 => do
    let name ← match (← peekPlain).filter fun s => isName s.toList with
      | some name => do skip; pure name
      | none => fail "Bad for loop variable"
    lineEnds (fuel + 1)
    let given ←
      if (← peekPlain) = some "in" then do
        skip
        let ws ← items (fuel + 1)
        match ← peek with
        | some (.op ";") => skip
        | some .lineEnd => skip
        | _ => unexpected none
        pure ws
      else do
        if (← peek) = some (.op ";") then skip
        pure [[.parameter true "@" .value]]
    lineEnds (fuel + 1)
    expectKeyword "do"
    let body ← list (some "done") fuel
    expectKeyword "done"
    return .forEach name given body

/-- The arms of a `case`, up to its end. -/
def arms : Nat → Read (List (List Word × Option Command))
  | 0 => unexpected none
  | fuel + 1 => do
    lineEnds (fuel + 1)
    if (← peekPlain) = some "esac" then
      skip
      return []
    else
      if (← peek) = some (.op "(") then skip
      let ps ← patterns (fuel + 1)
      expectOp ")"
      lineEnds (fuel + 1)
      let t ← peek
      let body ← if closes t then pure none else do pure (some (← list (some ";;") fuel))
      if (← peek) = some (.op ";;") then skip
      else if (← peekPlain) ≠ some "esac" then unexpected (some (quotedName ";;"))
      return (ps, body) :: (← arms fuel)

end

end Read

/-! ## §5 Scripts -/

/-- Commands line by line, and what is wrong with the line after them. -/
structure Script where
  commands : List Command
  fault : Option Fault
  deriving Repr

/-- The lines of a script; `limit` bounds how deep commands nest. -/
def readLines (limit : Nat) : Nat → Source → Script
  | 0, _ => ⟨[], none⟩
  | fuel + 1, s =>
    match s.lexemes with
    | [] => ⟨[], none⟩
    | ⟨_, .lineEnd⟩ :: rest => readLines limit fuel { s with lexemes := rest }
    | _ =>
      match (do
          let c ← Read.list none limit
          match ← Read.peek with
          | none => pure c
          | some .lineEnd => pure c
          | _ => Read.unexpected none : Read Command).run s with
      | .error f => ⟨[], some f⟩
      | .ok (c, s) =>
        let more := readLines limit fuel s
        { more with commands := c :: more.commands }

/-- The commands of a script that starts on the given line. -/
def Script.read (first : Nat) (script : List Char) : Script :=
  let ts := lexemes first script
  readLines (4 * ts.length + 8) (ts.length + 1)
    { lexemes := ts, lastLine := first + countLines script }

end FormatHost.Shell
