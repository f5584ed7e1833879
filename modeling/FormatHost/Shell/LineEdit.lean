/-
FormatHost.Shell.LineEdit — editing and choosing lines.

`sed` runs a short script on each line of its input, `grep` writes the
lines in which an expression occurs.

* §1 addresses and commands;
* §2 reading an editing script;
* §3 substitution;
* §4 editing lines;
* §5 `sed` and `grep`.
-/
import FormatHost.Shell.Regular
import FormatHost.Shell.Tool

namespace FormatHost.Shell.LineEdit

/-! ## §1 Commands -/

/-- Bytes as characters of the same number. -/
def byteChars (bs : List UInt8) : List Char := bs.map fun b => Char.ofNat b.toNat

def ofByteChars (cs : List Char) : List UInt8 := cs.map fun c => UInt8.ofNat c.toNat

/-- Which lines a command is for. -/
inductive Address
  | line (n : Nat)
  | last
  | holding (r : Regular)
  deriving Repr, DecidableEq

/-- A piece of what replaces a match. -/
inductive Piece
  | text (cs : List Char)
  /-- What a group has matched; group zero is the whole match. -/
  | group (n : Nat)
  deriving Repr, DecidableEq

inductive Action
  | substitute (r : Regular) (pieces : List Piece) (all : Bool) (nth : Nat) (write : Bool)
  | exchange (source target : List Char)
  | write
  /-- Write the line's number. -/
  | number
  | delete
  | quit
  deriving Repr, DecidableEq

structure Command where
  start : Option Address := none
  stop : Option Address := none
  /-- Whether the command is for the other lines. -/
  negated : Bool := false
  action : Action
  deriving Repr, DecidableEq

/-! ## §2 Reading -/

/-- The text up to a delimiter; after a backslash it is text, without that
backslash. -/
def upTo (delimiter : Char) : List Char → Option (List Char × List Char)
  | [] => none
  | '\\' :: c :: rest => do
    let (text, rest) ← upTo delimiter rest
    some (if c = delimiter then (c :: text, rest) else ('\\' :: c :: text, rest))
  | c :: rest =>
    if c = delimiter then some ([], rest)
    else do
      let (text, rest) ← upTo delimiter rest
      some (c :: text, rest)

/-- The pieces of a replacement. -/
def pieces : List Char → List Piece
  | [] => []
  | '&' :: rest => .group 0 :: pieces rest
  | '\\' :: c :: rest =>
    (if c.isDigit then Piece.group (c.toNat - '0'.toNat)
    else if c = 'n' then .text ['\n']
    else if c = 't' then .text ['\t']
    else .text [c]) :: pieces rest
  | c :: rest => .text [c] :: pieces rest

/-- The address at the front. -/
def address (extended : Bool) (cs : List Char) : Option (Option Address × List Char) :=
  match cs with
  | '$' :: rest => some (some .last, rest)
  | '/' :: rest => do
    let (text, rest) ← upTo '/' rest
    some (some (.holding (← Regular.read? extended text)), rest)
  | _ =>
    let ds := cs.takeWhile Char.isDigit
    if ds.isEmpty then some (none, cs)
    else do some (some (.line (← Text.decimal? ds)), cs.drop ds.length)

def isFlag (c : Char) : Bool := c = 'g' || c = 'p' || c = 'I' || c = 'i' || c.isDigit

/-- The action at the front. -/
def action (extended : Bool) (cs : List Char) : Option (Action × List Char) :=
  match cs with
  | 'p' :: rest => some (.write, rest)
  | '=' :: rest => some (.number, rest)
  | 'd' :: rest => some (.delete, rest)
  | 'q' :: rest => some (.quit, rest)
  | 's' :: d :: rest => do
    let (text, rest) ← upTo d rest
    let (replacement, rest) ← upTo d rest
    let flags := rest.takeWhile isFlag
    let nth := (Text.decimal? (flags.filter Char.isDigit)).getD 1
    let r ← Regular.read? extended text
    let r := if flags.contains 'I' || flags.contains 'i' then r.caseless else r
    some (.substitute r (pieces replacement)
      (flags.contains 'g') nth (flags.contains 'p'), rest.drop flags.length)
  | 'y' :: d :: rest => do
    let (source, rest) ← upTo d rest
    let (target, rest) ← upTo d rest
    if source.length = target.length then some (.exchange source target, rest) else none
  | _ => none

def isGap (c : Char) : Bool := Text.isBlank c || c = ';'

/-- The commands of an editing script. -/
def readCommands (extended : Bool) : Nat → List Char → Option (List Command)
  | 0, _ => none
  | fuel + 1, cs => do
    match cs.dropWhile isGap with
    | [] => some []
    | cs =>
      let (start, rest) ← address extended cs
      let (stop, rest) ← match rest with
        | ',' :: rest => address extended rest
        | _ => some (none, rest)
      let rest := rest.dropWhile Text.isBlank
      let negated := rest.head? = some '!'
      let (action, rest) ← action extended (if negated then rest.drop 1 else rest)
      let after := rest.dropWhile fun c => c = ' ' || c = '\t'
      if after.isEmpty ∨ after.head?.any isGap then
        some (⟨start, stop, negated, action⟩ :: (← readCommands extended fuel after))
      else none

/-! ## §3 Substitution -/

def fill (ps : List Piece) (f : Regular.Found) : List Char :=
  ps.flatMap fun p => match p with
    | .text cs => cs
    | .group 0 => f.text
    | .group n => (f.groups.lookup n).getD []

/-- Replace the matches from the `nth` on, or only that one; the number of
matches replaced comes with the text. -/
def substitute (r : Regular) (ps : List Piece) (all : Bool) :
    Nat → Nat → Option Char → List Char → List Char × Nat
  | 0, _, _, cs => (cs, 0)
  | fuel + 1, nth, previous, cs =>
    match Regular.find? r previous [] cs with
    | none => (cs, 0)
    | some f =>
      let replaced := nth ≤ 1
      let own := if replaced then fill ps f else f.text
      if replaced && !all then (f.before ++ own ++ f.after, 1)
      else
        -- after an empty match, the next character stays
        let (kept, rest) := if f.text.isEmpty then (f.after.take 1, f.after.drop 1)
          else ([], f.after)
        if f.text.isEmpty && f.after.isEmpty then (f.before ++ own, if replaced then 1 else 0)
        else
          let last := (f.before ++ f.text ++ kept).getLast? <|> previous
          let (more, n) := substitute r ps all fuel (nth - 1) last rest
          (f.before ++ own ++ kept ++ more, n + if replaced then 1 else 0)

def exchange (source target : List Char) (c : Char) : Char :=
  match source.idxOf? c with
  | some i => (target[i]?).getD c
  | none => c

/-! ## §4 Editing -/

/-- What editing a line gives. -/
structure Edited where
  line : List Char
  written : List (List Char) := []
  deleted : Bool := false
  quit : Bool := false
  deriving Repr, DecidableEq

def atAddress (n : Nat) (isLast : Bool) (line : List Char) : Address → Bool
  | .line m => n = m
  | .last => isLast
  | .holding r => Regular.occurs r line

/-- Whether a command is for a line, and whether its range goes on. -/
def applies (c : Command) (inside : Bool) (n : Nat) (isLast : Bool) (line : List Char) :
    Bool × Bool :=
  match c.start, c.stop with
  | none, _ => (true, false)
  | some a, none => (atAddress n isLast line a, false)
  | some a, some b =>
    if inside then (true, !atAddress n isLast line b)
    else if atAddress n isLast line a then
      (true, match b with | .line m => n < m | _ => true)
    else (false, false)

def act (n : Nat) (e : Edited) : Action → Edited
  | .substitute r ps all nth write =>
    let (line, count) := substitute r ps all (e.line.length + 2) nth none e.line
    { e with line, written := if write && count > 0 then e.written ++ [line] else e.written }
  | .exchange source target => { e with line := e.line.map (exchange source target) }
  | .write => { e with written := e.written ++ [e.line] }
  | .number => { e with written := e.written ++ [(toString n).toList] }
  | .delete => { e with deleted := true }
  | .quit => { e with quit := true }

/-- Run commands on a line; the ranges that go on come with the result. -/
def runCommands (n : Nat) (isLast : Bool) : List (Command × Bool) → Edited → Edited × List Bool
  | [], e => (e, [])
  | (c, inside) :: rest, e =>
    let (own, goesOn) := applies c inside n isLast e.line
    let e := if own != c.negated then act n e c.action else e
    if e.deleted || e.quit then (e, goesOn :: rest.map (·.2))
    else
      let (e, more) := runCommands n isLast rest e
      (e, goesOn :: more)

/-- Run commands on all lines. -/
def runLines (quiet : Bool) : List (Command × Bool) → Nat → List (List UInt8) → List UInt8
  | _, _, [] => []
  | cs, n, line :: rest =>
    let (e, ranges) := runCommands n rest.isEmpty cs { line := byteChars (Tool.content line) }
    let ended := line.getLast? = some Tool.lineEnd
    let copies := e.written ++ (if quiet || e.deleted then [] else [e.line])
    let out := ((copies.map ofByteChars).intersperse [Tool.lineEnd]).flatten ++
      (if ended && !copies.isEmpty then [Tool.lineEnd] else [])
    if e.quit then out else out ++ runLines quiet ((cs.map (·.1)).zip ranges) (n + 1) rest

/-! ## §5 Tools -/

def sed (m : Machine) (ws : List String) (input : List UInt8) : Written :=
  let o := Tool.Options.read ['e'] ws
  let extended := o.has 'E' || o.has 'r'
  let given := (o.options.filter (·.1 = 'e')).map (·.2)
  let (script, files) := if given.isEmpty then (o.operands.headD "", o.operands.drop 1)
    else ("\n".intercalate given, o.operands)
  let cs := byteChars (bytes script)
  match readCommands extended (cs.length + 1) cs with
  | some commands =>
    (Tool.given m "sed" input files).map fun text =>
      runLines (o.has 'n') (commands.map fun c => (c, false)) 1 (Tool.lines text)
  | none => failure 1 ("sed: -e expression #1, char " ++ toString script.length ++
      ": unterminated command")

def grep (m : Machine) (ws : List String) (input : List UInt8) : Written :=
  let o := Tool.Options.read ['e', 'm'] ws
  let (pattern, files) := match o.value? 'e' with
    | some p => (p, o.operands)
    | none => (o.operands.headD "", o.operands.drop 1)
  let pattern := byteChars (bytes pattern)
  let r? := if o.has 'F' then some (pattern.foldr (fun c r => .seq (.char c) r) .empty)
    else Regular.read? (o.has 'E') pattern
  match r? with
  | none => failure 2 "grep: Invalid regular expression"
  | some r =>
    let r := if o.has 'i' then r.caseless else r
    let r := if o.has 'x' then .seq .start (.seq (.group 0 r) .finish) else r
    let given := Tool.given m "grep" input files
    let chosen := ((Tool.lines given.text).zipIdx 1).filter fun (line, _) =>
      Regular.occurs r (byteChars (Tool.content line)) != o.has 'v'
    let out :=
      if o.has 'q' then []
      else if o.has 'c' then bytes (toString chosen.length ++ "\n")
      else chosen.flatMap fun (line, n) =>
        let number := if o.has 'n' then bytes (toString n ++ ":") else []
        let content := Tool.content line
        let shown := if o.has 'o' && !o.has 'v' then
            (Regular.findAll r (content.length + 1) none (byteChars content)).map ofByteChars
          else [content]
        shown.flatMap fun text => number ++ text ++ [Tool.lineEnd]
    { given.map (fun _ => out) with
      status := if !given.faults.isEmpty then 2 else if chosen.isEmpty then 1 else 0 }

end FormatHost.Shell.LineEdit
