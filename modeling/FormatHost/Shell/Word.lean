/-
FormatHost.Shell.Word — the words of a shell script.

Formatters and package managers are commands, and on the machines this
library speaks of a command is a shell script. A script is cut into
tokens: words, operators and line ends. A word keeps what the script
quotes apart from what it does not.

* §1 parts of words and tokens;
* §2 reading the parts of a word: quotes, parameters, substitutions;
* §3 documents: lines of the script that are a command's input;
* §4 the tokens of a script.
-/
import FormatHost.Text

namespace FormatHost.Shell

/-! ## §1 Tokens -/

/-- What is made of a parameter's value. Where a case is about a missing
value, `orEmpty` tells whether the empty value counts as missing. -/
inductive Use
  | value
  | length
  /-- Another text while the value is missing. -/
  | otherwise (orEmpty : Bool) (word : List Char)
  /-- Another text, which is also assigned, while the value is missing. -/
  | assign (orEmpty : Bool) (word : List Char)
  /-- An error while the value is missing. -/
  | require (orEmpty : Bool) (word : List Char)
  /-- Another text unless the value is missing. -/
  | instead (orEmpty : Bool) (word : List Char)
  /-- The value less a match of a pattern at one end. -/
  | trimmed (front longest : Bool) (pattern : List Char)
  | malformed
  deriving Repr, DecidableEq

/-- A part of a word. -/
inductive Part
  /-- Text as it stands. -/
  | text (quoted : Bool) (s : List Char)
  /-- Text that is cut into fields as a value is. -/
  | loose (s : List Char)
  | parameter (quoted : Bool) (name : String) (use : Use)
  /-- The output of a script. -/
  | substitution (quoted : Bool) (script : List Char)
  /-- The value of an expression. -/
  | arithmetic (quoted : Bool) (expression : List Char)
  deriving Repr, DecidableEq

abbrev Word := List Part

/-- The text of a word that nothing in is quoted or replaced. -/
def Word.plain? : Word → Option String
  | [.text false s] => some (String.ofList s)
  | _ => none

/-- What can be open at the end of a script. -/
inductive Unclosed
  | quote
  | bracket
  | brace
  | backquote
  deriving Repr, DecidableEq

inductive Token
  | word (w : Word)
  | op (s : String)
  /-- A stream's number right before a redirection. -/
  | stream (n : Nat)
  | lineEnd
  | broken (unclosed : Unclosed)
  deriving Repr, DecidableEq

/-- A token, and the line on which it ends. -/
structure Lexeme where
  line : Nat
  token : Token
  deriving Repr, DecidableEq

/-! ## §2 Words -/

def isBlank (c : Char) : Bool := c = ' ' || c = '\t'

def isOperatorChar (c : Char) : Bool :=
  c = ';' || c = '&' || c = '|' || c = '(' || c = ')' || c = '<' || c = '>'

/-- Whether a character ends a word. -/
def endsWord (c : Char) : Bool := isBlank c || c = '\n' || isOperatorChar c

def isNameStart (c : Char) : Bool := ('a' ≤ c && c ≤ 'z') || ('A' ≤ c && c ≤ 'Z') || c = '_'

def isNameChar (c : Char) : Bool := isNameStart c || (Text.digit? c).isSome

/-- Whether a text is a name that a variable can have. -/
def isName : List Char → Bool
  | c :: cs => isNameStart c && cs.all isNameChar
  | [] => false

/-- The text up to a character that must come. -/
def readTo (c : Char) (unclosed : Unclosed) (cs : List Char) :
    Except Unclosed (List Char × List Char) :=
  match Text.splitOnce c cs with
  | some found => .ok found
  | none => .error unclosed

/-- The text in single quotes. -/
def readSingle (cs : List Char) : Except Unclosed (List Char × List Char) := readTo '\'' .quote cs

/-- The text up to the bracket that closes `depth` open ones; quotes hide
brackets. -/
def readNested (opening closing : Char) :
    Nat → Nat → List Char → Except Unclosed (List Char × List Char)
  | 0, _, _ => .error .bracket
  | _ + 1, _, [] => .error (if opening = '(' then .bracket else .brace)
  | fuel + 1, depth, '\'' :: cs => do
    let (quoted, rest) ← readSingle cs
    let (more, rest) ← readNested opening closing fuel depth rest
    return ('\'' :: quoted ++ '\'' :: more, rest)
  | fuel + 1, depth, '\\' :: c :: cs => do
    let (more, rest) ← readNested opening closing fuel depth cs
    return ('\\' :: c :: more, rest)
  | fuel + 1, depth, c :: cs => do
    if c = closing ∧ depth = 0 then return ([], cs)
    else
      let depth := if c = opening then depth + 1 else if c = closing then depth - 1 else depth
      let (more, rest) ← readNested opening closing fuel depth cs
      return (c :: more, rest)

def isSpecial (c : Char) : Bool :=
  c = '@' || c = '*' || c = '#' || c = '?' || c = '$' || c = '!' || c = '-'

/-- The name of the parameter at the front: one sign, a number or a name. -/
def parameterName : List Char → List Char
  | c :: cs =>
    if isSpecial c then [c]
    else if (Text.digit? c).isSome then c :: cs.takeWhile fun d => (Text.digit? d).isSome
    else if isNameStart c then c :: cs.takeWhile isNameChar
    else []
  | [] => []

/-- What the text after a parameter's name makes of its value. -/
def useOf : List Char → Use
  | [] => .value
  | ':' :: '-' :: w => .otherwise true w
  | '-' :: w => .otherwise false w
  | ':' :: '=' :: w => .assign true w
  | '=' :: w => .assign false w
  | ':' :: '?' :: w => .require true w
  | '?' :: w => .require false w
  | ':' :: '+' :: w => .instead true w
  | '+' :: w => .instead false w
  | '#' :: '#' :: w => .trimmed true true w
  | '#' :: w => .trimmed true false w
  | '%' :: '%' :: w => .trimmed false true w
  | '%' :: w => .trimmed false false w
  | _ => .malformed

/-- A parameter in braces; a number sign in front of a name asks for the
length of its value. -/
def bracedParameter (quoted : Bool) (inner : List Char) : Part :=
  let plain :=
    let name := parameterName inner
    if name.isEmpty then Part.parameter quoted "" .malformed
    else .parameter quoted (String.ofList name) (useOf (inner.drop name.length))
  match inner with
  | '#' :: rest =>
    if !rest.isEmpty && parameterName rest = rest then
      .parameter quoted (String.ofList rest) .length
    else plain
  | _ => plain

/-- What stands for something after a dollar sign; a dollar sign before
anything else is text. -/
def readDollar (quoted : Bool) (cs : List Char) : Except Unclosed (Part × List Char) := do
  match cs with
  | '(' :: rest =>
    let (script, rest) ← readNested '(' ')' (rest.length + 1) 0 rest
    match script, script.getLast? with
    | '(' :: inner, some ')' => return (.arithmetic quoted inner.dropLast, rest)
    | _, _ => return (.substitution quoted script, rest)
  | '{' :: rest =>
    let (inner, rest) ← readNested '{' '}' (rest.length + 1) 0 rest
    return (bracedParameter quoted inner, rest)
  | c :: rest =>
    if isNameStart c then
      return (.parameter quoted (String.ofList (cs.takeWhile isNameChar)) .value,
        cs.dropWhile isNameChar)
    else if isSpecial c || (Text.digit? c).isSome then
      return (.parameter quoted (String.ofList [c]) .value, rest)
    else return (.text quoted ['$'], cs)
  | [] => return (.text quoted ['$'], [])

/-- How far quoted parts go. -/
inductive Extent
  /-- Up to the closing quote. -/
  | quote
  /-- To the end of a text inside quotes, in which quotes do not count. -/
  | inner
  /-- To the end of a document, in which a quote is text. -/
  | document
  deriving Repr, DecidableEq

/-- The parts of quoted text. -/
def readDouble (extent : Extent) : Nat → List Char → Except Unclosed (List Part × List Char)
  | 0, _ => .error .quote
  | _ + 1, [] => if extent = .quote then .error .quote else .ok ([], [])
  | fuel + 1, '\\' :: c :: rest => do
    let (ps, rest) ← readDouble extent fuel rest
    if c = '\n' then return (ps, rest)
    else if c = '$' ∨ c = '`' ∨ c = '\\' ∨ (c = '"' ∧ extent ≠ .document) then
      return (.text true [c] :: ps, rest)
    else return (.text true ['\\', c] :: ps, rest)
  | fuel + 1, '$' :: rest => do
    let (p, rest) ← readDollar true rest
    let (ps, rest) ← readDouble extent fuel rest
    return (p :: ps, rest)
  | fuel + 1, '`' :: rest => do
    let (script, rest) ← readTo '`' .backquote rest
    let (ps, rest) ← readDouble extent fuel rest
    return (.substitution true script :: ps, rest)
  | fuel + 1, c :: rest => do
    if c = '"' ∧ extent = .quote then return ([], rest)
    else if c = '"' ∧ extent = .inner then readDouble extent fuel rest
    else
      let (ps, rest) ← readDouble extent fuel rest
      return (.text true [c] :: ps, rest)

/-- Put neighbouring texts of one kind together. -/
def joinParts : List Part → List Part
  | .text q s :: ps =>
    match joinParts ps with
    | .text q' s' :: rest =>
      if q = q' then .text q (s ++ s') :: rest else .text q s :: .text q' s' :: rest
    | rest => .text q s :: rest
  | p :: ps => p :: joinParts ps
  | [] => []

/-- The parts of a word at the front, up to a character that ends it. -/
def readParts (ends : Char → Bool) : Nat → List Char → Except Unclosed (List Part × List Char)
  | 0, _ => .error .quote
  | _ + 1, [] => .ok ([], [])
  | fuel + 1, '\'' :: rest => do
    let (s, rest) ← readSingle rest
    let (ps, rest) ← readParts ends fuel rest
    return (.text true s :: ps, rest)
  | fuel + 1, '"' :: rest => do
    let (inner, rest) ← readDouble .quote (rest.length + 1) rest
    let (ps, rest) ← readParts ends fuel rest
    return (.text true [] :: inner ++ ps, rest)
  | fuel + 1, '\\' :: '\n' :: rest => readParts ends fuel rest
  | fuel + 1, '\\' :: c :: rest => do
    let (ps, rest) ← readParts ends fuel rest
    return (.text true [c] :: ps, rest)
  | fuel + 1, '$' :: rest => do
    let (p, rest) ← readDollar false rest
    let (ps, rest) ← readParts ends fuel rest
    return (p :: ps, rest)
  | fuel + 1, '`' :: rest => do
    let (script, rest) ← readTo '`' .backquote rest
    let (ps, rest) ← readParts ends fuel rest
    return (.substitution false script :: ps, rest)
  | fuel + 1, c :: rest => do
    if ends c then return ([], c :: rest)
    else
      let (ps, rest) ← readParts ends fuel rest
      return (.text false [c] :: ps, rest)

/-- Text without quotes, as far as it comes from inside an expansion. -/
def Part.loosened : Part → Part
  | .text false s => .loose s
  | p => p

/-- The parts of the text that an expansion names. -/
def innerParts (quoted : Bool) (cs : List Char) : List Part :=
  if quoted then
    match readDouble .inner (cs.length + 1) cs with
    | .ok (ps, _) => ps
    | .error _ => [.text true cs]
  else
    match readParts (fun _ => false) (cs.length + 1) cs with
    | .ok (ps, _) => (joinParts ps).map Part.loosened
    | .error _ => [.loose cs]

/-- The parts of a document. -/
def documentParts (cs : List Char) : List Part :=
  match readDouble .document (cs.length + 1) cs with
  | .ok (ps, _) => ps
  | .error _ => [.text true cs]

/-! ## §3 Documents -/

/-- The text of a word, and whether any of it was quoted. -/
def delimiter (ps : List Part) : List Char × Bool :=
  (ps.flatMap fun p => match p with | .text _ s => s | _ => [],
    ps.any fun p => match p with | .text false _ => false | _ => true)

/-- A document below the line that asks for it. -/
structure Cut where
  /-- What is left of the script without the document. -/
  script : List Char
  body : List Char
  /-- Lines taken out of the script. -/
  lines : Nat

/-- Cut the document out of the text after its delimiter; `tabs` tells
whether the tabs in front of its lines are dropped. -/
def cutDocument (tabs : Bool) (ending rest : List Char) : Cut :=
  let line := rest.takeWhile (· ≠ '\n')
  let below := Text.splitAll '\n' ((rest.dropWhile (· ≠ '\n')).drop 1)
  let below := if below.getLast? = some [] then below.dropLast else below
  let trim (l : List Char) : List Char := if tabs then l.dropWhile (· = '\t') else l
  let body := (below.map trim).takeWhile (· ≠ ending)
  let after := below.drop (body.length + 1)
  { script := line ++ '\n' :: after.flatMap (· ++ ['\n'])
    body := body.flatMap (· ++ ['\n'])
    lines := min below.length (body.length + 1) }

/-! ## §4 Tokens of a script -/

/-- Operators of more than one character. -/
def longOperators : List (List Char) :=
  ["<<-", "&&", "||", ";;", "<<", ">>", ">&", "<&", ">|", "<>"].map String.toList

/-- The operator at the front. -/
def readOperator (cs : List Char) : String × List Char :=
  match longOperators.find? fun o => o.isPrefixOf cs with
  | some o => (String.ofList o, cs.drop o.length)
  | none => (String.ofList (cs.take 1), cs.drop 1)

def countLines (cs : List Char) : Nat := cs.count '\n'

/-- The tokens of a script from the given line on; `skipped` lines of
documents were cut out below it. -/
def tokens : Nat → Nat → Nat → List Char → List Lexeme
  | 0, _, _, _ => []
  | _ + 1, _, _, [] => []
  | fuel + 1, line, skipped, c :: cs =>
    if isBlank c then tokens fuel line skipped cs
    else if c = '\n' then
      ⟨line + 1 + skipped, .lineEnd⟩ :: tokens fuel (line + 1 + skipped) 0 cs
    else if c = '#' then tokens fuel line skipped (cs.dropWhile (· != '\n'))
    else if c = '\\' ∧ cs.head? = some '\n' then tokens fuel (line + 1) skipped (cs.drop 1)
    else if isOperatorChar c then
      let (o, rest) := readOperator (c :: cs)
      if o = "<<" ∨ o = "<<-" then
        match readParts endsWord (rest.length + 1) (rest.dropWhile isBlank) with
        | .error e => [⟨line, .broken e⟩]
        | .ok (ps, rest) =>
          let (ending, quoted) := delimiter ps
          let cut := cutDocument (o = "<<-") ending rest
          let body := if quoted then [.text true cut.body] else documentParts cut.body
          ⟨line, .op o⟩ :: ⟨line, .word body⟩ ::
            tokens fuel line (skipped + cut.lines) cut.script
      else ⟨line, .op o⟩ :: tokens fuel line skipped rest
    else
      match Text.digit? c, cs with
      | some n, '>' :: _ => ⟨line, .stream n⟩ :: tokens fuel line skipped cs
      | some n, '<' :: _ => ⟨line, .stream n⟩ :: tokens fuel line skipped cs
      | _, _ =>
        match readParts endsWord (cs.length + 2) (c :: cs) with
        | .error .brace => [⟨line, .broken .brace⟩]
        | .error e => [⟨line + countLines cs, .broken e⟩]
        | .ok (ps, rest) =>
          let line := line + (countLines cs - countLines rest)
          ⟨line, .word (joinParts ps)⟩ :: tokens fuel line skipped rest

/-- The tokens of a whole script, which starts on the given line. -/
def lexemes (first : Nat) (script : List Char) : List Lexeme :=
  tokens (script.length + 1) first 0 script

end FormatHost.Shell
