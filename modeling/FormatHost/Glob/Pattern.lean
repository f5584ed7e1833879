/-
FormatHost.Glob.Pattern — patterns and how they are read.

A pattern is a list of tokens: characters, `?`, `*`, `**` between
slashes, classes in brackets and alternatives in braces.

* §1 tokens;
* §2 errors and their texts;
* §3 classes: a bracket, an optional `!` or `^`, then characters and
  ranges up to the next bracket that is not the first character;
* §4 the reader. `**` is special only as a whole component; a comma is
  special only inside braces; a backslash makes the next character
  literal.
-/
import FormatHost.Text

namespace FormatHost.Glob

/-! ## §1 Tokens -/

inductive Token
  | literal (c : Char)
  /-- `?` -/
  | any
  /-- `*` -/
  | zeroOrMore
  /-- `**` and a slash at the front: any leading directories, or none. -/
  | recursiveFront
  /-- A slash and `**` at the end: everything below. -/
  | recursiveEnd
  /-- A slash, `**` and a slash: any directories between, or none. -/
  | recursiveMiddle
  | set (negated : Bool) (ranges : List (Char × Char))
  | alternatives (branches : List (List Token))
  deriving Repr, Inhabited

/-! ## §2 Errors -/

inductive Problem
  | unclosedClass
  | invalidRange (first last : Char)
  | unopenedAlternatives
  | unclosedAlternatives
  | danglingEscape
  deriving Repr, DecidableEq

def Problem.message : Problem → String
  | .unclosedClass => "unclosed character class; missing ']'"
  | .invalidRange a b =>
    "invalid range; '" ++ String.singleton a ++ "' > '" ++ String.singleton b ++ "'"
  | .unopenedAlternatives =>
    "unopened alternate group; missing '\x7b' (maybe escape '\x7d' with '[\x7d]'?)"
  | .unclosedAlternatives =>
    "unclosed alternate group; missing '\x7d' (maybe escape '\x7b' with '[\x7b]'?)"
  | .danglingEscape => "dangling '\\'"

/-- A pattern that cannot be read, and why. -/
structure Error where
  glob : String
  problem : Problem
  deriving Repr, DecidableEq

def Error.message (e : Error) : String :=
  "error parsing glob '" ++ e.glob ++ "': " ++ e.problem.message

/-! ## §3 Classes -/

/-- The end of the last range becomes `c`. -/
def closeRange (ranges : List (Char × Char)) (c : Char) :
    Except Problem (List (Char × Char)) :=
  match ranges with
  | (a, _) :: rest => if c < a then .error (.invalidRange a c) else .ok ((a, c) :: rest)
  | [] => .ok [(c, c)]

/-- The ranges of a class, last first, after its opening bracket and sign;
`taken` counts the characters read, the closing bracket included. -/
def readRanges (taken : Nat) (first inRange : Bool) (ranges : List (Char × Char)) :
    List Char → Except Problem (Option (List (Char × Char) × Nat))
  | [] => .ok none
  | ']' :: rest =>
    if first then readRanges (taken + 1) false inRange ((']', ']') :: ranges) rest
    else .ok (some (if inRange then ('-', '-') :: ranges else ranges, taken + 1))
  | '-' :: rest =>
    if first then readRanges (taken + 1) false inRange (('-', '-') :: ranges) rest
    else if inRange then do
      let ranges ← closeRange ranges '-'
      readRanges (taken + 1) false false ranges rest
    else readRanges (taken + 1) false true ranges rest
  | c :: rest =>
    if inRange then do
      let ranges ← closeRange ranges c
      readRanges (taken + 1) false false ranges rest
    else readRanges (taken + 1) false false ((c, c) :: ranges) rest

/-- A class after its opening bracket: the token, and the number of
characters read; nothing when the bracket is never closed. -/
def readClass (cs : List Char) : Except Problem (Option (Token × Nat)) := do
  let (negated, sign) := match cs with
    | '!' :: _ => (true, 1)
    | '^' :: _ => (true, 1)
    | _ => (false, 0)
  match ← readRanges sign true false [] (cs.drop sign) with
  | some (ranges, taken) => pure (some (.set negated ranges.reverse, taken))
  | none => pure none

/-! ## §4 The reader -/

/-- How patterns are read and matched. -/
structure Dialect where
  /-- Whether `*`, `?` and alternatives of them stop at a slash. -/
  literalSeparator : Bool := false
  /-- Whether a bracket that is never closed stands for itself. -/
  unclosedClass : Bool := false
  deriving Repr, DecidableEq

/-- What has been read: the tokens of the innermost branch, last first,
and for each open brace the branches before that one and the tokens
around the brace. -/
structure Reading where
  tokens : List Token := []
  opened : List (List (List Token) × List Token) := []

namespace Reading

def push (r : Reading) (t : Token) : Reading := { r with tokens := t :: r.tokens }

def inBraces (r : Reading) : Bool := !r.opened.isEmpty

/-- After `**`: what it stands for, given the character before it and the
characters after it, and how many of those belong to it. -/
def recursion (r : Reading) (before : Option Char) (after : List Char) : Reading × Nat :=
  let plain := ((r.push .zeroOrMore).push .zeroOrMore, 0)
  if r.tokens.isEmpty then
    match after with
    | [] => (r.push .recursiveFront, 0)
    | '/' :: _ => (r.push .recursiveFront, 1)
    | _ => plain
  else if before ≠ some '/' ∧ (!r.inBraces ∨ (before ≠ some ',' ∧ before ≠ some '\x7b')) then plain
  else
    let replaceLast (t : Token) : Reading :=
      match r.tokens with
      | .recursiveFront :: _ => r
      | .recursiveEnd :: _ => r
      | _ :: rest => { r with tokens := t :: rest }
      | [] => r.push t
    match after with
    | [] => (replaceLast .recursiveEnd, 0)
    | '/' :: _ => (replaceLast .recursiveMiddle, 1)
    | ',' :: _ => if r.inBraces then (replaceLast .recursiveEnd, 0) else plain
    | '\x7d' :: _ => if r.inBraces then (replaceLast .recursiveEnd, 0) else plain
    | _ => plain

end Reading

/-- Read the characters after `before`. `literalBracket` says that an
unclosed bracket has been met, so that further ones stand for themselves. -/
def readTokens (dialect : Dialect) (literalBracket : Bool) (before : Option Char) (r : Reading) :
    List Char → Except Problem Reading
  | [] => .ok r
  | '?' :: rest => readTokens dialect literalBracket (some '?') (r.push .any) rest
  | '*' :: rest =>
    match rest with
    | '*' :: rest =>
      let (r, n) := r.recursion before rest
      readTokens dialect literalBracket (if n = 0 then some '*' else some '/') r (rest.drop n)
    | rest => readTokens dialect literalBracket (some '*') (r.push .zeroOrMore) rest
  | '[' :: rest =>
    if literalBracket then readTokens dialect true (some '[') (r.push (.literal '[')) rest
    else
      match readClass rest with
      | .error e => .error e
      | .ok (some (t, n)) => readTokens dialect false (some ']') (r.push t) (rest.drop n)
      | .ok none =>
        if dialect.unclosedClass then
          readTokens dialect true (some '[') (r.push (.literal '[')) rest
        else .error .unclosedClass
  | '\x7b' :: rest =>
    readTokens dialect literalBracket (some '\x7b') ⟨[], ([], r.tokens) :: r.opened⟩ rest
  | '\x7d' :: rest =>
    match r.opened with
    | [] => .error .unopenedAlternatives
    | (branches, around) :: opened =>
      let t := Token.alternatives (r.tokens.reverse :: branches).reverse
      readTokens dialect literalBracket (some '\x7d') ⟨t :: around, opened⟩ rest
  | ',' :: rest =>
    match r.opened with
    | [] => readTokens dialect literalBracket (some ',') (r.push (.literal ',')) rest
    | (branches, around) :: opened =>
      readTokens dialect literalBracket (some ',')
        ⟨[], (r.tokens.reverse :: branches, around) :: opened⟩ rest
  | '\\' :: rest =>
    match rest with
    | [] => .error .danglingEscape
    | c :: rest => readTokens dialect literalBracket (some c) (r.push (.literal c)) rest
  | c :: rest => readTokens dialect literalBracket (some c) (r.push (.literal c)) rest
termination_by cs => cs.length
decreasing_by all_goals simp_all <;> omega

/-- The tokens of a pattern. -/
def parseTokens (dialect : Dialect) (pattern : String) : Except Error (List Token) :=
  match readTokens dialect false none {} pattern.toList with
  | .error e => .error ⟨pattern, e⟩
  | .ok r =>
    if r.inBraces then .error ⟨pattern, .unclosedAlternatives⟩ else .ok r.tokens.reverse

end FormatHost.Glob
