/-
FormatHost.Shell.Regular — regular expressions of line editors.

Expressions come in two spellings. In the basic one brackets and braces
that group have a backslash, in the extended one those that do not. Texts
are rows of characters that stand for bytes.

* §1 expressions;
* §2 marks: what the characters of an expression mean;
* §3 reading;
* §4 matching: all the ways an expression matches at a spot, preferred
  ones first;
* §5 finding the first, longest match.
-/
import FormatHost.Shell.Pattern

namespace FormatHost.Shell

/-! ## §1 Expressions -/

inductive Regular
  | empty
  | char (c : Char)
  | any
  /-- One of the listed characters, or none of them. -/
  | set (negated : Bool) (listed : List Char)
  | start
  | finish
  /-- A place where a word starts or ends. -/
  | edge (atStart atEnd : Bool)
  | seq (a b : Regular)
  | either (a b : Regular)
  | group (n : Nat) (a : Regular)
  /-- What a group has matched. -/
  | again (n : Nat)
  | many (a : Regular) (least : Nat) (most : Option Nat)
  deriving Repr, DecidableEq

namespace Regular

/-- The expression that does not tell capitals from small letters. -/
def caseless : Regular → Regular
  | .char c => .set false [Text.lowerAscii c, Text.upperAscii c]
  | .set negated listed =>
    .set negated (listed ++ listed.map Text.lowerAscii ++ listed.map Text.upperAscii)
  | .seq a b => .seq a.caseless b.caseless
  | .either a b => .either a.caseless b.caseless
  | .group n a => .group n a.caseless
  | .many a least most => .many a.caseless least most
  | r => r

/-- How deep matching an expression can go besides the length of a text. -/
def depth : Regular → Nat
  | .seq a b => a.depth + b.depth + 1
  | .either a b => a.depth + b.depth + 1
  | .group _ a => a.depth + 1
  | .many a least _ => a.depth + least + 1
  | _ => 1

/-! ## §2 Marks -/

inductive Mark
  | one (r : Regular)
  | times (least : Nat) (most : Option Nat)
  | opening
  | closing
  | bar
  deriving Repr, DecidableEq

/-- The character of an escape that names one. -/
def escaped (c : Char) : Regular :=
  match c with
  | 'n' => .char '\n'
  | 't' => .char '\t'
  | 'w' => .set false "[:alnum:]_".toList
  | 'W' => .set true "[:alnum:]_".toList
  | 's' => .set false "[:space:]".toList
  | 'S' => .set true "[:space:]".toList
  | 'b' => .edge true true
  | '<' => .edge true false
  | '>' => .edge false true
  | _ => if c.isDigit ∧ c ≠ '0' then .again (c.toNat - '0'.toNat) else .char c

/-- The bounds in braces, and what follows the closing one. -/
def bounds? (extended : Bool) (cs : List Char) : Option (Mark × List Char) := do
  let inner := cs.takeWhile fun c => c.isDigit || c = ','
  let rest ← match extended, cs.drop inner.length with
    | true, '}' :: rest => some rest
    | false, '\\' :: '}' :: rest => some rest
    | _, _ => none
  match Text.splitOnce ',' inner with
  | some (a, []) => some (.times ((Text.decimal? a).getD 0) none, rest)
  | some (a, b) => some (.times ((Text.decimal? a).getD 0) (some (← Text.decimal? b)), rest)
  | none => do
    let n ← Text.decimal? inner
    some (.times n (some n), rest)

/-- The mark that a sign stands for where it has its meaning. -/
def sign? : Char → Option Mark
  | '(' => some .opening
  | ')' => some .closing
  | '|' => some .bar
  | '+' => some (.times 1 none)
  | '?' => some (.times 0 (some 1))
  | _ => none

/-- Whether an expression ends here, or one of several does. -/
def atEnd (extended : Bool) : List Char → Bool
  | [] => true
  | ')' :: _ => extended
  | '|' :: _ => extended
  | '\\' :: c :: _ => !extended && (c = ')' || c = '|')
  | _ => false

/-- The marks of an expression; `front` tells whether it starts here. -/
def marks (extended : Bool) : Nat → Bool → List Char → Option (List Mark)
  | 0, _, _ => none
  | _ + 1, _, [] => some []
  | fuel + 1, front, c :: cs => do
    let go (m : Mark) (rest : List Char) : Option (List Mark) := do
      return m :: (← marks extended fuel (m = .opening || m = .bar) rest)
    match c with
    | '\\' =>
      match cs with
      | [] => none
      | d :: rest =>
        if extended then go (.one (escaped d)) rest
        else if d = '{' then
          let (m, rest) ← bounds? false rest
          go m rest
        else
          match sign? d with
          | some m => go m rest
          | none => go (.one (escaped d)) rest
    | '.' => go (.one .any) cs
    | '[' =>
      match brackets? cs with
      | some (negated, listed, taken) => go (.one (.set negated listed)) (cs.drop taken)
      | none => none
    | '*' => if front then go (.one (.char '*')) cs else go (.times 0 none) cs
    | '^' =>
      if front || extended then (marks extended fuel true cs).map (.one .start :: ·)
      else go (.one (.char '^')) cs
    | '$' => go (.one (if atEnd extended cs || extended then .finish else .char '$')) cs
    | '{' =>
      if extended then
        match bounds? true cs with
        | some (m, rest) => go m rest
        | none => go (.one (.char '{')) cs
      else go (.one (.char '{')) cs
    | _ =>
      match (if extended then sign? c else none) with
      | some m => go m cs
      | none => go (.one (.char c)) cs

/-! ## §3 Reading -/

/-- An expression, how many groups have started, and what follows it. -/
abbrev Parsed := Option (Regular × Nat × List Mark)

mutual

/-- Expressions between bars; `groups` have started before. -/
def readEither : Nat → Nat → List Mark → Parsed
  | 0, _, _ => none
  | fuel + 1, groups, ms => do
    let (a, groups, rest) ← readSeq fuel groups ms
    match rest with
    | .bar :: rest =>
      let (b, groups, rest) ← readEither fuel groups rest
      return (.either a b, groups, rest)
    | _ => return (a, groups, rest)

def readSeq : Nat → Nat → List Mark → Parsed
  | 0, _, _ => none
  | fuel + 1, groups, ms => do
    match ms with
    | .one r :: rest =>
      let (a, rest) := readTimes r rest
      let (b, groups, rest) ← readSeq fuel groups rest
      return (.seq a b, groups, rest)
    | .opening :: rest =>
      let (a, inner, rest) ← readEither fuel (groups + 1) rest
      match rest with
      | .closing :: rest =>
        let (a, rest) := readTimes (.group (groups + 1) a) rest
        let (b, groups, rest) ← readSeq fuel inner rest
        return (.seq a b, groups, rest)
      | _ => none
    | .times .. :: _ => none
    | _ => return (.empty, groups, ms)

/-- An expression with the repetitions after it. -/
def readTimes : Regular → List Mark → Regular × List Mark
  | r, .times least most :: rest => readTimes (.many r least most) rest
  | r, ms => (r, ms)

end

/-- The expression of a text. -/
def read? (extended : Bool) (cs : List Char) : Option Regular := do
  let ms ← marks extended (cs.length + 1) true cs
  let (r, _, rest) ← readEither (2 * ms.length + 2) 0 ms
  if rest.isEmpty then some r else none

/-! ## §4 Matching -/

/-- A spot in a text. -/
structure Spot where
  /-- The character before it; none at the start of the text. -/
  previous : Option Char
  rest : List Char
  /-- What groups have matched, last first. -/
  groups : List (Nat × List Char) := []
  deriving Repr, DecidableEq

/-- The spot after a character. -/
def Spot.next (s : Spot) (c : Char) (rest : List Char) : Spot := { s with previous := some c, rest }

def isWordChar (c : Char) : Bool := c.isAlphanum || c = '_'

/-- The spots after the matches of an expression. -/
def spots : Nat → Regular → Spot → List Spot
  | 0, _, _ => []
  | fuel + 1, r, s =>
    match r with
    | .empty => [s]
    | .char c =>
      match s.rest with
      | d :: rest => if c = d then [s.next d rest] else []
      | [] => []
    | .any =>
      match s.rest with
      | d :: rest => [s.next d rest]
      | [] => []
    | .set negated listed =>
      match s.rest with
      | d :: rest =>
        if inBrackets d (listed.length + 1) listed != negated then [s.next d rest] else []
      | [] => []
    | .start => if s.previous.isNone then [s] else []
    | .finish => if s.rest.isEmpty then [s] else []
    | .edge atStart atEnd =>
      let before := s.previous.any isWordChar
      let after := s.rest.head?.any isWordChar
      if (atStart && !before && after) || (atEnd && before && !after) then [s] else []
    | .seq a b => (spots fuel a s).flatMap (spots fuel b)
    | .either a b => spots fuel a s ++ spots fuel b s
    | .group n a => (spots fuel a s).map fun t =>
        { t with groups := (n, s.rest.take (s.rest.length - t.rest.length)) :: t.groups }
    | .again n =>
      let own := (s.groups.lookup n).getD []
      match Text.stripFront own s.rest with
      | some rest => [{ s with previous := own.getLast? <|> s.previous, rest }]
      | none => []
    | .many a least most =>
      let more :=
        if most = some 0 then []
        else
          ((spots fuel a s).filter fun t => t.rest.length < s.rest.length || least > 0).flatMap
            (spots fuel (.many a (least - 1) (most.map (· - 1))))
      if least = 0 then more ++ [s] else more

/-! ## §5 Finding -/

/-- A match: the text before it, the matched text, what its groups have
matched, and the text after it. -/
structure Found where
  before : List Char
  text : List Char
  groups : List (Nat × List Char)
  after : List Char
  deriving Repr, DecidableEq

/-- The longest match at a spot, the first of equals. -/
def longest (r : Regular) (s : Spot) : Option Spot :=
  (spots (4 * (r.depth + s.rest.length) + 4) r s).foldl
    (fun best t =>
      match best with
      | some b => if t.rest.length < b.rest.length then some t else best
      | none => some t)
    none

/-- The first match after the character `previous`; `passed` is the text
before it that was looked at, last character first. -/
def find? (r : Regular) (previous : Option Char) (passed : List Char) : List Char → Option Found
  | [] => (longest r { previous, rest := [] }).map fun t => ⟨passed.reverse, [], t.groups, []⟩
  | c :: cs =>
    match longest r { previous, rest := c :: cs } with
    | some t =>
      some ⟨passed.reverse, (c :: cs).take (cs.length + 1 - t.rest.length), t.groups, t.rest⟩
    | none => find? r (some c) (c :: passed) cs

/-- Whether an expression matches somewhere in a text. -/
def occurs (r : Regular) (cs : List Char) : Bool := (find? r none [] cs).isSome

/-- The matches in a text, none of them empty. -/
def findAll (r : Regular) : Nat → Option Char → List Char → List (List Char)
  | 0, _, _ => []
  | fuel + 1, previous, cs =>
    match find? r previous [] cs with
    | none => []
    | some f =>
      if f.text.isEmpty then
        match f.after with
        | c :: rest => findAll r fuel (some c) rest
        | [] => []
      else f.text :: findAll r fuel (f.text.getLast? <|> previous) f.after

end Regular
end FormatHost.Shell
