/-
FormatHost.Shell.Pattern — fields and patterns.

* §1 fields: texts whose characters know whether they were quoted;
* §2 building fields from the parts of words, cut where values are blank;
* §3 patterns, in which quoted characters stand for themselves;
* §4 cutting a match off an end of a text.
-/
import FormatHost.Text

namespace FormatHost.Shell

/-! ## §1 Fields -/

/-- A character of a field, and whether it was quoted. -/
abbrev Field := List (Char × Bool)

def Field.text (f : Field) : String := String.ofList (f.map (·.1))

def Field.ofText (quoted : Bool) (cs : List Char) : Field := cs.map (·, quoted)

/-! ## §2 Building -/

/-- Fields under construction: those that are complete, last first, and the
one that goes on, last character first. -/
structure Fields where
  complete : List Field := []
  open? : Option Field := none
  /-- Whether blanks have ended the last field. -/
  blank : Bool := false

namespace Fields

def append (f : Fields) (quoted : Bool) (cs : List Char) : Fields :=
  { f with open? := some ((Field.ofText quoted cs).reverseAux (f.open?.getD [])), blank := false }

def close (f : Fields) : Fields :=
  match f.open? with
  | some field => ⟨field.reverse :: f.complete, none, true⟩
  | none => f

def toList (f : Fields) : List Field := f.close.complete.reverse

def isWhite (c : Char) : Bool := c = ' ' || c = '\t' || c = '\n'

/-- Add a value that is cut at separators. Blank ones count once; any other
one ends a field, even an empty one. -/
def appendSplit (separators : List Char) (f : Fields) : List Char → Fields
  | [] => f
  | c :: cs =>
    if separators.contains c then
      let next :=
        if isWhite c then f.close
        else if f.open?.isSome then { f.close with blank := false }
        else if f.blank then { f with blank := false }
        else { f with complete := [] :: f.complete }
      appendSplit separators next cs
    else appendSplit separators (f.append false [c]) cs

/-- Add several values with `add`: the first goes on with the field, the
last stays open. -/
def appendAll (add : Fields → List Char → Fields) (f : Fields) : List String → Fields
  | [] => f
  | [a] => add f a.toList
  | a :: as => appendAll add (add f a.toList).close as

end Fields

/-! ## §3 Patterns -/

/-- Classes of characters that have a name between brackets. -/
def inClass (name : String) (c : Char) : Bool :=
  match name with
  | "alpha" => c.isAlpha
  | "digit" => c.isDigit
  | "alnum" => c.isAlphanum
  | "upper" => c.isUpper
  | "lower" => c.isLower
  | "space" => c.isWhitespace || c.toNat = 11 || c.toNat = 12
  | "blank" => c = ' ' || c = '\t'
  | "punct" => 0x21 ≤ c.toNat && c.toNat ≤ 0x7E && !c.isAlphanum
  | "xdigit" => (Text.hexDigit? c).isSome
  | "cntrl" => c.toNat < 0x20 || c.toNat = 0x7F
  | "print" => 0x20 ≤ c.toNat && c.toNat ≤ 0x7E
  | "graph" => 0x21 ≤ c.toNat && c.toNat ≤ 0x7E
  | _ => false

/-- Whether a character is listed between brackets. -/
def inBrackets (c : Char) : Nat → List Char → Bool
  | 0, _ => false
  | _ + 1, [] => false
  | fuel + 1, '[' :: ':' :: rest =>
    let name := rest.takeWhile (· ≠ ':')
    match rest.drop name.length with
    | ':' :: ']' :: more => inClass (String.ofList name) c || inBrackets c fuel more
    | _ => c = '[' || inBrackets c fuel (':' :: rest)
  | fuel + 1, a :: '-' :: b :: rest => (a ≤ c && c ≤ b) || inBrackets c fuel rest
  | fuel + 1, a :: rest => a == c || inBrackets c fuel rest

/-- What stands between brackets, up to the closing one; a bracket right at
the front is listed, and those of named classes do not close. -/
def readBrackets : Nat → Bool → List Char → Option (List Char × List Char)
  | 0, _, _ => none
  | _ + 1, _, [] => none
  | fuel + 1, _, '[' :: ':' :: rest =>
    let name := rest.takeWhile (· ≠ ':')
    match rest.drop name.length with
    | ':' :: ']' :: more =>
      (readBrackets fuel false more).map fun (a, b) => ('[' :: ':' :: name ++ ':' :: ']' :: a, b)
    | _ => (readBrackets fuel false (':' :: rest)).map fun (a, b) => ('[' :: a, b)
  | fuel + 1, front, c :: rest =>
    if c = ']' ∧ !front then some ([], rest)
    else (readBrackets fuel false rest).map fun (a, b) => (c :: a, b)

/-- What brackets list, whether it is what they leave out, and how many
characters they take. -/
def brackets? (cs : List Char) : Option (Bool × List Char × Nat) :=
  let (negated, inner) := match cs with
    | '!' :: rest => (true, rest)
    | '^' :: rest => (true, rest)
    | _ => (false, cs)
  match readBrackets (inner.length + 1) true inner with
  | some (set, rest) => some (negated, set, cs.length - rest.length)
  | none => none

/-- Whether a pattern matches a whole text. -/
def fieldMatches : Nat → Field → List Char → Bool
  | 0, _, _ => false
  | _ + 1, [], cs => cs.isEmpty
  | fuel + 1, ('*', false) :: p, cs =>
    fieldMatches fuel p cs ||
      (match cs with
      | [] => false
      | _ :: rest => fieldMatches fuel (('*', false) :: p) rest)
  | fuel + 1, ('?', false) :: p, _ :: cs => fieldMatches fuel p cs
  | fuel + 1, ('[', false) :: p, c :: cs =>
    match brackets? (p.map (·.1)) with
    | some (negated, set, taken) =>
      (inBrackets c (set.length + 1) set != negated) && fieldMatches fuel (p.drop taken) cs
    | none => c = '[' && fieldMatches fuel p cs
  | fuel + 1, (a, _) :: p, c :: cs => a = c && fieldMatches fuel p cs
  | _ + 1, _ :: _, [] => false

def matchesPattern (p : Field) (s : String) : Bool :=
  fieldMatches (p.length + s.length + 1) p s.toList

/-! ## §4 Cutting -/

/-- The text without a match of the pattern at its front or end, the
longest or the shortest one. -/
def trimMatch (front longest : Bool) (p : Field) (cs : List Char) : List Char :=
  let lengths := List.range (cs.length + 1)
  let lengths := if longest then lengths.reverse else lengths
  let piece (n : Nat) : List Char := if front then cs.take n else cs.drop (cs.length - n)
  match lengths.find? fun n => fieldMatches (p.length + n + 1) p (piece n) with
  | some n => if front then cs.drop n else cs.take (cs.length - n)
  | none => cs

end FormatHost.Shell
