/-
FormatHost.Message — naming the file in a message.

Formatters report places as `(3:14)`. `annotate` puts the path in front of
the first such place in the message's first line.

* §1 finding the place: digits, a colon, digits;
* §2 templates. The path is put in as a template in which `$1` and `$2`
  are the two numbers, `$0` is the whole place, `$$` is a dollar sign and
  every other name stands for nothing;
* §3 messages.
-/
import FormatHost.Bits
import FormatHost.Path
import FormatHost.Text.Category

namespace FormatHost.Message

/-! ## §1 Places -/

/-- A text cut at a place: what is before it, its two numbers, and what is
after it. -/
structure Cut where
  before : List Char
  line : List Char
  column : List Char
  after : List Char
  deriving Repr, DecidableEq

/-- A place right at the front. -/
def placeAt? (cs : List Char) : Option Cut :=
  let line := cs.takeWhile Text.isDigit
  if line.isEmpty then none
  else
    match cs.dropWhile Text.isDigit with
    | ':' :: rest =>
      let column := rest.takeWhile Text.isDigit
      if column.isEmpty then none else some ⟨[], line, column, rest.dropWhile Text.isDigit⟩
    | _ => none

/-- The first place in a text. -/
def firstPlace? : List Char → Option Cut
  | [] => none
  | c :: cs =>
    match placeAt? (c :: cs) with
    | some cut => some cut
    | none => (firstPlace? cs).map fun cut => { cut with before := c :: cut.before }

/-- The place itself. -/
def Cut.place (c : Cut) : List Char := c.line ++ ':' :: c.column

/-! ## §2 Templates -/

/-- What a name stands for. -/
def Cut.group (c : Cut) (name : List Char) : List Char :=
  match Text.boundedDecimal? (bitValues 64) name with
  | some 0 => c.place
  | some 1 => c.line
  | some 2 => c.column
  | _ => []

def isNameChar (c : Char) : Bool :=
  ('0' ≤ c && c ≤ '9') || ('a' ≤ c && c ≤ 'z') || ('A' ≤ c && c ≤ 'Z') || c = '_'

/-- The name after a dollar sign, and the rest. -/
def readName? (cs : List Char) : Option (List Char × List Char) :=
  match cs with
  | '{' :: rest => Text.splitOnce '}' rest
  | _ =>
    match cs.takeWhile isNameChar with
    | [] => none
    | name => some (name, cs.dropWhile isNameChar)

/-- The text of a template; `fuel` bounds its names. -/
def Cut.fill (c : Cut) : Nat → List Char → List Char
  | 0, cs => cs
  | _ + 1, [] => []
  | fuel + 1, '$' :: '$' :: rest => '$' :: c.fill fuel rest
  | fuel + 1, '$' :: rest =>
    match readName? rest with
    | some (name, rest) => c.group name ++ c.fill fuel rest
    | none => '$' :: c.fill fuel rest
  | fuel + 1, x :: rest => x :: c.fill fuel rest

/-- The template that names a file. -/
def template (path : Path) : List Char := path.text.toList ++ ":$1:$2".toList

/-! ## §3 Messages -/

/-- A line with the path in front of its first place. -/
def annotateLine (path : Path) (line : List Char) : List Char :=
  match firstPlace? line with
  | none => line
  | some cut =>
    let t := template path
    cut.before ++ cut.fill (t.length + 1) t ++ cut.after

/-- A message with the path in front of the first place of its first
line. -/
def annotate (message : String) (path : Path) : String :=
  match Text.splitOnce '\n' message.toList with
  | some (first, rest) => String.ofList (annotateLine path first ++ '\n' :: rest)
  | none => String.ofList (annotateLine path message.toList)

end FormatHost.Message
