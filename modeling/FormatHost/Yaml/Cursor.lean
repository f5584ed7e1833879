/-
FormatHost.Yaml.Cursor — a place in a YAML text.

The cursor knows what is left of the text, and line, column and index of
where it stands. Five characters break lines; a carriage return and a
line feed together break one.
-/
import FormatHost.Text

namespace FormatHost.Yaml

/-! ## §1 Characters -/

def isBreak (c : Char) : Bool :=
  c == '\n' || c == '\r' || c == '\u0085' || c == '\u2028' || c == '\u2029'

def isBlank (c : Char) : Bool := c == ' ' || c == '\t'

/-- Characters of anchor and tag names. -/
def isWord (c : Char) : Bool :=
  ('0' ≤ c && c ≤ '9') || ('a' ≤ c && c ≤ 'z') || ('A' ≤ c && c ≤ 'Z') || c == '_' || c == '-'

/-- Characters that may stand in a YAML text. -/
def isAllowed (c : Char) : Bool :=
  let n := c.toNat
  n == 0x09 || n == 0x0A || n == 0x0D || (0x20 ≤ n && n ≤ 0x7E) || n == 0x85 ||
    (0xA0 ≤ n && n ≤ 0xD7FF) || (0xE000 ≤ n && n ≤ 0xFFFD) || 0x10000 ≤ n

/-! ## §2 The cursor -/

structure Cursor where
  rest : List Char
  index : Nat := 0
  line : Nat := 0
  column : Nat := 0
  deriving Repr, Inhabited

namespace Cursor

def peek (c : Cursor) : Option Char := c.rest.head?

def at? (c : Cursor) (n : Nat) : Option Char := c.rest[n]?

/-- Whether the character `n` places on is a blank, a break or the end. -/
def blankAt (c : Cursor) (n : Nat) : Bool :=
  match c.at? n with
  | some x => isBlank x || isBreak x
  | none => true

/-- Whether the character here is a break or the end. -/
def breakHere (c : Cursor) : Bool :=
  match c.peek with
  | some x => isBreak x
  | none => true

/-- Pass one character of a line. -/
def skip (c : Cursor) : Cursor :=
  { c with rest := c.rest.drop 1, index := c.index + 1, column := c.column + 1 }

/-- Pass `n` characters of a line. -/
def skipBy (c : Cursor) (n : Nat) : Cursor :=
  { c with rest := c.rest.drop n, index := c.index + n, column := c.column + n }

/-- Pass the characters of a line for which `p` holds. -/
def skipWhile (p : Char → Bool) (c : Cursor) : Cursor := c.skipBy (c.rest.takeWhile p).length

/-- Pass a line break, if there is one; the text it stands for. -/
def readBreak (c : Cursor) : List Char × Cursor :=
  let next (n : Nat) : Cursor :=
    { rest := c.rest.drop n, index := c.index + n, line := c.line + 1, column := 0 }
  match c.rest with
  | '\r' :: '\n' :: _ => (['\n'], next 2)
  | '\u2028' :: _ => (['\u2028'], next 1)
  | '\u2029' :: _ => (['\u2029'], next 1)
  | x :: _ => if isBreak x then (['\n'], next 1) else ([], c)
  | [] => ([], c)

/-- Whether a document mark of three characters `x` stands here. -/
def documentMark (c : Cursor) (x : Char) : Bool :=
  c.column == 0 && c.at? 0 == some x && c.at? 1 == some x && c.at? 2 == some x && c.blankAt 3

end Cursor
end FormatHost.Yaml
