/-
FormatHost.Document — documents and the three ways to point into them.

A place in a document is a byte offset, a number of UTF-16 code units
from the start, or a position (line, column in UTF-16 units). Lines end
at line feeds.

* §1 positions, ranges and edits;
* §2 sizes of text in bytes and UTF-16 units;
* §3 from an offset: `positionAt` and `utf16Offset` round down to the
  start of a character and stop at the end of the text;
* §4 from a position: `offsetAt` stops at the end of the line.
-/
import FormatHost.Uri

namespace FormatHost

/-! ## §1 Positions, ranges, edits -/

/-- A zero-based line, and a column in UTF-16 units. -/
structure Position where
  line : Nat
  character : Nat
  deriving Repr, DecidableEq, Inhabited

structure Range where
  start : Position
  stop : Position
  deriving Repr, DecidableEq, Inhabited

/-- The replacement of a range. -/
structure TextEdit where
  range : Range
  newText : String
  deriving Repr, DecidableEq

/-! ## §2 Sizes -/

namespace Text

/-- The number of UTF-16 units of a character. -/
def units (c : Char) : Nat := if c.toNat < 0x10000 then 1 else 2

/-- The number of bytes of a text. -/
def byteSize : List Char → Nat
  | [] => 0
  | c :: cs => c.utf8Size + byteSize cs

/-- The number of UTF-16 units of a text. -/
def unitSize : List Char → Nat
  | [] => 0
  | c :: cs => units c + unitSize cs

/-- The characters that lie wholly in the first `n` bytes. -/
def takeBytes : Nat → List Char → List Char
  | _, [] => []
  | n, c :: cs => if c.utf8Size ≤ n then c :: takeBytes (n - c.utf8Size) cs else []

/-- What follows them. -/
def dropBytes : Nat → List Char → List Char
  | _, [] => []
  | n, c :: cs => if c.utf8Size ≤ n then dropBytes (n - c.utf8Size) cs else c :: cs

theorem takeBytes_append_dropBytes (n : Nat) (cs : List Char) :
    takeBytes n cs ++ dropBytes n cs = cs := by
  induction cs generalizing n with
  | nil => rfl
  | cons c cs ih =>
    unfold takeBytes dropBytes
    split
    · simp [ih]
    · rfl

theorem byteSize_append (a b : List Char) : byteSize (a ++ b) = byteSize a + byteSize b := by
  induction a with
  | nil => simp [byteSize]
  | cons c cs ih => simp [byteSize, ih]; omega

theorem unitSize_append (a b : List Char) : unitSize (a ++ b) = unitSize a + unitSize b := by
  induction a with
  | nil => simp [unitSize]
  | cons c cs ih => simp [unitSize, ih]; omega

/-- The text after the last line feed. -/
def lastLine (cs : List Char) : List Char :=
  (cs.reverse.takeWhile (· != '\n')).reverse

end Text

/-! ## §3 Documents, and places by offset -/

/-- A snapshot of an open document. -/
structure Document where
  uri : Uri
  language : String
  text : String
  deriving Repr, DecidableEq

namespace Document

/-- The path of a document that is backed by a file. -/
def path? (d : Document) : Option Path := d.uri.filePath?

/-- The text that lies before a byte offset. -/
def before (d : Document) (offset : Nat) : List Char := Text.takeBytes offset d.text.toList

/-- The position of a byte offset. -/
def positionAt (d : Document) (offset : Nat) : Position :=
  let cs := d.before offset
  ⟨cs.count '\n', Text.unitSize (Text.lastLine cs)⟩

/-- The UTF-16 units before a byte offset. -/
def utf16Offset (d : Document) (offset : Nat) : Nat := Text.unitSize (d.before offset)

/-- The whole document. -/
def fullRange (d : Document) : Range :=
  ⟨⟨0, 0⟩, d.positionAt (Text.byteSize d.text.toList)⟩

/-! ## §4 Places by position -/

/-- The bytes before the column `units` of a line. -/
def columnOffset : Nat → List Char → Nat
  | 0, _ => 0
  | _ + 1, [] => 0
  | units + 1, c :: cs =>
    if c = '\n' then 0 else c.utf8Size + columnOffset (units + 1 - Text.units c) cs

/-- The bytes before a position, counted from the start of the text; the
size of the text when the line does not exist. -/
def offsetIn (character : Nat) : Nat → List Char → Nat
  | 0, cs => columnOffset character cs
  | _ + 1, [] => 0
  | line + 1, c :: cs =>
    c.utf8Size + (if c = '\n' then offsetIn character line cs else offsetIn character (line + 1) cs)

/-- The byte offset of a position. -/
def offsetAt (d : Document) (p : Position) : Nat :=
  offsetIn p.character p.line d.text.toList

/-- The UTF-16 units before a position. -/
def utf16OffsetAt (d : Document) (p : Position) : Nat := d.utf16Offset (d.offsetAt p)

end Document
end FormatHost
