/-
FormatHost.Edit — from the formatter's output to an edit of the document.

The formatter returns a whole text; the editor wants one replacement. The
minimal one keeps the longest common start and, of what is left, the
longest common end. When nothing changed there is no edit at all, which
tells the editor to try other formatters.

* §1 replacements of a span of bytes;
* §2 the minimal and the full replacement;
* §3 edits.
-/
import FormatHost.Document

namespace FormatHost

/-! ## §1 Replacements -/

/-- The bytes from `start` up to `stop` become `text`. -/
structure Replacement where
  start : Nat
  stop : Nat
  text : String
  deriving Repr, DecidableEq

namespace Replacement

/-- The text with the replacement made. -/
def apply (r : Replacement) (old : String) : String :=
  String.ofList (Text.takeBytes r.start old.toList ++ r.text.toList ++
    Text.dropBytes r.stop old.toList)

end Replacement

/-! ## §2 What changed -/

namespace Edit

/-- The longest common start of two texts. -/
def commonFront : List Char → List Char → List Char
  | a :: as, b :: bs => if a = b then a :: commonFront as bs else []
  | _, _ => []

/-- The longest common end of two texts. -/
def commonBack (a b : List Char) : List Char :=
  (commonFront a.reverse b.reverse).reverse

/-- The smallest single replacement that makes `old` into
`formatted`; none when they are equal. -/
def minimal? (old formatted : String) : Option Replacement :=
  if old = formatted then none
  else
    let front := commonFront old.toList formatted.toList
    let oldRest := old.toList.drop front.length
    let newRest := formatted.toList.drop front.length
    let back := commonBack oldRest newRest
    some
      { start := Text.byteSize front
        stop := Text.byteSize old.toList - Text.byteSize back
        text := String.ofList (newRest.take (newRest.length - back.length)) }

/-- The replacement of the whole text; none when nothing changed. -/
def full? (old formatted : String) : Option Replacement :=
  if old = formatted then none
  else some ⟨0, Text.byteSize old.toList, formatted⟩

/-! ## §3 Edits -/

/-- How the formatter's output goes back into the document. -/
inductive Mode
  | minimal
  | fullDocument
  deriving Repr, DecidableEq

end Edit

/-- The answer to a request for edits. -/
inductive EditResult
  /-- Nothing to change; other formatters may be tried. -/
  | noop
  | replace (edit : TextEdit)
  deriving Repr, DecidableEq

namespace EditResult

def isNoop : EditResult → Bool
  | .noop => true
  | .replace _ => false

/-- The edits: none, or exactly one. -/
def edits : EditResult → List TextEdit
  | .noop => []
  | .replace e => [e]

/-- The edit that makes a document's text into `formatted`. -/
def compute (d : Document) (formatted : String) (mode : Edit.Mode) : EditResult :=
  let replacement := match mode with
    | .minimal => Edit.minimal? d.text formatted
    | .fullDocument => Edit.full? d.text formatted
  match replacement with
  | none => .noop
  | some r => .replace ⟨⟨d.positionAt r.start, d.positionAt r.stop⟩, r.text⟩

end EditResult
end FormatHost
