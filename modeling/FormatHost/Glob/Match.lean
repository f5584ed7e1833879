/-
FormatHost.Glob.Match — matching paths.

Paths are matched as bytes, from end to end. A token takes bytes off the
front of what is left; `residues` lists everything that can be left after
it, so that a pattern matches when nothing at all can be left.

* §1 what one step can take;
* §2 the residues of tokens and of token lists;
* §3 globs: a pattern with its tokens.
-/
import FormatHost.Glob.Pattern
import FormatHost.Text.Utf8

namespace FormatHost.Glob

/-! ## §1 Steps -/

def slash : UInt8 := 0x2F

/-- A byte that `?` and `*` take. -/
def Dialect.takes (d : Dialect) (b : UInt8) : Bool := !d.literalSeparator || b != slash

/-- What is left after any number of bytes for which `p` holds. -/
def tailsWhile (p : UInt8 → Bool) : List UInt8 → List (List UInt8)
  | [] => [[]]
  | b :: bs => (b :: bs) :: (if p b then tailsWhile p bs else [])

/-- What is left after each slash. -/
def afterSlashes : List UInt8 → List (List UInt8)
  | [] => []
  | b :: bs => if b = slash then bs :: afterSlashes bs else afterSlashes bs

/-- The bytes of a class: all bytes of its characters, and between the
last byte of a range's start and the first byte of its end every byte. -/
def inRange (r : Char × Char) (b : UInt8) : Bool :=
  let first := String.utf8EncodeChar r.1
  let last := String.utf8EncodeChar r.2
  if r.1 = r.2 then first.contains b
  else
    first.contains b || last.contains b ||
      (first.getLastD 0 ≤ b && b ≤ last.headD 0)

/-- One byte in the class, or outside of it. -/
def inClass (negated : Bool) (ranges : List (Char × Char)) (b : UInt8) : Bool :=
  ranges.any (inRange · b) != negated

/-! ## §2 Residues -/

mutual

/-- Whether tokens stand for nothing: braces without any text in them. -/
def allSilent : List Token → Bool
  | [] => true
  | t :: ts => silentToken t && allSilent ts

def silentToken : Token → Bool
  | .alternatives branches => allBranchesSilent branches
  | _ => false

def allBranchesSilent : List (List Token) → Bool
  | [] => true
  | b :: bs => allSilent b && allBranchesSilent bs

end

mutual

/-- What can be left of a text after a token. -/
def residues (d : Dialect) : Token → List UInt8 → List (List UInt8)
  | .literal c, bs => (Text.stripFront (String.utf8EncodeChar c) bs).toList
  | .any, bs =>
    match bs with
    | b :: rest => if d.takes b then [rest] else []
    | [] => []
  | .zeroOrMore, bs => tailsWhile d.takes bs
  | .recursiveFront, bs => bs :: afterSlashes bs
  | .recursiveEnd, bs =>
    match bs with
    | b :: rest => if b = slash then tailsWhile (fun _ => true) rest else []
    | [] => []
  | .recursiveMiddle, bs =>
    match bs with
    | b :: rest => if b = slash then rest :: afterSlashes rest else []
    | [] => []
  | .set negated ranges, bs =>
    match bs with
    | b :: rest => if inClass negated ranges b then [rest] else []
    | [] => []
  | .alternatives branches, bs =>
    if allBranchesSilent branches then [bs] else branchResidues d branches bs

/-- What can be left after one of the branches; a branch without text
does not count. -/
def branchResidues (d : Dialect) : List (List Token) → List UInt8 → List (List UInt8)
  | [], _ => []
  | ts :: branches, bs =>
    (if allSilent ts then [] else listResidues d ts [bs]) ++ branchResidues d branches bs

/-- What can be left after all tokens in turn. -/
def listResidues (d : Dialect) : List Token → List (List UInt8) → List (List UInt8)
  | [], left => left
  | t :: ts, left => listResidues d ts (left.flatMap (residues d t)).eraseDups

end

end FormatHost.Glob

namespace FormatHost

/-! ## §3 Globs -/

/-- A pattern that has been read. -/
structure Glob where
  pattern : String
  dialect : Glob.Dialect
  tokens : List Glob.Token

namespace Glob

/-- Read a pattern. -/
def parse (dialect : Dialect) (pattern : String) : Except Error Glob :=
  (parseTokens dialect pattern).map fun tokens => ⟨pattern, dialect, tokens⟩

/-- Whether the tokens match all of a text; `**` alone matches anything. -/
def matchesBytes (g : Glob) (bs : List UInt8) : Bool :=
  match g.tokens with
  | [.recursiveFront] => true
  | tokens => (listResidues g.dialect tokens [bs]).contains []

/-- Whether the glob matches all of a path's text. -/
def isMatch (g : Glob) (text : String) : Bool :=
  g.matchesBytes (Text.Utf8.encode text.toList)

end Glob
end FormatHost
