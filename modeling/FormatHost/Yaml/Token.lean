/-
FormatHost.Yaml.Token — YAML texts as tokens.

The scanner turns indentation into tokens that open and close blocks. A
scalar or bracket on one line may turn out to be a key when a colon
follows it; the place where the key's token would go is remembered until
then.

* §1 tokens;
* §2 the scanner's state: open blocks, open brackets, possible keys;
* §3 anchors, tags and directives;
* §4 one token after the other.
-/
import FormatHost.Yaml.Scalar

namespace FormatHost.Yaml

/-! ## §1 Tokens -/

inductive Token
  | streamEnd
  | directive
  | tagDirective (handle lead : String)
  | documentStart
  | documentEnd
  | blockSequenceStart
  | blockMappingStart
  | blockEnd
  | flowSequenceStart
  | flowSequenceEnd
  | flowMappingStart
  | flowMappingEnd
  | blockEntry
  | flowEntry
  | key
  | value
  | alias (name : String)
  | anchor (name : String)
  | tag (handle suffix : String)
  | scalar (text : String) (plain : Bool)
  deriving Repr, DecidableEq, Inhabited

/-! ## §2 State -/

/-- A place where a key may start: the number of tokens before it, where
it stands, and whether nothing but a key may stand there. -/
structure PossibleKey where
  required : Bool
  number : Nat
  line : Nat
  index : Nat
  column : Nat
  deriving Repr

structure Scanner where
  cursor : Cursor
  tokens : Array Token := #[]
  /-- The column of the innermost open block; −1 outside of all. -/
  indent : Int := -1
  indents : List Int := []
  keyAllowed : Bool := true
  /-- The possible key of each level of brackets, innermost first. -/
  keys : List (Option PossibleKey) := [none]
  deriving Inhabited

namespace Scanner

def flowLevel (s : Scanner) : Nat := s.keys.length - 1

def inFlow (s : Scanner) : Bool := s.flowLevel > 0

def emit (s : Scanner) (t : Token) : Scanner := { s with tokens := s.tokens.push t }

/-- Put a token before the token number `n`. -/
def emitAt (s : Scanner) (n : Nat) (t : Token) : Scanner :=
  { s with tokens := (s.tokens.extract 0 n).push t ++ s.tokens.extract n s.tokens.size }

/-- Close the blocks that are deeper than a column. -/
def closeBlocks (column : Int) : List Int → Scanner → Scanner
  | [], s => s
  | outer :: rest, s =>
    if s.indent > column then
      closeBlocks column rest { s.emit .blockEnd with indent := outer, indents := rest }
    else s

def unroll (s : Scanner) (column : Int) : Scanner :=
  if s.inFlow then s else closeBlocks column s.indents s

/-- Open a block at a column, unless one is open there. -/
def roll (s : Scanner) (column : Nat) (place : Option Nat) (t : Token) : Scanner :=
  if s.inFlow || s.indent ≥ column then s
  else
    let s := { s with indents := s.indent :: s.indents, indent := column }
    match place with
    | some n => s.emitAt n t
    | none => s.emit t

/-- Forget the possible key of this level; refused when it was required. -/
def dropKey (s : Scanner) : Option Scanner :=
  match s.keys with
  | some k :: rest => if k.required then none else some { s with keys := none :: rest }
  | _ => some s

/-- Remember that a key may start here. -/
def saveKey (s : Scanner) : Option Scanner :=
  if s.keyAllowed then do
    let s ← s.dropKey
    let key : PossibleKey :=
      { required := !s.inFlow && s.indent == (s.cursor.column : Int)
        number := s.tokens.size, line := s.cursor.line, index := s.cursor.index
        column := s.cursor.column }
    some { s with keys := some key :: s.keys.tail }
  else some s

/-- A key stands on one line and within 1024 characters. -/
def dropStaleKeys (s : Scanner) : Option Scanner := do
  let keys ← s.keys.mapM fun key =>
    match key with
    | none => some none
    | some k =>
      if k.line < s.cursor.line || k.index + 1024 < s.cursor.index then
        if k.required then none else some none
      else some (some k)
  some { s with keys }

/-- Pass blanks, comments and line breaks. -/
def skipToToken : Nat → Scanner → Scanner
  | 0, s => s
  | fuel + 1, s =>
    let c := s.cursor
    let c := if c.column == 0 && c.peek == some '\ufeff' then c.skip else c
    let tabs := s.inFlow || !s.keyAllowed
    let c := c.skipWhile fun x => x == ' ' || (tabs && x == '\t')
    let c := if c.peek == some '#' then c.skipWhile (!isBreak ·) else c
    if c.peek.any isBreak then
      skipToToken fuel
        { s with cursor := c.readBreak.2, keyAllowed := s.keyAllowed || !s.inFlow }
    else { s with cursor := c }

/-! ## §3 Anchors, tags and directives -/

/-- An anchor's or alias's name after its mark. -/
def readName (c : Cursor) : Option (String × Cursor) :=
  let name := c.rest.takeWhile isWord
  let c := c.skipBy name.length
  if name.isEmpty then none
  else if c.blankAt 0 || c.peek.any fun x => "?:,]\x7d%@`".toList.contains x then
    some (String.ofList name, c)
  else none

def isTagChar (verbatim : Bool) (c : Char) : Bool :=
  isWord c || ";/?:@&=+$.%!~*'()".toList.contains c || (verbatim && ",[]".toList.contains c)

/-- The bytes of a tag with its `%XX` decoded. -/
def decodeTag : List Char → Option (List UInt8)
  | [] => some []
  | '%' :: a :: b :: rest => do
    let x ← Text.hexDigit? a
    let y ← Text.hexDigit? b
    let bs ← decodeTag rest
    some (UInt8.ofNat (x * 16 + y) :: bs)
  | '%' :: _ => none
  | c :: rest => (decodeTag rest).map (String.utf8EncodeChar c ++ ·)

/-- The characters of a tag from here on. -/
def readTagText (verbatim : Bool) (c : Cursor) : Option (String × Cursor) := do
  let cs := c.rest.takeWhile (isTagChar verbatim)
  let bytes ← decodeTag cs
  let text ← String.fromUTF8? ⟨bytes.toArray⟩
  some (text, c.skipBy cs.length)

/-- A tag from its `!` on: handle and suffix. -/
def readTag (inFlow : Bool) (c : Cursor) : Option (Token × Cursor) := do
  let (handle, suffix, c) ←
    if c.at? 1 == some '<' then do
      let (text, c) ← readTagText true (c.skipBy 2)
      if text.isEmpty || c.peek != some '>' then none
      else some ("", text, c.skip)
    else
      let name := (c.rest.drop 1).takeWhile isWord
      if c.at? (name.length + 1) == some '!' then do
        let (text, c') ← readTagText false (c.skipBy (name.length + 2))
        if text.isEmpty then none
        else some ("!" ++ String.ofList name ++ "!", text, c')
      else do
        let (text, c') ← readTagText false c.skip
        if text.isEmpty then some ("", "!", c') else some ("!", text, c')
  if c.blankAt 0 || (inFlow && c.peek == some ',') then some (.tag handle suffix, c) else none

/-- A directive line after its `%`. -/
def readDirective (c : Cursor) : Option (Token × Cursor) := do
  let name := c.rest.takeWhile isWord
  let c := (c.skipBy name.length).skipWhile isBlank
  let (t, c) ←
    if name == "YAML".toList then
      let major := c.rest.takeWhile Char.isDigit
      let c := c.skipBy major.length
      if c.peek != some '.' then none
      else
        let minor := c.skip.rest.takeWhile Char.isDigit
        let c := c.skipBy (minor.length + 1)
        if Text.decimal? major == some 1 && (Text.decimal? minor).any fun n => n == 1 || n == 2 then
          some (Token.directive, c)
        else none
    else if name == "TAG".toList then do
      let handle := c.rest.takeWhile fun x => x == '!' || isWord x
      let c := (c.skipBy handle.length)
      if !(handle.head? == some '!' && handle.getLast? == some '!') || !c.blankAt 0 then none
      else
        let (lead, c) ← readTagText true (c.skipWhile isBlank)
        if lead.isEmpty || !c.blankAt 0 then none
        else some (.tagDirective (String.ofList handle) lead, c)
    else none
  let c := c.skipWhile isBlank
  let c := if c.peek == some '#' then c.skipWhile (!isBreak ·) else c
  if c.breakHere then some (t, c.readBreak.2) else none

/-! ## §4 Scanning -/

/-- A token of one character that stands by itself. -/
def single (s : Scanner) (t : Token) : Scanner := { s.emit t with cursor := s.cursor.skip }

def flowStart (s : Scanner) (t : Token) : Option Scanner := do
  let s ← s.saveKey
  some { s.single t with keys := none :: s.keys, keyAllowed := true }

def flowEnd (s : Scanner) (t : Token) : Option Scanner := do
  let s ← s.dropKey
  let keys := if s.inFlow then s.keys.tail else s.keys
  some { s.single t with keys, keyAllowed := false }

def blockEntry (s : Scanner) : Option Scanner := do
  if !s.inFlow && !s.keyAllowed then none
  else
    let s := s.roll s.cursor.column none .blockSequenceStart
    let s ← s.dropKey
    some { s.single .blockEntry with keyAllowed := true }

def explicitKey (s : Scanner) : Option Scanner := do
  if !s.inFlow && !s.keyAllowed then none
  else
    let s := s.roll s.cursor.column none .blockMappingStart
    let s ← s.dropKey
    some { s.single .key with keyAllowed := !s.inFlow }

/-- A colon: it makes the possible key of this level a key, or stands
after a key marked by `?`. -/
def mappingValue (s : Scanner) : Option Scanner :=
  match s.keys with
  | some k :: rest =>
    let s := (s.emitAt k.number .key).roll k.column (some k.number) .blockMappingStart
    some { s.single .value with keys := none :: rest, keyAllowed := false }
  | _ =>
    if !s.inFlow && !s.keyAllowed then none
    else
      let s := s.roll s.cursor.column none .blockMappingStart
      some { s.single .value with keyAllowed := !s.inFlow }

/-- A token with a text, which may turn out to be a key. -/
def nodePart (s : Scanner) (read : Cursor → Option (Token × Cursor)) : Option Scanner := do
  let s ← s.saveKey
  let (t, cursor) ← read s.cursor
  some { s.emit t with cursor, keyAllowed := false }

def blockScalar (s : Scanner) (literal : Bool) : Option Scanner := do
  let s ← s.dropKey
  let (text, cursor) ← readBlock literal s.indent s.cursor.skip
  some { s.emit (.scalar (String.ofList text) false) with cursor, keyAllowed := true }

def plainScalar (s : Scanner) : Option Scanner := do
  let s ← s.saveKey
  let (text, cursor, broken) ←
    readPlain s.inFlow (s.indent + 1) (s.cursor.rest.length + 1) [] {} s.cursor
  some { s.emit (.scalar (String.ofList text) true) with cursor, keyAllowed := broken }

/-- Close everything before a document mark, a directive or the end. -/
def closeAll (s : Scanner) : Option Scanner := do
  let s ← (s.unroll (-1)).dropKey
  some { s with keyAllowed := false }

/-- Whether a plain scalar may start here. -/
def startsPlain (s : Scanner) : Bool :=
  let c := s.cursor
  match c.peek with
  | none => false
  | some x =>
    !(isBlank x || isBreak x || "-?:,[]\x7b\x7d#&*!|>'\"%@`".toList.contains x) ||
      (x == '-' && !(c.at? 1).any isBlank) ||
      (!s.inFlow && (x == '?' || x == ':') && !c.blankAt 1)

/-- The next token; nothing when no token can start here. -/
def next (s : Scanner) : Option Scanner := do
  let s := s.skipToToken (s.cursor.rest.length + 1)
  let s ← s.dropStaleKeys
  let s := s.unroll s.cursor.column
  let c := s.cursor
  match c.peek with
  | none => do
    let s ← s.closeAll
    some (s.emit .streamEnd)
  | some x =>
    if c.column == 0 && x == '%' then do
      let s ← s.closeAll
      let (t, cursor) ← readDirective c.skip
      some { s.emit t with cursor }
    else if c.documentMark '-' then do
      let s ← s.closeAll
      some { s.emit .documentStart with cursor := c.skipBy 3 }
    else if c.documentMark '.' then do
      let s ← s.closeAll
      some { s.emit .documentEnd with cursor := c.skipBy 3 }
    else if x == '[' then s.flowStart .flowSequenceStart
    else if x == '\x7b' then s.flowStart .flowMappingStart
    else if x == ']' then s.flowEnd .flowSequenceEnd
    else if x == '\x7d' then s.flowEnd .flowMappingEnd
    else if x == ',' then do
      let s ← s.dropKey
      some { s.single .flowEntry with keyAllowed := true }
    else if x == '-' && c.blankAt 1 then s.blockEntry
    else if x == '?' && (s.inFlow || c.blankAt 1) then s.explicitKey
    else if x == ':' && (s.inFlow || c.blankAt 1) then s.mappingValue
    else if x == '*' then
      s.nodePart fun c => (readName c.skip).map fun (n, c) => (.alias n, c)
    else if x == '&' then
      s.nodePart fun c => (readName c.skip).map fun (n, c) => (.anchor n, c)
    else if x == '!' then s.nodePart (readTag s.inFlow)
    else if x == '|' && !s.inFlow then s.blockScalar true
    else if x == '>' && !s.inFlow then s.blockScalar false
    else if x == '\'' || x == '"' then
      s.nodePart fun c => (readQuoted x (c.rest.length + 1) [] c.skip).map fun (text, c) =>
        (.scalar (String.ofList text) false, c)
    else if s.startsPlain then s.plainScalar
    else none

/-- All tokens up to the end of the text. -/
def run : Nat → Scanner → Option (Array Token)
  | 0, _ => none
  | fuel + 1, s => do
    let s ← s.next
    if s.tokens.back? == some .streamEnd then some s.tokens else run fuel s

end Scanner

/-- The tokens of a text. -/
def tokens? (text : String) : Option (List Token) :=
  let cs := text.toList
  if cs.all isAllowed then
    (Scanner.run (cs.length + 2) { cursor := { rest := cs } }).map Array.toList
  else none

end FormatHost.Yaml
