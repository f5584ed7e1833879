/-
FormatHost.Yaml.Scalar — reading scalars.

Plain, quoted and block scalars, each from its first character on. Line
breaks inside a scalar are folded: one becomes a blank, of several the
first is dropped; literal block scalars keep theirs.

* §1 blanks between the words of a flow scalar;
* §2 quoted scalars;
* §3 plain scalars;
* §4 block scalars.
-/
import FormatHost.Yaml.Cursor

namespace FormatHost.Yaml

/-! ## §1 Blanks and breaks between words -/

/-- The blanks and breaks after a word: blanks on its line, the first
break, the further ones, and whether there was a break at all. -/
structure Gap where
  blanks : List Char := []
  leading : List Char := []
  trailing : List Char := []
  broken : Bool := false
  deriving Repr

/-- The text a gap stands for. -/
def Gap.text (g : Gap) : List Char :=
  if g.broken then
    if g.leading = ['\n'] then
      if g.trailing.isEmpty then [' '] else g.trailing
    else g.leading ++ g.trailing
  else g.blanks

/-- Read blanks and breaks onto a gap. With a least column, a tab before
that column on a later line is refused. -/
def readGap (least : Option Int) : Nat → Gap → Cursor → Option (Gap × Cursor)
  | 0, g, c => some (g, c)
  | fuel + 1, g, c =>
    match c.peek with
    | none => some (g, c)
    | some x =>
      if isBlank x then
        if g.broken && x == '\t' && least.any (fun l => decide ((c.column : Int) < l)) then none
        else if g.broken then readGap least fuel g c.skip
        else readGap least fuel { g with blanks := g.blanks ++ [x] } c.skip
      else if isBreak x then
        let (text, c) := c.readBreak
        if g.broken then readGap least fuel { g with trailing := g.trailing ++ text } c
        else readGap least fuel { g with blanks := [], leading := text, broken := true } c
      else some (g, c)

/-! ## §2 Quoted scalars -/

/-- The character of a one-letter escape. -/
def escape? : Char → Option Char
  | '0' => some '\x00'
  | 'a' => some '\x07'
  | 'b' => some '\x08'
  | 't' => some '\t'
  | '\t' => some '\t'
  | 'n' => some '\n'
  | 'v' => some '\x0b'
  | 'f' => some '\x0c'
  | 'r' => some '\r'
  | 'e' => some '\x1b'
  | ' ' => some ' '
  | '"' => some '"'
  | '/' => some '/'
  | '\\' => some '\\'
  | 'N' => some '\u0085'
  | '_' => some '\u00a0'
  | 'L' => some '\u2028'
  | 'P' => some '\u2029'
  | _ => none

/-- The number of digits after `x`, `u` and `U`. -/
def escapeDigits? : Char → Option Nat
  | 'x' => some 2
  | 'u' => some 4
  | 'U' => some 8
  | _ => none

/-- The character of an escape after its backslash. -/
def readEscape (c : Cursor) : Option (Char × Cursor) := do
  let x ← c.peek
  match escape? x with
  | some y => some (y, c.skip)
  | none =>
    let n ← escapeDigits? x
    let ds := (c.skip.rest).take n
    if ds.length < n then none
    else
      let v ← Text.readDigits 16 Text.hexDigit? 0 ds
      if (0xD800 ≤ v ∧ v ≤ 0xDFFF) ∨ v > 0x10FFFF then none
      else some (Char.ofNat v, c.skipBy (n + 1))

/-- A quoted scalar after its opening quote: characters so far last
first, and the gap before the next. -/
def readQuoted (quote : Char) : Nat → List Char → Cursor → Option (List Char × Cursor)
  | 0, _, _ => none
  | fuel + 1, acc, c =>
    if c.documentMark '-' || c.documentMark '.' then none
    else
      match c.peek with
      | none => none
      | some x =>
        if quote == '\'' && x == '\'' && c.at? 1 == some '\'' then
          readQuoted quote fuel ('\'' :: acc) (c.skipBy 2)
        else if x == quote then some (acc.reverse, c.skip)
        else if quote == '"' && x == '\\' then
          if (c.at? 1).any isBreak then do
            let c := (c.skip.readBreak).2
            let (g, c) ← readGap none (c.rest.length + 1) { broken := true } c
            readQuoted quote fuel (g.text.reverse ++ acc) c
          else do
            let (y, c) ← readEscape c.skip
            readQuoted quote fuel (y :: acc) c
        else if isBlank x || isBreak x then do
          let (g, c) ← readGap none (c.rest.length + 1) {} c
          readQuoted quote fuel (g.text.reverse ++ acc) c
        else readQuoted quote fuel (x :: acc) c.skip

/-! ## §3 Plain scalars -/

def isFlowMark (c : Char) : Bool :=
  c == ',' || c == '[' || c == ']' || c == '\x7b' || c == '\x7d'

/-- Whether a plain scalar ends here, inside of brackets or not; refused
when a colon stands against a bracket. -/
def plainEnds (inFlow : Bool) (c : Cursor) : Option Bool :=
  match c.peek with
  | none => some true
  | some x =>
    if inFlow && x == ':' && (c.at? 1).any fun y => isFlowMark y || y == '?' then none
    else some ((x == ':' && c.blankAt 1) || (inFlow && isFlowMark x))

/-- The word of a plain scalar up to a blank, a break or its end; whether
it stopped at a mark that ends the scalar. -/
def readWord (inFlow : Bool) : Nat → List Char → Cursor → Option (List Char × Cursor × Bool)
  | 0, acc, c => some (acc, c, true)
  | fuel + 1, acc, c =>
    if c.blankAt 0 then some (acc, c, c.rest.isEmpty)
    else
      match plainEnds inFlow c with
      | none => none
      | some true => some (acc, c, true)
      | some false =>
        match c.peek with
        | none => some (acc, c, true)
        | some x => readWord inFlow fuel (x :: acc) c.skip

/-- A plain scalar in a block of the given indentation. The last part says
whether it was left at the start of a later line. -/
def readPlain (inFlow : Bool) (indent : Int) :
    Nat → List Char → Gap → Cursor → Option (List Char × Cursor × Bool)
  | 0, _, _, _ => none
  | fuel + 1, acc, gap, c =>
    if c.documentMark '-' || c.documentMark '.' || c.peek == some '#' then
      some (acc.reverse, c, gap.broken)
    else do
      let (word, c, ended) ← readWord inFlow (c.rest.length + 1) [] c
      let (acc, gap) :=
        if word.isEmpty then (acc, gap) else (word ++ gap.text.reverse ++ acc, {})
      if ended && !(c.peek.any fun x => isBlank x || isBreak x) then
        some (acc.reverse, c, gap.broken)
      else
        let (gap, c) ← readGap (some indent) (c.rest.length + 1) gap c
        if !inFlow && decide ((c.column : Int) < indent) then some (acc.reverse, c, gap.broken)
        else readPlain inFlow indent fuel acc gap c

/-! ## §4 Block scalars -/

/-- What happens to the breaks at the end of a block scalar. -/
inductive Chomping
  | strip
  | clip
  | keep
  deriving Repr, DecidableEq

/-- The marks after `|` or `>`: chomping, and the indentation if given. -/
def readHeader (c : Cursor) : Option (Chomping × Nat × Cursor) :=
  let chomp (c : Cursor) : Option (Chomping × Cursor) :=
    match c.peek with
    | some '+' => some (.keep, c.skip)
    | some '-' => some (.strip, c.skip)
    | _ => none
  let digit (c : Cursor) : Option (Nat × Cursor) :=
    (c.peek.bind Text.digit?).map (·, c.skip)
  match chomp c with
  | some (k, c) =>
    match digit c with
    | some (0, _) => none
    | some (d, c) => some (k, d, c)
    | none => some (k, 0, c)
  | none =>
    match digit c with
    | some (0, _) => none
    | some (d, c) =>
      match chomp c with
      | some (k, c) => some (k, d, c)
      | none => some (.clip, d, c)
    | none => some (.clip, 0, c)

/-- The empty lines before content, and the column of the content, which
is found from the first line with content when it is still 0. -/
def readEmptyLines (parent : Int) :
    Nat → Nat → Nat → List Char → Cursor → Option (Nat × List Char × Cursor)
  | 0, _, _, _, _ => none
  | fuel + 1, indent, widest, breaks, c =>
    let room := if indent = 0 then c.rest.length else indent - c.column
    let c := c.skipBy ((c.rest.take room).takeWhile (· == ' ')).length
    let widest := max widest c.column
    if (indent == 0 || c.column < indent) && c.peek == some '\t' then none
    else if c.peek.any isBreak then
      let (text, c) := c.readBreak
      readEmptyLines parent fuel indent widest (breaks ++ text) c
    else if indent = 0 then some (max (max widest (parent + 1).toNat) 1, breaks, c)
    else some (indent, breaks, c)

/-- The lines of a block scalar: text so far, the break after it, the
empty lines after that, and whether the last line began with a blank. -/
def readBlockLines (literal : Bool) (parent : Int) (indent : Nat) :
    Nat → List Char → List Char → List Char → Bool → Cursor →
    Option (List Char × List Char × List Char × Cursor)
  | 0, _, _, _, _, _ => none
  | fuel + 1, text, leading, trailing, leadingBlank, c =>
    if c.column ≠ indent || c.rest.isEmpty then some (text, leading, trailing, c)
    else do
      let blank := c.peek.any isBlank
      let joint :=
        if !literal && leading == ['\n'] && !leadingBlank && !blank then
          if trailing.isEmpty then [' '] else trailing
        else leading ++ trailing
      let line := c.rest.takeWhile (!isBreak ·)
      let (newBreak, c) := (c.skipBy line.length).readBreak
      let (_, breaks, c) ← readEmptyLines parent (c.rest.length + 1) indent 0 [] c
      readBlockLines literal parent indent fuel (text ++ joint ++ line) newBreak breaks blank c

/-- A block scalar after its mark. -/
def readBlock (literal : Bool) (parent : Int) (c : Cursor) : Option (List Char × Cursor) := do
  let (chomping, increment, c) ← readHeader c
  let c := c.skipWhile isBlank
  let c := if c.peek == some '#' then c.skipWhile (!isBreak ·) else c
  if !c.breakHere then none
  else
    let c := c.readBreak.2
    let given := if increment = 0 then 0 else if parent ≥ 0 then parent.toNat + increment else increment
    let (indent, breaks, c) ← readEmptyLines parent (c.rest.length + 1) given 0 [] c
    let (text, leading, trailing, c) ←
      readBlockLines literal parent indent (c.rest.length + 1) [] [] breaks false c
    let text := match chomping with
      | .strip => text
      | .clip => text ++ leading
      | .keep => text ++ leading ++ trailing
    some (text, c)

end FormatHost.Yaml
