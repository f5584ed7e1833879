/-
FormatHost.Json.Source — JSON texts as written.

Reading a text gives a tree that still holds what a value forgets: the
order of the fields, repeated keys, and which strings and numbers have no
value (a lone half of a surrogate pair, a number out of range). Whoever
reads the tree decides what counts: a record ignores what it does not
know, a value takes everything.

* §1 the tree;
* §2 strings;
* §3 values, arrays and objects; `Source.parse?` reads a whole text;
* §4 from the tree to a value: nesting is limited to 127 levels, the last
  field of a key counts.
-/
import FormatHost.Json.Numeral

namespace FormatHost.Json

/-! ## §1 The tree -/

/-- A JSON text as written. -/
inductive Source
  | null
  | bool (b : Bool)
  /-- `none` for a numeral out of range. -/
  | num (n : Option Number)
  /-- `none` for a string that is not Unicode text. -/
  | str (s : Option String)
  | arr (items : List Source)
  | obj (fields : List (Option String × Source))
  deriving Repr, Inhabited

/-- Blank, tab, line feed and carriage return may stand between tokens. -/
def isSpace (c : Char) : Bool := c = ' ' || c = '\t' || c = '\n' || c = '\r'

def skipSpace (cs : List Char) : List Char := cs.dropWhile isSpace

/-! ## §2 Strings -/

/-- A piece of a string: a character, or one half of a surrogate pair. -/
inductive Piece
  | char (c : Char)
  | half (unit : Nat)
  deriving Repr

/-- The UTF-16 unit of four hexadecimal digits. -/
def unitPiece (unit : Nat) : Piece :=
  if 0xD800 ≤ unit ∧ unit < 0xE000 then .half unit else .char (Char.ofNat unit)

/-- The character of an escape letter. -/
def escape? : Char → Option Char
  | '"' => some '"'
  | '\\' => some '\\'
  | '/' => some '/'
  | 'b' => some '\x08'
  | 'f' => some '\x0c'
  | 'n' => some '\n'
  | 'r' => some '\r'
  | 't' => some '\t'
  | _ => none

/-- The pieces up to the closing quote, and what follows it. Control
characters may not stand in a string. -/
def readPieces : List Char → Option (List Piece × List Char)
  | [] => none
  | '"' :: rest => some ([], rest)
  | '\\' :: 'u' :: a :: b :: c :: d :: rest => do
    let a ← Text.hexDigit? a
    let b ← Text.hexDigit? b
    let c ← Text.hexDigit? c
    let d ← Text.hexDigit? d
    let (ps, rest) ← readPieces rest
    some (unitPiece (((a * 16 + b) * 16 + c) * 16 + d) :: ps, rest)
  | '\\' :: e :: rest => do
    let c ← escape? e
    let (ps, rest) ← readPieces rest
    some (.char c :: ps, rest)
  | c :: rest => do
    if c.toNat < 0x20 || c = '\\' then none
    else
      let (ps, rest) ← readPieces rest
      some (.char c :: ps, rest)

/-- The characters of the pieces; two halves, high then low, make one. -/
def joinPieces : List Piece → Option (List Char)
  | [] => some []
  | .char c :: ps => (joinPieces ps).map (c :: ·)
  | .half hi :: .half lo :: ps =>
    if hi < 0xDC00 ∧ 0xDC00 ≤ lo then
      (joinPieces ps).map (Char.ofNat (0x10000 + (hi - 0xD800) * 0x400 + (lo - 0xDC00)) :: ·)
    else none
  | .half _ :: _ => none

/-- A string after its opening quote. -/
def readString (cs : List Char) : Option (Option String × List Char) := do
  let (ps, rest) ← readPieces cs
  some ((joinPieces ps).map String.ofList, rest)

/-! ## §3 Values -/

mutual

/-- A value at the front; `fuel` bounds the tokens read. -/
def readValue : Nat → List Char → Option (Source × List Char)
  | 0, _ => none
  | fuel + 1, cs =>
    match skipSpace cs with
    | '"' :: rest => do
      let (s, rest) ← readString rest
      some (.str s, rest)
    | '{' :: rest =>
      match skipSpace rest with
      | '}' :: rest => some (.obj [], rest)
      | rest => do
        let (fields, rest) ← readFields fuel rest
        some (.obj fields, rest)
    | '[' :: rest =>
      match skipSpace rest with
      | ']' :: rest => some (.arr [], rest)
      | rest => do
        let (items, rest) ← readItems fuel rest
        some (.arr items, rest)
    | 't' :: 'r' :: 'u' :: 'e' :: rest => some (.bool true, rest)
    | 'f' :: 'a' :: 'l' :: 's' :: 'e' :: rest => some (.bool false, rest)
    | 'n' :: 'u' :: 'l' :: 'l' :: rest => some (.null, rest)
    | rest => do
      let (n, rest) ← Numeral.read rest
      some (.num n.number?, rest)

/-- The items of an array up to its closing bracket. -/
def readItems : Nat → List Char → Option (List Source × List Char)
  | 0, _ => none
  | fuel + 1, cs => do
    let (v, rest) ← readValue fuel cs
    match skipSpace rest with
    | ',' :: rest =>
      let (vs, rest) ← readItems fuel rest
      some (v :: vs, rest)
    | ']' :: rest => some ([v], rest)
    | _ => none

/-- The fields of an object up to its closing brace. -/
def readFields : Nat → List Char → Option (List (Option String × Source) × List Char)
  | 0, _ => none
  | fuel + 1, cs => do
    match skipSpace cs with
    | '"' :: rest =>
      let (key, rest) ← readString rest
      match skipSpace rest with
      | ':' :: rest =>
        let (v, rest) ← readValue fuel rest
        match skipSpace rest with
        | ',' :: rest =>
          let (fields, rest) ← readFields fuel rest
          some ((key, v) :: fields, rest)
        | '}' :: rest => some ([(key, v)], rest)
        | _ => none
      | _ => none
    | _ => none

end

/-- A whole text: one value and nothing but blanks around it. -/
def Source.parse? (text : String) : Option Source := do
  let cs := text.toList
  let (v, rest) ← readValue (2 * cs.length + 1) cs
  if (skipSpace rest).isEmpty then some v else none

/-! ## §4 Values -/

/-- Arrays and objects may be nested this deep. -/
def nesting : Nat := 127

mutual

/-- The value of a tree with at most `levels` arrays and objects inside
one another. -/
def Source.value? : Nat → Source → Option Value
  | _, .null => some .null
  | _, .bool b => some (.bool b)
  | _, .num n => n.map .num
  | _, .str s => s.map .str
  | 0, .arr _ => none
  | 0, .obj _ => none
  | levels + 1, .arr items => (itemValues? levels items).map .arr
  | levels + 1, .obj fields => (fieldValues? levels fields).map fun fs => .obj (Fields.ofList fs)

def itemValues? : Nat → List Source → Option (List Value)
  | _, [] => some []
  | levels, item :: items => do
    let v ← item.value? levels
    let vs ← itemValues? levels items
    some (v :: vs)

def fieldValues? : Nat → List (Option String × Source) → Option (List (String × Value))
  | _, [] => some []
  | levels, (key, item) :: fields => do
    let k ← key
    let v ← item.value? levels
    let vs ← fieldValues? levels fields
    some ((k, v) :: vs)

end

/-- The value of a JSON text. -/
def Value.parse? (text : String) : Option Value :=
  (Source.parse? text).bind (Source.value? nesting)

mutual

/-- A value as a tree. -/
def Value.source : Value → Source
  | .null => .null
  | .bool b => .bool b
  | .num n => .num (some n)
  | .str s => .str (some s)
  | .arr items => .arr (itemSources items)
  | .obj fields => .obj (fieldSources fields)

def itemSources : List Value → List Source
  | [] => []
  | v :: vs => v.source :: itemSources vs

def fieldSources : List (String × Value) → List (Option String × Source)
  | [] => []
  | (k, v) :: fs => (some k, v.source) :: fieldSources fs

end
end FormatHost.Json
