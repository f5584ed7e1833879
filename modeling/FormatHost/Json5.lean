/-
FormatHost.Json5 — JSON with comments, words as keys and more numbers.

* §1 what may stand between tokens: blanks and comments;
* §2 numbers: whole ones of 64 bits, hexadecimal ones of 32, decimals, and
  the words `Infinity` and `NaN`, which have no JSON value;
* §3 strings in either quote, and words;
* §4 values; a comma may follow the last item.
-/
import FormatHost.Bits
import FormatHost.Decimal.Nearest
import FormatHost.Json.Source
import FormatHost.Text.Category

namespace FormatHost.Json5

open Json

/-! ## §1 Between tokens -/

def isLineEnd (c : Char) : Bool :=
  c = '\n' || c = '\r' || c.toNat = 0x2028 || c.toNat = 0x2029

def isSpace (c : Char) : Bool :=
  let n := c.toNat
  isLineEnd c || n = 9 || n = 11 || n = 12 || n = 0x20 || n = 0xA0 || n = 0xFEFF ||
    n = 0x1680 || (0x2000 ≤ n && n ≤ 0x200A) || n = 0x202F || n = 0x205F || n = 0x3000

/-- What follows the end of a comment in `/*`. -/
def afterBlockComment? : List Char → Option (List Char)
  | [] => none
  | '*' :: '/' :: rest => some rest
  | _ :: rest => afterBlockComment? rest

/-- What follows blanks and comments; a comment that is never closed is
not one. -/
def skip : Nat → List Char → List Char
  | 0, cs => cs
  | fuel + 1, cs =>
    match cs.dropWhile isSpace with
    | '/' :: '/' :: rest => skip fuel (rest.dropWhile fun c => !isLineEnd c)
    | '/' :: '*' :: rest =>
      match afterBlockComment? rest with
      | some rest => skip fuel rest
      | none => '/' :: '*' :: rest
    | rest => rest

def skipSpace (cs : List Char) : List Char := skip (cs.length + 1) cs

/-! ## §2 Numbers -/

/-- The digits at the front for which `p` holds, and the rest. -/
def span (p : Char → Bool) (cs : List Char) : List Char × List Char :=
  (cs.takeWhile p, cs.dropWhile p)

def isHexDigit (c : Char) : Bool := (Text.hexDigit? c).isSome

def isDecimalDigit (c : Char) : Bool := (Text.digit? c).isSome

/-- A whole number between −2^63 and 2^63 − 1. -/
def word? (i : Int) : Option Value :=
  if -(bitValues 63 : Int) ≤ i ∧ i < (bitValues 63 : Int) then some (.num (.int i)) else none

/-- The exponent at the front, when there is one. -/
def readExponent (cs : List Char) : Option Int × List Char :=
  match cs with
  | c :: rest =>
    if c = 'e' || c = 'E' then
      let (down, rest) := match rest with
        | '-' :: r => (true, r)
        | '+' :: r => (false, r)
        | r => (false, r)
      match span isDecimalDigit rest with
      | ([], _) => (none, cs)
      | (ds, rest) =>
        let n : Nat := (Text.decimal? ds).getD 0
        (some (if down then -(n : Int) else n), rest)
    else (none, cs)
  | [] => (none, [])

/-- A number's value: nothing for one that is too large. -/
def finite? (x : Float) : Option Value := if x.isFinite then some (.num (.float x.toBits)) else none

/-- A number at the front: its value, when it has one, and the rest. A
sign before a hexadecimal number is part of the format but such a number
has no value, and neither has `+Infinity`. -/
def readNumber (cs : List Char) : Option (Option Value × List Char) :=
  let (sign, rest) := match cs with
    | '+' :: r => (some '+', r)
    | '-' :: r => (some '-', r)
    | r => (none, r)
  match Text.stripFront "Infinity".toList rest, Text.stripFront "NaN".toList rest with
  | some rest, _ => some (if sign = some '+' then none else some .null, rest)
  | none, some rest => some (if sign = some '+' then none else some .null, rest)
  | none, none =>
    let hex? := match rest with
      | '0' :: x :: r => if x = 'x' || x = 'X' then some (span isHexDigit r) else none
      | _ => none
    match hex? with
    | some (ds@(_ :: _), rest) =>
      let n := (Text.readDigits 16 Text.hexDigit? 0 ds).getD 0
      some (if sign.isNone ∧ n < bitValues 32 then some (.num (.int n)) else none, rest)
    | _ =>
      let (whole, rest) := match rest with
        | '0' :: r => (['0'], r)
        | r => span isDecimalDigit r
      let (point, fraction, rest) := match rest with
        | '.' :: r => let (ds, r) := span isDecimalDigit r; (true, ds, r)
        | r => (false, [], r)
      if whole.isEmpty && fraction.isEmpty then none
      else
        let (exponent, rest) := readExponent rest
        let negative := sign = some '-'
        if point || exponent.isSome then
          some (finite? (Decimal.ofDigits negative whole fraction (exponent.getD 0)), rest)
        else
          let n : Nat := (Text.decimal? whole).getD 0
          some (word? (if negative then -(n : Int) else n), rest)

/-! ## §3 Strings and words -/

/-- The UTF-16 unit of four hexadecimal digits at the front. -/
def readUnit : List Char → Option (Nat × List Char)
  | a :: b :: c :: d :: rest => do
    some (← Text.readDigits 16 Text.hexDigit? 0 [a, b, c, d], rest)
  | _ => none

/-- The piece of an escape after its backslash; no piece for a line end,
which only continues the line. -/
def readEscape : List Char → Option (Option Piece × List Char)
  | 'u' :: rest => (readUnit rest).map fun (n, rest) => (some (unitPiece n), rest)
  | 'x' :: a :: b :: rest => do
    some (some (.char (Char.ofNat (← Text.readDigits 16 Text.hexDigit? 0 [a, b]))), rest)
  | '0' :: rest =>
    if (rest.head?).any isDecimalDigit then none else some (some (.char '\x00'), rest)
  | '\r' :: '\n' :: rest => some (none, rest)
  | c :: rest =>
    if isLineEnd c then some (none, rest)
    else if c = 'x' || isDecimalDigit c then none
    else
      let meant := match c with
        | 'b' => '\x08'
        | 'f' => '\x0c'
        | 'n' => '\n'
        | 'r' => '\r'
        | 't' => '\t'
        | 'v' => '\x0b'
        | c => c
      some (some (.char meant), rest)
  | [] => none

/-- The pieces of a string up to the closing quote. -/
def readPieces (quote : Char) : Nat → List Char → Option (List Piece × List Char)
  | 0, _ => none
  | _ + 1, [] => none
  | fuel + 1, c :: cs => do
    if c = quote then some ([], cs)
    else if c = '\\' then
      let (piece?, rest) ← readEscape cs
      let (ps, rest) ← readPieces quote fuel rest
      some (piece?.toList ++ ps, rest)
    else if c = '\n' || c = '\r' then none
    else
      let (ps, rest) ← readPieces quote fuel cs
      some (.char c :: ps, rest)

def readString (quote : Char) (cs : List Char) : Option (Option String × List Char) := do
  let (ps, rest) ← readPieces quote (cs.length + 1) cs
  some ((joinPieces ps).map String.ofList, rest)

def isWordStart (c : Char) : Bool := c = '$' || c = '_' || Text.isLetter c

def isWordPart (c : Char) : Bool :=
  isWordStart c || Text.isMark c || Text.isDigit c || c.toNat = 0x200C || c.toNat = 0x200D

/-- The pieces of a word; a character may be written as an escape. -/
def readWordPieces : Nat → List Char → List Piece × List Char
  | 0, cs => ([], cs)
  | fuel + 1, cs =>
    match cs with
    | '\\' :: 'u' :: rest =>
      match readUnit rest with
      | some (n, rest) => let (ps, rest) := readWordPieces fuel rest; (unitPiece n :: ps, rest)
      | none => ([], cs)
    | c :: rest =>
      if isWordPart c then
        let (ps, rest) := readWordPieces fuel rest
        (.char c :: ps, rest)
      else ([], cs)
    | [] => ([], [])

/-- A key: a string or a word. -/
def readKey (cs : List Char) : Option (Option String × List Char) :=
  match cs with
  | '"' :: rest => readString '"' rest
  | '\'' :: rest => readString '\'' rest
  | c :: _ =>
    if isWordStart c || c = '\\' then
      match readWordPieces (cs.length + 1) cs with
      | ([], _) => none
      | (ps, rest) => some ((joinPieces ps).map String.ofList, rest)
    else none
  | [] => none

/-! ## §4 Values -/

mutual

/-- A value at the front; `fuel` bounds the tokens read. A value that is
well-formed but has no meaning is `none`. -/
def readValue : Nat → List Char → Option (Option Value × List Char)
  | 0, _ => none
  | fuel + 1, cs =>
    match skipSpace cs with
    | '"' :: rest => (readString '"' rest).map fun (s, rest) => (s.map .str, rest)
    | '\'' :: rest => (readString '\'' rest).map fun (s, rest) => (s.map .str, rest)
    | '{' :: rest => (readFields fuel rest).map fun (fs, rest) =>
        (fs.map fun fs => .obj (Fields.ofList fs), rest)
    | '[' :: rest => (readItems fuel rest).map fun (vs, rest) => (vs.map .arr, rest)
    | 't' :: 'r' :: 'u' :: 'e' :: rest => some (some (.bool true), rest)
    | 'f' :: 'a' :: 'l' :: 's' :: 'e' :: rest => some (some (.bool false), rest)
    | 'n' :: 'u' :: 'l' :: 'l' :: rest => some (some .null, rest)
    | rest => readNumber rest

/-- Items up to the closing bracket. -/
def readItems : Nat → List Char → Option (Option (List Value) × List Char)
  | 0, _ => none
  | fuel + 1, cs =>
    match skipSpace cs with
    | ']' :: rest => some (some [], rest)
    | cs => do
      let (v, rest) ← readValue fuel cs
      match skipSpace rest with
      | ',' :: rest =>
        let (vs, rest) ← readItems fuel rest
        some ((do return (← v) :: (← vs)), rest)
      | ']' :: rest => some (v.map ([·]), rest)
      | _ => none

/-- Fields up to the closing brace. -/
def readFields : Nat → List Char → Option (Option (List (String × Value)) × List Char)
  | 0, _ => none
  | fuel + 1, cs =>
    match skipSpace cs with
    | '}' :: rest => some (some [], rest)
    | cs => do
      let (key, rest) ← readKey cs
      match skipSpace rest with
      | ':' :: rest =>
        let (v, rest) ← readValue fuel rest
        let field := do return ((← key), (← v))
        match skipSpace rest with
        | ',' :: rest =>
          let (fs, rest) ← readFields fuel rest
          some ((do return (← field) :: (← fs)), rest)
        | '}' :: rest => some (field.map ([·]), rest)
        | _ => none
      | _ => none

end

/-- The value of a whole text. -/
def value? (text : String) : Option Value := do
  let cs := text.toList
  let (v, rest) ← readValue (2 * cs.length + 2) cs
  if (skipSpace rest).isEmpty then v else none

end FormatHost.Json5
