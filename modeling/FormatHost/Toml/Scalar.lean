/-
FormatHost.Toml.Scalar — keys, strings, numbers and dates of TOML.

Every reader takes its form off the front of a list of characters and
returns the rest. A reader answers in one of three ways: it does not
apply, it applies and fails, or it yields; once it is clear what a text
is meant to be, no other reading is tried.

* §1 the three answers;
* §2 strings in one and in several lines;
* §3 keys;
* §4 numbers;
* §5 dates and times, written back in one normal form.
-/
import FormatHost.Bits
import FormatHost.Decimal.Nearest
import FormatHost.Json.Value

namespace FormatHost.Toml

open Json

/-! ## §1 Answers -/

/-- What a reader makes of a text. -/
inductive Reading (α : Type)
  /-- The text is something else. -/
  | other
  /-- The text is a broken form of what is read. -/
  | broken
  | yields (a : α) (rest : List Char)

namespace Reading

variable {α β : Type}

def map (f : α → β) : Reading α → Reading β
  | .other => .other
  | .broken => .broken
  | .yields a rest => .yields (f a) rest

/-- The second reading when the first does not apply. -/
def orElse (r : Reading α) (s : Unit → Reading α) : Reading α :=
  match r with
  | .other => s ()
  | r => r

/-- A reading that has to apply. -/
def ofOption : Option (α × List Char) → Reading α
  | some (a, rest) => .yields a rest
  | none => .broken

end Reading

/-! ## §2 Strings -/

def isBlank (c : Char) : Bool := c = ' ' || c = '\t'

def skipBlanks (cs : List Char) : List Char := cs.dropWhile isBlank

/-- The rest after one line end. -/
def lineEnd? : List Char → Option (List Char)
  | '\n' :: rest => some rest
  | '\r' :: '\n' :: rest => some rest
  | _ => none

/-- Characters that may stand in texts and comments: no control character
but the tab. -/
def isPlain (c : Char) : Bool := c = '\t' || (c.toNat ≥ 0x20 && c.toNat ≠ 0x7F)

/-- A character by the digits of its code point. -/
def codePoint? (digits : List Char) : Option Char := do
  let n ← Text.readDigits 16 Text.hexDigit? 0 digits
  if n < 0xD800 ∨ (0xE000 ≤ n ∧ n < 0x110000) then some (Char.ofNat n) else none

/-- The character of an escape after its backslash. -/
def readEscape : List Char → Option (Char × List Char)
  | 'b' :: r => some ('\x08', r)
  | 't' :: r => some ('\t', r)
  | 'n' :: r => some ('\n', r)
  | 'f' :: r => some ('\x0c', r)
  | 'r' :: r => some ('\r', r)
  | '"' :: r => some ('"', r)
  | '\\' :: r => some ('\\', r)
  | 'u' :: a :: b :: c :: d :: r => (codePoint? [a, b, c, d]).map (·, r)
  | 'U' :: a :: b :: c :: d :: e :: f :: g :: h :: r =>
    (codePoint? [a, b, c, d, e, f, g, h]).map (·, r)
  | _ => none

/-- A string in double quotes, after the opening one. -/
def readBasic : Nat → List Char → Option (List Char × List Char)
  | 0, _ => none
  | _ + 1, [] => none
  | _ + 1, '"' :: rest => some ([], rest)
  | fuel + 1, '\\' :: rest => do
    let (c, rest) ← readEscape rest
    let (cs, rest) ← readBasic fuel rest
    some (c :: cs, rest)
  | fuel + 1, c :: rest => do
    if isPlain c then
      let (cs, rest) ← readBasic fuel rest
      some (c :: cs, rest)
    else none

/-- A string in single quotes, after the opening one. -/
def readLiteral : List Char → Option (List Char × List Char)
  | [] => none
  | '\'' :: rest => some ([], rest)
  | c :: rest => do
    if isPlain c then
      let (cs, rest) ← readLiteral rest
      some (c :: cs, rest)
    else none

/-- The rest after the opening quotes' own line end. -/
def skipFirstEnd (cs : List Char) : List Char := (lineEnd? cs).getD cs

/-- Quotes at the end of a text in three quotes: up to two more belong to
the text. -/
def closing? (q : Char) : List Char → Option (List Char × List Char)
  | a :: b :: c :: rest =>
    if a = q ∧ b = q ∧ c = q then
      match rest with
      | d :: e :: rest' =>
        if d = q ∧ e = q then some ([q, q], rest')
        else if d = q then some ([q], e :: rest')
        else some ([], rest)
      | [d] => if d = q then some ([q], []) else some ([], [d])
      | [] => some ([], [])
    else none
  | _ => none

/-- Blanks and line ends. -/
def skipBlankLines : Nat → List Char → List Char
  | 0, cs => cs
  | fuel + 1, cs =>
    match lineEnd? (skipBlanks cs) with
    | some rest => skipBlankLines fuel rest
    | none => skipBlanks cs

/-- A text in three double quotes. A backslash at the end of a line takes
away all blanks and line ends after it. -/
def readLongBasic : Nat → List Char → Option (List Char × List Char)
  | 0, _ => none
  | fuel + 1, cs =>
    match closing? '"' cs with
    | some found => some found
    | none =>
      match cs with
      | [] => none
      | '\\' :: rest =>
        match lineEnd? (skipBlanks rest) with
        | some after => readLongBasic fuel (skipBlankLines (after.length + 1) after)
        | none => do
          let (c, rest) ← readEscape rest
          let (more, rest) ← readLongBasic fuel rest
          some (c :: more, rest)
      | c :: rest =>
        match lineEnd? cs with
        | some rest => (readLongBasic fuel rest).map fun (more, rest) => ('\n' :: more, rest)
        | none =>
          if isPlain c then (readLongBasic fuel rest).map fun (more, rest) => (c :: more, rest)
          else none

/-- A text in three single quotes. -/
def readLongLiteral : Nat → List Char → Option (List Char × List Char)
  | 0, _ => none
  | fuel + 1, cs =>
    match closing? '\'' cs with
    | some found => some found
    | none =>
      match cs with
      | [] => none
      | c :: rest =>
        match lineEnd? cs with
        | some rest => (readLongLiteral fuel rest).map fun (more, rest) => ('\n' :: more, rest)
        | none =>
          if isPlain c then (readLongLiteral fuel rest).map fun (more, rest) => (c :: more, rest)
          else none

/-- A string of any form. -/
def readString (cs : List Char) : Reading String :=
  let size := cs.length + 1
  let found := match cs with
    | '"' :: '"' :: '"' :: rest => some (readLongBasic size (skipFirstEnd rest))
    | '\'' :: '\'' :: '\'' :: rest => some (readLongLiteral size (skipFirstEnd rest))
    | '"' :: rest => some (readBasic size rest)
    | '\'' :: rest => some (readLiteral rest)
    | _ => none
  match found with
  | none => .other
  | some r => (Reading.ofOption r).map String.ofList

/-! ## §3 Keys -/

def isKeyChar (c : Char) : Bool :=
  ('a' ≤ c && c ≤ 'z') || ('A' ≤ c && c ≤ 'Z') || ('0' ≤ c && c ≤ '9') || c = '-' || c = '_'

/-- One part of a key. -/
def readKeyPart (cs : List Char) : Option (String × List Char) :=
  match cs with
  | '"' :: rest => (readBasic (cs.length + 1) rest).map fun (s, rest) => (String.ofList s, rest)
  | '\'' :: rest => (readLiteral rest).map fun (s, rest) => (String.ofList s, rest)
  | _ =>
    match cs.takeWhile isKeyChar with
    | [] => none
    | word => some (String.ofList word, cs.dropWhile isKeyChar)

/-- The parts of a key between dots, blanks around them passed over. -/
def readKeyParts : Nat → List Char → Option (List String × List Char)
  | 0, _ => none
  | fuel + 1, cs => do
    let (part, rest) ← readKeyPart (skipBlanks cs)
    match skipBlanks rest with
    | '.' :: rest =>
      let (parts, rest) ← readKeyParts fuel rest
      some (part :: parts, rest)
    | rest => some ([part], rest)

/-- Keys and values are nested less deep than this. -/
def depthLimit : Nat := 80

/-- A key: the tables on the way, and the last part. -/
def readKey (cs : List Char) : Option ((List String × String) × List Char) := do
  let (parts, rest) ← readKeyParts (cs.length + 1) cs
  if parts.length < depthLimit then some ((parts.dropLast, parts.getLastD ""), rest) else none

/-! ## §4 Numbers -/

/-- Digits with single underscores between them, without these. Broken
when an underscore is not followed by a digit. -/
def readDigitRun (isDigit : Char → Bool) : List Char → Option (List Char × List Char)
  | [] => some ([], [])
  | '_' :: c :: rest =>
    if isDigit c then (readDigitRun isDigit rest).map fun (ds, rest) => (c :: ds, rest) else none
  | c :: rest =>
    if c = '_' then none
    else if isDigit c then (readDigitRun isDigit rest).map fun (ds, rest) => (c :: ds, rest)
    else some ([], c :: rest)

/-- A run that starts with a digit. -/
def readRun (isDigit : Char → Bool) : List Char → Reading (List Char)
  | [] => .other
  | c :: rest =>
    if isDigit c then (Reading.ofOption (readDigitRun isDigit rest)).map (c :: ·) else .other

def isDecimal (c : Char) : Bool := (Text.digit? c).isSome

/-- A decimal whole number without its sign: no leading zeros. -/
def readWhole : List Char → Reading (List Char)
  | '0' :: rest => .yields ['0'] rest
  | cs => readRun isDecimal cs

def takeSign : List Char → Option Bool × List Char
  | '+' :: r => (some false, r)
  | '-' :: r => (some true, r)
  | r => (none, r)

/-- A run of digits that has to be there. -/
def requireRun (cs : List Char) : Option (List Char × List Char) :=
  match readRun isDecimal cs with
  | .yields ds rest => some (ds, rest)
  | _ => none

/-- The exponent at the front: none, broken, or its value. -/
def readExponent (cs : List Char) : Option (Option Int × List Char) :=
  match cs with
  | c :: rest =>
    if c = 'e' || c = 'E' then do
      let (down, rest) := takeSign rest
      let (ds, rest) ← requireRun rest
      let n : Nat := (Text.decimal? ds).getD 0
      some (some (if down = some true then -(n : Int) else n), rest)
    else some (none, cs)
  | [] => some (none, [])

/-- A binary64 number as a value; what is not finite is `null`. A positive
number too large for binary64 is refused, a negative one is not. -/
def floatValue? (x : Float) : Option Value :=
  if x.isInf && x > 0.0 then none else some (Value.ofFloat x)

/-- A number with a point or an exponent. -/
def readDecimal (cs : List Char) : Reading Value :=
  let (sign, rest) := takeSign cs
  let negative := sign = some true
  match readWhole rest with
  | .other => .other
  | .broken => .broken
  | .yields whole rest =>
    let value (fraction : List Char) (e : Int) (rest : List Char) : Reading Value :=
      match floatValue? (Decimal.ofDigits negative whole fraction e) with
      | some v => .yields v rest
      | none => .broken
    match rest with
    | '.' :: rest =>
      match requireRun rest with
      | none => .broken
      | some (fraction, rest) =>
        match readExponent rest with
        | none => .broken
        | some (e, rest) => value fraction (e.getD 0) rest
    | rest =>
      match readExponent rest with
      | none => .broken
      | some (none, _) => .other
      | some (some e, rest) => value [] e rest

/-- The words for numbers that are not finite; they have no JSON value. -/
def readSpecial (cs : List Char) : Reading Value :=
  let (_, rest) := takeSign cs
  match rest with
  | 'i' :: 'n' :: 'f' :: rest => .yields .null rest
  | 'n' :: 'a' :: 'n' :: rest => .yields .null rest
  | _ => .other

/-- A whole number of 63 bits and a sign. -/
def intValue? (i : Int) : Option Value :=
  if -(bitValues 63 : Int) ≤ i ∧ i < (bitValues 63 : Int) then some (.num (.int i)) else none

def isBaseDigit (base : Nat) (c : Char) : Bool := ((Text.hexDigit? c).filter (· < base)).isSome

def readBased (base : Nat) (cs : List Char) : Reading Value :=
  match readRun (isBaseDigit base) cs with
  | .yields ds rest =>
    match (Text.readDigits base Text.hexDigit? 0 ds).bind fun n => intValue? (n : Int) with
    | some v => .yields v rest
    | none => .broken
  | _ => .broken

def readInteger (cs : List Char) : Reading Value :=
  match cs with
  | '0' :: 'x' :: rest => readBased 16 rest
  | '0' :: 'o' :: rest => readBased 8 rest
  | '0' :: 'b' :: rest => readBased 2 rest
  | _ =>
    let (sign, rest) := takeSign cs
    match readWhole rest with
    | .yields ds rest =>
      let n : Nat := (Text.decimal? ds).getD 0
      match intValue? (if sign = some true then -(n : Int) else n) with
      | some v => .yields v rest
      | none => .broken
    | _ => .broken

/-! ## §5 Dates and times -/

/-- A number of exactly `n` digits. -/
def fixedDigits? (n : Nat) (cs : List Char) : Option (Nat × List Char) :=
  let ds := cs.take n
  if ds.length = n ∧ ds.all isDecimal then (Text.decimal? ds).map (·, cs.drop n) else none

def bounded? (low high : Nat) (cs : List Char) : Option (Nat × List Char) :=
  (fixedDigits? 2 cs).filter fun (n, _) => low ≤ n && n ≤ high

def isLeap (year : Nat) : Bool := year % 4 = 0 && (year % 100 ≠ 0 || year % 400 = 0)

def daysIn (year month : Nat) : Nat :=
  if month = 2 then (if isLeap year then 29 else 28)
  else if month = 4 ∨ month = 6 ∨ month = 9 ∨ month = 11 then 30
  else 31

/-- A number in at least `width` digits. -/
def padded (width n : Nat) : String :=
  let ds := toString n
  String.ofList (List.replicate (width - ds.length) '0') ++ ds

def expect (c : Char) : List Char → Option (List Char)
  | d :: rest => if c = d then some rest else none
  | [] => none

/-- A day of the calendar. -/
def readDate (cs : List Char) : Reading String :=
  match fixedDigits? 4 cs with
  | some (year, '-' :: rest) => Reading.ofOption do
    let (month, rest) ← bounded? 1 12 rest
    let rest ← expect '-' rest
    let (day, rest) ← bounded? 1 (daysIn year month) rest
    some (padded 4 year ++ "-" ++ padded 2 month ++ "-" ++ padded 2 day, rest)
  | _ => .other

/-- The fraction of a second: nine digits count, zeros at the end are not
written. -/
def fractionText (ds : List Char) : String :=
  match Text.dropRightWhile (· = '0') (ds.take 9) with
  | [] => ""
  | ds => "." ++ String.ofList ds

def readFraction (cs : List Char) : String × List Char :=
  match cs with
  | '.' :: rest =>
    match rest.takeWhile isDecimal with
    | [] => ("", cs)
    | ds => (fractionText ds, rest.dropWhile isDecimal)
  | _ => ("", cs)

/-- A time of day. -/
def readTime (cs : List Char) : Reading String :=
  match bounded? 0 23 cs with
  | some (hour, ':' :: rest) => Reading.ofOption do
    let (minute, rest) ← bounded? 0 59 rest
    let rest ← expect ':' rest
    let (second, rest) ← bounded? 0 60 rest
    let (fraction, rest) := readFraction rest
    some (padded 2 hour ++ ":" ++ padded 2 minute ++ ":" ++ padded 2 second ++ fraction, rest)
  | _ => .other

/-- The distance from universal time; the sign of no distance is `+`. -/
def readOffset (cs : List Char) : Reading String :=
  let distance (sign : String) (rest : List Char) : Reading String := Reading.ofOption do
    let (hour, rest) ← bounded? 0 23 rest
    let rest ← expect ':' rest
    let (minute, rest) ← bounded? 0 59 rest
    let sign := if hour = 0 ∧ minute = 0 then "+" else sign
    some (sign ++ padded 2 hour ++ ":" ++ padded 2 minute, rest)
  match cs with
  | '+' :: rest => distance "+" rest
  | '-' :: rest => distance "-" rest
  | c :: rest => if c = 'Z' ∨ c = 'z' then .yields "Z" rest else .other
  | [] => .other

/-- The text of a date, a time, or both with an optional offset. -/
def readMoment (cs : List Char) : Reading String :=
  match readDate cs with
  | .broken => .broken
  | .other => readTime cs
  | .yields date rest =>
    match rest with
    | c :: after =>
      if c = 'T' ∨ c = 't' ∨ c = ' ' then
        match readTime after with
        | .broken => .broken
        | .other => .yields date rest
        | .yields time rest =>
          match readOffset rest with
          | .broken => .broken
          | .other => .yields (date ++ "T" ++ time) rest
          | .yields offset rest => .yields (date ++ "T" ++ time ++ offset) rest
      else .yields date rest
    | [] => .yields date rest

/-- The field that marks an object as a date. -/
def momentField : String := "$__toml_private_datetime"

/-- A date as a JSON value. -/
def momentValue (text : String) : Value := .obj [(momentField, .str text)]

end FormatHost.Toml
