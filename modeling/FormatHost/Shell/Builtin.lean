/-
FormatHost.Shell.Builtin — commands that only look at their words.

Each command here is a function from its words to what it writes, what it
complains about and the status it ends with.

* §1 results;
* §2 escapes, and `echo`;
* §3 `printf`;
* §4 `test`.
-/
import FormatHost.Bits
import FormatHost.Disk

namespace FormatHost.Shell

/-! ## §1 Results -/

/-- What a command writes, and its status. -/
structure Written where
  status : Nat := 0
  output : List UInt8 := []
  errors : List UInt8 := []
  /-- Messages that the shell puts its own name in front of. -/
  complaints : List String := []
  deriving Repr, DecidableEq

def bytes (s : String) : List UInt8 := Text.Utf8.encode s.toList

/-- A failure of a tool, with its message on a line. -/
def failure (status : Nat) (message : String) : Written :=
  { status, errors := bytes (message ++ "\n") }

/-- A failure that the shell reports. -/
def complaint (status : Nat) (message : String) : Written := { status, complaints := [message] }

def ofCondition (b : Bool) : Written := { status := if b then 0 else 1 }

/-! ## §2 Escapes -/

def isOctal (c : Char) : Bool := '0' ≤ c && c ≤ '7'

/-- The byte of up to three octal digits at the front, and what follows. -/
def readOctal (cs : List Char) : UInt8 × List Char :=
  let ds := (cs.take 3).takeWhile isOctal
  (UInt8.ofNat ((Text.readDigits 8 Text.digit? 0 ds).getD 0 % 256), cs.drop ds.length)

/-- The byte of an escape letter. -/
def escapeByte? : Char → Option UInt8
  | 'a' => some 7
  | 'b' => some 8
  | 'f' => some 12
  | 'n' => some 10
  | 'r' => some 13
  | 't' => some 9
  | 'v' => some 11
  | '\\' => some 92
  | _ => none

/-- The byte of an escape at the front, after its backslash. -/
def readEscape (cs : List Char) : UInt8 × List Char :=
  match cs with
  | c :: rest =>
    match escapeByte? c with
    | some b => (b, rest)
    | none => if isOctal c then readOctal cs else (92, cs)
  | [] => (92, [])

/-- A text with its escapes replaced, and whether one of them ended all
output. An octal number may start with a zero of its own. -/
def unescape : Nat → List Char → List UInt8 × Bool
  | 0, _ => ([], false)
  | _ + 1, [] => ([], false)
  | _ + 1, '\\' :: 'c' :: _ => ([], true)
  | fuel + 1, '\\' :: '0' :: rest =>
    let (b, rest) := readOctal rest
    let (out, ended) := unescape fuel rest
    (b :: out, ended)
  | fuel + 1, '\\' :: rest =>
    let (b, rest) := readEscape rest
    let (out, ended) := unescape fuel rest
    (b :: out, ended)
  | fuel + 1, c :: rest =>
    let (out, ended) := unescape fuel rest
    (Text.Utf8.encode [c] ++ out, ended)

def unescapeAll (cs : List Char) : List UInt8 × Bool := unescape (cs.length + 1) cs

/-- Write the words on a line; after `-n` the line is not ended. -/
def echo (words : List String) : Written :=
  let (ends, words) := match words with
    | "-n" :: ws => (false, ws)
    | ws => (true, ws)
  let (line, ended) := unescapeAll (" ".intercalate words).toList
  { output := if ends && !ended then line ++ [10] else line }

/-! ## §3 Formats -/

/-- How a value is laid out. -/
structure Layout where
  flags : List Char := []
  width : Nat := 0
  precision : Option Nat := none
  deriving Repr, DecidableEq

/-- Fill a text up to the width. -/
def Layout.pad (l : Layout) (text : List UInt8) : List UInt8 :=
  let blanks := List.replicate (l.width - text.length) (32 : UInt8)
  if l.flags.contains '-' then text ++ blanks else blanks ++ text

/-- A number's sign and digits, laid out. -/
def Layout.number (l : Layout) (sign : String) (digits : String) : List UInt8 :=
  let digits := match l.precision with
    | some p => String.ofList (List.replicate (p - digits.length) '0') ++ digits
    | none => digits
  let missing := l.width - (sign.length + digits.length)
  let zeros := if l.flags.contains '0' && !l.flags.contains '-' && l.precision.isNone then missing
    else 0
  l.pad (bytes (sign ++ String.ofList (List.replicate zeros '0') ++ digits))

/-- The digits of a number: octal after a zero, hexadecimal after `0x`. -/
def numberDigits (cs : List Char) : Nat × List Char :=
  let (base, ds) : Nat × List Char := match cs with
    | '0' :: 'x' :: rest | '0' :: 'X' :: rest => (16, rest)
    | '0' :: rest => (8, '0' :: rest)
    | _ => (10, cs)
  let good (c : Char) : Bool := (Text.hexDigit? c).any (· < base)
  ((Text.readDigits base Text.hexDigit? 0 (ds.takeWhile good)).getD 0, ds.dropWhile good)

/-- The number that a word spells, and what is wrong with it. After a quote
it is the next character. -/
def wordNumber (w : String) : Int × Option String :=
  match w.toList with
  | [] => (0, none)
  | '\'' :: rest | '"' :: rest =>
    (match (bytes (String.ofList rest)).head? with | some b => (b.toNat : Int) | none => 0, none)
  | cs =>
    let trimmed := cs.dropWhile Text.isBlank
    let (negative, ds) : Bool × List Char := match trimmed with
      | '-' :: ds => (true, ds)
      | '+' :: ds => (false, ds)
      | ds => (false, ds)
    let (n, rest) := numberDigits ds
    let fault :=
      if (ds.head?.all fun c => !c.isDigit) then some (w ++ ": expected numeric value")
      else if !rest.isEmpty then some (w ++ ": not completely converted")
      else none
    (if negative then -(n : Int) else n, fault)

/-- What a format makes of the words. -/
structure Filled where
  output : List UInt8 := []
  /-- The words that are left. -/
  words : List String
  complaints : List String := []
  /-- Whether a word was asked for. -/
  asked : Bool := false
  /-- Whether all output has ended. -/
  ended : Bool := false
  deriving Repr, DecidableEq

/-- Put what comes before in front. -/
def Filled.after (f : Filled) (own : List UInt8) (complaint : Option String) : Filled :=
  { f with output := own ++ f.output, complaints := complaint.toList ++ f.complaints }

/-- Flags, width and precision at the front; a star is a word's number. -/
def readLayout (cs : List Char) (ws : List String) : Layout × List Char × List String :=
  let isFlag (c : Char) : Bool := c = '-' || c = '+' || c = ' ' || c = '#' || c = '0'
  let flags := cs.takeWhile isFlag
  let size (cs : List Char) (ws : List String) : Int × List Char × List String :=
    match cs with
    | '*' :: rest => ((wordNumber (ws.headD "")).1, rest, ws.drop 1)
    | _ =>
      let ds := cs.takeWhile Char.isDigit
      (((Text.decimal? ds).getD 0 : Nat), cs.drop ds.length, ws)
  let (width, cs, ws) := size (cs.drop flags.length) ws
  let flags := if width < 0 then '-' :: flags else flags
  match cs with
  | '.' :: rest =>
    let (precision, cs, ws) := size rest ws
    (⟨flags, width.natAbs, some precision.toNat⟩, cs, ws)
  | _ => (⟨flags, width.natAbs, none⟩, cs, ws)

/-- A number in a base below 17. -/
def inBase (base : Nat) (n : Nat) : String := String.ofList (Nat.toDigits base n)

/-- A value of an unsigned conversion: the number modulo 64 bits. -/
def unsignedOf (n : Int) : Nat := (n % bitValues 64).toNat

/-- The text of a number in a conversion. -/
def convert (l : Layout) (conversion : Char) (n : Int) : List UInt8 :=
  let marked (mark digits : String) : List UInt8 :=
    l.number (if l.flags.contains '#' ∧ n ≠ 0 then mark else "") digits
  match conversion with
  | 'x' => marked "0x" (inBase 16 (unsignedOf n))
  | 'X' => marked "0X" (String.ofList ((Nat.toDigits 16 (unsignedOf n)).map Text.upperAscii))
  | 'o' => marked "0" (inBase 8 (unsignedOf n))
  | 'u' => l.number "" (toString (unsignedOf n))
  | _ =>
    let sign := if n < 0 then "-" else if l.flags.contains '+' then "+"
      else if l.flags.contains ' ' then " " else ""
    l.number sign (toString n.natAbs)

/-- Fill a format once. -/
def fillFormat : Nat → List Char → List String → Filled
  | 0, _, ws => { words := ws }
  | _ + 1, [], ws => { words := ws }
  | fuel + 1, '%' :: '%' :: rest, ws => (fillFormat fuel rest ws).after [37] none
  | fuel + 1, '%' :: rest, ws =>
    let (l, rest, ws) := readLayout rest ws
    let w := ws.headD ""
    let short (text : List UInt8) : List UInt8 := match l.precision with
      | some p => text.take p
      | none => text
    match rest with
    | [] =>
      { words := ws, ended := true, complaints := ["missing format character"] }
    | c :: rest =>
      let next (own : List UInt8) (complaint : Option String) : Filled :=
        { (fillFormat fuel rest (ws.drop 1)).after own complaint with asked := true }
      if c = 's' then next (l.pad (short (bytes w))) none
      else if c = 'c' then next (l.pad ((bytes w).take 1)) none
      else if c = 'b' then
        let (text, ended) := unescapeAll w.toList
        if ended then { output := l.pad (short text), words := [], asked := true, ended }
        else next (l.pad (short text)) none
      else if ['d', 'i', 'o', 'u', 'x', 'X'].contains c then
        let (n, fault) := wordNumber w
        next (convert l c n) fault
      else
        { words := ws, ended := true
          complaints := ["%" ++ String.ofList [c] ++ ": invalid directive"] }
  | fuel + 1, '\\' :: rest, ws =>
    let (b, rest) := readEscape rest
    (fillFormat fuel rest ws).after [b] none
  | fuel + 1, c :: rest, ws => (fillFormat fuel rest ws).after (Text.Utf8.encode [c]) none

/-- Fill a format again and again while words are left. -/
def fillAll (format : List Char) : Nat → List String → Filled
  | 0, ws => { words := ws }
  | fuel + 1, ws =>
    let f := fillFormat (format.length + 1) format ws
    if f.asked && !f.ended && !f.words.isEmpty then
      let more := fillAll format fuel f.words
      { more with output := f.output ++ more.output, complaints := f.complaints ++ more.complaints }
    else f

def printf (words : List String) : Written :=
  let words := match words with
    | "--" :: ws => ws
    | ws => ws
  match words with
  | format :: ws =>
    let f := fillAll format.toList (ws.length + 1) ws
    let status := if f.complaints.isEmpty then 0 else if f.ended then 2 else 1
    { status, output := f.output, complaints := f.complaints }
  | [] => complaint 2 "usage: printf format [arg ...]"

/-! ## §4 Tests -/

/-- What a word means in a condition. -/
inductive TestWord
  | unary
  | binary
  | not
  | both
  | either
  | opening
  | closing
  | operand
  deriving Repr, DecidableEq

def testWord (w : String) : TestWord :=
  if ["-r", "-w", "-x", "-e", "-f", "-d", "-c", "-b", "-p", "-u", "-g", "-k", "-s", "-t", "-z",
      "-n", "-h", "-O", "-G", "-L", "-S"].contains w then .unary
  else if ["=", "==", "!=", "<", ">", "-eq", "-ne", "-ge", "-gt", "-le", "-lt", "-nt", "-ot",
      "-ef"].contains w then .binary
  else if w = "!" then .not
  else if w = "-a" then .both
  else if w = "-o" then .either
  else if w = "(" then .opening
  else if w = ")" then .closing
  else .operand

/-- What the word at the front means before the words after it: an
operator that nothing follows, or that stands before another operator, is
an operand. -/
def leadingWord : List String → TestWord
  | [] => .operand
  | w :: rest =>
    match testWord w, rest with
    | .unary, [] => .operand
    | .unary, _ :: [] => .unary
    | .unary, next :: _ => if testWord next = .binary then .operand else .unary
    | .opening, [] => .operand
    | t, _ => t

/-- A word as a number. -/
def testNumber (w : String) : Except String Int :=
  let cs := Text.trim w.toList
  let (negative, ds) : Bool × List Char := match cs with
    | '-' :: ds => (true, ds)
    | '+' :: ds => (false, ds)
    | ds => (false, ds)
  match Text.decimal? ds with
  | some n => .ok (if negative then -(n : Int) else n)
  | none => .error ("Illegal number: " ++ w)

/-- A condition on one word. -/
def holdsUnary (m : Machine) (op w : String) : Except String Bool :=
  let present := m.isFile ⟨w⟩ || m.isDirectory ⟨w⟩
  match op with
  | "-n" => .ok (w ≠ "")
  | "-z" => .ok (w = "")
  | "-f" => .ok (m.isFile ⟨w⟩)
  | "-d" => .ok (m.isDirectory ⟨w⟩)
  | "-x" => .ok (m.isDirectory ⟨w⟩ || m.disk.isExecutable m.cwd ⟨w⟩)
  | "-s" =>
    match m.disk.readBytes m.cwd ⟨w⟩ with
    | .ok bs => .ok (!bs.isEmpty)
    | .error _ => .ok (m.isDirectory ⟨w⟩)
  | "-t" => do
    let _ ← testNumber w
    return false
  | "-e" | "-r" | "-w" | "-O" | "-G" => .ok present
  | _ => .ok false

/-- A condition on two words. -/
def holdsBinary (m : Machine) (a op b : String) : Except String Bool := do
  let compare (holds : Int → Int → Bool) : Except String Bool :=
    return holds (← testNumber a) (← testNumber b)
  let present (w : String) : Bool := m.isFile ⟨w⟩ || m.isDirectory ⟨w⟩
  match op with
  | "=" | "==" => return a = b
  | "!=" => return a ≠ b
  | "<" => return a < b
  | ">" => return b < a
  | "-eq" => compare fun x y => x = y
  | "-ne" => compare fun x y => x ≠ y
  | "-lt" => compare fun x y => x < y
  | "-le" => compare fun x y => x ≤ y
  | "-gt" => compare fun x y => x > y
  | "-ge" => compare fun x y => x ≥ y
  | "-nt" => return present a && !present b
  | "-ot" => return present b && !present a
  | _ => return a = b && present a

/-- A truth value, the word it ends with, and the words after it. -/
abbrev Tested := Except String (Bool × String × List String)

mutual

/-- Conditions of which one must hold. -/
def testEither (m : Machine) : Nat → List String → Tested
  | 0, _ => .error "unexpected operator"
  | fuel + 1, ws => do
    let (a, last, rest) ← testBoth m fuel ws
    match rest with
    | "-o" :: rest =>
      let (b, last, rest) ← testEither m fuel rest
      return (a || b, last, rest)
    | _ => return (a, last, rest)

/-- Conditions of which all must hold. -/
def testBoth (m : Machine) : Nat → List String → Tested
  | 0, _ => .error "unexpected operator"
  | fuel + 1, ws => do
    let (a, last, rest) ← testOne m fuel ws
    match rest with
    | "-a" :: rest =>
      let (b, last, rest) ← testBoth m fuel rest
      return (a && b, last, rest)
    | _ => return (a, last, rest)

def testOne (m : Machine) : Nat → List String → Tested
  | 0, _ => .error "unexpected operator"
  | fuel + 1, ws => do
    match ws with
    | [] => return (false, "", [])
    | w :: rest =>
      match leadingWord ws, rest with
      | .not, _ =>
        let (a, last, rest) ← testOne m fuel rest
        return (!a, if last = "" then w else last, rest)
      | .opening, ")" :: rest => return (false, ")", rest)
      | .opening, _ =>
        let (a, _, rest) ← testEither m fuel rest
        match rest with
        | ")" :: rest => return (a, ")", rest)
        | _ => throw "closing paren expected"
      | .unary, a :: rest => return (← holdsUnary m w a, a, rest)
      | _, op :: rest =>
        if testWord op = .binary then
          match rest with
          | b :: rest => return (← holdsBinary m w op b, b, rest)
          | [] => throw (op ++ ": argument expected")
        else return (w ≠ "", w, op :: rest)
      | _, [] => return (w ≠ "", w, [])

end

/-- Whether a condition holds. Three words with an operator in the middle
compare, whatever the others look like; brackets around and a negation in
front of three or four words come off first. -/
def holds (m : Machine) : Nat → List String → Except String Bool
  | 0, _ => .ok false
  | _ + 1, [] => .ok false
  | fuel + 1, ws => do
    let whole : Except String Bool := do
      let (a, last, rest) ← testEither m (8 * ws.length + 8) ws
      if rest.isEmpty then return a else throw (last ++ ": unexpected operator")
    match ws with
    | [a, op, b] =>
      if testWord op = .binary then holdsBinary m a op b
      else if a = "(" ∧ b = ")" then return op ≠ ""
      else if a = "!" then return !(← holds m fuel [op, b])
      else whole
    | [a, b, c, d] =>
      if a = "(" ∧ d = ")" then holds m fuel [b, c]
      else if a = "!" then return !(← holds m fuel [b, c, d])
      else whole
    | _ => whole

/-- The answer to a condition. -/
def testWords (m : Machine) (words : List String) : Written :=
  match holds m (words.length + 1) words with
  | .ok b => ofCondition b
  | .error e => complaint 2 e

/-- The condition in brackets. -/
def bracketTest (m : Machine) (words : List String) : Written :=
  if words.getLast? = some "]" then testWords m words.dropLast else complaint 2 "missing ]"

end FormatHost.Shell
