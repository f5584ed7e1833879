/-
FormatHost.Shell.Arithmetic — the value of an expression.

Expressions are over whole numbers of 64 bits; a name stands for the number
that the variable's value spells, and may be assigned.

* §1 expressions;
* §2 tokens;
* §3 reading, from the operators that bind least;
* §4 values.
-/
import FormatHost.Bits
import FormatHost.Text

namespace FormatHost.Shell.Arithmetic

/-! ## §1 Expressions -/

inductive Expression
  | number (n : Int)
  | reference (name : String)
  | unary (op : String) (a : Expression)
  | binary (op : String) (a b : Expression)
  | choose (condition a b : Expression)
  /-- Assign a value, or what an operator makes of the old and the new one. -/
  | assign (op : Option String) (name : String) (value : Expression)
  deriving Repr, DecidableEq

/-- Why an expression has no value. -/
inductive Fault
  | noPrimary
  | notClosed
  | noEnd
  | noColon
  | divisionByZero
  | illegalNumber (s : String)
  deriving Repr, DecidableEq

/-- The message about a fault of an expression's text. -/
def Fault.message (text : String) : Fault → String
  | .illegalNumber s => "Illegal number: " ++ s
  | f =>
    let reason := match f with
      | .noPrimary => "expecting primary"
      | .notClosed => "expecting ')'"
      | .noColon => "expecting ':'"
      | .divisionByZero => "division by zero"
      | _ => "expecting EOF"
    "arithmetic expression: " ++ reason ++ ": \"" ++ text ++ "\""

/-! ## §2 Tokens -/

inductive Token
  | number (n : Nat)
  | name (s : String)
  | op (s : String)
  deriving Repr, DecidableEq

/-- The value of digits: hexadecimal after `0x`, octal after `0`. -/
def digitsValue? (cs : List Char) : Option Nat :=
  let read (base : Nat) (ds : List Char) : Option Nat :=
    if ds.isEmpty then none else Text.readDigits base Text.hexDigit? 0 ds
  match cs with
  | '0' :: 'x' :: ds | '0' :: 'X' :: ds => read 16 ds
  | '0' :: d :: ds => read 8 (d :: ds)
  | ds => read 10 ds

/-- Operators, longer ones first. -/
def operators : List String :=
  ["<<=", ">>=", "&&", "||", "==", "!=", "<=", ">=", "<<", ">>", "+=", "-=", "*=", "/=", "%=",
    "&=", "|=", "^=", "+", "-", "*", "/", "%", "<", ">", "=", "!", "~", "&", "|", "^", "?", ":",
    "(", ")"]

def isWordChar (c : Char) : Bool := c.isAlphanum || c = '_'

/-- The tokens of a text; nothing when some of it is none. -/
def tokens : Nat → List Char → Option (List Token)
  | 0, _ => none
  | _ + 1, [] => some []
  | fuel + 1, c :: cs => do
    if Text.isBlank c then tokens fuel cs
    else if c.isDigit then
      let ds := (c :: cs).takeWhile isWordChar
      return .number (← digitsValue? ds) :: (← tokens fuel ((c :: cs).drop ds.length))
    else if isWordChar c then
      let name := (c :: cs).takeWhile isWordChar
      return .name (String.ofList name) :: (← tokens fuel ((c :: cs).drop name.length))
    else
      let o ← operators.find? fun o => o.toList.isPrefixOf (c :: cs)
      return .op o :: (← tokens fuel ((c :: cs).drop o.length))

/-! ## §3 Reading -/

/-- How tightly an operator between two values binds. -/
def tightness? (o : String) : Option Nat :=
  match o with
  | "||" => some 1
  | "&&" => some 2
  | "|" => some 3
  | "^" => some 4
  | "&" => some 5
  | "==" | "!=" => some 6
  | "<" | "<=" | ">" | ">=" => some 7
  | "<<" | ">>" => some 8
  | "+" | "-" => some 9
  | "*" | "/" | "%" => some 10
  | _ => none

/-- The operator that an assignment applies: none for a plain one. -/
def assigned? (o : String) : Option (Option String) :=
  if o = "=" then some none
  else if ["<<=", ">>=", "+=", "-=", "*=", "/=", "%=", "&=", "|=", "^="].contains o then
    some (some (String.ofList o.toList.dropLast))
  else none

abbrev Parsed := Except Fault (Expression × List Token)

mutual

/-- An assignment, a choice or an operation. -/
def readExpression : Nat → List Token → Parsed
  | 0, _ => .error .noPrimary
  | fuel + 1, ts => do
    match ts with
    | .name x :: .op o :: rest =>
      match assigned? o with
      | some op =>
        let (value, rest) ← readExpression fuel rest
        return (.assign op x value, rest)
      | none => readChoice fuel ts
    | _ => readChoice fuel ts

def readChoice : Nat → List Token → Parsed
  | 0, _ => .error .noPrimary
  | fuel + 1, ts => do
    let (condition, rest) ← readBinary fuel 1 ts
    match rest with
    | .op "?" :: rest =>
      let (a, rest) ← readExpression fuel rest
      match rest with
      | .op ":" :: rest =>
        let (b, rest) ← readChoice fuel rest
        return (.choose condition a b, rest)
      | _ => throw .noColon
    | _ => return (condition, rest)

/-- Operations at least as tight as `least`. -/
def readBinary : Nat → Nat → List Token → Parsed
  | 0, _, _ => .error .noPrimary
  | fuel + 1, least, ts => do
    let (a, rest) ← readUnary fuel ts
    readOperations fuel least a rest

def readOperations : Nat → Nat → Expression → List Token → Parsed
  | 0, _, _, _ => .error .noPrimary
  | fuel + 1, least, a, ts => do
    match ts with
    | .op o :: rest =>
      match (tightness? o).filter (least ≤ ·) with
      | some t =>
        let (b, rest) ← readBinary fuel (t + 1) rest
        readOperations fuel least (.binary o a b) rest
      | none => return (a, ts)
    | _ => return (a, ts)

def readUnary : Nat → List Token → Parsed
  | 0, _ => .error .noPrimary
  | fuel + 1, ts => do
    match ts with
    | .number n :: rest => return (.number n, rest)
    | .name x :: rest => return (.reference x, rest)
    | .op "(" :: rest =>
      let (a, rest) ← readExpression fuel rest
      match rest with
      | .op ")" :: rest => return (a, rest)
      | _ => throw .notClosed
    | .op o :: rest =>
      if ["!", "~", "-", "+"].contains o then
        let (a, rest) ← readUnary fuel rest
        return (.unary o a, rest)
      else throw .noPrimary
    | [] => throw .noPrimary

end

/-- The expression of a text; blank text is zero. -/
def read (text : String) : Except Fault Expression := do
  match tokens (text.length + 1) text.toList with
  | none => throw .noPrimary
  | some [] => return .number 0
  | some ts =>
    let (e, rest) ← readExpression (8 * ts.length + 8) ts
    if rest.isEmpty then return e else throw .noEnd

/-! ## §4 Values -/

/-- Numbers have 64 bits. -/
def wrap (n : Int) : Int := n.bmod (bitValues 64)

/-- The bits of a number. -/
def bits (n : Int) : Nat := (n % bitValues 64).toNat

def ofBool (b : Bool) : Int := if b then 1 else 0

def applyUnary (op : String) (a : Int) : Int :=
  match op with
  | "!" => ofBool (a = 0)
  | "~" => -a - 1
  | "-" => wrap (-a)
  | _ => a

def applyBinary (op : String) (a b : Int) : Except Fault Int :=
  match op with
  | "+" => .ok (wrap (a + b))
  | "-" => .ok (wrap (a - b))
  | "*" => .ok (wrap (a * b))
  | "/" => if b = 0 then .error .divisionByZero else .ok (wrap (a.tdiv b))
  | "%" => if b = 0 then .error .divisionByZero else .ok (a.tmod b)
  | "<" => .ok (ofBool (a < b))
  | "<=" => .ok (ofBool (a ≤ b))
  | ">" => .ok (ofBool (a > b))
  | ">=" => .ok (ofBool (a ≥ b))
  | "==" => .ok (ofBool (a = b))
  | "!=" => .ok (ofBool (a ≠ b))
  | "<<" => .ok (wrap (a * bitValues (bits b % 64)))
  | ">>" => .ok (a.fdiv (bitValues (bits b % 64)))
  | "&" => .ok (wrap (bits a &&& bits b))
  | "|" => .ok (wrap (bits a ||| bits b))
  | _ => .ok (wrap (bits a ^^^ bits b))

/-- The number that a variable's value spells; a missing one is zero. -/
def numberOf (value : String) : Except Fault Int :=
  match Text.trim value.toList with
  | [] => .ok 0
  | '-' :: ds =>
    match digitsValue? ds with
    | some n => .ok (wrap (-(n : Int)))
    | none => .error (.illegalNumber value)
  | ds =>
    match digitsValue? ds with
    | some n => .ok (wrap n)
    | none => .error (.illegalNumber value)

/-- Values of variables that an expression has assigned. -/
abbrev Assigned := List (String × Int)

/-- The value of an expression over the variables' values. -/
def evaluate (value : String → String) : Expression → StateT Assigned (Except Fault) Int
  | .number n => return wrap n
  | .reference x => do
    match (← get).lookup x with
    | some n => return n
    | none => liftM (numberOf (value x))
  | .unary op a => return applyUnary op (← evaluate value a)
  | .binary "&&" a b => do
    if (← evaluate value a) = 0 then return 0 else return ofBool ((← evaluate value b) ≠ 0)
  | .binary "||" a b => do
    if (← evaluate value a) ≠ 0 then return 1 else return ofBool ((← evaluate value b) ≠ 0)
  | .binary op a b => do
    let x ← evaluate value a
    let y ← evaluate value b
    liftM (applyBinary op x y)
  | .choose condition a b => do
    if (← evaluate value condition) ≠ 0 then evaluate value a else evaluate value b
  | .assign op x a => do
    let new ← evaluate value a
    let result ← match op with
      | none => pure new
      | some o => do
        let old ← match (← get).lookup x with
          | some n => pure n
          | none => liftM (numberOf (value x))
        liftM (applyBinary o old new)
    modify fun s => (x, result) :: s
    return result

/-- The value of a text, and what it assigns, last first. -/
def run (value : String → String) (text : String) : Except Fault (Int × Assigned) := do
  (evaluate value (← read text)).run []

end FormatHost.Shell.Arithmetic
