/-
FormatHost.Json.Print — JSON values as text.

Compact text has no blanks; indented text puts each item and field on a
line of its own, two blanks per level. In strings the quote, the
backslash and the control characters are escaped, and nothing else.
-/
import FormatHost.Json.Value

namespace FormatHost.Json

/-! ## §1 Strings -/

def hexDigit (n : Nat) : Char :=
  if n < 10 then Char.ofNat ('0'.toNat + n) else Char.ofNat ('a'.toNat + (n - 10))

/-- A character inside a string. -/
def escaped (c : Char) : List Char :=
  match c with
  | '"' => ['\\', '"']
  | '\\' => ['\\', '\\']
  | '\x08' => ['\\', 'b']
  | '\x0c' => ['\\', 'f']
  | '\n' => ['\\', 'n']
  | '\r' => ['\\', 'r']
  | '\t' => ['\\', 't']
  | c =>
    if c.toNat < 0x20 then
      ['\\', 'u', '0', '0', hexDigit (c.toNat / 16), hexDigit (c.toNat % 16)]
    else [c]

/-- A string between quotes. -/
def quoted (s : String) : String :=
  "\"" ++ String.ofList (s.toList.flatMap escaped) ++ "\""

/-! ## §2 Compact text -/

mutual

/-- The value on one line. -/
def Value.compact : Value → String
  | .null => "null"
  | .bool b => if b then "true" else "false"
  | .num n => n.text
  | .str s => quoted s
  | .arr items => "[" ++ compactItems items ++ "]"
  | .obj fields => "\x7b" ++ compactFields fields ++ "\x7d"

def compactItems : List Value → String
  | [] => ""
  | [v] => v.compact
  | v :: vs => v.compact ++ "," ++ compactItems vs

def compactFields : List (String × Value) → String
  | [] => ""
  | [(k, v)] => quoted k ++ ":" ++ v.compact
  | (k, v) :: fs => quoted k ++ ":" ++ v.compact ++ "," ++ compactFields fs

end

/-! ## §3 Indented text -/

def indentation (level : Nat) : String := "\n" ++ String.ofList (List.replicate (2 * level) ' ')

mutual

/-- The value over several lines, starting at an indentation level. -/
def Value.indented (level : Nat) : Value → String
  | .arr (v :: vs) => "[" ++ indentedItems (level + 1) (v :: vs) ++ indentation level ++ "]"
  | .obj (f :: fs) => "\x7b" ++ indentedFields (level + 1) (f :: fs) ++ indentation level ++ "\x7d"
  | .null => "null"
  | .bool b => if b then "true" else "false"
  | .num n => n.text
  | .str s => quoted s
  | .arr [] => "[]"
  | .obj [] => "\x7b\x7d"

def indentedItems (level : Nat) : List Value → String
  | [] => ""
  | [v] => indentation level ++ v.indented level
  | v :: vs => indentation level ++ v.indented level ++ "," ++ indentedItems level vs

def indentedFields (level : Nat) : List (String × Value) → String
  | [] => ""
  | [(k, v)] => indentation level ++ quoted k ++ ": " ++ v.indented level
  | (k, v) :: fs =>
    indentation level ++ quoted k ++ ": " ++ v.indented level ++ "," ++ indentedFields level fs

end

/-- The value over several lines. -/
def Value.pretty (v : Value) : String := v.indented 0

end FormatHost.Json
