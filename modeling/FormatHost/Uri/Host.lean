/-
FormatHost.Uri.Host — the host of a URI.

A host is a name or the address of a machine. In the special schemes a name
is written in small ASCII letters, and one that ends in a number is a
four-byte address; in other schemes it is text without structure.

* §1 hosts and their text;
* §2 four-byte addresses;
* §3 sixteen-byte addresses;
* §4 names;
* §5 hosts of special schemes and of others.
-/
import FormatHost.Bits
import FormatHost.Uri.Encoding
import FormatHost.Text.Punycode

namespace FormatHost.Uri

/-! ## §1 Hosts -/

inductive Host where
  /-- A name, in its encoded form. -/
  | name (s : String)
  /-- A four-byte address. -/
  | short (address : Nat)
  /-- An address of eight pieces of two bytes. -/
  | long (pieces : List Nat)
  deriving Repr, DecidableEq

namespace Host

/-- The bytes of a four-byte address. -/
def shortText (address : Nat) : String :=
  ".".intercalate ([24, 16, 8, 0].map fun k => toString (address / bitValues k % 256))

def hexText (n : Nat) : String := String.ofList (Nat.toDigits 16 n)

/-- How many zeros the list starts with. -/
def leadingZeros (pieces : List Nat) : Nat := (pieces.takeWhile (· == 0)).length

/-- Start and length of the longest run of zeros, the first of equals. -/
def longestZeros (pieces : List Nat) : Nat × Nat :=
  (List.range pieces.length).foldl
    (fun best i =>
      let n := leadingZeros (pieces.drop i)
      if n > best.2 then (i, n) else best)
    (0, 0)

/-- The pieces of an address; its longest run of two or more zeros is left
out between two colons. -/
def longText (pieces : List Nat) : String :=
  let (start, length) := longestZeros pieces
  let join (l : List Nat) : String := ":".intercalate (l.map hexText)
  if length < 2 then join pieces
  else join (pieces.take start) ++ "::" ++ join (pieces.drop (start + length))

def text : Host → String
  | name s => s
  | short a => shortText a
  | long pieces => "[" ++ longText pieces ++ "]"

/-! ## §2 Four-byte addresses -/

/-- A number in base ten, in base sixteen after `0x`, or in base eight after
`0`. A base without digits is zero. -/
def number? (cs : List Char) : Option Nat :=
  let read (base : Nat) (digits : List Char) : Option Nat :=
    Text.readDigits base (fun c => (Text.hexDigit? c).filter (· < base)) 0 digits
  match cs with
  | [] => none
  | '0' :: 'x' :: rest | '0' :: 'X' :: rest => read 16 rest
  | '0' :: d :: rest => read 8 (d :: rest)
  | _ => read 10 cs

/-- The parts of a name; a dot at its end starts no part. -/
def dottedParts (cs : List Char) : List (List Char) :=
  let parts := Text.splitAll '.' cs
  if parts.length > 1 && parts.getLast? == some [] then parts.dropLast else parts

/-- Such a name is an address, or no host at all. -/
def endsInNumber (cs : List Char) : Bool :=
  match (dottedParts cs).getLast? with
  | some last => (!last.isEmpty && last.all Char.isDigit) || (number? last).isSome
  | none => false

/-- Up to four numbers: the last one fills the bytes that are left. -/
def short? (cs : List Char) : Option Nat := do
  let numbers ← (dottedParts cs).mapM number?
  let last ← numbers.getLast?
  let front := numbers.dropLast
  if front.length > 3 || front.any (· > 255) || last ≥ bitValues (8 * (4 - front.length)) then none
  else some (front.zipIdx.foldl (fun sum (n, i) => sum + n * bitValues (8 * (3 - i))) last)

/-! ## §3 Sixteen-byte addresses -/

/-- One to four hexadecimal digits. -/
def piece? (cs : List Char) : Option Nat :=
  if cs.isEmpty || cs.length > 4 then none else Text.readDigits 16 Text.hexDigit? 0 cs

/-- A byte in base ten, without zeros in front. -/
def byte? (cs : List Char) : Option Nat :=
  if cs.length > 1 && cs.head? == some '0' then none
  else (Text.decimal? cs).filter (· ≤ 255)

/-- Four bytes between dots make two pieces. -/
def dottedPieces? (cs : List Char) : Option (List Nat) := do
  match ← (Text.splitAll '.' cs).mapM byte? with
  | [a, b, c, d] => some [a * 256 + b, c * 256 + d]
  | _ => none

/-- Pieces between colons; the last may be four bytes. -/
def pieces? : List (List Char) → Option (List Nat)
  | [] => some []
  | [last] => if last.contains '.' then dottedPieces? last else (piece? last).map ([·])
  | p :: rest => do return (← piece? p) :: (← pieces? rest)

/-- Cut at the first two colons in a row. -/
def cutColons : List Char → Option (List Char × List Char)
  | ':' :: ':' :: rest => some ([], rest)
  | c :: rest => (cutColons rest).map fun (a, b) => (c :: a, b)
  | [] => none

/-- Eight pieces; two colons in a row stand for one or more zeros. -/
def long? (cs : List Char) : Option (List Nat) := do
  let split (part : List Char) : List (List Char) :=
    if part.isEmpty then [] else Text.splitAll ':' part
  match cutColons cs with
  | some (before, after) =>
    if before.contains '.' then none
    else
      let front ← pieces? (split before)
      let back ← pieces? (split after)
      let given := front.length + back.length
      if given > 7 then none else some (front ++ List.replicate (8 - given) 0 ++ back)
  | none =>
    let all ← pieces? (split cs)
    if all.length == 8 then some all else none

/-! ## §4 Names -/

/-- The small form of a letter of the Latin, Greek and Cyrillic alphabets. -/
def lowerLetter (c : Char) : Char :=
  let n := c.toNat
  if n < 0x80 then Text.lowerAscii c
  else if (0xC0 ≤ n && n ≤ 0xDE && n != 0xD7) || (0x391 ≤ n && n ≤ 0x3AB) ||
      (0x410 ≤ n && n ≤ 0x42F) then
    Char.ofNat (n + 32)
  else if 0x400 ≤ n && n ≤ 0x40F then Char.ofNat (n + 80)
  else c

/-- What a character of a name counts as: some are silent, wide forms are
their ASCII letters, and an ideographic full stop is a dot. -/
def foldLetter (c : Char) : List Char :=
  let n := c.toNat
  if n == 0xAD || n == 0x200B || n == 0x2060 || n == 0xFEFF then []
  else if n == 0x3002 || n == 0xFF61 then ['.']
  else if 0xFF01 ≤ n && n ≤ 0xFF5E then [Text.lowerAscii (Char.ofNat (n - 0xFEE0))]
  else [lowerLetter c]

/-- Characters that no name may hold. -/
def isForbidden (c : Char) : Bool :=
  c.toNat ≤ 0x20 || c.toNat == 0x7F || c.toNat == 0xFFFD || "#/:<>?@[\\]^|%".toList.contains c

/-- A label in ASCII. -/
def asciiLabel (cs : List Char) : List Char :=
  if cs.all Text.Punycode.isAscii then cs else "xn--".toList ++ Text.Punycode.encode cs

/-- The ASCII form of a name. -/
def asciiName (cs : List Char) : List Char :=
  Text.joinWith '.' ((Text.splitAll '.' (cs.flatMap foldLetter)).map asciiLabel)

/-! ## §5 Reading -/

/-- An address between brackets. -/
def bracketed? (cs : List Char) : Option Host :=
  match cs.reverse with
  | ']' :: inner => (long? inner.reverse).map long
  | _ => none

/-- A host of a special scheme. -/
def special? (cs : List Char) : Option Host :=
  match cs with
  | '[' :: rest => bracketed? rest
  | _ =>
    let folded := asciiName (Text.Utf8.decodeLossy (decode cs))
    if folded.isEmpty || folded.any isForbidden then none
    else if endsInNumber folded then (short? folded).map short
    else some (name (String.ofList folded))

/-- Characters that no host of another scheme may hold. -/
def isForbiddenPlain (c : Char) : Bool :=
  c.toNat == 0 || " #/:<>?@[\\]^|".toList.contains c

/-- A host of another scheme. -/
def plain? (cs : List Char) : Option Host :=
  match cs with
  | '[' :: rest => bracketed? rest
  | _ =>
    if cs.any isForbiddenPlain then none
    else some (name (String.ofList (encode inControls cs)))

end Host
end FormatHost.Uri
