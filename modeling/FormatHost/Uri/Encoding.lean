/-
FormatHost.Uri.Encoding — percent-encoding.

A part of a URI writes the characters it cannot hold as the `%XX` of their
bytes. Which characters those are depends on the part.

* §1 the sets;
* §2 writing and reading.
-/
import FormatHost.Text
import FormatHost.Text.Utf8

namespace FormatHost.Uri

/-! ## §1 Sets -/

/-- Control characters, and everything outside ASCII, are always encoded. -/
def inControls (c : Char) : Bool := c.toNat < 0x20 || c.toNat ≥ 0x7F

def inFragment (c : Char) : Bool := inControls c || " \"<>`".toList.contains c

def inPath (c : Char) : Bool := inFragment c || "#?\x7b\x7d^".toList.contains c

/-- What is encoded in a path segment made from a file name. -/
def inSegment (c : Char) : Bool := inPath c || "/%\\".toList.contains c

def inQuery (c : Char) : Bool := inControls c || " \"#<>".toList.contains c

def inSpecialQuery (c : Char) : Bool := inQuery c || c == '\''

def inUserInfo (c : Char) : Bool := inPath c || "/:;=@[\\]|".toList.contains c

/-! ## §2 Writing and reading -/

def hexCapital (n : Nat) : Char :=
  if n < 10 then Char.ofNat ('0'.toNat + n) else Char.ofNat ('A'.toNat + (n - 10))

def encodeByte (b : UInt8) : List Char :=
  ['%', hexCapital (b.toNat / 16), hexCapital (b.toNat % 16)]

/-- The characters in `set` become the `%XX` of their bytes. -/
def encode (set : Char → Bool) (cs : List Char) : List Char :=
  cs.flatMap fun c => if set c then (String.utf8EncodeChar c).flatMap encodeByte else [c]

/-- `%XX` becomes the byte; everything else is kept. -/
def decode : List Char → List UInt8
  | '%' :: a :: b :: rest =>
    match Text.hexDigit? a, Text.hexDigit? b with
    | some x, some y => UInt8.ofNat (x * 16 + y) :: decode rest
    | _, _ => UInt8.ofNat '%'.toNat :: decode (a :: b :: rest)
  | c :: rest => String.utf8EncodeChar c ++ decode rest
  | [] => []

end FormatHost.Uri
