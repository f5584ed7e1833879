/-
FormatHost.Text.Utf8 — bytes and text.

Files and process output are bytes. `decode?` reads UTF-8 and refuses
anything else; `decodeLossy` reads every byte sequence, putting U+FFFD in
place of each longest start of a character that breaks off.
-/

namespace FormatHost.Text.Utf8

/-- The bytes of a text. -/
def encode (cs : List Char) : List UInt8 := cs.flatMap String.utf8EncodeChar

/-- Whether `b` may follow the first byte of a character. -/
def isTail (b : UInt8) : Bool := 0x80 ≤ b && b ≤ 0xBF

/-- The least and greatest second byte after the first byte `b`. -/
def secondRange (b : UInt8) : UInt8 × UInt8 :=
  if b = 0xE0 then (0xA0, 0xBF)
  else if b = 0xED then (0x80, 0x9F)
  else if b = 0xF0 then (0x90, 0xBF)
  else if b = 0xF4 then (0x80, 0x8F)
  else (0x80, 0xBF)

def isSecond (first b : UInt8) : Bool :=
  (secondRange first).1 ≤ b && b ≤ (secondRange first).2

/-- How many bytes follow the first byte `b`; none for a byte that starts
no character. -/
def tailCount? (b : UInt8) : Option Nat :=
  if b < 0x80 then some 0
  else if 0xC2 ≤ b && b ≤ 0xDF then some 1
  else if 0xE0 ≤ b && b ≤ 0xEF then some 2
  else if 0xF0 ≤ b && b ≤ 0xF4 then some 3
  else none

/-- The first character after `b`, or nothing when it breaks off, and how
many bytes after `b` belong to it. -/
def step (b : UInt8) (rest : List UInt8) : Option Char × Nat :=
  match tailCount? b with
  | none => (none, 0)
  | some 0 => (some (Char.ofNat b.toNat), 0)
  | some n =>
    let low (x : UInt8) : Nat := x.toNat % 64
    match rest with
    | c :: rest =>
      if isSecond b c then
        if n = 1 then (some (Char.ofNat (b.toNat % 32 * 64 + low c)), 1)
        else
          match rest with
          | d :: rest =>
            if isTail d then
              if n = 2 then (some (Char.ofNat ((b.toNat % 16 * 64 + low c) * 64 + low d)), 2)
              else
                match rest with
                | e :: _ =>
                  if isTail e then
                    (some (Char.ofNat (((b.toNat % 8 * 64 + low c) * 64 + low d) * 64 + low e)), 3)
                  else (none, 2)
                | [] => (none, 2)
            else (none, 1)
          | [] => (none, 1)
      else (none, 0)
    | [] => (none, 0)

/-- The text of bytes that are UTF-8. -/
def decode? : List UInt8 → Option (List Char)
  | [] => some []
  | b :: rest =>
    match step b rest with
    | (some c, n) => (decode? (rest.drop n)).map (c :: ·)
    | (none, _) => none
termination_by bs => bs.length
decreasing_by simp only [List.length_cons, List.length_drop]; omega

/-- The text of any bytes. -/
def decodeLossy : List UInt8 → List Char
  | [] => []
  | b :: rest =>
    let (c, n) := step b rest
    c.getD '\ufffd' :: decodeLossy (rest.drop n)
termination_by bs => bs.length
decreasing_by simp only [List.length_cons, List.length_drop]; omega

end FormatHost.Text.Utf8
