/-
FormatHost.Json.Numeral — reading numbers.

A numeral in a JSON text is a whole number, kept exactly while it fits 64
bits, or a binary64. The binary64 is made from a significand of at most
64 bits and one power of ten by a single multiplication or division:

* §1 the shape of a numeral as written;
* §2 its significand and exponent: digits that no longer fit 64 bits are
  dropped, those before the point still counting in the exponent;
* §3 the number. A positive exponent too large for binary64 has no
  number; a negative one gives zero.
-/
import FormatHost.Bits
import FormatHost.Text
import FormatHost.Json.Value

namespace FormatHost.Json

/-! ## §1 Numerals as written -/

/-- A numeral: sign, whole digits, the digits after a point, and a signed
exponent's digits. -/
structure Numeral where
  negative : Bool
  whole : List Nat
  fraction : Option (List Nat)
  exponent : Option (Bool × List Nat)
  deriving Repr

namespace Numeral

/-- The digits at the front, and the rest. -/
def takeDigits : List Char → List Nat × List Char
  | [] => ([], [])
  | c :: cs =>
    match Text.digit? c with
    | some d => let (ds, rest) := takeDigits cs; (d :: ds, rest)
    | none => ([], c :: cs)

/-- The exponent part, when there is one: `e`, a sign, digits. -/
def readExponent (cs : List Char) : Option (Option (Bool × List Nat) × List Char) :=
  match cs with
  | c :: rest =>
    if c = 'e' || c = 'E' then
      let (negative, rest) := match rest with
        | '-' :: r => (true, r)
        | '+' :: r => (false, r)
        | r => (false, r)
      match takeDigits rest with
      | ([], _) => none
      | (ds, rest) => some (some (negative, ds), rest)
    else some (none, cs)
  | [] => some (none, [])

/-- A numeral at the front: no leading zeros, digits on both sides of a
point. -/
def read (cs : List Char) : Option (Numeral × List Char) := do
  let (negative, cs) := match cs with
    | '-' :: r => (true, r)
    | r => (false, r)
  let (whole, rest) := takeDigits cs
  match whole with
  | [] => none
  | 0 :: _ :: _ => none
  | _ =>
    let (fraction, rest) ← match rest with
      | '.' :: r =>
        match takeDigits r with
        | ([], _) => none
        | (ds, r) => some (some ds, r)
      | r => some (none, r)
    let (exponent, rest) ← readExponent rest
    some (⟨negative, whole, fraction, exponent⟩, rest)

/-! ## §2 Significand and exponent -/

/-- Digits taken onto `acc` while 64 bits hold them, and those left. -/
def accumulate : Nat → List Nat → Nat × List Nat
  | acc, [] => (acc, [])
  | acc, d :: ds => if acc * 10 + d < bitValues 64 then accumulate (acc * 10 + d) ds else (acc, d :: ds)

/-- The significand, and the exponent of ten that goes with it before the
written exponent is added. Once a whole digit has been dropped the
digits after the point are still taken while they fit. -/
def significand (n : Numeral) : Nat × Int :=
  let (acc, dropped) := accumulate 0 n.whole
  match n.fraction with
  | none => (acc, dropped.length)
  | some ds =>
    let (acc', left) := accumulate acc ds
    (acc', (dropped.length : Int) - ((ds.length - left.length : Nat) : Int))

/-! ## §3 The number -/

/-- `f · 10^e` by one multiplication or division by a power of ten up to
`10^308`; smaller exponents divide again, at most `fuel` times. -/
def scaled : Nat → Float → Int → Option Float
  | 0, f, _ => some f
  | fuel + 1, f, e =>
    if e.natAbs ≤ 308 then
      let p := Float.ofScientific 1 false e.natAbs
      if e ≥ 0 then
        let r := f * p
        if r.isInf then none else some r
      else some (f / p)
    else if f == 0.0 then some f
    else if e ≥ 0 then none
    else scaled fuel (f / Float.ofScientific 1 false 308) (e + 308)

def signed (negative : Bool) (f : Float) : Float := if negative then -f else f

/-- The largest exponent that is still counted. -/
def exponentLimit : Nat := bitValues 31

/-- The number a numeral stands for, when there is one. -/
def number? (n : Numeral) : Option Number :=
  let (acc, e) := n.significand
  let float (e : Int) : Option Number :=
    (scaled 4 (Float.ofNat acc) e).map fun f => .float (signed n.negative f).toBits
  match n.exponent with
  | some (down, ds) =>
    let x := ds.foldl (fun v d => v * 10 + d) 0
    if x ≥ exponentLimit then
      if acc ≠ 0 ∧ !down then none
      else some (.float (signed n.negative 0.0).toBits)
    else float (if down then e - x else e + x)
  | none =>
    if n.fraction.isSome || e ≠ 0 then float e
    else if !n.negative then some (.int acc)
    else if acc = 0 ∨ acc > bitValues 63 then some (.float (-(Float.ofNat acc)).toBits)
    else some (.int (-(acc : Int)))

end Numeral
end FormatHost.Json
