/-
FormatHost.Decimal.Shortest — the shortest decimal that reads back.

A finite binary64 number is `m · 2^q`. The reals that round to it form an
interval around it; the digits written are those of the shortest decimal
in that interval, and of the nearest such decimal. The search is exact
arithmetic on natural numbers:

* §1 `Binary`: sign, `m` and `q` read off the 64 bits;
* §2 `digits`: for 1, 2, … digits the two neighbours of the value on that
  decimal grid are tried; 17 digits always suffice;
* §3 `render`: plain notation for exponents from −5 to 15, with at least
  one digit after the point, scientific notation elsewhere.
-/
import FormatHost.Bits

namespace FormatHost.Decimal

/-! ## §1 The number behind the bits -/

/-- A finite binary64 number: `(-1)^negative · m · 2^q`. -/
structure Binary where
  negative : Bool
  m : Nat
  q : Int
  /-- Whether the gap below is half the gap above (powers of two). -/
  narrowBelow : Bool
  deriving Repr, DecidableEq

/-- The number of 64 bits, unless they stand for an infinity or no number. -/
def Binary.ofBits? (bits : UInt64) : Option Binary :=
  let n : Nat := bits.toNat
  let negative := n / bitValues 63 == 1
  let exponent : Nat := n / bitValues 52 % bitValues 11
  let fraction : Nat := n % bitValues 52
  if exponent == 2047 then none
  else if exponent == 0 then some ⟨negative, fraction, -1074, false⟩
  else some ⟨negative, bitValues 52 + fraction, (exponent : Int) - 1075, fraction == 0 && exponent > 1⟩

/-! ## §2 The digits -/

/-- `2 ^ e` on the side of a fraction where it is whole. -/
def scale (num den : Nat) (base : Nat) (e : Int) : Nat × Nat :=
  if e ≥ 0 then (num * Nat.pow base e.toNat, den) else (num, den * Nat.pow base (-e).toNat)

/-- Whether `d · 10^k` rounds to `b`, the interval's ends included when
`m` is even. -/
def roundsTo (b : Binary) (d : Nat) (k : Int) : Bool :=
  -- compare 4·d·10^k with (4m − δ)·2^q and (4m + 2)·2^q
  let (x, xd) := scale (4 * d) 1 10 k
  let (lo, lod) := scale (4 * b.m - (if b.narrowBelow then 1 else 2)) 1 2 b.q
  let (hi, hid) := scale (4 * b.m + 2) 1 2 b.q
  if b.m % 2 == 0 then lo * xd ≤ x * lod && x * hid ≤ hi * xd
  else lo * xd < x * lod && x * hid < hi * xd

/-- The number of decimal digits of `n`. -/
def width (n : Nat) : Nat := (toString n).length

/-- The exponent of the leading decimal digit of `m · 2^q`. -/
def leading (b : Binary) : Int :=
  let (num, den) := scale b.m 1 2 b.q
  if num ≥ den then (width (num / den) : Int) - 1
  else
    -- 10^t ≥ den/num for the least t
    let ratio := (den + num - 1) / num
    let t := if Nat.pow 10 (width ratio - 1) ≥ ratio then width ratio - 1 else width ratio
    Int.neg t

/-- The best of the value's two neighbours on the grid of `10^k`. -/
def neighbour? (b : Binary) (k : Int) : Option Nat :=
  let (num, den) := scale b.m 1 2 b.q
  let (num, den) := scale num den 10 (-k)
  let below := num / den
  let rest := num % den
  let low := if roundsTo b below k then some below else none
  let high := if roundsTo b (below + 1) k then some (below + 1) else none
  match low, high with
  | some d, none => some d
  | none, some d => some d
  | none, none => none
  | some d, some e =>
    if 2 * rest < den then some d
    else if 2 * rest > den then some e
    else if d % 2 == 0 then some d else some e

/-- Digits and exponent with the fewest digits, from the grid of `n`
digits on; `tries` bounds the search. -/
def shortestFrom (b : Binary) (top : Int) : Nat → Nat → Nat × Int
  | 0, n => ((neighbour? b (top - n + 1)).getD 0, top - n + 1)
  | tries + 1, n =>
    let k := top - n + 1
    match neighbour? b k with
    | some d => (d, k)
    | none => shortestFrom b top tries (n + 1)

/-- Remove zeros at the end of the digits, at most `fuel` of them. -/
def dropZeros : Nat → Nat × Int → Nat × Int
  | 0, r => r
  | fuel + 1, (d, k) => if d ≠ 0 ∧ d % 10 = 0 then dropZeros fuel (d / 10, k + 1) else (d, k)

/-- The shortest decimal `d · 10^k` that rounds to a nonzero number. -/
def shortest (b : Binary) : Nat × Int :=
  dropZeros 400 (shortestFrom b (leading b) 17 1)

/-! ## §3 Writing -/

/-- A finite number in text: plain notation when the leading digit's
exponent lies in −5 … 15, else one digit, the others after a point, and a
signed exponent. -/
def render (b : Binary) : String :=
  let sign := if b.negative then "-" else ""
  if b.m == 0 then sign ++ "0.0"
  else
    let (d, k) := shortest b
    let ds := toString d
    let n := ds.length
    let e : Int := k + n - 1
    if e < -5 || e > 15 then
      let mantissa := String.ofList (ds.toList.take 1) ++
        (if n > 1 then "." ++ String.ofList (ds.toList.drop 1) else "")
      let mark := if e < 0 then "-" else "+"
      sign ++ mantissa ++ "e" ++ mark ++ toString e.natAbs
    else if k ≥ 0 then sign ++ ds ++ String.ofList (List.replicate k.toNat '0') ++ ".0"
    else if e ≥ 0 then
      sign ++ String.ofList (ds.toList.take (e.toNat + 1)) ++ "." ++
        String.ofList (ds.toList.drop (e.toNat + 1))
    else sign ++ "0." ++ String.ofList (List.replicate (-e - 1).toNat '0') ++ ds

end FormatHost.Decimal
