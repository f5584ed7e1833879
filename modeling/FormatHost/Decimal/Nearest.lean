/-
FormatHost.Decimal.Nearest — the binary64 number nearest to a decimal.

`nearest m e` is the number nearest to `m · 10^e`. Exponents far outside
the range of binary64 are decided without computing the power: the result
is infinite or zero.
-/
import FormatHost.Text

namespace FormatHost.Decimal

/-- Beyond this power of ten every number is infinite, and below its
inverse every number is zero. -/
def farExponent : Nat := 400

/-- The number nearest to `m · 10^e`. -/
def nearest (m : Nat) (e : Int) : Float :=
  if m = 0 then 0.0
  else if e ≥ 0 then
    if e > farExponent then 1.0 / 0.0 else Float.ofScientific m false e.toNat
  else if ((toString m).length : Int) + e < -farExponent then 0.0
  else Float.ofScientific m true e.natAbs

/-- The number of a sign, the digits before and after a point, and an
exponent. -/
def ofDigits (negative : Bool) (whole fraction : List Char) (exponent : Int) : Float :=
  let m := (Text.readDigits 10 Text.digit? 0 (whole ++ fraction)).getD 0
  let x := nearest m (exponent - fraction.length)
  if negative then -x else x

end FormatHost.Decimal
