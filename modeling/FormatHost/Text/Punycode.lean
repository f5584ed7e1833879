/-
FormatHost.Text.Punycode — international names in ASCII.

A text is written as its ASCII characters, a hyphen, and the other
characters as a row of numbers: in increasing order of code point, each
number counts the places skipped since the last one. The numbers have 36
digits, least digit first, and end at the first digit below a threshold
that follows how large the numbers have been.

* §1 digits and thresholds;
* §2 the walk over the code points;
* §3 the whole text.
-/

namespace FormatHost.Text.Punycode

/-! ## §1 Digits -/

/-- Digits are `a` to `z`, then `0` to `9`. -/
def digit (d : Nat) : Char :=
  if d < 26 then Char.ofNat ('a'.toNat + d) else Char.ofNat ('0'.toNat + (d - 26))

/-- The least digit that does not end a number, at the place `k`. -/
def threshold (bias k : Nat) : Nat :=
  if k ≤ bias then 1 else min 26 (k - bias)

/-- The digits of a number. -/
def digits (bias : Nat) (k q : Nat) : List Char :=
  let t := threshold bias k
  if q < t then [digit q]
  else digit (t + (q - t) % (36 - t)) :: digits bias (k + 36) ((q - t) / (36 - t))
termination_by q
decreasing_by
  have positive : 1 ≤ threshold bias k := by unfold threshold; split <;> omega
  have := Nat.div_le_self (q - threshold bias k) (36 - threshold bias k)
  omega

/-- How many whole thresholds a distance spans. -/
def spans (distance k : Nat) : Nat × Nat :=
  if 455 < distance then spans (distance / 35) (k + 36) else (distance, k)
termination_by distance

/-- The bias after a distance; the first one counts for less. -/
def biasAfter (distance points : Nat) (first : Bool) : Nat :=
  let half := if first then distance / 700 else distance / 2
  let (rest, k) := spans (half + half / points) 0
  k + 36 * rest / (rest + 38)

/-! ## §2 The walk -/

/-- Where the walk over the code points stands. -/
structure Walk where
  /-- The digits so far, last number first. -/
  written : List (List Char) := []
  /-- Places skipped since the last number. -/
  distance : Nat := 0
  bias : Nat := 72
  /-- Characters that have their place. -/
  placed : Nat

/-- One character of the text, while those of code point `point` are
placed; `basic` is the number of its ASCII characters. -/
def Walk.see (basic point : Nat) (w : Walk) (c : Char) : Walk :=
  if c.toNat < point then { w with distance := w.distance + 1 }
  else if c.toNat == point then
    { written := digits w.bias 36 w.distance :: w.written
      distance := 0
      bias := biasAfter w.distance (w.placed + 1) (w.placed == basic)
      placed := w.placed + 1 }
  else w

/-- All code points from `next` on, in increasing order. -/
def Walk.through (text : List Char) (basic : Nat) : Nat → List Nat → Walk → Walk
  | _, [], w => w
  | next, point :: rest, w =>
    let start := { w with distance := w.distance + (point - next) * (w.placed + 1) }
    let after := text.foldl (Walk.see basic point) start
    through text basic (point + 1) rest { after with distance := after.distance + 1 }

/-! ## §3 Texts -/

def isAscii (c : Char) : Bool := c.toNat < 0x80

/-- The text in ASCII. -/
def encode (text : List Char) : List Char :=
  let basic := text.filter isAscii
  let points := (((text.filter (!isAscii ·)).map Char.toNat).mergeSort (· ≤ ·)).eraseDups
  let walk := Walk.through text basic.length 0x80 points { placed := basic.length }
  basic ++ (if basic.isEmpty then [] else ['-']) ++ walk.written.reverse.flatten

end FormatHost.Text.Punycode
