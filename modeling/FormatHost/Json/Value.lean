/-
FormatHost.Json.Value — JSON values.

Options, manifests, settings and reports are JSON values:

* §1 numbers: whole numbers of 64 bits and binary64 numbers, kept apart
  because they are written apart (`1` and `1.0`);
* §2 values; the fields of an object are sorted by key and no key occurs
  twice;
* §3 tables of fields: look-up, insertion in order, and overlaying one
  table with another.
-/
import FormatHost.Bits
import FormatHost.Decimal.Shortest

namespace FormatHost.Json

/-! ## §1 Numbers -/

/-- A number: a whole one of at most 64 bits, or the bits of a binary64. -/
inductive Number
  | int (i : Int)
  | float (bits : UInt64)
  deriving Repr, DecidableEq, Inhabited

/-- Whole numbers between −2^63 and 2^64 − 1 are kept as they are. -/
def fitsWord (i : Int) : Bool := -(bitValues 63 : Int) ≤ i && i < (bitValues 64 : Int)

/-- The number as text: all digits of a whole number, the shortest digits
that read back of a binary64. -/
def Number.text : Number → String
  | .int i => toString i
  | .float bits =>
    match Decimal.Binary.ofBits? bits with
    | some b => Decimal.render b
    | none => "null"

/-! ## §2 Values -/

inductive Value
  | null
  | bool (b : Bool)
  | num (n : Number)
  | str (s : String)
  | arr (items : List Value)
  | obj (fields : List (String × Value))
  deriving Repr, Inhabited

/-- A finite binary64 number; anything else is `null`. -/
def Value.ofFloat (x : Float) : Value :=
  if x.isFinite then .num (.float x.toBits) else .null

def Value.ofNat (n : Nat) : Value := .num (.int n)

/-- A value that may be missing; then it is `null`. -/
def Value.ofOption {α : Type} (f : α → Value) : Option α → Value
  | some a => f a
  | none => .null

def Value.str? : Value → Option String
  | .str s => some s
  | _ => none

def Value.isNull : Value → Bool
  | .null => true
  | _ => false

end FormatHost.Json

namespace FormatHost

/-! ## §3 Tables of fields -/

/-- A table from names to values, sorted by name. -/
abbrev Fields (α : Type) := List (String × α)

/-- Formatter options, or the fields of an object. -/
abbrev Options := Fields Json.Value

namespace Fields

variable {α β : Type}

/-- The value of `key`. -/
def find? (o : Fields α) (key : String) : Option α :=
  match o with
  | [] => none
  | (k, v) :: rest => if k = key then some v else find? rest key

/-- `key` gets `value`, in its place in the order. -/
def insert (o : Fields α) (key : String) (value : α) : Fields α :=
  match o with
  | [] => [(key, value)]
  | (k, v) :: rest =>
    if key = k then (key, value) :: rest
    else if key < k then (key, value) :: (k, v) :: rest
    else (k, v) :: insert rest key value

/-- The table without `key`. -/
def erase (o : Fields α) (key : String) : Fields α := o.filter fun e => e.1 ≠ key

/-- The fields in order, a later one replacing an earlier of its name. -/
def ofList (fields : List (String × α)) : Fields α :=
  fields.foldl (fun o e => o.insert e.1 e.2) []

/-- `base` with every field of `top` put over it. -/
def overlay (base top : Fields α) : Fields α :=
  top.foldl (fun o e => o.insert e.1 e.2) base

/-- The same table with other values. -/
def mapValues (f : α → β) (o : Fields α) : Fields β := o.map fun e => (e.1, f e.2)

def keys (o : Fields α) : List String := o.map (·.1)

theorem find?_insert (o : Fields α) (key k : String) (value : α) :
    (o.insert key value).find? k = if key = k then some value else o.find? k := by
  induction o with
  | nil => simp [insert, find?]
  | cons e rest ih =>
    obtain ⟨k', v'⟩ := e
    unfold insert
    by_cases h1 : key = k'
    · subst h1
      by_cases h2 : key = k <;> simp [find?, h2]
    · rw [if_neg h1]
      by_cases h2 : key < k'
      · simp [h2, find?]
      · rw [if_neg h2]
        simp only [find?, ih]
        by_cases h3 : k' = k
        · subst h3; simp [h1]
        · simp [h3]

theorem find?_mapValues (f : α → β) (o : Fields α) (key : String) :
    (o.mapValues f).find? key = (o.find? key).map f := by
  induction o with
  | nil => rfl
  | cons e rest ih =>
    by_cases h : e.1 = key
    · simp [mapValues, find?, h]
    · simpa [mapValues, find?, h] using ih

end Fields
end FormatHost
