/-
FormatHost.Yaml.Value — what YAML documents mean.

* §1 the core schema: which plain scalars are null, booleans and numbers.
  Whole numbers may be hexadecimal, octal or binary; digits after a
  leading zero are text;
* §2 aliases: each stands for the node of its anchor. A document may
  follow aliases at most a hundred times per node, and be nested at most
  128 deep, aliases followed;
* §3 trees as JSON values: keys are text, the last of a key counts, local
  tags have no value.
-/
import FormatHost.Bits
import FormatHost.Decimal.Nearest
import FormatHost.Json.Value
import FormatHost.Yaml.Node

namespace FormatHost.Yaml

open Json

/-! ## §1 The core schema -/

/-- The meaning of a scalar. -/
inductive Scalar
  | null
  | bool (b : Bool)
  /-- A whole number of any size. -/
  | int (i : Int)
  | float (x : Float)
  | text (s : String)

def isNull (s : String) : Bool := s == "null" || s == "Null" || s == "NULL" || s == "~"

def bool? (s : String) : Option Bool :=
  if s == "true" || s == "True" || s == "TRUE" then some true
  else if s == "false" || s == "False" || s == "FALSE" then some false
  else none

def isSign (c : Char) : Bool := c == '+' || c == '-'

/-- Digits after a leading zero. -/
def zeroLed (cs : List Char) : Bool :=
  let cs := match cs with
    | c :: rest => if isSign c then rest else cs
    | [] => []
  cs.length > 1 && cs.head? == some '0' && cs.all fun c => (Text.digit? c).isSome

def digits? (base : Nat) (cs : List Char) : Option Nat :=
  if cs.isEmpty then none else Text.readDigits base Text.hexDigit? 0 cs

/-- A number after `0x`, `0o` or `0b`. -/
def based? : List Char → Option Nat
  | '0' :: 'x' :: rest => digits? 16 rest
  | '0' :: 'o' :: rest => digits? 8 rest
  | '0' :: 'b' :: rest => digits? 2 rest
  | _ => none

/-- Largest whole number that is still read as one, and the least. -/
def intLimit : Nat := bitValues 128

/-- A whole number of a plain scalar. -/
def int? (cs : List Char) : Option Int :=
  let unsigned (cs : List Char) : Option Nat :=
    match based? cs with
    | some n => some n
    | none => if zeroLed cs then none else digits? 10 cs
  match cs with
  | '-' :: rest =>
    match unsigned rest with
    | some n => if n ≤ intLimit / 2 then some (-(n : Int)) else none
    | none => none
  | _ =>
    let rest := match cs with
      | '+' :: rest => rest
      | _ => cs
    match unsigned rest with
    | some n => if n < intLimit then some n else none
    | none => none

/-- The digits at the front, and the rest. -/
def takeDigits (cs : List Char) : List Char × List Char :=
  (cs.takeWhile Char.isDigit, cs.dropWhile Char.isDigit)

/-- A decimal number in text: digits with at most one point among them,
and an exponent. -/
def decimal? (cs : List Char) : Option Float := do
  let (negative, cs) := match cs with
    | '-' :: r => (true, r)
    | '+' :: r => (false, r)
    | r => (false, r)
  let (whole, rest) := takeDigits cs
  let (fraction, rest) := match rest with
    | '.' :: r => takeDigits r
    | r => ([], r)
  if whole.isEmpty && fraction.isEmpty then none
  else
    let exponent ← match rest with
      | [] => some (0 : Int)
      | e :: r =>
        if e == 'e' || e == 'E' then
          let (down, r) := match r with
            | '-' :: r => (true, r)
            | '+' :: r => (false, r)
            | r => (false, r)
          (Text.decimal? r).map fun n => if down then -(n : Int) else n
        else none
    some (Decimal.ofDigits negative whole fraction exponent)

/-- A binary64 number of a plain scalar; only the three words give one
that is not finite. -/
def float? (cs : List Char) : Option Float :=
  let s := String.ofList cs
  let unsigned := match cs with
    | '+' :: rest => rest
    | _ => cs
  let u := String.ofList unsigned
  if cs.head? == some '+' && unsigned.head?.any isSign then none
  else if u == ".inf" || u == ".Inf" || u == ".INF" then some (1.0 / 0.0)
  else if s == "-.inf" || s == "-.Inf" || s == "-.INF" then some (-1.0 / 0.0)
  else if s == ".nan" || s == ".NaN" || s == ".NAN" then some (0.0 / 0.0)
  else (decimal? unsigned).filter Float.isFinite

/-- The meaning of a plain scalar without a tag. -/
def plainScalar (s : String) : Scalar :=
  let cs := s.toList
  if s == "" || isNull s then .null
  else
    match bool? s with
    | some b => .bool b
    | none =>
      match int? cs with
      | some i => .int i
      | none =>
        if zeroLed cs then .text s
        else
          match float? cs with
          | some x => .float x
          | none => .text s

/-- The standard tags that decide what a scalar is. -/
def coreTag (name : String) : String := "tag:yaml.org,2002:" ++ name

/-- The meaning of a scalar; refused when its tag asks for something that
the text is not. -/
def scalar? (text : String) (plain : Bool) (tag : Option String) : Option Scalar :=
  match tag with
  | none => some (if plain then plainScalar text else .text text)
  | some t =>
    if t == coreTag "bool" then (bool? text).map .bool
    else if t == coreTag "int" then (int? text.toList).map .int
    else if t == coreTag "float" then (float? text.toList).map .float
    else if t == coreTag "null" then if isNull text then some .null else none
    else some (.text text)

/-- A scalar as a JSON value; whole numbers beyond 64 bits have none. -/
def Scalar.value? : Scalar → Option Value
  | .null => some .null
  | .bool b => some (.bool b)
  | .int i => if fitsWord i then some (.num (.int i)) else none
  | .float x => some (Value.ofFloat x)
  | .text s => some (.str s)

/-! ## §2 Aliases -/

mutual

/-- The anchored nodes of a tree, in the order they are written. -/
def Node.anchors : Node → List (Nat × Node)
  | .scalar .. => []
  | .alias _ => []
  | .anchored id n => (id, n) :: n.anchors
  | .sequence items _ => itemAnchors items
  | .mapping pairs _ => pairAnchors pairs

def itemAnchors : List Node → List (Nat × Node)
  | [] => []
  | n :: ns => n.anchors ++ itemAnchors ns

def pairAnchors : List (Node × Node) → List (Nat × Node)
  | [] => []
  | (k, v) :: ps => k.anchors ++ v.anchors ++ pairAnchors ps

end

mutual

/-- The number of events of a tree: a collection counts twice. -/
def Node.size : Node → Nat
  | .scalar .. => 1
  | .alias _ => 1
  | .anchored _ n => n.size
  | .sequence items _ => 2 + itemSizes items
  | .mapping pairs _ => 2 + pairSizes pairs

def itemSizes : List Node → Nat
  | [] => 0
  | n :: ns => n.size + itemSizes ns

def pairSizes : List (Node × Node) → Nat
  | [] => 0
  | (k, v) :: ps => k.size + v.size + pairSizes ps

end

/-- A document: its tree and the last node of each anchor number. -/
structure Document where
  root : Node
  anchors : List (Nat × Node)

def Document.ofRoot (root : Node) : Document := ⟨root, root.anchors.reverse⟩

/-- The aliases that may still be followed. -/
abbrev Follow (α : Type) := StateT Nat Option α

/-- The node behind aliases and anchors; `fuel` bounds the steps. -/
def Document.resolve (d : Document) : Nat → Node → Follow Node
  | 0, _ => failure
  | fuel + 1, .alias id => do
    match ← get with
    | 0 => failure
    | n + 1 =>
      set n
      match d.anchors.lookup id with
      | some node => d.resolve fuel node
      | none => failure
  | fuel + 1, .anchored _ n => d.resolve fuel n
  | _ + 1, n => pure n

/-- Aliases that a document may follow. -/
def Document.allowance (d : Document) : Nat := d.root.size * 100

/-- A document is nested at most this deep. -/
def nesting : Nat := 128

/-- A tree without aliases. -/
inductive Tree
  | scalar (text : String) (plain : Bool) (tag : Option String)
  | sequence (items : List Tree) (tag : Option String)
  | mapping (pairs : List (Tree × Tree)) (tag : Option String)
  deriving Repr, Inhabited

mutual

/-- A node with everything its aliases stand for, at most `levels`
collections inside one another. -/
def Document.expand (d : Document) : Nat → Node → Follow Tree
  | 0, n => do
    match ← d.resolve 4 n with
    | .scalar text plain tag => return .scalar text plain tag
    | _ => failure
  | levels + 1, n => do
    match ← d.resolve 4 n with
    | .scalar text plain tag => return .scalar text plain tag
    | .sequence items tag => return .sequence (← d.expandItems levels items) tag
    | .mapping pairs tag => return .mapping (← d.expandPairs levels pairs) tag
    | _ => failure

def Document.expandItems (d : Document) (levels : Nat) : List Node → Follow (List Tree)
  | [] => pure []
  | n :: ns => do
    let t ← d.expand levels n
    return t :: (← d.expandItems levels ns)

def Document.expandPairs (d : Document) (levels : Nat) :
    List (Node × Node) → Follow (List (Tree × Tree))
  | [] => pure []
  | (k, v) :: ps => do
    let k ← d.expand levels k
    let v ← d.expand levels v
    return (k, v) :: (← d.expandPairs levels ps)

end

/-- What stands where nothing is written. -/
def Tree.empty : Tree := .scalar "" true none

/-- The tree of a text; nothing at all is an empty scalar. -/
def tree? (text : String) : Option Tree := do
  match ← document? text with
  | none => some .empty
  | some root =>
    let d := Document.ofRoot root
    let (t, _) ← (d.expand nesting root).run d.allowance
    some t

/-! ## §3 Values -/

/-- Whether a tag is a local one, which no value carries. -/
def isLocalTag (tag : Option String) : Bool := tag.any fun t => t.startsWith "!"

/-- A key is the text of a scalar, whatever it would mean as a value. -/
def Tree.text? : Tree → Option String
  | .scalar text .. => some text
  | _ => none

/-- The meaning of a scalar node; a local tag leaves it without one. -/
def Tree.meaning? : Tree → Option Scalar
  | .scalar text plain tag => if isLocalTag tag then none else scalar? text plain tag
  | _ => none

mutual

/-- The value of a tree. -/
def Tree.value? : Tree → Option Value
  | .scalar text plain tag => (Tree.meaning? (.scalar text plain tag)).bind Scalar.value?
  | .sequence items tag => if isLocalTag tag then none else (itemValues? items).map .arr
  | .mapping pairs tag =>
    if isLocalTag tag then none else (fieldValues? pairs).map fun fs => .obj (Fields.ofList fs)

def itemValues? : List Tree → Option (List Value)
  | [] => some []
  | t :: ts => do
    let v ← t.value?
    let vs ← itemValues? ts
    some (v :: vs)

def fieldValues? : List (Tree × Tree) → Option (List (String × Value))
  | [] => some []
  | (k, t) :: ps => do
    let key ← k.text?
    let v ← t.value?
    let fs ← fieldValues? ps
    some ((key, v) :: fs)

end

/-- The value of a YAML text; nothing at all is `null`. -/
def value? (text : String) : Option Value := (tree? text).bind Tree.value?

end FormatHost.Yaml
