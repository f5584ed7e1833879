/-
FormatHost.Yaml.Decode — records from YAML trees.

A reader that knows which type it wants looks at a scalar's text before
its meaning: where text is wanted, `1` is a text. An empty plain scalar
stands for an empty list or record where one is wanted.
-/
import FormatHost.Yaml.Value

namespace FormatHost.Yaml

/-- Whether a scalar that is not plain text may still be read by type: it
is plain, or it carries the tag of the type. -/
def readsAs (name : String) (plain : Bool) (tag : Option String) : Bool :=
  match tag with
  | some t => t == coreTag name || (plain && isLocalTag tag)
  | none => plain

def Tree.bool? : Tree → Option Bool
  | .scalar text plain tag => if readsAs "bool" plain tag then Yaml.bool? text else none
  | _ => none

/-- A whole number within bounds. -/
def Tree.int? (low high : Int) : Tree → Option Int
  | .scalar text plain tag =>
    if readsAs "int" plain tag then
      (Yaml.int? text.toList).filter fun i => low ≤ i && i ≤ high
    else none
  | _ => none

/-- Nothing, or a value of the type: an empty plain scalar, a null and a
scalar tagged as null are nothing. -/
def Tree.nullable? {α : Type} (decode : Tree → Option α) (t : Tree) : Option (Option α) :=
  match t with
  | .scalar text plain tag =>
    if !plain then (decode t).map some
    else
      match tag with
      | some tag =>
        if tag == coreTag "null" then (if isNull text then some none else none)
        else (decode t).map some
      | none => if text == "" || isNull text then some none else (decode t).map some
  | _ => (decode t).map some

def Tree.isEmpty : Tree → Bool
  | .scalar text plain _ => text == "" && plain
  | _ => false

def Tree.list? {α : Type} (decode : Tree → Option α) : Tree → Option (List α)
  | .sequence items _ => items.mapM decode
  | t => if t.isEmpty then some [] else none

/-- A name from a list, as text or as a local tag on nothing. -/
def Tree.choice? {α : Type} (names : List (String × α)) : Tree → Option α
  | .scalar text _ tag =>
    match tag with
    | some tag =>
      if isLocalTag (some tag) then
        if text == "" || isNull text then names.lookup (String.ofList (tag.toList.drop 1)) else none
      else names.lookup text
    | none => names.lookup text
  | _ => none

/-- The fields of a record by their keys' text. -/
def Tree.fields? : Tree → Option (List (String × Tree))
  | .mapping pairs _ => pairs.mapM fun (k, v) => k.text?.map (·, v)
  | t => if t.isEmpty then some [] else none

mutual

/-- Whether every part of a tree has a meaning, keys of any form
included. -/
def Tree.hasMeaning : Tree → Bool
  | .scalar text plain tag =>
    ((Tree.meaning? (.scalar text plain tag)).bind Scalar.value?).isSome
  | .sequence items tag => !isLocalTag tag && itemsHaveMeaning items
  | .mapping pairs tag => !isLocalTag tag && pairsHaveMeaning pairs

def itemsHaveMeaning : List Tree → Bool
  | [] => true
  | t :: ts => t.hasMeaning && itemsHaveMeaning ts

def pairsHaveMeaning : List (Tree × Tree) → Bool
  | [] => true
  | (k, v) :: ps => k.hasMeaning && v.hasMeaning && pairsHaveMeaning ps

end
end FormatHost.Yaml
