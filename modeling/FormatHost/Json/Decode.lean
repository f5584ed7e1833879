/-
FormatHost.Json.Decode — records from JSON texts.

A record is an object with known fields. Fields it does not know are
passed over unread, a known field that occurs twice is refused. An array
stands for a record too: its items are the fields in their declared
order.
-/
import FormatHost.Json.Source

namespace FormatHost.Json

/-! ## §1 Simple values -/

def Source.bool? : Source → Option Bool
  | .bool b => some b
  | _ => none

def Source.string? : Source → Option String
  | .str s => s
  | _ => none

/-- A whole number within bounds. -/
def Source.int? (low high : Int) : Source → Option Int
  | .num (some (.int i)) => if low ≤ i ∧ i ≤ high then some i else none
  | _ => none

/-- `null`, or a value of the type. -/
def Source.nullable? {α : Type} (decode : Source → Option α) : Source → Option (Option α)
  | .null => some none
  | s => (decode s).map some

/-- A list of values of the type. -/
def Source.list? {α : Type} (decode : Source → Option α) : Source → Option (List α)
  | .arr items => items.mapM decode
  | _ => none

/-- A name from a list; an object with the name as its only key and `null`
as its value stands for the name. -/
def Source.choice? {α : Type} (names : List (String × α)) : Source → Option α
  | .str (some s) => names.lookup s
  | .obj [(some s, .null)] => names.lookup s
  | _ => none

/-! ## §2 Records -/

/-- The only field of a name; `none` when it occurs twice. -/
def onlyField (fields : List (String × Source)) (name : String) : Option (Option Source) :=
  match fields.filter (·.1 == name) with
  | [] => some none
  | [(_, v)] => some (some v)
  | _ => none

/-- The fields with all keys being text. -/
def readableFields (fields : List (Option String × Source)) : Option (List (String × Source)) :=
  fields.mapM fun (k, v) => k.map (·, v)

/-- The values of a record's fields, in the order of `names`. -/
def Source.record? (names : List String) : Source → Option (List (Option Source))
  | .obj fields => do names.mapM (onlyField (← readableFields fields))
  | .arr items =>
    if items.length ≤ names.length then some ((names.zipIdx).map fun (_, i) => items[i]?)
    else none
  | _ => none

/-- A field's value: the default when the field is absent. -/
def orDefault {α : Type} (decode : Source → Option α) (default : α) : Option Source → Option α
  | none => some default
  | some s => decode s

/-- A table of any values. -/
def Source.options? (levels : Nat) (s : Source) : Option Options :=
  match s.value? levels with
  | some (.obj fields) => some fields
  | _ => none

end FormatHost.Json
