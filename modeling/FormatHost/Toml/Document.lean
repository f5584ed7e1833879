/-
FormatHost.Toml.Document — the tables of a TOML document.

A document is a list of lines: keys with values, and headers that name
the table for the keys that follow. A table is defined once: by its
header, by dotted keys, or as a value between braces; only a table that
was merely passed through on the way to another may still get a header.

* §1 tables under construction, and putting a key into one;
* §2 values: arrays and tables between braces;
* §3 lines: the table being filled is kept apart until the next header;
* §4 whole documents as JSON values.
-/
import FormatHost.Toml.Scalar

namespace FormatHost.Toml

open Json

/-! ## §1 Tables -/

/-- How a table came to be. -/
inductive Standing
  /-- By a header, or as a value. -/
  | defined
  /-- On the way to a table with a header. -/
  | passed
  /-- By a dotted key. -/
  | dotted
  deriving Repr, DecidableEq

/-- What a key holds. -/
inductive Item
  | value (v : Value)
  | table (standing : Standing) (entries : List (String × Item))
  /-- Tables under a header in double brackets, last first. -/
  | tables (elements : List (List (String × Item)))

abbrev Entries := List (String × Item)

def Entries.set (es : Entries) (key : String) (item : Item) : Entries :=
  match es with
  | [] => [(key, item)]
  | (k, i) :: rest => if k = key then (key, item) :: rest else (k, i) :: Entries.set rest key item

/-- A change of the table at the end of a path. The tables on the way are
made where they are missing, with the standing `new`; the last table
of a list stands for the list. The change gets the standing of the
table, `none` for the table that the path starts from. -/
def descend (new : Standing) (change : Option Standing → Entries → Option Entries)
    (at? : Option Standing) : List String → Entries → Option Entries
  | [], es => change at? es
  | key :: path, es =>
    match es.lookup key with
    | none => do
      let inner ← descend new change (some new) path []
      some (es.set key (.table new inner))
    | some (.value _) => none
    | some (.tables elements) =>
      match elements with
      | [] => none
      | last :: before => do
        let inner ← descend new change (some .defined) path last
        some (es.set key (.tables (inner :: before)))
    | some (.table standing inner) =>
      if new = .dotted ∧ standing = .defined then none
      else do
        let inner ← descend new change (some standing) path inner
        some (es.set key (.table standing inner))

/-- Put a value under a key that is new; a dotted key may only go on with
tables that dotted keys made. -/
def insertValue (path : List String) (key : String) (v : Value) (es : Entries) : Option Entries :=
  descend .dotted
    (fun standing? es =>
      let fits := match standing? with
        | none => true
        | some standing => standing = .dotted
      if fits && (es.lookup key).isNone then some (es.set key (.value v)) else none)
    none path es

mutual

/-- A table as a JSON value. -/
def Item.toValue : Item → Value
  | .value v => v
  | .table _ es => .obj (Fields.ofList (entryValues es))
  | .tables elements => .arr (elementValues elements).reverse

def entryValues : List (String × Item) → List (String × Value)
  | [] => []
  | (k, i) :: es => (k, i.toValue) :: entryValues es

def elementValues : List (List (String × Item)) → List Value
  | [] => []
  | es :: rest => .obj (Fields.ofList (entryValues es)) :: elementValues rest

end

/-! ## §2 Values -/

/-- The rest of a line after a comment; nothing when the comment holds a
control character. -/
def skipComment (cs : List Char) : Option (List Char) :=
  match cs with
  | '#' :: rest => some (rest.dropWhile isPlain)
  | _ => some cs

/-- Blanks, line ends and comments, as they may stand in arrays. -/
def skipSpread : Nat → List Char → List Char
  | 0, cs => cs
  | fuel + 1, cs =>
    let cs := skipBlanks cs
    match cs with
    | '#' :: rest =>
      match lineEnd? (rest.dropWhile isPlain) with
      | some rest => skipSpread fuel rest
      | none => cs
    | _ =>
      match lineEnd? cs with
      | some rest => skipSpread fuel rest
      | none => cs

def skipSpreads (cs : List Char) : List Char := skipSpread (cs.length + 1) cs

/-- A date or number. -/
def readNumber (cs : List Char) : Option (Value × List Char) :=
  let r := ((readMoment cs).map momentValue).orElse fun _ =>
    (readDecimal cs).orElse fun _ =>
      (readSpecial cs).orElse fun _ => readInteger cs
  match r with
  | .yields v rest => some (v, rest)
  | _ => none

mutual

/-- A value at the front, inside `depth` arrays and tables; `fuel` bounds
the values read. -/
def readValue (depth : Nat) : Nat → List Char → Option (Value × List Char)
  | 0, _ => none
  | fuel + 1, cs =>
    match readString cs with
    | .yields s rest => some (.str s, rest)
    | .broken => none
    | .other =>
      match cs with
      | '[' :: rest =>
        if depth + 1 < depthLimit then
          (readItems (depth + 1) fuel rest).map fun (vs, rest) => (.arr vs, rest)
        else none
      | '{' :: rest =>
        if depth + 1 < depthLimit then
          match skipBlanks rest with
          | '}' :: rest => some (.obj [], rest)
          | rest =>
            (readFields (depth + 1) fuel [] rest).map fun (es, rest) =>
              (.obj (Fields.ofList (entryValues es)), rest)
        else none
      | 't' :: 'r' :: 'u' :: 'e' :: rest => some (.bool true, rest)
      | 'f' :: 'a' :: 'l' :: 's' :: 'e' :: rest => some (.bool false, rest)
      | cs => readNumber cs

/-- The items of an array up to its bracket. -/
def readItems (depth : Nat) : Nat → List Char → Option (List Value × List Char)
  | 0, _ => none
  | fuel + 1, cs =>
    match skipSpreads cs with
    | ']' :: rest => some ([], rest)
    | cs => do
      let (v, rest) ← readValue depth fuel cs
      match skipSpreads rest with
      | ',' :: rest =>
        let (vs, rest) ← readItems depth fuel rest
        some (v :: vs, rest)
      | ']' :: rest => some ([v], rest)
      | _ => none

/-- The fields of a table between braces, all in one line. -/
def readFields (depth : Nat) : Nat → Entries → List Char → Option (Entries × List Char)
  | 0, _, _ => none
  | fuel + 1, es, cs => do
    let ((path, key), rest) ← readKey cs
    let rest ← expect '=' (skipBlanks rest)
    let (v, rest) ← readValue depth fuel (skipBlanks rest)
    let es ← insertValue path key v es
    match skipBlanks rest with
    | ',' :: rest => readFields depth fuel es rest
    | '}' :: rest => some (es, rest)
    | _ => none

end

/-! ## §3 Lines -/

/-- A document being read: the tables that are complete, and the one that
the lines fill. -/
structure State where
  complete : Entries := []
  /-- The path of the current table; empty at the start. -/
  path : List String := []
  /-- Whether the current table is one of a list. -/
  isElement : Bool := false
  current : Entries := []

namespace State

/-- The current table put in its place. -/
def close (s : State) : Option Entries :=
  match s.path.getLast? with
  | none => some s.current
  | some key =>
    descend .passed
      (fun _ es =>
        if s.isElement then
          match es.lookup key with
          | none => some (es.set key (.tables [s.current]))
          | some (.tables elements) => some (es.set key (.tables (s.current :: elements)))
          | some _ => none
        else
          match es.lookup key with
          | none => some (es.set key (.table .defined s.current))
          | some _ => none)
      none s.path.dropLast s.complete

/-- The tables at the end of a path. -/
def entriesAt (es : Entries) : List String → Entries
  | [] => es
  | key :: path =>
    match es.lookup key with
    | some (.table _ inner) => entriesAt inner path
    | some (.tables (last :: _)) => entriesAt last path
    | _ => []

/-- Start the table of a header: a new one, or one that so far was only
passed through. -/
def openTable (s : State) (path : List String) (key : String) : Option State := do
  let complete ← s.close
  let complete ← descend .passed
    (fun _ es =>
      match es.lookup key with
      | none => some es
      | some (.table .passed _) => some es
      | some _ => none)
    none path complete
  let current := match (entriesAt complete path).lookup key with
    | some (.table _ inner) => inner
    | _ => []
  let complete ← descend .passed
    (fun _ es => some (es.filter fun e => e.1 ≠ key)) none path complete
  some ⟨complete, path ++ [key], false, current⟩

/-- Start one more table of the list of a header. -/
def openElement (s : State) (path : List String) (key : String) : Option State := do
  let complete ← s.close
  let complete ← descend .passed
    (fun _ es =>
      match es.lookup key with
      | none => some es
      | some (.tables _) => some es
      | some _ => none)
    none path complete
  some ⟨complete, path ++ [key], true, []⟩

end State

/-- What follows a line's content: blanks, a comment, the line's end. -/
def finishLine (cs : List Char) : Option (List Char) := do
  let rest ← skipComment (skipBlanks cs)
  if rest.isEmpty then some [] else lineEnd? rest

/-- One line. -/
def readLine (s : State) (cs : List Char) : Option (State × List Char) :=
  match skipBlanks cs with
  | '[' :: '[' :: rest => do
    let ((path, key), rest) ← readKey rest
    let rest ← expect ']' (skipBlanks rest)
    let rest ← expect ']' rest
    let rest ← finishLine rest
    some (← s.openElement path key, rest)
  | '[' :: rest => do
    let ((path, key), rest) ← readKey rest
    let rest ← expect ']' (skipBlanks rest)
    let rest ← finishLine rest
    some (← s.openTable path key, rest)
  | rest =>
    match finishLine rest with
    | some rest => some (s, rest)
    | none => do
      let ((path, key), rest) ← readKey rest
      let rest ← expect '=' (skipBlanks rest)
      let (v, rest) ← readValue 0 (rest.length + 2) (skipBlanks rest)
      let rest ← finishLine rest
      let current ← insertValue path key v s.current
      some ({ s with current }, rest)

/-- All lines. -/
def readLines : Nat → State → List Char → Option State
  | _, s, [] => some s
  | 0, _, _ => none
  | fuel + 1, s, cs => do
    let (s, rest) ← readLine s cs
    readLines fuel s rest

/-! ## §4 Documents -/

/-- The value of a document; a byte order mark at its front is passed over. -/
def value? (text : String) : Option Value := do
  let cs := match text.toList with
    | c :: rest => if c.toNat = 0xFEFF then rest else c :: rest
    | [] => []
  let s ← readLines (cs.length + 1) {} cs
  some (.obj (Fields.ofList (entryValues (← s.close))))

end FormatHost.Toml
