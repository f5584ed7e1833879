/-
FormatHost.Yaml.Node — YAML documents as trees.

A document is a tree of scalars, sequences and mappings; aliases point to
anchored parts of it.

* §1 trees;
* §2 the tree of a token list. Where a node may stand but none does there
  is an empty plain scalar; in block mappings a sequence may stand at the
  column of its key;
* §3 a text is one document: `document?`.
-/
import FormatHost.Yaml.Token

namespace FormatHost.Yaml

/-! ## §1 Trees -/

inductive Node
  | scalar (text : String) (plain : Bool) (tag : Option String)
  | sequence (items : List Node) (tag : Option String)
  | mapping (pairs : List (Node × Node)) (tag : Option String)
  /-- The node of an anchor number. -/
  | alias (id : Nat)
  /-- A node with an anchor number. -/
  | anchored (id : Nat) (node : Node)
  deriving Repr, Inhabited

/-- What stands where nothing is written. -/
def Node.empty : Node := .scalar "" true none

/-! ## §2 From tokens to trees -/

/-- What has been read so far besides the tree: the anchor names with
their numbers, the lead of each tag handle, and the tokens left. -/
structure Reader where
  tokens : List Token
  anchors : List (String × Nat) := []
  handles : List (String × String) := [("!", "!"), ("!!", "tag:yaml.org,2002:")]

abbrev Read (α : Type) := StateT Reader Option α

namespace Read

def peek : Read Token := do return (← get).tokens.headD .streamEnd

def skip : Read Unit := modify fun r => { r with tokens := r.tokens.drop 1 }

/-- A new anchor takes the count of names as its number, so that a name
used again shares the number of the next new one. -/
def nameAnchor (name : String) : Read Nat := do
  let r ← get
  let id := r.anchors.length
  let others := r.anchors.filter (·.1 != name)
  set { r with anchors := (name, id) :: others }
  return id

/-- The tag of a handle and a suffix. -/
def resolveTag (handle suffix : String) : Read String := do
  if handle == "" then return suffix
  else
    match (← get).handles.lookup handle with
    | some lead => return lead ++ suffix
    | none => failure

/-- Anchor and tag before a node, in either order. -/
def properties : Read (Option Nat × Option String) := do
  match ← peek with
  | .anchor name =>
    skip
    match ← peek with
    | .tag h s =>
      skip
      let tag ← resolveTag h s
      return (some (← nameAnchor name), some tag)
    | _ => return (some (← nameAnchor name), none)
  | .tag h s =>
    skip
    match ← peek with
    | .anchor name =>
      skip
      let tag ← resolveTag h s
      return (some (← nameAnchor name), some tag)
    | _ => return (none, some (← resolveTag h s))
  | _ => return (none, none)

def wrap (id : Option Nat) (n : Node) : Node :=
  match id with
  | some id => .anchored id n
  | none => n

mutual

/-- A node. `block` allows block collections, `indentless` a sequence
whose entries stand at the column of their key. -/
def node (block indentless : Bool) : Nat → Read Node
  | 0 => failure
  | fuel + 1 => do
    match ← peek with
    | .alias name =>
      skip
      match (← get).anchors.lookup name with
      | some id => return .alias id
      | none => failure
    | _ =>
      let (id, tag) ← properties
      let t ← peek
      if indentless && t == .blockEntry then
        return wrap id (.sequence (← indentlessEntries fuel) tag)
      else
        match t with
        | .scalar text plain =>
          skip
          let tag := if tag == some "!" then none else tag
          return wrap id (.scalar text plain tag)
        | .flowSequenceStart =>
          skip
          return wrap id (.sequence (← flowItems true fuel) tag)
        | .flowMappingStart =>
          skip
          return wrap id (.mapping (← flowPairs true fuel) tag)
        | .blockSequenceStart =>
          if block then
            skip
            return wrap id (.sequence (← blockEntries fuel) tag)
          else bare id tag
        | .blockMappingStart =>
          if block then
            skip
            return wrap id (.mapping (← blockPairs fuel) tag)
          else bare id tag
        | _ => bare id tag

/-- A node of nothing but an anchor or a tag. -/
def bare (id : Option Nat) (tag : Option String) : Read Node :=
  if id.isSome || tag.isSome then return wrap id (.scalar "" true tag) else failure

/-- The entries of a block sequence. -/
def blockEntries : Nat → Read (List Node)
  | 0 => failure
  | fuel + 1 => do
    match ← peek with
    | .blockEntry =>
      skip
      let n ← match ← peek with
        | .blockEntry => pure Node.empty
        | .blockEnd => pure Node.empty
        | _ => node true false fuel
      return n :: (← blockEntries fuel)
    | .blockEnd => skip; return []
    | _ => failure

/-- The entries of a sequence at the column of its key. -/
def indentlessEntries : Nat → Read (List Node)
  | 0 => failure
  | fuel + 1 => do
    match ← peek with
    | .blockEntry =>
      skip
      let n ← match ← peek with
        | .blockEntry => pure Node.empty
        | .key => pure Node.empty
        | .value => pure Node.empty
        | .blockEnd => pure Node.empty
        | _ => node true false fuel
      return n :: (← indentlessEntries fuel)
    | _ => return []

/-- A key or value of a block mapping, after its mark. -/
def blockPart (fuel : Nat) : Read Node := do
  match ← peek with
  | .key => return .empty
  | .value => return .empty
  | .blockEnd => return .empty
  | _ => node true true fuel

/-- The pairs of a block mapping. -/
def blockPairs : Nat → Read (List (Node × Node))
  | 0 => failure
  | fuel + 1 => do
    match ← peek with
    | .key =>
      skip
      let k ← blockPart fuel
      let v ← match ← peek with
        | .value => do skip; blockPart fuel
        | _ => pure Node.empty
      return (k, v) :: (← blockPairs fuel)
    | .value =>
      -- a value without a key stands for an empty key
      failure
    | .blockEnd => skip; return []
    | _ => failure

/-- The pair of a key inside a flow sequence, after the key's mark. -/
def flowPair (fuel : Nat) : Read (Node × Node) := do
  let k ← match ← peek with
    | .value => do skip; pure Node.empty
    | .flowEntry => do skip; pure Node.empty
    | .flowSequenceEnd => do skip; pure Node.empty
    | _ => node false false fuel
  match ← peek with
  | .value =>
    skip
    match ← peek with
    | .flowEntry => return (k, .empty)
    | .flowSequenceEnd => return (k, .empty)
    | _ => return (k, ← node false false fuel)
  | _ => return (k, .empty)

/-- The items of a flow sequence. -/
def flowItems (first : Bool) : Nat → Read (List Node)
  | 0 => failure
  | fuel + 1 => do
    match ← peek with
    | .flowSequenceEnd => skip; return []
    | t =>
      if !first then
        if t == .flowEntry then skip else failure
      match ← peek with
      | .key =>
        skip
        let pair ← flowPair fuel
        return .mapping [pair] none :: (← flowItems false fuel)
      | .flowSequenceEnd => skip; return []
      | _ =>
        let n ← node false false fuel
        return n :: (← flowItems false fuel)

/-- A key of a flow mapping, after its mark. -/
def flowKey (fuel : Nat) : Read Node := do
  match ← peek with
  | .value => return .empty
  | .flowEntry => return .empty
  | .flowMappingEnd => return .empty
  | _ => node false false fuel

/-- A value of a flow mapping. -/
def flowValue (fuel : Nat) : Read Node := do
  match ← peek with
  | .value =>
    skip
    match ← peek with
    | .flowEntry => return .empty
    | .flowMappingEnd => return .empty
    | _ => node false false fuel
  | _ => return .empty

/-- The pairs of a flow mapping. -/
def flowPairs (first : Bool) : Nat → Read (List (Node × Node))
  | 0 => failure
  | fuel + 1 => do
    match ← peek with
    | .flowMappingEnd => skip; return []
    | t =>
      if !first then
        if t == .flowEntry then skip else failure
      match ← peek with
      | .key =>
        skip
        let k ← flowKey fuel
        let v ← flowValue fuel
        return (k, v) :: (← flowPairs false fuel)
      | .flowMappingEnd => skip; return []
      | _ =>
        let k ← node false false fuel
        return (k, .empty) :: (← flowPairs false fuel)

end

/-! ## §3 Documents -/

/-- The directives before a document. -/
def directives : Nat → Bool → Read Unit
  | 0, _ => failure
  | fuel + 1, versioned => do
    match ← peek with
    | .directive => if versioned then failure else skip; directives fuel true
    | .tagDirective h lead =>
      skip
      let standard := h == "!" || h == "!!"
      if !standard && ((← get).handles.lookup h).isSome then failure
      modify fun r => { r with handles := (h, lead) :: r.handles }
      directives fuel versioned
    | _ => return

/-- What follows the last document: end marks and nothing else. -/
def documentEnds : Nat → Read Unit
  | 0 => failure
  | fuel + 1 => do
    match ← peek with
    | .documentEnd => skip; documentEnds fuel
    | .streamEnd => return
    | _ => failure

/-- The only document of a text; nothing for a text without one. -/
def stream (fuel : Nat) : Read (Option Node) := do
  match ← peek with
  | .streamEnd => return none
  | t =>
    let isDirective := match t with
      | .directive => true
      | .tagDirective .. => true
      | _ => false
    if isDirective || t == .documentStart then
      directives fuel false
      if (← peek) == .documentStart then skip else failure
      let n ← match ← peek with
        | .directive => pure Node.empty
        | .tagDirective .. => pure Node.empty
        | .documentStart => pure Node.empty
        | .documentEnd => pure Node.empty
        | .streamEnd => pure Node.empty
        | _ => node true false fuel
      documentEnds fuel
      return some n
    else
      let n ← node true false fuel
      documentEnds fuel
      return some n

end Read

/-- The document of a text: `some none` when the text holds none. -/
def document? (text : String) : Option (Option Node) := do
  let tokens ← tokens? text
  let (n, _) ← (Read.stream (2 * tokens.length + 2)).run { tokens }
  some n

end FormatHost.Yaml
