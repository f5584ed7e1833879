/-
FormatHost.Path — paths as text, read component by component.

A path keeps the text it was given; comparing, nesting and cutting go by
its components, for which repeated and trailing slashes and inner `.`
do not count:

* §1 reading: the lead (`/`, a leading `.`, or nothing), the segments
  after it, and the components;
* §2 joining and parents. `ancestors` lists a path and everything above
  it, nearest first; `parent?` is its second entry;
* §3 nesting: `startsWith` and `stripPrefix?`;
* §4 the last component: file name and extension.
-/
import FormatHost.Text

namespace FormatHost

/-- A path, as the text it was given in. -/
structure Path where
  text : String
  deriving Inhabited, Repr, DecidableEq

namespace Path

/-! ## §1 Reading -/

/-- One step of a path. -/
inductive Component
  | root
  | here
  | up
  | name (s : String)
  deriving Repr, DecidableEq

/-- What a path starts with before its first segment. -/
inductive Lead
  /-- An absolute path. -/
  | slash
  /-- A relative path that starts with the segment `.`. -/
  | dot
  /-- Any other relative path. -/
  | bare
  deriving Repr, DecidableEq

def Lead.text : Lead → String
  | .slash => "/"
  | .dot => "."
  | .bare => ""

def Lead.components : Lead → List Component
  | .slash => [.root]
  | .dot => [.here]
  | .bare => []

/-- The lead and the segments between the slashes after it. -/
def readLead : List Char → Lead × List String
  | '/' :: rest => (.slash, (Text.splitAll '/' rest).map String.ofList)
  | ['.'] => (.dot, [])
  | '.' :: '/' :: rest => (.dot, "" :: (Text.splitAll '/' rest).map String.ofList)
  | cs => (.bare, (Text.splitAll '/' cs).map String.ofList)

def lead (p : Path) : Lead := (readLead p.text.toList).1

def segments (p : Path) : List String := (readLead p.text.toList).2

/-- Segments that stand for no component: the empty one and `.`. -/
def isSilent (s : String) : Bool := s == "" || s == "."

/-- The component of a segment. -/
def segmentComponent? (s : String) : Option Component :=
  if isSilent s then none else if s == ".." then some .up else some (.name s)

/-- The components, silent segments skipped. -/
def components (p : Path) : List Component :=
  p.lead.components ++ p.segments.filterMap segmentComponent?

/-- Two paths are the same when their components are. -/
instance : BEq Path := ⟨fun p q => p.components == q.components⟩

def isAbsolute (p : Path) : Bool := p.lead == .slash

def isEmpty (p : Path) : Bool := p.text == ""

/-! ## §2 Joining and parents -/

/-- `p` below `base`: an absolute `p` replaces it, and a slash is put
between the two where there is none. -/
def join (base p : Path) : Path :=
  if p.isAbsolute then p
  else if base.isEmpty || base.text.endsWith "/" then ⟨base.text ++ p.text⟩
  else ⟨base.text ++ "/" ++ p.text⟩

/-- `name` below `base`. -/
def joinName (base : Path) (name : String) : Path := base.join ⟨name⟩

instance : HDiv Path String Path := ⟨joinName⟩

/-- The text of a lead and segments, trailing silent segments dropped. -/
def ofSegments (lead : Lead) (reversed : List String) : Path :=
  ⟨lead.text ++ "/".intercalate (reversed.dropWhile isSilent).reverse⟩

/-- Everything above a path whose segments, last first, are given. -/
def above (lead : Lead) : List String → List Path
  | [] => if lead = .dot then [⟨""⟩] else []
  | s :: rest => if isSilent s then above lead rest else ofSegments lead rest :: above lead rest

/-- The directories above `p`, nearest first. -/
def parents (p : Path) : List Path := above p.lead p.segments.reverse

/-- `p` and everything above it, nearest first. -/
def ancestors (p : Path) : List Path := p :: p.parents

/-- The directory that holds `p`. -/
def parent? (p : Path) : Option Path := p.parents.head?

/-! ## §3 Nesting -/

/-- Whether the components of `base` come first in those of `p`. -/
def startsWith (p base : Path) : Bool := base.components.isPrefixOf p.components

/-- Segments left after `n` components have been taken off the front. -/
def dropComponents : Nat → List String → List String
  | 0, segs => segs
  | _ + 1, [] => []
  | n + 1, s :: rest => if isSilent s then dropComponents (n + 1) rest else dropComponents n rest

/-- The text of `p` below `base`, silent segments at its ends dropped. -/
def stripPrefix? (p base : Path) : Option Path :=
  if p.startsWith base then
    let taken := base.components.length
    if taken = 0 then some (ofSegments p.lead p.segments.reverse)
    else
      let rest := dropComponents (taken - p.lead.components.length) p.segments
      some (ofSegments .bare (rest.dropWhile isSilent).reverse)
  else none

/-! ## §4 The last component -/

/-- The last component, when it is a name. -/
def fileName? (p : Path) : Option String :=
  match p.components.getLast? with
  | some (.name s) => some s
  | _ => none

/-- The name before and after its last dot; a dot at the very front of a
name does not count. -/
def splitExtension (name : String) : String × Option String :=
  match Text.splitOnce '.' name.toList.reverse with
  | some (ext, stem@(_ :: _)) => (String.ofList stem.reverse, some (String.ofList ext.reverse))
  | _ => (name, none)

/-- What follows the last dot of the file name. -/
def extension? (p : Path) : Option String := do
  (splitExtension (← p.fileName?)).2

/-- The text with slashes in place of backslashes. -/
def slashed (p : Path) : String :=
  String.ofList (p.text.toList.map fun c => if c = '\\' then '/' else c)

end Path

end FormatHost
