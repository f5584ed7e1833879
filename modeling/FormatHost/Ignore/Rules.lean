/-
FormatHost.Ignore.Rules — the rules of an ignore file.

An ignore file lists patterns, one a line. The last rule that matches a
file, or else a directory above it, decides: a rule excludes, a rule that
starts with `!` takes back.

* §1 rules and how a line is read;
* §2 the rules of a file, and the lines that are no pattern;
* §3 which rule decides;
* §4 matchers: a file outside the directory of the ignore file is never
  excluded, and without an ignore file nothing is.
-/
import FormatHost.Disk
import FormatHost.Glob.Match

namespace FormatHost.Ignore

/-! ## §1 Rules -/

/-- One rule. -/
structure Rule where
  glob : Glob
  /-- Whether the rule takes back instead of excluding. -/
  negated : Bool
  /-- Whether the rule speaks of directories only. -/
  directoryOnly : Bool

/-- In ignore files a star stops at a slash, and a bracket that is never
closed stands for itself. -/
def dialect : Glob.Dialect := { literalSeparator := true, unclosedClass := true }

/-- A pattern as written, taken apart. -/
structure Line where
  negated : Bool
  directoryOnly : Bool
  pattern : List Char
  deriving Repr, DecidableEq

/-- The text of a rule: blanks at the end do not count unless the line
ends in a backslash and a space. Nothing for a comment or an empty line. -/
def lineText? (cs : List Char) : Option (List Char) :=
  if cs.head? = some '#' then none
  else
    let cs := if "\\ ".toList.reverse.isPrefixOf cs.reverse then cs else Text.trimEnd cs
    if cs.isEmpty then none else some cs

/-- Take off the `!` and the leading slash; the last part says whether the
pattern is bound to the directory of the ignore file. -/
def cutFront (cs : List Char) : Bool × List Char × Bool :=
  match cs with
  | '\\' :: '!' :: rest => (false, '!' :: rest, false)
  | '\\' :: '#' :: rest => (false, '#' :: rest, false)
  | _ =>
    let (negated, cs) := match cs with
      | '!' :: rest => (true, rest)
      | cs => (false, cs)
    match cs with
    | '/' :: rest => (negated, rest, true)
    | cs => (negated, cs, false)

/-- Take off the trailing slash, and a backslash before it. -/
def cutBack (cs : List Char) : Bool × List Char :=
  match cs.reverse with
  | '/' :: '\\' :: rest => (true, rest.reverse)
  | '/' :: rest => (true, rest.reverse)
  | _ => (false, cs)

/-- A pattern without a slash matches at any depth. -/
def atAnyDepth (cs : List Char) : List Char :=
  if cs.contains '/' || cs = "**".toList then cs else "**/".toList ++ cs

/-- A pattern that ends in `/**` means what lies below, not the directory
itself. -/
def belowOnly (cs : List Char) : List Char :=
  if "/**".toList.reverse.isPrefixOf cs.reverse then cs ++ "/*".toList else cs

/-- A line taken apart; nothing when it holds no rule. -/
def readLine (cs : List Char) : Option Line := do
  let text ← lineText? cs
  let (negated, rest, bound) := cutFront text
  let (directoryOnly, rest) := cutBack rest
  some ⟨negated, directoryOnly, belowOnly (if bound then rest else atAnyDepth rest)⟩

/-- The rule of a line: nothing, a rule, or the reason why it has none. -/
def readRule (cs : List Char) : Except Glob.Error (Option Rule) :=
  match readLine cs with
  | none => .ok none
  | some l =>
    match Glob.parse dialect (String.ofList l.pattern) with
    | .ok glob => .ok (some ⟨glob, l.negated, l.directoryOnly⟩)
    | .error e => .error ⟨String.ofList ((lineText? cs).getD cs), e.problem⟩

/-! ## §2 Files of rules -/

/-- The rules of a list of lines, in order; lines that cannot be read are
left out. -/
def readRules (ls : List (List Char)) : List Rule :=
  ls.filterMap fun l =>
    match readRule l with
    | .ok r => r
    | .error _ => none

/-- The reasons why lines were left out. -/
def readProblems (ls : List (List Char)) : List Glob.Error :=
  ls.filterMap fun l =>
    match readRule l with
    | .ok _ => none
    | .error e => some e

/-! ## §3 Deciding -/

inductive Verdict
  | exclude
  | takeBack
  | undecided
  deriving Repr, DecidableEq

/-- The verdict of the last rule that matches a path. -/
def decide (rules : List Rule) (text : String) (isDirectory : Bool) : Verdict :=
  match rules.reverse.find? fun r => r.glob.isMatch text && (!r.directoryOnly || isDirectory) with
  | none => .undecided
  | some r => if r.negated then .takeBack else .exclude

/-- The first verdict, nearest first, over the directories above a file. -/
def decideAbove (rules : List Rule) : List Path → Verdict
  | [] => .undecided
  | p :: ps =>
    match decide rules p.text true with
    | .undecided => decideAbove rules ps
    | v => v

/-- The path as rules see it: a leading `./` and the text of the rules'
own directory are taken off once more where they are repeated. -/
def stripRoot (root : String) (p : Path) : Path :=
  let cs := (Text.stripFront "./".toList p.text.toList).getD p.text.toList
  if (Path.mk root).components = [.here] ∨ !cs.contains '/' then ⟨String.ofList cs⟩
  else
    match Text.stripFront root.toList cs with
    | some rest => ⟨String.ofList ((Text.stripFront ['/'] rest).getD rest)⟩
    | none => ⟨String.ofList cs⟩

/-- The verdict on a file, or else on the directories above it. -/
def decideFile (rules : List Rule) (root : String) (p : Path) : Verdict :=
  if rules.isEmpty then .undecided
  else
    let p := stripRoot root p
    match decide rules p.text false with
    | .undecided => decideAbove rules p.parents
    | v => v

/-! ## §4 Matchers -/

/-- The rules of one ignore file. -/
structure Matcher where
  source : Path
  /-- Whether the ignore file was there when the rules were read. -/
  isPresent : Bool
  rules : List Rule

namespace Matcher

/-- The matcher that excludes nothing. -/
def null (source : Path) : Matcher := ⟨source, false, []⟩

/-- The directory of the ignore file. -/
def base (source : Path) : Path := (source.parent?).getD ⟨""⟩

/-- The matcher of an ignore file with the given text. -/
def ofContent (source : Path) (content : String) : Matcher :=
  ⟨source, true, readRules (Text.lines content.toList)⟩

/-- What there is to say about lines that cannot be read. -/
def warnings (source : Path) (content : String) : List String :=
  (readProblems (Text.lines content.toList)).map fun e =>
    "Skipping invalid pattern in " ++ source.text ++ ": " ++ e.message

/-- The text of the directory of the ignore file, without a leading `./`. -/
def rootText (source : Path) : String :=
  let text := (base source).text
  match Text.stripFront "./".toList text.toList with
  | some rest => String.ofList rest
  | none => text

/-- Whether a file is excluded. -/
def isMatch (m : Matcher) (file : Path) : Bool :=
  match file.stripPrefix? (base m.source) with
  | none => false
  | some relative =>
    !relative.isEmpty && decideFile m.rules (rootText m.source) relative == .exclude

/-- The matcher of the ignore file on disk, and the warnings of reading
it; a file that cannot be read excludes nothing. -/
def load (machine : Machine) (source : Path) : Matcher × List String :=
  match machine.readText source with
  | .ok content => (ofContent source content, warnings source content)
  | .error _ => (null source, [])

end Matcher
end FormatHost.Ignore
