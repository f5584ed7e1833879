/-
FormatHost.Ignore.Cache — the rules of ignore files, read once.

The rules of an ignore file are read when they are first needed, and again
when the file changes. An ignore file that is missing is reported once,
unless it is the one that is used by default.
-/
import FormatHost.Event
import FormatHost.Ignore.Rules
import FormatHost.Table
import FormatHost.Watch

namespace FormatHost.Ignore

structure Cache where
  matchers : PathMap Matcher := {}
  /-- The missing files that were reported. -/
  warned : List Path := []

namespace Cache

/-- The rules of a file, if they have been read. -/
def get? (c : Cache) (file : Path) : Option Matcher := c.matchers.find? file

/-- Read the rules of a file and report the lines that are none. -/
def load (m : Machine) (file : Path) : Run Cache Matcher := do
  let (matcher, warnings) := Matcher.load m file
  Run.emitAll (warnings.map (.log .warn))
  return matcher

def put (file : Path) (matcher : Matcher) : Run Cache Unit :=
  Run.modify fun c => { c with matchers := c.matchers.insert file matcher }

/-- Keep a matcher unless there is one already; the one that is kept. -/
def putIfAbsent (file : Path) (matcher : Matcher) : Run Cache Matcher := do
  match (← Run.get).get? file with
  | some kept => return kept
  | none =>
    put file matcher
    return matcher

/-- The rules of a file, read now if they were not before. -/
def matcher (m : Machine) (file : Path) : Run Cache Matcher := do
  match (← Run.get).get? file with
  | some matcher => return matcher
  | none => putIfAbsent file (← load m file)

/-- What is reported of a missing file. -/
def missingText (file : Path) : String :=
  "Configured ignorePath " ++ file.text ++ " does not exist"

/-- Report a missing file, once. -/
def warnMissing (file : Path) : Run Cache Unit := do
  let c ← Run.get
  if !c.warned.contains file then
    Run.set { c with warned := c.warned ++ [file] }
    Run.warn (missingText file)

/-- Whether a document is ignored by the rules of a file. -/
def isIgnored (m : Machine) (document file : Path) (isDefault : Bool) : Run Cache Bool := do
  let rules ← matcher m file
  if rules.isPresent then return rules.isMatch document
  else
    if !isDefault then warnMissing file
    return false

/-- Read the rules of a file again. -/
def invalidate (m : Machine) (file : Path) : Run Cache Unit := do
  put file (← load m file)

/-- Read the rules of files again. -/
def invalidateEach (m : Machine) : List Path → Run Cache Unit
  | [] => return ()
  | f :: fs => do
    invalidate m f
    invalidateEach m fs

/-- Read all rules again. -/
def invalidateAll (m : Machine) : Run Cache Unit := do
  invalidateEach m (← Run.get).matchers.keys

/-- Follow a change of an ignore file. -/
def handle (m : Machine) (e : WatchEvent) : Run Cache Unit :=
  match e.change with
  | .deleted => put e.path (.null e.path)
  | _ => invalidate m e.path

end Cache
end FormatHost.Ignore
