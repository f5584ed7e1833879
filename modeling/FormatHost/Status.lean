/-
FormatHost.Status — the status that the user sees.

* §1 statuses and the marker of each;
* §2 readiness of the active document;
* §3 the status bar.
-/
import FormatHost.Text

namespace FormatHost

/-! ## §1 Statuses -/

/-- The outcome of the last attempt. -/
inductive Status
  | ready
  | success
  | warn
  | error
  | ignored
  | disabled
  deriving Repr, DecidableEq

namespace Status

def all : List Status := [.ready, .success, .warn, .error, .ignored, .disabled]

def name : Status → String
  | .ready => "ready"
  | .success => "success"
  | .warn => "warn"
  | .error => "error"
  | .ignored => "ignored"
  | .disabled => "disabled"

/-- What is shown behind the bar's text. -/
def marker : Status → String
  | .ready => ""
  | .success => ""
  | .warn => "Warn"
  | .error => "Error"
  | .ignored => "x"
  | .disabled => "x"

def names : List (String × Status) := all.map fun s => (s.name, s)

end Status

/-! ## §2 Readiness -/

/-- Whether the active document can be formatted. -/
inductive Readiness
  | ready
  | disabled
  | ignored
  deriving Repr, DecidableEq

def Readiness.status : Readiness → Status
  | .ready => .ready
  | .disabled => .disabled
  | .ignored => .ignored

/-! ## §3 The status bar -/

/-- The status item: its text, what it shows, and all it has shown. -/
structure StatusBar where
  text : String
  current : Option Status := none
  isVisible : Bool := false
  /-- Oldest first. -/
  history : List Status := []
  deriving Repr

namespace StatusBar

def update (b : StatusBar) (s : Status) : StatusBar :=
  { b with current := some s, isVisible := true, history := b.history ++ [s] }

def hide (b : StatusBar) : StatusBar := { b with isVisible := false }

/-- The text of the status item, while it is visible. -/
def render (b : StatusBar) : Option String :=
  if b.isVisible then
    let marker := (b.current.map Status.marker).getD ""
    some (String.ofList (Text.trimEnd (b.text ++ " " ++ marker).toList))
  else none

end StatusBar
end FormatHost
