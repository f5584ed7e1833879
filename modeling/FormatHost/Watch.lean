/-
FormatHost.Watch — subscriptions to file events.

The editor tells of files that were created, changed or deleted. A
subscription has a pattern and a queue; an event goes to the queue of
every subscription whose pattern matches its path.

* §1 events and patterns;
* §2 subscriptions;
* §3 the watcher's operations.
-/
import FormatHost.Failure
import FormatHost.Glob.Match

namespace FormatHost

/-! ## §1 Events and patterns -/

inductive Change
  | created
  | changed
  | deleted
  deriving Repr, DecidableEq

structure WatchEvent where
  change : Change
  path : Path
  deriving Repr, DecidableEq

/-- What a subscription listens for. -/
inductive WatchPattern
  /-- Exactly this file. -/
  | path (p : Path)
  /-- Every path that a glob matches. -/
  | glob (g : Glob)

namespace WatchPattern

/-- The pattern of a glob's text. -/
def ofGlob (text : String) : Except Glob.Error WatchPattern := (Glob.parse {} text).map .glob

/-- The glob for files of any of the names, at any depth. -/
def namesText (names : List String) : String :=
  "**/\x7b" ++ ",".intercalate names ++ "\x7d"

def ofNames (names : List String) : Except Glob.Error WatchPattern := ofGlob (namesText names)

def accepts (w : WatchPattern) (p : Path) : Bool :=
  match w with
  | .path expected => expected == p
  | .glob g => g.isMatch p.text

def text : WatchPattern → String
  | .path p => p.text
  | .glob g => g.pattern

end WatchPattern

/-! ## §2 Subscriptions -/

structure Subscription where
  id : Nat
  pattern : WatchPattern
  /-- Events that were not taken yet, oldest first. -/
  queue : List WatchEvent := []

/-- The live subscriptions, oldest first. -/
structure Watcher where
  nextId : Nat := 0
  subscriptions : List Subscription := []

namespace Subscription

/-- The subscription after an event. -/
def receive (e : WatchEvent) (s : Subscription) : Subscription :=
  if s.pattern.accepts e.path then { s with queue := s.queue ++ [e] } else s

end Subscription

/-! ## §3 Operations -/

namespace Watcher

/-- A new subscription, by its number. -/
def watch (w : Watcher) (pattern : WatchPattern) : Nat × Watcher :=
  (w.nextId, ⟨w.nextId + 1, w.subscriptions ++ [⟨w.nextId, pattern, []⟩]⟩)

/-- The number of subscriptions that an event goes to, and the watcher
after it. -/
def emit (w : Watcher) (e : WatchEvent) : Nat × Watcher :=
  (w.subscriptions.countP fun s => s.pattern.accepts e.path,
    { w with subscriptions := w.subscriptions.map (·.receive e) })

def find? (w : Watcher) (id : Nat) : Option Subscription := w.subscriptions.find? (·.id = id)

/-- The watcher with other events left in the queue of a subscription. -/
def setQueue (w : Watcher) (id : Nat) (queue : List WatchEvent) : Watcher :=
  { w with subscriptions := w.subscriptions.map fun s => if s.id = id then { s with queue } else s }

/-- The oldest event of a subscription, which is taken. -/
def next? (w : Watcher) (id : Nat) : Option WatchEvent × Watcher :=
  match (w.find? id).map (·.queue) with
  | some (e :: rest) => (some e, w.setQueue id rest)
  | _ => (none, w)

/-- All events of a subscription, which are taken. -/
def takeAll (w : Watcher) (id : Nat) : List WatchEvent × Watcher :=
  (((w.find? id).map (·.queue)).getD [], w.setQueue id [])

/-- End a subscription. -/
def drop (w : Watcher) (id : Nat) : Watcher :=
  { w with subscriptions := w.subscriptions.filter (·.id ≠ id) }

/-- The number of live subscriptions. -/
def size (w : Watcher) : Nat := w.subscriptions.length

end Watcher
end FormatHost
