/-
FormatHost.Registration — formatters registered with the editor.

For each workspace folder, and once for documents outside of any, a
formatter can be registered with the editor under selectors. There is at
most one registration per folder: a new one first ends the one before it.
-/
import FormatHost.Event
import FormatHost.Table

namespace FormatHost

/-- A registration that is active. -/
structure Registration where
  folder : Option Path
  selectors : Selectors
  /-- The time of registration, by a clock that only counts these. -/
  activation : Nat
  deriving Repr

/-- The active registrations, and the clock. -/
structure Registrations where
  active : Table (Option Path) Registration := {}
  clock : Nat := 0
  deriving Repr

namespace Registrations

def get? (r : Registrations) (folder : Option Path) : Option Registration :=
  r.active.find? folder

/-- End the registration of a folder, when there is one. -/
def invalidate (folder : Option Path) : Run Registrations Unit := do
  let r ← Run.get
  if (r.get? folder).isSome then
    Run.emit (.unregister folder)
    Run.set { r with active := r.active.erase folder }

/-- Register selectors for a folder. -/
def register (folder : Option Path) (selectors : Selectors) (priority : Int32) :
    Run Registrations Registration := do
  invalidate folder
  Run.emit (.register folder selectors priority)
  let r ← Run.get
  let registration : Registration := ⟨folder, selectors, r.clock + 1⟩
  Run.set ⟨r.active.insert folder registration, r.clock + 1⟩
  return registration

/-- End all registrations. -/
def invalidateAll : Run Registrations Unit := do
  let r ← Run.get
  Run.emitAll (r.active.keys.map .unregister)
  Run.set { r with active := {} }

end Registrations
end FormatHost
