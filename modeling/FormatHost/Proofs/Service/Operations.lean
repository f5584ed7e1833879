/-
FormatHost.Proofs.Service.Operations — runs of the service.

What the editor does with a service is a list of operations. Files can
change between two of them, so each comes with the machine of its moment. A
state is reachable when some run leads to it from a service that was just
built.

* §1 operations;
* §2 runs, and what holds along them: `runAll_invariant`.
-/
import FormatHost.Proofs.Resolver.Cache
import FormatHost.Service.Provide

namespace FormatHost

open Run

/-! ## §1 Operations -/

/-- What can be asked of the service, and the changes of what it reads. -/
inductive Operation
  | format (r : FormatRequest)
  | documentEdits (d : Document)
  | rangeEdits (d : Document) (r : Range)
  | forceFormat (d : Document)
  | activeDocument (d? : Option Document)
  | register (folder : Option Path) (d? : Option Document)
  | manifestEvent (e : WatchEvent)
  | configFileEvent (e : WatchEvent)
  | listen (w : Watcher)
  | deliver (e : WatchEvent)
  /-- The settings that are read from now on. -/
  | useSettings (s : Settings)
  | settingsChanged (previous current : Settings)
  | addFolder (folder : Path)
  | removeFolder (folder : Path)

namespace Operation

/-- Do an operation; its answer does not matter here. -/
def run (m : Machine) : Operation → Run Service Unit
  | .format r => do let _ ← Service.format m r
  | .documentEdits d => do let _ ← Service.provideDocumentEdits m d
  | .rangeEdits d r => do let _ ← Service.provideRangeEdits m d r
  | .forceFormat d => do let _ ← Service.forceFormat m d
  | .activeDocument d? => do let _ ← Service.onActiveDocument m d?
  | .register folder d? => do let _ ← Service.ensureRegistered m folder d?
  | .manifestEvent e => Service.onManifestEvent e
  | .configFileEvent e => Service.onConfigFileEvent e
  | .listen w => do let _ ← Service.registerWatcher w
  | .deliver e => do let _ ← Service.deliver m e
  | .useSettings current => Run.modify fun s => { s with settings := current }
  | .settingsChanged previous current => Service.onSettingsChanged previous current
  | .addFolder folder => Run.modify fun s => { s with workspace := s.workspace.add folder }
  | .removeFolder folder => Run.modify fun s => { s with workspace := s.workspace.remove folder }

end Operation

/-! ## §2 Runs -/

namespace Service

/-- A service that was just built. -/
def fresh (package : String) (loader : Loader) (bundled : Option Install) (settings : Settings)
    (folders : List Path) (statusBar : StatusBar) : Service :=
  { resolver := Resolver.blank package loader bundled, settings, workspace := ⟨folders⟩
    statusBar }

/-- Do operations one after the other. -/
def runAll : List (Machine × Operation) → Run Service Unit
  | [] => pure ()
  | (m, op) :: rest => do
    op.run m
    runAll rest

/-- The state is that of a run from a service that was just built. -/
def Reachable (s : Service) : Prop :=
  ∃ package loader bundled settings folders statusBar steps,
    s = (runAll steps (fresh package loader bundled settings folders statusBar)).state

/-- **What every operation of a run keeps holds after the run.** -/
theorem runAll_invariant {inv : Service → Prop} {steps : List (Machine × Operation)}
    (step : ∀ mo ∈ steps, ∀ s, inv s → inv (mo.2.run mo.1 s).state) {s : Service} (h : inv s) :
    inv (runAll steps s).state := by
  induction steps generalizing s with
  | nil => exact h
  | cons mo rest ih =>
    have hstep := step mo (List.mem_cons_self ..) s h
    exact ih (fun mo' hm => step mo' (List.mem_cons_of_mem _ hm)) hstep

end Service
end FormatHost
