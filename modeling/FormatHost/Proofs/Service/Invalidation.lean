/-
FormatHost.Proofs.Service.Invalidation — what is forgotten when a manifest
or a configuration file changes.

Two things are forgotten, and they differ in reach. A manifest's change
drops the formatters of all projects at and below its directory. Either
change ends one registration, that of the innermost open folder the file
lies in, or the one outside any folder. Other folders below the file's
directory stay registered.

* §1 `EndsInnermost`: what an event emits and leaves;
* §2 `changeEvents_end_innermost`: which folders stay registered.
-/
import FormatHost.Proofs.Registration
import FormatHost.Proofs.Service.Operations

namespace FormatHost

open Run

/-! ## §1 Events -/

namespace Service

/-- What is unregistered when a file changes: the innermost open folder it
lies in, if that is registered. -/
def unregistering (s : Service) (changed : Path) : List Event :=
  let folder := s.workspace.folderFor changed
  if (s.registrations.get? folder).isSome then [.unregister folder] else []

/-- From `s` the registration of the innermost open folder that a changed
file lies in has ended, no other has, and the status shows as ready. Nothing
else has changed but for what the resolver remembers. -/
structure EndsInnermost (s : Service) (changed : Path) (o : Outcome Service Unit) : Prop where
  events : o.events = unregistering s changed ++ [.status .ready]
  registrations : ∀ folder, o.state.registrations.get? folder =
    if s.workspace.folderFor changed == folder then none else s.registrations.get? folder
  rest : o.state =
    { s with
      resolver := o.state.resolver
      registrations := o.state.registrations
      statusBar := s.statusBar.update .ready }

theorem resetRegistration_endsInnermost (s : Service) (changed : Path) :
    EndsInnermost s changed (resetRegistration changed s) where
  events := by
    have h : (resetRegistration changed s).events =
        (Registrations.invalidate (s.workspace.folderFor changed) s.registrations).events ++
          [.status .ready] := rfl
    rw [h, Registrations.invalidate_apply, unregistering]
    split <;> rfl
  registrations :=
    Registrations.invalidate_get? (s.workspace.folderFor changed) s.registrations
  rest := rfl

/-- A manifest's change is that of a configuration file, after the resolver
has forgotten the projects at and below its directory. -/
theorem onManifestEvent_eq (s : Service) (e : WatchEvent) :
    ∃ cache : PathMap (Option Handle),
      onManifestEvent e s =
        resetRegistration e.path { s with resolver := { s.resolver with cache := cache } } ∧
      ∀ project, cache.find? project =
        if e.path.parent?.any project.startsWith then none else s.resolver.cached? project := by
  unfold onManifestEvent
  cases e.path.parent? with
  | none => exact ⟨s.resolver.cache, rfl, fun _ => rfl⟩
  | some dir =>
    refine ⟨s.resolver.cache.filterKeys fun p => !p.startsWith dir, rfl, fun project => ?_⟩
    have hk : ∀ p q : Path, (p == q) = true → (!p.startsWith dir) = !q.startsWith dir :=
      fun p q h => by rw [Path.startsWith_congr h]
    rw [Table.find?_filterKeys hk, Option.any_some]
    cases project.startsWith dir <;> rfl

/-! ## §2 What stays registered -/

/-- The open folders at or below a directory that are registered. -/
def registeredBelow (s : Service) (dir : Path) : List Path :=
  s.workspace.folders.filter fun f => f.startsWith dir && (s.registrations.get? (some f)).isSome

/-- Below any directory the folders that stay registered are those other
than the innermost one. -/
theorem EndsInnermost.registeredBelow_eq {s : Service} {changed : Path}
    {o : Outcome Service Unit} (h : EndsInnermost s changed o) (dir : Path) :
    registeredBelow o.state dir =
      (registeredBelow s dir).filter fun f => !(s.workspace.folderFor changed == some f) := by
  have hw : o.state.workspace = s.workspace := (congrArg Service.workspace h.rest).trans rfl
  simp only [registeredBelow, hw, List.filter_filter, h.registrations]
  congr 1
  funext f
  cases s.workspace.folderFor changed == some f <;> simp

/-- An open folder below an open folder, and a manifest of the outer one
that changes: the inner folder stays registered. -/
theorem registered_after_manifestEvent :
    ¬ ∀ s e dir, Reachable s → e.path.parent? = some dir →
      registeredBelow (onManifestEvent e s).state dir = [] := by
  intro h
  let start := fresh defaultPackage Resolver.plainLoader none {} [⟨"/p"⟩, ⟨"/p/a"⟩] { text := "" }
  let steps := [(Resolver.nestedInstall, Operation.register (some ⟨"/p/a"⟩) none)]
  have hc := h (runAll steps start).state ⟨.changed, ⟨"/p/package.json"⟩⟩ ⟨"/p"⟩
    ⟨_, _, _, _, _, _, _, rfl⟩ (by decide +kernel)
  revert hc
  decide +kernel

/-- **What a change of a manifest or a configuration file ends.** One
registration at most: that of the innermost open folder the file lies in,
or else the one outside any folder. The editor is told if there was one,
and the status shows as ready. Every other folder stays registered, so none
is left below a directory exactly when each one there is that innermost
folder. A manifest's change also drops the formatters of all projects at
and below its directory and no others, a configuration file's none. -/
theorem changeEvents_end_innermost (s : Service) (e : WatchEvent) :
    (∀ o ∈ [onManifestEvent e s, onConfigFileEvent e s],
      EndsInnermost s e.path o ∧
      ∀ dir,
        (registeredBelow o.state dir =
          (registeredBelow s dir).filter fun f => !(s.workspace.folderFor e.path == some f)) ∧
        (registeredBelow o.state dir = [] ↔
          ∀ f ∈ registeredBelow s dir, (s.workspace.folderFor e.path == some f) = true)) ∧
    (∀ project, (onManifestEvent e s).state.resolver.cached? project =
      if e.path.parent?.any project.startsWith then none else s.resolver.cached? project) ∧
    (onConfigFileEvent e s).state.resolver = s.resolver := by
  obtain ⟨cache, hm, hr⟩ := onManifestEvent_eq s e
  have hends : ∀ o ∈ [onManifestEvent e s, onConfigFileEvent e s], EndsInnermost s e.path o := by
    intro o ho
    rcases List.mem_cons.mp ho with rfl | ho
    · rw [hm]
      obtain ⟨he, hg, ht⟩ := resetRegistration_endsInnermost
        { s with resolver := { s.resolver with cache := cache } } e.path
      exact ⟨he, hg, ht⟩
    · rw [List.mem_singleton.mp ho]
      exact resetRegistration_endsInnermost s e.path
  refine ⟨fun o ho => ⟨hends o ho, fun dir => ⟨(hends o ho).registeredBelow_eq dir, ?_⟩⟩, ?_, rfl⟩
  · rw [(hends o ho).registeredBelow_eq dir, List.filter_eq_nil_iff]
    simp
  · intro project
    rw [hm]
    exact hr project

end Service
end FormatHost
