/-
FormatHost.Proofs.Service.Watching — listening to a watcher, step by step.

Both patterns that the service listens to from the start are read without an
error, so listening never fails. What a subscription adds to the state, and
what following events leaves of it, is said here once for each step.

* §1 subscribing;
* §2 following events;
* §3 what following events upholds.
-/
import FormatHost.Proofs.Glob.Names
import FormatHost.Proofs.Service.Calls

namespace FormatHost.Service

open Run

/-! ## §1 Subscribing -/

/-- **Listening to a watcher does not fail**: the globs for manifests and
for configuration files are patterns. -/
theorem registerWatcher_eq :
    ∃ manifests configFiles, registerWatcher = fun w => do
      Run.modify fun s => { s with watcher := some w }
      subscribe manifests .manifests
      subscribe configFiles .configFiles
      return .ok () := by
  have hread : (WatchPattern.ofGlob manifestGlob).isOk = true := by decide +kernel
  obtain ⟨configFiles, hc⟩ : ∃ pattern, WatchPattern.ofNames Config.watchedFiles = .ok pattern :=
    ⟨_, Config.ofNames_watchedFiles⟩
  cases hm : WatchPattern.ofGlob manifestGlob with
  | error e =>
    rw [hm] at hread
    cases hread
  | ok manifests =>
    refine ⟨manifests, configFiles, ?_⟩
    -- as a whole function: one that is applied would have its patterns read again
    delta registerWatcher
    rw [hm, hc]

theorem subscribe_state {s : Service} {w : Watcher} (hw : s.watcher = some w)
    (pattern : WatchPattern) (l : Listener) :
    (subscribe pattern l s).state = { s with
      watcher := some (w.watch pattern).2, listeners := s.listeners ++ [(w.nextId, l)] } := by
  unfold subscribe
  rw [modify_apply, hw]
  rfl

/-- An ignore file is noted and listened to once. -/
theorem watchIgnoreFile_state {s : Service} {w : Watcher} (hw : s.watcher = some w)
    (file : Path) :
    (watchIgnoreFile file s).state =
      if s.watchedIgnoreFiles.contains file then s
      else { s with
        watcher := some (w.watch (.path file)).2
        listeners := s.listeners ++ [(w.nextId, .ignoreFile)]
        watchedIgnoreFiles := s.watchedIgnoreFiles ++ [file] } := by
  have hsome : s.watcher.isSome = true := by rw [hw]; rfl
  unfold watchIgnoreFile
  rw [get_bind_apply, hsome, Bool.true_and]
  cases s.watchedIgnoreFiles.contains file with
  | true => rfl
  | false =>
    exact subscribe_state
      (s := { s with watchedIgnoreFiles := s.watchedIgnoreFiles ++ [file] }) hw _ _

/-! ## §2 Following events -/

section Frames

variable {γ : Type} {f : Service → γ} (bar : ∀ s b, f { s with statusBar := b } = f s)
  (registrations : ∀ s r, f { s with registrations := r } = f s)
  (resolver : ∀ s r, f { s with resolver := r } = f s)
  (rules : ∀ s c, f { s with ignore := c } = f s)

include bar registrations in
theorem keeps_resetRegistration (changed : Path) : Keeps f (resetRegistration changed) := by
  unfold resetRegistration
  exact keeps_get.bind fun s =>
    Keeps.bind (keeps_on _ registrations) fun _ => keeps_showStatus bar _

include bar registrations resolver in
theorem keeps_onManifestEvent (e : WatchEvent) : Keeps f (onManifestEvent e) := by
  unfold onManifestEvent
  cases e.path.parent? with
  | none => exact keeps_resetRegistration bar registrations e.path
  | some dir => exact Keeps.bind (keeps_on _ resolver) fun _ =>
      keeps_resetRegistration bar registrations e.path

include bar registrations resolver rules in
/-- Following an event changes no subscription. -/
theorem keeps_handleEach (m : Machine) (l : Listener) (es : List WatchEvent) :
    Keeps f (handleEach m l es) := by
  induction es with
  | nil => exact keeps_pure _
  | cons e es ih =>
    refine Keeps.bind ?_ fun _ => ih
    cases l with
    | manifests => exact keeps_onManifestEvent bar registrations resolver e
    | configFiles => exact keeps_resetRegistration bar registrations e.path
    | ignoreFile => exact keeps_on _ rules

variable (watcher : ∀ s w, f { s with watcher := w } = f s)

include watcher in
theorem keeps_takeEvents (id : Nat) : Keeps f (takeEvents id) := by
  intro s
  unfold takeEvents
  split
  · rfl
  · exact watcher s _

include bar registrations resolver rules watcher in
theorem keeps_settle (m : Machine) (ls : List (Nat × Listener)) : Keeps f (settle m ls) := by
  induction ls with
  | nil => exact keeps_pure _
  | cons l ls ih =>
    exact (keeps_takeEvents watcher l.1).bind fun es =>
      (keeps_handleEach bar registrations resolver rules m l.2 es).bind fun _ => ih

include bar registrations resolver rules watcher in
/-- A delivery changes what waits and what events change, and nothing else. -/
theorem keeps_deliver (m : Machine) (e : WatchEvent) : Keeps f (deliver m e) := by
  refine keeps_get_bind fun s => ?_
  cases hw : s.watcher with
  | none => rfl
  | some w =>
    exact (keeps_settle bar registrations resolver rules watcher m s.listeners _).trans
      (watcher s _)

variable (listening : ∀ s watcher files listeners, f { s with
  watcher := watcher, watchedIgnoreFiles := files, listeners := listeners } = f s)

include listening in
/-- Listening to a watcher changes the subscriptions, and nothing else. -/
theorem keeps_registerWatcher (w : Watcher) : Keeps f (registerWatcher w) := by
  have hsubscribe : ∀ pattern l, Keeps f (subscribe pattern l) := by
    intro pattern l
    refine keeps_modify fun s => ?_
    cases hw : s.watcher with
    | none => rfl
    | some w => exact listening s _ s.watchedIgnoreFiles _
  obtain ⟨manifests, configFiles, he⟩ := registerWatcher_eq
  rw [he]
  exact (keeps_modify fun s => listening s _ s.watchedIgnoreFiles s.listeners).bind fun _ =>
    (hsubscribe manifests .manifests).bind fun _ =>
      (hsubscribe configFiles .configFiles).bind fun _ => keeps_pure _

end Frames

theorem emits_registerWatcher {p : Event → Prop} (w : Watcher) : Emits p (registerWatcher w) := by
  obtain ⟨manifests, configFiles, he⟩ := registerWatcher_eq
  rw [he]
  exact (emits_modify _).bind fun _ => Emits.bind (emits_modify _) fun _ =>
    Emits.bind (emits_modify _) fun _ => emits_pure _

/-! ## §3 Invariants of following -/

section Upholds

variable {inv : Service → Prop} {p : Event → Prop} {m : Machine}
  (watcher : ∀ s w, inv s → inv { s with watcher := w })
  (following : ∀ l e, Upholds inv p (handle m l e))

include watcher following in
theorem upholds_settle_of_handle (ls : List (Nat × Listener)) : Upholds inv p (settle m ls) := by
  have heach : ∀ l es, Upholds inv p (handleEach m l es) := by
    intro l es
    induction es with
    | nil => exact upholds_pure _
    | cons e es ih => exact (following l e).bind fun _ => ih
  have htake : ∀ id, Upholds inv p (takeEvents id) := by
    intro id s hs
    unfold takeEvents
    split
    · exact ⟨hs, nofun⟩
    · exact ⟨watcher s _ hs, nofun⟩
  induction ls with
  | nil => exact upholds_pure _
  | cons entry ls ih =>
    exact (htake entry.1).bind fun es => (heach entry.2 es).bind fun _ => ih

include watcher following in
/-- A delivery upholds what following single events upholds. -/
theorem upholds_deliver_of_handle (e : WatchEvent) : Upholds inv p (deliver m e) := by
  intro s hs
  unfold deliver
  rw [get_bind_apply]
  cases s.watcher with
  | none => exact upholds_pure _ s hs
  | some w =>
    refine Upholds.bind_at (x := Run.set _) ⟨watcher s _ hs, emits_set _ s⟩ ?_
    exact (upholds_settle_of_handle watcher following _).bind fun _ => upholds_pure _

/-- A change of settings warns, resets, or both. -/
theorem upholds_onSettingsChanged_of {previous current : Settings}
    (warning : ∀ text, Upholds inv p (Run.warn text : Run Service Unit))
    (reset : Upholds inv p (do
      onRegistrations Registrations.invalidateAll
      onResolver Resolver.invalidateAll
      showStatus .ready)) : Upholds inv p (onSettingsChanged previous current) := by
  unfold onSettingsChanged
  dsimp only
  split
  · refine (warning _).bind fun _ => ?_
    split
    · exact reset
    · exact upholds_pure _
  · split
    · exact reset
    · exact upholds_pure _

end Upholds

end FormatHost.Service
