/-
FormatHost.Proofs.Service.Registered — how the service changes its
registrations.

The service changes its registrations by making one, by ending one and by
ending all, and each time the editor is told. So whatever it is asked to do,
its registrations and what the editor hears of them are those of a list of
actions (`acts_runAll`), and what holds of such lists holds of every run. No
two registrations of a state are for one folder (`Reachable.distinct`), and
as long as the editor does not hear that a folder's registration has ended, at
most one begins (`turn_runAll`).

* §1 `Acts`: what does to the registrations what actions do;
* §2 the steps of an operation that leave them alone;
* §3 the steps that do not;
* §4 operations and runs.
-/
import FormatHost.Proofs.Registration.Agreement
import FormatHost.Proofs.Service.Providing
import FormatHost.Proofs.Service.Watching

namespace FormatHost

open Run

/-- The editor is told of a registration. -/
def Event.isRegistrar : Event → Bool
  | .register .. => true
  | .unregister _ => true
  | _ => false

namespace Registrations

/-! ## §1 Actions -/

theorem runAll_append (actions actions' : List Action) (r : Registrations) :
    let o := runAll actions r
    (runAll (actions ++ actions') r).state = (runAll actions' o.state).state ∧
      (runAll (actions ++ actions') r).events = o.events ++ (runAll actions' o.state).events := by
  induction actions generalizing r with
  | nil => exact ⟨rfl, rfl⟩
  | cons action actions ih =>
    obtain ⟨hs, he⟩ := ih (action.run r).state
    simp only [List.cons_append, runAll, bind_apply, pure_apply, List.append_nil,
      List.append_assoc]
    exact ⟨hs, congrArg _ he⟩

/-- An action is all that the editor hears of. -/
theorem Action.isRegistrar_run (action : Action) :
    Emits (·.isRegistrar = true) action.run := by
  cases action with
  | register folder selectors priority =>
    exact (emits_register folder (by rfl) (by rfl)).bind fun _ => emits_pure _
  | invalidate folder => exact (emits_invalidate folder (by rfl)).bind fun _ => emits_pure _
  | invalidateAll =>
    have hend : Emits (·.isRegistrar = true) Registrations.invalidateAll := by
      refine emits_get.bind fun r => Emits.bind (emits_emitAll fun e he => ?_) fun _ => emits_set _
      obtain ⟨folder, -, rfl⟩ := List.mem_map.mp he
      rfl
    exact hend.bind fun _ => emits_pure _

/-- What is heard of a folder is heard of some registration. -/
theorem notices_filter (folder : Option Path) (es : List Event) :
    notices folder (es.filter Event.isRegistrar) = notices folder es := by
  unfold notices
  rw [List.filterMap_filter]
  exact List.filterMap_congr fun e _ => by cases e <;> rfl

end Registrations

namespace Service

/-- From every state the operation does to the registrations what some actions
do, and lets the editor hear of it. -/
def Acts {α : Type} (x : Run Service α) : Prop :=
  ∀ s, ∃ actions : List Registrations.Action,
    let o := Registrations.runAll actions s.registrations
    (x s).state.registrations = o.state ∧ (x s).events.filter Event.isRegistrar = o.events

section Acts

variable {α β : Type} {x : Run Service α} {k : α → Run Service β}

/-- The operation leaves the registrations alone, and the editor hears
nothing. -/
abbrev LeavesRegistered (x : Run Service α) : Prop :=
  Quiet Service.registrations Event.isRegistrar x

theorem acts_of_leaves (h : LeavesRegistered x) : Acts x :=
  fun s => ⟨[], h.keeps s, h.filter_events s⟩

theorem acts_pure (a : α) : Acts (pure a) := acts_of_leaves (quiet_pure a)

theorem Acts.bind (hx : Acts x) (hk : ∀ a, Acts (k a)) : Acts (x >>= k) := by
  intro s
  obtain ⟨actions, hs, he⟩ := hx s
  obtain ⟨actions', hs', he'⟩ := hk (x s).value (x s).state
  rw [hs] at hs' he'
  obtain ⟨happs, happe⟩ := Registrations.runAll_append actions actions' s.registrations
  refine ⟨actions ++ actions', hs'.trans happs.symm, ?_⟩
  rw [bind_apply, List.filter_append, he, he', happe]

/-- One action on the registrations. -/
theorem acts_on {y : Run Registrations α} (action : Registrations.Action)
    (h : ∀ r, (y r).state = (action.run r).state ∧ (y r).events = (action.run r).events) :
    Acts (onRegistrations y) := by
  intro s
  obtain ⟨hs, he⟩ := h s.registrations
  refine ⟨[action], ?_, ?_⟩
  · simp only [onRegistrations, on_apply, hs, Registrations.runAll, bind_apply, pure_apply]
  · have hall := List.filter_eq_self.mpr (action.isRegistrar_run s.registrations)
    simp only [onRegistrations, on_apply, he, hall, Registrations.runAll, bind_apply, pure_apply,
      List.append_nil]

theorem acts_register (folder : Option Path) (selectors : Selectors) (priority : Int32) :
    Acts (onRegistrations (Registrations.register folder selectors priority)) :=
  acts_on (.register folder selectors priority) fun r => by simp [Registrations.Action.run]

theorem acts_invalidate (folder : Option Path) :
    Acts (onRegistrations (Registrations.invalidate folder)) :=
  acts_on (.invalidate folder) fun r => by simp [Registrations.Action.run]

theorem acts_invalidateAll : Acts (onRegistrations Registrations.invalidateAll) :=
  acts_on .invalidateAll fun r => by simp [Registrations.Action.run]

end Acts

/-! ## §2 Steps that leave the registrations alone -/

section Leaving

variable {α : Type} {x : Run Service α}

theorem isRegistrar_of_isLookup (h : Emits (·.isLookup) x) : Emits (·.isRegistrar = false) x :=
  h.mono fun e he => by cases e <;> first | rfl | cases he

theorem isRegistrar_of_isLog (h : Emits (·.isLog) x) : Emits (·.isRegistrar = false) x :=
  h.mono fun e he => by cases e <;> first | rfl | cases he

theorem isRegistrar_of_tells {origin : Origin} {calls : Call → Prop}
    (h : Emits (Event.Tells origin calls) x) : Emits (·.isRegistrar = false) x :=
  h.mono fun e he => by cases e <;> first | rfl | cases he

theorem leaves_emit {e : Event} (h : e.isRegistrar = false) :
    LeavesRegistered (Run.emit e : Run Service Unit) := ⟨keeps_emit e, emits_emit h⟩

theorem leaves_modify {u : Service → Service} (h : ∀ s, (u s).registrations = s.registrations) :
    LeavesRegistered (Run.modify u) := ⟨keeps_modify h, emits_modify u⟩

theorem leaves_showStatus (status : Status) : LeavesRegistered (showStatus status) :=
  ⟨keeps_showStatus (fun _ _ => rfl) status, emits_showStatus (by rfl)⟩

/-- Reporting a failure and showing it. -/
theorem leaves_report (text : String) (status : Status) (a : α) :
    LeavesRegistered (do
      Run.error text
      showStatus status
      return a) :=
  Quiet.bind (leaves_emit (by rfl)) fun _ => (leaves_showStatus status).bind fun _ => quiet_pure a

theorem leaves_moduleFor (m : Machine) (path? folder : Option Path) (settings : Settings) :
    LeavesRegistered (moduleFor m path? folder settings) :=
  ⟨keeps_moduleFor (fun _ _ => rfl) m path? folder settings,
    isRegistrar_of_isLookup (emits_moduleFor m path? folder settings)⟩

theorem leaves_registrationPlugins (m : Machine) (h : Handle) (d? : Option Document)
    (settings : Settings) (folder : Option Path) :
    LeavesRegistered (registrationPlugins m h d? settings folder) :=
  ⟨keeps_registrationPlugins m h d? settings folder fun _ _ => rfl,
    isRegistrar_of_tells (tells_registrationPlugins m h d? settings folder)⟩

theorem leaves_supportInfo (m : Machine) (h : Handle) (plugins : List String) :
    LeavesRegistered (h.supportInfo m plugins : Run Service _) :=
  Quiet.bind (leaves_emit (by rfl)) fun _ => quiet_pure _

theorem leaves_isIgnored (m : Machine) (path : Path) (file : Path × Bool) :
    LeavesRegistered (isIgnored m path file) :=
  ⟨keeps_isIgnored (fun _ _ => rfl) m path file,
    isRegistrar_of_isLog (Ignore.Cache.emits_isIgnored m path file.1 file.2).on⟩

/-- A request changes no registration. -/
theorem leaves_execute (m : Machine) (r : FormatRequest) : LeavesRegistered (execute m r) := by
  have hattempt : Emits (·.isRegistrar = false) (attempt m r) := by
    unfold attempt
    refine emits_get.bind fun s => ?_
    dsimp only
    split
    · exact emits_pure _
    · refine (leaves_moduleFor m _ _ _).emits.bind fun handle? => ?_
      cases handle? with
      | none => exact emits_pure _
      | some h => exact isRegistrar_of_tells (tells_attemptWith m r s.settings _ h)
  have hexecute : Upholds (fun _ => True) (·.isRegistrar = false) (execute m r) :=
    upholds_execute_of_attempt (fun s _ => ⟨trivial, hattempt s⟩)
      (fun text s _ => ⟨trivial, emits_error (by rfl) s⟩)
      fun status s _ => ⟨trivial, (leaves_showStatus status).emits s⟩
  refine ⟨fun _ => ?_, fun s => (hexecute s trivial).2⟩
  exact execute_keeps (fun _ _ => rfl) (fun _ _ _ _ => rfl)
    (fun _ _ _ => keeps_isIgnored (fun _ _ => rfl) m _ _) fun _ _ => rfl

theorem leaves_edits (m : Machine) (r : FormatRequest) (mode : Edit.Mode) :
    LeavesRegistered (edits m r mode) := by
  refine (leaves_execute m r).bind fun formatted => ?_
  cases formatted <;> exact quiet_pure _

theorem leaves_readinessIn (m : Machine) (settings : Settings) (folder : Option Path)
    (d : Document) (path : Path) (registration : Registration) :
    LeavesRegistered (readinessIn m settings folder d path registration) := by
  unfold readinessIn
  cases settings.ignoreFile m.home folder with
  | none => exact quiet_pure _
  | some file =>
    have hwatch : LeavesRegistered (watchIgnoreFile file.1) :=
      ⟨keeps_watchIgnoreFile (fun _ _ _ _ => rfl) _, emits_watchIgnoreFile _⟩
    exact hwatch.bind fun _ => (leaves_isIgnored m path file).bind fun _ => quiet_pure _

theorem leaves_takeEvents (id : Nat) : LeavesRegistered (takeEvents id) :=
  ⟨keeps_takeEvents (fun _ _ => rfl) id, emits_of_forall_nil fun s => by
    unfold takeEvents
    split <;> rfl⟩

end Leaving

/-! ## §3 Steps that act -/

section Steps

variable (m : Machine)

theorem acts_registerHandle (h : Handle) (folder : Option Path) (d? : Option Document)
    (settings : Settings) : Acts (registerHandle m h folder d? settings) := by
  unfold registerHandle
  refine (acts_of_leaves (leaves_registrationPlugins m h d? settings folder)).bind fun plugins => ?_
  refine (acts_of_leaves (leaves_supportInfo m h plugins)).bind fun info? => ?_
  cases info? with
  | error e => exact acts_of_leaves (leaves_report _ _ _)
  | ok info => exact (acts_register folder _ _).bind fun _ => acts_pure _

theorem acts_ensureRegistered (folder : Option Path) (d? : Option Document) :
    Acts (ensureRegistered m folder d?) := by
  intro s
  unfold ensureRegistered
  rw [get_bind_apply]
  cases s.registrations.get? folder with
  | some registration => exact acts_pure _ s
  | none =>
    refine (acts_of_leaves (leaves_moduleFor m folder folder s.settings)).bind
      (fun handle? => ?_) s
    cases handle? with
    | some h => exact acts_registerHandle m h folder d? s.settings
    | none => exact acts_of_leaves (leaves_report _ _ _)

theorem acts_resetRegistration (changed : Path) : Acts (resetRegistration changed) := by
  intro s
  unfold resetRegistration
  rw [get_bind_apply]
  exact ((acts_invalidate _).bind fun _ => acts_of_leaves (leaves_showStatus _)) s

theorem acts_onManifestEvent (e : WatchEvent) : Acts (onManifestEvent e) := by
  unfold onManifestEvent
  cases e.path.parent? with
  | none => exact (acts_pure ()).bind fun _ => acts_resetRegistration e.path
  | some dir =>
    have hforget : LeavesRegistered (onResolver (Resolver.invalidateTree dir)) :=
      ⟨keeps_on _ fun _ _ => rfl, (emits_modify _).on⟩
    exact Acts.bind (acts_of_leaves hforget) fun _ => acts_resetRegistration e.path

theorem acts_handle (l : Listener) (e : WatchEvent) : Acts (handle m l e) := by
  cases l with
  | manifests => exact acts_onManifestEvent e
  | configFiles => exact acts_resetRegistration e.path
  | ignoreFile =>
    exact acts_of_leaves ⟨keeps_on _ fun _ _ => rfl,
      isRegistrar_of_isLog (Ignore.Cache.emits_handle m e).on⟩

theorem acts_settle (ls : List (Nat × Listener)) : Acts (settle m ls) := by
  have heach : ∀ l es, Acts (handleEach m l es) := by
    intro l es
    induction es with
    | nil => exact acts_pure _
    | cons e es ih => exact (acts_handle m l e).bind fun _ => ih
  induction ls with
  | nil => exact acts_pure _
  | cons entry ls ih =>
    exact (acts_of_leaves (leaves_takeEvents entry.1)).bind fun es =>
      (heach entry.2 es).bind fun _ => ih

theorem acts_deliver (e : WatchEvent) : Acts (deliver m e) := by
  intro s
  unfold deliver
  rw [get_bind_apply]
  cases s.watcher with
  | none => exact acts_pure _ s
  | some w =>
    -- the state that is set has the registrations of the one that was looked at
    obtain ⟨actions, hs, he⟩ := ((acts_settle m s.listeners).bind fun _ => acts_pure (w.emit e).1)
      { s with watcher := some (w.emit e).2 }
    exact ⟨actions, hs, he⟩

theorem acts_onSettingsChanged (previous current : Settings) :
    Acts (onSettingsChanged previous current) := by
  have hreset : Acts (do
      onRegistrations Registrations.invalidateAll
      onResolver Resolver.invalidateAll
      showStatus .ready) :=
    acts_invalidateAll.bind fun _ => Acts.bind
      (acts_of_leaves ⟨keeps_on _ fun _ _ => rfl, (emits_modify _).on⟩)
      fun _ => acts_of_leaves (leaves_showStatus _)
  unfold onSettingsChanged
  dsimp only
  split
  · refine (acts_of_leaves (leaves_emit (by rfl))).bind fun _ => ?_
    split
    · exact hreset
    · exact acts_pure _
  · split
    · exact hreset
    · exact acts_pure _

theorem acts_onActiveDocument (d? : Option Document) : Acts (onActiveDocument m d?) := by
  unfold onActiveDocument
  split
  · refine acts_of_leaves (Quiet.bind ⟨keeps_hideStatus fun _ _ => rfl, ?_⟩ fun _ => quiet_pure _)
    exact (emits_modify _).bind fun _ => emits_emit (by rfl)
  · rename_i d path _
    have hfile : Acts (fileReadiness m d path) := by
      intro s
      unfold fileReadiness
      rw [get_bind_apply]
      split
      · exact acts_pure _ s
      · refine (acts_ensureRegistered m _ _).bind (fun registration? => ?_) s
        cases registration? with
        | none => exact acts_pure _
        | some registration =>
          exact (acts_of_leaves (leaves_readinessIn m _ _ d path registration)).bind
            fun _ => acts_pure _
    refine hfile.bind fun readiness? => ?_
    split
    · exact acts_pure _
    · exact (acts_of_leaves (leaves_showStatus _)).bind fun _ => acts_pure _

theorem acts_registrationFor (d : Document) : Acts (registrationFor m d) :=
  fun s => acts_ensureRegistered m (s.folderOf d) (some d) s

/-! ## §4 Operations -/

/-- **One operation** makes and ends registrations, and does nothing else to
them. -/
theorem acts_run (op : Operation) : Acts (op.run m) := by
  cases op with
  | format r =>
    have hformat : LeavesRegistered (format m r) :=
      (leaves_execute m r).bind fun _ => quiet_pure _
    exact (acts_of_leaves hformat).bind fun _ => acts_pure _
  | documentEdits d =>
    refine Acts.bind ((acts_registrationFor m d).bind fun registration? => ?_) fun _ => acts_pure _
    split
    · exact acts_of_leaves (leaves_edits m _ _)
    · exact acts_pure _
  | rangeEdits d range =>
    refine Acts.bind ((acts_registrationFor m d).bind fun registration? => ?_) fun _ => acts_pure _
    split
    · exact acts_of_leaves (leaves_edits m _ _)
    · exact acts_pure _
  | forceFormat d => exact (acts_of_leaves (leaves_edits m _ _)).bind fun _ => acts_pure _
  | activeDocument d? => exact (acts_onActiveDocument m d?).bind fun _ => acts_pure _
  | register folder d? => exact (acts_ensureRegistered m folder d?).bind fun _ => acts_pure _
  | manifestEvent e => exact acts_onManifestEvent e
  | configFileEvent e => exact acts_resetRegistration e.path
  | listen w =>
    have hlisten : LeavesRegistered (registerWatcher w) :=
      ⟨keeps_registerWatcher (fun _ _ _ _ => rfl) w, emits_registerWatcher w⟩
    exact (acts_of_leaves hlisten).bind fun _ => acts_pure _
  | deliver e => exact (acts_deliver m e).bind fun _ => acts_pure _
  | useSettings new => exact acts_of_leaves (leaves_modify fun _ => rfl)
  | settingsChanged previous current => exact acts_onSettingsChanged previous current
  | addFolder folder => exact acts_of_leaves (leaves_modify fun _ => rfl)
  | removeFolder folder => exact acts_of_leaves (leaves_modify fun _ => rfl)

/-- **A run of operations** does to the registrations what a run of actions
does. -/
theorem acts_runAll (steps : List (Machine × Operation)) : Acts (runAll steps) := by
  induction steps with
  | nil => exact acts_pure ()
  | cons step steps ih => exact (acts_run step.1 step.2).bind fun _ => ih

end Steps

/-- **No two registrations are for one folder**, in the state after any
run. -/
theorem Reachable.distinct {s : Service} (h : s.Reachable) : s.registrations.active.Distinct := by
  obtain ⟨package, loader, bundled, settings, folders, statusBar, steps, rfl⟩ := h
  obtain ⟨actions, hs, -⟩ :=
    acts_runAll steps (fresh package loader bundled settings folders statusBar)
  rw [hs]
  exact (Registrations.agrees_nil.run actions).distinct

/-- **A folder's registration begins at most once until it ends**, whatever
else is asked of the service. -/
theorem turn_runAll {s : Service} (h : s.registrations.active.Distinct)
    (steps : List (Machine × Operation)) {folder : Option Path}
    (hn : .ended ∉ Registrations.notices folder (runAll steps s).events) :
    Registrations.Turn (s.registrations.get? folder)
      (Registrations.notices folder (runAll steps s).events)
      ((runAll steps s).state.registrations.get? folder) := by
  obtain ⟨actions, hs, he⟩ := acts_runAll steps s
  rw [← Registrations.notices_filter, he] at hn ⊢
  rw [hs]
  exact Registrations.runAll_turn h actions hn

end Service
end FormatHost
