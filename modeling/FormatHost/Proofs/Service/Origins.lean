/-
FormatHost.Proofs.Service.Origins — when the bundled formatter is used
although only local ones may be.

The setting that only the project's own formatter may be used is read where
a formatter is looked for on behalf of a path, and nowhere else. So a run
under it never finds the bundled formatter for a path and never remembers
it for a project. For documents without a path, and when the formatter is
registered outside any folder, it is still found and asked.

* §1 finding for a path answers with local formatters;
* §2 `OnlyLocal`: what a run under the setting keeps;
* §3 requests and registrations;
* §4 what one operation may ask of the bundled formatter;
* §5 runs: `bundledCalls_of_onlyUseLocalVersion`.
-/
import FormatHost.Proofs.Service.Calls
import FormatHost.Proofs.Service.Operations
import FormatHost.Proofs.Service.Watching

namespace FormatHost

open Run

/-! ## §1 Finding for a path -/

namespace Resolver

/-- No project remembers the bundled formatter. -/
def NoneBundled (r : Resolver) : Prop :=
  ∀ e ∈ r.cache.entries, ∀ h, e.2 = some h → h.origin ≠ .bundled

/-- Under the setting, finding is looking for a local formatter. -/
theorem locate_of_onlyUseLocalVersion {m : Machine} {s : ResolverSettings}
    (hs : s.onlyUseLocalVersion = true) (path : Path) (r : Resolver) :
    (locate m path s r).value = r.localHandle? m path s ∧ (locate m path s r).state = r := by
  unfold locate
  rw [bind_apply, locateLocal_value, locateLocal_state]
  cases r.localHandle? m path s with
  | some h => exact ⟨rfl, rfl⟩
  | none =>
    simp only [hs, if_true]
    exact ⟨rfl, rfl⟩

/-- **Under the setting no path gets the bundled formatter**, and no project
comes to remember it. -/
theorem resolve_noneBundled {m : Machine} {s : ResolverSettings}
    (hs : s.onlyUseLocalVersion = true) (path : Path) {r : Resolver} (hr : r.NoneBundled) :
    (∀ h, (resolve m path s r).value = some h → h.origin ≠ .bundled) ∧
      (resolve m path s r).state.NoneBundled := by
  obtain ⟨hv, ht⟩ := locate_of_onlyUseLocalVersion (m := m) hs path r
  have hl : ∀ h, r.localHandle? m path s = some h → h.origin ≠ .bundled := by
    intro h hh
    rw [localHandle?_origin hh]
    decide
  simp only [resolve, bind_apply, get_apply]
  cases hc : r.cached? (cacheKey m path) with
  | some known =>
    obtain ⟨e, he, -, hk⟩ := Table.exists_of_find? hc
    refine ⟨fun h hh => hr e he h ?_, hr⟩
    rw [hk]
    exact hh
  | none =>
    have hstore : ∀ found : Option Handle, (∀ h, found = some h → h.origin ≠ .bundled) →
        (store (cacheKey m path) found r).state.NoneBundled := by
      intro found hf e he h hh
      rcases Table.mem_entries_insert he with he | he
      · exact hr e he h hh
      · exact hf h (he.symm.trans hh)
    simp only [bind_apply, hv, ht]
    cases hh : r.localHandle? m path s with
    | some h =>
      rw [hh] at hl
      exact ⟨hl, hstore (some h) hl⟩
    | none =>
      rw [hh] at hl
      exact ⟨hl, hstore none hl⟩

end Resolver

/-! ## §2 What a run keeps -/

/-- What the bundled formatter is called for is among `calls`. -/
def Event.BundledOnly (calls : Call → Prop) : Event → Prop
  | .call .bundled c => calls c
  | _ => True

theorem Event.BundledOnly.mono {calls calls' : Call → Prop} (h : ∀ c, calls c → calls' c)
    (e : Event) (he : e.BundledOnly calls) : e.BundledOnly calls' := by
  cases e with
  | call o c =>
    cases o with
    | bundled => exact h c he
    | _ => exact trivial
  | _ => exact trivial

/-- Calls of one formatter matter only when it is the bundled one. -/
theorem bundledOnly_of_asks {σ α : Type} {x : Run σ α} {origin : Origin} {asked calls : Call → Prop}
    (h : Emits (Event.Asks origin asked) x) (hc : origin = .bundled → ∀ c, asked c → calls c) :
    Emits (Event.BundledOnly calls) x :=
  h.mono fun e he => by
    cases e with
    | call o c =>
      obtain ⟨rfl, ha⟩ := he
      cases o with
      | bundled => exact hc rfl c ha
      | _ => exact trivial
    | _ => exact trivial

theorem bundledOnly_of_isLookup {σ α : Type} {x : Run σ α} {calls : Call → Prop}
    (h : Emits (·.isLookup) x) : Emits (Event.BundledOnly calls) x :=
  have hl : Emits (Event.Asks .local fun _ => True) x := asks_of_isLookup h
  bundledOnly_of_asks hl nofun

theorem bundledOnly_of_isLog {σ α : Type} {x : Run σ α} {calls : Call → Prop}
    (h : Emits (·.isLog) x) : Emits (Event.BundledOnly calls) x :=
  have hl : Emits (Event.Asks .local fun _ => True) x := asks_of_tells (tells_of_isLog h)
  bundledOnly_of_asks hl nofun

namespace Service

/-- Only local formatters may be used, and only such are remembered for
projects. -/
structure OnlyLocal (s : Service) : Prop where
  setting : s.settings.onlyUseLocalVersion = true
  remembered : s.resolver.NoneBundled

/-- The parts of the state that finding goes by. -/
def finding (s : Service) : Resolver × Settings := (s.resolver, s.settings)

theorem OnlyLocal.congr (s t : Service) (h : t.finding = s.finding) (hs : OnlyLocal s) :
    OnlyLocal t := by
  obtain ⟨hr, ht⟩ := Prod.mk.inj h
  exact ⟨ht ▸ hs.setting, hr ▸ hs.remembered⟩

/-- A formatter that is found is the bundled one only outside any path. -/
theorem moduleFor_onlyLocal (m : Machine) (path? folder : Option Path) {s : Service}
    (hs : OnlyLocal s) :
    OnlyLocal (moduleFor m path? folder s.settings s).state ∧
      ∀ h, (moduleFor m path? folder s.settings s).value = some h →
        h.origin = .bundled → path? = none := by
  cases path? with
  | some path =>
    obtain ⟨hv, hr⟩ := Resolver.resolve_noneBundled (m := m)
      (s := s.settings.resolverSettings m.home folder) hs.setting path hs.remembered
    exact ⟨⟨hs.setting, hr⟩, fun h hh ho => absurd ho (hv h hh)⟩
  | none =>
    refine ⟨⟨hs.setting, ?_⟩, fun _ _ _ => rfl⟩
    have hk := Resolver.keeps_resolveGlobal m (s.settings.resolverSettings m.home folder)
      s.resolver
    show Resolver.NoneBundled (Resolver.resolveGlobal m _ s.resolver).state
    unfold Resolver.NoneBundled
    rw [hk]
    exact hs.remembered

/-! ## §3 Requests and registrations -/

/-- What is asked of the bundled formatter for a document. -/
abbrev formattingOnly (path? : Option Path) : Event → Prop :=
  Event.BundledOnly fun c => path? = none ∧ c.OfFormatting none

/-- What is asked of the bundled formatter for a folder. -/
abbrev registeringOnly (folder path? : Option Path) : Event → Prop :=
  Event.BundledOnly fun c => folder = none ∧ c.OfRegistering path?

theorem upholds_attempt (m : Machine) (r : FormatRequest) :
    Upholds OnlyLocal (formattingOnly r.document.path?) (attempt m r) := by
  intro s hs
  unfold attempt
  rw [get_bind_apply]
  dsimp only
  split
  · exact upholds_pure _ s hs
  · obtain ⟨hs', ho⟩ := moduleFor_onlyLocal m r.document.path? (s.folderOf r.document) hs
    refine Upholds.bind_at ⟨hs', bundledOnly_of_isLookup (emits_moduleFor m _ _ _) s⟩ ?_
    cases hh : (moduleFor m r.document.path? (s.folderOf r.document) s.settings s).value with
    | none => exact upholds_pure _
    | some h =>
      refine Emits.upholds ?_ (keeps_attemptWith (f := finding) (fun _ _ => rfl)
        (fun _ _ _ _ => rfl) m r _ _ h fun _ _ _ => keeps_isIgnored (fun _ _ => rfl) m _ _) OnlyLocal.congr
      refine bundledOnly_of_asks (asks_of_tells (tells_attemptWith m r _ _ h)) fun hb c hc => ?_
      have hp := ho h hh hb
      rw [hp] at hc
      exact ⟨hp, hc⟩

theorem upholds_showStatus {calls : Call → Prop} (status : Status) :
    Upholds OnlyLocal (Event.BundledOnly calls) (showStatus status) :=
  Emits.upholds (emits_showStatus trivial) (keeps_showStatus (f := finding) (fun _ _ => rfl) _)
    OnlyLocal.congr

theorem upholds_error {calls : Call → Prop} (text : String) :
    Upholds OnlyLocal (Event.BundledOnly calls) (Run.error text : Run Service Unit) :=
  Emits.upholds (f := finding) (emits_error trivial) (keeps_emit _) OnlyLocal.congr

theorem upholds_execute (m : Machine) (r : FormatRequest) :
    Upholds OnlyLocal (formattingOnly r.document.path?) (execute m r) :=
  upholds_execute_of_attempt (upholds_attempt m r) upholds_error upholds_showStatus

theorem upholds_ensureRegistered (m : Machine) (folder : Option Path) (d? : Option Document) :
    Upholds OnlyLocal (registeringOnly folder (d?.bind Document.path?))
      (ensureRegistered m folder d?) := by
  intro s hs
  unfold ensureRegistered
  rw [get_bind_apply]
  cases s.registrations.get? folder with
  | some registration => exact upholds_pure _ s hs
  | none =>
    obtain ⟨hs', ho⟩ := moduleFor_onlyLocal m folder folder hs
    refine Upholds.bind_at ⟨hs', bundledOnly_of_isLookup (emits_moduleFor m _ _ _) s⟩ ?_
    cases hh : (moduleFor m folder folder s.settings s).value with
    | none =>
      exact (upholds_error _).bind fun _ => (upholds_showStatus _).bind fun _ => upholds_pure _
    | some h =>
      refine Emits.upholds ?_ (keeps_registerHandle (f := finding) m h d? _ folder
        (fun _ _ => rfl) (fun _ _ => rfl)) OnlyLocal.congr
      exact bundledOnly_of_asks (asks_registerHandle m h d? _ folder) fun hb c hc =>
        ⟨ho h hh hb, hc⟩

/-! ## §4 Operations -/

section Watching

variable {calls : Call → Prop}

theorem upholds_resetRegistration (changed : Path) :
    Upholds OnlyLocal (Event.BundledOnly calls) (resetRegistration changed) := by
  intro s
  unfold resetRegistration
  rw [get_bind_apply]
  refine Upholds.bind (Emits.upholds (f := finding) ?_ ?_ OnlyLocal.congr)
    (fun _ => upholds_showStatus _) s
  · exact (Registrations.emits_invalidate _ trivial).on
  · exact keeps_on _ fun _ _ => rfl

theorem upholds_onManifestEvent (e : WatchEvent) :
    Upholds OnlyLocal (Event.BundledOnly calls) (onManifestEvent e) := by
  unfold onManifestEvent
  cases e.path.parent? with
  | none => exact (upholds_pure _).bind fun _ => upholds_resetRegistration _
  | some dir =>
    refine Upholds.bind (upholds_of_forall_nil (fun s hs => ?_) fun _ => rfl)
      fun _ => upholds_resetRegistration _
    exact ⟨hs.setting, fun entry he => hs.remembered entry (List.mem_filter.mp he).1⟩

theorem upholds_handle (m : Machine) (l : Listener) (e : WatchEvent) :
    Upholds OnlyLocal (Event.BundledOnly calls) (handle m l e) := by
  cases l with
  | manifests => exact upholds_onManifestEvent e
  | configFiles => exact upholds_resetRegistration e.path
  | ignoreFile =>
    refine Emits.upholds (f := finding) ?_ (keeps_on _ fun _ _ => rfl) OnlyLocal.congr
    exact bundledOnly_of_isLog (Ignore.Cache.emits_handle m e).on

theorem upholds_deliver (m : Machine) (e : WatchEvent) :
    Upholds OnlyLocal (Event.BundledOnly calls) (deliver m e) :=
  upholds_deliver_of_handle (fun _ _ hs => ⟨hs.setting, hs.remembered⟩) (upholds_handle m) e

theorem upholds_registerWatcher (w : Watcher) :
    Upholds OnlyLocal (Event.BundledOnly calls) (registerWatcher w) :=
  Emits.upholds (f := finding) (emits_registerWatcher w)
    (keeps_registerWatcher (fun _ _ _ _ => rfl) w) OnlyLocal.congr

theorem upholds_onSettingsChanged (previous current : Settings) :
    Upholds OnlyLocal (Event.BundledOnly calls) (onSettingsChanged previous current) := by
  refine upholds_onSettingsChanged_of
    (fun _ => Emits.upholds (f := finding) (emits_warn trivial) (keeps_emit _) OnlyLocal.congr) ?_
  refine Upholds.bind (Emits.upholds (f := finding) ?_ ?_ OnlyLocal.congr) fun _ =>
    Upholds.bind (upholds_of_forall_nil (fun s hs => ⟨hs.setting, nofun⟩) fun _ => rfl)
      fun _ => upholds_showStatus _
  · refine Emits.on (emits_get.bind fun r => Emits.bind (emits_emitAll fun e he => ?_)
      fun _ => emits_set _)
    obtain ⟨folder, -, rfl⟩ := List.mem_map.mp he
    trivial
  · exact keeps_on _ fun _ _ => rfl

end Watching

end Service

namespace Operation

/-- The document that an operation formats. -/
def formats? : Operation → Option Document
  | .format r => some r.document
  | .documentEdits d | .rangeEdits d _ | .forceFormat d => some d
  | _ => none

/-- What an operation may have to register: a folder or none, and the
document at hand. -/
def registers? (s : Service) : Operation → Option (Option Path × Option Document)
  | .documentEdits d | .rangeEdits d _ => some (s.folderOf d, some d)
  | .activeDocument (some d) => if d.path?.isSome then some (s.folderOf d, some d) else none
  | .register folder d? => some (folder, d?)
  | _ => none

/-- What an operation may ask of the bundled formatter although only local
ones may be used: to format a document without a path, or what registering
outside any folder asks. -/
def MayAskBundled (s : Service) (op : Operation) (c : Call) : Prop :=
  (∃ d, op.formats? = some d ∧ d.path? = none ∧ c.OfFormatting none) ∨
    ∃ d?, op.registers? s = some (none, d?) ∧ c.OfRegistering (d?.bind Document.path?)

/-- The operation does not lift the setting that only local formatters may
be used. -/
def KeepsOnlyLocal (op : Operation) : Prop :=
  ∀ s, op = .useSettings s → s.onlyUseLocalVersion = true

theorem keepsOnlyLocal_format (r : FormatRequest) : (Operation.format r).KeepsOnlyLocal := by
  intro s h
  cases h

section MayAsk

variable {s : Service} {op : Operation}

theorem mayAsk_of_formats {d : Document} (h : op.formats? = some d) (e : Event)
    (he : Service.formattingOnly d.path? e) : e.BundledOnly (op.MayAskBundled s) :=
  he.mono (fun _ hc => .inl ⟨d, h, hc⟩) e

theorem mayAsk_of_registers {folder : Option Path} {d? : Option Document}
    (h : op.registers? s = some (folder, d?)) (e : Event)
    (he : Service.registeringOnly folder (d?.bind Document.path?) e) :
    e.BundledOnly (op.MayAskBundled s) :=
  he.mono (fun _ hc => .inr ⟨d?, by rw [h, hc.1], hc.2⟩) e

end MayAsk

end Operation

namespace Service

/-- Providing edits registers first, then formats. -/
theorem provided_onlyLocal {m : Machine} {op : Operation} {d : Document} {s : Service}
    (hf : op.formats? = some d) (hr : op.registers? s = some (s.folderOf d, some d))
    {next : Option Registration → Run Service EditResult}
    (hn : ∀ registration?, Upholds OnlyLocal (formattingOnly d.path?) (next registration?))
    (hs : OnlyLocal s) :
    let o := (registrationFor m d >>= next) s
    OnlyLocal o.state ∧ ∀ e ∈ o.events, e.BundledOnly (op.MayAskBundled s) := by
  refine Upholds.bind_at ?_ ((hn _).mono (Operation.mayAsk_of_formats hf))
  exact (upholds_ensureRegistered m (s.folderOf d) (some d)).mono
    (Operation.mayAsk_of_registers hr) s hs

theorem upholds_readinessIn {calls : Call → Prop} (m : Machine) (settings : Settings)
    (folder : Option Path) (d : Document) (path : Path) (registration : Registration) :
    Upholds OnlyLocal (Event.BundledOnly calls)
      (readinessIn m settings folder d path registration) := by
  unfold readinessIn
  dsimp only
  cases settings.ignoreFile m.home folder with
  | none => exact (upholds_pure _).bind fun _ => upholds_pure _
  | some file =>
    refine Upholds.bind (Emits.upholds (f := finding) (emits_watchIgnoreFile _)
      (keeps_watchIgnoreFile (fun _ _ _ _ => rfl) _) OnlyLocal.congr) fun _ => ?_
    refine Upholds.bind (Emits.upholds (f := finding) ?_ (keeps_on _ fun _ _ => rfl)
      OnlyLocal.congr) fun _ => upholds_pure _
    exact bundledOnly_of_isLog (Ignore.Cache.emits_isIgnored m path file.1 file.2).on

theorem upholds_hideStatus {calls : Call → Prop} :
    Upholds OnlyLocal (Event.BundledOnly calls) hideStatus :=
  Emits.upholds (f := finding) ((emits_modify _).bind fun _ => emits_emit trivial)
    (keeps_hideStatus fun _ _ => rfl) OnlyLocal.congr

/-- The readiness of a file asks what registering its folder asks. -/
theorem fileReadiness_onlyLocal (m : Machine) (d : Document) {path : Path}
    (hp : d.path? = some path) {s : Service} (hs : OnlyLocal s) :
    OnlyLocal (fileReadiness m d path s).state ∧
      ∀ e ∈ (fileReadiness m d path s).events, registeringOnly (s.folderOf d) d.path? e := by
  have hf : s.folderOf d = s.workspace.folderFor path := by rw [folderOf, hp]; rfl
  rw [hf]
  unfold fileReadiness
  rw [get_bind_apply]
  split
  · exact upholds_pure _ s hs
  · refine Upholds.bind_at (upholds_ensureRegistered m _ (some d) s hs) ?_
    split
    · exact upholds_pure _
    · exact (upholds_readinessIn m _ _ d path _).bind fun _ => upholds_pure _

/-- **One operation** keeps to local formatters, but for what it may ask of
the bundled one. -/
theorem run_onlyLocal (m : Machine) (op : Operation) (hop : op.KeepsOnlyLocal) {s : Service}
    (hs : OnlyLocal s) :
    OnlyLocal (op.run m s).state ∧
      ∀ e ∈ (op.run m s).events, e.BundledOnly (op.MayAskBundled s) := by
  cases op with
  | format r =>
    have h : Upholds OnlyLocal (formattingOnly r.document.path?) (format m r) :=
      (upholds_execute m r).bind fun _ => upholds_pure _
    exact ((h.mono (Operation.mayAsk_of_formats rfl)).bind fun _ => upholds_pure _) s hs
  | documentEdits d =>
    refine Upholds.bind_at (provided_onlyLocal rfl rfl (fun registration? => ?_) hs)
      (upholds_pure _)
    split
    · exact upholds_edits_of_execute (upholds_execute m _) _
    · exact upholds_pure _
  | rangeEdits d range =>
    refine Upholds.bind_at (provided_onlyLocal rfl rfl (fun registration? => ?_) hs)
      (upholds_pure _)
    split
    · exact upholds_edits_of_execute (upholds_execute m _) _
    · exact upholds_pure _
  | forceFormat d =>
    have h := upholds_edits_of_execute (upholds_execute m { document := d, force := true })
      .fullDocument
    exact ((h.mono (Operation.mayAsk_of_formats rfl)).bind fun _ => upholds_pure _) s hs
  | activeDocument d? =>
    refine Upholds.bind_at ?_ (upholds_pure _)
    unfold onActiveDocument
    cases hd : d?.bind fun d => d.path?.map (d, ·) with
    | none => exact (upholds_hideStatus.bind fun _ => upholds_pure _) s hs
    | some file =>
      obtain ⟨d, rfl, hd⟩ := Option.bind_eq_some_iff.mp hd
      obtain ⟨path, hp, rfl⟩ := Option.map_eq_some_iff.mp hd
      have hr : Operation.registers? s (.activeDocument (some d)) =
          some (s.folderOf d, some d) := by
        simp [Operation.registers?, hp]
      obtain ⟨hs', he⟩ := fileReadiness_onlyLocal m d hp hs
      refine Upholds.bind_at ⟨hs', fun e hm => Operation.mayAsk_of_registers hr e (he e hm)⟩ ?_
      split
      · exact upholds_pure _
      · exact (upholds_showStatus _).bind fun _ => upholds_pure _
  | register folder d? =>
    exact (((upholds_ensureRegistered m folder d?).mono (Operation.mayAsk_of_registers rfl)).bind
      fun _ => upholds_pure _) s hs
  | manifestEvent e => exact upholds_onManifestEvent e s hs
  | configFileEvent e => exact upholds_resetRegistration e.path s hs
  | listen w =>
    rw [Operation.run]
    exact ((upholds_registerWatcher w).bind fun _ => upholds_pure _) s hs
  | deliver e => exact ((upholds_deliver m e).bind fun _ => upholds_pure _) s hs
  | useSettings new => exact ⟨⟨hop new rfl, hs.remembered⟩, emits_modify _ s⟩
  | settingsChanged previous current => exact upholds_onSettingsChanged previous current s hs
  | addFolder folder => exact ⟨⟨hs.setting, hs.remembered⟩, emits_modify _ s⟩
  | removeFolder folder => exact ⟨⟨hs.setting, hs.remembered⟩, emits_modify _ s⟩

/-! ## §5 Runs -/

/-- A document that was never saved. -/
def untitled : Document where
  uri := { scheme := "untitled", hasAuthority := false, path := "Untitled-1" }
  language := "typescript"
  text := "a;"

/-- The formatter that is shipped with the editor. -/
def shipped : Install := ⟨⟨"/opt/prettier"⟩, none, none, .bundled⟩

/-- A service under the setting, with the formatter that is shipped. -/
def onlyLocalService : Service :=
  fresh defaultPackage Resolver.plainLoader (some shipped) { onlyUseLocalVersion := true } []
    { text := "" }

theorem untitled_asks_bundled :
    Event.call .bundled (.supportInfo []) ∈
      ((Operation.format { document := untitled }).run Resolver.nestedInstall
        onlyLocalService).events :=
  List.mem_of_getElem? (i := 2) rfl

/-- A document without a path gets the bundled formatter although only
local ones may be used. -/
theorem bundled_called_under_onlyUseLocalVersion :
    ¬ ∀ package loader bundled settings folders statusBar steps,
      settings.onlyUseLocalVersion = true → (∀ mo ∈ steps, mo.2.KeepsOnlyLocal) →
      ∀ c, Event.call .bundled c ∈
          (runAll steps (fresh package loader bundled settings folders statusBar)).events →
        ∃ path options, c = .resolveConfig path options := by
  intro h
  have hall := h defaultPackage Resolver.plainLoader (some shipped) { onlyUseLocalVersion := true }
    [] { text := "" } [(Resolver.nestedInstall, .format { document := untitled })] rfl
    (fun mo hm => List.mem_singleton.mp hm ▸ Operation.keepsOnlyLocal_format _) (.supportInfo [])
  obtain ⟨_, _, hc⟩ := hall (List.mem_append_left _ untitled_asks_bundled)
  cases hc

/-- **When the bundled formatter is called although only local ones may be
used.** In a run of a service that was just built, under the setting
throughout, an operation calls it only to format a document that has no
path, with its language table and its `format`, or to register outside any
folder, with its language table and the configuration of the document at
hand. It is never asked about a file, and never called for a document that
lies in an open folder. -/
theorem bundledCalls_of_onlyUseLocalVersion (package : String) (loader : Loader)
    (bundled : Option Install) {settings : Settings} (folders : List Path) (statusBar : StatusBar)
    (hs : settings.onlyUseLocalVersion = true) {before : List (Machine × Operation)}
    (hb : ∀ mo ∈ before, mo.2.KeepsOnlyLocal) (m : Machine) {op : Operation}
    (hop : op.KeepsOnlyLocal) {c : Call} :
    let s := (runAll before (fresh package loader bundled settings folders statusBar)).state
    Event.call .bundled c ∈ (op.run m s).events →
      ((∃ d, op.formats? = some d ∧ d.path? = none ∧ c.OfFormatting none) ∨
        ∃ d?, op.registers? s = some (none, d?) ∧ c.OfRegistering (d?.bind Document.path?)) ∧
      ∀ path options, c ≠ .fileInfo path options := by
  intro s hc
  have hstart : OnlyLocal (fresh package loader bundled settings folders statusBar) :=
    ⟨hs, nofun⟩
  have hstep : ∀ mo ∈ before, ∀ s, OnlyLocal s → OnlyLocal (mo.2.run mo.1 s).state :=
    fun mo hm _ h => (run_onlyLocal mo.1 mo.2 (hb mo hm) h).1
  have hinv : OnlyLocal s := runAll_invariant hstep hstart
  have hmay : op.MayAskBundled s c := (run_onlyLocal m op hop hinv).2 _ hc
  refine ⟨hmay, ?_⟩
  rintro path options rfl
  rcases hmay with ⟨_, _, _, h⟩ | ⟨_, _, h⟩
  · cases h
  · exact h

theorem bundledCalls_of_onlyUseLocalVersion_untitled :
    let op := Operation.format { document := untitled }
    let c := Call.supportInfo []
    Event.call .bundled c ∈
        (op.run Resolver.nestedInstall (runAll [] onlyLocalService).state).events ∧
      ((∃ d, op.formats? = some d ∧ d.path? = none ∧ c.OfFormatting none) ∨
        ∃ d?, op.registers? (runAll [] onlyLocalService).state = some (none, d?) ∧
          c.OfRegistering (d?.bind Document.path?)) := by
  intro op c
  have hc : Event.call .bundled c ∈
      (op.run Resolver.nestedInstall (runAll [] onlyLocalService).state).events :=
    List.mem_of_getElem? (i := 2) rfl
  have hb : ∀ mo ∈ ([] : List (Machine × Operation)), mo.2.KeepsOnlyLocal :=
    fun _ h => absurd h List.not_mem_nil
  have hop : op.KeepsOnlyLocal := Operation.keepsOnlyLocal_format _
  have hs : ({ onlyUseLocalVersion := true } : Settings).onlyUseLocalVersion = true := rfl
  exact ⟨hc, (bundledCalls_of_onlyUseLocalVersion defaultPackage Resolver.plainLoader
    (some shipped) [] { text := "" } hs hb Resolver.nestedInstall hop hc).1⟩

end Service
end FormatHost
