/-
FormatHost.Proofs.Service.Renewal — a change of settings makes the service
like new.

A change of settings ends every registration and forgets every formatter.
What it leaves is the clock of the registrations, the ignore rules and what
is listened to, and none of these is read when a formatter is found or a
folder registered. So from then on the service finds and registers as one
does that was just built (`onSettingsChanged_renews`). A change that only
turns the formatter on or off leaves everything as it is.

* §1 settings that differ in that they are turned on or off;
* §2 what the change does;
* §3 `Provision`: what finding and registering read of a service;
* §4 finding, registering and formatting, from states with the same
  provision;
* §5 demands, what is seen of them, and the renewal.
-/
import FormatHost.Proofs.Service.Registered

namespace FormatHost

open Run

/-! ## §1 Settings -/

instance : LawfulBEq EditorDefaults where
  rfl := by
    intro a
    show a.agrees a = true
    simp [EditorDefaults.agrees]
  eq_of_beq := by
    intro a b h
    have h : a.agrees b = true := h
    simp only [EditorDefaults.agrees, Bool.and_eq_true, List.all_eq_true, beq_iff_eq] at h
    obtain ⟨⟨hnumber, hflag⟩, hword⟩ := h
    have hnumber : a.number = b.number := funext fun k => hnumber k (by cases k <;> decide)
    have hflag : a.flag = b.flag := funext fun k => hflag k (by cases k <;> decide)
    have hword : a.word = b.word := funext fun k => hword k (by cases k <;> decide)
    cases a
    cases b
    congr

deriving instance ReflBEq, LawfulBEq for Settings

/-- The settings are the same, or differ only in whether the formatter is
turned on. -/
def Settings.SameButEnable (previous current : Settings) : Prop :=
  ∃ enable, current = { previous with enable }

theorem Settings.sameButEnable_iff {previous current : Settings} :
    previous.SameButEnable current ↔ { previous with enable := current.enable } = current := by
  constructor
  · rintro ⟨enable, rfl⟩
    rfl
  · intro h
    exact ⟨current.enable, h.symm⟩

instance (previous current : Settings) : Decidable (previous.SameButEnable current) :=
  decidable_of_iff (({ previous with enable := current.enable } == current) = true)
    (beq_iff_eq.trans Settings.sameButEnable_iff.symm)

namespace Service

/-! ## §2 The change -/

/-- The service after its registrations and formatters were dropped. -/
def renewed (s : Service) : Service :=
  { s with
    registrations := { s.registrations with active := {} }
    resolver := Resolver.blank s.resolver.package s.resolver.loader s.resolver.bundled
    statusBar := s.statusBar.update .ready }

/-- Log lines say nothing of a folder. -/
theorem notices_of_isLog {folder : Option Path} {es : List Event}
    (h : ∀ e ∈ es, e.isLog = true) : Registrations.notices folder es = [] :=
  List.filterMap_eq_nil_iff.mpr fun e he => by
    have hlog := h e he
    cases e with
    | log level text => rfl
    | _ => cases hlog

/-- The change warns when the formatter was turned on or off, and does
nothing more when nothing else has changed. -/
theorem onSettingsChanged_apply (previous current : Settings) (s : Service) :
    ∃ warnings : List Event, (∀ e ∈ warnings, e.isLog = true) ∧
      onSettingsChanged previous current s =
        if previous.SameButEnable current then ⟨(), s, warnings⟩
        else ⟨(), renewed s,
          warnings ++ ((Registrations.invalidateAll s.registrations).events ++
            [.status .ready])⟩ := by
  have hchanged : ({ previous with enable := current.enable } != current) =
      !decide (previous.SameButEnable current) := by
    rw [bne, Bool.eq_iff_iff]
    simp [Settings.sameButEnable_iff]
  unfold onSettingsChanged
  dsimp only
  rw [hchanged]
  split
  · refine ⟨[.log .warn "Changing the enable setting requires a restart to take effect"],
      fun e h => List.mem_singleton.mp h ▸ rfl, ?_⟩
    by_cases h : previous.SameButEnable current
    · rw [decide_eq_true h, if_pos h]
      rfl
    · rw [decide_eq_false h, if_neg h]
      rfl
  · refine ⟨[], nofun, ?_⟩
    by_cases h : previous.SameButEnable current
    · rw [decide_eq_true h, if_pos h]
      rfl
    · rw [decide_eq_false h, if_neg h]
      rfl

end Service

/-! ## §3 Provision -/

/-- A registration but for its time. -/
def Registration.untimed (r : Registration) : Registration := { r with activation := 0 }

/-- The registration of each folder, but for its time. -/
def Registrations.untimed (r : Registrations) (folder : Option Path) : Option Registration :=
  (r.get? folder).map Registration.untimed

/-- What finding formatters and registering folders read of a service. -/
structure Provision where
  resolver : Resolver
  registered : Option Path → Option Registration
  settings : Settings
  workspace : Workspace

def Service.provision (s : Service) : Provision :=
  ⟨s.resolver, s.registrations.untimed, s.settings, s.workspace⟩

/-- A package is to be loaded, or the editor is told of a registration. -/
def Event.isProvision : Event → Bool
  | .load _ | .register .. | .unregister _ => true
  | _ => false

/-- Registering goes by whether the folder is registered, and leaves the same
registrations but for their times. -/
theorem Registrations.mirrors_register (folder : Option Path) (selectors : Selectors)
    (priority : Int32) :
    Mirrors Registrations.untimed Event.isProvision Registration.untimed
      (register folder selectors priority) := by
  intro r r' h
  have hk : ∀ k, (r.get? k).map Registration.untimed = (r'.get? k).map Registration.untimed :=
    congrFun h
  have hv : (register folder selectors priority r).value.untimed =
      (register folder selectors priority r').value.untimed := by
    rw [register_apply, register_apply]
    rfl
  refine ⟨hv, ?_, funext fun k => ?_⟩
  · have hf : (r.get? folder).isSome = (r'.get? folder).isSome := by
      simpa using congrArg Option.isSome (hk folder)
    rw [register_apply, register_apply]
    dsimp only
    rw [invalidate_events_congr hf]
  · unfold Registrations.untimed
    rw [register_get?, register_get?]
    split
    · exact congrArg some hv
    · exact hk k

namespace Service

/-! ## §4 Steps -/

section Steps

variable {α : Type}

theorem resolver_of_provision {s t : Service} (h : s.provision = t.provision) :
    s.resolver = t.resolver := congrArg Provision.resolver h

theorem settings_of_provision {s t : Service} (h : s.provision = t.provision) :
    s.settings = t.settings := congrArg Provision.settings h

theorem workspace_of_provision {s t : Service} (h : s.provision = t.provision) :
    s.workspace = t.workspace := congrArg Provision.workspace h

theorem quiet_of_tells {origin : Origin} {calls : Call → Prop} {x : Run Service α}
    (hk : Keeps provision x) (he : Emits (Event.Tells origin calls) x) :
    Quiet provision Event.isProvision x :=
  ⟨hk, he.mono fun e he => by
    cases e with
    | load | register | unregister => cases he
    | _ => rfl⟩

/-- Showing how something ended is quiet. -/
theorem quiet_showStatus (status : Status) (a : α) :
    Quiet provision Event.isProvision (do
      showStatus status
      return a) :=
  Quiet.bind ⟨keeps_showStatus (fun _ _ => rfl) status, emits_showStatus (by rfl)⟩
    fun _ => quiet_pure a

/-- So is reporting a failure first. -/
theorem quiet_report (text : String) (status : Status) (a : α) :
    Quiet provision Event.isProvision (do
      Run.error text
      showStatus status
      return a) :=
  Quiet.bind ⟨keeps_emit _, emits_error (by rfl)⟩ fun _ => quiet_showStatus status a

theorem mirrors_moduleFor (m : Machine) (path? folder : Option Path) (settings : Settings) :
    Mirrors provision Event.isProvision id (moduleFor m path? folder settings) := by
  have hput : ∀ (s t : Service) (r r' : Resolver), s.provision = t.provision → id r = id r' →
      { s with resolver := r }.provision = { t with resolver := r' }.provision := by
    rintro s t r _ h rfl
    exact congrArg (fun p : Provision => { p with resolver := r }) h
  unfold moduleFor
  cases path? with
  | some path => exact (mirrors_id _).on (fun _ _ => resolver_of_provision) hput
  | none => exact (mirrors_id _).on (fun _ _ => resolver_of_provision) hput

theorem mirrors_register (folder : Option Path) (selectors : Selectors) (priority : Int32) :
    Mirrors provision Event.isProvision Registration.untimed
      (onRegistrations (Registrations.register folder selectors priority)) :=
  (Registrations.mirrors_register folder selectors priority).on
    (fun _ _ h => congrArg Provision.registered h) fun _ _ _ _ h hr =>
      congrArg₂ (fun (p : Provision) registered => { p with registered }) h hr

theorem mirrors_registerHandle (m : Machine) (h : Handle) (folder : Option Path)
    (d? : Option Document) (settings : Settings) :
    Mirrors provision Event.isProvision (Option.map Registration.untimed)
      (registerHandle m h folder d? settings) := by
  have hplugins : Mirrors provision Event.isProvision id
      (registrationPlugins m h d? settings folder) :=
    (quiet_of_tells (keeps_registrationPlugins m h d? settings folder fun _ _ => rfl)
      (tells_registrationPlugins m h d? settings folder)).mirrors
        (registrationPlugins_value_eq m h d? settings folder)
  have hinfo : ∀ plugins, Quiet provision Event.isProvision
      (h.supportInfo m plugins : Run Service _) :=
    fun _ => Quiet.bind ⟨keeps_emit _, emits_emit (by rfl)⟩ fun _ => quiet_pure _
  unfold registerHandle
  refine hplugins.bind fun plugins => ((hinfo plugins).mirrors fun _ _ => rfl).bind fun info? => ?_
  cases info? with
  | error e => exact (quiet_report _ _ none).mirrors fun _ _ => rfl
  | ok info =>
    intro s t hst
    have ho := mirrors_register folder (Selectors.build info folder settings)
      settings.formatterPriority s t hst
    exact ho.bind ⟨congrArg some ho.value, rfl, ho.state⟩

/-- **Having a folder registered** goes by the provision: it answers the same
registration, but for its time. -/
theorem mirrors_ensureRegistered (m : Machine) (folder : Option Path) (d? : Option Document) :
    Mirrors provision Event.isProvision (Option.map Registration.untimed)
      (ensureRegistered m folder d?) := by
  intro s t h
  have hr : (s.registrations.get? folder).map Registration.untimed =
      (t.registrations.get? folder).map Registration.untimed :=
    congrFun (congrArg Provision.registered h) folder
  unfold ensureRegistered
  rw [get_bind_apply, get_bind_apply, settings_of_provision h]
  cases hs : s.registrations.get? folder with
  | some registration =>
    cases ht : t.registrations.get? folder with
    | some registration' =>
      rw [hs, ht] at hr
      exact ⟨hr, rfl, h⟩
    | none =>
      rw [hs, ht] at hr
      cases hr
  | none =>
    cases ht : t.registrations.get? folder with
    | some registration =>
      rw [hs, ht] at hr
      cases hr
    | none =>
      refine (mirrors_moduleFor m folder folder t.settings).bind (fun handle? => ?_) s t h
      cases handle? with
      | some handle => exact mirrors_registerHandle m handle folder d? t.settings
      | none => exact (quiet_report _ _ none).mirrors fun _ _ => rfl

theorem mirrors_attempt (m : Machine) (r : FormatRequest) :
    Mirrors provision Event.isProvision (fun _ => ()) (attempt m r) := by
  intro s t h
  have hfolder : s.folderOf r.document = t.folderOf r.document := by
    rw [folderOf, folderOf, workspace_of_provision h]
  unfold attempt
  rw [get_bind_apply, get_bind_apply]
  dsimp only
  rw [settings_of_provision h, hfolder]
  split
  · exact mirrors_pure _ s t h
  · refine (mirrors_moduleFor m r.document.path? _ t.settings).then_quiet (fun handle? => ?_) s t h
    cases handle? with
    | none => exact quiet_pure _
    | some handle =>
      refine quiet_of_tells ?_ (tells_attemptWith m r t.settings _ handle)
      exact keeps_attemptWith (fun _ _ => rfl) (fun _ _ _ _ => rfl) m r t.settings _ handle
        fun _ _ _ => keeps_isIgnored (fun _ _ => rfl) m _ _

/-- **A request** loads what another one from the same provision loads, and
leaves the same. -/
theorem mirrors_format (m : Machine) (r : FormatRequest) :
    Mirrors provision Event.isProvision (fun _ => ()) (format m r) := by
  have hexecute : Mirrors provision Event.isProvision (fun _ => ()) (execute m r) := by
    refine (mirrors_attempt m r).then_quiet fun ending => ?_
    cases ending with
    | ok a => exact quiet_showStatus _ _
    | error e =>
      dsimp only
      split
      · exact quiet_report _ _ _
      · exact quiet_showStatus _ _
  exact hexecute.then_quiet fun _ => quiet_pure _

end Steps

/-! ## §5 Demands -/

/-- What is asked of the service that it needs a formatter for. -/
inductive Demand
  | formatter (path? folder : Option Path)
  | register (folder : Option Path) (d? : Option Document)
  | format (r : FormatRequest)

namespace Demand

def run (m : Machine) : Demand → Run Service Unit
  | .formatter path? folder => do let _ ← moduleFor m path? folder (← Run.get).settings
  | .register folder d? => do let _ ← ensureRegistered m folder d?
  | .format r => do let _ ← Service.format m r

/-- The formatter that a demand gets, when it has to be found. -/
def handle? (m : Machine) (s : Service) : Demand → Option Handle
  | .formatter path? folder => (moduleFor m path? folder s.settings s).value
  | .register folder _ => (moduleFor m folder folder s.settings s).value
  | .format r => handleFor m s r

/-- The registration that a demand answers, but for its time. -/
def registration? (m : Machine) (s : Service) : Demand → Option Registration
  | .register folder d? => (ensureRegistered m folder d? s).value.map Registration.untimed
  | _ => none

end Demand

/-- What is seen of a demand: the formatter and the registration it gets, what
is loaded and what the editor is told of registrations on the way, and what
it leaves for the next one. -/
structure Sight where
  handle? : Option Handle
  registration? : Option Registration
  heard : List Event
  left : Provision

def Demand.sight (m : Machine) (s : Service) (demand : Demand) : Sight :=
  let o := demand.run m s
  ⟨demand.handle? m s, demand.registration? m s, o.events.filter Event.isProvision,
    o.state.provision⟩

/-- What is seen of demands that are made one after the other. -/
def sights : List (Machine × Demand) → Service → List Sight
  | [], _ => []
  | (m, demand) :: rest, s => demand.sight m s :: sights rest (demand.run m s).state

theorem Demand.mirrors_run (m : Machine) (demand : Demand) :
    Mirrors provision Event.isProvision (fun _ => ()) (demand.run m) := by
  cases demand with
  | formatter path? folder =>
    intro s t h
    rw [run, get_bind_apply, get_bind_apply, settings_of_provision h]
    exact (mirrors_moduleFor m path? folder t.settings).then_quiet (fun _ => quiet_pure ()) s t h
  | register folder d? =>
    exact (mirrors_ensureRegistered m folder d?).then_quiet fun _ => quiet_pure ()
  | format r => exact (mirrors_format m r).then_quiet fun _ => quiet_pure ()

/-- **One demand** is seen alike from states with the same provision. -/
theorem Demand.sight_congr (m : Machine) (demand : Demand) {s t : Service}
    (h : s.provision = t.provision) : demand.sight m s = demand.sight m t := by
  have hsettings := settings_of_provision h
  have hfind : ∀ path? folder,
      (moduleFor m path? folder s.settings s).value =
        (moduleFor m path? folder t.settings t).value := by
    intro path? folder
    rw [hsettings]
    exact moduleFor_congr m path? folder t.settings (resolver_of_provision h)
  have hhandle : demand.handle? m s = demand.handle? m t := by
    cases demand with
    | formatter path? folder => exact hfind path? folder
    | register folder d? => exact hfind folder folder
    | format r =>
      have hfolder : s.folderOf r.document = t.folderOf r.document := by
        rw [folderOf, folderOf, workspace_of_provision h]
      rw [handle?, handle?, handleFor, handleFor, hfolder]
      exact hfind _ _
  have hregistration : demand.registration? m s = demand.registration? m t := by
    cases demand with
    | register folder d? => exact (mirrors_ensureRegistered m folder d? s t h).value
    | _ => rfl
  have ho := demand.mirrors_run m s t h
  simp only [sight, hhandle, hregistration, ho.events, ho.state]

/-- So is a list of demands. -/
theorem sights_congr (demands : List (Machine × Demand)) {s t : Service}
    (h : s.provision = t.provision) : sights demands s = sights demands t := by
  induction demands generalizing s t with
  | nil => rfl
  | cons first rest ih =>
    obtain ⟨m, demand⟩ := first
    have hsight := demand.sight_congr m h
    have hleft : (demand.run m s).state.provision = (demand.run m t).state.provision :=
      congrArg Sight.left hsight
    rw [sights, sights, hsight, ih hleft]

/-- **A change of settings makes the service like new.** In the state after
any run, a change that does no more than turn the formatter on or off leaves
everything as it is, and can only warn. Any other change ends the
registration of each folder that has one, once. From then on, whatever
settings are read, demands one after the other are seen as by a service that
was just built with the same package, loader, bundled install and open
folders: they get the same formatters and registrations, load the same
packages and tell the editor the same of registrations, but for their
times. -/
theorem onSettingsChanged_renews (package : String) (loader : Loader) (bundled : Option Install)
    (settings : Settings) (folders : List Path) (statusBar : StatusBar)
    (steps : List (Machine × Operation)) (previous current : Settings) :
    let s := (runAll steps (fresh package loader bundled settings folders statusBar)).state
    let o := onSettingsChanged previous current s
    if previous.SameButEnable current then o.state = s ∧ ∀ e ∈ o.events, e.isLog = true
    else
      (∀ folder, Registrations.notices folder o.events =
        (s.registrations.get? folder).toList.map fun _ => .ended) ∧
      ∀ (read : Settings) (bar : StatusBar) (demands : List (Machine × Demand)),
        sights demands { o.state with settings := read } =
          sights demands (fresh s.resolver.package s.resolver.loader s.resolver.bundled read
            s.workspace.folders bar) := by
  intro s o
  have hs : s.Reachable := ⟨package, loader, bundled, settings, folders, statusBar, steps, rfl⟩
  obtain ⟨warnings, hw, ho⟩ := onSettingsChanged_apply previous current s
  split
  · rename_i h
    rw [if_pos h] at ho
    rw [show o = _ from ho]
    exact ⟨rfl, hw⟩
  · rename_i h
    rw [if_neg h] at ho
    rw [show o = _ from ho]
    refine ⟨fun folder => ?_, fun read bar demands => sights_congr demands rfl⟩
    have hwarnings : Registrations.notices folder warnings = [] := notices_of_isLog hw
    rw [Registrations.notices_append, Registrations.notices_append, hwarnings,
      Registrations.notices_invalidateAll hs.distinct]
    exact List.append_nil _

end Service
end FormatHost
