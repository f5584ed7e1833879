/-
FormatHost.Proofs.Service.Sessions — ignore rules are never stale.

A service reads an ignore file once and then goes by what it remembers. It
listens to the file from before it reads it, and so it hears of every change
that matters. In a session, requests and changes of files alternate in any
order. Wherever it stands, the rules that the service goes by are those on
disk, for every ignore file but those that have changed since they were last
told of.

* §1 `UpToDate`: what holds throughout a session;
* §2 requests uphold it;
* §3 sessions, and `Session.upToDate`;
* §4 what the service decides: `ignoreDecisions_fresh`.
-/
import FormatHost.Proofs.Ignore.Files
import FormatHost.Proofs.Service.Gates
import FormatHost.Proofs.Service.Listening
import FormatHost.Proofs.Service.Operations
import FormatHost.Proofs.Service.Readiness
import FormatHost.Proofs.Service.Watching
import FormatHost.Proofs.Uri.FilePath

namespace FormatHost

open Run

namespace Service

/-! ## §1 What holds throughout -/

/-- The service listens and nothing waits. It has noted every ignore file
whose rules it remembers, and the rules of a file that the settings name are
those on disk unless the file is late. -/
structure UpToDate (m : Machine) (settings : Settings) (workspace : Workspace)
    (late : Path → Prop) (s : Service) : Prop where
  settings_eq : s.settings = settings
  workspace_eq : s.workspace = workspace
  listens : ∃ w, Listens (fun _ _ => False) s w
  noted : ∀ file rules, s.ignore.get? file = some rules →
    s.watchedIgnoreFiles.contains file = true
  rules : ∀ file rules, s.ignore.get? file = some rules →
    settings.NamesIgnoreFile m.home workspace file → ¬ late file →
    rules = (Ignore.Matcher.load m file).1

section UpToDate

variable {m : Machine} {settings : Settings} {workspace : Workspace} {late : Path → Prop}

/-- What being up to date reads of the state. -/
def listeningParts (s : Service) :=
  (s.ignore, s.watcher, s.watchedIgnoreFiles, s.listeners, s.settings, s.workspace)

theorem UpToDate.congr (s t : Service) (hp : listeningParts t = listeningParts s)
    (h : UpToDate m settings workspace late s) : UpToDate m settings workspace late t := by
  simp only [listeningParts, Prod.mk.injEq] at hp
  obtain ⟨hignore, hwatcher, hfiles, hlisteners, hsettings, hworkspace⟩ := hp
  obtain ⟨w, hw⟩ := h.listens
  refine ⟨hsettings.trans h.settings_eq, hworkspace.trans h.workspace_eq,
    ⟨w, hw.congr hwatcher hlisteners hfiles⟩, ?_, ?_⟩
  · rw [hignore, hfiles]
    exact h.noted
  · rw [hignore]
    exact h.rules

/-- What leaves the rules and the subscriptions alone upholds it. -/
theorem upToDate_of_keeps {α : Type} {x : Run Service α} (hk : Keeps listeningParts x) :
    Upholds (UpToDate m settings workspace late) (fun _ => True) x :=
  hk.upholds UpToDate.congr

/-- Once it is noted, an ignore file is listened to. -/
theorem UpToDate.watchIgnoreFile {s : Service} (h : UpToDate m settings workspace late s)
    (file : Path) :
    UpToDate m settings workspace late (watchIgnoreFile file s).state ∧
      (watchIgnoreFile file s).state.watchedIgnoreFiles.contains file = true := by
  obtain ⟨w, hw⟩ := h.listens
  rw [watchIgnoreFile_state hw.watcher]
  cases hc : s.watchedIgnoreFiles.contains file with
  | true => exact ⟨h, hc⟩
  | false =>
    have hwatch := hw.watch (.path file) .ignoreFile [file]
      (fun _ => ⟨file, List.mem_singleton_self _, rfl⟩)
      (fun f hf => ⟨rfl, by rw [List.mem_singleton.mp hf]⟩)
    refine ⟨⟨h.settings_eq, h.workspace_eq, ⟨_, hwatch⟩, fun f rules hf => ?_, h.rules⟩, ?_⟩
    · have hn := h.noted f rules hf
      rw [List.contains_iff_exists_mem_beq] at hn ⊢
      obtain ⟨g, hg, hgf⟩ := hn
      exact ⟨g, List.mem_append_left _ hg, hgf⟩
    · rw [List.contains_iff_exists_mem_beq]
      exact ⟨file, List.mem_append_right _ (List.mem_singleton_self _), Path.beq_refl file⟩

/-- A look at a noted file remembers its rules on disk, if any. -/
theorem UpToDate.isIgnored {s : Service} (h : UpToDate m settings workspace late s)
    {file : Path × Bool} (hf : settings.NamesIgnoreFile m.home workspace file.1)
    (hn : s.watchedIgnoreFiles.contains file.1 = true) (path : Path) :
    UpToDate m settings workspace late (isIgnored m path file s).state := by
  have hget : ∀ f, (Service.isIgnored m path file s).state.ignore.get? f =
      (s.ignore.get? f).or
        (if file.1 == f then some (Ignore.Matcher.load m file.1).1 else none) :=
    Ignore.Cache.get?_isIgnored m path file.1 file.2 s.ignore
  obtain ⟨w, hw⟩ := h.listens
  refine ⟨h.settings_eq, h.workspace_eq, ⟨w, hw.congr rfl rfl rfl⟩, ?_, ?_⟩
  · intro f rules hr
    rw [hget] at hr
    show s.watchedIgnoreFiles.contains f = true
    cases hs : s.ignore.get? f with
    | some old => exact h.noted f old hs
    | none =>
      rw [hs, Option.none_or] at hr
      split at hr
      · rename_i he
        rw [List.contains_iff_exists_mem_beq] at hn ⊢
        obtain ⟨g, hg, hgf⟩ := hn
        exact ⟨g, hg, BEq.trans (BEq.symm he) hgf⟩
      · cases hr
  · intro f rules hr hnames hlate
    rw [hget] at hr
    cases hs : s.ignore.get? f with
    | some old =>
      rw [hs, Option.some_or] at hr
      obtain rfl := Option.some.inj hr
      exact h.rules f old hs hnames hlate
    | none =>
      rw [hs, Option.none_or] at hr
      split at hr
      · rename_i he
        obtain rfl := hf.unique hnames he
        exact (Option.some.inj hr).symm
      · cases hr

/-! ## §2 Requests -/

/-- An ignore file is noted before it is looked at. -/
theorem UpToDate.look {s : Service} (h : UpToDate m settings workspace late s)
    {file : Path × Bool} (hf : settings.NamesIgnoreFile m.home workspace file.1) (path : Path) :
    UpToDate m settings workspace late
      (Service.isIgnored m path file (Service.watchIgnoreFile file.1 s).state).state := by
  obtain ⟨hw, hn⟩ := h.watchIgnoreFile file.1
  exact hw.isIgnored hf hn path

theorem upToDate_ignoreGate (c : Situation) (path : Path) {file? : Option (Path × Bool)}
    (hf : ∀ file, file? = some file → settings.NamesIgnoreFile m.home workspace file.1) :
    Upholds (UpToDate m settings workspace late) (fun _ => True) (ignoreGate m c path file?) := by
  unfold ignoreGate
  cases file? with
  | none => exact upholds_pure _
  | some file =>
    intro s h
    refine ⟨?_, fun _ _ => trivial⟩
    dsimp only [bind_apply]
    cases c.request.force with
    | true => exact (h.watchIgnoreFile file.1).1
    | false => exact h.look (hf file rfl) path

/-- The ignore file of a situation is one that the settings name. -/
def Situation.NamesItsIgnoreFile (m : Machine) (settings : Settings) (workspace : Workspace)
    (c : Situation) : Prop :=
  ∀ path file, c.path? = some path → c.settings.ignoreFile m.home c.folder = some file →
    settings.NamesIgnoreFile m.home workspace file.1

theorem upToDate_attemptIn {c : Situation}
    (hc : Situation.NamesItsIgnoreFile m settings workspace c) :
    Upholds (UpToDate m settings workspace late) (fun _ => True) (attemptIn m c) := by
  unfold attemptIn
  cases hp : c.path? with
  | none => exact upToDate_of_keeps (keeps_invoke m c none).of_id
  | some path =>
    unfold attemptFile
    refine (upToDate_ignoreGate c path fun file hf => hc path file hp hf).bind fun ignored => ?_
    split
    · exact upholds_pure _
    · refine (upToDate_of_keeps (keeps_askFileInfo m c path _).of_id).bind fun info => ?_
      split
      · exact upholds_pure _
      · exact upToDate_of_keeps (keeps_invoke m c info).of_id

theorem upToDate_showStatus (status : Status) :
    Upholds (UpToDate m settings workspace late) (fun _ => True) (showStatus status) :=
  upToDate_of_keeps (keeps_showStatus (fun _ _ => rfl) status)

theorem upToDate_attempt {r : FormatRequest} (hr : r.document.IsRooted) :
    Upholds (UpToDate m settings workspace late) (fun _ => True) (attempt m r) := by
  intro s hs
  have hfile : ∀ path file, r.document.path? = some path →
      s.settings.ignoreFile m.home (s.folderOf r.document) = some file →
      settings.NamesIgnoreFile m.home workspace file.1 := by
    intro path file hp hf
    refine ⟨path, file.2, hr path hp, ?_⟩
    rw [folderOf, hp, Option.bind_some, hs.settings_eq, hs.workspace_eq] at hf
    exact hf
  unfold attempt
  rw [get_bind_apply]
  refine (?_ : Upholds (UpToDate m settings workspace late) (fun _ => True) _) s hs
  dsimp only
  split
  · exact upholds_pure _
  · refine (upToDate_of_keeps (keeps_moduleFor (fun _ _ => rfl) m _ _ _)).bind fun handle? => ?_
    cases handle? with
    | none => exact upholds_pure _
    | some handle =>
      unfold attemptWith
      refine (upToDate_of_keeps (Config.keeps_loadProject handle m _ _ _).of_id).bind
        fun project => ?_
      cases project with
      | disabled => exact upholds_pure _
      | failed e =>
        exact (upToDate_of_keeps (keeps_emit _)).bind fun _ =>
          (upToDate_showStatus _).bind fun _ => upToDate_attemptIn hfile
      | found options => exact upToDate_attemptIn hfile
      | missing => exact upToDate_attemptIn hfile

theorem upToDate_execute {r : FormatRequest} (hr : r.document.IsRooted) :
    Upholds (UpToDate m settings workspace late) (fun _ => True) (execute m r) :=
  upholds_execute_of_attempt (upToDate_attempt hr)
    (fun _ => upToDate_of_keeps (keeps_emit _)) upToDate_showStatus

theorem upToDate_edits {r : FormatRequest} (hr : r.document.IsRooted) (mode : Edit.Mode) :
    Upholds (UpToDate m settings workspace late) (fun _ => True) (edits m r mode) :=
  upholds_edits_of_execute (upToDate_execute hr) mode

theorem upToDate_ensureRegistered (folder : Option Path) (d? : Option Document) :
    Upholds (UpToDate m settings workspace late) (fun _ => True)
      (ensureRegistered m folder d?) :=
  upToDate_of_keeps
    (keeps_ensureRegistered m d? folder (fun _ _ => rfl) (fun _ _ => rfl) (fun _ _ => rfl))

theorem upToDate_registrationFor (d : Document) :
    Upholds (UpToDate m settings workspace late) (fun _ => True) (registrationFor m d) :=
  (upToDate_of_keeps keeps_get).bind fun _ => upToDate_ensureRegistered _ _

theorem upToDate_readinessIn {folder : Option Path}
    (hf : ∀ file, settings.ignoreFile m.home folder = some file →
      settings.NamesIgnoreFile m.home workspace file.1)
    (d : Document) (path : Path) (r : Registration) :
    Upholds (UpToDate m settings workspace late) (fun _ => True)
      (readinessIn m settings folder d path r) := by
  unfold readinessIn
  cases hi : settings.ignoreFile m.home folder with
  | none => exact upholds_pure _
  | some file =>
    intro s h
    exact ⟨h.look (hf file hi) path, fun _ _ => trivial⟩

theorem upToDate_onActiveDocument {d? : Option Document} (hd : ∀ d, d? = some d → d.IsRooted) :
    Upholds (UpToDate m settings workspace late) (fun _ => True) (onActiveDocument m d?) := by
  unfold onActiveDocument
  split
  · exact (upToDate_of_keeps (keeps_hideStatus fun _ _ => rfl)).bind fun _ => upholds_pure _
  · rename_i d path hp
    obtain ⟨d', rfl, hp'⟩ := Option.bind_eq_some_iff.mp hp
    obtain ⟨path', hpath, he⟩ := Option.map_eq_some_iff.mp hp'
    cases he
    refine Upholds.bind ?_ fun readiness? => ?_
    · intro s hs
      have hsettings := hs.settings_eq
      have hworkspace := hs.workspace_eq
      unfold fileReadiness
      rw [get_bind_apply, hsettings, hworkspace]
      refine (?_ : Upholds (UpToDate m settings workspace late) (fun _ => True) _) s hs
      split
      · exact upholds_pure _
      · refine (upToDate_ensureRegistered _ _).bind fun registration? => ?_
        cases registration? with
        | none => exact upholds_pure _
        | some r =>
          refine (upToDate_readinessIn (fun file hf => ?_) d path r).bind fun _ => upholds_pure _
          exact ⟨path, file.2, hd d rfl path hpath, hf⟩
    · cases readiness? with
      | none => exact upholds_pure _
      | some readiness => exact (upToDate_showStatus _).bind fun _ => upholds_pure _

end UpToDate

end Service

/-- The operation asks for something, without a change of the settings, the
open folders or what is listened to; and its documents have absolute paths,
as all have whose URIs were read. -/
def Operation.IsRequest : Operation → Prop
  | .format r => r.document.IsRooted
  | .documentEdits d => d.IsRooted
  | .rangeEdits d _ => d.IsRooted
  | .forceFormat d => d.IsRooted
  | .activeDocument d? => ∀ d, d? = some d → d.IsRooted
  | .register .. => True
  | .manifestEvent _ => True
  | .configFileEvent _ => True
  | .listen _ => False
  | .deliver _ => False
  | .useSettings _ => False
  | .settingsChanged .. => False
  | .addFolder _ => False
  | .removeFolder _ => False

namespace Service

/-- **Requests leave the service up to date.** -/
theorem upToDate_run {m : Machine} {settings : Settings} {workspace : Workspace}
    {late : Path → Prop} {op : Operation} (h : op.IsRequest) :
    Upholds (UpToDate m settings workspace late) (fun _ => True) (op.run m) := by
  cases op with
  | format r =>
    exact ((upToDate_execute h).bind fun _ => upholds_pure _).bind fun _ => upholds_pure _
  | documentEdits d =>
    refine ((upToDate_registrationFor d).bind fun r? => ?_).bind fun _ => upholds_pure _
    split
    · refine upToDate_edits ?_ _
      exact h
    · exact upholds_pure _
  | rangeEdits d range =>
    refine ((upToDate_registrationFor d).bind fun r? => ?_).bind fun _ => upholds_pure _
    split
    · refine upToDate_edits ?_ _
      exact h
    · exact upholds_pure _
  | forceFormat d =>
    refine Upholds.bind (upToDate_edits ?_ _) fun _ => upholds_pure _
    exact h
  | activeDocument d? => exact (upToDate_onActiveDocument h).bind fun _ => upholds_pure _
  | register folder d? => exact (upToDate_ensureRegistered folder d?).bind fun _ => upholds_pure _
  | manifestEvent e =>
    exact upToDate_of_keeps (keeps_onManifestEvent (fun _ _ => rfl) (fun _ _ => rfl)
      (fun _ _ => rfl) e)
  | configFileEvent e =>
    exact upToDate_of_keeps (keeps_resetRegistration (fun _ _ => rfl) (fun _ _ => rfl) e.path)
  | listen w => exact h.elim
  | deliver e => exact h.elim
  | useSettings s => exact h.elim
  | settingsChanged previous current => exact h.elim
  | addFolder folder => exact h.elim
  | removeFolder folder => exact h.elim

/-! ## §3 Sessions -/

/-- What a service can go through that listens from the start: the machine
and the state in which it stands, and the paths that are late, because the
file they lead to has changed since the last event for them. A service is
built and told to listen. Then requests are made, files are created, written
and removed, and events are delivered for ignore files, which say that a
file was deleted only where none is. -/
inductive Session : Machine → Service → (Path → Prop) → Prop
  | start (package : String) (loader : Loader) (bundled : Option Install) (settings : Settings)
    (folders : List Path) (statusBar : StatusBar) {w : Watcher} (hw : w.Numbered) (m : Machine) :
    Session m
      (registerWatcher w (fresh package loader bundled settings folders statusBar)).state
      fun _ => False
  | request {m : Machine} {s : Service} {late : Path → Prop} (h : Session m s late)
    {op : Operation} (hop : op.IsRequest) : Session m (op.run m s).state late
  | change {m m' : Machine} {s : Service} {late : Path → Prop} (h : Session m s late)
    {file : Path} (hc : FileChanged m m' file) :
    Session m' s fun f => late f ∨ m.disk.place m.cwd f = m.disk.place m.cwd file
  | event {m : Machine} {s : Service} {late : Path → Prop} (h : Session m s late)
    {e : WatchEvent} (hn : s.settings.NamesIgnoreFile m.home s.workspace e.path)
    (hd : e.change = .deleted → m.isFile e.path = false) :
    Session m (deliver m e s).state fun f => late f ∧ f ≠ e.path

/-- A service that was built and told to listen has heard of nothing and
remembers nothing. -/
theorem upToDate_start (package : String) (loader : Loader) (bundled : Option Install)
    (settings : Settings) (folders : List Path) (statusBar : StatusBar) {w : Watcher}
    (hw : w.Numbered) (m : Machine) :
    UpToDate m settings ⟨folders⟩ (fun _ => False)
      (registerWatcher w (fresh package loader bundled settings folders statusBar)).state := by
  obtain ⟨manifests, configFiles, hr⟩ := registerWatcher_eq
  rw [hr]
  let built := fresh package loader bundled settings folders statusBar
  have h0 : Listens (fun _ _ => False) { built with watcher := some w } w :=
    ⟨rfl, hw, fun l hl => absurd hl List.not_mem_nil, fun l hl => absurd hl List.not_mem_nil,
      fun f hf => absurd hf List.not_mem_nil⟩
  have h1 := h0.watch manifests .manifests [] nofun fun f hf => absurd hf List.not_mem_nil
  have h2 := h1.watch configFiles .configFiles [] nofun fun f hf => absurd hf List.not_mem_nil
  have hs : ((do
      Run.modify fun s => { s with watcher := some w }
      subscribe manifests .manifests
      subscribe configFiles .configFiles
      return .ok () : Run Service (Except FormatFailure Unit)) built).state = { built with
        watcher := some ((w.watch manifests).2.watch configFiles).2
        listeners := [(w.nextId, .manifests), ((w.watch manifests).2.nextId, .configFiles)] } := by
    rfl
  dsimp only
  rw [hs]
  refine ⟨rfl, rfl, ⟨_, h2⟩, fun file rules hf => ?_, fun file rules hf => ?_⟩
  · cases hf
  · cases hf

/-- A change of a file can make those paths late that lead to it. -/
theorem UpToDate.change {m m' : Machine} {settings : Settings} {workspace : Workspace}
    {late : Path → Prop} {s : Service} (h : UpToDate m settings workspace late s) {file : Path}
    (hc : FileChanged m m' file) :
    UpToDate m' settings workspace
      (fun f => late f ∨ m.disk.place m.cwd f = m.disk.place m.cwd file) s := by
  refine ⟨h.settings_eq, h.workspace_eq, h.listens, h.noted, fun f rules hr hnames hlate => ?_⟩
  rw [hc.home_eq] at hnames
  have hsame := Ignore.Matcher.load_agree (hc.readText_agree fun hp => hlate (.inr hp))
  rw [hsame]
  exact h.rules f rules hr hnames fun hl => hlate (.inl hl)

/-- A delivery makes the event's path the latest. -/
theorem UpToDate.event {m : Machine} {settings : Settings} {workspace : Workspace}
    {late : Path → Prop} {s : Service} (h : UpToDate m settings workspace late s)
    {e : WatchEvent} (hn : settings.NamesIgnoreFile m.home workspace e.path)
    (hd : e.change = .deleted → m.isFile e.path = false) :
    UpToDate m settings workspace (fun f => late f ∧ f ≠ e.path) (deliver m e s).state := by
  have hk := keeps_deliver
    (f := fun s => (s.settings, s.workspace, s.watchedIgnoreFiles))
    (fun _ _ => rfl) (fun _ _ => rfl) (fun _ _ => rfl) (fun _ _ => rfl) (fun _ _ => rfl) m e s
  simp only [Prod.mk.injEq] at hk
  obtain ⟨w, hw⟩ := h.listens
  let right (file : Path) (rules : Ignore.Matcher) : Prop :=
    s.watchedIgnoreFiles.contains file = true ∧
      (settings.NamesIgnoreFile m.home workspace file → ¬ (late file ∧ file ≠ e.path) →
        rules = (Ignore.Matcher.load m file).1)
  have hother : ∀ file rules, s.ignore.get? file = some rules → (e.path == file) = false →
      right file rules := by
    intro file rules hr hp
    refine ⟨h.noted file rules hr, fun hnames hlate => h.rules file rules hr hnames fun hl => ?_⟩
    refine hlate ⟨hl, fun he => ?_⟩
    rw [he, Path.beq_refl] at hp
    cases hp
  have htold : ∀ file, s.watchedIgnoreFiles.contains file = true → (e.path == file) = true →
      right file (Ignore.Cache.told m e) := by
    intro file hf hp
    refine ⟨hf, fun hnames _ => ?_⟩
    rw [Ignore.Cache.told_eq_load m hd, hn.unique hnames hp]
  obtain ⟨w', hw', hright⟩ := deliver_rules hw h.noted hother htold
  refine ⟨hk.1.trans h.settings_eq, hk.2.1.trans h.workspace_eq, ⟨w', hw'⟩, ?_, ?_⟩
  · intro file rules hr
    rw [hk.2.2]
    exact (hright file rules hr).1
  · intro file rules hr
    exact (hright file rules hr).2

/-- **A session is up to date** wherever it stands. -/
theorem Session.upToDate {m : Machine} {s : Service} {late : Path → Prop}
    (h : Session m s late) : UpToDate m s.settings s.workspace late s := by
  induction h with
  | start package loader bundled settings folders statusBar hw m =>
    have hs := upToDate_start package loader bundled settings folders statusBar hw m
    rw [hs.settings_eq, hs.workspace_eq]
    exact hs
  | request _ hop ih =>
    have hs := (upToDate_run hop _ ih).1
    rw [hs.settings_eq, hs.workspace_eq]
    exact hs
  | change _ hc ih => exact ih.change hc
  | event _ hn hd ih =>
    have hs := ih.event hn hd
    rw [hs.settings_eq, hs.workspace_eq]
    exact hs

/-! ## §4 Decisions -/

/-- The path's ignore file, as it is on disk now, excludes the path. -/
def excludedNow (m : Machine) (s : Service) (path : Path) : Bool :=
  (s.settings.ignoreFile m.home (s.workspace.folderFor path)).any fun file =>
    (Ignore.Matcher.load m file.1).1.isMatch path

/-- No change of the path's ignore file is still to be told of. -/
def AllTold (m : Machine) (s : Service) (late : Path → Prop) (path : Path) : Prop :=
  ∀ file, s.settings.ignoreFile m.home (s.workspace.folderFor path) = some file → ¬ late file.1

/-- The rules that the service goes by exclude what those on disk do. -/
theorem UpToDate.excludes_eq {m : Machine} {s : Service} {late : Path → Prop} {path : Path}
    (h : UpToDate m s.settings s.workspace late s) (hp : path.isAbsolute = true)
    (ht : AllTold m s late path) :
    ((s.settings.ignoreFile m.home (s.workspace.folderFor path)).any fun file =>
      (s.ignore.rulesFor m file.1).excludes path) = excludedNow m s path := by
  unfold excludedNow
  cases hf : s.settings.ignoreFile m.home (s.workspace.folderFor path) with
  | none => rw [Option.any_none, Option.any_none]
  | some file =>
    have hrules : s.ignore.rulesFor m file.1 = (Ignore.Matcher.load m file.1).1 := by
      unfold Ignore.Cache.rulesFor
      cases hg : s.ignore.get? file.1 with
      | none => rfl
      | some rules => exact h.rules file.1 rules hg ⟨path, file.2, hp, hf⟩ (ht file hf)
    rw [Option.any_some, Option.any_some, hrules, Ignore.Matcher.excludes_load]

/-- Requests that the ignore rules treat alike have one course. -/
theorem course_ignore {m : Machine} {s : Service} {r : FormatRequest} {c : Ignore.Cache}
    (hx : ∀ h, (situationWith m s r h).isExcluded m s.ignore =
      (situationWith m s r h).isExcluded m c) :
    course m s r = course m { s with ignore := c } r := by
  refine (course_congr (s := s) (t := { s with ignore := c }) rfl rfl ?_ fun h => (hx h).symm).symm
  exact moduleFor_congr m r.document.path? _ s.settings rfl

/-- **Ignore decisions are never stale.** Wherever a session stands, and for
every document whose ignore file has not changed since it was last told of:
the gate of a request that is not forced fires exactly when the file, as it
is on disk now, excludes the document, and the request calls, shows and
gives what it would if no rules were remembered; and the readiness check
answers by the file on disk as well. -/
theorem ignoreDecisions_fresh {m : Machine} {s : Service} {late : Path → Prop}
    (h : Session m s late) {d : Document} {path : Path} (hd : d.path? = some path)
    (hp : path.isAbsolute = true) (ht : AllTold m s late path) :
    (∀ r : FormatRequest, r.document = d →
      Gate.fires m s r .excluded = (!r.force && excludedNow m s path) ∧
      let now := course m { s with ignore := {} } r
      formattings (format m r s).events = now.calls ∧
        lastStatus (format m r s).events = some (finalStatus now.ending) ∧
        (format m r s).value = (formattedText? now.ending).getD d.text) ∧
    (onActiveDocument m (some d) s).value =
      if s.settings.isLanguageDisabled d.language then some .disabled
      else (ensureRegistered m (s.workspace.folderFor path) (some d) s).value.map fun r =>
        r.readiness d (excludedNow m s path) := by
  have hx := h.upToDate.excludes_eq hp ht
  refine ⟨?_, ?_⟩
  · rintro r rfl
    have hfolder : s.folderOf r.document = s.workspace.folderFor path := by
      rw [folderOf, hd, Option.bind_some]
    refine ⟨?_, ?_⟩
    · simp only [Gate.fires, hd, hfolder, Option.any_some, hx]
    · have hcourse : course m s r = course m { s with ignore := {} } r := by
        refine course_ignore fun handle => ?_
        have hnow : ((s.settings.ignoreFile m.home (s.workspace.folderFor path)).any fun file =>
            (({} : Ignore.Cache).rulesFor m file.1).excludes path) = excludedNow m s path := by
          have hload : (fun file : Path × Bool =>
              (({} : Ignore.Cache).rulesFor m file.1).excludes path) =
              fun file => (Ignore.Matcher.load m file.1).1.isMatch path :=
            funext fun file => Ignore.Matcher.excludes_load m file.1 path
          rw [hload]
          rfl
        simp only [Situation.isExcluded, Situation.path?, situationWith, hd, hfolder,
          Option.any_some, hx, hnow]
      obtain ⟨hcalls, hstatus, hvalue, -⟩ := format_follows m s r
      rw [hcourse] at hcalls hstatus hvalue
      exact ⟨hcalls, hstatus, hvalue⟩
  · rw [onActiveDocument_value m s hd]
    simp only [hx]

/-- A script of that project. -/
def script : Document where
  uri := { scheme := Uri.fileScheme, hasAuthority := true, path := "/p/x.ts" }
  language := "typescript"
  text := "a;"

/-- The project after it got an ignore file. -/
def ignoring : Machine :=
  { Resolver.nestedInstall with
    disk := Resolver.nestedInstall.disk.put ["p", ".prettierignore"]
      (.file (Text.Utf8.encode "x.ts".toList) false) }

theorem script_path? : script.path? = some ⟨"/p/x.ts"⟩ := by decide +kernel

theorem script_isRooted : script.IsRooted :=
  Document.isRooted_of_parse? "file:///p/x.ts" (by decide +kernel)

theorem script_ignoreFile :
    ({} : Settings).ignoreFile ignoring.home (Workspace.folderFor ⟨[⟨"/p"⟩]⟩ ⟨"/p/x.ts"⟩) =
      some (⟨"/p/.prettierignore"⟩, true) := by
  decide +kernel

theorem fileChanged_ignoring :
    FileChanged Resolver.nestedInstall ignoring ⟨"/p/.prettierignore"⟩ :=
  have hp : Resolver.nestedInstall.disk.place Resolver.nestedInstall.cwd ⟨"/p/.prettierignore"⟩ =
      .ok ["p", ".prettierignore"] :=
    eq_ok_of_toOption (by decide +kernel)
  fileChanged_put hp (List.cons_ne_nil _ _) (by decide +kernel) (by decide +kernel) _ false

/-- A service looks for the script's ignore file in vain. Then the file is
created, and the service is told. -/
theorem exists_session_ignoring :
    ∃ s late, Session ignoring s late ∧ ¬ late ⟨"/p/.prettierignore"⟩ ∧
      s.settings = {} ∧ s.workspace = ⟨[⟨"/p"⟩]⟩ := by
  have hw : ({} : Watcher).Numbered := fun _ hs => absurd hs List.not_mem_nil
  have hnamed : ({} : Settings).NamesIgnoreFile ignoring.home ⟨[⟨"/p"⟩]⟩
      ⟨"/p/.prettierignore"⟩ :=
    ⟨⟨"/p/x.ts"⟩, true, by decide +kernel, script_ignoreFile⟩
  have hcreated : Change.created = .deleted → ignoring.isFile ⟨"/p/.prettierignore"⟩ = false :=
    nofun
  have hstart := Session.start defaultPackage Resolver.plainLoader none {} [⟨"/p"⟩] { text := "" }
    hw Resolver.nestedInstall
  have h0 := upToDate_start defaultPackage Resolver.plainLoader none {} [⟨"/p"⟩] { text := "" }
    hw Resolver.nestedInstall
  have hrequest : (Operation.format { document := script }).IsRequest := script_isRooted
  have h1 := (upToDate_run hrequest _ h0).1
  have h2 := (h1.change fileChanged_ignoring).event
    (e := ⟨.created, ⟨"/p/.prettierignore"⟩⟩) hnamed hcreated
  have hchanged := (hstart.request hrequest).change fileChanged_ignoring
  rw [← h1.settings_eq, ← h1.workspace_eq] at hnamed
  have hend := hchanged.event (e := ⟨.created, ⟨"/p/.prettierignore"⟩⟩) hnamed hcreated
  exact ⟨_, _, hend, fun hl => hl.2 rfl, h2.settings_eq, h2.workspace_eq⟩

/-- From then on the script is ignored. -/
theorem ignoreDecisions_fresh_created :
    ∃ s late, Session ignoring s late ∧ AllTold ignoring s late ⟨"/p/x.ts"⟩ ∧
      excludedNow ignoring s ⟨"/p/x.ts"⟩ = true ∧
      Gate.fires ignoring s { document := script } .excluded = true := by
  obtain ⟨s, late, hsession, hlate, hsettings, hworkspace⟩ := exists_session_ignoring
  have htold : AllTold ignoring s late ⟨"/p/x.ts"⟩ := by
    unfold AllTold
    rw [hsettings, hworkspace, script_ignoreFile]
    intro file hf
    obtain rfl := Option.some.inj hf
    exact hlate
  have hnow : excludedNow ignoring s ⟨"/p/x.ts"⟩ = true := by
    unfold excludedNow
    rw [hsettings, hworkspace, script_ignoreFile, Option.any_some]
    decide +kernel
  have hfresh := ignoreDecisions_fresh hsession script_path? (by decide +kernel) htold
  refine ⟨s, late, hsession, htold, hnow, ?_⟩
  rw [(hfresh.1 { document := script } rfl).1, hnow]
  rfl

end Service
end FormatHost
