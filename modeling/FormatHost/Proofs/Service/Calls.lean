/-
FormatHost.Proofs.Service.Calls — whom the service asks, and what it leaves
alone meanwhile.

Once a request has its formatter it calls no other one, and every question
that names a file names the request's own. So it is when a formatter is
registered, with fewer kinds of questions. Neither changes what the service
remembers of formatters.

* §1 `Event.Asks` and `Event.Tells`: calls of one formatter, of some kinds,
  among other events and apart from them;
* §2 formatting: events, then frames;
* §3 registering: events, then frames.
-/
import FormatHost.Proofs.Registration
import FormatHost.Proofs.Service.Course
import FormatHost.Service.Provide

namespace FormatHost

open Run

/-! ## §1 Calls -/

/-- A call goes to a formatter of the given origin, and asks one of
`calls`. -/
def Event.Asks (origin : Origin) (calls : Call → Prop) : Event → Prop
  | .call o c => o = origin ∧ calls c
  | _ => True

/-- Besides such calls there are log lines and statuses only. -/
def Event.Tells (origin : Origin) (calls : Call → Prop) : Event → Prop
  | .call o c => o = origin ∧ calls c
  | .log .. => True
  | .status _ => True
  | _ => False

namespace Call

/-- What registering a formatter asks, for a document with the path. -/
def OfRegistering (path? : Option Path) : Call → Prop
  | .supportInfo _ => True
  | .resolveConfig path _ => path? = some path
  | .format .. | .fileInfo .. => False

/-- What formatting asks, for a document with the path. -/
def OfFormatting (path? : Option Path) : Call → Prop
  | .format .. | .supportInfo _ => True
  | .fileInfo path _ | .resolveConfig path _ => path? = some path

theorem OfRegistering.ofFormatting {path? : Option Path} {c : Call} (h : c.OfRegistering path?) :
    c.OfFormatting path? := by
  cases c with
  | format text options => exact trivial
  | supportInfo plugins => exact trivial
  | fileInfo path options => exact h.elim
  | resolveConfig path options => exact h

end Call

section Asks

variable {σ α : Type} {x : Run σ α} {origin : Origin} {calls : Call → Prop}

theorem asks_of_isLookup (h : Emits (·.isLookup) x) : Emits (Event.Asks origin calls) x :=
  h.mono fun e he => by
    cases e with
    | call o c => cases he
    | _ => exact trivial

theorem asks_of_tells (h : Emits (Event.Tells origin calls) x) :
    Emits (Event.Asks origin calls) x :=
  h.mono fun e he => by
    cases e with
    | call o c => exact he
    | _ => exact trivial

theorem tells_of_isLog (h : Emits (·.isLog) x) : Emits (Event.Tells origin calls) x :=
  h.mono fun e he => by
    cases e with
    | log level text => exact trivial
    | _ => cases he

theorem tells_mono {calls' : Call → Prop} (h : Emits (Event.Tells origin calls) x)
    (hc : ∀ c, calls c → calls' c) : Emits (Event.Tells origin calls') x :=
  h.mono fun e he => by
    cases e with
    | call o c => exact ⟨he.1, hc c he.2⟩
    | _ => exact he

end Asks

/-! ## §2 Formatting -/

namespace Config

variable {σ : Type} (h : Handle) (m : Machine) (s : Settings) (folder : Option Path)

/-- Looking up a project's options asks for the configuration of the
document's own path. -/
theorem tells_loadProject (path? : Option Path) :
    Emits (Event.Tells h.origin (Call.OfRegistering path?))
      (loadProject (σ := σ) h m path? s folder) := by
  unfold loadProject
  cases path? with
  | none => exact emits_pure _
  | some path =>
    refine Emits.bind ?_ fun a => by split <;> exact emits_pure _
    unfold discover Handle.resolveConfig
    dsimp only
    split
    · exact Emits.bind (emits_emit ⟨rfl, rfl⟩) fun _ => emits_pure _
    · exact emits_pure _

end Config

namespace Parser

variable {σ : Type} (h : Handle) (m : Machine) (path? : Option Path) (identifier : String)
  (info : Option FileInfo) (plugins : List String)

theorem tells_select :
    Emits (Event.Tells h.origin (Call.OfRegistering path?))
      (select (σ := σ) h m path? identifier info plugins) := by
  unfold select
  split
  · exact emits_pure _
  · dsimp only
    split
    · exact emits_pure _
    · refine Emits.bind (emits_warn trivial) fun _ => ?_
      refine Emits.bind (Emits.bind (emits_emit ⟨rfl, trivial⟩) fun _ => emits_pure _) fun a => ?_
      split
      · exact emits_pure _
      · split <;> exact emits_pure _

theorem keeps_select : Keeps id (select (σ := σ) h m path? identifier info plugins) := by
  unfold select
  split
  · exact keeps_pure _
  · dsimp only
    split
    · exact keeps_pure _
    · refine Keeps.bind (keeps_emit _) fun _ => ?_
      refine Keeps.bind (Keeps.bind (keeps_emit _) fun _ => keeps_pure _) fun a => ?_
      split
      · exact keeps_pure _
      · split <;> exact keeps_pure _

end Parser

namespace Service

section Formatting

variable (m : Machine) (c : Situation)

theorem tells_invoke (info : Option FileInfo) :
    Emits (Event.Tells c.handle.origin (Call.OfFormatting c.path?)) (invoke m c info) := by
  unfold invoke
  refine Emits.bind ?_ fun a => ?_
  · exact tells_mono (Parser.tells_select c.handle m c.path? _ info c.plugins)
      fun _ => Call.OfRegistering.ofFormatting
  · split
    · exact emits_pure _
    · refine Emits.bind (Emits.bind (emits_emit ⟨rfl, trivial⟩) fun _ => emits_pure _) fun a => ?_
      split <;> exact emits_pure _

theorem tells_askFileInfo {path : Path} (hp : c.path? = some path) (file? : Option Path) :
    Emits (Event.Tells c.handle.origin (Call.OfFormatting c.path?))
      (askFileInfo m c path file?) := by
  unfold askFileInfo Handle.fileInfo
  dsimp only
  split
  · refine Emits.bind (Emits.bind (emits_emit ⟨rfl, hp⟩) fun _ => emits_pure _) fun a => ?_
    split
    · exact emits_pure _
    · exact Emits.bind (emits_warn trivial) fun _ => emits_pure _
  · refine (emits_pure _).bind fun a => ?_
    split
    · exact emits_pure _
    · exact Emits.bind (emits_warn trivial) fun _ => emits_pure _

theorem tells_attemptIn :
    Emits (Event.Tells c.handle.origin (Call.OfFormatting c.path?)) (attemptIn m c) := by
  unfold attemptIn
  split
  · rename_i path hp
    unfold attemptFile
    refine (tells_of_isLog (emits_ignoreGate m c path _)).bind fun ignored => ?_
    split
    · exact emits_pure _
    · refine (tells_askFileInfo m c hp _).bind fun info => ?_
      split
      · exact emits_pure _
      · exact tells_invoke m c info
  · exact tells_invoke m c none

/-- **A request that has its formatter calls no other one**, and names no
other file. -/
theorem tells_attemptWith (r : FormatRequest) (s : Settings) (folder : Option Path) (h : Handle) :
    Emits (Event.Tells h.origin (Call.OfFormatting r.document.path?))
      (attemptWith m r s folder h) := by
  unfold attemptWith
  refine Emits.bind ?_ fun project => ?_
  · exact tells_mono (Config.tells_loadProject h m s folder _) fun _ =>
      Call.OfRegistering.ofFormatting
  · cases project with
    | disabled => exact emits_pure _
    | failed e =>
      exact Emits.bind (emits_error trivial) fun _ =>
        (emits_showStatus trivial).bind fun _ => tells_attemptIn m _
    | found options => exact tells_attemptIn m _
    | missing => exact tells_attemptIn m _

theorem keeps_invoke (info : Option FileInfo) : Keeps id (invoke m c info) := by
  unfold invoke
  refine (Parser.keeps_select c.handle m c.path? _ info c.plugins).bind fun a => ?_
  split
  · exact keeps_pure _
  · refine Keeps.bind (Keeps.bind (keeps_emit _) fun _ => keeps_pure _) fun a => ?_
    split <;> exact keeps_pure _

theorem keeps_askFileInfo (path : Path) (file? : Option Path) :
    Keeps id (askFileInfo m c path file?) := by
  unfold askFileInfo Handle.fileInfo
  dsimp only
  split
  · refine Keeps.bind (Keeps.bind (keeps_emit _) fun _ => keeps_pure _) fun a => ?_
    split
    · exact keeps_pure _
    · exact Keeps.bind (keeps_emit _) fun _ => keeps_pure _
  · refine (keeps_pure _).bind fun a => ?_
    split
    · exact keeps_pure _
    · exact Keeps.bind (keeps_emit _) fun _ => keeps_pure _

end Formatting

section Frames

variable {γ : Type} {f : Service → γ} (bar : ∀ s b, f { s with statusBar := b } = f s)
  (listening : ∀ s watcher files listeners, f { s with
    watcher := watcher, watchedIgnoreFiles := files, listeners := listeners } = f s)

include bar in
theorem keeps_showStatus (status : Status) : Keeps f (showStatus status) :=
  Keeps.bind (keeps_modify fun s => bar s _) fun _ => keeps_emit _

include bar in
theorem keeps_hideStatus : Keeps f hideStatus := by
  unfold hideStatus
  exact Keeps.bind (keeps_modify fun s => bar s _) fun _ => keeps_emit _

omit bar listening in
/-- A look at an ignore file changes the rules that are remembered. -/
theorem keeps_isIgnored (rules : ∀ s c, f { s with ignore := c } = f s) (m : Machine)
    (path : Path) (file : Path × Bool) : Keeps f (isIgnored m path file) :=
  keeps_on _ rules

omit bar listening in
/-- A look at an ignore file leaves the rules that it goes by. -/
theorem keeps_rulesFor (m : Machine) (path : Path) (file : Path × Bool) :
    Keeps (fun s : Service => s.ignore.rulesFor m file.1) (isIgnored m path file) :=
  fun s => Ignore.Cache.rulesFor_isIgnored m path file.1 file.2 s.ignore

include listening in
/-- The ignore gate leaves what a look at its file does. -/
theorem keeps_ignoreGate {m : Machine} {c : Situation} {path : Path}
    {file? : Option (Path × Bool)}
    (look : ∀ file, file? = some file → Keeps f (isIgnored m path file)) :
    Keeps f (ignoreGate m c path file?) := by
  cases file? with
  | none => exact keeps_pure _
  | some file =>
    refine (keeps_watchIgnoreFile listening _).bind fun _ => ?_
    split
    · exact keeps_pure _
    · exact look file rfl

include listening in
theorem keeps_attemptIn (m : Machine) (c : Situation)
    (look : ∀ path file, c.settings.ignoreFile m.home c.folder = some file →
      Keeps f (isIgnored m path file)) : Keeps f (attemptIn m c) := by
  unfold attemptIn
  split
  · rename_i path _
    unfold attemptFile
    refine (keeps_ignoreGate listening (look path)).bind fun ignored => ?_
    split
    · exact keeps_pure _
    · refine (keeps_askFileInfo m c path _).of_id.bind fun info => ?_
      split
      · exact keeps_pure _
      · exact (keeps_invoke m c info).of_id
  · exact (keeps_invoke m c none).of_id

include bar listening in
/-- A request that has its formatter looks at its own ignore file, and
changes besides that what is listened to and the status bar. -/
theorem keeps_attemptWith (m : Machine) (r : FormatRequest) (s : Settings)
    (folder : Option Path) (h : Handle)
    (look : ∀ path file, s.ignoreFile m.home folder = some file → Keeps f (isIgnored m path file)) :
    Keeps f (attemptWith m r s folder h) := by
  unfold attemptWith
  refine (Config.keeps_loadProject h m s folder _).of_id.bind fun project => ?_
  cases project with
  | disabled => exact keeps_pure _
  | failed e =>
    exact Keeps.bind (keeps_emit _) fun _ =>
      (keeps_showStatus bar _).bind fun _ => keeps_attemptIn listening m _ look
  | found options => exact keeps_attemptIn listening m _ look
  | missing => exact keeps_attemptIn listening m _ look

variable {m : Machine} {s : Service} {r : FormatRequest}
  (look : ∀ path file, s.settings.ignoreFile m.home (s.folderOf r.document) = some file →
    Keeps f (isIgnored m path file))

include bar listening look in
/-- An attempt changes besides that what finding its formatter changes. -/
theorem attempt_state :
    f (attempt m r s).state =
      f (if !r.force && s.settings.isLanguageDisabled r.document.language then s
        else (moduleFor m r.document.path? (s.folderOf r.document) s.settings s).state) := by
  unfold attempt
  rw [get_bind_apply]
  dsimp only
  split
  · rfl
  · rw [bind_apply]
    cases (moduleFor m r.document.path? (s.folderOf r.document) s.settings s).value with
    | none => rfl
    | some h => exact keeps_attemptWith bar listening m r s.settings _ h look _

include bar listening look in
/-- So does a request: what shows its end changes the status bar. -/
theorem execute_state :
    f (execute m r s).state =
      f (if !r.force && s.settings.isLanguageDisabled r.document.language then s
        else (moduleFor m r.document.path? (s.folderOf r.document) s.settings s).state) := by
  rw [← attempt_state bar listening look]
  have hend : ∀ ending : Except FormatFailure Attempt, Keeps f (do
      showStatus (finalStatus ending)
      return formattedText? ending) :=
    fun ending => (keeps_showStatus bar _).bind fun _ => keeps_pure _
  unfold execute
  rw [bind_apply]
  cases (attempt m r s).value with
  | ok a => exact hend _ _
  | error e =>
    dsimp only
    split
    · exact (keeps_emit _).bind (fun _ => hend _) _
    · exact hend _ _

include bar listening look in
/-- What does not read the resolver either is left as it was. -/
theorem execute_keeps (resolver : ∀ s r, f { s with resolver := r } = f s) :
    f (execute m r s).state = f s := by
  rw [execute_state bar listening look]
  split
  · rfl
  · exact keeps_moduleFor resolver m _ _ _ s

end Frames

section Upholds

variable {inv : Service → Prop} {p : Event → Prop} {m : Machine} {r : FormatRequest}

/-- A request adds a log line and a status to its attempt. -/
theorem upholds_execute_of_attempt (ha : Upholds inv p (attempt m r))
    (he : ∀ text, Upholds inv p (Run.error text))
    (hs : ∀ status, Upholds inv p (showStatus status)) : Upholds inv p (execute m r) := by
  unfold execute
  refine ha.bind fun ending => ?_
  have hend : ∀ status, Upholds inv p (do
      showStatus status
      return formattedText? ending) :=
    fun status => (hs status).bind fun _ => upholds_pure _
  cases ending with
  | ok a => exact hend _
  | error e =>
    dsimp only
    split
    · exact (he _).bind fun _ => hend _
    · exact hend _

theorem upholds_edits_of_execute (he : Upholds inv p (execute m r)) (mode : Edit.Mode) :
    Upholds inv p (edits m r mode) := by
  refine he.bind fun formatted => ?_
  cases formatted <;> exact upholds_pure _

end Upholds

/-! ## §3 Registering -/

section Registering

variable (m : Machine) (h : Handle) (d? : Option Document) (s : Settings)
  (folder : Option Path)

theorem tells_registrationPlugins :
    Emits (Event.Tells h.origin (Call.OfRegistering (d?.bind Document.path?)))
      (registrationPlugins m h d? s folder) := by
  unfold registrationPlugins
  split
  · exact emits_pure _
  · rename_i path hp
    split
    · rw [hp]
      refine (Config.tells_loadProject h m s folder _).bind fun project => ?_
      split
      · exact Emits.bind (emits_error trivial) fun _ =>
          (emits_showStatus trivial).bind fun _ => emits_pure _
      · exact (emits_showStatus trivial).bind fun _ => emits_pure _
      · exact emits_pure _
    · exact emits_pure _

/-- **Registering a formatter calls no other one**, and asks it for its
languages and for the configuration of the document only. -/
theorem asks_registerHandle :
    Emits (Event.Asks h.origin (Call.OfRegistering (d?.bind Document.path?)))
      (registerHandle m h folder d? s) := by
  unfold registerHandle
  refine (asks_of_tells (tells_registrationPlugins m h d? s folder)).bind fun plugins => ?_
  refine Emits.bind (Emits.bind (emits_emit ⟨rfl, trivial⟩) fun _ => emits_pure _) fun a => ?_
  split
  · exact Emits.bind (emits_error trivial) fun _ =>
      (emits_showStatus trivial).bind fun _ => emits_pure _
  · exact (Registrations.emits_register folder trivial trivial).on.bind fun _ => emits_pure _

variable {γ : Type} {f : Service → γ} (bar : ∀ s b, f { s with statusBar := b } = f s)
  (registrations : ∀ s r, f { s with registrations := r } = f s)

include bar in
theorem keeps_registrationPlugins : Keeps f (registrationPlugins m h d? s folder) := by
  unfold registrationPlugins
  split
  · exact keeps_pure _
  · split
    · refine (Config.keeps_loadProject h m s folder _).of_id.bind fun project => ?_
      split
      · exact Keeps.bind (keeps_emit _) fun _ =>
          (keeps_showStatus bar _).bind fun _ => keeps_pure _
      · exact (keeps_showStatus bar _).bind fun _ => keeps_pure _
      · exact keeps_pure _
    · exact keeps_pure _

include bar registrations in
/-- Registering a formatter changes the registrations and the status bar,
and nothing else. -/
theorem keeps_registerHandle : Keeps f (registerHandle m h folder d? s) := by
  unfold registerHandle
  refine (keeps_registrationPlugins m h d? s folder bar).bind fun plugins => ?_
  refine Keeps.bind (Keeps.bind (keeps_emit _) fun _ => keeps_pure _) fun a => ?_
  split
  · exact Keeps.bind (keeps_emit _) fun _ =>
      (keeps_showStatus bar _).bind fun _ => keeps_pure _
  · exact (keeps_on _ registrations).bind fun _ => keeps_pure _

variable (resolver : ∀ s r, f { s with resolver := r } = f s)

include bar registrations resolver in
/-- So does having a folder registered, which may have to find a formatter
first. -/
theorem keeps_ensureRegistered : Keeps f (ensureRegistered m folder d?) := by
  unfold ensureRegistered
  refine keeps_get.bind fun t => ?_
  split
  · exact keeps_pure _
  · refine (keeps_moduleFor resolver m _ _ _).bind fun handle? => ?_
    split
    · exact keeps_registerHandle m _ d? _ _ bar registrations
    · exact Keeps.bind (keeps_emit _) fun _ => (keeps_showStatus bar _).bind fun _ => keeps_pure _

end Registering

end Service
end FormatHost
