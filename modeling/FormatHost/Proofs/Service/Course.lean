/-
FormatHost.Proofs.Service.Course — one request as a plain function.

What a request comes to depends on the state in three places only: the
settings, the formatter that the resolver answers, and the ignore rules
that a look goes by. `course` says what it comes to, how it ends and with
which call of the formatter's `format`, as a function of these; every
later statement about requests is read off it.

* §1 `formattings`: the calls of `format` among events;
* §2 the plain answers of the steps: `lookUp`, `chosen`, `fileInfo?`;
* §3 the course of a situation and of a request;
* §4 `attempt_follows`: an attempt follows its course;
* §5 `execute_follows`: a request ends as its course does.
-/
import FormatHost.Proofs.Ignore.Lookup
import FormatHost.Proofs.Resolver.Finding
import FormatHost.Service.Format

namespace FormatHost

open Run

/-! ## §1 Calls of `format` -/

/-- A call of a formatter's `format`: where the formatter came from, the
text and the options. -/
structure Formatting where
  origin : Origin
  text : String
  options : Options
  deriving Repr

def Event.formatting? : Event → Option Formatting
  | .call origin (.format text options) => some ⟨origin, text, options⟩
  | _ => none

/-- The calls of `format` among events, in order. -/
def formattings (es : List Event) : List Formatting := es.filterMap Event.formatting?

@[simp] theorem formattings_append (a b : List Event) :
    formattings (a ++ b) = formattings a ++ formattings b := List.filterMap_append

/-- The operation calls no formatter's `format`. -/
abbrev NeverFormats {σ α : Type} (x : Run σ α) : Prop := Emits (·.formatting? = none) x

theorem NeverFormats.formattings_eq {σ α : Type} {x : Run σ α} (h : NeverFormats x) (s : σ) :
    formattings (x s).events = [] :=
  List.filterMap_eq_nil_iff.mpr (h s)

theorem neverFormats_of_isLookup {σ α : Type} {x : Run σ α} (h : Emits (·.isLookup) x) :
    NeverFormats x :=
  h.mono fun e he => by cases e <;> simp_all [Event.isLookup, Event.formatting?]

theorem neverFormats_of_isLog {σ α : Type} {x : Run σ α} (h : Emits (·.isLog) x) :
    NeverFormats x :=
  h.mono fun e he => by cases e <;> simp_all [Event.isLog, Event.formatting?]

/-! ## §2 Steps -/

namespace Config

/-- What looking for a project's options comes to. A document without a
path has no project. -/
def lookUp (h : Handle) (m : Machine) (path? : Option Path) (s : Settings)
    (folder : Option Path) : Except Failure (Option Options) :=
  match path? with
  | none => .ok none
  | some path =>
    let o := s.configOptions m.home folder
    if h.has .resolveConfig then h.formatter.resolveConfig m path o else resolve m path o

variable {σ : Type} (h : Handle) (m : Machine) (s : Settings) (folder : Option Path)

theorem discover_value (path : Path) (t : σ) :
    (discover h m path s folder t).value = lookUp h m (some path) s folder := by
  unfold discover lookUp Handle.resolveConfig
  cases h.has .resolveConfig <;> simp

theorem keeps_discover (path : Path) : Keeps id (discover (σ := σ) h m path s folder) := by
  unfold discover Handle.resolveConfig
  dsimp only
  split
  · exact Keeps.bind (keeps_emit _) fun _ => keeps_pure _
  · exact keeps_pure _

theorem neverFormats_discover (path : Path) :
    NeverFormats (discover (σ := σ) h m path s folder) := by
  unfold discover Handle.resolveConfig
  dsimp only
  split
  · exact Emits.bind (emits_emit (by rfl)) fun _ => emits_pure _
  · exact emits_pure _

theorem neverFormats_loadProject (path? : Option Path) :
    NeverFormats (loadProject (σ := σ) h m path? s folder) := by
  unfold loadProject
  split
  · exact emits_pure _
  · refine (neverFormats_discover h m s folder _).bind fun a => ?_
    split <;> exact emits_pure _

/-- Looking up a project's options leaves the state as it is. -/
theorem keeps_loadProject (path? : Option Path) :
    Keeps id (loadProject (σ := σ) h m path? s folder) := by
  unfold loadProject
  split
  · exact keeps_pure _
  · refine (keeps_discover h m s folder _).bind fun a => ?_
    split <;> exact keeps_pure _

theorem loadProject_value_ok {path? : Option Path} {found : Option Options}
    (hl : lookUp h m path? s folder = .ok found) (t : σ) :
    (loadProject h m path? s folder t).value = ofFound s found := by
  cases path? with
  | none =>
    obtain rfl : none = found := by simpa [lookUp] using hl
    rfl
  | some path => simp [loadProject, discover_value, hl]

theorem loadProject_value_error {path? : Option Path} {e : Failure}
    (hl : lookUp h m path? s folder = .error e) (t : σ) :
    ∃ e', (loadProject h m path? s folder t).value = .failed e' := by
  cases path? with
  | none => simp [lookUp] at hl
  | some path => exact ⟨.configResolutionFailed path e, by simp [loadProject, discover_value, hl]⟩

end Config

namespace Parser

/-- The parser of a document, as a function. -/
def chosen (h : Handle) (m : Machine) (path? : Option Path) (identifier : String)
    (info : Option FileInfo) (plugins : List String) : Except FormatFailure String :=
  match info.bind (·.inferredParser) with
  | some parser => .ok parser
  | none =>
    let unresolvable := FormatFailure.parserUnresolvable (subject path? identifier)
    if identifier = plainText then .error unresolvable
    else
      match h.formatter.supportInfo m plugins with
      | .error e => .error (.module e)
      | .ok table =>
        match ofTable table.languages path? identifier with
        | some parser => .ok parser
        | none => .error unresolvable

variable {σ : Type} (h : Handle) (m : Machine) (path? : Option Path) (identifier : String)
  (info : Option FileInfo) (plugins : List String)

theorem select_value (t : σ) :
    (select h m path? identifier info plugins t).value =
      chosen h m path? identifier info plugins := by
  unfold select chosen
  cases info.bind (·.inferredParser) with
  | some parser => rfl
  | none =>
    dsimp only
    split
    · rfl
    · simp only [bind_apply, Handle.supportInfo, pure_apply]
      cases h.formatter.supportInfo m plugins with
      | error e => rfl
      | ok table => dsimp only; cases ofTable table.languages path? identifier <;> rfl

/-- A document that gets no parser is an error. -/
theorem chosen_error_status {e : FormatFailure}
    (hc : chosen h m path? identifier info plugins = .error e) : e.status = .error := by
  unfold chosen at hc
  cases hb : info.bind (·.inferredParser) with
  | some parser => simp [hb] at hc
  | none =>
    rw [hb] at hc
    dsimp only at hc
    split at hc
    · cases hc
      rfl
    · split at hc
      · cases hc
        rfl
      · split at hc
        · cases hc
        · cases hc
          rfl

theorem neverFormats_select :
    NeverFormats (select (σ := σ) h m path? identifier info plugins) := by
  unfold select
  split
  · exact emits_pure _
  · dsimp only
    split
    · exact emits_pure _
    · refine Emits.bind (emits_warn (by rfl)) fun _ => ?_
      refine Emits.bind (Emits.bind (emits_emit (by rfl)) fun _ => emits_pure _) fun a => ?_
      split
      · exact emits_pure _
      · split <;> exact emits_pure _

end Parser

/-! ## §3 Courses -/

/-- How a request ends, and the calls of `format` on the way. -/
structure Course where
  ending : Except FormatFailure Attempt
  calls : List Formatting

namespace Situation

/-- What the formatter is asked about the request's file. -/
def fileInfoOptions (c : Situation) (m : Machine) : FileInfoOptions :=
  { ignorePath := (c.settings.ignoreFile m.home c.folder).map (·.1)
    plugins := c.plugins
    resolveConfig := true
    withNodeModules := c.settings.withNodeModules }

/-- What the formatter knows about the request's file: nothing without a
file, without the capability, or when the question fails. -/
def fileInfo? (c : Situation) (m : Machine) : Option FileInfo :=
  c.path?.bind fun path =>
    if c.handle.has .fileInfo then
      (c.handle.formatter.fileInfo m path (c.fileInfoOptions m)).toOption
    else none

/-- The ignore file excludes the request's file, and the request minds. -/
def isExcluded (c : Situation) (m : Machine) (rules : Ignore.Cache) : Bool :=
  !c.request.force && c.path?.any fun path =>
    (c.settings.ignoreFile m.home c.folder).any fun file =>
      (rules.rulesFor m file.1).excludes path

/-- The formatter excludes the request's file, and the request minds. -/
def isDeclined (c : Situation) (m : Machine) : Bool :=
  !c.request.force && (c.fileInfo? m).any (·.ignored)

def parser (c : Situation) (m : Machine) : Except FormatFailure String :=
  Parser.chosen c.handle m c.path? c.request.document.language (c.fileInfo? m) c.plugins

/-- The formatter's answer for the request under a parser. -/
def formatted (c : Situation) (m : Machine) (parser : String) : Except Failure String :=
  c.handle.formatter.format m c.request.document.text (c.options parser)

/-- The call of `format` under a parser. -/
def formatting (c : Situation) (parser : String) : Formatting :=
  ⟨c.handle.origin, c.request.document.text, c.options parser⟩

/-- The course of a request that reached its parser. -/
def formattingCourse (c : Situation) (m : Machine) : Course :=
  match c.parser m with
  | .error e => ⟨.error e, []⟩
  | .ok parser =>
    match c.formatted m parser with
    | .error e => ⟨.error (c.invocationFailure e), [c.formatting parser]⟩
    | .ok text => ⟨.ok (.formatted text c.configFailed), [c.formatting parser]⟩

/-- The course of a request whose project's options were looked up. -/
def course (c : Situation) (m : Machine) (rules : Ignore.Cache) : Course :=
  if c.isExcluded m rules || c.isDeclined m then ⟨.ok (.skipped .ignored), []⟩
  else c.formattingCourse m

end Situation

namespace Service

/-- The formatter that a request gets. -/
def handleFor (m : Machine) (s : Service) (r : FormatRequest) : Option Handle :=
  (moduleFor m r.document.path? (s.folderOf r.document) s.settings s).value

/-- What looking for the options of a request's project comes to. -/
def lookUpFor (m : Machine) (s : Service) (r : FormatRequest) (h : Handle) :
    Except Failure (Option Options) :=
  Config.lookUp h m r.document.path? s.settings (s.folderOf r.document)

/-- The situation of a request that has its formatter. A failed look-up
counts as no options. -/
def situationWith (m : Machine) (s : Service) (r : FormatRequest) (h : Handle) : Situation :=
  let found := lookUpFor m s r h
  { request := r
    settings := s.settings
    folder := s.folderOf r.document
    handle := h
    project := found.toOption.join
    configFailed := !found.isOk }

/-- Whether looking for options found that there are none. -/
def isUnconfigured : Except Failure (Option Options) → Bool
  | .ok none => true
  | _ => false

/-- The course of a request that has its formatter. -/
def courseWith (m : Machine) (s : Service) (r : FormatRequest) (h : Handle) : Course :=
  if s.settings.requireConfig && isUnconfigured (lookUpFor m s r h) then
    ⟨.error (.configRequiredMissing (r.document.path?.getD ⟨r.document.uri.text⟩)), []⟩
  else (situationWith m s r h).course m s.ignore

/-- The course of a request. -/
def course (m : Machine) (s : Service) (r : FormatRequest) : Course :=
  if !r.force && s.settings.isLanguageDisabled r.document.language then
    ⟨.ok (.skipped .disabled), []⟩
  else
    match handleFor m s r with
    | none => ⟨.error (.moduleNotFound s.settings.onlyUseLocalVersion), []⟩
    | some h => courseWith m s r h

/-- The course of a request goes by the settings, the folder, the formatter
and whether the ignore rules exclude the file. -/
theorem course_congr {m : Machine} {s t : Service} {r : FormatRequest}
    (settings : t.settings = s.settings)
    (folder : t.folderOf r.document = s.folderOf r.document)
    (formatter : handleFor m t r = handleFor m s r)
    (rules : ∀ h, (situationWith m s r h).isExcluded m t.ignore =
      (situationWith m s r h).isExcluded m s.ignore) : course m t r = course m s r := by
  have hlook : ∀ h, lookUpFor m t r h = lookUpFor m s r h := by
    intro h
    rw [lookUpFor, lookUpFor, settings, folder]
  have hsituation : ∀ h, situationWith m t r h = situationWith m s r h := by
    intro h
    simp only [situationWith, hlook, settings, folder]
  have hwith : ∀ h, courseWith m t r h = courseWith m s r h := by
    intro h
    simp only [courseWith, settings, hlook, hsituation, Situation.course, rules]
  simp only [course, settings, formatter, hwith]

/-! ## §4 An attempt follows its course -/

/-- The operation ends and formats as a course says. -/
def Follows {σ : Type} (x : Run σ (Except FormatFailure Attempt)) (t : σ) (c : Course) : Prop :=
  (x t).value = c.ending ∧ formattings (x t).events = c.calls

/-- Steps before an operation do not count when they format nothing. -/
theorem Follows.bind {σ α : Type} {x : Run σ α} {f : α → Run σ (Except FormatFailure Attempt)}
    {t : σ} {c : Course} (hx : NeverFormats x) (hf : Follows (f (x t).value) (x t).state c) :
    Follows (x >>= f) t c := by
  refine ⟨hf.1, ?_⟩
  rw [bind_apply, formattings_append, hx.formattings_eq, List.nil_append]
  exact hf.2

theorem invoke_follows (m : Machine) (c : Situation) (t : Service) :
    Follows (invoke m c (c.fileInfo? m)) t (c.formattingCourse m) := by
  unfold invoke
  refine Follows.bind (Parser.neverFormats_select _ _ _ _ _ _) ?_
  rw [Parser.select_value]
  unfold Situation.formattingCourse Situation.parser
  cases Parser.chosen c.handle m c.path? c.request.document.language (c.fileInfo? m) c.plugins with
  | error e => exact ⟨rfl, rfl⟩
  | ok parser =>
    simp only [Follows, bind_apply, Handle.format, pure_apply, Situation.formatted]
    cases c.handle.formatter.format m c.request.document.text (c.options parser) <;>
      exact ⟨rfl, rfl⟩

/-- What does not read the subscriptions is kept when one is added. -/
theorem keeps_watchIgnoreFile {γ : Type} {f : Service → γ}
    (h : ∀ s watcher files listeners, f { s with
      watcher := watcher, watchedIgnoreFiles := files, listeners := listeners } = f s)
    (file : Path) : Keeps f (watchIgnoreFile file) := by
  refine keeps_get_bind fun s => ?_
  split
  · cases hw : s.watcher with
    | none => simpa [subscribe, hw] using h s none (s.watchedIgnoreFiles ++ [file]) s.listeners
    | some w => simpa [subscribe, hw] using h s _ (s.watchedIgnoreFiles ++ [file]) _
  · rfl

theorem emits_watchIgnoreFile {p : Event → Prop} (file : Path) :
    Emits p (watchIgnoreFile file) := by
  unfold watchIgnoreFile
  refine emits_get.bind fun s => ?_
  split
  · exact (emits_set _).bind fun _ => emits_modify _
  · exact emits_pure _

theorem ignoreGate_value (m : Machine) (c : Situation) (path : Path)
    (file? : Option (Path × Bool)) (t : Service) :
    (ignoreGate m c path file? t).value =
      (!c.request.force && file?.any fun file => (t.ignore.rulesFor m file.1).excludes path) := by
  cases file? with
  | none => simp [ignoreGate]
  | some file =>
    have hk := keeps_watchIgnoreFile (f := Service.ignore) (fun _ _ _ _ => rfl) file.1 t
    simp only [ignoreGate, bind_apply, Option.any_some]
    cases c.request.force with
    | true => rfl
    | false =>
      simp only [Bool.false_eq_true, if_false, isIgnored, onIgnore, on_apply,
        Ignore.Cache.isIgnored_value, hk, Bool.not_false, Bool.true_and]

theorem emits_ignoreGate (m : Machine) (c : Situation) (path : Path)
    (file? : Option (Path × Bool)) : Emits (·.isLog) (ignoreGate m c path file?) := by
  unfold ignoreGate
  split
  · exact emits_pure _
  · refine (emits_watchIgnoreFile _).bind fun _ => ?_
    split
    · exact emits_pure _
    · exact (Ignore.Cache.emits_isIgnored m _ _ _).on

theorem askFileInfo_value (m : Machine) (c : Situation) {path : Path} (hp : c.path? = some path)
    (t : Service) :
    (askFileInfo m c path ((c.settings.ignoreFile m.home c.folder).map (·.1)) t).value =
      c.fileInfo? m := by
  simp only [askFileInfo, Handle.fileInfo, Situation.fileInfo?, hp, Option.bind_some]
  cases c.handle.has .fileInfo with
  | false => rfl
  | true =>
    simp only [if_true, bind_apply, pure_apply, Situation.fileInfoOptions]
    cases c.handle.formatter.fileInfo m path _ <;> rfl

theorem neverFormats_askFileInfo (m : Machine) (c : Situation) (path : Path)
    (file? : Option Path) : NeverFormats (askFileInfo m c path file?) := by
  unfold askFileInfo Handle.fileInfo
  dsimp only
  split
  · refine Emits.bind (Emits.bind (emits_emit (by rfl)) fun _ => emits_pure _) fun a => ?_
    split
    · exact emits_pure _
    · exact Emits.bind (emits_warn (by rfl)) fun _ => emits_pure _
  · refine (emits_pure _).bind fun a => ?_
    split
    · exact emits_pure _
    · exact Emits.bind (emits_warn (by rfl)) fun _ => emits_pure _

/-- From the project's options on, only the ignore rules of the state
count. -/
theorem attemptIn_follows (m : Machine) (c : Situation) (t : Service) :
    Follows (attemptIn m c) t (c.course m t.ignore) := by
  unfold attemptIn Situation.course
  cases hp : c.path? with
  | none =>
    have hi : c.fileInfo? m = none := by simp [Situation.fileInfo?, hp]
    simpa [Situation.isExcluded, Situation.isDeclined, hp, hi] using invoke_follows m c t
  | some path =>
    refine Follows.bind (neverFormats_of_isLog (emits_ignoreGate _ _ _ _)) ?_
    rw [ignoreGate_value]
    have hx : c.isExcluded m t.ignore = (!c.request.force &&
        (c.settings.ignoreFile m.home c.folder).any fun file =>
          (t.ignore.rulesFor m file.1).excludes path) := by
      simp [Situation.isExcluded, hp]
    rw [← hx]
    cases c.isExcluded m t.ignore with
    | true => exact ⟨rfl, rfl⟩
    | false =>
      simp only [Bool.false_eq_true, if_false, Bool.false_or]
      refine Follows.bind (neverFormats_askFileInfo _ _ _ _) ?_
      rw [askFileInfo_value m c hp]
      have hd : c.isDeclined m = (!c.request.force && (c.fileInfo? m).any (·.ignored)) := rfl
      rw [← hd]
      cases c.isDeclined m with
      | true => exact ⟨rfl, rfl⟩
      | false => exact invoke_follows m c _

theorem emits_showStatus {p : Event → Prop} {status : Status} (h : p (.status status)) :
    Emits p (showStatus status) :=
  (emits_modify _).bind fun _ => emits_emit h

theorem emits_moduleFor (m : Machine) (path? folder : Option Path) (s : Settings) :
    Emits (·.isLookup) (moduleFor m path? folder s) := by
  unfold moduleFor
  cases path? with
  | some path => exact (Resolver.emits_resolve m path _).on
  | none => exact (Resolver.emits_resolveGlobal m _).on

/-- What does not read the resolver is kept when a formatter is found. -/
theorem keeps_moduleFor {γ : Type} {f : Service → γ}
    (h : ∀ s r, f { s with resolver := r } = f s) (m : Machine) (path? folder : Option Path)
    (s : Settings) : Keeps f (moduleFor m path? folder s) := by
  unfold moduleFor
  cases path? <;> exact keeps_on _ h

/-- Which formatter is found goes by what the resolver remembers. -/
theorem moduleFor_congr (m : Machine) (path? folder : Option Path) (settings : Settings)
    {s t : Service} (h : t.resolver = s.resolver) :
    (moduleFor m path? folder settings t).value = (moduleFor m path? folder settings s).value := by
  unfold moduleFor
  cases path? with
  | some path => exact congrArg (fun r => (Resolver.resolve m path _ r).value) h
  | none => exact congrArg (fun r => (Resolver.resolveGlobal m _ r).value) h

/-- With a formatter at hand, what looking for the project's options comes
to decides how the request goes on. -/
theorem attemptWith_follows (m : Machine) (s : Service) (r : FormatRequest) (h : Handle)
    (t : Service) (ht : t.ignore = s.ignore) :
    Follows (attemptWith m r s.settings (s.folderOf r.document) h) t (courseWith m s r h) := by
  unfold attemptWith courseWith
  refine Follows.bind (Config.neverFormats_loadProject h m s.settings _ _) ?_
  rw [show (Config.loadProject h m r.document.path? s.settings (s.folderOf r.document) t).state = t
    from Config.keeps_loadProject h m s.settings _ _ t]
  cases hl : lookUpFor m s r h with
  | error e =>
    obtain ⟨e', he⟩ := Config.loadProject_value_error h m s.settings (s.folderOf r.document) hl t
    rw [he]
    refine Follows.bind (emits_error (by rfl)) (Follows.bind (emits_showStatus (by rfl)) ?_)
    have hc : situationWith m s r h = ⟨r, s.settings, s.folderOf r.document, h, none, true⟩ := by
      simp [situationWith, hl, Except.toOption, Except.isOk, Except.toBool]
    have hu : isUnconfigured (.error e) = false := rfl
    rw [hc, hu, Bool.and_false, if_neg Bool.false_ne_true, ← ht]
    exact attemptIn_follows m _ _
  | ok found =>
    rw [Config.loadProject_value_ok h m s.settings (s.folderOf r.document) hl t]
    have hc : situationWith m s r h = ⟨r, s.settings, s.folderOf r.document, h, found, false⟩ := by
      simp [situationWith, hl, Except.toOption, Except.isOk, Except.toBool]
    cases found with
    | some options => simpa [isUnconfigured, Config.ofFound, hc, ← ht] using attemptIn_follows m _ t
    | none =>
      cases hr : s.settings.requireConfig with
      | true =>
        simp only [Config.ofFound, hr, if_true, isUnconfigured, Bool.and_self]
        exact ⟨rfl, rfl⟩
      | false => simpa [Config.ofFound, hr, hc, ← ht] using attemptIn_follows m _ t

/-- **An attempt follows the course of its request**, from every state. -/
theorem attempt_follows (m : Machine) (r : FormatRequest) (s : Service) :
    Follows (attempt m r) s (course m s r) := by
  unfold attempt course
  refine Follows.bind emits_get ?_
  dsimp only [get_apply]
  by_cases hl : (!r.force && s.settings.isLanguageDisabled r.document.language) = true
  · rw [if_pos hl, if_pos hl]
    exact ⟨rfl, rfl⟩
  · rw [if_neg hl, if_neg hl]
    refine Follows.bind (neverFormats_of_isLookup (emits_moduleFor _ _ _ _)) ?_
    have hi := keeps_moduleFor (f := Service.ignore) (fun _ _ => rfl) m r.document.path?
      (s.folderOf r.document) s.settings s
    unfold handleFor
    cases (moduleFor m r.document.path? (s.folderOf r.document) s.settings s).value with
    | none => exact ⟨rfl, rfl⟩
    | some h => exact attemptWith_follows m s r h _ hi

/-! ## §5 How a request ends -/

def Event.status? : Event → Option Status
  | .status status => some status
  | _ => none

/-- The last status that events show. -/
def lastStatus (es : List Event) : Option Status := (es.filterMap Event.status?).getLast?

/-- Later events show the last status, unless they show none. -/
theorem lastStatus_append (a b : List Event) :
    lastStatus (a ++ b) = (lastStatus b).or (lastStatus a) := by
  rw [lastStatus, List.filterMap_append, List.getLast?_append]
  rfl

/-- An operation that shows a status at its end shows it last. -/
theorem showStatus_ends {α : Type} {report : Run Service Unit} (hr : NeverFormats report)
    (status : Status) (a : α) (es : List Event) (t : Service) :
    let o := (report >>= fun _ => showStatus status >>= fun _ => pure a) t
    o.value = a ∧ formattings (es ++ o.events) = formattings es ∧
      lastStatus (es ++ o.events) = some status ∧ o.state.statusBar.current = some status := by
  refine ⟨rfl, ?_, ?_, rfl⟩
  · have hn : NeverFormats (report >>= fun _ => showStatus status >>= fun _ => pure a) :=
      hr.bind fun _ => (emits_showStatus (by rfl)).bind fun _ => emits_pure a
    rw [formattings_append, hn.formattings_eq t, List.append_nil]
  · simp [lastStatus, showStatus, Event.status?]

/-- **How a request ends**: with the text, the calls and the status of its
course. -/
theorem execute_follows (m : Machine) (r : FormatRequest) (s : Service) :
    (execute m r s).value = formattedText? (course m s r).ending ∧
    formattings (execute m r s).events = (course m s r).calls ∧
    lastStatus (execute m r s).events = some (finalStatus (course m s r).ending) ∧
    (execute m r s).state.statusBar.current = some (finalStatus (course m s r).ending) := by
  obtain ⟨hv, hc⟩ := attempt_follows m r s
  have hn : NeverFormats (pure () : Run Service Unit) := emits_pure ()
  rw [← hv, ← hc]
  unfold execute
  rw [bind_apply]
  cases (attempt m r s).value with
  | ok a => exact showStatus_ends hn _ _ _ _
  | error e =>
    by_cases he : isReported e = true
    · simp only [if_pos he]
      exact showStatus_ends (emits_error (by rfl)) _ _ _ _
    · simp only [if_neg he]
      exact showStatus_ends hn _ _ _ _

end Service
end FormatHost
