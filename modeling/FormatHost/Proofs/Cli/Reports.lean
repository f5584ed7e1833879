/-
FormatHost.Proofs.Cli.Reports — the parser that `info` reports, and the one
that `format` uses.

Both commands open the file in the same way and choose a parser by the same
rules, from what the formatter says about the file and from its language
table. But they do not ask the same questions. `format` names the project's
plugins, the ignore file and the project's configuration; `info` names none
of them. So what is reported is the parser of a project without plugins. It
is the one that is used when these make no difference to the formatter's
answers, and a parser that only a plugin knows is never reported.

* §1 `reportOn`: the report that `info` prints;
* §2 what is asked for it;
* §3 the formatter that both commands find;
* §4 `parsers_of_commands`;
* §5 a parser that only a plugin knows.
-/
import FormatHost.Proofs.Cli.Changes
import FormatHost.Proofs.Resolver.Cache
import FormatHost.Proofs.Service.Options
import FormatHost.Proofs.Uri.FilePath
import FormatHost.Proofs.Workspace

namespace FormatHost.Cli

open Run Service

/-! ## §1 Reports -/

/-- The report on a file. -/
def reportOn (file : Path) (language : Option String) (c : Context) :
    Run Service (Except CommandFailure FileReport) := do
  match ← c.document file language with
  | .error e => return .error e
  | .ok d =>
    let path := d.path?.getD file
    match ← c.moduleFor path with
    | .error e => return .error e
    | .ok h => return .ok (← examine c d path h)

/-- The report on a file under global options. -/
def infoReport (m : Machine) (loader : Loader) (o : GlobalOptions) (file : Path)
    (language : Option String) : Except CommandFailure FileReport := do
  let (c, s) ← Context.create m loader o
  (reportOn file language c s).value

/-- What is printed is the report. -/
theorem showFile_value (file : Path) (language : Option String) (c : Context) (d : Desk) :
    (showFile file language c d).value =
      (reportOn file language c d.service).value.map fun r => line r.toValue.pretty := by
  simp only [showFile, reportOn, bind_apply, Desk.ask_apply]
  cases (c.document file language d.service).value with
  | error e => simp only [pure_apply, Except.map]
  | ok document =>
    simp only [bind_apply, Desk.ask_apply]
    cases (c.moduleFor (document.path?.getD file) _).value with
    | error e => simp only [pure_apply, Except.map]
    | ok h => simp only [bind_apply, Desk.ask_apply, pure_apply, Except.map]

theorem execute_info (m : Machine) (loader : Loader) (i : Invocation) (file : Path)
    (language : Option String) :
    (execute m loader { i with command := .info file language }).value =
      (infoReport m loader i.options file language).map fun r => line r.toValue.pretty := by
  unfold execute infoReport prepare
  cases Context.create m loader i.options with
  | error e =>
    simp only [Command.action, bind, Except.bind]
    simp only [Except.map]
  | ok start =>
    simp only [Command.action, bind, Except.bind, pure, Except.pure]
    rw [showFile_value]

/-! ## §2 Questions -/

/-- What the formatter says about a file when nothing of the project is
named. -/
def bareFileInfo (c : Context) (h : Handle) (path : Path) : Option FileInfo :=
  if h.has .fileInfo then
    (h.formatter.fileInfo c.machine path
      { withNodeModules := c.settings.withNodeModules }).toOption
  else none

/-- A report holds what the formatter says without the project, and the
parser that is chosen from that. -/
theorem examine_value (c : Context) (d : Document) (path : Path) (h : Handle) (s : Service) :
    (examine c d path h s).value =
      { file := path, language := d.language, handle := h
        readiness := (Service.onActiveDocument c.machine (some d) s).value
        info := bareFileInfo c h path
        parser := (Parser.chosen h c.machine (some path) d.language
          (bareFileInfo c h path) []).toOption } := by
  have hinfo : ∀ t : Service, ((h.fileInfo c.machine path
      { withNodeModules := c.settings.withNodeModules } t).value.toOption.join) =
        bareFileInfo c h path := by
    intro t
    unfold Handle.fileInfo bareFileInfo
    cases h.has .fileInfo with
    | false => rfl
    | true =>
      simp only [if_true, bind_apply, pure_apply]
      cases h.formatter.fileInfo c.machine path _ <;> rfl
  simp only [examine, bind_apply, pure_apply, Parser.select_value, hinfo]

/-- The parser of a document goes by the parser that the formatter infers
and, when it infers none, by its language table. -/
theorem chosen_congr {h : Handle} {m : Machine} {path? : Option Path} {identifier : String}
    {info info' : Option FileInfo} {plugins plugins' : List String}
    (hinfo : info.bind (·.inferredParser) = info'.bind (·.inferredParser))
    (htable : info'.bind (·.inferredParser) = none →
      h.formatter.supportInfo m plugins = h.formatter.supportInfo m plugins') :
    Parser.chosen h m path? identifier info plugins =
      Parser.chosen h m path? identifier info' plugins' := by
  unfold Parser.chosen
  rw [hinfo]
  cases hi : info'.bind (·.inferredParser) with
  | some parser => rfl
  | none => rw [htable hi]

/-! ## §3 Formatters -/

namespace Context

/-- Opening a file changes neither the settings nor the open folders. -/
theorem keeps_document {γ : Type} {f : Service → γ} (hf : ∀ s r, f { s with resolver := r } = f s)
    (c : Context) (file : Path) (language : Option String) : Keeps f (c.document file language) := by
  have hmodule : ∀ path, Keeps f (c.moduleFor path) := fun path => by
    unfold moduleFor
    refine (keeps_moduleFor hf _ _ _ _).bind fun found => ?_
    cases found <;> exact keeps_pure _
  have hlanguage : ∀ path, Keeps f (c.languageOf path language) := fun path => by
    cases language with
    | some language => exact keeps_pure _
    | none =>
      unfold languageOf guessLanguage
      refine (hmodule path).bind fun found => ?_
      cases found with
      | error e => exact keeps_pure _
      | ok h =>
        refine Keeps.bind (Keeps.bind (keeps_emit _) fun _ => keeps_pure _) fun info => ?_
        cases info with
        | ok info => exact keeps_pure _
        | error e => exact Keeps.bind (keeps_emit _) fun _ => keeps_pure _
  unfold document
  simp only []
  split
  · exact keeps_pure _
  · exact keeps_pure _
  · exact (hlanguage _).bind fun _ => keeps_pure _

/-- A file that was opened has a path. -/
theorem exists_path_of_document {c : Context} {file : Path} {language : Option String}
    {s : Service} {d : Document} (hd : (c.document file language s).value = .ok d) :
    ∃ path, d.path? = some path := by
  unfold document at hd
  cases ht : c.machine.readText (c.machine.absolute file) with
  | error e =>
    rw [ht] at hd
    cases hd
  | ok text =>
    cases hu : Uri.ofFilePath? (c.machine.absolute file) with
    | none =>
      rw [ht, hu] at hd
      cases hd
    | some uri =>
      rw [ht, hu] at hd
      obtain rfl := Except.ok.inj hd
      exact Option.isSome_iff_exists.mp (Uri.isSome_filePath?_ofFilePath? hu)

/-- The context of a service that was made for it. -/
theorem service_of_create {m : Machine} {loader : Loader} {o : GlobalOptions} {c : Context}
    {s : Service} (h : create m loader o = .ok (c, s)) :
    c.machine = m ∧ s.settings = c.settings ∧ s.workspace = ⟨[c.root]⟩ := by
  obtain ⟨settings, -, h⟩ := exists_of_bind_eq_ok h
  obtain ⟨bundled, -, h⟩ := exists_of_bind_eq_ok h
  cases h
  exact ⟨rfl, rfl, rfl⟩

end Context

/-- What a command does with the formatted text is no call. -/
theorem neverFormats_deliver (file : Path) (write : Bool) (before after : String) :
    NeverFormats (deliver file write before after) := by
  have hwrite : NeverFormats (Desk.writeText file after) := fun d => by
    rw [Desk.writeText_apply]
    cases d.machine.disk.writeText d.machine.cwd file after <;> exact nofun
  have hback : NeverFormats (writeBack file before after) := by
    unfold writeBack
    split
    · exact emits_pure _
    · refine hwrite.bind fun written => ?_
      cases written <;> exact emits_pure _
  unfold deliver
  refine emits_get.bind fun d => ?_
  simp only []
  split
  · exact emits_pure _
  · split
    · exact hback
    · exact emits_pure _

/-- The calls of a command to format are those of the service's request. -/
theorem formattings_formatFile {c : Context} {s : Service} {file : Path}
    {language : Option String} {call : Formatting} {write force : Bool}
    {range : Option (Nat × Nat)} {m : Machine}
    (hm : call ∈ formattings (formatFile file write force range language c ⟨s, m⟩).events) :
    ∃ d, (c.document file language s).value = .ok d ∧
      call ∈ formattings (Service.format c.machine { document := d, range, force }
        (c.document file language s).state).events := by
  rcases c.document_cases file language s with ⟨⟨failure, hf⟩, hes⟩ | ⟨d, hd, hn, -, -⟩
  · rw [(formatFile_of_error hf hes write force range m).1] at hm
    cases hm
  · refine ⟨d, hd, ?_⟩
    rw [formatFile_of_ok hd write force range m] at hm
    dsimp only at hm
    rwa [formattings_append, formattings_append, hn, List.nil_append,
      NeverFormats.formattings_eq (neverFormats_deliver file write d.text _), List.append_nil] at hm

/-- What the settings say about finding the formatter is the same for both
commands: the document lies in the workspace folder, or no setting is
relative to it. -/
theorem moduleFor_eq_handleFor {c : Context} {s : Service} {r : FormatRequest} {path : Path}
    (hsettings : s.settings = c.settings) (hworkspace : s.workspace = ⟨[c.root]⟩)
    (hp : r.document.path? = some path)
    (hin : path.startsWith c.root = true ∨ c.settings.prettierPath = none) :
    (Service.moduleFor c.machine (some path) (some c.root) c.settings s).value =
      handleFor c.machine s r := by
  have hfolder : s.folderOf r.document = if path.startsWith c.root then some c.root else none := by
    rw [folderOf, hp, hworkspace]
    exact Workspace.folderFor_singleton c.root path
  have hsearch : c.settings.resolverSettings c.machine.home (s.folderOf r.document) =
      c.settings.resolverSettings c.machine.home (some c.root) := by
    rcases hin with hin | hin
    · rw [hfolder, if_pos hin]
    · simp only [Settings.resolverSettings, hin, Option.bind_none]
  unfold handleFor Service.moduleFor
  simp only [hp, hsettings, hsearch]

/-! ## §4 Both commands -/

theorem reportOn_of_ok {c : Context} {s : Service} {file : Path} {language : Option String}
    {d : Document} {path : Path} {h : Handle} (hd : (c.document file language s).value = .ok d)
    (hp : d.path? = some path)
    (hh : (Service.moduleFor c.machine (some path) (some c.root) c.settings
      (c.document file language s).state).value = some h) :
    ∃ t : Service, (reportOn file language c s).value = .ok (examine c d path h t).value := by
  simp only [reportOn, bind_apply, hd, hp, Option.getD_some, Context.moduleFor, hh, pure_apply]
  exact ⟨_, rfl⟩

/-- **The parser that is reported and the parser that is used.** What `info`
prints is its report. Whenever `format` reaches its formatter, the `parser`
option of the call is what the formatter's answers come to when it is asked
with the project's plugins, ignore file and configuration. The report on the
same file under the same options names what its answers come to when it is
asked with none of these, so it names the parser that is used when they make
no difference to what the formatter infers nor, when it infers nothing, to
its language table. -/
theorem parsers_of_commands (m : Machine) (loader : Loader) (i : Invocation) (file : Path)
    (write force : Bool) (range language : Option String) :
    let run := execute m loader { i with command := .format file write force range language }
    let shown := execute m loader { i with command := .info file language }
    let report? := infoReport m loader i.options file language
    (shown.value = report?.map fun r => line r.toValue.pretty) ∧
    ∀ call ∈ formattings run.events, ∃ c s d path bounds h parser,
      Context.create m loader i.options = .ok (c, s) ∧
      (c.document file language s).value = .ok d ∧ d.path? = some path ∧
      ByteRange.parse? range = .ok bounds ∧
      let s := (c.document file language s).state
      let request : FormatRequest := { document := d, range := bounds, force }
      let situation := situationWith m s request h
      let choose := Parser.chosen h m (some path) d.language
      handleFor m s request = some h ∧
      choose (situation.fileInfo? m) situation.plugins = .ok parser ∧
      call.options.find? "parser" = some (.str parser) ∧
      (path.startsWith c.root = true ∨ c.settings.prettierPath = none →
        ∃ report, report? = .ok report ∧
          (report.file, report.language, report.handle) = (path, d.language, h) ∧
          report.parser = (choose (bareFileInfo c h path) []).toOption ∧
          ((bareFileInfo c h path).bind (·.inferredParser) =
              (situation.fileInfo? m).bind (·.inferredParser) →
            ((situation.fileInfo? m).bind (·.inferredParser) = none →
              h.formatter.supportInfo m [] = h.formatter.supportInfo m situation.plugins) →
            report.parser = some parser)) := by
  intro run shown report?
  refine ⟨execute_info m loader i file language, fun call hm => ?_⟩
  cases hprepare : prepare m loader { i with command := .format file write force range language } with
  | error e =>
    have hnone : run.events = [] := by
      simp only [run, execute, hprepare]
    rw [hnone] at hm
    cases hm
  | ok start =>
    obtain ⟨action, c, s⟩ := start
    obtain ⟨ha, hc, rfl⟩ := exists_of_prepare hprepare
    obtain ⟨bounds, hbounds, ha⟩ := exists_of_bind_eq_ok ha
    obtain rfl := Except.ok.inj ha
    have hrun : run.events =
        (formatFile file write force bounds language c ⟨s, c.machine⟩).events := by
      simp only [run, execute, hprepare]
    rw [hrun] at hm
    obtain ⟨d, hd, hm⟩ := formattings_formatFile hm
    obtain ⟨h, parser, hh, hchosen, rfl⟩ := exists_of_mem_formattings hm
    obtain ⟨path, hp⟩ := Context.exists_path_of_document hd
    obtain ⟨-, hsettings, hworkspace⟩ := Context.service_of_create hc
    let t := (c.document file language s).state
    have hsettings' : t.settings = c.settings :=
      (Context.keeps_document (f := Service.settings) (fun _ _ => rfl) c file language s).trans
        hsettings
    have hworkspace' : t.workspace = ⟨[c.root]⟩ :=
      (Context.keeps_document (f := Service.workspace) (fun _ _ => rfl) c file language s).trans
        hworkspace
    let request : FormatRequest := { document := d, range := bounds, force }
    let situation := situationWith c.machine t request h
    have hchoose : Parser.chosen h c.machine (some path) d.language
        (situation.fileInfo? c.machine) situation.plugins = .ok parser := by
      rw [← hchosen, Situation.parser, ← hp]
      rfl
    refine ⟨c, s, d, path, bounds, h, parser, hc, hd, hp, hbounds, hh, hchoose,
      Config.find?_parser_merge _ _ _, fun hin => ?_⟩
    have hfound := (moduleFor_eq_handleFor (r := request) hsettings' hworkspace' hp hin).trans hh
    obtain ⟨u, hreport⟩ := reportOn_of_ok hd hp hfound
    rw [examine_value] at hreport
    have hshown : report? = (reportOn file language c s).value := by
      simp only [report?, infoReport, hc, bind, Except.bind]
    refine ⟨_, hshown.trans hreport, rfl, rfl, fun hinfo htable => ?_⟩
    dsimp only
    rw [chosen_congr hinfo htable, hchoose]
    rfl

/-! ## §5 A parser that only a plugin knows -/

/-- A formatter in a project with a plugin, and the parser that it infers
for every file from the plugins that it is told of. -/
def inferring (infer : List String → Option String) : Loader :=
  ⟨fun _ _ => .ok
    { capabilities := .all
      format := fun _ text _ => .ok text
      supportInfo := fun _ _ => .ok ⟨[]⟩
      fileInfo := fun _ _ o => .ok { inferredParser := infer o.plugins }
      resolveConfig := fun _ _ _ => .ok (some [("plugins", .arr [.str "plugin"])]) }⟩

/-- A project with the package installed, and a file. -/
def projectWithFile : Machine :=
  { Resolver.nestedInstall with
    disk := Resolver.nestedInstall.disk.put ["p", "a", "x.foo"]
      (.file (Text.Utf8.encode ['x']) false) }

/-- The report on a file does not name the parser that is used for it: the
project's plugin knows one, and `info` does not ask for it. -/
theorem report_misses_plugin :
    ¬ ∀ (m : Machine) (loader : Loader) (i : Invocation) (file : Path) (write force : Bool)
        (range language : Option String),
      ∀ call ∈ formattings (execute m loader
          { i with command := .format file write force range language }).events,
        ∃ report, infoReport m loader i.options file language = .ok report ∧
          call.options.find? "parser" = report.parser.map .str := by
  intro h
  let loader := inferring fun plugins => plugins.head?
  let i : Invocation := { command := .info ⟨"a/x.foo"⟩ none }
  have hc := h projectWithFile loader i ⟨"a/x.foo"⟩ false false none none
  let run := execute projectWithFile loader
    { i with command := .format ⟨"a/x.foo"⟩ false false none none }
  have hcalls : (formattings run.events).map (fun call =>
      (call.options.find? "parser").bind Json.Value.str?) = [some "plugin"] := by
    decide +kernel
  have hreport : (infoReport projectWithFile loader i.options ⟨"a/x.foo"⟩ none).toOption.map
      (·.parser) = some none := by
    decide +kernel
  obtain ⟨call, hcall, hparser⟩ := List.map_eq_singleton_iff.mp hcalls
  obtain ⟨report, hshown, hsame⟩ := hc call (hcall ▸ List.mem_singleton_self call)
  rw [hshown] at hreport
  have hnone : report.parser = none := Option.some.inj hreport
  rw [hsame, hnone] at hparser
  cases hparser

end FormatHost.Cli
