/-
FormatHost.Proofs.Cli.Changes — which files the commands change.

A command looks at files and asks formatters, and the last thing that it
may do is to write one file. What it writes is a formatter's output, and it
writes when the formatter has answered: for `format` this shows in the last
status, for `init` in the answer itself. So a failure comes before the write
or is the failure of the write, and either way no file has changed.

* §1 a file as a document: reading it formats nothing;
* §2 `EndsWriting`: a run that ends with a write;
* §3 `format`;
* §4 `init`;
* §5 `info`;
* §6 `execute_changes`.
-/
import FormatHost.Cli.Commands
import FormatHost.Proofs.Disk.Writing
import FormatHost.Proofs.Service.Gates

namespace FormatHost.Cli

open Run Service

/-! ## §1 Documents -/

namespace Context

variable (c : Context)

theorem neverFormats_guessLanguage (path : Path) : NeverFormats (c.guessLanguage path) := by
  unfold guessLanguage moduleFor
  refine Emits.bind ((neverFormats_of_isLookup (emits_moduleFor _ _ _ _)).bind fun handle? => ?_)
    fun found => ?_
  · cases handle? <;> exact emits_pure _
  · cases found with
    | error e => exact emits_pure _
    | ok h =>
      refine Emits.bind (Emits.bind (emits_emit (by rfl)) fun _ => emits_pure _) fun info => ?_
      cases info with
      | ok info => exact emits_pure _
      | error e => exact Emits.bind (emits_warn (by rfl)) fun _ => emits_pure _

/-- A file is a document when it can be read and its path is absolute; when
it is none, nobody was asked anything. -/
theorem document_cases (file : Path) (language? : Option String) (s : Service) :
    let o := c.document file language? s
    (∃ e, o.value = .error e) ∧ o.events = [] ∨
      ∃ d, o.value = .ok d ∧ formattings o.events = [] ∧
        (c.machine.absolute file).isAbsolute = true ∧
        c.machine.readText (c.machine.absolute file) = .ok d.text := by
  have hlanguage : NeverFormats (c.languageOf (c.machine.absolute file) language?) := by
    cases language? with
    | none => exact neverFormats_guessLanguage c _
    | some language => exact emits_pure _
  unfold document
  cases ht : c.machine.readText (c.machine.absolute file) with
  | error e => exact .inl ⟨⟨_, rfl⟩, rfl⟩
  | ok text =>
    cases hu : Uri.ofFilePath? (c.machine.absolute file) with
    | none => exact .inl ⟨⟨_, rfl⟩, rfl⟩
    | some uri =>
      have ha : (c.machine.absolute file).isAbsolute = true := by
        unfold Uri.ofFilePath? at hu
        split at hu
        · assumption
        · cases hu
      refine .inr ⟨_, rfl, ?_, ha, rfl⟩
      have hn : NeverFormats (do
          let language ← c.languageOf (c.machine.absolute file) language?
          return Except.ok (ε := CommandFailure) (⟨uri, language, text⟩ : Document)) :=
        hlanguage.bind fun _ => emits_pure _
      exact hn.formattings_eq s

end Context

/-! ## §2 Writing -/

/-- The run ends by writing a text to a file. If that succeeds so does the
run, and of all files this one alone has changed and holds the text. If not,
the run fails, and nothing has changed. -/
def EndsWriting (m : Machine) (file : Path) (text : String)
    (result : Except CommandFailure String) (after : Machine) : Prop :=
  match m.disk.writeText m.cwd file text with
  | .ok _ => (∃ printed, result = .ok printed) ∧ FileChanged m after file ∧
      after.disk.readBytes after.cwd file = .ok (Text.Utf8.encode text.toList)
  | .error _ => (∃ e, result = .error e) ∧ after = m

/-- What a write that succeeded leaves. -/
theorem endsWriting_of_ok {m : Machine} {file : Path} {text : String} {disk : Disk}
    (hw : m.disk.writeText m.cwd file text = .ok disk) (printed : String) :
    EndsWriting m file text (.ok printed) { m with disk } := by
  unfold EndsWriting
  rw [hw]
  exact ⟨⟨printed, rfl⟩, fileChanged_of_writeText hw, readBytes_of_writeText hw⟩

theorem endsWriting_of_error {m : Machine} {file : Path} {text : String} {e : IoError}
    (hw : m.disk.writeText m.cwd file text = .error e) (failure : CommandFailure) :
    EndsWriting m file text (.error failure) m := by
  unfold EndsWriting
  rw [hw]
  exact ⟨⟨failure, rfl⟩, rfl⟩

/-- A run that fails by its write has changed nothing. -/
theorem EndsWriting.eq_of_error {m after : Machine} {file : Path} {text : String}
    {result : Except CommandFailure String} (h : EndsWriting m file text result after)
    {e : CommandFailure} (he : result = .error e) : after = m := by
  unfold EndsWriting at h
  split at h
  · obtain ⟨⟨printed, hprinted⟩, -⟩ := h
    rw [he] at hprinted
    cases hprinted
  · exact h.2

theorem Desk.writeText_apply (file : Path) (text : String) (d : Desk) :
    Desk.writeText file text d =
      match d.machine.disk.writeText d.machine.cwd file text with
      | .error e => ⟨.error e, d, []⟩
      | .ok disk => ⟨.ok (), { d with machine := { d.machine with disk } }, []⟩ := by
  unfold Desk.writeText
  rw [get_bind_apply]
  dsimp only
  cases d.machine.disk.writeText d.machine.cwd file text with
  | error e => rfl
  | ok disk => rfl

/-! ## §3 Formatting -/

/-- The last status lets the formatted text be used. -/
def Delivers (es : List Event) : Prop :=
  lastStatus es = some .success ∨ lastStatus es = some .warn

instance (es : List Event) : Decidable (Delivers es) := inferInstanceAs (Decidable (_ ∨ _))

/-- Of all formatters one is called, once and with the request's text: the
one that the request gets from the service. It answers `output`. -/
def FormatsTo (m : Machine) (s : Service) (r : FormatRequest) (es : List Event)
    (output : String) : Prop :=
  ∃ h options, handleFor m s r = some h ∧
    formattings es = [⟨h.origin, r.document.text, options⟩] ∧
    h.formatter.format m r.document.text options = .ok output

theorem writeBack_self (file : Path) (before : String) (d : Desk) :
    writeBack file before before d = ⟨.ok "", d, []⟩ := by
  unfold writeBack
  rw [if_pos rfl]
  rfl

/-- A text that has changed is written. -/
theorem writeBack_ends {file : Path} {before after : String} (hne : after ≠ before) (d : Desk) :
    let o := writeBack file before after d
    o.events = [] ∧ EndsWriting d.machine file after o.value o.state.machine := by
  intro o
  simp only [o, writeBack, if_neg hne, bind_apply, Desk.writeText_apply]
  cases hw : d.machine.disk.writeText d.machine.cwd file after with
  | error e => exact ⟨rfl, endsWriting_of_error hw _⟩
  | ok disk => exact ⟨rfl, endsWriting_of_ok hw _⟩

/-- What the end of a command comes to by the status that is shown. -/
theorem deliver_ends (file : Path) (write : Bool) (before after : String) (d : Desk)
    {es : List Event} (hbar : d.service.statusBar.current = lastStatus es)
    (hsame : ¬ Delivers es → after = before) :
    let o := deliver file write before after d
    o.events = [] ∧
      if write = true ∧ Delivers es then
        if after = before then (∃ printed, o.value = .ok printed) ∧ o.state.machine = d.machine
        else EndsWriting d.machine file after o.value o.state.machine
      else o.state.machine = d.machine := by
  intro o
  simp only [o, deliver]
  rw [get_bind_apply, hbar]
  by_cases herror : lastStatus es = some .error
  · have hd : ¬ Delivers es := by simp [Delivers, herror]
    rw [if_pos herror, if_neg fun h => hd h.2]
    exact ⟨rfl, rfl⟩
  rw [if_neg herror]
  cases write with
  | false =>
    rw [if_neg Bool.false_ne_true, if_neg fun h => Bool.false_ne_true h.1]
    exact ⟨rfl, rfl⟩
  | true =>
    rw [if_pos rfl]
    by_cases hab : after = before
    · subst hab
      rw [writeBack_self, if_pos rfl]
      refine ⟨rfl, ?_⟩
      split
      · exact ⟨⟨_, rfl⟩, rfl⟩
      · rfl
    · rw [if_pos ⟨rfl, Decidable.not_not.mp fun hd => hab (hsame hd)⟩, if_neg hab]
      exact writeBack_ends hab d

/-- When the file is no document, nobody is asked and the run fails. -/
theorem formatFile_of_error {c : Context} {s : Service} {file : Path} {language : Option String}
    {failure : CommandFailure} (hf : (c.document file language s).value = .error failure)
    (hes : (c.document file language s).events = []) (write force : Bool)
    (range : Option (Nat × Nat)) (m : Machine) :
    let o := formatFile file write force range language c ⟨s, m⟩
    o.events = [] ∧ o.state.machine = m := by
  simp only [formatFile, bind_apply, Desk.ask_apply, hf, hes]
  exact ⟨rfl, rfl⟩

/-- When it is one, the service formats it, and what that gives is
delivered. -/
theorem formatFile_of_ok {c : Context} {s : Service} {file : Path} {language : Option String}
    {d : Document} (hd : (c.document file language s).value = .ok d) (write force : Bool)
    (range : Option (Nat × Nat)) (m : Machine) :
    let opened := c.document file language s
    let f := Service.format c.machine { document := d, range, force } opened.state
    let last := deliver file write d.text f.value ⟨f.state, m⟩
    formatFile file write force range language c ⟨s, m⟩ =
      ⟨last.value, last.state, opened.events ++ (f.events ++ last.events)⟩ := by
  simp only [formatFile, bind_apply, Desk.ask_apply, hd]

/-- **A command to format** writes when it is told to and the last status is
`success` or `warn`, and then what the formatter answered to the file's
text. -/
theorem formatFile_ends (c : Context) (s : Service) (file : Path) (write force : Bool)
    (range : Option (Nat × Nat)) (language : Option String) :
    let opened := c.document file language s
    let o := formatFile file write force range language c ⟨s, c.machine⟩
    if write = true ∧ Delivers o.events then
      ∃ d output, opened.value = .ok d ∧ c.machine.readText file = .ok d.text ∧
        FormatsTo c.machine opened.state { document := d, range, force } o.events output ∧
        if output = d.text then (∃ printed, o.value = .ok printed) ∧ o.state.machine = c.machine
        else EndsWriting c.machine file output o.value o.state.machine
    else o.state.machine = c.machine := by
  intro opened o
  rcases c.document_cases file language s with ⟨⟨failure, hf⟩, hes⟩ | ⟨d, hd, hn, ha, ht⟩
  · obtain ⟨hevents, hmachine⟩ := formatFile_of_error hf hes write force range c.machine
    rw [hevents, if_neg (by simp [Delivers, lastStatus])]
    exact hmachine
  · let r : FormatRequest := { document := d, range, force }
    let f := Service.format c.machine r opened.state
    obtain ⟨-, hgates, hbar⟩ := format_gates c.machine opened.state r
    obtain ⟨-, hshown, -, -⟩ := format_follows c.machine opened.state r
    let last := deliver file write d.text f.value ⟨f.state, c.machine⟩
    obtain ⟨hquiet, hends⟩ := deliver_ends file write d.text f.value ⟨f.state, c.machine⟩ hbar
      fun hno => by
        rw [Delivers] at hno
        rw [if_neg hno] at hgates
        exact hgates
    have ho : o = ⟨last.value, last.state, opened.events ++ (f.events ++ last.events)⟩ :=
      formatFile_of_ok hd write force range c.machine
    rw [show last.events = [] from hquiet, List.append_nil] at ho
    have hlast : Delivers o.events ↔ Delivers f.events := by
      rw [Delivers, Delivers, ho, lastStatus_append, hshown]
      rfl
    have hvalue : o.value = last.value := by rw [ho]
    have hstate : o.state = last.state := by rw [ho]
    rw [← hvalue, ← hstate] at hends
    split
    · rename_i hw
      rw [if_pos ⟨hw.1, hlast.mp hw.2⟩] at hends
      have hyes := hlast.mp hw.2
      rw [Delivers] at hyes
      rw [if_pos hyes] at hgates
      obtain ⟨h, options, hh, hcalls, hout⟩ := hgates
      refine ⟨d, f.value, hd, Machine.readText_of_absolute ha ht,
        ⟨h, options, hh, ?_, hout⟩, hends⟩
      rw [ho, formattings_append, hn, List.nil_append, hcalls]
    · rename_i hw
      rw [if_neg fun h => hw ⟨h.1, hlast.mpr h.2⟩] at hends
      exact hends

/-! ## §4 Starting -/

/-- Writing the starter configuration calls `format` once, and then it may
write. -/
theorem writeStarter_ends (h : Handle) (folder : Path) (d : Desk) :
    let file := folder / Template.fileName
    let text := (Json.Value.obj Template.starter).pretty
    let options := Template.formatOptions file
    let o := writeStarter h folder d
    o.events = [.call h.origin (.format text options)] ∧
      match h.formatter.format d.machine text options with
      | .error _ => (∃ e, o.value = .error e) ∧ o.state.machine = d.machine
      | .ok output => EndsWriting d.machine file output o.value o.state.machine := by
  intro file text options o
  simp only [o, writeStarter, Template.write, Handle.format, get_apply, bind_apply, emit_apply,
    pure_apply]
  cases h.formatter.format d.machine text options with
  | error e => exact ⟨rfl, ⟨_, rfl⟩, rfl⟩
  | ok output =>
    dsimp only
    cases hw : d.machine.disk.writeText d.machine.cwd file output with
    | error e => exact ⟨rfl, endsWriting_of_error hw _⟩
    | ok disk => exact ⟨rfl, endsWriting_of_ok hw _⟩

/-- **A command to start** writes what the formatter made of the starter
configuration, or it fails and writes nothing. -/
theorem initFolder_ends (c : Context) (s : Service) (dir : Option Path) :
    let o := initFolder dir c ⟨s, c.machine⟩
    let file := dir.getD c.root / Template.fileName
    let text := (Json.Value.obj Template.starter).pretty
    let options := Template.formatOptions file
    (∃ e, o.value = .error e) ∧ o.state.machine = c.machine ∨
      ∃ h output, (moduleFor c.machine none (some c.root) c.settings s).value = some h ∧
        formattings o.events = [⟨h.origin, text, options⟩] ∧
        h.formatter.format c.machine text options = .ok output ∧
        EndsWriting c.machine file output o.value o.state.machine := by
  intro o file text options
  cases hv : (moduleFor c.machine none (some c.root) c.settings s).value with
  | none =>
    refine .inl ?_
    simp only [o, initFolder, bind_apply, Desk.ask_apply, hv]
    exact ⟨⟨_, rfl⟩, rfl⟩
  | some h =>
    let found := moduleFor c.machine none (some c.root) c.settings s
    have hn : formattings found.events = [] := (neverFormats_of_isLookup
      (emits_moduleFor c.machine none (some c.root) c.settings)).formattings_eq s
    let last := writeStarter h (dir.getD c.root) ⟨found.state, c.machine⟩
    obtain ⟨hes, hends⟩ := writeStarter_ends h (dir.getD c.root) ⟨found.state, c.machine⟩
    have ho : o = ⟨last.value, last.state, found.events ++ last.events⟩ := by
      simp only [o, initFolder, bind_apply, Desk.ask_apply, hv]
      rfl
    have hvalue : o.value = last.value := by rw [ho]
    have hstate : o.state = last.state := by rw [ho]
    dsimp only at hends
    rw [← hvalue, ← hstate] at hends
    cases hf : h.formatter.format c.machine text options with
    | error failure =>
      rw [hf] at hends
      exact .inl hends
    | ok output =>
      rw [hf] at hends
      refine .inr ⟨h, output, rfl, ?_, hf, hends⟩
      rw [ho, formattings_append, hn, show last.events = _ from hes]
      rfl

/-! ## §5 Showing -/

/-- What is asked of the service changes no file. -/
theorem Desk.keeps_ask {α : Type} (x : Run Service α) : Keeps Desk.machine (Desk.ask x) :=
  keeps_on x fun _ _ => rfl

/-- **A command to show** changes no file. -/
theorem keeps_showFile (file : Path) (language : Option String) (c : Context) :
    Keeps Desk.machine (showFile file language c) := by
  unfold showFile
  refine (Desk.keeps_ask _).bind fun opened => ?_
  cases opened with
  | error e => exact keeps_pure _
  | ok d =>
    refine (Desk.keeps_ask _).bind fun found => ?_
    cases found with
    | error e => exact keeps_pure _
    | ok h => exact (Desk.keeps_ask _).bind fun report => keeps_pure _

/-! ## §6 All commands -/

/-- A command works on the machine that it was started on. -/
theorem Context.machine_of_create {m : Machine} {loader : Loader} {o : GlobalOptions}
    {c : Context} {s : Service} (h : Context.create m loader o = .ok (c, s)) : c.machine = m := by
  obtain ⟨settings, -, h⟩ := exists_of_bind_eq_ok h
  obtain ⟨bundled, -, h⟩ := exists_of_bind_eq_ok h
  cases h
  rfl

/-- A command that has started has an action, and a context on the machine
that it was started on. -/
theorem exists_of_prepare {m : Machine} {loader : Loader} {i : Invocation} {action : Action}
    {c : Context} {s : Service} (h : prepare m loader i = .ok (action, c, s)) :
    i.command.action = .ok action ∧ Context.create m loader i.options = .ok (c, s) ∧
      c.machine = m := by
  obtain ⟨action', ha, h⟩ := exists_of_bind_eq_ok h
  obtain ⟨⟨c', s'⟩, hc, h⟩ := exists_of_bind_eq_ok h
  cases h
  exact ⟨ha, hc, Context.machine_of_create hc⟩

/-- What a run may leave of the machine, by its command. -/
def Changes (m : Machine) (loader : Loader) (i : Invocation)
    (o : Outcome Machine (Except CommandFailure String)) : Prop :=
  match i.command with
  | .info _ _ => o.state = m
  | .format file write force written language =>
    if write = true ∧ Delivers o.events then
      ∃ c s d range output, ByteRange.parse? written = .ok range ∧
        Context.create m loader i.options = .ok (c, s) ∧
        (c.document file language s).value = .ok d ∧ m.readText file = .ok d.text ∧
        FormatsTo m (c.document file language s).state { document := d, range, force } o.events
          output ∧
        if output = d.text then (∃ printed, o.value = .ok printed) ∧ o.state = m
        else EndsWriting m file output o.value o.state
    else o.state = m
  | .init dir =>
    (∃ e, o.value = .error e) ∧ o.state = m ∨
      ∃ c s h output, Context.create m loader i.options = .ok (c, s) ∧
        (Service.moduleFor m none (some c.root) c.settings s).value = some h ∧
        formattings o.events =
          [⟨h.origin, (Json.Value.obj Template.starter).pretty,
            Template.formatOptions (dir.getD c.root / Template.fileName)⟩] ∧
        h.formatter.format m (Json.Value.obj Template.starter).pretty
          (Template.formatOptions (dir.getD c.root / Template.fileName)) = .ok output ∧
        EndsWriting m (dir.getD c.root / Template.fileName) output o.value o.state

/-- A run that fails has changed nothing. -/
theorem Changes.eq_of_error {m : Machine} {loader : Loader} {i : Invocation}
    {o : Outcome Machine (Except CommandFailure String)} (h : Changes m loader i o)
    {e : CommandFailure} (he : o.value = .error e) : o.state = m := by
  unfold Changes at h
  split at h
  · exact h
  · split at h
    · obtain ⟨c, s, d, range, output, -, -, -, -, -, h⟩ := h
      split at h
      · exact h.2
      · exact h.eq_of_error he
    · exact h
  · rcases h with h | ⟨c, s, handle, output, -, -, -, -, h⟩
    · exact h.2
    · exact h.eq_of_error he

theorem changes_execute (m : Machine) (loader : Loader) (i : Invocation) :
    Changes m loader i (execute m loader i) := by
  cases hp : prepare m loader i with
  | error failure =>
    have ho : execute m loader i = ⟨.error failure, m, []⟩ := by rw [execute, hp]
    rw [ho, Changes]
    split
    · rfl
    · rw [if_neg (by simp [Delivers, lastStatus])]
    · exact .inl ⟨⟨_, rfl⟩, rfl⟩
  | ok start =>
    obtain ⟨action, c, s⟩ := start
    have ho : execute m loader i =
        ⟨(action c ⟨s, m⟩).value, (action c ⟨s, m⟩).state.machine, (action c ⟨s, m⟩).events⟩ := by
      rw [execute, hp]
    obtain ⟨ha, hc, rfl⟩ := exists_of_prepare hp
    rw [ho, Changes]
    cases hcommand : i.command with
    | format file write force written language =>
      rw [hcommand] at ha
      obtain ⟨range, hrange, ha⟩ := exists_of_bind_eq_ok ha
      obtain rfl := Except.ok.inj ha
      have hends := formatFile_ends c s file write force range language
      dsimp only at hends ⊢
      split
      · rename_i hw
        rw [if_pos hw] at hends
        obtain ⟨d, output, hends⟩ := hends
        exact ⟨c, s, d, range, output, hrange, hc, hends⟩
      · rename_i hw
        rw [if_neg hw] at hends
        exact hends
    | init dir =>
      rw [hcommand] at ha
      obtain rfl := Except.ok.inj ha
      rcases initFolder_ends c s dir with hends | ⟨h, output, hends⟩
      · exact .inl hends
      · exact .inr ⟨c, s, h, output, hc, hends⟩
    | info file language =>
      rw [hcommand] at ha
      obtain rfl := Except.ok.inj ha
      exact keeps_showFile file language c ⟨s, c.machine⟩

/-- **Commands change files only where they are to, and only with what a
formatter has answered.** A command that fails leaves the machine as it was,
and so do `info` and `format` without `--write`. With it, `format` writes
its file alone, when the last status is `success` or `warn`: to the answer
of the one formatter that was asked, if this is not the file's text already.
`init` writes the starter configuration of its folder alone, to the
formatter's answer. -/
theorem execute_changes (m : Machine) (loader : Loader) (i : Invocation) :
    let o := execute m loader i
    ((∃ e, o.value = .error e) → o.state = m) ∧ Changes m loader i o := by
  intro o
  have h := changes_execute m loader i
  exact ⟨fun ⟨_, he⟩ => h.eq_of_error he, h⟩

end FormatHost.Cli
