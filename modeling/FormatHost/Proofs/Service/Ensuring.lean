/-
FormatHost.Proofs.Service.Ensuring — having a folder registered, call after
call.

A call for a folder that is registered answers its registration and does
nothing. A call for another one looks for a formatter and asks it for its
languages; what fails on the way is reported, and only the last step touches
the registrations. So a call that answers no registration has told the editor
of none, and of all calls in a row at most the first that answers one has.

* §1 what the editor hears of one call, and what is shown of a failure;
* §2 calls in a row: `ensureAll`;
* §3 `ensureRegistered_once`.
-/
import FormatHost.Proofs.Service.Registered

namespace FormatHost.Service

open Run

/-! ## §1 One call -/

/-- The beginning of a registration that was made for a folder. -/
def beginning (folder : Option Path) (priority : Int32) (registration : Registration) : Event :=
  .register folder registration.selectors priority

section OneCall

variable (m : Machine) (folder : Option Path) (d? : Option Document)

theorem heard_register (selectors : Selectors) (priority : Int32) {s : Service}
    (hs : s.registrations.get? folder = none) :
    let o := onRegistrations (Registrations.register folder selectors priority) s
    o.events.filter Event.isRegistrar = [beginning folder priority o.value] := by
  have hend : (Registrations.invalidate folder s.registrations).events = [] := by
    rw [Registrations.invalidate_apply, hs]
    rfl
  simp only [onRegistrations, on_apply, Registrations.register_apply, hend]
  rfl

/-- Where the folder is not registered, the editor hears of the registration
that is made, and of nothing else. -/
theorem heard_registerHandle (h : Handle) (settings : Settings) {s : Service}
    (hs : s.registrations.get? folder = none) :
    let o := registerHandle m h folder d? settings s
    o.events.filter Event.isRegistrar =
      o.value.toList.map (beginning folder settings.formatterPriority) := by
  have hplugins := leaves_registrationPlugins m h d? settings folder
  have hinfo := leaves_supportInfo m h (registrationPlugins m h d? settings folder s).value
  -- the state in which the registration is made
  have hkeeps := (hinfo.keeps (registrationPlugins m h d? settings folder s).state).trans
    (hplugins.keeps s)
  rw [← hkeeps] at hs
  unfold registerHandle
  dsimp only
  rw [hplugins.filter_bind, hinfo.filter_bind, bind_apply, bind_apply]
  cases (h.supportInfo m (registrationPlugins m h d? settings folder s).value
    (registrationPlugins m h d? settings folder s).state).value with
  | error e => exact (leaves_report _ _ none).filter_events _
  | ok info =>
    dsimp only
    rw [bind_apply, List.filter_append, heard_register folder _ _ hs]
    rfl

theorem heard_ensureRegistered {s : Service} (hs : s.registrations.get? folder = none) :
    let o := ensureRegistered m folder d? s
    o.events.filter Event.isRegistrar =
      o.value.toList.map (beginning folder s.settings.formatterPriority) := by
  have hfind := leaves_moduleFor m folder folder s.settings
  have hregistrations := hfind.keeps s
  unfold ensureRegistered
  dsimp only
  rw [get_bind_apply, hs]
  dsimp only
  rw [hfind.filter_bind, bind_apply]
  cases (moduleFor m folder folder s.settings s).value with
  | none => exact (leaves_report _ _ none).filter_events _
  | some h => exact heard_registerHandle m folder d? h s.settings (by rw [hregistrations, hs])

/-- A failure is shown last. -/
theorem shown_report (text : String) (a : Option Registration) (es : List Event) (t : Service) :
    let o := (Run.error text >>= fun _ => showStatus .error >>= fun _ => pure a) t
    lastStatus (es ++ o.events) = some .error ∧ o.state.statusBar.current = some .error := by
  have hreport : NeverFormats (Run.error text : Run Service Unit) := emits_error (by rfl)
  exact (showStatus_ends hreport .error a es t).2.2

theorem shown_registerHandle (h : Handle) (settings : Settings) {s : Service}
    (hv : (registerHandle m h folder d? settings s).value = none) (es : List Event) :
    let o := registerHandle m h folder d? settings s
    lastStatus (es ++ o.events) = some .error ∧ o.state.statusBar.current = some .error := by
  unfold registerHandle at hv ⊢
  simp only [bind_apply, Handle.supportInfo, pure_apply] at hv ⊢
  cases hi : h.formatter.supportInfo m (registrationPlugins m h d? settings folder s).value with
  | error e =>
    rw [← List.append_assoc, ← List.append_assoc]
    exact shown_report _ none _ _
  | ok info =>
    rw [hi] at hv
    cases hv

/-- **A call that answers no registration** shows an error, and nothing after
it. -/
theorem shown_ensureRegistered {s : Service}
    (hv : (ensureRegistered m folder d? s).value = none) :
    let o := ensureRegistered m folder d? s
    lastStatus o.events = some .error ∧ o.state.statusBar.current = some .error := by
  cases hs : s.registrations.get? folder with
  | some registration =>
    rw [ensureRegistered_of_registered m folder d? hs] at hv
    cases hv
  | none =>
    unfold ensureRegistered at hv ⊢
    rw [get_bind_apply, hs] at hv ⊢
    simp only [bind_apply] at hv ⊢
    cases hm : (moduleFor m folder folder s.settings s).value with
    | none => exact shown_report _ none _ _
    | some h =>
      rw [hm] at hv
      exact shown_registerHandle m folder d? h s.settings hv _

/-- **What one call leaves behind**, in any state. -/
theorem ensureRegistered_leaves (s : Service) :
    let o := ensureRegistered m folder d? s
    match o.value with
    | none => o.state.registrations = s.registrations ∧
        o.events.filter Event.isRegistrar = [] ∧
        lastStatus o.events = some .error ∧ o.state.statusBar.current = some .error
    | some registration => o.state.registrations.get? folder = some registration := by
  cases hr : s.registrations.get? folder with
  | some registration =>
    rw [ensureRegistered_of_registered m folder d? hr]
    exact hr
  | none =>
    have hheard := heard_ensureRegistered m folder d? hr
    have hleft := (ensureRegistered_state m folder d? hr).2
    have hshown := shown_ensureRegistered m folder d? (s := s)
    dsimp only at hheard hleft ⊢
    cases hv : (ensureRegistered m folder d? s).value with
    | some registration =>
      rw [hv] at hleft
      exact hleft
    | none =>
      rw [hv] at hleft hheard
      exact ⟨hleft, hheard, hshown hv⟩

end OneCall

/-! ## §2 Calls in a row -/

/-- Have a folder registered again and again; the answers, in order. -/
def ensureAll (folder : Option Path) :
    List (Machine × Option Document) → Run Service (List (Option Registration))
  | [] => pure []
  | (m, d?) :: calls => do
    let registration? ← ensureRegistered m folder d?
    let rest ← ensureAll folder calls
    return registration? :: rest

section Calls

variable (folder : Option Path) (calls : List (Machine × Option Document))

theorem ensureAll_of_registered {s : Service} {registration : Registration}
    (h : s.registrations.get? folder = some registration) :
    ensureAll folder calls s = ⟨List.replicate calls.length (some registration), s, []⟩ := by
  induction calls with
  | nil => rfl
  | cons call calls ih =>
    obtain ⟨m, d?⟩ := call
    simp only [ensureAll, bind_apply, ensureRegistered_of_registered m folder d? h, ih, pure_apply,
      List.length_cons, List.replicate_succ]
    rfl

/-- **Calls in a row for a folder that is not registered.** All fail and leave
the registrations alone; or after some that fail one makes the registration,
which all later ones answer. -/
theorem ensureAll_of_unregistered {s : Service} (hs : s.registrations.get? folder = none) :
    let o := ensureAll folder calls s
    let heard := o.events.filter Event.isRegistrar
    (o.value = List.replicate calls.length none ∧
      o.state.registrations = s.registrations ∧ heard = []) ∨
    ∃ failed registration, failed < calls.length ∧
      o.value = List.replicate failed none ++
        List.replicate (calls.length - failed) (some registration) ∧
      o.state.registrations.get? folder = some registration ∧
      heard = [beginning folder s.settings.formatterPriority registration] := by
  induction calls generalizing s with
  | nil => exact .inl ⟨rfl, rfl, rfl⟩
  | cons call calls ih =>
    obtain ⟨m, d?⟩ := call
    have hheard := heard_ensureRegistered m folder d? hs
    have hleft := (ensureRegistered_state m folder d? hs).2
    have hsettings := keeps_ensureRegistered m d? folder (f := Service.settings)
      (fun _ _ => rfl) (fun _ _ => rfl) (fun _ _ => rfl) s
    dsimp only at hheard
    simp only [ensureAll, bind_apply, pure_apply, List.append_nil, List.filter_append]
    cases hv : (ensureRegistered m folder d? s).value with
    | some registration =>
      rw [hv] at hheard hleft
      have hrest := ensureAll_of_registered folder calls hleft
      refine .inr ⟨0, registration, Nat.succ_pos _, ?_, ?_, ?_⟩
      · rw [hrest]
        rfl
      · rw [hrest]
        exact hleft
      · rw [hrest, hheard]
        rfl
    | none =>
      rw [hv] at hheard hleft
      rw [← hleft] at hs
      have hrest := ih hs
      rw [hleft, hsettings] at hrest
      rcases hrest with ⟨hvalue, hstate, hnone⟩ | ⟨failed, registration, hlt, hvalue, hget, hone⟩
      · refine .inl ⟨?_, hstate, ?_⟩
        · rw [hvalue]
          rfl
        · rw [hheard, hnone]
          rfl
      · refine .inr ⟨failed + 1, registration, Nat.succ_lt_succ hlt, ?_, hget, ?_⟩
        · rw [hvalue, List.length_cons, Nat.succ_sub_succ]
          rfl
        · rw [hheard, hone]
          rfl

end Calls

/-! ## §3 Once -/

/-- What is heard of a folder whose registration does not end: nothing, or the
beginning of one where there was none. -/
theorem heard_of_turn {before after : Option Registration} {heard : List Registrations.Notice}
    (h : Registrations.Turn before heard after) (hn : .ended ∉ heard) :
    (heard = [] ∧ after = before) ∨
      ∃ registration, before = none ∧ heard = [.begun registration.selectors] ∧
        after = some registration := by
  cases h with
  | quiet => exact .inl ⟨rfl, rfl⟩
  | ends r => simp at hn
  | begins r => exact .inr ⟨r, rfl, rfl, rfl⟩
  | replaces r r' => simp at hn

/-- **A folder is registered once.** In the state after any run, for every
folder, machine and document: a call that answers no registration leaves the
registrations as they are, tells the editor of none and shows an error last;
one that answers a registration leaves it as the folder's. Where the folder is
registered a call does nothing but answer that. So calls in a row tell the
editor of nothing where the folder is registered or none of them answers a
registration, and else of exactly one beginning, whose registration all later
calls answer. Nor does anything else that is asked of the service make a second
one: until the folder's registration ends, at most one begins, where there was
none. -/
theorem ensureRegistered_once (package : String) (loader : Loader) (bundled : Option Install)
    (settings : Settings) (folders : List Path) (statusBar : StatusBar)
    (steps : List (Machine × Operation)) (folder : Option Path) :
    let s := (runAll steps (fresh package loader bundled settings folders statusBar)).state
    (∀ m d?, let o := ensureRegistered m folder d? s
      match o.value with
      | none => o.state.registrations = s.registrations ∧
          o.events.filter Event.isRegistrar = [] ∧
          lastStatus o.events = some .error ∧ o.state.statusBar.current = some .error
      | some registration => o.state.registrations.get? folder = some registration) ∧
    (∀ registration, s.registrations.get? folder = some registration →
      (∀ m d?, ensureRegistered m folder d? s = ⟨some registration, s, []⟩) ∧
      ∀ calls, ensureAll folder calls s =
        ⟨List.replicate calls.length (some registration), s, []⟩) ∧
    (s.registrations.get? folder = none → ∀ calls,
      let o := ensureAll folder calls s
      let heard := o.events.filter Event.isRegistrar
      (o.value = List.replicate calls.length none ∧
        o.state.registrations = s.registrations ∧ heard = []) ∨
      ∃ failed registration, failed < calls.length ∧
        o.value = List.replicate failed none ++
          List.replicate (calls.length - failed) (some registration) ∧
        o.state.registrations.get? folder = some registration ∧
        heard = [.register folder registration.selectors s.settings.formatterPriority]) ∧
    ∀ more : List (Machine × Operation),
      let o := runAll more s
      let heard := Registrations.notices folder o.events
      .ended ∉ heard →
        (heard = [] ∧ o.state.registrations.get? folder = s.registrations.get? folder) ∨
        ∃ registration, s.registrations.get? folder = none ∧
          heard = [.begun registration.selectors] ∧
          o.state.registrations.get? folder = some registration := by
  intro s
  have hs : s.Reachable := ⟨package, loader, bundled, settings, folders, statusBar, steps, rfl⟩
  exact ⟨fun m d? => ensureRegistered_leaves m folder d? s,
    fun registration h => ⟨fun m d? => ensureRegistered_of_registered m folder d? h,
      fun calls => ensureAll_of_registered folder calls h⟩,
    fun h calls => ensureAll_of_unregistered folder calls h,
    fun more hn => heard_of_turn (turn_runAll hs.distinct more hn) hn⟩

/-- A loader of formatters that know their languages where programs can be
looked for. -/
def lateLoader : Loader :=
  ⟨fun _ _ => .ok
    { format := fun _ text _ => .ok text
      supportInfo := fun m _ => if m.searchPath.isEmpty then .error .invalidOutput else .ok ⟨[]⟩ }⟩

/-- Three calls in a row: the first fails, for the formatter does not know its
languages; the second makes the registration; the third, under the conditions
of the first, answers it. The editor has heard of one. -/
theorem ensureRegistered_once_late :
    let folder : Option Path := some ⟨"/p/a"⟩
    let start := fresh defaultPackage lateLoader none {} [⟨"/p/a"⟩] { text := "" }
    let early := Resolver.nestedInstall
    let late := { Resolver.nestedInstall with searchPath := [⟨"/bin"⟩] }
    let steps : List (Machine × Operation) := [(early, .register folder none)]
    let calls : List (Machine × Option Document) := [(early, none), (late, none), (early, none)]
    let s := (runAll steps start).state
    let o := ensureAll folder calls s
    s.registrations.get? folder = none ∧
    ∃ registration, o.value = [none, some registration, some registration] ∧
      o.state.registrations.get? folder = some registration ∧
      o.events.filter Event.isRegistrar =
        [.register folder registration.selectors s.settings.formatterPriority] := by
  intro folder start early late steps calls s o
  have hnone : s.registrations.get? folder = none :=
    Option.isNone_iff_eq_none.mp (by decide +kernel)
  have hvalues : o.value.map Option.isSome = [false, true, true] := by decide +kernel
  have hlength : calls.length = 3 := rfl
  -- from here on the steps and the calls are any, and nothing is computed
  clear_value steps calls
  have hcalls := (ensureRegistered_once defaultPackage lateLoader none {} [⟨"/p/a"⟩]
    { text := "" } steps folder).2.2.1 hnone calls
  refine ⟨hnone, ?_⟩
  rw [hlength] at hcalls
  obtain ⟨hvalue, -⟩ | ⟨failed, registration, hlt, hvalue, hget, hheard⟩ := hcalls
  · rw [hvalue] at hvalues
    simp at hvalues
  · have hfailed : failed = 1 := by
      rw [hvalue] at hvalues
      match failed, hlt with
      | 0, _ => simp at hvalues
      | 1, _ => rfl
      | 2, _ => simp at hvalues
    subst hfailed
    exact ⟨registration, hvalue, hget, hheard⟩

end FormatHost.Service
