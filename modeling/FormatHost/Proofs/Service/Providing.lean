/-
FormatHost.Proofs.Service.Providing — the readiness check and the edits that
are provided agree.

The readiness check asks for the language, then has the folder registered,
then looks at the ignore file and last at the selectors. Providing edits has
the folder registered first, looks at the selectors, and leaves the rest to
the gates of a request. Each way not to be ready is met again: a language
that is turned off and an excluded file by a gate, a registration that
cannot be made and selectors that do not match before any gate. The check
itself registers and remembers, but nothing that would change an answer.

* §1 a gate that fires leaves no edits;
* §2 what the readiness check leaves as it was;
* §3 `provideDocumentEdits_of_not_ready`.
-/
import FormatHost.Proofs.Service.Gates
import FormatHost.Proofs.Service.Operations
import FormatHost.Proofs.Service.Readiness
import FormatHost.Proofs.Service.Registering

namespace FormatHost

open Run

theorem Gate.mem_all (gate : Gate) : gate ∈ Gate.all := by
  cases gate <;> decide

theorem Registration.readiness_eq_ready_iff {r : Registration} {d : Document} {excluded : Bool} :
    r.readiness d excluded = .ready ↔ excluded = false ∧ 0 < r.selectors.score d := by
  unfold readiness
  cases excluded with
  | true => simp
  | false => by_cases h : 0 < r.selectors.score d <;> simp [h]

namespace Service

/-! ## §1 Gates -/

/-- **A request that some gate stops has no edits**, and no formatter
formats it. -/
theorem edits_of_fires {m : Machine} {s : Service} {r : FormatRequest} {gate : Gate}
    (h : gate.fires m s r = true) (mode : Edit.Mode) :
    (edits m r mode s).value = .noop ∧ formattings (edits m r mode s).events = [] := by
  have hfirst : (firstGate? m s r).isSome := List.find?_isSome.mpr ⟨gate, gate.mem_all, h⟩
  obtain ⟨first, hf⟩ := Option.isSome_iff_exists.mp hfirst
  have hg := course_gate m s r
  rw [hf] at hg
  obtain ⟨hcalls, -, htext⟩ := hg
  obtain ⟨hv, hc, -, -⟩ := execute_follows m r s
  rw [htext] at hv
  rw [hcalls] at hc
  unfold edits
  rw [bind_apply, hv, formattings_append, hc]
  exact ⟨rfl, rfl⟩

/-- Without a registration whose selectors match there are no edits either. -/
theorem provideDocumentEdits_of_unmatched {m : Machine} {d : Document} {s : Service}
    (h : ∀ registration, (registrationFor m d s).value = some registration →
      registration.selectors.score d = 0) :
    (provideDocumentEdits m d s).value = .noop ∧
      formattings (provideDocumentEdits m d s).events = [] := by
  have hany : ((registrationFor m d s).value.any fun r => 0 < r.selectors.score d) = false := by
    cases hv : (registrationFor m d s).value with
    | none => rfl
    | some registration => simp [h registration hv]
  have hn : NeverFormats (registrationFor m d) :=
    emits_get.bind fun t => neverFormats_ensureRegistered m _ _
  simp only [provideDocumentEdits, bind_apply, hany, formattings_append, hn.formattings_eq]
  exact ⟨rfl, rfl⟩

/-- When a gate would stop the request once its folder is registered, there
are no edits, whatever the selectors say. -/
theorem provideDocumentEdits_of_fires {m : Machine} {d : Document} {s : Service} (gate : Gate)
    (h : gate.fires m (registrationFor m d s).state { document := d } = true) :
    (provideDocumentEdits m d s).value = .noop ∧
      formattings (provideDocumentEdits m d s).events = [] := by
  have hn : NeverFormats (registrationFor m d) :=
    emits_get.bind fun t => neverFormats_ensureRegistered m _ _
  obtain ⟨hv, hc⟩ := edits_of_fires h .minimal
  unfold provideDocumentEdits
  rw [bind_apply, formattings_append, hn.formattings_eq]
  split
  · exact ⟨hv, hc⟩
  · exact ⟨rfl, rfl⟩

/-! ## §2 What the check leaves -/

section Frames

variable {γ : Type} {f : Service → γ} (bar : ∀ s b, f { s with statusBar := b } = f s)
  (rules : ∀ s c, f { s with ignore := c } = f s)
  (listening : ∀ s watcher files listeners, f { s with
    watcher := watcher, watchedIgnoreFiles := files, listeners := listeners } = f s)
  {m : Machine} {s : Service} {d : Document} {path : Path}

include listening in
theorem keeps_readinessIn (settings : Settings) (folder : Option Path) (r : Registration)
    (look : ∀ file, settings.ignoreFile m.home folder = some file →
      Keeps f (isIgnored m path file)) : Keeps f (readinessIn m settings folder d path r) := by
  unfold readinessIn
  cases hf : settings.ignoreFile m.home folder with
  | none => exact keeps_pure _
  | some file =>
    exact (keeps_watchIgnoreFile listening file.1).bind fun _ =>
      (look file hf).bind fun _ => keeps_pure _

include bar in
/-- The check of a file ends with a change of the status bar. -/
theorem onActiveDocument_state (hp : d.path? = some path) :
    f (onActiveDocument m (some d) s).state = f (fileReadiness m d path s).state := by
  unfold onActiveDocument
  rw [Option.bind_some, hp, Option.map_some]
  dsimp only [bind_apply]
  cases (fileReadiness m d path s).value with
  | none => rfl
  | some readiness => exact keeps_showStatus bar _ _

include rules listening in
/-- Once the folder is registered, the check changes the ignore rules that
are remembered and what is listened to, and nothing else. -/
theorem fileReadiness_state (hl : s.settings.isLanguageDisabled d.language = false) :
    f (fileReadiness m d path s).state =
      f (ensureRegistered m (s.workspace.folderFor path) (some d) s).state := by
  unfold fileReadiness
  rw [get_bind_apply, hl, if_neg Bool.false_ne_true, bind_apply]
  cases (ensureRegistered m (s.workspace.folderFor path) (some d) s).value with
  | none => rfl
  | some r =>
    exact keeps_readinessIn listening s.settings _ r (fun _ _ => keeps_isIgnored rules m _ _) _

end Frames

/-- What registering a folder reads of the state. -/
def registeringParts (s : Service) := (s.registrations, s.resolver, s.settings, s.workspace)

section Left

variable {m : Machine} {s : Service} {d : Document} {path : Path}

/-- Registering a folder leaves what a request's gates read. -/
theorem keeps_ensureRegistered_gates (folder : Option Path) (d? : Option Document) :
    Keeps (fun s : Service => (s.settings, s.workspace, s.ignore))
      (ensureRegistered m folder d?) :=
  keeps_ensureRegistered m d? folder (fun _ _ => rfl) (fun _ _ => rfl) (fun _ _ => rfl)

/-- The check changes neither the settings nor the open folders. -/
theorem onActiveDocument_settings (hp : d.path? = some path) :
    let t := (onActiveDocument m (some d) s).state
    t.settings = s.settings ∧ t.workspace = s.workspace := by
  have ho := onActiveDocument_state (f := fun s : Service => (s.settings, s.workspace))
    (fun _ _ => rfl) (m := m) (s := s) hp
  cases hl : s.settings.isLanguageDisabled d.language with
  | true =>
    have hf : (fileReadiness m d path s).state = s := by
      unfold fileReadiness
      rw [get_bind_apply, hl]
      rfl
    rw [hf] at ho
    exact Prod.mk.inj ho
  | false =>
    let t := (fileReadiness m d path s).state
    have hf : (t.settings, t.workspace) = _ :=
      fileReadiness_state (f := fun s : Service => (s.settings, s.workspace))
        (fun _ _ => rfl) (fun _ _ _ _ => rfl) hl
    have hk := keeps_ensureRegistered_gates (m := m) (s.workspace.folderFor path) (some d) s
    simp only [Prod.mk.injEq] at ho hf hk
    exact ⟨ho.1.trans (hf.1.trans hk.1), ho.2.trans (hf.2.trans hk.2.1)⟩

/-- **Providing edits finds the registration that the check went by**, and
none when it went by none. -/
theorem registrationFor_after (hp : d.path? = some path)
    (hl : s.settings.isLanguageDisabled d.language = false) :
    (registrationFor m d (onActiveDocument m (some d) s).state).value =
      (ensureRegistered m (s.workspace.folderFor path) (some d) s).value := by
  obtain ⟨hsettings, hworkspace⟩ := onActiveDocument_settings (m := m) (s := s) hp
  have hleft := (onActiveDocument_state (f := registeringParts) (fun _ _ => rfl) (m := m)
    (s := s) hp).trans (fileReadiness_state (fun _ _ => rfl) (fun _ _ _ _ => rfl) hl)
  simp only [registeringParts, Prod.mk.injEq] at hleft
  unfold registrationFor
  rw [get_bind_apply, folderOf, hp, Option.bind_some, hworkspace]
  exact ensureRegistered_again m _ _ hleft.1 hleft.2.1 hsettings

/-- The check of a file does not change the rules that it goes by. -/
theorem rulesFor_readinessIn {settings : Settings} {folder : Option Path} {file : Path × Bool}
    (hf : settings.ignoreFile m.home folder = some file) (r : Registration) (t : Service) :
    (readinessIn m settings folder d path r t).state.ignore.rulesFor m file.1 =
      t.ignore.rulesFor m file.1 := by
  refine keeps_readinessIn (f := fun t : Service => t.ignore.rulesFor m file.1)
    (fun _ _ _ _ => rfl) settings folder r (fun file' hf' => ?_) t
  obtain rfl : file = file' := Option.some.inj (hf.symm.trans hf')
  exact keeps_rulesFor m path file

/-- Nor does the whole check. -/
theorem rulesFor_onActiveDocument (hp : d.path? = some path) {file : Path × Bool}
    (hf : s.settings.ignoreFile m.home (s.workspace.folderFor path) = some file) :
    (onActiveDocument m (some d) s).state.ignore.rulesFor m file.1 =
      s.ignore.rulesFor m file.1 := by
  rw [onActiveDocument_state (f := Service.ignore) (fun _ _ => rfl) hp]
  unfold fileReadiness
  rw [get_bind_apply]
  split
  · rfl
  · have hk := keeps_ensureRegistered_gates (m := m) (s.workspace.folderFor path) (some d) s
    simp only [Prod.mk.injEq] at hk
    rw [bind_apply, ← hk.2.2]
    cases (ensureRegistered m (s.workspace.folderFor path) (some d) s).value with
    | none => rfl
    | some r => exact rulesFor_readinessIn hf r _

end Left

/-! ## §3 The check and the edits -/

/-- Registering the document's folder does not change what its gates
read. -/
theorem registrationFor_state (m : Machine) (s : Service) (d : Document) :
    let u := (registrationFor m d s).state
    u.settings = s.settings ∧ u.workspace = s.workspace ∧ u.ignore = s.ignore := by
  have hk := keeps_ensureRegistered_gates (m := m) (s.folderOf d) (some d) s
  exact ⟨congrArg (·.1) hk, congrArg (·.2.1) hk, congrArg (·.2.2) hk⟩

/-- After the check and the registration the settings and the folders are
those of before. -/
theorem registrationFor_settings (m : Machine) (s : Service) {d : Document} {path : Path}
    (hp : d.path? = some path) :
    let u := (registrationFor m d (onActiveDocument m (some d) s).state).state
    u.settings = s.settings ∧ u.workspace = s.workspace := by
  obtain ⟨hsettings, hworkspace⟩ := onActiveDocument_settings (m := m) (s := s) hp
  obtain ⟨usettings, uworkspace, -⟩ :=
    registrationFor_state m (onActiveDocument m (some d) s).state d
  exact ⟨usettings.trans hsettings, uworkspace.trans hworkspace⟩

/-- A file that the check finds to be ignored is one for the gate, too. -/
theorem excluded_fires_after {m : Machine} {s : Service} {d : Document} {path : Path}
    (hp : d.path? = some path)
    (hx : ((s.settings.ignoreFile m.home (s.workspace.folderFor path)).any fun file =>
      (s.ignore.rulesFor m file.1).excludes path) = true) :
    Gate.excluded.fires m (registrationFor m d (onActiveDocument m (some d) s).state).state
      { document := d } = true := by
  obtain ⟨hsettings, hworkspace⟩ := registrationFor_settings m s hp
  obtain ⟨-, -, hignore⟩ := registrationFor_state m (onActiveDocument m (some d) s).state d
  cases hf : s.settings.ignoreFile m.home (s.workspace.folderFor path) with
  | none =>
    rw [hf] at hx
    cases hx
  | some file =>
    rw [hf, Option.any_some, ← rulesFor_onActiveDocument hp hf, ← hignore] at hx
    simp only [Gate.fires, folderOf, hsettings, hworkspace, hp, Option.bind_some, hf,
      Option.any_some, hx]
    rfl

/-- **What the check does not call ready gets no edits.** Whatever the
service has done before, when the check of a file answers that its language
is turned off or unknown, that it is ignored, or nothing at all, then
providing edits for it right after the check gives none, and no formatter
formats anything. -/
theorem provideDocumentEdits_of_not_ready (m : Machine) (s : Service) {d : Document} {path : Path}
    (hp : d.path? = some path) (hr : (onActiveDocument m (some d) s).value ≠ some .ready) :
    let o := provideDocumentEdits m d (onActiveDocument m (some d) s).state
    o.value = .noop ∧ formattings o.events = [] := by
  intro o
  cases hl : s.settings.isLanguageDisabled d.language with
  | true =>
    refine provideDocumentEdits_of_fires .languageOff ?_
    simp only [Gate.fires, (registrationFor_settings m s hp).1, hl]
    rfl
  | false =>
    have hafter := registrationFor_after (m := m) hp hl
    rw [onActiveDocument_value m s hp, hl, if_neg Bool.false_ne_true] at hr
    dsimp only at hr
    cases hv : (ensureRegistered m (s.workspace.folderFor path) (some d) s).value with
    | none =>
      refine provideDocumentEdits_of_unmatched fun registration h => ?_
      rw [hafter, hv] at h
      cases h
    | some registration =>
      rw [hv, Option.map_some, ne_eq, Option.some.injEq,
        Registration.readiness_eq_ready_iff, Decidable.not_and_iff_not_or_not] at hr
      rcases hr with hexcluded | hscore
      · rw [Bool.not_eq_false] at hexcluded
        exact provideDocumentEdits_of_fires .excluded (excluded_fires_after hp hexcluded)
      · refine provideDocumentEdits_of_unmatched fun found h => ?_
        rw [hafter, hv] at h
        rw [← Option.some.inj h]
        exact Nat.eq_zero_of_not_pos hscore

/-- A script next to the installed formatter. -/
def nestedScript : Document where
  uri := { scheme := Uri.fileScheme, hasAuthority := true, path := "/p/a/y.ts" }
  language := "typescript"
  text := "a;"

/-- A loader of formatters for scripts. -/
def scriptLoader : Loader :=
  ⟨fun _ _ => .ok
    { format := fun _ text _ => .ok text
      supportInfo := fun _ _ => .ok
        ⟨[{ name := "TypeScript", extensions := [".ts"], identifiers := ["typescript"] }]⟩ }⟩

/-- A script whose language is turned off gets no edits, though the pattern
of its extension still matches it. -/
theorem provideDocumentEdits_of_language_off :
    let s := fresh defaultPackage scriptLoader none { disableLanguages := ["typescript"] }
      [⟨"/p/a"⟩] { text := "" }
    let checked := onActiveDocument Resolver.nestedInstall (some nestedScript) s
    let registration? := registrationFor Resolver.nestedInstall nestedScript checked.state
    let o := provideDocumentEdits Resolver.nestedInstall nestedScript checked.state
    nestedScript.path? = some ⟨"/p/a/y.ts"⟩ ∧ checked.value = some .disabled ∧
      registration?.value.map (·.selectors.score nestedScript) = some 10 ∧
      o.value = .noop ∧ formattings o.events = [] := by
  intro s checked registration? o
  have hp : nestedScript.path? = some ⟨"/p/a/y.ts"⟩ := by decide +kernel
  have hv : checked.value = some .disabled := by decide +kernel
  have hr : checked.value ≠ some .ready := by
    rw [hv]
    decide
  exact ⟨hp, hv, by decide +kernel,
    provideDocumentEdits_of_not_ready Resolver.nestedInstall s hp hr⟩

end Service
end FormatHost
