/-
FormatHost.Proofs.Service.Repetition — a request that is made twice.

The first request may find its formatter, read ignore rules and report a
missing ignore file; the second finds all this remembered. It is answered
alike because every look agrees with the one that filled what it reads: the
formatter that was found is found again, also when none was found, and the
rules that were read are the ones the first look went by. So the second
request has the course of the first (`course_again`), and with it the same
text, status and call of the formatter.
-/
import FormatHost.Proofs.Service.Gates
import FormatHost.Proofs.Service.Registering

namespace FormatHost.Service

open Run

section Again

variable (m : Machine) (s : Service) (r : FormatRequest)

/-- A request changes neither the settings nor the open folders. -/
theorem execute_settings :
    (execute m r s).state.settings = s.settings ∧
      (execute m r s).state.workspace = s.workspace := by
  have hk := execute_keeps (f := fun s : Service => (s.settings, s.workspace)) (m := m) (s := s)
    (r := r) (fun _ _ => rfl) (fun _ _ _ _ => rfl)
    (fun _ _ _ => keeps_isIgnored (fun _ _ => rfl) m _ _) fun _ _ => rfl
  exact Prod.mk.inj hk

/-- The second look for the formatter answers as the first one did: it
reads what the first one left, or the first one was not made. -/
theorem handleFor_again :
    handleFor m (execute m r s).state r = handleFor m s r := by
  obtain ⟨hsettings, hworkspace⟩ := execute_settings m s r
  have hresolver := execute_state (f := Service.resolver) (m := m) (s := s) (r := r)
    (fun _ _ => rfl) (fun _ _ _ _ => rfl) fun _ _ _ => keeps_isIgnored (fun _ _ => rfl) m _ _
  unfold handleFor folderOf
  rw [hsettings, hworkspace]
  split at hresolver
  · -- the language is off, and nothing was looked for
    exact moduleFor_congr m r.document.path? _ s.settings hresolver
  · exact moduleFor_again m r.document.path? _ s.settings hresolver

/-- The second look at the ignore rules goes by those of the first. -/
theorem isExcluded_again (h : Handle) :
    (situationWith m s r h).isExcluded m (execute m r s).state.ignore =
      (situationWith m s r h).isExcluded m s.ignore := by
  unfold Situation.isExcluded situationWith
  dsimp only
  cases hf : s.settings.ignoreFile m.home (s.folderOf r.document) with
  | none => rfl
  | some file =>
    have hrules := execute_keeps (f := fun s : Service => s.ignore.rulesFor m file.1) (m := m)
      (s := s) (r := r) (fun _ _ => rfl) (fun _ _ _ _ => rfl)
      (fun path file' hf' => by
        obtain rfl : file = file' := Option.some.inj (hf.symm.trans hf')
        exact keeps_rulesFor m path file)
      fun _ _ => rfl
    simp only [Option.any_some, hrules]

/-- **A request that is made again has the course it had.** -/
theorem course_again : course m (execute m r s).state r = course m s r := by
  obtain ⟨hsettings, hworkspace⟩ := execute_settings m s r
  refine course_congr hsettings ?_ (handleFor_again m s r) (isExcluded_again m s r)
  rw [folderOf, folderOf, hworkspace]

end Again

/-- **Formatting is repeatable.** Whatever the service remembers, a request
that is made twice in a row, on the same files and under the same settings,
gives one text, shows one last status, and calls the formatter's `format`
both times with the same text and options, or neither time. -/
theorem format_again (m : Machine) (s : Service) (r : FormatRequest) :
    let first := format m r s
    let second := format m r first.state
    second.value = first.value ∧ lastStatus second.events = lastStatus first.events ∧
      formattings second.events = formattings first.events ∧
      second.state.statusBar.current = first.state.statusBar.current := by
  intro first second
  obtain ⟨hcalls, hstatus, hvalue, hbar⟩ := format_follows m s r
  obtain ⟨hcalls', hstatus', hvalue', hbar'⟩ := format_follows m first.state r
  have hcourse : course m first.state r = course m s r := course_again m s r
  rw [hcourse] at hcalls' hstatus' hvalue'
  have hlast := hstatus'.trans hstatus.symm
  exact ⟨hvalue'.trans hvalue.symm, hlast, hcalls'.trans hcalls.symm,
    hbar'.trans (hlast.trans hbar.symm)⟩

end FormatHost.Service
