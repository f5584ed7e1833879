/-
FormatHost.Proofs.Service.Readiness — what the readiness check answers.

The active document is checked in three steps: its language, the
registration of its folder, and its ignore file. Only the last one looks at
ignore rules, and it goes by those that were remembered when the check
began (`onActiveDocument_value`).
-/
import FormatHost.Proofs.Service.Calls

namespace FormatHost

open Run

/-- The readiness of a document under a registration. -/
def Registration.readiness (r : Registration) (d : Document) (excluded : Bool) : Readiness :=
  if excluded then .ignored
  else if 0 < r.selectors.score d then .ready
  else .disabled

namespace Service

theorem readinessIn_value (m : Machine) (settings : Settings) (folder : Option Path)
    (d : Document) (path : Path) (r : Registration) (t : Service) :
    (readinessIn m settings folder d path r t).value = r.readiness d
      ((settings.ignoreFile m.home folder).any fun file =>
        (t.ignore.rulesFor m file.1).excludes path) := by
  unfold readinessIn
  cases settings.ignoreFile m.home folder with
  | none => rfl
  | some file =>
    have hk := keeps_watchIgnoreFile (f := Service.ignore) (fun _ _ _ _ => rfl) file.1 t
    have hv : ((do
        watchIgnoreFile file.1
        isIgnored m path file : Run Service Bool) t).value =
        (t.ignore.rulesFor m file.1).excludes path := by
      simp only [bind_apply, isIgnored, onIgnore, on_apply, Ignore.Cache.isIgnored_value, hk]
    rw [Option.any_some, ← hv]
    rfl

/-- **What the readiness check answers**: nothing when no formatter can be
registered, and else what the language, the ignore file and the selectors
say. -/
theorem onActiveDocument_value (m : Machine) (s : Service) {d : Document} {path : Path}
    (hp : d.path? = some path) :
    (onActiveDocument m (some d) s).value =
      if s.settings.isLanguageDisabled d.language then some .disabled
      else
        let folder := s.workspace.folderFor path
        (ensureRegistered m folder (some d) s).value.map fun r => r.readiness d
          ((s.settings.ignoreFile m.home folder).any fun file =>
            (s.ignore.rulesFor m file.1).excludes path) := by
  have hfile : (onActiveDocument m (some d) s).value = (fileReadiness m d path s).value := by
    unfold onActiveDocument
    rw [Option.bind_some, hp, Option.map_some]
    dsimp only [bind_apply]
    cases (fileReadiness m d path s).value <;> rfl
  rw [hfile]
  unfold fileReadiness
  rw [get_bind_apply]
  cases s.settings.isLanguageDisabled d.language with
  | true => rfl
  | false =>
    have hk := keeps_ensureRegistered (f := Service.ignore) m (some d)
      (s.workspace.folderFor path) (fun _ _ => rfl) (fun _ _ => rfl) (fun _ _ => rfl) s
    dsimp only [bind_apply]
    rw [if_neg Bool.false_ne_true, if_neg Bool.false_ne_true, bind_apply]
    cases (ensureRegistered m (s.workspace.folderFor path) (some d) s).value with
    | none => rfl
    | some r =>
      rw [Option.map_some, ← hk]
      exact congrArg some (readinessIn_value m s.settings _ d path r _)

end Service
end FormatHost
