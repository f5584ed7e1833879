/-
FormatHost.Proofs.Ignore.Files — the ignore files that settings name.

The setting is one text, and a document's folder makes a file of it
(`NamesIgnoreFile`). Paths are remembered and compared by components, but a
file is read by its text. The two agree here: files that are named for
documents with absolute paths and compare equal are one text
(`NamesIgnoreFile.unique`).
-/
import FormatHost.Proofs.Path.Nesting
import FormatHost.Proofs.Workspace
import FormatHost.Settings

namespace FormatHost

/-- A setting stands for one path, or for a path below each base. -/
theorem expandSetting_cases (home : Path) (raw : String) :
    (∃ path?, ∀ base, expandSetting home raw base = path?) ∨
    ∃ below : Path, below.isAbsolute = false ∧
      ∀ base, expandSetting home raw base = base.map (·.join below) := by
  unfold expandSetting
  dsimp only
  split
  · exact .inl ⟨_, fun _ => rfl⟩
  · exact .inl ⟨_, fun _ => rfl⟩
  · rename_i c rest hr
    by_cases hc : c = '/' ∨ c = '\\'
    · exact .inl ⟨_, fun _ => if_pos hc⟩
    · refine .inr ⟨⟨Text.trimString raw⟩, ?_, fun _ => if_neg hc⟩
      unfold Path.isAbsolute Path.lead
      rw [hr]
      rfl
  · cases ha : (Path.mk (Text.trimString raw)).isAbsolute with
    | true => exact .inl ⟨_, fun _ => if_pos rfl⟩
    | false => exact .inr ⟨_, ha, fun _ => if_neg Bool.false_ne_true⟩

namespace Path

/-- The empty directory adds nothing. -/
theorem join_of_empty {base p : Path} (hb : base.text = "") (hp : p.isAbsolute = false) :
    base.join p = p := by
  have he : base.isEmpty = true := by simp [isEmpty, hb]
  unfold join
  rw [hp, if_neg Bool.false_ne_true, he, Bool.true_or, if_pos rfl, hb, String.empty_append]

/-- Below directories that are absolute or empty, relative paths compare
equal only when the directories do. -/
theorem beq_of_join {a b p : Path} (hp : p.isAbsolute = false)
    (ha : a.text = "" ∨ a.isAbsolute = true) (hb : b.text = "" ∨ b.isAbsolute = true)
    (h : (a.join p == b.join p) = true) : (a == b) = true := by
  -- below an absolute directory a path is absolute
  have habs : ∀ {dir : Path}, dir.text ≠ "" → dir.text = "" ∨ dir.isAbsolute = true →
      (dir.join p).isAbsolute = true := by
    intro dir hd hdir
    have hr := isAbsolute_iff.mp (hdir.resolve_left hd)
    rw [isAbsolute_iff, components_join hd hp, List.head?_append, hr]
    rfl
  have hc := beq_iff.mp h
  by_cases ha0 : a.text = "" <;> by_cases hb0 : b.text = ""
  · rw [beq_iff, show a = b from congrArg Path.mk (ha0.trans hb0.symm)]
  · have hj := habs hb0 hb
    rw [isAbsolute_iff, ← hc, join_of_empty ha0 hp, ← isAbsolute_iff, hp] at hj
    cases hj
  · have hj := habs ha0 ha
    rw [isAbsolute_iff, hc, join_of_empty hb0 hp, ← isAbsolute_iff, hp] at hj
    cases hj
  · rw [components_join ha0 hp, components_join hb0 hp] at hc
    exact beq_iff.mpr (List.append_cancel_right hc)

/-- A directory that contains an absolute path is absolute or empty. -/
theorem empty_or_isAbsolute {p dir : Path} (hp : p.isAbsolute = true)
    (h : p.startsWith dir = true) : dir.text = "" ∨ dir.isAbsolute = true := by
  cases hc : dir.components with
  | nil => exact .inl (text_eq_empty_of_components hc)
  | cons c cs =>
    obtain ⟨rest, hr⟩ := startsWith_iff.mp h
    rw [isAbsolute_iff, ← hr, hc] at hp
    exact .inr (isAbsolute_iff.mpr (by rw [hc]; exact hp))

end Path

namespace Settings

/-- The file is the ignore file for some document with an absolute path. -/
def NamesIgnoreFile (s : Settings) (home : Path) (w : Workspace) (file : Path) : Prop :=
  ∃ path isDefault, path.isAbsolute = true ∧
    s.ignoreFile home (w.folderFor path) = some (file, isDefault)

theorem expandSetting_of_ignoreFile {s : Settings} {home file : Path} {folder : Option Path}
    {isDefault : Bool} (h : s.ignoreFile home folder = some (file, isDefault)) :
    ∃ raw, s.ignorePath = some raw ∧ expandSetting home raw folder = some file := by
  unfold ignoreFile at h
  obtain ⟨raw, hr, h⟩ := Option.bind_eq_some_iff.mp h
  obtain ⟨path, hp, h⟩ := Option.bind_eq_some_iff.mp h
  cases h
  exact ⟨raw, hr, hp⟩

/-- **Ignore files that compare equal are one text.** -/
theorem NamesIgnoreFile.unique {s : Settings} {home file file' : Path} {w : Workspace}
    (h : s.NamesIgnoreFile home w file) (h' : s.NamesIgnoreFile home w file')
    (he : (file == file') = true) : file = file' := by
  obtain ⟨p, _, hp, h⟩ := h
  obtain ⟨p', _, hp', h'⟩ := h'
  obtain ⟨raw, hraw, h⟩ := expandSetting_of_ignoreFile h
  obtain ⟨raw', hraw', h'⟩ := expandSetting_of_ignoreFile h'
  rw [hraw] at hraw'
  obtain rfl := Option.some.inj hraw'
  rcases expandSetting_cases home raw with ⟨path?, hone⟩ | ⟨below, hb, hbelow⟩
  · rw [hone] at h h'
    exact Option.some.inj (h.symm.trans h')
  · rw [hbelow] at h h'
    obtain ⟨f, hf, rfl⟩ := Option.map_eq_some_iff.mp h
    obtain ⟨f', hf', rfl⟩ := Option.map_eq_some_iff.mp h'
    have hff : (f == f') = true := Path.beq_of_join hb
      (Path.empty_or_isAbsolute hp (Workspace.startsWith_of_folderFor hf))
      (Path.empty_or_isAbsolute hp' (Workspace.startsWith_of_folderFor hf')) he
    rw [Workspace.folderFor_unique hf hf' hff]

end Settings
end FormatHost
