/-
FormatHost.Proofs.Config.Coverage — a project's options come from watched
files only.

The options for a document are looked for in its directory and in those
above, under the names of `watchedFiles`, and what is found is read. Such a
look passes the directories above the document and ends at a file that the
watch pattern accepts. So two machines that differ in other files, none of
them where a directory above the document is looked for, come to the same
options, to none, or to the same failure.

* §1 machines that differ in unwatched files;
* §2 looks: `DifferUnwatched.look_eq`;
* §3 what is decided by looks;
* §4 `resolve_unwatched`.
-/
import FormatHost.Config.Discovery
import FormatHost.Proofs.Disk.Reads
import FormatHost.Proofs.Glob.Names
import FormatHost.Proofs.Path.Nesting

namespace FormatHost

/-! ## §1 Unwatched files -/

namespace Machine

/-- The components that lead to a path from the root directory. -/
def route (m : Machine) (p : Path) : List Path.Component :=
  if p.isAbsolute then p.components else m.cwd.components ++ p.components

/-- The place of something above a path, on the way to it. -/
def IsAbove (m : Machine) (p : Path) (q : List String) : Prop :=
  ∃ cs rest, m.route p = cs ++ rest ∧ rest ≠ [] ∧ m.disk.walk [] cs = .ok q

end Machine

namespace Config

/-- The machines have the same directories, and where they differ there are
files, or none, that the pattern does not accept and that do not lie above
`file`. -/
structure DifferUnwatched (pattern : WatchPattern) (file : Path) (m m' : Machine) : Prop where
  rest : m' = { m with disk := m'.disk }
  directories : m.disk.SameDirectories m'.disk
  unwatched : ∀ q, m'.disk.entry? q ≠ m.disk.entry? q → pattern.accepts (Disk.pathOf q) = false
  aside : ∀ q, m'.disk.entry? q ≠ m.disk.entry? q → ¬ m.IsAbove file q

theorem watchedFiles_isName : ∀ name ∈ watchedFiles, Path.IsName name := by decide +kernel

/-! ## §2 Looks -/

section Looks

variable {pattern : WatchPattern} {file : Path} {m m' : Machine}

theorem DifferUnwatched.cwd_eq (h : DifferUnwatched pattern file m m') : m'.cwd = m.cwd := by
  rw [h.rest]

/-- What lies above the file is the same. -/
theorem DifferUnwatched.entry?_above (h : DifferUnwatched pattern file m m') {q : List String}
    (hq : m.IsAbove file q) : m'.disk.entry? q = m.disk.entry? q :=
  Decidable.byContradiction fun hne => h.aside q hne hq

/-- The watched names lead to the places they led to, wherever the file's
directories have them. -/
theorem DifferUnwatched.place_eq (h : DifferUnwatched pattern file m m') {dir : Path}
    (hd : dir ∈ (file.parent?.getD file).ancestors) {name : String} (hn : Path.IsName name) :
    m'.disk.place m'.cwd (dir / name) = m.disk.place m.cwd (dir / name) := by
  have habs : (dir / name).isAbsolute = file.isAbsolute := by
    rw [Path.isAbsolute_joinName hn, Path.isAbsolute_of_mem_ancestors hd]
    cases hp : file.parent? with
    | none => rfl
    | some holder =>
      exact Path.isAbsolute_of_mem_ancestors (List.mem_cons_of_mem _ (List.mem_of_head? hp))
  rw [h.cwd_eq]
  refine Disk.place_congr h.directories (fun hr q hq => ?_) fun start hs q hq => ?_
  · -- on the way to the current directory, for a relative path
    obtain ⟨front, s, rest, hc, hne, hw⟩ := hq
    refine h.entry?_above ⟨front ++ [.name s], rest ++ file.components, ?_, by simp [hne], hw⟩
    rw [Machine.route, ← habs, hr, if_neg Bool.false_ne_true, hc]
    simp
  · -- on the way from there, above the name
    obtain ⟨front, s, rest, hc, hne, hw⟩ := hq
    rw [Path.components_joinName hn] at hc
    obtain ⟨init, hinit⟩ : ∃ init, dir.components = front ++ .name s :: init := by
      refine ⟨rest.dropLast, ?_⟩
      have hdrop := congrArg List.dropLast hc
      rwa [List.dropLast_concat, List.dropLast_append_of_ne_nil (by simp),
        List.dropLast_cons_of_ne_nil hne] at hdrop
    obtain ⟨more, hmore, hfile⟩ := Path.exists_components_of_mem_ancestors hd hinit
    rw [habs] at hs
    cases ha : file.isAbsolute with
    | true =>
      rw [ha, if_pos rfl] at hs
      subst hs
      refine h.entry?_above ⟨front ++ [.name s], more, ?_, hmore, hw⟩
      rw [Machine.route, ha, if_pos rfl, hfile]
      simp
    | false =>
      rw [ha, if_neg Bool.false_ne_true] at hs
      refine h.entry?_above ⟨m.cwd.components ++ (front ++ [.name s]), more, ?_, hmore, ?_⟩
      · rw [Machine.route, ha, if_neg Bool.false_ne_true, hfile]
        simp
      · rw [Disk.walk_append_of_ok hs.1 hs.2, hw]

/-- **The watched names are looked at alike**, wherever the file's
directories have them. -/
theorem DifferUnwatched.look_eq (h : DifferUnwatched pattern file m m')
    (hp : WatchPattern.ofNames watchedFiles = .ok pattern) {dir : Path}
    (hd : dir ∈ (file.parent?.getD file).ancestors) {name : String} (hn : name ∈ watchedFiles) :
    m'.disk.look m'.cwd (dir / name) = m.disk.look m.cwd (dir / name) := by
  have hname := watchedFiles_isName name hn
  have hplace := h.place_eq hd hname
  rw [h.cwd_eq] at hplace ⊢
  refine Disk.look_congr hplace fun q hq => Decidable.byContradiction fun hne => ?_
  obtain ⟨front, rfl⟩ := Disk.exists_place_eq_concat (Path.components_joinName hname dir) hq
  obtain ⟨text, htext⟩ := Disk.exists_pathOf_concat front name
  have haccepts := WatchPattern.accepts_ofNames watchedFiles_plain hp hn text
  rw [← htext, h.unwatched _ hne] at haccepts
  cases haccepts

end Looks

/-! ## §3 Steps -/

/-- The machines look at a path alike. -/
def LookAlike (m m' : Machine) (p : Path) : Prop :=
  m'.disk.look m'.cwd p = m.disk.look m.cwd p

section Steps

variable {m m' : Machine} {p : Path}

theorem LookAlike.exists?_eq (h : LookAlike m m' p) : m'.exists? p = m.exists? p := by
  rw [Machine.exists?, Machine.exists?, Disk.exists?, Disk.exists?, h]

theorem LookAlike.readText_eq (h : LookAlike m m' p) : m'.readText p = m.readText p := by
  rw [Machine.readText, Machine.readText, Disk.readText, Disk.readText, Disk.readBytes,
    Disk.readBytes, h]

theorem LookAlike.manifest_eq (h : LookAlike m m' p) : Manifest.read m' p = Manifest.read m p := by
  rw [Manifest.read, Manifest.read, h.readText_eq]

theorem LookAlike.load_eq (h : LookAlike m m' p) : ConfigFile.load m' p = ConfigFile.load m p := by
  unfold ConfigFile.load
  rw [h.manifest_eq, h.readText_eq]

theorem LookAlike.qualifies_eq {dir : Path} {name : String} (h : LookAlike m m' (dir / name)) :
    qualifies m' dir name = qualifies m dir name := by
  rw [qualifies, qualifies, carriesOptions, carriesOptions, h.exists?_eq, h.manifest_eq]

theorem firstFile_congr {cs : List (Path × String)}
    (h : ∀ c ∈ cs, LookAlike m m' (c.1 / c.2)) : firstFile m' cs = firstFile m cs := by
  induction cs with
  | nil => rfl
  | cons c cs ih =>
    rw [firstFile, firstFile, (h c (List.mem_cons_self ..)).qualifies_eq,
      ih fun c hc => h c (List.mem_cons_of_mem _ hc)]

/-- The file that is found is one of the candidates. -/
theorem mem_of_firstFile {cs : List (Path × String)} (h : firstFile m cs = .ok (some p)) :
    ∃ c ∈ cs, c.1 / c.2 = p := by
  induction cs with
  | nil => cases h
  | cons c cs ih =>
    rw [firstFile] at h
    cases hq : qualifies m c.1 c.2 with
    | error e =>
      rw [hq] at h
      cases h
    | ok found =>
      rw [hq] at h
      cases found with
      | true =>
        cases h
        exact ⟨c, List.mem_cons_self .., rfl⟩
      | false =>
        obtain ⟨c', hc, hp⟩ := ih h
        exact ⟨c', List.mem_cons_of_mem _ hc, hp⟩

theorem readLayers_congr {dirs : List Path}
    (h : ∀ dir ∈ dirs, LookAlike m m' (dir / EditorConfig.fileName)) :
    EditorConfig.readLayers m' dirs = EditorConfig.readLayers m dirs := by
  induction dirs with
  | nil => rfl
  | cons dir dirs ih =>
    have hdir := h dir (List.mem_cons_self ..)
    rw [EditorConfig.readLayers, EditorConfig.readLayers, hdir.exists?_eq, hdir.readText_eq,
      ih fun dir hd => h dir (List.mem_cons_of_mem _ hd)]

end Steps

/-! ## §4 The project's options -/

section Options

variable {m m' : Machine} {file : Path}
  (h : ∀ dir ∈ (file.parent?.getD file).ancestors, ∀ name ∈ watchedFiles,
    LookAlike m m' (dir / name))

include h in
/-- What the nearest configuration file says is the same. -/
theorem fileOptions_congr {o : ConfigOptions} (ho : o.config = none) :
    fileOptions m' file o = fileOptions m file o := by
  have hc : ∀ c ∈ candidates (file.parent?.getD file), LookAlike m m' (c.1 / c.2) := by
    intro c hc
    obtain ⟨dir, hd, hm⟩ := List.mem_flatMap.mp hc
    obtain ⟨name, hn, rfl⟩ := List.mem_map.mp hm
    exact h dir hd name (List.mem_append_left _ hn)
  have hfind : fileFor m' file o = fileFor m file o := by
    rw [fileFor, fileFor, ho]
    exact firstFile_congr hc
  unfold fileOptions
  rw [hfind]
  cases hf : fileFor m file o with
  | error e => rfl
  | ok found =>
    cases found with
    | none => rfl
    | some p =>
      rw [fileFor, ho] at hf
      obtain ⟨c, hm, rfl⟩ := mem_of_firstFile hf
      simp only [bind, Except.bind, (hc c hm).load_eq]

include h in
/-- So is what `.editorconfig` files say. -/
theorem editorConfig_congr : EditorConfig.resolve m' file = EditorConfig.resolve m file := by
  have hproperties : EditorConfig.properties m' file = EditorConfig.properties m file := by
    unfold EditorConfig.properties
    cases hp : file.parent? with
    | none => rfl
    | some holder =>
      rw [hp, Option.getD_some] at h
      dsimp only
      rw [readLayers_congr fun dir hd => h dir hd _ (by simp [watchedFiles])]
  rw [EditorConfig.resolve, EditorConfig.resolve, hproperties]

end Options

/-- **A project's options come from watched files.** The pattern for the
watched names can be read; and for every document and options that name no
configuration file, machines with the same directories whose files differ
where the pattern does not accept, and not above the document, resolve the
same options, none, or the same failure. -/
theorem resolve_unwatched :
    ∃ pattern, WatchPattern.ofNames watchedFiles = .ok pattern ∧
      ∀ {m m' : Machine} {file : Path} {o : ConfigOptions}, o.config = none →
        DifferUnwatched pattern file m m' → resolve m' file o = resolve m file o := by
  have hread := ofNames_watchedFiles
  refine ⟨_, hread, fun {m m' file o} ho hdiffer => ?_⟩
  have hlook : ∀ dir ∈ (file.parent?.getD file).ancestors, ∀ name ∈ watchedFiles,
      LookAlike m m' (dir / name) :=
    fun dir hd name hn => hdiffer.look_eq hread hd hn
  rw [resolve, resolve, fileOptions_congr hlook ho, editorConfig_congr hlook]

/-- A project with a configuration file. -/
def settledProject : Machine where
  disk := ⟨fun
    | ["p"] => some .directory
    | ["p", ".prettierrc.toml"] =>
      some (.file (Text.Utf8.encode "semi = false\n".toList) false)
    | _ => none⟩
  cwd := ⟨"/p"⟩
  home := ⟨"/home"⟩
  searchPath := []

/-- The project after a script was written. -/
def scriptedProject : Machine :=
  { settledProject with
    disk := ⟨fun q =>
      if q = ["p", "x.ts"] then some (.file [] false) else settledProject.disk.entry? q⟩ }

theorem differ_scriptedProject {q : List String}
    (h : scriptedProject.disk.entry? q ≠ settledProject.disk.entry? q) : q = ["p", "x.ts"] :=
  Decidable.byContradiction fun hne => h (if_neg hne)

/-- Writing a document changes nothing about its options. -/
theorem resolve_unwatched_script :
    let document : Path := ⟨"/p/x.ts"⟩
    scriptedProject.disk.entry? ["p", "x.ts"] ≠ settledProject.disk.entry? ["p", "x.ts"] ∧
      resolve scriptedProject document { editorConfig := true } =
        resolve settledProject document { editorConfig := true } ∧
      (resolve settledProject document { editorConfig := true }).toOption.join.isSome := by
  intro document
  obtain ⟨pattern, hread, hall⟩ := resolve_unwatched
  have hrejects : pattern.accepts (Disk.pathOf ["p", "x.ts"]) = false := by
    rw [← Except.ok.inj (ofNames_watchedFiles.symm.trans hread)]
    decide +kernel
  refine ⟨by decide, hall rfl ⟨rfl, fun q => ?_, fun q hq => ?_, fun q hq => ?_⟩, by decide +kernel⟩
  · by_cases hq : q = ["p", "x.ts"]
    · subst hq
      decide
    · show (if q = _ then _ else _) = _ ↔ _
      rw [if_neg hq]
  · rw [differ_scriptedProject hq]
    exact hrejects
  · rw [differ_scriptedProject hq]
    rintro ⟨cs, rest, hr, hne, hw⟩
    -- what is shorter than the way to the script leads elsewhere
    have hshort : ∀ n < (settledProject.route document).length,
        (settledProject.disk.walk [] ((settledProject.route document).take n)).toOption ≠
          some ["p", "x.ts"] := by
      decide +kernel
    refine hshort cs.length ?_ ?_
    · have hpos := List.length_pos_iff.mpr hne
      rw [hr, List.length_append]
      omega
    · rw [hr, List.take_left' rfl, hw]
      rfl

end Config
end FormatHost
