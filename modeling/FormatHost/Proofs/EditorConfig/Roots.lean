/-
FormatHost.Proofs.EditorConfig.Roots — what a file with `root = true` hides.

Files are looked for from a document's directory upward, and the search ends
at the first file whose preamble (the lines before its first section) sets
`root` to `true` in the end. Nothing above it is looked at: whether there
are files, whether they can be read and what they say makes no difference to
the options, or to the failure, that a document gets. Root lines in sections
make no difference at all.

* §1 preambles;
* §2 root lines in sections;
* §3 `visible`: the directories that count;
* §4 `resolve_visible`.
-/
import FormatHost.Proofs.EditorConfig.LastValues

namespace FormatHost

/-- A text that can be read is there. -/
theorem Machine.exists?_of_readText {m : Machine} {p : Path} {content : String}
    (h : m.readText p = .ok content) : m.exists? p = .ok true := by
  unfold readText Disk.readText Disk.readBytes at h
  unfold exists? Disk.exists?
  cases hl : m.disk.look m.cwd p with
  | ok entry => rfl
  | error e =>
    rw [hl] at h
    cases h

namespace EditorConfig

/-! ## §1 Preambles -/

namespace Line

def isHeader : Line → Bool
  | .header _ => true
  | _ => false

/-- Whether the line sets `root`. -/
def isRoot : Line → Bool
  | .property key _ => key == "root"
  | _ => false

@[simp] theorem isRoot_silent : silent.isRoot = false := rfl

@[simp] theorem isRoot_header (pattern : String) : (header pattern).isRoot = false := rfl

@[simp] theorem isRoot_property (key value : String) :
    (property key value).isRoot = (key == "root") := rfl

end Line

@[simp] theorem splitSections_silent (ls : List Line) :
    splitSections (.silent :: ls) = splitSections ls := rfl

@[simp] theorem splitSections_header (pattern : String) (ls : List Line) :
    splitSections (.header pattern :: ls) =
      ([], ⟨pattern, (splitSections ls).1⟩ :: (splitSections ls).2) := rfl

@[simp] theorem splitSections_property (key value : String) (ls : List Line) :
    splitSections (.property key value :: ls) =
      ((key, value) :: (splitSections ls).1, (splitSections ls).2) := rfl

def readLines (content : String) : List Line := (Text.lines content.toList).map readLine

/-- The lines before the first section. -/
def preamble : List Line → List Line
  | [] => []
  | l :: ls => if l.isHeader then [] else l :: preamble ls

/-- The last of the root lines before the first section says `true`. -/
def EndsAsRoot (ls : List Line) : Prop :=
  ((preamble ls).filter (·.isRoot)).getLast? = some (.property "root" "true")

instance (ls : List Line) : Decidable (EndsAsRoot ls) := inferInstanceAs (Decidable (_ = _))

/-- The root lines of the preamble are its properties of that name. -/
theorem filter_preamble (ls : List Line) :
    (preamble ls).filter (·.isRoot) =
      ((splitSections ls).1.filter (·.1 = "root")).map fun p => .property p.1 p.2 := by
  induction ls with
  | nil => rfl
  | cons l ls ih =>
    cases l with
    | silent => simpa [preamble, Line.isHeader] using ih
    | header pattern => simp [preamble, Line.isHeader]
    | property key value => by_cases hk : key = "root" <;> simp [preamble, Line.isHeader, hk, ih]

/-- A file is a root by the root lines of its preamble. -/
theorem isRoot_iff (ls : List Line) :
    isRoot (splitSections ls).1 = true ↔ EndsAsRoot ls := by
  rw [EndsAsRoot, filter_preamble, List.getLast?_map, isRoot]
  cases h : ((splitSections ls).1.filter (·.1 = "root")).getLast? with
  | none => simp
  | some p =>
    have hp := (List.mem_filter.mp (List.mem_of_getLast? h)).2
    simp_all

/-! ## §2 Root lines in sections -/

/-- The lines without the root lines that stand in sections. -/
def withoutSectionRoots : List Line → List Line
  | [] => []
  | l :: ls => l :: if l.isHeader then ls.filter (!·.isRoot) else withoutSectionRoots ls

def Section.rootless (s : Section) : Section :=
  { s with properties := s.properties.filter (·.1 ≠ "root") }

/-- The file without the root lines in its sections. -/
def File.rootless (f : File) : File := { f with sections := f.sections.map Section.rootless }

theorem splitSections_filter (ls : List Line) :
    splitSections (ls.filter (!·.isRoot)) =
      ((splitSections ls).1.filter (·.1 ≠ "root"), (splitSections ls).2.map Section.rootless) := by
  induction ls with
  | nil => rfl
  | cons l ls ih =>
    cases l with
    | silent => simpa using ih
    | header pattern => simp_all [Section.rootless]
    | property key value =>
      by_cases hk : key = "root"
      · simp_all
      · rw [List.filter_cons_of_pos (by simp [hk]), splitSections_property, ih]
        simp [hk]

theorem splitSections_withoutSectionRoots (ls : List Line) :
    splitSections (withoutSectionRoots ls) =
      ((splitSections ls).1, (splitSections ls).2.map Section.rootless) := by
  induction ls with
  | nil => rfl
  | cons l ls ih =>
    cases l with
    | silent => simpa [withoutSectionRoots, Line.isHeader] using ih
    | header pattern =>
      simp [withoutSectionRoots, Line.isHeader, splitSections_filter, Section.rootless]
    | property key value => simp [withoutSectionRoots, Line.isHeader, ih]

/-- What a file says but for root lines in sections. -/
def significant (content : String) : List Line := withoutSectionRoots (readLines content)

theorem preamble_withoutSectionRoots (ls : List Line) :
    preamble (withoutSectionRoots ls) = preamble ls := by
  induction ls with
  | nil => rfl
  | cons l ls ih => cases l <;> simp [withoutSectionRoots, preamble, Line.isHeader, ih]

theorem rootless_parse (content : String) :
    (parse content).rootless =
      ⟨isRoot (splitSections (significant content)).1, (splitSections (significant content)).2⟩ := by
  simp only [significant, splitSections_withoutSectionRoots, File.rootless, parse, readLines]

/-- Files that say the same but for root lines in sections are read alike. -/
theorem rootless_parse_congr {content content' : String}
    (h : significant content' = significant content) :
    (parse content').rootless = (parse content).rootless := by
  rw [rootless_parse, rootless_parse, h]

/-- The properties of root lines in sections set nothing. -/
theorem toOptions_filter_root (ps : List Property) :
    toOptions (ps.filter (·.1 ≠ "root")) = toOptions ps := by
  refine toOptions_filter (fun p hc => ?_) ps
  have hne : ∀ a ∈ optionNames, a.1 ≠ "root" := by decide
  rcases sets_cases p with hs | ⟨name, value, hn, -⟩
  · have hk : p.1 = "indent_size" ∨ p.1 = "tab_width" := by simpa [counts, hs] using hc
    rcases hk with hk | hk <;> simp [hk]
  · simpa using hne _ hn

theorem layerProperties_rootless (document dir : Path) (f : File) :
    layerProperties document (dir, f.rootless) =
      (layerProperties document (dir, f)).filter (·.1 ≠ "root") := by
  unfold layerProperties
  cases document.stripPrefix? dir with
  | none => rfl
  | some relative =>
    simp only [File.rootless, List.filter_map, List.flatMap_map, List.filter_flatMap]
    rfl

/-! ## §3 Directories that count -/

/-- Whether the file in a directory is a root. -/
def hides (m : Machine) (dir : Path) : Bool :=
  (m.readText (dir / fileName)).toOption.any fun content => EndsAsRoot (readLines content)

/-- The directories up to the first one whose file is a root. -/
def visible (m : Machine) : List Path → List Path
  | [] => []
  | dir :: dirs => dir :: if hides m dir then [] else visible m dirs

/-- The file in a directory, if there is one. -/
def readLayer? (m : Machine) (dir : Path) : Except Failure (Option File) := do
  if ← Failure.ofIo (m.exists? (dir / fileName)) then
    return some (parse (← Failure.ofIo (m.readText (dir / fileName))))
  else return none

/-- The files in directories, all of them. -/
def readEach (m : Machine) : List Path → Except Failure (List (Path × File))
  | [] => .ok []
  | dir :: dirs => do
    match ← readLayer? m dir with
    | none => readEach m dirs
    | some file => return (dir, file) :: (← readEach m dirs)

section Search

variable {m m' : Machine} {dir : Path} {dirs : List Path}

theorem readLayers_cons (m : Machine) (dir : Path) (dirs : List Path) :
    readLayers m (dir :: dirs) = (readLayer? m dir).bind fun file? =>
      match file? with
      | none => readLayers m dirs
      | some file =>
        if file.isRoot then .ok [(dir, file)] else (readLayers m dirs).map ((dir, file) :: ·) := by
  rw [readLayers, readLayer?]
  cases m.exists? (dir / fileName) with
  | error e => rfl
  | ok present =>
    cases present with
    | false => rfl
    | true =>
      cases m.readText (dir / fileName) with
      | error e => rfl
      | ok content =>
        cases hr : (parse content).isRoot with
        | true => simp [Failure.ofIo, bind, Except.bind, pure, Except.pure, hr]
        | false =>
          cases readLayers m dirs <;> simp [Failure.ofIo, bind, Except.bind, pure, Except.pure,
            Except.map, hr]

theorem readEach_cons (m : Machine) (dir : Path) (dirs : List Path) :
    readEach m (dir :: dirs) = (readLayer? m dir).bind fun file? =>
      match file? with
      | none => readEach m dirs
      | some file => (readEach m dirs).map ((dir, file) :: ·) := by
  rw [readEach]
  cases readLayer? m dir with
  | error e => rfl
  | ok file? =>
    cases file? with
    | none => rfl
    | some file => cases readEach m dirs <;> rfl

theorem readLayer?_of_text {content : String} (h : m.readText (dir / fileName) = .ok content) :
    readLayer? m dir = .ok (some (parse content)) := by
  simp [readLayer?, Machine.exists?_of_readText h, h, Failure.ofIo, bind, Except.bind, pure,
    Except.pure]

/-- Where nothing can be read there is either nothing or a failure. -/
theorem readLayer?_of_unreadable {e : IoError} (h : m.readText (dir / fileName) = .error e) :
    readLayer? m dir = (Failure.ofIo (m.exists? (dir / fileName))).bind fun present =>
      if present then .error (.io e) else .ok none := by
  simp [readLayer?, h, Failure.ofIo, bind, Except.bind, pure, Except.pure]

theorem eq_none_of_unreadable {e : IoError} (h : m.readText (dir / fileName) = .error e)
    {file? : Option File} (hl : readLayer? m dir = .ok file?) : file? = none := by
  rw [readLayer?_of_unreadable h] at hl
  cases hp : m.exists? (dir / fileName) with
  | error e' =>
    rw [hp] at hl
    cases hl
  | ok present =>
    rw [hp] at hl
    cases present with
    | true => cases hl
    | false => exact (Except.ok.inj hl).symm

/-- A directory hides what is above it when the file that is read there is a
root. -/
theorem hides_of_readLayer? {file? : Option File} (h : readLayer? m dir = .ok file?) :
    hides m dir = file?.any (·.isRoot) := by
  unfold hides
  cases ht : m.readText (dir / fileName) with
  | ok content =>
    rw [readLayer?_of_text ht] at h
    obtain rfl := Except.ok.inj h
    rw [Bool.eq_iff_iff]
    exact decide_eq_true_iff.trans (isRoot_iff (readLines content)).symm
  | error e =>
    rw [eq_none_of_unreadable ht h]
    rfl

/-- **The search reads the files of the visible directories**, and fails when
that fails. -/
theorem readLayers_eq_readEach (m : Machine) (dirs : List Path) :
    readLayers m dirs = readEach m (visible m dirs) := by
  induction dirs with
  | nil => rfl
  | cons dir dirs ih =>
    rw [readLayers_cons, visible, readEach_cons]
    cases hl : readLayer? m dir with
    | error e => rfl
    | ok file? =>
      have hh := hides_of_readLayer? hl
      cases file? with
      | none => simp [Except.bind, hh, ih]
      | some file =>
        cases hr : file.isRoot with
        | true => simp [Except.bind, hh, hr, readEach, Except.map]
        | false => simp [Except.bind, hh, hr, ih]

end Search

/-! ## §4 Machines with the same files -/

/-- The machines have the same file at a path, or none, but for root lines in
its sections. -/
structure SameFile (m m' : Machine) (p : Path) : Prop where
  present : m'.exists? p = m.exists? p
  lines : (m'.readText p).map significant = (m.readText p).map significant

/-- The files that were read, without root lines in sections. -/
def rootlessLayers (layers : List (Path × File)) : List (Path × File) :=
  layers.map fun l => (l.1, l.2.rootless)

section Same

variable {m m' : Machine} {dir : Path} {dirs : List Path}

theorem sameFile_of_texts {p : Path} {content content' : String}
    (h : (m.readText p).toOption = some content) (h' : (m'.readText p).toOption = some content')
    (hs : significant content' = significant content) : SameFile m m' p := by
  have hok : ∀ {m : Machine} {content : String}, (m.readText p).toOption = some content →
      m.readText p = .ok content := by
    intro m content h
    cases ht : m.readText p with
    | error e => simp [ht, Except.toOption] at h
    | ok content => simpa [ht, Except.toOption] using h
  constructor
  · rw [Machine.exists?_of_readText (hok h), Machine.exists?_of_readText (hok h')]
  · rw [hok h, hok h']
    exact congrArg Except.ok hs

theorem SameFile.hides_eq (h : SameFile m m' (dir / fileName)) : hides m' dir = hides m dir := by
  have hsignificant : ∀ m : Machine, hides m dir =
      ((m.readText (dir / fileName)).map significant).toOption.any fun ls => EndsAsRoot ls := by
    intro m
    unfold hides
    cases m.readText (dir / fileName) with
    | error e => rfl
    | ok content =>
      simp [Except.map, Except.toOption, EndsAsRoot, significant, preamble_withoutSectionRoots]
  rw [hsignificant, hsignificant, h.lines]

theorem SameFile.exists_text {p : Path} (h : SameFile m m' p) {content : String}
    (ht : m.readText p = .ok content) :
    ∃ content', m'.readText p = .ok content' ∧ significant content' = significant content := by
  have hl := h.lines
  rw [ht] at hl
  cases ht' : m'.readText p with
  | error e => simp [ht', Except.map] at hl
  | ok content' => exact ⟨content', rfl, by simpa [ht', Except.map] using hl⟩

theorem SameFile.unreadable {p : Path} (h : SameFile m m' p) {e : IoError}
    (ht : m.readText p = .error e) : m'.readText p = .error e := by
  have hl := h.lines
  rw [ht] at hl
  cases ht' : m'.readText p with
  | error e' => simpa [ht', Except.map] using hl
  | ok content' => simp [ht', Except.map] at hl

theorem SameFile.readLayer?_eq (h : SameFile m m' (dir / fileName)) :
    (readLayer? m' dir).map (Option.map File.rootless) =
      (readLayer? m dir).map (Option.map File.rootless) := by
  cases ht : m.readText (dir / fileName) with
  | ok content =>
    obtain ⟨content', ht', hs⟩ := h.exists_text ht
    rw [readLayer?_of_text ht, readLayer?_of_text ht', Except.map, Except.map, Option.map_some,
      Option.map_some, rootless_parse_congr hs]
  | error e =>
    rw [readLayer?_of_unreadable ht, readLayer?_of_unreadable (h.unreadable ht), h.present]

theorem visible_congr (h : ∀ dir ∈ visible m dirs, SameFile m m' (dir / fileName)) :
    visible m' dirs = visible m dirs := by
  induction dirs with
  | nil => rfl
  | cons dir dirs ih =>
    have hdir := (h dir List.mem_cons_self).hides_eq
    rw [visible, visible, hdir]
    cases hh : hides m dir with
    | true => rfl
    | false =>
      have hrest := ih fun dir' hd => h dir' (by simpa [visible, hh] using .inr hd)
      simp [hrest]

theorem rootlessLayers_cons {x y : Except Failure (List (Path × File))} {f g : File}
    (h : x.map rootlessLayers = y.map rootlessLayers) (hf : f.rootless = g.rootless) :
    (x.map ((dir, f) :: ·)).map rootlessLayers = (y.map ((dir, g) :: ·)).map rootlessLayers := by
  cases x <;> cases y <;> simp_all [Except.map, rootlessLayers]

theorem readEach_congr (h : ∀ dir ∈ dirs, SameFile m m' (dir / fileName)) :
    (readEach m' dirs).map rootlessLayers = (readEach m dirs).map rootlessLayers := by
  induction dirs with
  | nil => rfl
  | cons dir dirs ih =>
    obtain ⟨hdir, hdirs⟩ := List.forall_mem_cons.mp h
    have hlayer := hdir.readLayer?_eq
    have hrest := ih hdirs
    rw [readEach_cons, readEach_cons]
    cases hl : readLayer? m dir with
    | error e =>
      cases hl' : readLayer? m' dir with
      | error e' => simp_all [Except.bind, Except.map]
      | ok file?' => simp [hl, hl', Except.map] at hlayer
    | ok file? =>
      cases hl' : readLayer? m' dir with
      | error e' => simp [hl, hl', Except.map] at hlayer
      | ok file?' =>
        rw [hl, hl'] at hlayer
        have hfile := Except.ok.inj hlayer
        cases file? with
        | none =>
          obtain rfl : file?' = none := by simpa using hfile
          exact hrest
        | some file =>
          obtain ⟨file', rfl, hfile'⟩ := Option.map_eq_some_iff.mp hfile
          exact rootlessLayers_cons hrest hfile'

/-- **The search reads what is visible**, but for root lines in sections. -/
theorem rootlessLayers_congr (h : ∀ dir ∈ visible m dirs, SameFile m m' (dir / fileName)) :
    (readLayers m' dirs).map rootlessLayers = (readLayers m dirs).map rootlessLayers := by
  rw [readLayers_eq_readEach, readLayers_eq_readEach, visible_congr h, readEach_congr h]

end Same

/-! ## §5 Options -/

/-- The directories in which files for a document are looked for. -/
def searched (document : Path) : List Path := (document.parent?.map Path.ancestors).getD []

/-- The properties of layers, without those of root lines. -/
theorem filter_flatMap_layers (document : Path) (layers : List (Path × File)) :
    ((layers.reverse.flatMap (layerProperties document)).filter (·.1 ≠ "root")) =
      (rootlessLayers layers).reverse.flatMap (layerProperties document) := by
  rw [rootlessLayers, ← List.map_reverse, List.flatMap_map, List.filter_flatMap]
  simp only [layerProperties_rootless]

/-- What is resolved is told from the layers that the search reads. -/
theorem resolve_eq (m : Machine) (document : Path) :
    resolve m document = ((readLayers m (searched document)).map rootlessLayers).map fun layers =>
      match toOptions (layers.reverse.flatMap (layerProperties document)) with
      | [] => none
      | options => some options := by
  have hoptions : ∀ layers : List (Path × File),
      toOptions (layers.reverse.flatMap (layerProperties document)) =
        toOptions ((rootlessLayers layers).reverse.flatMap (layerProperties document)) := by
    intro layers
    rw [← filter_flatMap_layers, toOptions_filter_root]
  unfold resolve properties searched
  cases document.parent? with
  | none => rfl
  | some dir =>
    simp only [Option.map_some, Option.getD_some]
    cases readLayers m dir.ancestors with
    | error e => rfl
    | ok layers =>
      simp only [bind, Except.bind, Except.map]
      rw [hoptions]
      cases toOptions ((rootlessLayers layers).reverse.flatMap (layerProperties document)) <;> rfl

/-- **A root hides what is above it, and nothing else does.** The files that
apply to a document are those of all directories from its own up to the
first one whose preamble makes it a root, and reading them fails when one of
these files fails. So machines that have the same files there resolve the
same options for the document, none, or the same failure, whatever is above.
Root lines in sections need not be the same: they neither hide nor set
anything. -/
theorem resolve_visible (m : Machine) (document : Path) :
    readLayers m (searched document) = readEach m (visible m (searched document)) ∧
      ∀ m' : Machine,
        (∀ dir ∈ visible m (searched document), SameFile m m' (dir / fileName)) →
          resolve m' document = resolve m document := by
  refine ⟨readLayers_eq_readEach m _, fun m' h => ?_⟩
  rw [resolve_eq, resolve_eq, rootlessLayers_congr h]

/-- A project in `/p/a` with a file of its own in a folder, below a directory
whose file, if any, has the given bytes. -/
def nestedRoot (above : Option (List UInt8)) (inProject inFolder : String) : Machine where
  disk := ⟨fun
    | ["p"] | ["p", "a"] | ["p", "a", "b"] => some .directory
    | ["p", ".editorconfig"] => above.map (.file · false)
    | ["p", "a", ".editorconfig"] => some (.file (Text.Utf8.encode inProject.toList) false)
    | ["p", "a", "b", ".editorconfig"] => some (.file (Text.Utf8.encode inFolder.toList) false)
    | _ => none⟩
  cwd := ⟨"/p"⟩
  home := ⟨"/home"⟩
  searchPath := []

/-- The last of three root lines makes the project a root, so that a file
above it which is no text is not read. The root line in a section of the
folder's file hides nothing. -/
theorem resolve_visible_nested :
    let project := "root=true\nroot=no\nRoot:True\n[*]\nindent_size=4\n"
    let m := nestedRoot (some [0xff]) project "[*]\nroot=true\n"
    let m' := nestedRoot none project "[*]\n"
    let document : Path := ⟨"/p/a/b/x.ts"⟩
    visible m (searched document) = [⟨"/p/a/b"⟩, ⟨"/p/a"⟩] ∧
      resolve m' document = resolve m document ∧
      (resolve m document).toOption.join.map Fields.keys = some ["tabWidth"] := by
  intro project m m' document
  have hvisible : visible m (searched document) = [⟨"/p/a/b"⟩, ⟨"/p/a"⟩] := by decide +kernel
  refine ⟨hvisible, (resolve_visible m document).2 m' ?_, by decide +kernel⟩
  rw [hvisible]
  intro dir hd
  rcases List.mem_cons.mp hd with rfl | hd
  · have hfolder : (m.readText ((⟨"/p/a/b"⟩ : Path) / fileName)).toOption = some "[*]\nroot=true\n" := by
      decide +kernel
    have hfolder' : (m'.readText ((⟨"/p/a/b"⟩ : Path) / fileName)).toOption = some "[*]\n" := by
      decide +kernel
    exact sameFile_of_texts hfolder hfolder' (by decide +kernel)
  · obtain rfl := List.mem_singleton.mp hd
    have hproject : (m.readText ((⟨"/p/a"⟩ : Path) / fileName)).toOption = some project := by
      decide +kernel
    have hproject' : (m'.readText ((⟨"/p/a"⟩ : Path) / fileName)).toOption = some project := by
      decide +kernel
    exact sameFile_of_texts hproject hproject' rfl

end EditorConfig
end FormatHost
