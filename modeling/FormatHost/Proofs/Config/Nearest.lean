/-
FormatHost.Proofs.Config.Nearest — which configuration file applies.

A search passes the directories above a file, nearest first, and in each the
names of configuration files, in order. A name counts when something is there;
a manifest must moreover have options for the formatter. What is found is the
first that counts. A manifest that cannot be read, is none, or has no options
is passed over like any name that is not there: it does not end the search.

* §1 `Counts`: what a search looks for;
* §2 the candidates of a search, one after the other;
* §3 two machines: a broken manifest may as well be missing, and what stands
  behind the file that is found is not looked at;
* §4 `findFile_first`.
-/
import FormatHost.Proofs.Config.Coverage
import FormatHost.Proofs.Config.Reading
import FormatHost.Proofs.Run
import FormatHost.Proofs.Search

namespace FormatHost

open Json

/-! ## §1 What counts -/

/-- Only `null` has the value `null`. -/
theorem Json.Source.eq_null_of_value? {levels : Nat} {s : Source}
    (h : s.value? levels = some .null) : s = .null := by
  unfold value? at h
  split at h
  · rfl
  · cases h
  · simp at h
  · simp at h
  · cases h
  · cases h
  · simp at h
  · simp at h

/-- The options in a manifest are not `null`. -/
theorem Manifest.prettier_ne_null {text : String} {manifest : Manifest} {v : Value}
    (h : parse? text = some manifest) (hv : manifest.prettier = some v) : v ≠ .null := by
  rintro rfl
  obtain ⟨s, -, hs⟩ := Option.bind_eq_some_iff.mp h
  rcases prettier_of_decode? hs with hn | ⟨given, v, hne, hgiven, hsome⟩
  · rw [hn] at hv
    cases hv
  · obtain rfl : v = .null := Option.some.inj (hsome.symm.trans hv)
    exact hne (Source.eq_null_of_value? hgiven)

namespace Config

/-- The manifest at a path has options for the formatter. -/
def HasOptions (m : Machine) (p : Path) : Prop :=
  ∃ text manifest value, m.readText p = .ok text ∧ Manifest.parse? text = some manifest ∧
    manifest.prettier = some value ∧ value ≠ .null

/-- The manifest at a path is of no use: it cannot be read, is no manifest, or
has no options for the formatter. -/
def IsMute (m : Machine) (p : Path) : Prop :=
  (∃ e, m.readText p = .error e) ∨
    ∃ text, m.readText p = .ok text ∧
      (Manifest.parse? text = none ∨
        ∃ manifest, Manifest.parse? text = some manifest ∧ manifest.prettier = none)

/-- The name stands for a configuration file in the directory: something is
there, and a manifest has options for the formatter. -/
structure Counts (m : Machine) (dir : Path) (name : String) : Prop where
  there : m.exists? (dir / name) = .ok true
  options : name = manifestFile → HasOptions m (dir / name)

section Counting

variable {m : Machine} {p dir : Path} {name : String}

theorem IsMute.not_hasOptions (h : IsMute m p) : ¬ HasOptions m p := by
  rintro ⟨text, manifest, v, ht, hm, hv, -⟩
  rcases h with ⟨e, he⟩ | ⟨text', ht', h⟩
  · cases ht.symm.trans he
  obtain rfl := Except.ok.inj (ht.symm.trans ht')
  rcases h with hnone | ⟨manifest', hm', hnone⟩
  · cases hm.symm.trans hnone
  · obtain rfl := Option.some.inj (hm.symm.trans hm')
    cases hv.symm.trans hnone

/-- A manifest is asked for its options exactly when it has some. -/
theorem carriesOptions_iff : carriesOptions m p = true ↔ HasOptions m p := by
  unfold carriesOptions
  constructor
  · intro h
    split at h
    · rename_i manifest hr
      obtain ⟨text, ht, hp⟩ := Manifest.read_eq_ok_iff.mp hr
      obtain ⟨v, hv⟩ := Option.isSome_iff_exists.mp h
      exact ⟨text, manifest, v, ht, hp, hv, Manifest.prettier_ne_null hp hv⟩
    · cases h
  · rintro ⟨text, manifest, v, ht, hp, hv, -⟩
    rw [Manifest.read_eq_ok_iff.mpr ⟨text, ht, hp⟩]
    simp [hv]

/-- A candidate that can be checked qualifies exactly when it counts. -/
theorem exists_qualifies {there : Bool} (h : m.exists? (dir / name) = .ok there) :
    ∃ b, qualifies m dir name = .ok b ∧ (b = true ↔ Counts m dir name) := by
  unfold qualifies
  rw [h]
  cases there with
  | false =>
    refine ⟨false, rfl, iff_of_false Bool.false_ne_true fun hc => ?_⟩
    cases h.symm.trans hc.there
  | true =>
    refine ⟨_, rfl, ?_⟩
    rw [Bool.or_eq_true, decide_eq_true_eq, carriesOptions_iff]
    constructor
    · rintro (hne | ho)
      · exact ⟨h, fun he => absurd he hne⟩
      · exact ⟨h, fun _ => ho⟩
    · intro hc
      by_cases he : name = manifestFile
      · exact .inr (hc.options he)
      · exact .inl he

theorem qualifies_of_counts (h : Counts m dir name) : qualifies m dir name = .ok true := by
  obtain ⟨b, hb, hc⟩ := exists_qualifies h.there
  rw [hb, hc.mpr h]

theorem qualifies_of_not_counts {there : Bool} (h : m.exists? (dir / name) = .ok there)
    (hn : ¬ Counts m dir name) : qualifies m dir name = .ok false := by
  obtain ⟨b, hb, hc⟩ := exists_qualifies h
  rw [hb, Bool.eq_false_iff.mpr (mt hc.mp hn)]

end Counting

/-! ## §2 One candidate after the other -/

section Candidates

variable {m : Machine} {start : Path} {cs : List (Path × String)} {c : Path × String}

/-- What counts is found where nothing before it qualifies, whatever comes
after it. -/
theorem firstFile_append {front back : List (Path × String)}
    (hf : ∀ c' ∈ front, qualifies m c'.1 c'.2 = .ok false)
    (hc : qualifies m c.1 c.2 = .ok true) :
    firstFile m (front ++ c :: back) = .ok (some (c.1 / c.2)) := by
  induction front with
  | nil =>
    rw [List.nil_append, firstFile, hc]
    rfl
  | cons c' front ih =>
    obtain ⟨hc', hf⟩ := List.forall_mem_cons.mp hf
    rw [List.cons_append, firstFile, hc']
    exact ih hf

theorem firstFile_none (h : ∀ c ∈ cs, qualifies m c.1 c.2 = .ok false) :
    firstFile m cs = .ok none := by
  induction cs with
  | nil => rfl
  | cons c cs ih =>
    obtain ⟨hc, hcs⟩ := List.forall_mem_cons.mp h
    rw [firstFile, hc]
    exact ih hcs

/-- The candidate counts. -/
def CandidateCounts (m : Machine) (c : Path × String) : Prop := Counts m c.1 c.2

/-- Every candidate can be checked for. -/
def Checked (m : Machine) (cs : List (Path × String)) : Prop :=
  ∀ c ∈ cs, ∃ there, m.exists? (c.1 / c.2) = .ok there

theorem Checked.qualifies (h : Checked m cs) (hc : c ∈ cs) (hn : ¬ CandidateCounts m c) :
    qualifies m c.1 c.2 = .ok false := by
  obtain ⟨there, ht⟩ := h c hc
  exact qualifies_of_not_counts ht hn

theorem Checked.firstFile_isFirst (h : Checked m cs) (hc : IsFirst (CandidateCounts m) cs c) :
    firstFile m cs = .ok (some (c.1 / c.2)) := by
  obtain ⟨front, back, rfl, hc, hfront⟩ := hc
  exact firstFile_append
    (fun c' hc' => h.qualifies (List.mem_append_left _ hc') (hfront c' hc'))
    (qualifies_of_counts hc)

/-- The answer is the first candidate that counts. -/
theorem Checked.firstFile_eq_some_iff (h : Checked m cs) {p : Path} :
    firstFile m cs = .ok (some p) ↔ ∃ c, IsFirst (CandidateCounts m) cs c ∧ p = c.1 / c.2 := by
  constructor
  · intro hp
    rcases exists_isFirst (CandidateCounts m) cs with ⟨c, hc⟩ | hnone
    · have he := (h.firstFile_isFirst hc).symm.trans hp
      exact ⟨c, hc, (Option.some.inj (Except.ok.inj he)).symm⟩
    · cases (firstFile_none fun c hc => h.qualifies hc (hnone c hc)).symm.trans hp
  · rintro ⟨c, hc, rfl⟩
    exact h.firstFile_isFirst hc

theorem Checked.firstFile_eq_none_iff (h : Checked m cs) :
    firstFile m cs = .ok none ↔ ∀ c ∈ cs, ¬ CandidateCounts m c := by
  constructor
  · intro hp
    rcases exists_isFirst (CandidateCounts m) cs with ⟨c, hc⟩ | hnone
    · cases (h.firstFile_isFirst hc).symm.trans hp
    · exact hnone
  · exact fun hnone => firstFile_none fun c hc => h.qualifies hc (hnone c hc)

theorem forall_mem_candidates {P : Path × String → Prop} :
    (∀ c ∈ candidates start, P c) ↔
      ∀ dir ∈ start.ancestors, ∀ name ∈ fileNames, P (dir, name) := by
  unfold candidates
  simp only [List.forall_mem_flatMap, List.forall_mem_map]

/-- What comes before a candidate and after it. -/
theorem candidates_split {nearer farther : List Path} {dir : Path} {earlier later : List String}
    {name : String} (hdirs : start.ancestors = nearer ++ dir :: farther)
    (hnames : fileNames = earlier ++ name :: later) :
    candidates start =
      (nearer.flatMap (fun d => fileNames.map (d, ·)) ++ earlier.map (dir, ·)) ++
        (dir, name) ::
          (later.map (dir, ·) ++ farther.flatMap fun d => fileNames.map (d, ·)) := by
  have hrow : fileNames.map (dir, ·) =
      earlier.map (dir, ·) ++ (dir, name) :: later.map (dir, ·) := by
    rw [hnames, List.map_append, List.map_cons]
  unfold candidates
  rw [hdirs, List.flatMap_append, List.flatMap_cons, hrow]
  simp only [List.append_assoc, List.cons_append]

end Candidates

/-! ## §3 Two machines -/

section Machines

variable {m m' : Machine} {cs : List (Path × String)}

/-- Where the same candidates count, the same is found. -/
theorem firstFile_eq_of_counts (h : Checked m cs) (h' : Checked m' cs)
    (hc : ∀ c ∈ cs, CandidateCounts m' c ↔ CandidateCounts m c) :
    firstFile m' cs = firstFile m cs := by
  rcases exists_isFirst (CandidateCounts m) cs with ⟨c, hfirst⟩ | hnone
  · have hfirst' : IsFirst (CandidateCounts m') cs c := by
      obtain ⟨front, back, rfl, hp, hfront⟩ := hfirst
      refine ⟨front, back, rfl, (hc c (by simp)).mpr hp, fun c' hc' => ?_⟩
      exact mt (hc c' (List.mem_append_left _ hc')).mp (hfront c' hc')
    rw [h.firstFile_isFirst hfirst, h'.firstFile_isFirst hfirst']
  · rw [h.firstFile_eq_none_iff.mpr hnone,
      h'.firstFile_eq_none_iff.mpr fun c hm => mt (hc c hm).mp (hnone c hm)]

/-- A candidate that counts shuts off what comes after it. -/
theorem firstFile_eq_of_prefix {front back : List (Path × String)} {c : Path × String}
    (h : Checked m (front ++ c :: back)) (hc : CandidateCounts m c)
    (hlook : ∀ c' ∈ front ++ [c], LookAlike m m' (c'.1 / c'.2)) :
    firstFile m' (front ++ c :: back) = firstFile m (front ++ c :: back) := by
  have hcs : front ++ c :: back = (front ++ [c]) ++ back := by simp
  rcases exists_isFirst (CandidateCounts m) (front ++ [c]) with
    ⟨d, before, between, he, hd, hb⟩ | hnone
  · rw [hcs, he, List.append_assoc, List.cons_append]
    have hin : ∀ c' ∈ before, c' ∈ front ++ [c] := fun c' hc' => by
      rw [he]
      exact List.mem_append_left _ hc'
    have hpass : ∀ c' ∈ before, qualifies m c'.1 c'.2 = .ok false := fun c' hc' =>
      h.qualifies (hcs ▸ List.mem_append_left _ (hin c' hc')) (hb c' hc')
    have hmem : d ∈ front ++ [c] := by
      rw [he]
      simp
    rw [firstFile_append hpass (qualifies_of_counts hd),
      firstFile_append
        (fun c' hc' => (hlook c' (hin c' hc')).qualifies_eq.trans (hpass c' hc'))
        ((hlook d hmem).qualifies_eq.trans (qualifies_of_counts hd))]
  · exact absurd hc (hnone c (by simp))

/-- On the other machine there is nothing at the path, or a manifest that is
of no use. -/
def StaysMute (m : Machine) (p : Path) : Prop :=
  m.exists? p = .ok false ∨ m.exists? p = .ok true ∧ IsMute m p

theorem LookAlike.counts_iff {dir : Path} {name : String} (h : LookAlike m m' (dir / name)) :
    Counts m' dir name ↔ Counts m dir name := by
  have ho : HasOptions m' (dir / name) ↔ HasOptions m (dir / name) := by
    unfold HasOptions
    rw [h.readText_eq]
  constructor
  · exact fun hc => ⟨h.exists?_eq ▸ hc.there, fun he => ho.mp (hc.options he)⟩
  · exact fun hc => ⟨h.exists?_eq ▸ hc.there, fun he => ho.mpr (hc.options he)⟩

theorem IsMute.not_counts {dir : Path} (h : IsMute m (dir / manifestFile)) :
    ¬ Counts m dir manifestFile :=
  fun hc => h.not_hasOptions (hc.options rfl)

theorem StaysMute.not_counts {dir : Path} (h : StaysMute m (dir / manifestFile)) :
    ¬ Counts m dir manifestFile := by
  rcases h with hnone | ⟨-, hmute⟩
  · intro hc
    cases hnone.symm.trans hc.there
  · exact hmute.not_counts

theorem StaysMute.checked {p : Path} (h : StaysMute m p) : ∃ there, m.exists? p = .ok there := by
  rcases h with h | ⟨h, -⟩ <;> exact ⟨_, h⟩

end Machines

/-! ## §4 The nearest configuration file -/

/-- **The file that is found is the first that counts.** Where every existence
check succeeds, the search gives the first directory, nearest first, in which a
name counts, with the first such name; it gives none exactly when no name
counts in any directory. So a manifest that is broken or without options may be
missing instead or be broken otherwise, and what is farther away than a file
that counts, or later in its directory, may be anything. -/
theorem findFile_first {m : Machine} {start : Path}
    (h : ∀ dir ∈ start.ancestors, ∀ name ∈ fileNames,
      ∃ there, m.exists? (dir / name) = .ok there) :
    (∀ p, findFile m start = .ok (some p) ↔
      ∃ dir name, IsFirst (fun dir => ∃ name ∈ fileNames, Counts m dir name) start.ancestors dir ∧
        IsFirst (Counts m dir) fileNames name ∧ p = dir / name) ∧
    (findFile m start = .ok none ↔
      ∀ dir ∈ start.ancestors, ∀ name ∈ fileNames, ¬ Counts m dir name) ∧
    (∀ m' : Machine,
      (∀ dir ∈ start.ancestors, ∀ name ∈ fileNames, LookAlike m m' (dir / name) ∨
        name = manifestFile ∧ IsMute m (dir / name) ∧ StaysMute m' (dir / name)) →
      findFile m' start = findFile m start) ∧
    ∀ (m' : Machine) (nearer farther : List Path) (dir : Path) (earlier later : List String)
      (name : String), start.ancestors = nearer ++ dir :: farther →
      fileNames = earlier ++ name :: later → Counts m dir name →
      (∀ d ∈ nearer, ∀ n ∈ fileNames, LookAlike m m' (d / n)) →
      (∀ n ∈ earlier ++ [name], LookAlike m m' (dir / n)) →
      findFile m' start = findFile m start := by
  have hchecked : Checked m (candidates start) := forall_mem_candidates.mpr h
  refine ⟨fun p => ?_, ?_, fun m' halike => ?_, ?_⟩
  · unfold findFile
    rw [hchecked.firstFile_eq_some_iff]
    constructor
    · rintro ⟨c, hc, rfl⟩
      obtain ⟨hdir, hname⟩ := isFirst_pairs.mp hc
      exact ⟨c.1, c.2, hdir, hname, rfl⟩
    · rintro ⟨dir, name, hdir, hname, rfl⟩
      exact ⟨(dir, name), isFirst_pairs.mpr ⟨hdir, hname⟩, rfl⟩
  · exact hchecked.firstFile_eq_none_iff.trans forall_mem_candidates
  · have hchecked' : Checked m' (candidates start) := by
      refine forall_mem_candidates.mpr fun dir hd name hn => ?_
      rcases halike dir hd name hn with hlook | ⟨-, -, hmute⟩
      · rw [hlook.exists?_eq]
        exact h dir hd name hn
      · exact hmute.checked
    refine firstFile_eq_of_counts hchecked hchecked' (forall_mem_candidates.mpr ?_)
    intro dir hd name hn
    rcases halike dir hd name hn with hlook | ⟨rfl, hmute, hmute'⟩
    · exact hlook.counts_iff
    · exact iff_of_false hmute'.not_counts hmute.not_counts
  · intro m' nearer farther dir earlier later name hdirs hnames hc hnear hdir
    unfold findFile
    rw [candidates_split hdirs hnames] at hchecked ⊢
    refine firstFile_eq_of_prefix hchecked hc fun c hm => ?_
    rw [List.append_assoc] at hm
    rcases List.mem_append.mp hm with hm | hm
    · obtain ⟨d, hd, hm⟩ := List.mem_flatMap.mp hm
      obtain ⟨n, hn, rfl⟩ := List.mem_map.mp hm
      exact hnear d hd n hn
    · have hrow : c ∈ (earlier ++ [name]).map (dir, ·) := by
        rw [List.map_append]
        exact hm
      obtain ⟨n, hn, rfl⟩ := List.mem_map.mp hrow
      exact hdir n hn

/-- A project with these manifests at its top and in a directory below, and
with a configuration file at its top. -/
def manifestProject (outer inner : Option String) : Machine where
  disk := ⟨fun
    | ["p"] | ["p", "a"] => some .directory
    | ["p", ".prettierrc"] => some (.file (Text.Utf8.encode "semi: false\n".toList) false)
    | ["p", "package.json"] => outer.map fun s => .file (Text.Utf8.encode s.toList) false
    | ["p", "a", "package.json"] => inner.map fun s => .file (Text.Utf8.encode s.toList) false
    | _ => none⟩
  cwd := ⟨"/p"⟩
  home := ⟨"/home"⟩
  searchPath := []

/-- Manifests that are malformed or have no options leave the search where no
manifests would. -/
theorem findFile_first_layered :
    let start : Path := ⟨"/p/a"⟩
    let m := manifestProject (some "\x7b\"prettier\": null\x7d") (some "\x7b")
    (∀ dir ∈ start.ancestors, ∀ name ∈ fileNames, ∃ there, m.exists? (dir / name) = .ok there) ∧
      (∃ dir name,
        IsFirst (fun dir => ∃ name ∈ fileNames, Counts m dir name) start.ancestors dir ∧
          IsFirst (Counts m dir) fileNames name ∧ ⟨"/p/.prettierrc"⟩ = dir / name) ∧
      findFile (manifestProject none none) start = findFile m start := by
  intro start m
  -- nothing fails to be looked at, and nothing looks otherwise but the two manifests
  have hplaces : ∀ dir ∈ start.ancestors, ∀ name ∈ fileNames,
      (m.exists? (dir / name)).toOption.isSome ∧
        ((manifestProject none none).disk.look ⟨"/p"⟩ (dir / name) =
            m.disk.look ⟨"/p"⟩ (dir / name) ∨
          name = manifestFile ∧ (dir = ⟨"/p"⟩ ∨ dir = ⟨"/p/a"⟩)) := by
    decide +kernel
  have h : ∀ dir ∈ start.ancestors, ∀ name ∈ fileNames,
      ∃ there, m.exists? (dir / name) = .ok there :=
    fun dir hd name hn => exists_ok_of_isSome (hplaces dir hd name hn).1
  obtain ⟨hfound, -, hbroken, -⟩ := findFile_first h
  have hfirst : findFile m start = .ok (some ⟨"/p/.prettierrc"⟩) :=
    eq_ok_of_toOption (by decide +kernel)
  refine ⟨h, (hfound _).mp hfirst, hbroken _ ?_⟩
  intro dir hd name hn
  rcases (hplaces dir hd name hn).2 with hlook | ⟨rfl, rfl | rfl⟩
  · exact .inl hlook
  · have htext : m.readText ((⟨"/p"⟩ : Path) / manifestFile) =
        .ok "\x7b\"prettier\": null\x7d" := by
      decide +kernel
    have hparse : (Manifest.parse? "\x7b\"prettier\": null\x7d").map (·.prettier.isNone) =
        some true := by
      decide +kernel
    obtain ⟨manifest, hm, hnone⟩ := Option.map_eq_some_iff.mp hparse
    exact .inr ⟨rfl, .inr ⟨_, htext, .inr ⟨manifest, hm, Option.isNone_iff_eq_none.mp hnone⟩⟩,
      .inl (by decide +kernel)⟩
  · have htext : m.readText ((⟨"/p/a"⟩ : Path) / manifestFile) = .ok "\x7b" := by decide +kernel
    have hparse : (Manifest.parse? "\x7b").isNone := by decide +kernel
    exact .inr ⟨rfl, .inr ⟨_, htext, .inl (Option.isNone_iff_eq_none.mp hparse)⟩,
      .inl (by decide +kernel)⟩

end Config
end FormatHost
