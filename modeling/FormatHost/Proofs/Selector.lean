/-
FormatHost.Proofs.Selector — the files of a workspace folder that the
selectors take.

The pattern for the extensions of a table begins with the text of the
folder, and that text is read as a part of the glob. With a bracket, a
brace or a backslash in it, the pattern speaks of other folders, or of
none. Without them it takes every file below the folder whose name ends in
an extension; the stars and question marks that a folder may have in its
name do no harm.

* §1 scores, of which 10 is the best;
* §2 extensions that a glob can hold;
* §3 `takes_extensionPattern`: what the pattern takes;
* §4 `score_below_folder`.
-/
import FormatHost.Proofs.Glob.Taking
import FormatHost.Proofs.Text
import FormatHost.Selector

namespace FormatHost

open Text

/-! ## §1 Scores -/

namespace DocumentFilter

variable {f : DocumentFilter} {d : Document}

theorem fieldScore_le (expected actual : String) : fieldScore expected actual ≤ 10 := by
  unfold fieldScore
  split
  · exact le_refl _
  · split <;> decide

theorem fieldScores_le : ∀ x ∈ f.fieldScores d, x ≤ 10 := by
  intro x hx
  simp only [fieldScores, List.mem_append, Option.mem_toList, Option.map_eq_some_iff] at hx
  rcases hx with (⟨l, -, rfl⟩ | ⟨l, -, rfl⟩) | ⟨p, -, rfl⟩
  · exact fieldScore_le ..
  · exact fieldScore_le ..
  · split <;> decide

theorem score_le (f : DocumentFilter) (d : Document) : f.score d ≤ 10 := by
  unfold score
  dsimp only
  split
  · exact Nat.zero_le _
  · rw [List.foldl_max]
    cases hbest : (f.fieldScores d).max? with
    | none => exact Nat.zero_le _
    | some x =>
      exact max_le (Nat.zero_le _) (fieldScores_le x (List.max?_mem hbest))

/-- A filter of files takes the files that its pattern matches. -/
theorem score_ofPattern {pattern : String} (hscheme : d.uri.scheme = Uri.fileScheme)
    (h : patternMatches pattern d = true) : (ofPattern pattern).score d = 10 := by
  simp [score, fieldScores, ofPattern, fieldScore, hscheme, h]

end DocumentFilter

namespace Selectors

variable {filters : List DocumentFilter} {d : Document}

/-- One filter with the best score there is decides. -/
theorem bestScore_eq {f : DocumentFilter} (hf : f ∈ filters) (h : f.score d = 10) :
    bestScore filters d = 10 := by
  have hbest : (filters.map (·.score d)).max? = some 10 := by
    refine List.max?_eq_some_iff.mpr ⟨h ▸ List.mem_map_of_mem hf, fun x hx => ?_⟩
    obtain ⟨g, -, rfl⟩ := List.mem_map.mp hx
    exact g.score_le d
  rw [bestScore, List.foldl_max, hbest]
  rfl

/-! ## §2 Extensions -/

/-- An extension that a glob can hold: a dot, and a name without special
characters. -/
def IsPlainExtension (ext : String) : Prop :=
  ext.toList.head? = some '.' ∧ Glob.IsPlainName (bareExtension ext)

instance (ext : String) : Decidable (IsPlainExtension ext) := inferInstanceAs (Decidable (_ ∧ _))

theorem isPlain_of_isAlphanum {c : Char} (h : c.isAlphanum = true) : Glob.isPlain c = true := by
  by_contra hspecial
  have hall : Glob.specials.all (!·.isAlphanum) = true := by decide
  have hmem : c ∈ Glob.specials := by simpa [Glob.isPlain] using hspecial
  have hc := List.all_eq_true.mp hall c hmem
  rw [h] at hc
  cases hc

/-- A dot and then letters and digits, with more dots between them or not, is
such an extension. -/
theorem isPlainExtension_of_isAlphanum (c : Char) (cs : List Char) (hc : c.isAlphanum = true)
    (hcs : cs.all (fun x => x = '.' || x.isAlphanum) = true) :
    IsPlainExtension (String.ofList ('.' :: c :: cs)) := by
  have hdot : c ≠ '.' := by
    rintro rfl
    exact absurd hc (by decide)
  have hbare : bareExtension (String.ofList ('.' :: c :: cs)) = String.ofList (c :: cs) := by
    simp [bareExtension, hdot]
  have hplain : ∀ x ∈ c :: cs, Glob.isPlain x = true := by
    intro x hx
    rcases List.mem_cons.mp hx with rfl | hx
    · exact isPlain_of_isAlphanum hc
    · have hcase : x = '.' ∨ x.isAlphanum = true := by simpa using List.all_eq_true.mp hcs x hx
      rcases hcase with rfl | hx
      · decide
      · exact isPlain_of_isAlphanum hx
  refine ⟨by simp, ?_⟩
  rw [hbare]
  exact ⟨by simp, by simpa using hplain⟩

/-- What comes before the name in an extension ends in a dot. -/
theorem exists_bareExtension {ext : String} (h : ext.toList.head? = some '.') :
    ∃ dots, ext.toList = dots ++ '.' :: (bareExtension ext).toList := by
  obtain ⟨cs, hcs⟩ := List.head?_eq_some_iff.mp h
  have hdrop : ∀ cs : List Char, ∃ dots,
      '.' :: cs = dots ++ '.' :: ('.' :: cs).dropWhile (· = '.') := by
    intro cs
    induction cs with
    | nil => exact ⟨[], rfl⟩
    | cons c cs ih =>
      by_cases hc : c = '.'
      · obtain ⟨dots, hdots⟩ := ih
        subst hc
        exact ⟨'.' :: dots, congrArg _ hdots⟩
      · exact ⟨[], by simp [hc]⟩
  obtain ⟨dots, hdots⟩ := hdrop cs
  refine ⟨dots, ?_⟩
  rw [bareExtension, String.toList_ofList, hcs]
  exact hdots

/-! ## §3 The pattern of a folder -/

theorem folderText_front (folder : Path) :
    (folderText folder).toList <+: folder.text.toList := by
  rw [folderText, String.toList_ofList]
  exact List.rdropWhile_prefix _ _

/-- The text of a folder begins with the slash of the root, if at all. -/
theorem head_folderText {folder : Path} (h : folder.isAbsolute = true) {c : Char}
    (hc : (folderText folder).toList.head? = some c) : c = '/' := by
  have hroot : ∃ rest, folder.text.toList = '/' :: rest := by
    unfold Path.isAbsolute Path.lead Path.readLead at h
    split at h
    · rename_i rest hslash
      exact ⟨rest, hslash⟩
    all_goals exact absurd h Bool.false_ne_true
  obtain ⟨rest, hrest⟩ := hroot
  obtain ⟨cs, hcs⟩ := List.head?_eq_some_iff.mp hc
  have hfront := folderText_front folder
  rw [hcs, hrest] at hfront
  exact (List.cons_prefix_cons.mp hfront).1

/-- The pattern for files of some extensions. -/
def extensionPattern (folder : Path) (names : List String) : String :=
  folderText folder ++ "/**/*.\x7b" ++ ",".intercalate names ++ "\x7d"

/-- The text of the pattern after the folder and a slash. -/
def extensionTail (names : List String) : List Char :=
  '*' :: '*' :: '/' :: '*' :: '.' :: '\x7b' :: (joinWith ',' (names.map String.toList) ++ ['\x7d'])

theorem toList_extensionPattern (folder : Path) (names : List String) :
    (extensionPattern folder names).toList =
      (folderText folder).toList ++ '/' :: extensionTail names := by
  have hcomma : ",".toList = [','] := rfl
  simp [extensionPattern, extensionTail, toList_intercalate hcomma]

/-- It is read as directories, a star, a dot and the names. -/
theorem readTokens_extensionTail {ts : List Glob.Token} {cs : List Char}
    (h : Glob.Covers (some '/') ts cs) {names : List String} (hne : names ≠ [])
    (hnames : ∀ name ∈ names, Glob.IsPlainName name) :
    ∃ us a b, Glob.Takes {} us.reverse a ∧ Utf8.encode cs = a ++ Glob.slash :: b ∧
      Glob.readTokens {} false (some '/') ⟨ts, []⟩ (extensionTail names) =
        .ok ⟨.alternatives (names.map (Glob.literals ·.toList)) :: .literal '.' :: .zeroOrMore ::
          .recursiveMiddle :: us, []⟩ := by
  obtain ⟨us, a, b, hus, hcs, hread⟩ := h.readTokens_directories
  refine ⟨us, a, b, hus, hcs, ?_⟩
  rw [extensionTail, hread, Glob.readTokens, Glob.readTokens_plain_cons _ (by decide),
    Glob.readTokens]
  · exact Glob.readTokens_names hne hnames [] _
  · simp

/-- **Read as a glob, the pattern takes the folder, anything below it, a dot
and one of the names.** -/
theorem takes_extensionPattern {folder : Path} (hroot : folder.isAbsolute = true)
    (hfolder : ∀ c ∈ folder.text.toList, Glob.takesItself c = true) {names : List String}
    (hnames : ∀ name ∈ names, Glob.IsPlainName name) {name : String} (hm : name ∈ names)
    (below : List Char) :
    ∃ tokens, Glob.parse {} (extensionPattern folder names) =
        .ok ⟨extensionPattern folder names, {}, tokens⟩ ∧
      Glob.Takes {} tokens (Utf8.encode
        ((folderText folder).toList ++ ['/'] ++ below ++ ['.'] ++ name.toList)) := by
  obtain ⟨us, hread, hus⟩ := Glob.readTokens_folder
    (fun c hc => hfolder c ((folderText_front folder).subset hc)) (fun c => head_folderText hroot)
    (extensionTail names)
  obtain ⟨vs, a, b, hvs, hbytes, htail⟩ :=
    readTokens_extensionTail hus (List.ne_nil_of_mem hm) hnames
  refine ⟨vs.reverse ++ [.recursiveMiddle] ++ [.zeroOrMore] ++ [.literal '.'] ++
    [.alternatives (names.map (Glob.literals ·.toList))], ?_, ?_⟩
  · rw [Glob.parse, Glob.parseTokens, toList_extensionPattern, hread, htail]
    simp [Glob.Reading.inBraces, Except.map]
  · have hfront := (hvs.append Glob.takes_recursiveMiddle_slash).append
      (Glob.takes_zeroOrMore (d := {}) (a := b ++ Utf8.encode below) fun _ _ => rfl)
    have hbranch := Glob.takes_alternatives (List.mem_map_of_mem (f := (Glob.literals ·.toList)) hm)
      (Glob.allSilent_literals (by simpa using (hnames name hm).1))
      (Glob.takes_literals (d := {}) name.toList)
    have hsplit : Utf8.encode
        ((folderText folder).toList ++ ['/'] ++ below ++ ['.'] ++ name.toList) =
        a ++ [Glob.slash] ++ (b ++ Utf8.encode below) ++ Utf8.encode ['.'] ++
          Utf8.encode name.toList := by
      rw [Utf8.encode_append, Utf8.encode_append, Utf8.encode_append, hbytes]
      simp
    rw [hsplit]
    exact (hfront.append (Glob.takes_literal '.')).append hbranch

/-! ## §4 Files below a folder -/

/-- The names in the pattern of a table are those of its extensions. -/
theorem mem_extensions_iff {info : SupportInfo} {name : String} :
    name ∈ extensions info ↔
      ∃ l ∈ info.languages, ∃ ext ∈ l.extensions, bareExtension ext = name := by
  simp only [extensions, List.mem_eraseDups, List.mem_map, List.mem_flatMap]
  constructor
  · rintro ⟨ext, ⟨l, hl, hext⟩, hname⟩
    exact ⟨l, hl, ext, hext, hname⟩
  · rintro ⟨l, hl, ext, hext, hname⟩
    exact ⟨ext, ⟨l, hl, hext⟩, hname⟩

variable {info : SupportInfo} {folder : Path}

/-- Turning languages off leaves the pattern where it is. -/
theorem extensionPattern_mem (s : Settings) (hne : extensions info ≠ []) :
    DocumentFilter.ofPattern (extensionPattern folder (extensions info)) ∈
      (build info (some folder) s).language := by
  have hpattern : extensionPattern folder (extensions info) ∈ folderPatterns info folder s := by
    refine List.mem_append.mpr (.inr ?_)
    split
    · rename_i hnil
      exact absurd hnil hne
    · exact List.mem_singleton_self _
  refine List.mem_filter.mpr ⟨List.mem_append.mpr (.inl ?_), rfl⟩
  exact List.mem_map_of_mem hpattern

/-- A document with a path is a file. -/
theorem scheme_of_path? {d : Document} {p : Path} (h : d.path? = some p) :
    d.uri.scheme = Uri.fileScheme := by
  unfold Document.path? Uri.filePath? at h
  split at h
  · rename_i hfile
    exact beq_iff_eq.mp (Bool.and_eq_true_iff.mp hfile).1
  · cases h

/-- **Every file below a folder whose name ends in an extension of the table
has the best score**, whatever its language and whatever the settings, as
long as the folder's text has no bracket, brace or backslash in it. -/
theorem score_below_folder
    (htable : ∀ l ∈ info.languages, ∀ ext ∈ l.extensions, IsPlainExtension ext)
    (hroot : folder.isAbsolute = true)
    (hfolder : ∀ c ∈ folder.text.toList, Glob.takesItself c = true) (s : Settings)
    {l : Language} (hl : l ∈ info.languages) {ext : String} (hext : ext ∈ l.extensions)
    {d : Document} {below : String}
    (hp : d.path? = some ⟨folderText folder ++ "/" ++ below ++ ext⟩) :
    (build info (some folder) s).score d = 10 := by
  have hnames : ∀ name ∈ extensions info, Glob.IsPlainName name := by
    intro name hn
    obtain ⟨l, hl, ext, hext, rfl⟩ := mem_extensions_iff.mp hn
    exact (htable l hl ext hext).2
  have hm : bareExtension ext ∈ extensions info := mem_extensions_iff.mpr ⟨l, hl, ext, hext, rfl⟩
  obtain ⟨dots, hdots⟩ := exists_bareExtension (htable l hl ext hext).1
  obtain ⟨tokens, hparse, htakes⟩ :=
    takes_extensionPattern hroot hfolder hnames hm (below.toList ++ dots)
  have hbytes : Utf8.encode (folderText folder ++ "/" ++ below ++ ext).toList =
      Utf8.encode ((folderText folder).toList ++ ['/'] ++ (below.toList ++ dots) ++ ['.'] ++
        (bareExtension ext).toList) := by
    simp [hdots]
  have hmatch :
      DocumentFilter.patternMatches (extensionPattern folder (extensions info)) d = true := by
    rw [DocumentFilter.patternMatches, hparse, hp]
    refine Glob.matchesBytes_of_takes ?_
    rw [hbytes]
    exact htakes
  exact bestScore_eq (extensionPattern_mem s (List.ne_nil_of_mem hm))
    (DocumentFilter.score_ofPattern (scheme_of_path? hp) hmatch)

/-- A folder with stars and other marks in its name. -/
def markedFolder : Path := ⟨"/ws/**/a*?,]b/"⟩

def scriptTable : SupportInfo :=
  { languages := [{ name := "Script", extensions := [".ts", ".d.ts"], identifiers := ["script"] }] }

def markedScript : Document :=
  ⟨{ scheme := "file", hasAuthority := true, path := "/ws/**/a*%3F,%5Db/src/x.d.ts" }, "plain", ""⟩

theorem score_below_marked_folder :
    markedScript.path? = some ⟨folderText markedFolder ++ "/" ++ "src/x" ++ ".d.ts"⟩ ∧
      ∀ s : Settings, (build scriptTable (some markedFolder) s).score markedScript = 10 := by
  have hp : markedScript.path? = some ⟨folderText markedFolder ++ "/" ++ "src/x" ++ ".d.ts"⟩ := by
    decide +kernel
  have hfolder : markedFolder.text.toList.all Glob.takesItself = true := by decide +kernel
  have htable : ∀ l ∈ scriptTable.languages, ∀ ext ∈ l.extensions, IsPlainExtension ext := by
    intro l hl ext hext
    obtain rfl := List.mem_singleton.mp hl
    simp only [List.mem_cons, List.not_mem_nil, or_false] at hext
    rcases hext with rfl | rfl
    · exact isPlainExtension_of_isAlphanum 't' ['s'] (by decide) (by decide)
    · exact isPlainExtension_of_isAlphanum 'd' ['.', 't', 's'] (by decide) (by decide)
  exact ⟨hp, fun s => score_below_folder htable (by decide +kernel)
    (List.all_eq_true.mp hfolder) s (List.mem_singleton_self _) (by decide +kernel) hp⟩

/-- A bracket in the name of the folder opens a class of characters. -/
theorem score_below_bracket_folder :
    ¬ ∀ (info : SupportInfo) (folder : Path) (s : Settings) (d : Document) (below ext : String),
      (∀ l ∈ info.languages, ∀ ext ∈ l.extensions, IsPlainExtension ext) →
      folder.isAbsolute = true → (∃ l ∈ info.languages, ext ∈ l.extensions) →
      d.path? = some ⟨folderText folder ++ "/" ++ below ++ ext⟩ →
      (build info (some folder) s).score d = 10 := by
  intro h
  have hten := h scriptTable ⟨"/ws/[app]"⟩ {}
    ⟨{ scheme := "file", hasAuthority := true, path := "/ws/%5Bapp%5D/src/a.ts" }, "plain", ""⟩
    "src/a" ".ts" (by decide +kernel) (by decide +kernel) (by decide +kernel) (by decide +kernel)
  exact absurd hten (by decide +kernel)

end Selectors
end FormatHost
