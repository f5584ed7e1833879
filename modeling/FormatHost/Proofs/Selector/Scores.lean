/-
FormatHost.Proofs.Selector.Scores — the score of a document, said without
filters.

The selectors of a table are a list of filters, from which what was met
before is left out, and a document's score is the best one in the list. A
filter scores 10, 5 or 0. So two questions decide, whether some filter gives
10 and whether some filter gives 5, and both are about the table: which
identifiers it lists, and which patterns it has for the folder. How often and
in which order it lists identifiers does not matter.

Extensions stand side by side in one pattern of the folder. One that has a
bracket, a brace or a backslash in it reaches for its neighbours there, and
then it does matter in which order they come, so also where one is mentioned
again. Without such characters only the set of the extensions counts.

* §1 the score of one filter;
* §2 the best score, by levels;
* §3 what a table lists, and the filters that come of it;
* §4 `Restated`: a table that says some things again;
* §5 `SameMentions`: a table that says the same things in another way;
* §6 `scores_closed`.
-/
import FormatHost.Proofs.Glob.Branches
import FormatHost.Proofs.Selector

namespace FormatHost

/-! ## §1 One filter -/

namespace DocumentFilter

variable {d : Document}

theorem fieldScore_eq_ten_iff {expected actual : String} :
    fieldScore expected actual = 10 ↔ expected = actual := by
  unfold fieldScore
  split
  · simp [*]
  · split <;> simp_all

theorem fieldScore_eq_five_iff {expected actual : String} :
    fieldScore expected actual = 5 ↔ expected ≠ actual ∧ expected = "*" := by
  unfold fieldScore
  split
  · simp [*]
  · split <;> simp_all

theorem fieldScore_cases (expected actual : String) :
    fieldScore expected actual = 0 ∨ fieldScore expected actual = 5 ∨
      fieldScore expected actual = 10 := by
  unfold fieldScore
  split
  · exact .inr (.inr rfl)
  · split
    · exact .inr (.inl rfl)
    · exact .inl rfl

theorem score_ofLanguage (language : String) (d : Document) :
    (ofLanguage language).score d = fieldScore language d.language := by
  have hfields : (ofLanguage language).fieldScores d = [fieldScore language d.language] := rfl
  rw [score, hfields]
  by_cases h : fieldScore language d.language = 0 <;> simp [h]

/-- A pattern can match only what is a file. -/
theorem scheme_of_patternMatches {pattern : String} (h : patternMatches pattern d = true) :
    d.uri.scheme = Uri.fileScheme := by
  unfold patternMatches at h
  split at h
  · rename_i hp
    exact Selectors.scheme_of_path? hp
  · cases h

theorem score_ofPattern_eq_ite (pattern : String) (d : Document) :
    (ofPattern pattern).score d = if patternMatches pattern d = true then 10 else 0 := by
  split
  · rename_i h
    exact score_ofPattern (scheme_of_patternMatches h) h
  · rename_i h
    have hfields : (ofPattern pattern).fieldScores d =
        [fieldScore Uri.fileScheme d.uri.scheme, 0] := by
      simp [fieldScores, ofPattern, h]
    rw [score, hfields]
    simp

end DocumentFilter

namespace Selectors

open DocumentFilter

/-! ## §2 The best score -/

section BestScore

variable {filters : List DocumentFilter} {d : Document}

theorem bestScore_eq_getD :
    bestScore filters d = ((filters.map (·.score d)).max?).getD 0 := by
  rw [bestScore, List.foldl_max, Nat.zero_max]

theorem score_le_bestScore {f : DocumentFilter} (hf : f ∈ filters) :
    f.score d ≤ bestScore filters d := by
  rw [bestScore_eq_getD]
  exact List.le_max?_getD_of_mem (List.mem_map_of_mem hf)

/-- The best score is that of some filter, unless it is 0. -/
theorem exists_of_bestScore_ne (h : bestScore filters d ≠ 0) :
    ∃ f ∈ filters, f.score d = bestScore filters d := by
  rw [bestScore_eq_getD] at h ⊢
  cases hmax : (filters.map (·.score d)).max? with
  | none => exact absurd (by rw [hmax]; rfl) h
  | some x => exact List.mem_map.mp (List.max?_mem hmax)

/-- Where filters score 10, 5 or 0, the best level that occurs decides. -/
theorem bestScore_eq_ite {first second : Prop} [Decidable first] [Decidable second]
    (hlevels : ∀ f ∈ filters, f.score d = 0 ∨ f.score d = 5 ∨ f.score d = 10)
    (hfirst : (∃ f ∈ filters, f.score d = 10) ↔ first)
    (hsecond : ¬ first → ((∃ f ∈ filters, f.score d = 5) ↔ second)) :
    bestScore filters d = if first then 10 else if second then 5 else 0 := by
  split
  · rename_i h
    obtain ⟨f, hf, hten⟩ := hfirst.mpr h
    exact bestScore_eq hf hten
  rename_i hno
  have hcases : bestScore filters d = 0 ∨ bestScore filters d = 5 := by
    by_cases hzero : bestScore filters d = 0
    · exact .inl hzero
    obtain ⟨f, hf, hscore⟩ := exists_of_bestScore_ne hzero
    rcases hlevels f hf with h | h | h
    · exact .inl (hscore ▸ h)
    · exact .inr (hscore ▸ h)
    · exact absurd (hfirst.mp ⟨f, hf, h⟩) hno
  split
  · rename_i h
    obtain ⟨f, hf, hfive⟩ := (hsecond hno).mpr h
    have hle := score_le_bestScore (d := d) hf
    omega
  · rename_i h
    refine hcases.resolve_right fun hfive => h ((hsecond hno).mp ?_)
    have hne : bestScore filters d ≠ 0 := by omega
    obtain ⟨f, hf, hscore⟩ := exists_of_bestScore_ne hne
    exact ⟨f, hf, hscore.trans hfive⟩

end BestScore

/-! ## §3 Tables -/

/-- Some entry of the table has the identifier. -/
def Lists (info : SupportInfo) (id : String) : Prop :=
  ∃ l ∈ info.languages, id ∈ l.identifiers

instance (info : SupportInfo) (id : String) : Decidable (Lists info id) :=
  inferInstanceAs (Decidable (∃ l ∈ info.languages, id ∈ l.identifiers))

variable {info : SupportInfo} {root : Option Path} {s : Settings} {d : Document}

theorem lists_iff_mem_flatMap {id : String} :
    Lists info id ↔ id ∈ info.languages.flatMap (·.identifiers) := by
  simp [Lists, List.mem_flatMap]

theorem mem_identifiers_iff {id : String} : id ∈ identifiers info ↔ Lists info id := by
  rw [identifiers, List.mem_eraseDups, lists_iff_mem_flatMap]

theorem isEnabled_ofLanguage (s : Settings) (id : String) :
    isEnabled s (ofLanguage id) = !s.isLanguageDisabled id := rfl

/-- What is enabled of a list of languages are the filters of those that are
not turned off. -/
theorem mem_filter_enabled_iff {f : DocumentFilter} (ids : List String) :
    f ∈ (ids.map ofLanguage).filter (isEnabled s) ↔
      ∃ id, (id ∈ ids ∧ s.isLanguageDisabled id = false) ∧ ofLanguage id = f := by
  rw [List.mem_filter, List.mem_map]
  constructor
  · rintro ⟨⟨id, hid, rfl⟩, henabled⟩
    exact ⟨id, ⟨hid, by simpa [isEnabled_ofLanguage] using henabled⟩, rfl⟩
  · rintro ⟨id, ⟨hid, hon⟩, rfl⟩
    exact ⟨⟨id, hid, rfl⟩, by simpa [isEnabled_ofLanguage] using hon⟩

/-- Turning languages off leaves all patterns. -/
theorem filter_ofPattern (s : Settings) (patterns : List String) :
    (patterns.map ofPattern).filter (isEnabled s) = patterns.map ofPattern := by
  rw [List.filter_eq_self]
  intro f hf
  obtain ⟨p, -, rfl⟩ := List.mem_map.mp hf
  rfl

/-- The filters for whole documents: one for each pattern of the folder, and
one for each identifier that is not turned off. -/
theorem mem_language_iff {f : DocumentFilter} :
    f ∈ (build info root s).language ↔
      (∃ folder ∈ root, ∃ p ∈ folderPatterns info folder s, ofPattern p = f) ∨
        ∃ id, (Lists info id ∧ s.isLanguageDisabled id = false) ∧ ofLanguage id = f := by
  cases root with
  | none =>
    simp only [build, List.nil_append, mem_filter_enabled_iff, mem_identifiers_iff, reduceCtorEq,
      Option.mem_def, false_and, exists_false, false_or]
  | some folder =>
    simp only [build, List.filter_append, filter_ofPattern, List.mem_append,
      mem_filter_enabled_iff, mem_identifiers_iff, List.mem_map, Option.mem_some_iff,
      exists_eq_left']

theorem mem_range_iff {f : DocumentFilter} :
    f ∈ (build info root s).range ↔
      ∃ id, (id ∈ rangeLanguages ∧ s.isLanguageDisabled id = false) ∧ ofLanguage id = f :=
  mem_filter_enabled_iff rangeLanguages

/-! ## §4 Tables that say things again -/

theorem eraseDups_append_of_subset {a b : List String} (h : ∀ x ∈ b, x ∈ a) (c : List String) :
    (a ++ (b ++ c)).eraseDups = (a ++ c).eraseDups := by
  have hb : b.removeAll a = [] := by
    rw [List.removeAll, List.filter_eq_nil_iff]
    intro x hx
    simpa using h x hx
  rw [List.eraseDups_append, List.eraseDups_append, List.removeAll, List.filter_append,
    ← List.removeAll, hb, List.nil_append, ← List.removeAll]

/-- The second list of entries says what the first one does, and says some of
it again: entries and extensions behind their first mention, and identifiers
as often, in whatever order and under whatever entries. In front of its first
mention an extension would also change its place in the folder's pattern, of
which `SameMentions` speaks. -/
inductive Restated : List Language → List Language → Prop
  | refl (ls : List Language) : Restated ls ls
  | trans {a b c : List Language} : Restated a b → Restated b c → Restated a c
  | entry (front : List Language) {l : Language} (h : l ∈ front) (back : List Language) :
    Restated (front ++ back) (front ++ l :: back)
  | extension (front : List Language) {l : Language} {a b : List String}
    (hl : l.extensions = a ++ b) {ext : String}
    (h : ext ∈ front.flatMap (·.extensions) ++ a) (back : List Language) :
    Restated (front ++ l :: back) (front ++ { l with extensions := a ++ ext :: b } :: back)
  | identifiers {a b : List Language} (hext : a.map (·.extensions) = b.map (·.extensions))
    (hids : ∀ id, id ∈ a.flatMap (·.identifiers) ↔ id ∈ b.flatMap (·.identifiers)) :
    Restated a b

/-- It lists the same identifiers. -/
theorem Restated.lists_iff {a b : List Language} (h : Restated a b) (id : String) :
    Lists ⟨a⟩ id ↔ Lists ⟨b⟩ id := by
  induction h with
  | refl ls => exact Iff.rfl
  | trans _ _ ha hb => exact ha.trans hb
  | entry front hl back =>
    rw [lists_iff_mem_flatMap, lists_iff_mem_flatMap]
    simp only [List.flatMap_append, List.flatMap_cons, List.mem_append]
    have hagain : id ∈ _ → id ∈ front.flatMap (·.identifiers) :=
      fun hid => List.mem_flatMap_of_mem hl hid
    tauto
  | extension front hl hext back =>
    rw [lists_iff_mem_flatMap, lists_iff_mem_flatMap]
    simp
  | identifiers _ hids => rw [lists_iff_mem_flatMap, lists_iff_mem_flatMap, hids]

/-- It has the same extensions, in the same order. -/
theorem Restated.extensions_eq {a b : List Language} (h : Restated a b) :
    extensions ⟨a⟩ = extensions ⟨b⟩ := by
  induction h with
  | refl ls => rfl
  | trans _ _ ha hb => exact ha.trans hb
  | @entry front l hl back =>
    unfold extensions
    simp only [List.flatMap_append, List.flatMap_cons, List.map_append]
    refine (eraseDups_append_of_subset (fun x hx => ?_) _).symm
    obtain ⟨ext, hext, rfl⟩ := List.mem_map.mp hx
    exact List.mem_map_of_mem (List.mem_flatMap_of_mem hl hext)
  | @extension front l a b hl ext hext back =>
    unfold extensions
    simp only [List.flatMap_append, List.flatMap_cons, List.map_append, List.map_cons, hl]
    have hsplit := eraseDups_append_of_subset
      (a := (front.flatMap (·.extensions) ++ a).map bareExtension) (b := [bareExtension ext])
      (by simpa using List.mem_map_of_mem (f := bareExtension) hext)
      (b.map bareExtension ++ (back.flatMap (·.extensions)).map bareExtension)
    simpa using hsplit.symm
  | @identifiers a b hext _ =>
    unfold extensions
    rw [List.flatMap_def, List.flatMap_def, hext]

/-! ## §5 Tables that say the same things -/

/-- The two lists of entries have the same identifiers and the same extensions,
in whatever order, as often and under whatever entries. -/
structure SameMentions (a b : List Language) : Prop where
  identifiers : ∀ id, id ∈ a.flatMap (·.identifiers) ↔ id ∈ b.flatMap (·.identifiers)
  extensions : ∀ ext, ext ∈ a.flatMap (·.extensions) ↔ ext ∈ b.flatMap (·.extensions)

theorem SameMentions.symm {a b : List Language} (h : SameMentions a b) : SameMentions b a where
  identifiers id := (h.identifiers id).symm
  extensions ext := (h.extensions ext).symm

/-- So have lists with the same entries. -/
theorem SameMentions.of_mem_iff {a b : List Language} (h : ∀ l, l ∈ a ↔ l ∈ b) :
    SameMentions a b where
  identifiers id := by simp only [List.mem_flatMap, h]
  extensions ext := by simp only [List.mem_flatMap, h]

theorem SameMentions.lists_iff {a b : List Language} (h : SameMentions a b) (id : String) :
    Lists ⟨a⟩ id ↔ Lists ⟨b⟩ id := by
  rw [lists_iff_mem_flatMap, lists_iff_mem_flatMap, h.identifiers]

theorem SameMentions.mem_extensions_iff {a b : List Language} (h : SameMentions a b)
    (name : String) : name ∈ Selectors.extensions ⟨a⟩ ↔ name ∈ Selectors.extensions ⟨b⟩ := by
  simp only [Selectors.extensions, List.mem_eraseDups, List.mem_map, h.extensions]

/-- No extension of the list reaches beyond itself in a pattern. -/
def StayInside (ls : List Language) : Prop :=
  ∀ l ∈ ls, ∀ ext ∈ l.extensions, ∀ c ∈ ext.toList, Glob.staysInside c = true

instance (ls : List Language) : Decidable (StayInside ls) :=
  decidable_of_iff (ls.all fun l => l.extensions.all fun ext => ext.toList.all Glob.staysInside)
    (by simp [StayInside])

theorem StayInside.extensions {ls : List Language} (h : StayInside ls) :
    ∀ name ∈ (Selectors.extensions ⟨ls⟩).map String.toList, ∀ c ∈ name, Glob.staysInside c = true := by
  intro name hname c hc
  obtain ⟨bare, hbare, rfl⟩ := List.mem_map.mp hname
  obtain ⟨l, hl, ext, hext, rfl⟩ := mem_extensions_iff.mp hbare
  rw [bareExtension, String.toList_ofList] at hc
  exact h l hl ext hext c ((List.dropWhile_suffix _).subset hc)

/-- The part of the pattern for extensions that is the same for every table. -/
def patternFront (folder : Path) : List Char :=
  (folderText folder).toList ++ ['/', '*', '*', '/', '*', '.']

theorem endsPlain_patternFront (folder : Path) : Glob.EndsPlain (patternFront folder) := by
  intro c hc
  obtain rfl : c = '.' := by simpa [patternFront, eq_comm] using hc
  decide

theorem StayInside.endsInNames {ls : List Language} (h : StayInside ls)
    (hne : Selectors.extensions ⟨ls⟩ ≠ []) (folder : Path) :
    Glob.EndsInNames (patternFront folder) ((Selectors.extensions ⟨ls⟩).map String.toList)
      (extensionPattern folder (Selectors.extensions ⟨ls⟩)) where
  ne_nil := by simpa using hne
  inside := h.extensions
  text := by
    rw [toList_extensionPattern, patternFront, extensionTail]
    simp

/-- The patterns of a folder are those of the settings, and the one for
extensions if there are any. -/
theorem mem_folderPatterns_iff {folder : Path} {p : String} :
    p ∈ folderPatterns info folder s ↔
      (∃ q ∈ s.documentSelectors, folderText folder ++ "/" ++ q = p) ∨
        extensions info ≠ [] ∧ p = extensionPattern folder (extensions info) := by
  rw [folderPatterns, List.mem_append, List.mem_map]
  cases extensions info <;> simp [extensionPattern]

theorem SameMentions.stayInside {a b : List Language} (h : SameMentions a b)
    (hinside : StayInside a) : StayInside b := by
  intro l hl ext hext c hc
  have hmem := (h.extensions ext).mpr (List.mem_flatMap_of_mem hl hext)
  obtain ⟨l', hl', hext'⟩ := List.mem_flatMap.mp hmem
  exact hinside l' hl' ext hext' c hc

/-- **Of extensions that stay inside, the set counts.** -/
theorem SameMentions.patternMatches_eq {a b : List Language} (h : SameMentions a b)
    (hinside : StayInside a) (hne : Selectors.extensions ⟨a⟩ ≠ []) (folder : Path)
    (d : Document) :
    patternMatches (extensionPattern folder (Selectors.extensions ⟨a⟩)) d =
      patternMatches (extensionPattern folder (Selectors.extensions ⟨b⟩)) d := by
  obtain ⟨name, hname⟩ := List.exists_mem_of_ne_nil _ hne
  have hne' : Selectors.extensions ⟨b⟩ ≠ [] :=
    List.ne_nil_of_mem ((h.mem_extensions_iff name).mp hname)
  have hmem : ∀ name, name ∈ (Selectors.extensions ⟨a⟩).map String.toList ↔
      name ∈ (Selectors.extensions ⟨b⟩).map String.toList := by
    simp only [List.mem_map, h.mem_extensions_iff, implies_true]
  unfold patternMatches
  obtain ⟨g, g', hg, hg', hsame⟩ | ⟨e, e', he, he'⟩ :=
    Glob.parse_names_congr (endsPlain_patternFront folder) hmem (hinside.endsInNames hne folder)
      ((h.stayInside hinside).endsInNames hne' folder)
  · rw [hg, hg']
    cases d.path? with
    | none => rfl
    | some p => exact hsame p.text
  · rw [he, he']

theorem SameMentions.matches_imp {a b : List Language} (h : SameMentions a b)
    (hinside : StayInside a) {folder : Path} :
    (∃ p ∈ folderPatterns ⟨a⟩ folder s, patternMatches p d = true) →
      ∃ p ∈ folderPatterns ⟨b⟩ folder s, patternMatches p d = true := by
  rintro ⟨p, hp, hmatch⟩
  rcases mem_folderPatterns_iff.mp hp with hown | ⟨hne, rfl⟩
  · exact ⟨p, mem_folderPatterns_iff.mpr (.inl hown), hmatch⟩
  · obtain ⟨name, hname⟩ := List.exists_mem_of_ne_nil _ hne
    have hne' : Selectors.extensions ⟨b⟩ ≠ [] :=
      List.ne_nil_of_mem ((h.mem_extensions_iff name).mp hname)
    exact ⟨_, mem_folderPatterns_iff.mpr (.inr ⟨hne', rfl⟩),
      (h.patternMatches_eq hinside hne folder d).symm.trans hmatch⟩

/-! ## §6 Scores -/

/-- A document of a range language that is not turned off has the best range
score; there is no other. -/
theorem rangeScore_eq (info : SupportInfo) (root : Option Path) (s : Settings) (d : Document) :
    (build info root s).rangeScore d =
      if d.language ∈ rangeLanguages ∧ s.isLanguageDisabled d.language = false then 10 else 0 := by
  have hstar : "*" ∉ rangeLanguages := by decide
  have hscore : bestScore (build info root s).range d =
      if d.language ∈ rangeLanguages ∧ s.isLanguageDisabled d.language = false then 10
      else if False then 5 else 0 := by
    refine bestScore_eq_ite (fun f hf => ?_) ?_ fun _ => ?_
    · obtain ⟨id, -, rfl⟩ := mem_range_iff.mp hf
      rw [score_ofLanguage]
      exact fieldScore_cases ..
    · constructor
      · rintro ⟨f, hf, hten⟩
        obtain ⟨id, hid, rfl⟩ := mem_range_iff.mp hf
        rw [score_ofLanguage, fieldScore_eq_ten_iff] at hten
        exact hten ▸ hid
      · intro h
        exact ⟨_, mem_range_iff.mpr ⟨_, h, rfl⟩,
          (score_ofLanguage ..).trans (fieldScore_eq_ten_iff.mpr rfl)⟩
    · refine iff_false_intro ?_
      rintro ⟨f, hf, hfive⟩
      obtain ⟨id, hid, rfl⟩ := mem_range_iff.mp hf
      rw [score_ofLanguage, fieldScore_eq_five_iff] at hfive
      exact hstar (hfive.2 ▸ hid.1)
  rw [if_neg not_false] at hscore
  exact hscore

/-- A document has the best score by its language or by a pattern of the
folder, and the second best by the wildcard. -/
theorem score_eq (info : SupportInfo) (root : Option Path) (s : Settings) (d : Document) :
    (build info root s).score d =
      if (Lists info d.language ∧ s.isLanguageDisabled d.language = false) ∨
          ∃ folder ∈ root, ∃ p ∈ folderPatterns info folder s, patternMatches p d = true then 10
        else if Lists info "*" ∧ s.isLanguageDisabled "*" = false then 5 else 0 := by
  refine bestScore_eq_ite (fun f hf => ?_) ?_ fun hno => ?_
  · rcases mem_language_iff.mp hf with ⟨folder, -, p, -, rfl⟩ | ⟨id, -, rfl⟩
    · rw [score_ofPattern_eq_ite]
      split
      · exact .inr (.inr rfl)
      · exact .inl rfl
    · rw [score_ofLanguage]
      exact fieldScore_cases ..
  · constructor
    · rintro ⟨f, hf, hten⟩
      rcases mem_language_iff.mp hf with ⟨folder, hroot, p, hp, rfl⟩ | ⟨id, hid, rfl⟩
      · rw [score_ofPattern_eq_ite] at hten
        exact .inr ⟨folder, hroot, p, hp, by by_contra h; simp [h] at hten⟩
      · rw [score_ofLanguage, fieldScore_eq_ten_iff] at hten
        exact .inl (hten ▸ hid)
    · rintro (h | ⟨folder, hroot, p, hp, hmatch⟩)
      · exact ⟨_, mem_language_iff.mpr (.inr ⟨_, h, rfl⟩),
          (score_ofLanguage ..).trans (fieldScore_eq_ten_iff.mpr rfl)⟩
      · exact ⟨_, mem_language_iff.mpr (.inl ⟨folder, hroot, p, hp, rfl⟩),
          (score_ofPattern_eq_ite ..).trans (if_pos hmatch)⟩
  · constructor
    · rintro ⟨f, hf, hfive⟩
      rcases mem_language_iff.mp hf with ⟨folder, -, p, -, rfl⟩ | ⟨id, hid, rfl⟩
      · rw [score_ofPattern_eq_ite] at hfive
        split at hfive <;> cases hfive
      · rw [score_ofLanguage, fieldScore_eq_five_iff] at hfive
        exact hfive.2 ▸ hid
    · -- a document whose own language is the wildcard would have the best score
      intro h
      have hne : "*" ≠ d.language := fun he => hno (.inl (he ▸ h))
      exact ⟨_, mem_language_iff.mpr (.inr ⟨_, h, rfl⟩),
        (score_ofLanguage ..).trans (fieldScore_eq_five_iff.mpr ⟨hne, rfl⟩)⟩

/-- The same things said in another way give the same scores, outside of any
folder, and in a folder if no extension reaches beyond itself. -/
theorem SameMentions.score_eq {a b : List Language} (h : SameMentions a b)
    (hinside : root.isSome → StayInside a) : (build ⟨b⟩ root s).score d = (build ⟨a⟩ root s).score d := by
  have hmatches : (∃ folder ∈ root, ∃ p ∈ folderPatterns ⟨b⟩ folder s, patternMatches p d = true) ↔
      ∃ folder ∈ root, ∃ p ∈ folderPatterns ⟨a⟩ folder s, patternMatches p d = true := by
    constructor
    · rintro ⟨folder, rfl, hmatch⟩
      have hstay := hinside rfl
      exact ⟨folder, rfl, h.symm.matches_imp (h.stayInside hstay) hmatch⟩
    · rintro ⟨folder, rfl, hmatch⟩
      exact ⟨folder, rfl, h.matches_imp (hinside rfl) hmatch⟩
  rw [Selectors.score_eq, Selectors.score_eq]
  simp only [hmatches, h.lists_iff]

/-- **The scores in closed form.** The range score is 10 in a range language
that is not turned off, and 0 otherwise. The score is 10 when the table lists
the document's language and it is not turned off, or when there is a folder
and one of its patterns matches the document's path; otherwise it is 5 when
the table lists `*` and that is not turned off, and 0 when it does not. A
table that says things again behind their first mention, or its identifiers in
another order, gives the same scores. So does one that says the same things in
any other way, unless there is a folder and an extension has a bracket, a brace
or a backslash in it. -/
theorem scores_closed (info : SupportInfo) (root : Option Path) (s : Settings) (d : Document) :
    (build info root s).rangeScore d =
        (if d.language ∈ rangeLanguages ∧ s.isLanguageDisabled d.language = false then 10 else 0) ∧
      (build info root s).score d =
        (if (Lists info d.language ∧ s.isLanguageDisabled d.language = false) ∨
            ∃ folder ∈ root, ∃ p ∈ folderPatterns info folder s, patternMatches p d = true then 10
          else if Lists info "*" ∧ s.isLanguageDisabled "*" = false then 5 else 0) ∧
      (∀ table, Restated info.languages table →
        (build ⟨table⟩ root s).rangeScore d = (build info root s).rangeScore d ∧
          (build ⟨table⟩ root s).score d = (build info root s).score d) ∧
      ∀ table, SameMentions info.languages table → (root.isSome → StayInside info.languages) →
        (build ⟨table⟩ root s).rangeScore d = (build info root s).rangeScore d ∧
          (build ⟨table⟩ root s).score d = (build info root s).score d := by
  have hrange : ∀ table, (build ⟨table⟩ root s).rangeScore d = (build info root s).rangeScore d := by
    intro table
    rw [rangeScore_eq, rangeScore_eq]
  refine ⟨rangeScore_eq info root s d, score_eq info root s d, fun table h => ⟨hrange table, ?_⟩,
    fun table h hinside => ⟨hrange table, h.score_eq hinside⟩⟩
  have hpatterns : ∀ folder, folderPatterns ⟨table⟩ folder s = folderPatterns info folder s := by
    intro folder
    unfold folderPatterns
    rw [← h.extensions_eq]
  rw [score_eq, score_eq]
  simp only [hpatterns, ← h.lists_iff]

/-- An entry of any file type. -/
def anyLanguage : Language := { name := "Any", extensions := [".d.ts"], identifiers := ["*"] }

/-- The entry behind that of scripts, with the first one repeated behind it, and
with the last one repeated in front. -/
theorem scores_closed_repeated :
    let table := scriptTable.languages ++ [anyLanguage]
    Restated table (table ++ scriptTable.languages) ∧
      SameMentions table (anyLanguage :: table) ∧ StayInside table ∧
      ∀ root s,
        (build ⟨table ++ scriptTable.languages⟩ root s).score markedScript =
          (build ⟨table⟩ root s).score markedScript ∧
        (build ⟨anyLanguage :: table⟩ root s).score markedScript =
          (build ⟨table⟩ root s).score markedScript := by
  intro table
  have hrestated : Restated table (table ++ scriptTable.languages) :=
    .entry table (List.mem_cons_self ..) []
  have hsame : SameMentions table (anyLanguage :: table) := .of_mem_iff (by simp [table])
  have hinside : StayInside table := by decide +kernel
  refine ⟨hrestated, hsame, hinside, fun root s => ?_⟩
  obtain ⟨-, -, hagain, hany⟩ := scores_closed ⟨table⟩ root s markedScript
  exact ⟨(hagain _ hrestated).2, (hany _ hsame fun _ => hinside).2⟩

/-- An extension with a bracket and one that closes it are read as a class of
characters. Repeated in front, the second stands before the first, and the
bracket is never closed. -/
theorem score_repeated_in_front :
    ¬ ∀ (info : SupportInfo) (root : Option Path) (s : Settings) (d : Document) (l : Language),
      l ∈ info.languages → (build ⟨l :: info.languages⟩ root s).score d =
        (build info root s).score d := by
  intro h
  let opening : Language := { name := "A", extensions := [".[a"], identifiers := ["a"] }
  let closing : Language := { name := "B", extensions := [".b]"], identifiers := ["b"] }
  let d : Document :=
    ⟨{ scheme := "file", hasAuthority := true, path := "/ws/x.a" }, "plaintext", ""⟩
  have hsame := h ⟨[opening, closing]⟩ (some ⟨"/ws"⟩) {} d closing
    (List.mem_cons_of_mem _ (List.mem_singleton_self _))
  have hbefore : (build ⟨[opening, closing]⟩ (some ⟨"/ws"⟩) {}).score d = 10 := by decide +kernel
  have hafter : (build ⟨[closing, opening, closing]⟩ (some ⟨"/ws"⟩) {}).score d = 0 := by
    decide +kernel
  rw [hbefore, hafter] at hsame
  cases hsame

end Selectors
end FormatHost
