/-
FormatHost.Proofs.Path.Nesting — what lies below what, by components.

Paths are texts, and nesting goes by components. Here the operations that
write new texts are given their components, so that everything else about
nesting is about lists:

* §1 the components of a written path, and of what is above a path:
  `startsWith_of_mem_ancestors`, `components_parent?`;
* §2 the components of a join: those of the base, then those of the rest;
* §3 the text of a join, and what it means for a path to be joined;
* §4 names below directories, and the directories to look for them.
-/
import FormatHost.Proofs.Path.Ancestors
import FormatHost.Proofs.Table

namespace FormatHost.Path

open Text

/-! ## §1 Above -/

/-- Nesting is that the components come first. -/
theorem startsWith_iff {p base : Path} :
    p.startsWith base = true ↔ base.components <+: p.components :=
  List.isPrefixOf_iff_prefix

theorem startsWith_refl (p : Path) : p.startsWith p = true := startsWith_iff.mpr List.prefix_rfl

/-- Of two directories that contain a path, the one with more components lies
at or below the other. -/
theorem startsWith_of_length_le {p dir outer : Path} (hd : p.startsWith dir = true)
    (ho : p.startsWith outer = true) (hl : outer.components.length ≤ dir.components.length) :
    dir.startsWith outer = true :=
  startsWith_iff.mpr
    (List.prefix_of_prefix_length_le (startsWith_iff.mp ho) (startsWith_iff.mp hd) hl)

/-- Paths that lie at or below each other are the same. -/
theorem beq_of_startsWith {p q : Path} (h : p.startsWith q = true) (h' : q.startsWith p = true) :
    (p == q) = true := by
  have hp := startsWith_iff.mp h'
  exact beq_iff.mpr (hp.eq_of_length_le (startsWith_iff.mp h).length_le)

theorem segmentComponent?_of_silent {s : String} (h : isSilent s = true) :
    segmentComponent? s = none := by
  simp [segmentComponent?, h]

theorem exists_segmentComponent? {s : String} (h : isSilent s = false) :
    ∃ c, segmentComponent? s = some c := by
  unfold segmentComponent?
  rw [h, if_neg Bool.false_ne_true]
  split <;> exact ⟨_, rfl⟩

theorem filterMap_dropWhile_silent (reversed : List String) :
    (reversed.dropWhile isSilent).filterMap segmentComponent? =
      reversed.filterMap segmentComponent? := by
  induction reversed with
  | nil => rfl
  | cons s rest ih =>
    cases hs : isSilent s with
    | true =>
      rw [List.dropWhile_cons_of_pos hs, ih,
        List.filterMap_cons_none (segmentComponent?_of_silent hs)]
    | false => rw [List.dropWhile_cons_of_neg (by simp [hs])]

/-- A path that was written from a lead and segments has their
components. -/
theorem components_ofSegments {lead : Lead} {reversed : List String}
    (h : Readable lead reversed) :
    (ofSegments lead reversed).components =
      lead.components ++ (reversed.filterMap segmentComponent?).reverse := by
  have hs : (ofSegments lead reversed).segments.reverse.filterMap segmentComponent? =
      reversed.filterMap segmentComponent? := by
    rw [← filterMap_dropWhile_silent, dropWhile_segments_ofSegments h, filterMap_dropWhile_silent]
  rw [components, lead_ofSegments h, ← hs, ← List.filterMap_reverse, List.reverse_reverse]

/-- What is above some segments has the components of the first of them. -/
theorem components_prefix_of_mem_above {lead : Lead} {reversed : List String}
    (h : Readable lead reversed) {dir : Path} (hm : dir ∈ above lead reversed) :
    dir.components <+: lead.components ++ (reversed.filterMap segmentComponent?).reverse := by
  induction reversed with
  | nil =>
    unfold above at hm
    split at hm
    · obtain rfl := List.mem_singleton.mp hm
      exact List.nil_prefix
    · cases hm
  | cons s rest ih =>
    have hrest : lead.components ++ (rest.filterMap segmentComponent?).reverse <+:
        lead.components ++ ((s :: rest).filterMap segmentComponent?).reverse := by
      rw [List.filterMap_cons]
      split
      · exact List.prefix_rfl
      · rw [List.reverse_cons, ← List.append_assoc]
        exact List.prefix_append ..
    unfold above at hm
    split at hm
    · exact (ih h.tail hm).trans hrest
    · rcases List.mem_cons.mp hm with rfl | hm
      · rw [components_ofSegments h.tail]
        exact hrest
      · exact (ih h.tail hm).trans hrest

/-- **A path lies below everything that is listed above it.** -/
theorem startsWith_of_mem_ancestors {p dir : Path} (h : dir ∈ p.ancestors) :
    p.startsWith dir = true := by
  rcases List.mem_cons.mp h with rfl | h
  · exact startsWith_refl _
  · have hp := components_prefix_of_mem_above p.readable h
    rw [List.filterMap_reverse, List.reverse_reverse] at hp
    exact startsWith_iff.mpr hp

/-- The first of what is above some segments lacks their last component. -/
theorem components_head?_above {lead : Lead} {reversed : List String} (h : Readable lead reversed)
    {dir : Path} (hd : (above lead reversed).head? = some dir) :
    dir.components =
      (lead.components ++ (reversed.filterMap segmentComponent?).reverse).dropLast := by
  induction reversed with
  | nil =>
    unfold above at hd
    split at hd
    · rename_i hl
      obtain rfl := Option.some.inj hd
      subst hl
      rfl
    · cases hd
  | cons s rest ih =>
    unfold above at hd
    cases hs : isSilent s with
    | true =>
      rw [if_pos hs] at hd
      rw [ih h.tail hd, List.filterMap_cons_none (segmentComponent?_of_silent hs)]
    | false =>
      obtain ⟨c, hc⟩ := exists_segmentComponent? hs
      rw [hs, if_neg Bool.false_ne_true] at hd
      obtain rfl := Option.some.inj hd
      rw [components_ofSegments h.tail, List.filterMap_cons_some hc, List.reverse_cons,
        ← List.append_assoc, List.dropLast_concat]

/-- The directory that holds a path lacks its last component. -/
theorem components_parent? {p dir : Path} (h : p.parent? = some dir) :
    dir.components = p.components.dropLast := by
  have hp := components_head?_above p.readable h
  rw [List.filterMap_reverse, List.reverse_reverse] at hp
  exact hp

/-! ## §2 Joins -/

/-- An absolute path is one whose first component is the root. -/
theorem isAbsolute_iff {p : Path} : p.isAbsolute = true ↔ p.components.head? = some .root := by
  have hsegments : ∀ segs : List String,
      (segs.filterMap segmentComponent?).head? ≠ some .root := by
    intro segs h
    obtain ⟨s, -, hs⟩ := List.mem_filterMap.mp (List.mem_of_mem_head? h)
    unfold segmentComponent? at hs
    split at hs
    · cases hs
    · split at hs <;> cases hs
  unfold isAbsolute components
  cases p.lead with
  | slash => exact ⟨fun _ => rfl, fun _ => rfl⟩
  | dot => exact ⟨nofun, nofun⟩
  | bare => exact ⟨nofun, fun h => absurd h (hsegments _)⟩

/-- The components of a relative path below some directory: a leading `.`
does not count there. -/
def innerComponents (p : Path) : List Component :=
  ((splitAll '/' p.text.toList).map String.ofList).filterMap segmentComponent?

theorem splitAll_append_cons (sep : Char) (a b : List Char) :
    splitAll sep (a ++ sep :: b) = splitAll sep a ++ splitAll sep b := by
  induction a with
  | nil =>
    show splitAll sep (sep :: b) = [] :: splitAll sep b
    rw [splitAll, if_pos rfl]
  | cons c a ih =>
    rw [List.cons_append, splitAll, splitAll]
    by_cases hc : c = sep
    · rw [if_pos hc, if_pos hc, ih]
      rfl
    · rw [if_neg hc, if_neg hc, ih]
      cases hs : splitAll sep a with
      | nil => exact absurd hs (splitAll_ne_nil sep a)
      | cons first rest => rfl

/-- The components that reading a text yields. -/
def readComponents (cs : List Char) : List Component :=
  (readLead cs).1.components ++ (readLead cs).2.filterMap segmentComponent?

/-- How a text can begin. -/
theorem readLead_cases (cs : List Char) :
    (∃ r, cs = '/' :: r) ∨ cs = ['.'] ∨ (∃ r, cs = '.' :: '/' :: r) ∨
      readLead cs = (.bare, (splitAll '/' cs).map String.ofList) := by
  unfold readLead
  split
  · exact .inl ⟨_, rfl⟩
  · exact .inr (.inl rfl)
  · exact .inr (.inr (.inl ⟨_, rfl⟩))
  · exact .inr (.inr (.inr rfl))

/-- An absolute path begins with a slash. -/
theorem exists_text_of_isAbsolute {p : Path} (h : p.isAbsolute = true) :
    ∃ r, p.text.toList = '/' :: r := by
  have hl : (readLead p.text.toList).1 = .slash := by simpa [isAbsolute, lead] using h
  rcases readLead_cases p.text.toList with he | he | ⟨r, he⟩ | he
  · exact he
  · rw [he] at hl
    cases hl
  · rw [he] at hl
    cases hl
  · rw [he] at hl
    cases hl

/-- A text without a lead keeps having none when more follows a slash. -/
theorem readLead_append_of_bare {a : List Char} (ha : a ≠ []) (h : (readLead a).1 = .bare)
    (b : List Char) :
    readLead (a ++ '/' :: b) = (.bare, (splitAll '/' (a ++ '/' :: b)).map String.ofList) := by
  obtain ⟨c, r, rfl⟩ := List.exists_cons_of_ne_nil ha
  rcases readLead_cases (c :: r ++ '/' :: b) with ⟨rest, he⟩ | he | ⟨rest, he⟩ | he
  · obtain ⟨rfl, -⟩ := List.cons.inj he
    cases h
  · simp at he
  · obtain ⟨rfl, hr⟩ := List.cons.inj he
    cases r with
    | nil => cases h
    | cons d r =>
      obtain ⟨rfl, -⟩ := List.cons.inj hr
      cases h
  · exact he

/-- Behind a text and a slash, a text adds its inner components. -/
theorem readComponents_append {a : List Char} (ha : a ≠ []) (b : List Char) :
    readComponents (a ++ '/' :: b) =
      readComponents a ++ ((splitAll '/' b).map String.ofList).filterMap segmentComponent? := by
  have hcut : ∀ r : List Char,
      ((splitAll '/' (r ++ '/' :: b)).map String.ofList).filterMap segmentComponent? =
        ((splitAll '/' r).map String.ofList).filterMap segmentComponent? ++
          ((splitAll '/' b).map String.ofList).filterMap segmentComponent? := by
    intro r
    rw [splitAll_append_cons, List.map_append, List.filterMap_append]
  rcases readLead_cases a with ⟨r, rfl⟩ | rfl | ⟨r, rfl⟩ | he
  · show Lead.components .slash ++ _ = (Lead.components .slash ++ _) ++ _
    rw [List.append_assoc]
    exact congrArg _ (hcut r)
  · rfl
  · show Lead.components .dot ++ _ = (Lead.components .dot ++ _) ++ _
    rw [List.append_assoc]
    exact congrArg _ (hcut r)
  · unfold readComponents
    rw [readLead_append_of_bare ha (by rw [he]), he]
    exact hcut a

theorem components_eq_readComponents (p : Path) : p.components = readComponents p.text.toList := rfl

/-- A relative path adds its inner components to a directory that is
written out. -/
theorem components_join {base p : Path} (hb : base.text ≠ "") (hp : p.isAbsolute = false) :
    (base.join p).components = base.components ++ p.innerComponents := by
  have hne : base.isEmpty = false := by simpa [isEmpty] using hb
  have hl : base.text.toList ≠ [] := by simpa using hb
  unfold join
  rw [hp, hne, Bool.false_or, if_neg Bool.false_ne_true]
  simp only [components_eq_readComponents, innerComponents]
  split
  · rename_i he
    rw [← String.endsWith_toSlice, String.Slice.endsWith_string_iff, String.copy_toSlice] at he
    obtain ⟨front, hf⟩ := he
    obtain hf : front ++ ['/'] = base.text.toList := hf
    rw [String.toList_append, ← hf, List.append_assoc, List.singleton_append]
    cases front with
    | nil => rfl
    | cons c front =>
      -- the slash that ends the base adds nothing to it
      have hs : (((splitAll '/' []).map String.ofList).filterMap segmentComponent?) = [] := rfl
      rw [readComponents_append (List.cons_ne_nil c front),
        readComponents_append (List.cons_ne_nil c front), hs, List.append_nil]
  · rw [String.toList_append, String.toList_append, List.append_assoc]
    exact readComponents_append hl p.text.toList

/-- Only the empty path has no components. -/
theorem text_eq_empty_of_components {p : Path} (h : p.components = []) : p.text = "" := by
  rw [components_eq_readComponents] at h
  rcases readLead_cases p.text.toList with ⟨r, he⟩ | he | ⟨r, he⟩ | he
  · rw [he] at h
    cases h
  · rw [he] at h
    cases h
  · rw [he] at h
    cases h
  · -- a first piece that is silent leaves no text but the empty one
    unfold readComponents at h
    rw [he] at h
    cases hs : splitAll '/' p.text.toList with
    | nil => exact absurd hs (splitAll_ne_nil '/' _)
    | cons first rest =>
      rw [hs] at h
      have hn : segmentComponent? (String.ofList first) = none :=
        List.filterMap_eq_nil_iff.mp h _ (by simp)
      have hf : isSilent (String.ofList first) = true := by
        unfold segmentComponent? at hn
        split at hn
        · assumption
        · split at hn <;> cases hn
      rcases silent_first hs hf with ht | ht | ⟨more, ht⟩ | ⟨more, ht⟩
      · simpa using ht
      · rw [ht] at he
        cases he
      · rw [ht] at he
        cases he
      · rw [ht] at he
        cases he

/-! ## §3 Relative paths -/

/-- A join ends in a slash and the relative path. -/
theorem exists_text_join {base p : Path} (hb : base.text ≠ "") (hp : p.isAbsolute = false) :
    ∃ front, (base.join p).text = front ++ "/" ++ p.text := by
  have hne : base.isEmpty = false := by simpa [isEmpty] using hb
  unfold join
  rw [hp, hne, Bool.false_or, if_neg Bool.false_ne_true]
  split
  · rename_i he
    rw [← String.endsWith_toSlice, String.Slice.endsWith_string_iff, String.copy_toSlice] at he
    obtain ⟨front, hf⟩ := he
    refine ⟨String.ofList front, congrArg (· ++ p.text) (String.toList_inj.mp ?_)⟩
    rw [String.toList_append, String.toList_ofList]
    exact hf.symm
  · exact ⟨base.text, rfl⟩

/-- Pieces before those of a text leave the last one. -/
theorem getLast?_append_pieces (segs : List String) (b : List Char) :
    (segs ++ (splitAll '/' b).map String.ofList).getLast? =
      ((splitAll '/' b).map String.ofList).getLast? := by
  obtain ⟨first, rest, hs⟩ := List.exists_cons_of_ne_nil (splitAll_ne_nil '/' b)
  rw [List.getLast?_append, hs, List.map_cons, List.getLast?_cons]
  rfl

/-- The last piece of a text is that of what follows a slash in it. -/
theorem getLast?_pieces_append (a b : List Char) :
    ((splitAll '/' (a ++ '/' :: b)).map String.ofList).getLast? =
      ((splitAll '/' b).map String.ofList).getLast? := by
  rw [splitAll_append_cons, List.map_append, getLast?_append_pieces]

/-- So is the last segment of a path. -/
theorem getLast?_readLead_append (a b : List Char) :
    (readLead (a ++ '/' :: b)).2.getLast? = ((splitAll '/' b).map String.ofList).getLast? := by
  rcases readLead_cases a with ⟨r, rfl⟩ | rfl | ⟨r, rfl⟩ | he
  · exact getLast?_pieces_append r b
  · exact getLast?_append_pieces [""] b
  · exact (getLast?_append_pieces [""] (r ++ '/' :: b)).trans (getLast?_pieces_append r b)
  · cases a with
    | nil => rfl
    | cons c a =>
      rw [readLead_append_of_bare (List.cons_ne_nil c a) (by rw [he])]
      exact getLast?_pieces_append _ b

/-- A join is absolute when one of its parts is. -/
theorem isAbsolute_of_join {base p : Path} (h : (base.join p).isAbsolute = true) :
    p.isAbsolute = true ∨ base.isAbsolute = true := by
  by_cases hp : p.isAbsolute = true
  · exact .inl hp
  rw [Bool.not_eq_true] at hp
  by_cases hb : base.text = ""
  · have hj : base.join p = p := by simp [join, hp, isEmpty, hb]
    rw [hj, hp] at h
    cases h
  · rw [isAbsolute_iff, components_join hb hp] at h
    refine .inr (isAbsolute_iff.mpr ?_)
    cases hc : base.components with
    | nil => exact absurd (text_eq_empty_of_components hc) hb
    | cons c rest =>
      rw [hc] at h
      exact h

/-- A relative path has the components that it adds to others, but for a
leading `.`. -/
theorem components_relative {p : Path} (hp : p.isAbsolute = false) :
    p.components = p.innerComponents ∨ p.components = .here :: p.innerComponents := by
  rw [components_eq_readComponents]
  unfold innerComponents
  rcases readLead_cases p.text.toList with ⟨r, he⟩ | he | ⟨r, he⟩ | he
  · rw [isAbsolute, lead, he] at hp
    cases hp
  · rw [he]
    exact .inr rfl
  · rw [he]
    refine .inr ?_
    rw [show '.' :: '/' :: r = ['.'] ++ '/' :: r from rfl, splitAll_append_cons]
    rfl
  · unfold readComponents
    rw [he]
    exact .inl rfl

/-! ## §4 Names below directories -/

/-- A text that is one name, as a path. -/
def IsName (name : String) : Prop := (Path.mk name).components = [.name name]

instance (name : String) : Decidable (IsName name) := inferInstanceAs (Decidable (_ = _))

/-- A name below a directory is one more component. -/
theorem components_joinName {name : String} (h : IsName name) (dir : Path) :
    (dir / name).components = dir.components ++ [.name name] := by
  have hr : (Path.mk name).isAbsolute = false := by
    rw [← Bool.not_eq_true, isAbsolute_iff, h]
    exact nofun
  by_cases hd : dir.text = ""
  · have hj : dir / name = ⟨name⟩ := by
      show dir.join ⟨name⟩ = _
      simp [join, hr, isEmpty, hd]
    obtain rfl : dir = ⟨""⟩ := congrArg Path.mk hd
    rw [hj]
    exact h
  · have hi : (Path.mk name).innerComponents = [.name name] := by
      rcases components_relative hr with hc | hc
      · exact hc.symm.trans h
      · exact absurd (hc.symm.trans h) (by simp)
    rw [← hi]
    exact components_join hd hr

/-- So a name below a directory is absolute when the directory is. -/
theorem isAbsolute_joinName {name : String} (h : IsName name) (dir : Path) :
    (dir / name).isAbsolute = dir.isAbsolute := by
  rw [Bool.eq_iff_iff, isAbsolute_iff, isAbsolute_iff, components_joinName h]
  cases dir.components <;> simp

theorem isAbsolute_above {reversed : List String} {dir : Path}
    (h : dir ∈ above .slash reversed) : dir.isAbsolute = true := by
  induction reversed with
  | nil => cases h
  | cons s rest ih =>
    unfold above at h
    split at h
    · exact ih h
    · rcases List.mem_cons.mp h with rfl | h
      · simp [isAbsolute, Path.lead, ofSegments, Lead.text, readLead]
      · exact ih h

/-- What is above an absolute path is absolute, and what is above another is
not. -/
theorem isAbsolute_of_mem_ancestors {p dir : Path} (h : dir ∈ p.ancestors) :
    dir.isAbsolute = p.isAbsolute := by
  cases hp : p.isAbsolute with
  | true =>
    rcases List.mem_cons.mp h with rfl | h
    · exact hp
    · have hl : p.lead = .slash := by simpa [isAbsolute] using hp
      rw [parents, hl] at h
      exact isAbsolute_above h
  | false =>
    rw [← Bool.not_eq_true, isAbsolute_iff] at hp ⊢
    intro hd
    obtain ⟨rest, hr⟩ := startsWith_iff.mp (startsWith_of_mem_ancestors h)
    refine hp ?_
    rw [← hr, List.head?_append, hd]
    rfl

theorem filterMap_of_above_eq_nil {lead : Lead} {reversed : List String}
    (h : above lead reversed = []) : reversed.filterMap segmentComponent? = [] := by
  induction reversed with
  | nil => rfl
  | cons s rest ih =>
    unfold above at h
    split at h
    · rename_i hs
      rw [List.filterMap_cons_none (segmentComponent?_of_silent hs), ih h]
    · cases h

/-- A path without anything above it has no name. -/
theorem not_mem_components_of_parent? {p : Path} (h : p.parent? = none) (name : String) :
    .name name ∉ p.components := by
  have hs := filterMap_of_above_eq_nil (List.head?_eq_none_iff.mp h)
  rw [List.filterMap_reverse, List.reverse_eq_nil_iff] at hs
  rw [components, hs, List.append_nil]
  cases p.lead <;> simp [Lead.components]

/-- The directories to look in for a file lie at the file's own directory or
above it: to the components of one of them and a name before its end, the
file has more. -/
theorem exists_components_of_mem_ancestors {p dir : Path}
    (hd : dir ∈ (p.parent?.getD p).ancestors) {front rest : List Component} {name : String}
    (hc : dir.components = front ++ .name name :: rest) :
    ∃ more, more ≠ [] ∧ p.components = front ++ .name name :: more := by
  obtain ⟨below, hb⟩ := startsWith_iff.mp (startsWith_of_mem_ancestors hd)
  cases hp : p.parent? with
  | none =>
    rw [hp, Option.getD_none, hc] at hb
    refine absurd ?_ (not_mem_components_of_parent? hp name)
    rw [← hb]
    simp
  | some holder =>
    rw [hp, Option.getD_some, components_parent? hp, hc] at hb
    have hne : p.components ≠ [] := by
      intro he
      simp [he] at hb
    refine ⟨rest ++ below ++ [p.components.getLast hne], by simp, ?_⟩
    calc p.components = p.components.dropLast ++ [p.components.getLast hne] :=
        (List.dropLast_concat_getLast hne).symm
      _ = _ := by simp [← hb]

end FormatHost.Path
