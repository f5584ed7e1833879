/-
FormatHost.Proofs.Ignore.Spelling — one ignore file, spelled in two ways.

A path and its normal form lead to one file, so both read the same rules.
But whether a document lies below the directory of the rules goes by the
components of the two as they are spelled. When the path is absolute and
has no `..`, these are the names of the directory, and answers do not depend
on the spelling. When it has a `..`, the rules are read, and exclude only
documents that are spelled with the same `..` (`isIgnored_normal`).

* §1 what a document is below a directory;
* §2 rules below two spellings of a directory;
* §3 the directory of a file, spelled in two ways;
* §4 answers.
-/
import FormatHost.Proofs.Disk.Normal
import FormatHost.Proofs.Ignore.Lookup

namespace FormatHost

namespace Path

/-! ## §1 Below a directory -/

variable {base base' file p : Path}

/-- What is below a directory goes by its components. -/
theorem stripPrefix?_congr (h : base.components = base'.components) (file : Path) :
    file.stripPrefix? base = file.stripPrefix? base' := by
  unfold stripPrefix? startsWith
  rw [h]

theorem dropComponents_zero (segs : List String) : dropComponents 0 segs = segs := by
  cases segs <;> rfl

theorem mem_of_mem_dropComponents {n : Nat} {segs : List String} {s : String}
    (h : s ∈ dropComponents n segs) : s ∈ segs := by
  induction segs generalizing n with
  | nil =>
    cases n with
    | zero => exact dropComponents_zero [] ▸ h
    | succ n => exact absurd h List.not_mem_nil
  | cons t segs ih =>
    cases n with
    | zero => exact dropComponents_zero (t :: segs) ▸ h
    | succ n =>
      unfold dropComponents at h
      split at h
      · exact List.mem_cons_of_mem _ (ih h)
      · exact List.mem_cons_of_mem _ (ih h)

/-- The components of segments are taken off with them, and what is left of
these is silent. -/
theorem dropWhile_dropComponents (front rest : List String) :
    (dropComponents (front.filterMap segmentComponent?).length (front ++ rest)).dropWhile isSilent =
      rest.dropWhile isSilent := by
  induction front with
  | nil => exact congrArg _ (dropComponents_zero rest)
  | cons s front ih =>
    cases hs : isSilent s with
    | true =>
      rw [List.filterMap_cons_none (segmentComponent?_of_silent hs), List.cons_append]
      cases hl : (front.filterMap segmentComponent?).length with
      | zero =>
        rw [hl, dropComponents_zero] at ih
        rw [dropComponents_zero, List.dropWhile_cons_of_pos hs, ih]
      | succ n =>
        rw [hl] at ih
        rw [dropComponents, if_pos hs, ih]
    | false =>
      obtain ⟨c, hc⟩ := exists_segmentComponent? hs
      rw [List.filterMap_cons_some hc, List.length_cons, List.cons_append, dropComponents, hs,
        if_neg Bool.false_ne_true, ih]

/-- A relative path with the silent segments at its ends dropped. -/
def trimmed (p : Path) : Path :=
  ofSegments .bare
    (((Text.splitAll '/' p.text.toList).map String.ofList).dropWhile isSilent).reverse

/-- The segments of a join are those of the directory, but for a slash at its
end, and the pieces that are joined to it. -/
theorem exists_segments_join (hb : base.isAbsolute = true) (hp : p.isAbsolute = false) :
    ∃ front, front.filterMap segmentComponent? = base.segments.filterMap segmentComponent? ∧
      (base.join p).segments = front ++ (Text.splitAll '/' p.text.toList).map String.ofList := by
  have hslash : "/".toList = ['/'] := rfl
  have hne : base.isEmpty = false := by
    simpa [isEmpty] using Disk.text_ne_empty_of_isAbsolute hb
  obtain ⟨r, hr⟩ : ∃ r, base.text.toList = '/' :: r := exists_text_of_isAbsolute hb
  have hbase : base.segments = (Text.splitAll '/' r).map String.ofList := by
    rw [segments, hr, readLead]
  unfold join
  rw [hp, hne, Bool.false_or, if_neg Bool.false_ne_true, hbase]
  split
  · rename_i he
    rw [← String.endsWith_toSlice, String.Slice.endsWith_string_iff, String.copy_toSlice,
      hslash, hr] at he
    obtain ⟨f, hf⟩ := he
    rw [segments, String.toList_append, hr]
    cases f with
    | nil =>
      obtain rfl : r = [] := by simpa using hf.symm
      exact ⟨[], rfl, rfl⟩
    | cons c f =>
      obtain rfl : r = f ++ ['/'] := (List.cons.inj hf).2.symm
      refine ⟨(Text.splitAll '/' f).map String.ofList, ?_, ?_⟩
      · rw [splitAll_append_cons, List.map_append, List.filterMap_append]
        exact (List.append_nil _).symm
      · rw [List.cons_append, readLead, List.append_assoc, List.singleton_append,
          splitAll_append_cons, List.map_append]
  · refine ⟨(Text.splitAll '/' r).map String.ofList, rfl, ?_⟩
    rw [segments, String.toList_append, String.toList_append, hslash, hr, List.cons_append,
      List.cons_append, readLead, List.append_assoc, List.singleton_append, splitAll_append_cons,
      List.map_append]

/-- **What is below a directory is what was joined to it.** -/
theorem stripPrefix?_join (hb : base.isAbsolute = true) (hp : p.isAbsolute = false) :
    (base.join p).stripPrefix? base = some p.trimmed := by
  have hl : base.lead = .slash := by simpa [isAbsolute] using hb
  have hc : base.components = .root :: base.segments.filterMap segmentComponent? := by
    rw [components, hl]
    rfl
  have hj := components_join (Disk.text_ne_empty_of_isAbsolute hb) hp
  have hs : (base.join p).startsWith base = true := by
    rw [startsWith_iff, hj]
    exact List.prefix_append ..
  have hlead : (base.join p).lead = .slash := by
    have ha : (base.join p).isAbsolute = true := by rw [isAbsolute_iff, hj, hc]; rfl
    simpa [isAbsolute] using ha
  obtain ⟨front, hf, hseg⟩ := exists_segments_join hb hp
  unfold stripPrefix? trimmed
  rw [if_pos hs, hc, hlead, hseg, ← hf]
  simp only [List.length_cons, Nat.add_one_ne_zero, if_false, Lead.components, List.length_nil,
    Nat.zero_add, Nat.add_sub_cancel, dropWhile_dropComponents]

/-- What is below a directory starts with a name or `..`. -/
theorem lead_of_stripPrefix? {relative : Path} (hb : base.components ≠ [])
    (h : file.stripPrefix? base = some relative) : relative.lead = .bare := by
  unfold stripPrefix? at h
  split at h
  · rw [if_neg (by simpa using hb)] at h
    obtain rfl := Option.some.inj h
    refine lead_ofSegments ⟨fun s hs => ?_, nofun, fun _ s hs hf => ?_⟩
    · have hm := (List.dropWhile_sublist _).subset (List.mem_reverse.mp hs)
      exact file.readable.slashless s (List.mem_reverse.mpr (mem_of_mem_dropComponents hm))
    · have hn := List.head?_dropWhile_not isSilent
        (dropComponents (base.components.length - file.lead.components.length) file.segments)
      rw [List.getLast?_reverse] at hs
      rw [hs] at hn
      simp [hf] at hn
  · cases h

end Path

namespace Ignore

/-! ## §2 Rules below two spellings -/

/-- What is below an absolute directory does not start with the directory's
text, and is matched as it is. -/
theorem stripRoot_of_slash {root : String} (hr : root.toList.head? = some '/') {p : Path}
    (hp : p.lead = .bare) : stripRoot root p = p := by
  rw [Path.lead] at hp
  have hdot : Text.stripFront "./".toList p.text.toList = none := by
    cases hs : Text.stripFront "./".toList p.text.toList with
    | none => rfl
    | some rest =>
      have ht : p.text.toList = '.' :: '/' :: rest := Text.eq_append_of_stripFront hs
      rw [ht] at hp
      cases hp
  have hroot : Text.stripFront root.toList p.text.toList = none := by
    obtain ⟨r, hr⟩ := List.head?_eq_some_iff.mp hr
    cases hs : Text.stripFront root.toList p.text.toList with
    | none => rfl
    | some rest =>
      rw [Text.eq_append_of_stripFront hs, hr] at hp
      cases hp
  unfold stripRoot
  dsimp only
  rw [hdot, Option.getD_none, hroot]
  simp

/-- So the directory's text does not matter. -/
theorem decideFile_of_slash {root root' : String} (hr : root.toList.head? = some '/')
    (hr' : root'.toList.head? = some '/') {p : Path} (hp : p.lead = .bare) (rules : List Rule) :
    decideFile rules root p = decideFile rules root' p := by
  unfold decideFile
  rw [stripRoot_of_slash hr hp, stripRoot_of_slash hr' hp]

namespace Matcher

variable {a b : Path}

theorem head?_rootText (ha : (base a).isAbsolute = true) :
    (rootText a).toList.head? = some '/' := by
  obtain ⟨r, hr⟩ := Path.exists_text_of_isAbsolute ha
  have hdot : Text.stripFront "./".toList (base a).text.toList = none := by
    rw [hr]
    rfl
  unfold rootText
  dsimp only
  rw [hdot]
  dsimp only
  rw [hr]
  rfl

/-- Matching goes by what is below the directory. -/
theorem isMatch_congr (ha : (base a).isAbsolute = true) (hb : (base b).isAbsolute = true)
    {file file' : Path} (h : file.stripPrefix? (base a) = file'.stripPrefix? (base b))
    (content : String) :
    (ofContent a content).isMatch file = (ofContent b content).isMatch file' := by
  have hne : (base a).components ≠ [] := by
    intro he
    rw [Path.isAbsolute_iff, he] at ha
    cases ha
  unfold isMatch
  dsimp only [ofContent]
  rw [← h]
  cases hs : file.stripPrefix? (base a) with
  | none => rfl
  | some relative =>
    dsimp only
    rw [decideFile_of_slash (head?_rootText ha) (head?_rootText hb)
      (Path.lead_of_stripPrefix? hne hs)]

/-- **Two spellings of one file exclude what is the same below their
directories.** -/
theorem excludes_load_congr (ha : (base a).isAbsolute = true) (hb : (base b).isAbsolute = true)
    {m : Machine} (ht : m.readText a = m.readText b) {file file' : Path}
    (h : file.stripPrefix? (base a) = file'.stripPrefix? (base b)) :
    (load m a).1.excludes file = (load m b).1.excludes file' := by
  rw [excludes_load, excludes_load]
  unfold load
  rw [ht]
  cases m.readText b with
  | ok content => exact isMatch_congr ha hb h content
  | error e => exact (isMatch_null a file).trans (isMatch_null b file').symm

/-- Rules exclude nothing outside of their directory. -/
theorem isMatch_of_outside (rules : Matcher) {file : Path}
    (h : file.startsWith (base rules.source) = false) : rules.isMatch file = false := by
  unfold isMatch Path.stripPrefix?
  rw [h]
  rfl

theorem source_load (m : Machine) (file : Path) : (load m file).1.source = file := by
  unfold load
  split <;> rfl

/-! ## §3 Directories -/

theorem components_base {p : Path} {front : List Path.Component} {s : String}
    (h : p.components = front ++ [.name s]) : (base p).components = front := by
  unfold base
  cases hp : p.parent? with
  | none => exact absurd (h ▸ by simp) (Path.not_mem_components_of_parent? hp s)
  | some dir => rw [Option.getD_some, Path.components_parent? hp, h, List.dropLast_concat]

theorem isAbsolute_base {p : Path} (ha : p.isAbsolute = true) {front : List Path.Component}
    {s : String} (h : p.components = front ++ [.name s]) : (base p).isAbsolute = true := by
  rw [Path.isAbsolute_iff, components_base h]
  rw [Path.isAbsolute_iff, h] at ha
  cases front with
  | nil => cases ha
  | cons c front => exact ha

end Matcher

namespace Cache

open Matcher

/-- The cache goes by the rules that are on disk, read under this spelling:
it has none of the file, or has read these. -/
def Current (c : Cache) (m : Machine) (file : Path) : Prop :=
  c.rulesFor m file = (Matcher.load m file).1

variable {m : Machine} {p : Path} {c : Cache}

theorem isIgnored_of_current (h : Current c m p) (document : Path) (isDefault : Bool) :
    (isIgnored m document p isDefault c).value = (Matcher.load m p).1.excludes document := by
  rw [isIgnored_value, h]

/-- **Without `..` the spelling does not matter**, whatever was read before. -/
theorem isIgnored_of_not_up (ha : p.isAbsolute = true) (hf : m.isFile p = true)
    (hu : .up ∉ p.components) (c : Cache) (document : Path) (isDefault : Bool) :
    (isIgnored m document p isDefault c).value =
      (isIgnored m document p.normal isDefault c).value := by
  have hc := Path.components_normal_of_not_up ha hu
  obtain ⟨front, s, hp⟩ := Machine.exists_name_of_isFile ha hf
  have hn : p.normal.components = front ++ [.name s] := hc.trans hp
  have hkey : c.get? p = c.get? p.normal :=
    Table.find?_congr _ (Path.beq_iff.mpr hc.symm)
  rw [isIgnored_value, isIgnored_value]
  unfold rulesFor
  rw [hkey]
  cases c.get? p.normal with
  | some rules => rw [Option.getD_some, Option.getD_some]
  | none =>
    refine excludes_load_congr (isAbsolute_base ha hp) (isAbsolute_base p.isAbsolute_normal hn)
      (Machine.readText_normal ha hf).symm (Path.stripPrefix?_congr ?_ document)
    rw [components_base hp, components_base hn]

/-- Nothing is ignored that is not spelled as lying below the directory. -/
theorem isIgnored_of_outside (h : Current c m p) {document : Path}
    (ho : document.startsWith (base p) = false) (isDefault : Bool) :
    (isIgnored m document p isDefault c).value = false := by
  rw [isIgnored_of_current h, excludes_load]
  exact isMatch_of_outside _ ((source_load m p).symm ▸ ho)

/-- **With `..`, nothing is ignored** but what is spelled with it. -/
theorem isIgnored_of_up (ha : p.isAbsolute = true) (hf : m.isFile p = true)
    (hu : .up ∈ p.components) (h : Current c m p) {document : Path}
    (hd : .up ∉ document.components) (isDefault : Bool) :
    (isIgnored m document p isDefault c).value = false := by
  refine isIgnored_of_outside h ?_ isDefault
  obtain ⟨front, s, hp⟩ := Machine.exists_name_of_isFile ha hf
  rw [hp, List.mem_append] at hu
  have hfront : .up ∈ front := hu.resolve_right (by simp)
  rw [← Bool.not_eq_true, Path.startsWith_iff, components_base hp]
  exact fun hpre => hd (hpre.subset hfront)

/-- What is joined to the directory is ignored as if joined to its normal
form. -/
theorem isIgnored_join (ha : p.isAbsolute = true) (hf : m.isFile p = true) (h : Current c m p)
    (hn : Current c m p.normal) {below : Path} (hb : below.isAbsolute = false) (isDefault : Bool) :
    (isIgnored m ((base p).join below) p isDefault c).value =
      (isIgnored m ((base p.normal).join below) p.normal isDefault c).value := by
  obtain ⟨front, s, hp⟩ := Machine.exists_name_of_isFile ha hf
  obtain ⟨front', s', hp'⟩ :=
    Machine.exists_name_of_isFile p.isAbsolute_normal (Machine.isFile_normal ha hf)
  have hbase := isAbsolute_base ha hp
  have hbase' := isAbsolute_base p.isAbsolute_normal hp'
  rw [isIgnored_of_current h, isIgnored_of_current hn]
  refine excludes_load_congr hbase hbase' (Machine.readText_normal ha hf).symm ?_
  rw [Path.stripPrefix?_join hbase hb, Path.stripPrefix?_join hbase' hb]

/-- **An ignore file under a path and under its normal form.** Both read the
same file. Without `..` in the path, all answers are the same, whatever the
cache holds. When the cache goes by the rules on disk: on documents that
are spelled without `..`, the answers agree just when the path has none, or
the document is not ignored anyway; documents that are not spelled as lying
below the path's directory are not ignored; and those that are, are ignored
as if they lay below the directory's normal form. -/
theorem isIgnored_normal (m : Machine) (p : Path) (ha : p.isAbsolute = true)
    (hf : m.isFile p = true) :
    m.readText p.normal = m.readText p ∧
    (.up ∉ p.components → ∀ c document isDefault,
      (isIgnored m document p isDefault c).value =
        (isIgnored m document p.normal isDefault c).value) ∧
    ∀ c, Current c m p → Current c m p.normal → ∀ isDefault,
      (∀ document, .up ∉ document.components →
        ((isIgnored m document p isDefault c).value =
            (isIgnored m document p.normal isDefault c).value ↔
          .up ∉ p.components ∨ (isIgnored m document p.normal isDefault c).value = false)) ∧
      (∀ document, document.startsWith (base p) = false →
        (isIgnored m document p isDefault c).value = false) ∧
      ∀ below, below.isAbsolute = false →
        (isIgnored m ((base p).join below) p isDefault c).value =
          (isIgnored m ((base p.normal).join below) p.normal isDefault c).value := by
  refine ⟨Machine.readText_normal ha hf, isIgnored_of_not_up ha hf, fun c h hn isDefault =>
    ⟨fun document hd => ?_, fun document ho => isIgnored_of_outside h ho isDefault,
      fun below hb => isIgnored_join ha hf h hn hb isDefault⟩⟩
  by_cases hu : .up ∈ p.components
  · rw [isIgnored_of_up ha hf hu h hd isDefault]
    exact ⟨fun he => .inr he.symm, fun hor => (hor.resolve_left (absurd hu)).symm⟩
  · exact ⟨fun _ => .inl hu, fun _ => isIgnored_of_not_up ha hf hu c document isDefault⟩

/-- A disk with an ignore file at its root, and a workspace. -/
def rulesAbove : Machine where
  disk := ⟨fun
    | ["ws"] => some .directory
    | [".prettierignore"] => some (.file (Text.Utf8.encode "*.js".toList) false)
    | _ => none⟩
  cwd := ⟨"/ws"⟩
  home := ⟨"/home"⟩
  searchPath := []

/-- The ignore file, as a setting `../.prettierignore` of the workspace spells
it. -/
def fileAbove : Path := ⟨"/ws/../.prettierignore"⟩

theorem isFile_fileAbove : rulesAbove.isFile fileAbove = true := by decide +kernel

theorem isIgnored_normal_above :
    fileAbove.isAbsolute = true ∧ rulesAbove.isFile fileAbove = true ∧
      fileAbove.normal = ⟨"/.prettierignore"⟩ ∧
      (isIgnored rulesAbove ⟨"/ws/a.js"⟩ fileAbove true {}).value = false ∧
      (isIgnored rulesAbove ⟨"/ws/a.js"⟩ fileAbove.normal true {}).value = true := by
  have ha : fileAbove.isAbsolute = true := by decide +kernel
  have hcurrent : ∀ file, Current {} rulesAbove file := fun _ => rfl
  obtain ⟨-, -, h⟩ := isIgnored_normal rulesAbove fileAbove ha isFile_fileAbove
  have houtside := (h {} (hcurrent _) (hcurrent _) true).2.1 ⟨"/ws/a.js"⟩ (by decide +kernel)
  exact ⟨ha, isFile_fileAbove, by decide +kernel, houtside, by decide +kernel⟩

/-- So a document that the rules exclude is not ignored. -/
theorem isIgnored_normal_up : ¬ ∀ (m : Machine) (document p : Path) (isDefault : Bool),
    p.isAbsolute = true → m.isFile p = true →
      (isIgnored m document p isDefault {}).value =
        (isIgnored m document p.normal isDefault {}).value := by
  intro h
  have he := h rulesAbove ⟨"/ws/a.js"⟩ fileAbove true (by decide +kernel) isFile_fileAbove
  exact absurd he (by decide +kernel)

end Cache
end Ignore
end FormatHost
