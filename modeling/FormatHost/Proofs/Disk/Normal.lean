/-
FormatHost.Proofs.Disk.Normal — a path and its normal form lead to one
place.

The normal form of an absolute path has its `.` and `..` worked out on the
text alone, as if every name were a directory. On a disk without links that
is right: where following the path leads anywhere, every name on the way is
a directory, so that `..` comes back to where the name was met
(`settle_of_walk`). The normal form then leads to the same place, since it
names nothing that the path does not (`place_normal`), and so it is looked
at alike (`look_normal`).

* §1 `settle`: components worked out without a disk;
* §2 `normal`: its segments and components, and what its text is made of;
* §3 places and looks.
-/
import FormatHost.Proofs.Disk.Reads
import FormatHost.Proofs.Disk.Writing
import Mathlib.Data.List.Induction

namespace FormatHost

namespace Path

/-! ## §1 Working out components -/

/-- Where components lead from a place when all names are directories. -/
def settle : List String → List Component → List String
  | place, [] => place
  | _, .root :: rest => settle [] rest
  | place, .here :: rest => settle place rest
  | place, .up :: rest => settle place.dropLast rest
  | place, .name s :: rest => settle (place ++ [s]) rest

theorem settle_names (place names : List String) :
    settle place (names.map .name) = place ++ names := by
  induction names generalizing place with
  | nil => exact (List.append_nil place).symm
  | cons s names ih => rw [List.map_cons, settle, ih, List.append_assoc, List.singleton_append]

/-- The name of a component that has one. -/
def Component.name? : Component → Option String
  | .name s => some s
  | _ => none

/-- What is passed is named, in this order. -/
theorem settle_sublist (place : List String) (cs : List Component) :
    (settle place cs).Sublist (place ++ cs.filterMap Component.name?) := by
  induction cs generalizing place with
  | nil => exact List.sublist_append_left ..
  | cons c cs ih =>
    cases c with
    | root => exact (ih []).trans (List.sublist_append_right place _)
    | here => exact ih place
    | up => exact (ih place.dropLast).trans ((List.dropLast_sublist place).append_right _)
    | name s =>
      have hs := ih (place ++ [s])
      rwa [List.append_assoc, List.singleton_append] at hs

/-! ## §2 Normal forms -/

open Disk (pathOf)

/-- The absolute path with `.` and `..` worked out. -/
def normal (p : Path) : Path := pathOf (settle [] p.components)

theorem toList_pathOf (place : List String) :
    (pathOf place).text.toList = '/' :: ("/".intercalate place).toList := by
  rw [pathOf, String.toList_append]
  rfl

theorem lead_pathOf (place : List String) : (pathOf place).lead = .slash := by
  rw [lead, toList_pathOf]
  rfl

/-- An absolute path is a slash and its segments. -/
theorem pathOf_segments {p : Path} (h : p.isAbsolute = true) : pathOf p.segments = p := by
  obtain ⟨r, hr⟩ := exists_text_of_isAbsolute h
  have hsep : "/".toList = ['/'] := rfl
  refine congrArg Path.mk (String.toList_inj.mp ?_)
  rw [String.toList_append, segments, hr, readLead, hsep, Text.toList_intercalate hsep,
    List.map_map]
  simp [Function.comp_def, Text.joinWith_splitAll]

/-- Reading the path of a place gives its names back. -/
theorem segments_pathOf {place : List String} (hne : place ≠ [])
    (h : ∀ s ∈ place, '/' ∉ s.toList) : (pathOf place).segments = place := by
  rw [segments, toList_pathOf]
  exact splitAll_intercalate hne h

theorem filterMap_names {place : List String}
    (hn : ∀ s ∈ place, segmentComponent? s = some (.name s)) :
    place.filterMap segmentComponent? = place.map .name := by
  induction place with
  | nil => rfl
  | cons s place ih =>
    rw [List.filterMap_cons_some (hn s List.mem_cons_self), List.map_cons,
      ih fun t ht => hn t (List.mem_cons_of_mem _ ht)]

/-- The components of a place are the root and its names. -/
theorem components_pathOf {place : List String} (h : ∀ s ∈ place, '/' ∉ s.toList)
    (hn : ∀ s ∈ place, segmentComponent? s = some (.name s)) :
    (pathOf place).components = .root :: place.map .name := by
  by_cases hne : place = []
  · rw [hne]
    rfl
  · rw [components, lead_pathOf, segments_pathOf hne h, filterMap_names hn]
    rfl

theorem segmentComponent?_cases {s : String} {c : Component} (h : segmentComponent? s = some c) :
    c = .up ∨ c = .name s := by
  unfold segmentComponent? at h
  split at h
  · cases h
  · split at h <;> cases h
    · exact .inl rfl
    · exact .inr rfl

theorem isSilent_of_name {s : String} (h : segmentComponent? s = some (.name s)) :
    isSilent s = false := by
  cases hs : isSilent s with
  | false => rfl
  | true => simp [segmentComponent?, hs] at h

/-- The segment of a name stands for it. -/
theorem segmentComponent?_of_mem {p : Path} {s : String} (h : .name s ∈ p.components) :
    segmentComponent? s = some (.name s) := by
  have hm : .name s ∈ p.segments.filterMap segmentComponent? := by
    refine (List.mem_append.mp h).resolve_left ?_
    cases p.lead <;> simp [Lead.components]
  obtain ⟨t, -, hc⟩ := List.mem_filterMap.mp hm
  rcases segmentComponent?_cases hc with hs | hs
  · cases hs
  · cases hs
    exact hc

theorem names_sublist (p : Path) : (p.components.filterMap Component.name?).Sublist p.segments := by
  have hs : ∀ segs : List String,
      ((segs.filterMap segmentComponent?).filterMap Component.name?).Sublist segs := by
    intro segs
    induction segs with
    | nil => exact .slnil
    | cons s segs ih =>
      rw [List.filterMap_cons]
      split
      · exact ih.cons s
      · rename_i c hc
        rcases segmentComponent?_cases hc with rfl | rfl
        · exact ih.cons s
        · exact ih.cons_cons s
  have hl : p.lead.components.filterMap Component.name? = [] := by cases p.lead <;> rfl
  rw [components, List.filterMap_append, hl]
  exact hs p.segments

/-- The names of a normal form are among the segments. -/
theorem settle_sublist_segments (p : Path) : (settle [] p.components).Sublist p.segments :=
  (settle_sublist [] p.components).trans p.names_sublist

theorem segmentComponent?_of_mem_settle {p : Path} {s : String} (h : s ∈ settle [] p.components) :
    segmentComponent? s = some (.name s) := by
  obtain ⟨c, hc, hs⟩ := List.mem_filterMap.mp ((settle_sublist [] p.components).subset h)
  cases c <;> cases hs
  exact segmentComponent?_of_mem hc

theorem slashless_settle {p : Path} : ∀ s ∈ settle [] p.components, '/' ∉ s.toList :=
  fun s hs => p.readable.slashless s (List.mem_reverse.mpr (p.settle_sublist_segments.subset hs))

theorem components_normal (p : Path) :
    p.normal.components = .root :: (settle [] p.components).map .name :=
  components_pathOf slashless_settle fun _ hs => segmentComponent?_of_mem_settle hs

theorem isAbsolute_normal (p : Path) : p.normal.isAbsolute = true := by
  rw [isAbsolute_iff, components_normal]
  rfl

theorem exists_map_name {cs : List Component} (h : ∀ c ∈ cs, ∃ s, c = .name s) :
    ∃ names : List String, cs = names.map .name := by
  induction cs with
  | nil => exact ⟨[], rfl⟩
  | cons c cs ih =>
    obtain ⟨s, rfl⟩ := h c List.mem_cons_self
    obtain ⟨names, rfl⟩ := ih fun c hc => h c (List.mem_cons_of_mem _ hc)
    exact ⟨s :: names, rfl⟩

/-- Without `..` only spelling is left to work out. -/
theorem components_normal_of_not_up {p : Path} (ha : p.isAbsolute = true)
    (hu : .up ∉ p.components) : p.normal.components = p.components := by
  have hl : p.lead = .slash := by simpa [isAbsolute] using ha
  obtain ⟨names, hn⟩ : ∃ names : List String,
      p.segments.filterMap segmentComponent? = names.map .name := by
    refine exists_map_name fun c hc => ?_
    obtain ⟨s, -, hs⟩ := List.mem_filterMap.mp hc
    refine ⟨s, (segmentComponent?_cases hs).resolve_left ?_⟩
    rintro rfl
    exact hu (List.mem_append_right _ hc)
  have hc : p.components = .root :: names.map .name := by rw [components, hl, hn]; rfl
  rw [components_normal, hc, settle, settle_names, List.nil_append]

/-- The bytes of names, each with a slash before it. -/
def width : List String → Nat
  | [] => 0
  | s :: names => s.utf8ByteSize + 1 + width names

theorem width_le_of_sublist {a b : List String} (h : a.Sublist b) : width a ≤ width b := by
  induction h with
  | slnil => exact Nat.le_refl _
  | cons s _ ih => exact Nat.le_trans ih (Nat.le_add_left ..)
  | cons_cons s _ ih => exact Nat.add_le_add_left ih _

/-- The path of a place has the bytes of its names. -/
theorem size_pathOf {place : List String} (hne : place ≠ []) :
    (pathOf place).text.utf8ByteSize = width place := by
  have hslash : "/".utf8ByteSize = 1 := rfl
  rw [pathOf, String.utf8ByteSize_append, hslash]
  induction place with
  | nil => exact absurd rfl hne
  | cons s place ih =>
    cases place with
    | nil => simp [width, Nat.add_comm]
    | cons t place =>
      have ht := ih (List.cons_ne_nil t place)
      rw [String.intercalate_cons_cons, String.utf8ByteSize_append, String.utf8ByteSize_append,
        width, hslash]
      omega

/-- A normal form is not longer. -/
theorem size_normal_le {p : Path} (ha : p.isAbsolute = true) :
    p.normal.text.utf8ByteSize ≤ p.text.utf8ByteSize := by
  have htext : p.text = (pathOf p.segments).text := congrArg text (pathOf_segments ha).symm
  by_cases hne : settle [] p.components = []
  · rw [normal, hne, htext, pathOf, pathOf, String.utf8ByteSize_append, String.utf8ByteSize_append]
    exact Nat.add_le_add_left (Nat.zero_le _) _
  · have hseg : p.segments ≠ [] := by
      intro he
      exact hne (List.sublist_nil.mp (he ▸ p.settle_sublist_segments))
    rw [normal, size_pathOf hne, htext, size_pathOf hseg]
    exact width_le_of_sublist p.settle_sublist_segments

/-- Besides slashes, a path has the characters of its names. -/
theorem mem_text_pathOf {place : List String} {c : Char} (hc : c ≠ '/') :
    c ∈ (pathOf place).text.toList ↔ ∃ s ∈ place, c ∈ s.toList := by
  have hjoin : ∀ pieces : List (List Char),
      c ∈ Text.joinWith '/' pieces ↔ ∃ piece ∈ pieces, c ∈ piece := by
    intro pieces
    induction pieces with
    | nil => simp [Text.joinWith]
    | cons piece pieces ih =>
      cases pieces with
      | nil => simp [Text.joinWith]
      | cons next pieces => simp [Text.joinWith, ih, hc]
  have hsep : "/".toList = ['/'] := rfl
  rw [toList_pathOf, Text.toList_intercalate hsep, List.mem_cons, or_iff_right hc, hjoin]
  simp

/-- A normal form has no characters of its own. -/
theorem mem_text_of_normal {p : Path} (ha : p.isAbsolute = true) {c : Char} (hc : c ≠ '/')
    (h : c ∈ p.normal.text.toList) : c ∈ p.text.toList := by
  obtain ⟨s, hs, hm⟩ := (mem_text_pathOf hc).mp h
  rw [← pathOf_segments ha, mem_text_pathOf hc]
  exact ⟨s, p.settle_sublist_segments.subset hs, hm⟩

end Path

/-! ## §3 Places and looks -/

namespace Disk

open FormatHost.Path (Component settle)

variable {d : Disk}

/-- **What is found is found on the text alone.** -/
theorem settle_of_walk {start place : List String} {cs : List Component}
    (h : d.walk start cs = .ok place) : settle start cs = place := by
  induction cs generalizing start with
  | nil => exact Except.ok.inj h
  | cons c cs ih =>
    cases c with
    | root => exact ih h
    | here => exact ih h
    | up => exact ih h
    | name s =>
      rw [walk] at h
      split at h
      · cases h
      · split at h
        · rename_i hr
          rw [List.isEmpty_iff.mp hr]
          exact Except.ok.inj h
        · split at h
          · cases h
          · cases h
          · exact ih h

theorem size_le_of_walk {start place : List String} {cs : List Component}
    (h : d.walk start cs = .ok place) (hs : ∀ s ∈ start, s.utf8ByteSize ≤ nameLimit) :
    ∀ s ∈ place, s.utf8ByteSize ≤ nameLimit := by
  induction cs generalizing start with
  | nil =>
    obtain rfl : start = place := Except.ok.inj h
    exact hs
  | cons c cs ih =>
    cases c with
    | root => exact ih h fun s hs => absurd hs List.not_mem_nil
    | here => exact ih h hs
    | up => exact ih h fun s hm => hs s (List.dropLast_subset start hm)
    | name t =>
      rw [walk] at h
      split at h
      · cases h
      · rename_i hl
        have hc : ∀ s ∈ start ++ [t], s.utf8ByteSize ≤ nameLimit := by
          intro s hm
          rcases List.mem_append.mp hm with hm | hm
          · exact hs s hm
          · rw [List.mem_singleton.mp hm]
            exact Nat.le_of_not_gt hl
        split at h
        · obtain rfl : start ++ [t] = place := Except.ok.inj h
          exact hc
        · split at h
          · cases h
          · cases h
          · exact ih h hc

/-- The names of a place lead there from the root directory. -/
theorem walk_names {place : List String}
    (hd : ∀ n < place.length, d.isDirectoryAt (place.take n) = true)
    (hs : ∀ s ∈ place, s.utf8ByteSize ≤ nameLimit) :
    d.walk [] (place.map .name) = .ok place := by
  induction place using List.reverseRecOn with
  | nil => rfl
  | append_singleton front s ih =>
    have hfront : d.walk [] (front.map .name) = .ok front := by
      refine ih (fun n hn => ?_) fun t ht => hs t (List.mem_append_left _ ht)
      have htake := hd n (by simp; omega)
      rwa [List.take_append_of_le_length (Nat.le_of_lt hn)] at htake
    have hdir : d.isDirectoryAt front = true := by
      simpa using hd front.length (by simp)
    rw [List.map_append, walk_append_of_ok hfront hdir]
    simp [walk, hs s (by simp)]

/-- The place of an absolute path is worked out on its text. -/
theorem walk_of_place {cwd p : Path} {place : List String} (ha : p.isAbsolute = true)
    (h : d.place cwd p = .ok place) : d.walk [] p.components = .ok place := by
  obtain ⟨-, -, -, hf⟩ := place_eq_ok_iff.mp h
  rwa [follow, if_pos ha] at hf

theorem place_normal {cwd p : Path} {place : List String} (ha : p.isAbsolute = true)
    (h : d.place cwd p = .ok place) : d.place cwd p.normal = .ok place := by
  obtain ⟨hnul, -, hsize, -⟩ := place_eq_ok_iff.mp h
  have hw := walk_of_place ha h
  have hs := size_le_of_walk hw fun s hs => absurd hs List.not_mem_nil
  refine place_eq_ok_iff.mpr ⟨fun hm => hnul (Path.mem_text_of_normal ha (by decide) hm),
    text_ne_empty_of_isAbsolute p.isAbsolute_normal,
    Nat.lt_of_le_of_lt (Path.size_normal_le ha) hsize, ?_⟩
  rw [follow, if_pos p.isAbsolute_normal, p.components_normal, settle_of_walk hw]
  exact walk_names (isDirectoryAt_of_place h) hs

/-- The normal form of a path ends in a name, but for the root directory. -/
theorem meansDirectory_normal {p : Path} (hne : settle [] p.components ≠ []) :
    meansDirectory p.normal = false := by
  have hl : (settle [] p.components).getLast hne ∈ settle [] p.components := List.getLast_mem hne
  rw [meansDirectory_eq, Path.normal, Path.segments_pathOf hne Path.slashless_settle,
    List.getLast?_eq_some_getLast hne]
  exact Path.isSilent_of_name (Path.segmentComponent?_of_mem_settle hl)

/-- **A path and its normal form lead to the same.** -/
theorem look_normal {cwd p : Path} {e : Entry} (ha : p.isAbsolute = true)
    (h : d.look cwd p = .ok e) : d.look cwd p.normal = .ok e := by
  cases hq : d.place cwd p with
  | error e' =>
    rw [look_of_error hq] at h
    cases h
  | ok place =>
    have hp := place_normal ha hq
    rw [look_of_place hq] at h
    rw [look_of_place hp]
    cases hr : place.isEmpty with
    | true =>
      rw [hr] at h
      exact h
    | false =>
      have hne : settle [] p.components ≠ [] := by
        rw [settle_of_walk (walk_of_place ha hq)]
        simpa using hr
      rw [hr, if_neg Bool.false_ne_true] at h
      rw [if_neg Bool.false_ne_true, meansDirectory_normal hne]
      cases he : d.entry? place with
      | none =>
        rw [he] at h
        cases h
      | some entry =>
        rw [he] at h
        cases entry with
        | directory => exact h
        | file bytes executable =>
          cases hm : meansDirectory p with
          | true =>
            rw [hm] at h
            cases h
          | false =>
            rw [hm] at h
            exact h

/-- Only a name leads to a file. -/
theorem exists_name_of_look {cwd p : Path} {bytes : List UInt8} {executable : Bool}
    (ha : p.isAbsolute = true) (h : d.look cwd p = .ok (.file bytes executable)) :
    ∃ front s, p.components = front ++ [.name s] := by
  cases hq : d.place cwd p with
  | error e =>
    rw [look_of_error hq] at h
    cases h
  | ok place =>
    have hnotDirectory : d.isDirectoryAt place ≠ true := by
      intro hd
      rw [look_of_place hq] at h
      cases hr : place.isEmpty with
      | true =>
        rw [hr] at h
        cases h
      | false =>
        have he : d.entry? place = some .directory := by simpa [isDirectoryAt, hr] using hd
        rw [hr, he] at h
        cases h
    rcases List.eq_nil_or_concat p.components with hc | ⟨front, last, hc⟩
    · rw [Path.isAbsolute_iff, hc] at ha
      cases ha
    · rw [List.concat_eq_append] at hc
      have hw := walk_of_place ha hq
      rw [hc] at hw
      obtain ⟨stop, -, ho, hlast⟩ := walk_append (open_nil d) (List.cons_ne_nil last []) hw
      cases last with
      | name s => exact ⟨front, s, hc⟩
      | root =>
        cases hlast
        exact absurd rfl hnotDirectory
      | here =>
        cases hlast
        exact absurd ho.isDirectoryAt hnotDirectory
      | up =>
        cases hlast
        exact absurd ho.dropLast.isDirectoryAt hnotDirectory

end Disk

namespace Machine

variable {m : Machine} {p : Path}

theorem exists_look_of_isFile (h : m.isFile p = true) :
    ∃ bytes executable, m.disk.look m.cwd p = .ok (.file bytes executable) := by
  unfold isFile Disk.isFile at h
  split at h
  · exact ⟨_, _, by assumption⟩
  · cases h

theorem isFile_normal (ha : p.isAbsolute = true) (h : m.isFile p = true) :
    m.isFile p.normal = true := by
  obtain ⟨bytes, executable, hl⟩ := exists_look_of_isFile h
  unfold isFile Disk.isFile
  rw [Disk.look_normal ha hl]

theorem readText_normal (ha : p.isAbsolute = true) (h : m.isFile p = true) :
    m.readText p.normal = m.readText p := by
  obtain ⟨bytes, executable, hl⟩ := exists_look_of_isFile h
  unfold readText Disk.readText Disk.readBytes
  rw [Disk.look_normal ha hl, hl]

theorem exists_name_of_isFile (ha : p.isAbsolute = true) (h : m.isFile p = true) :
    ∃ front s, p.components = front ++ [.name s] := by
  obtain ⟨bytes, executable, hl⟩ := exists_look_of_isFile h
  exact Disk.exists_name_of_look ha hl

end Machine
end FormatHost
