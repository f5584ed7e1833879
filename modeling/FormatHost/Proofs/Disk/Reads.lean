/-
FormatHost.Proofs.Disk.Reads — what a look at a path reads of the disk.

To look at a path is to read the entry of every place that it names on its
way and of the place where it ends. Disks that have the same directories and
the same entries there answer alike, down to the cause of a failure
(`look_congr`). A path that ends in a name ends at a place of that name
(`exists_place_of_name`).

* §1 following components: what is read, going on from a directory, and
  where a name leads;
* §2 places and looks of disks that differ elsewhere;
* §3 the text of a place.
-/
import FormatHost.Proofs.Disk.Change

namespace FormatHost.Disk

open FormatHost.Path (Component)

/-! ## §1 Following components -/

/-- The place is that of a name which components pass on their way from a
directory, and not their end. -/
def Passes (d : Disk) (start : List String) (cs : List Component) (q : List String) : Prop :=
  ∃ front s rest, cs = front ++ .name s :: rest ∧ rest ≠ [] ∧
    d.walk start (front ++ [.name s]) = .ok q

variable {d d' : Disk}

/-- What is passed after the first component is passed, when that one leads to
where the rest starts. -/
theorem Passes.cons {start next : List String} {c : Component} {rest : List Component}
    {q : List String} (h : d.Passes next rest q)
    (hc : ∀ more ≠ [], d.walk start (c :: more) = d.walk next more) :
    d.Passes start (c :: rest) q := by
  obtain ⟨front, s, more, rfl, hm, hw⟩ := h
  have hne : front ++ [Component.name s] ≠ [] := by simp
  exact ⟨c :: front, s, more, rfl, hm, (hc _ hne).trans hw⟩

/-- Following components reads what they pass. -/
theorem walk_congr {start : List String} {cs : List Component}
    (h : ∀ q, d.Passes start cs q → d'.entry? q = d.entry? q) :
    d'.walk start cs = d.walk start cs := by
  induction cs generalizing start with
  | nil => rfl
  | cons c rest ih =>
    cases c with
    | root => exact ih fun q hq => h q (hq.cons fun _ _ => rfl)
    | here => exact ih fun q hq => h q (hq.cons fun _ _ => rfl)
    | up => exact ih fun q hq => h q (hq.cons fun _ _ => rfl)
    | name s =>
      unfold walk
      by_cases hl : s.utf8ByteSize > nameLimit
      · rw [if_pos hl, if_pos hl]
      rw [if_neg hl, if_neg hl]
      cases hr : rest.isEmpty with
      | true => rfl
      | false =>
        have hne : rest ≠ [] := by simpa using hr
        have hpass : d.walk start ([] ++ [.name s]) = .ok (start ++ [s]) := by
          rw [List.nil_append, walk, if_neg hl]
          rfl
        rw [if_neg Bool.false_ne_true, if_neg Bool.false_ne_true,
          h (start ++ [s]) ⟨[], s, rest, rfl, hne, hpass⟩]
        rcases hd : d.entry? (start ++ [s]) with _ | ⟨_ | _⟩
        · rfl
        · refine ih fun q hq => h q (hq.cons fun more hm => ?_)
          have hf : more.isEmpty = false := by simpa using hm
          rw [walk, if_neg hl, hf, if_neg Bool.false_ne_true, hd]
        · rfl

/-- From the directory that components lead to, more components lead on. -/
theorem walk_append_of_ok {start stop : List String} {cs : List Component}
    (h : d.walk start cs = .ok stop) (hd : d.isDirectoryAt stop = true) (more : List Component) :
    d.walk start (cs ++ more) = d.walk stop more := by
  induction cs generalizing start with
  | nil =>
    obtain rfl : start = stop := Except.ok.inj h
    rfl
  | cons c rest ih =>
    cases c with
    | root => exact ih h
    | here => exact ih h
    | up => exact ih h
    | name s =>
      unfold walk at h
      by_cases hl : s.utf8ByteSize > nameLimit
      · rw [if_pos hl] at h
        cases h
      rw [if_neg hl] at h
      rw [List.cons_append, walk, if_neg hl]
      cases rest with
      | nil =>
        obtain rfl : start ++ [s] = stop := Except.ok.inj h
        have he : d.entry? (start ++ [s]) = some .directory := by simpa [isDirectoryAt] using hd
        cases more with
        | nil => rfl
        | cons c more => rw [List.nil_append, he]; rfl
      | cons c rest =>
        cases he : d.entry? (start ++ [s]) with
        | none =>
          rw [he] at h
          cases h
        | some entry =>
          rw [he] at h
          cases entry with
          | file bytes executable => cases h
          | directory => exact ih h

/-- Components that end in a name lead to a place of that name. -/
theorem exists_place_of_name {start q : List String} {cs : List Component} {s : String}
    (h : d.walk start (cs ++ [.name s]) = .ok q) : ∃ front, q = front ++ [s] := by
  induction cs generalizing start with
  | nil =>
    rw [List.nil_append, walk] at h
    split at h
    · cases h
    · exact ⟨start, (Except.ok.inj h).symm⟩
  | cons c rest ih =>
    cases c with
    | root => exact ih h
    | here => exact ih h
    | up => exact ih h
    | name t =>
      have hne : (rest ++ [Component.name s]).isEmpty = false := by cases rest <;> rfl
      rw [List.cons_append, walk, hne, if_neg Bool.false_ne_true] at h
      split at h
      · cases h
      · split at h
        · cases h
        · cases h
        · exact ih h

/-! ## §2 Looks -/

/-- The disks have the same directories. -/
def SameDirectories (d d' : Disk) : Prop :=
  ∀ q, d'.entry? q = some .directory ↔ d.entry? q = some .directory

theorem SameDirectories.isDirectoryAt_eq (h : SameDirectories d d') (q : List String) :
    d'.isDirectoryAt q = d.isDirectoryAt q := by
  unfold isDirectoryAt
  rw [Bool.eq_iff_iff]
  simp only [Bool.or_eq_true, beq_iff_eq, h q]

/-- Where the components of a path lead, from the root directory or from the
current one. -/
def follow (d : Disk) (cwd p : Path) : Except IoError (List String) :=
  if p.isAbsolute then d.walk [] p.components
  else
    match d.walk [] cwd.components with
    | .error e => .error e
    | .ok start => if d.isDirectoryAt start then d.walk start p.components else .error .notFound

theorem place_eq_follow (d : Disk) (cwd p : Path) :
    d.place cwd p =
      if p.text.toList.contains '\x00' then .error .invalidPath
      else if p.isEmpty then .error .notFound
      else if p.text.utf8ByteSize ≥ pathLimit then .error .nameTooLong
      else d.follow cwd p := by
  unfold place follow
  cases d.walk [] cwd.components <;> rfl

/-- A path leads to a place when its text can be a path and its components
lead there. -/
theorem place_eq_ok_iff {cwd p : Path} {q : List String} :
    d.place cwd p = .ok q ↔
      '\x00' ∉ p.text.toList ∧ p.text ≠ "" ∧ p.text.utf8ByteSize < pathLimit ∧
        d.follow cwd p = .ok q := by
  rw [place_eq_follow]
  by_cases hn : '\x00' ∈ p.text.toList
  · simp [hn]
  by_cases he : p.text = ""
  · simp [Path.isEmpty, he]
  by_cases hs : pathLimit ≤ p.text.utf8ByteSize
  · simp [Path.isEmpty, hn, he, hs, Nat.not_lt.mpr hs]
  · simp [Path.isEmpty, hn, he, hs, Nat.not_le.mp hs]

/-- Where a path leads is read from what the current directory and the path
itself pass. -/
theorem place_congr (h : SameDirectories d d') {cwd p : Path}
    (hcwd : p.isAbsolute = false → ∀ q, d.Passes [] cwd.components q → d'.entry? q = d.entry? q)
    (hp : ∀ start, (if p.isAbsolute then start = []
        else d.walk [] cwd.components = .ok start ∧ d.isDirectoryAt start = true) →
      ∀ q, d.Passes start p.components q → d'.entry? q = d.entry? q) :
    d'.place cwd p = d.place cwd p := by
  have hfollow : d'.follow cwd p = d.follow cwd p := by
    unfold follow
    cases ha : p.isAbsolute with
    | true =>
      rw [ha] at hp
      rw [if_pos rfl, if_pos rfl, walk_congr (hp [] rfl)]
    | false =>
      rw [ha] at hp
      rw [if_neg Bool.false_ne_true, if_neg Bool.false_ne_true, walk_congr (hcwd ha)]
      cases hw : d.walk [] cwd.components with
      | error e => rfl
      | ok start =>
        dsimp only
        rw [h.isDirectoryAt_eq]
        cases hd : d.isDirectoryAt start with
        | true => rw [if_pos rfl, if_pos rfl, walk_congr (hp start ⟨hw, hd⟩)]
        | false => rfl
  rw [place_eq_follow, place_eq_follow, hfollow]

/-- A path that leads to the same place and entry is looked at alike. -/
theorem look_congr {cwd p : Path} (hp : d'.place cwd p = d.place cwd p)
    (he : ∀ q, d.place cwd p = .ok q → d'.entry? q = d.entry? q) :
    d'.look cwd p = d.look cwd p := by
  cases hq : d.place cwd p with
  | error e => rw [look_of_error (hp.trans hq), look_of_error hq]
  | ok q => rw [look_of_place (hp.trans hq), look_of_place hq, he q hq]

/-- A path that ends in a name leads to a place of that name. -/
theorem exists_place_eq_concat {cwd p : Path} {cs : List Component} {s : String}
    (hc : p.components = cs ++ [.name s]) {q : List String} (h : d.place cwd p = .ok q) :
    ∃ front, q = front ++ [s] := by
  obtain ⟨-, -, -, hf⟩ := place_eq_ok_iff.mp h
  unfold follow at hf
  rw [hc] at hf
  split at hf
  · exact exists_place_of_name hf
  · split at hf
    · cases hf
    · split at hf
      · exact exists_place_of_name hf
      · cases hf

/-! ## §3 The text of a place -/

/-- The absolute path of a place. -/
def pathOf (place : List String) : Path := ⟨"/" ++ "/".intercalate place⟩

/-- It ends in a slash and the last name. -/
theorem exists_pathOf_concat (front : List String) (s : String) :
    ∃ text, pathOf (front ++ [s]) = ⟨text ++ "/" ++ s⟩ := by
  have htext : ∃ text, "/" ++ "/".intercalate (front ++ [s]) = text ++ "/" ++ s := by
    induction front with
    | nil => exact ⟨"", by simp⟩
    | cons t front ih =>
      obtain ⟨text, ht⟩ := ih
      refine ⟨"/" ++ t ++ text, ?_⟩
      cases hf : front ++ [s] with
      | nil => simp at hf
      | cons u more =>
        rw [hf] at ht
        rw [List.cons_append, hf, String.intercalate_cons_cons]
        simp only [String.append_assoc] at ht ⊢
        rw [ht]
  obtain ⟨text, ht⟩ := htext
  exact ⟨text, congrArg Path.mk ht⟩

end FormatHost.Disk
