/-
FormatHost.Proofs.Disk.Change — what one changed file changes.

A file that is written or removed shows at the paths that lead to it. Every
other path leads to what it led to before, or still leads nowhere: on the
way through the file there was no directory and is none. So questions about
other paths, up to the cause of a failure, have the answers they had.

* §1 `SameBut`: two disks that differ at one place at most;
* §2 following and looking;
* §3 `FileChanged`: machines between which one file changes;
* §4 writing a file is such a change.
-/
import FormatHost.Disk

namespace FormatHost

namespace Disk

/-! ## §1 One place -/

/-- The disks differ at one place at most, and have no directory there. What
a disk says of the root is never read. -/
structure SameBut (d d' : Disk) (place : List String) : Prop where
  elsewhere : ∀ q, q ≠ [] → q ≠ place → d'.entry? q = d.entry? q
  before : d.entry? place ≠ some .directory
  after : d'.entry? place ≠ some .directory

/-- Two answers are one, or both are failures. -/
def Agree {α : Type} (x y : Except IoError α) : Prop :=
  x = y ∨ ∃ e e', x = .error e ∧ y = .error e'

namespace Agree

variable {α β : Type} {x y : Except IoError α}

theorem rfl : Agree x x := .inl (Eq.refl x)

theorem of_errors (e e' : IoError) : Agree (.error e : Except IoError α) (.error e') :=
  .inr ⟨e, e', Eq.refl _, Eq.refl _⟩

theorem bind {f g : α → Except IoError β} (h : Agree x y)
    (hf : ∀ a, x = .ok a → Agree (f a) (g a)) : Agree (x >>= f) (y >>= g) := by
  rcases h with h | ⟨e, e', hx, hy⟩
  · subst h
    cases x with
    | ok a => exact hf a (Eq.refl _)
    | error e => exact of_errors e e
  · subst hx hy
    exact of_errors e e'

end Agree

/-! ## §2 Following and looking -/

section Looking

variable {d d' : Disk} {place : List String}

theorem isDirectoryAt_eq (h : SameBut d d' place) (q : List String) :
    d'.isDirectoryAt q = d.isDirectoryAt q := by
  unfold isDirectoryAt
  by_cases hr : q = []
  · subst hr
    rfl
  by_cases hq : q = place
  · subst hq
    rw [beq_false_of_ne h.before, beq_false_of_ne h.after]
  · rw [h.elsewhere q hr hq]

theorem walk_agree (h : SameBut d d' place) (start : List String) (cs : List Path.Component) :
    Agree (d'.walk start cs) (d.walk start cs) := by
  induction cs generalizing start with
  | nil => exact .rfl
  | cons c rest ih =>
    cases c with
    | root => exact ih []
    | here => exact ih start
    | up => exact ih start.dropLast
    | name s =>
      unfold walk
      split
      · exact .rfl
      · split
        · exact .rfl
        · by_cases hq : start ++ [s] = place
          · -- on the way through the place there is no directory
            have h1 := h.before
            have h2 := h.after
            rw [hq]
            rcases hd : d.entry? place with _ | ⟨_ | _⟩
            · rcases hd' : d'.entry? place with _ | ⟨_ | _⟩
              · exact .of_errors ..
              · exact absurd hd' h2
              · exact .of_errors ..
            · exact absurd hd h1
            · rcases hd' : d'.entry? place with _ | ⟨_ | _⟩
              · exact .of_errors ..
              · exact absurd hd' h2
              · exact .of_errors ..
          · rw [h.elsewhere _ (by simp) hq]
            split
            · exact .rfl
            · exact .rfl
            · exact ih _

theorem place_agree (h : SameBut d d' place) (cwd p : Path) :
    Agree (d'.place cwd p) (d.place cwd p) := by
  unfold Disk.place
  split
  · exact .rfl
  · split
    · exact .rfl
    · split
      · exact .rfl
      · split
        · exact walk_agree h _ _
        · refine (walk_agree h _ _).bind fun start _ => ?_
          rw [isDirectoryAt_eq h]
          split
          · exact walk_agree h _ _
          · exact .rfl

theorem look_of_place {d : Disk} {cwd p : Path} {q : List String} (hp : d.place cwd p = .ok q) :
    d.look cwd p =
      if q.isEmpty then .ok .directory
      else
        match d.entry? q with
        | none => .error .notFound
        | some (.file bytes executable) =>
          if meansDirectory p then .error .notADirectory else .ok (.file bytes executable)
        | some .directory => .ok .directory := by
  unfold look
  rw [hp]
  rfl

theorem look_of_error {d : Disk} {cwd p : Path} {e : IoError} (hp : d.place cwd p = .error e) :
    d.look cwd p = .error e := by
  unfold look
  rw [hp]
  rfl

/-- A path that does not lead to the place leads to what it led to. -/
theorem look_agree (h : SameBut d d' place) {cwd p : Path} (hp : d.place cwd p ≠ .ok place) :
    Agree (d'.look cwd p) (d.look cwd p) := by
  rcases place_agree h cwd p with he | ⟨e, e', he', he⟩
  · cases hq : d.place cwd p with
    | error e =>
      rw [look_of_error (he.trans hq), look_of_error hq]
      exact .rfl
    | ok q =>
      have hne : q ≠ place := fun hqp => hp (hq.trans (congrArg _ hqp))
      rw [look_of_place (he.trans hq), look_of_place hq]
      by_cases hr : q = []
      · subst hr
        exact .rfl
      · rw [h.elsewhere q hr hne]
        exact .rfl
  · rw [look_of_error he', look_of_error he]
    exact .of_errors ..

theorem readText_agree (h : SameBut d d' place) {cwd p : Path} (hp : d.place cwd p ≠ .ok place) :
    Agree (d'.readText cwd p) (d.readText cwd p) := by
  unfold readText readBytes
  refine ((look_agree h hp).bind fun entry _ => ?_).bind fun bytes _ => .rfl
  cases entry <;> exact .rfl

/-- Where a path led before the change it leads after it. -/
theorem place_eq_of_ok (h : SameBut d d' place) {cwd p : Path} {q : List String}
    (hp : d.place cwd p = .ok q) : d'.place cwd p = .ok q := by
  rcases place_agree h cwd p with he | ⟨e, e', _, he⟩
  · rw [he, hp]
  · rw [hp] at he
    cases he

end Looking

end Disk

/-! ## §3 Machines -/

/-- Between the machines one file changes, the one at the path: it was
created, written to or removed. -/
structure FileChanged (m m' : Machine) (file : Path) : Prop where
  rest : m' = { m with disk := m'.disk }
  one : ∃ place, m.disk.place m.cwd file = .ok place ∧ m.disk.SameBut m'.disk place
  file_or_file : m.isFile file = true ∨ m'.isFile file = true

namespace FileChanged

variable {m m' : Machine} {file : Path}

theorem cwd_eq (h : FileChanged m m' file) : m'.cwd = m.cwd := by rw [h.rest]

theorem home_eq (h : FileChanged m m' file) : m'.home = m.home := by rw [h.rest]

/-- Another path that leads elsewhere has the text it had, or has none as
before. -/
theorem readText_agree (h : FileChanged m m' file) {p : Path}
    (hp : m.disk.place m.cwd p ≠ m.disk.place m.cwd file) :
    Disk.Agree (m'.readText p) (m.readText p) := by
  obtain ⟨place, hf, hs⟩ := h.one
  rw [hf] at hp
  unfold Machine.readText
  rw [h.cwd_eq]
  exact Disk.readText_agree hs hp

end FileChanged

/-! ## §4 Writing -/

namespace Disk

/-- Everything above a place, and the place itself, are directories. -/
def Open (d : Disk) (place : List String) : Prop :=
  ∀ n ≤ place.length, d.isDirectoryAt (place.take n) = true

theorem open_nil (d : Disk) : d.Open [] := fun n _ => by simp [isDirectoryAt]

theorem Open.dropLast {d : Disk} {place : List String} (h : d.Open place) :
    d.Open place.dropLast := by
  intro n hn
  rw [List.length_dropLast] at hn
  rw [List.dropLast_eq_take, List.take_take, Nat.min_eq_left hn]
  exact h n (by omega)

theorem Open.concat {d : Disk} {place : List String} {name : String} (h : d.Open place)
    (hd : d.entry? (place ++ [name]) = some .directory) : d.Open (place ++ [name]) := by
  intro n hn
  rw [List.length_append, List.length_singleton] at hn
  by_cases hl : n ≤ place.length
  · rw [List.take_append_of_le_length hl]
    exact h n hl
  · rw [List.take_of_length_le (by rw [List.length_append, List.length_singleton]; omega)]
    simp [isDirectoryAt, hd]

theorem Open.isDirectoryAt {d : Disk} {place : List String} (h : d.Open place) :
    d.isDirectoryAt place = true := by
  have hp := h place.length (Nat.le_refl _)
  rwa [List.take_length] at hp

/-- Every directory that components lead through is one. -/
theorem isDirectoryAt_of_walk {d : Disk} {start place : List String} {cs : List Path.Component}
    (hs : d.Open start) (h : d.walk start cs = .ok place) :
    ∀ n < place.length, d.isDirectoryAt (place.take n) = true := by
  induction cs generalizing start with
  | nil =>
    obtain rfl : start = place := by simpa [walk] using h
    exact fun n hn => hs n (Nat.le_of_lt hn)
  | cons c rest ih =>
    cases c with
    | root => exact ih (open_nil d) h
    | here => exact ih hs h
    | up => exact ih hs.dropLast h
    | name s =>
      unfold walk at h
      split at h
      · cases h
      · split at h
        · obtain rfl : start ++ [s] = place := by simpa using h
          intro n hn
          have hn' : n ≤ start.length := by
            rw [List.length_append, List.length_singleton] at hn
            omega
          rw [List.take_append_of_le_length hn']
          exact hs n hn'
        · split at h
          · cases h
          · cases h
          · rename_i hd
            exact ih (hs.concat hd) h

/-- Every directory that a path goes through is one. -/
theorem isDirectoryAt_of_place {d : Disk} {cwd p : Path} {place : List String}
    (h : d.place cwd p = .ok place) :
    ∀ n < place.length, d.isDirectoryAt (place.take n) = true := by
  unfold Disk.place at h
  split at h
  · cases h
  · split at h
    · cases h
    · split at h
      · cases h
      · split at h
        · exact isDirectoryAt_of_walk (open_nil d) h
        · cases hw : d.walk [] cwd.components with
          | error e =>
            rw [hw] at h
            cases h
          | ok start =>
            rw [hw] at h
            by_cases hd : d.isDirectoryAt start = true
            · have h' : d.walk start p.components = .ok place := by
                simpa [bind, Except.bind, hd] using h
              refine isDirectoryAt_of_walk (fun n hn => ?_) h'
              by_cases hn' : n < start.length
              · exact isDirectoryAt_of_walk (open_nil d) hw n hn'
              · rw [List.take_of_length_le (by omega)]
                exact hd
            · simp [bind, Except.bind, hd] at h

theorem sameBut_put {d : Disk} {place : List String}
    (hd : ∀ n < place.length, d.isDirectoryAt (place.take n) = true)
    (hb : d.entry? place ≠ some .directory) (bytes : List UInt8) (executable : Bool) :
    SameBut d (d.put place (.file bytes executable)) place := by
  refine ⟨?_, hb, by simp [put]⟩
  intro q hr hq
  simp only [put, if_neg hq]
  split
  · rename_i hp
    simp only [Bool.and_eq_true, decide_eq_true_eq, List.isPrefixOf_iff_prefix] at hp
    have ht : place.take q.length = q := (List.prefix_iff_eq_take.mp hp.1).symm
    have hdir := hd q.length hp.2
    rw [ht] at hdir
    have he : d.entry? q = some .directory := by simpa [isDirectoryAt, hr] using hdir
    exact he.symm
  · rfl

/-- Writing puts a file at the place of its path, which is none of a
directory. -/
theorem exists_of_writeBytes {d d' : Disk} {cwd file : Path} {bytes : List UInt8}
    (h : d.writeBytes cwd file bytes = .ok d') :
    ∃ place executable, d.place cwd file = .ok place ∧ place ≠ [] ∧
      meansDirectory file = false ∧ d.entry? place ≠ some .directory ∧
      d' = d.put place (.file bytes executable) := by
  unfold writeBytes at h
  cases hp : d.place cwd file with
  | error e =>
    rw [hp] at h
    cases h
  | ok place =>
    rw [hp] at h
    simp only [bind, Except.bind] at h
    split at h
    · cases h
    rename_i hr
    split at h
    · cases h
    rename_i hm
    split at h
    · cases h
    refine ⟨place, ?_⟩
    split at h
    · cases h
    · rename_i executable he
      exact ⟨executable, rfl, by simpa using hr, by simpa using hm, by simp [he], by cases h; rfl⟩
    · rename_i he
      exact ⟨false, rfl, by simpa using hr, by simpa using hm, by simp [he], by cases h; rfl⟩

end Disk

/-- A file that is put where a path leads changes that file. -/
theorem fileChanged_put {m : Machine} {file : Path} {place : List String}
    (hp : m.disk.place m.cwd file = .ok place) (hr : place ≠ [])
    (hm : Disk.meansDirectory file = false) (he : m.disk.entry? place ≠ some .directory)
    (bytes : List UInt8) (executable : Bool) :
    FileChanged m { m with disk := m.disk.put place (.file bytes executable) } file := by
  have hs := Disk.sameBut_put (Disk.isDirectoryAt_of_place hp) he bytes executable
  refine ⟨rfl, ⟨place, hp, hs⟩, .inr ?_⟩
  unfold Machine.isFile Disk.isFile
  rw [Disk.look_of_place (Disk.place_eq_of_ok hs hp)]
  simp [hr, hm, Disk.put]

/-- **Writing a file changes that file.** -/
theorem fileChanged_of_writeText {m : Machine} {file : Path} {text : String} {d' : Disk}
    (h : m.disk.writeText m.cwd file text = .ok d') :
    FileChanged m { m with disk := d' } file := by
  obtain ⟨place, executable, hp, hr, hm, he, rfl⟩ := Disk.exists_of_writeBytes h
  exact fileChanged_put hp hr hm he _ executable

end FormatHost
