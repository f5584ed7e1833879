/-
FormatHost.Proofs.Disk.Writing — a file that is read by one path and written
by another.

A document is read by its absolute path and written back by the path that
was given. The two lead to one file: to follow a relative path from the
current directory is to follow both, one after the other
(`readText_of_absolute`). And what is in a file after it was written is
what was written (`readBytes_of_writeText`).

* §1 following components in two goes;
* §2 relative and absolute paths of a file;
* §3 reading what was written.
-/
import FormatHost.Proofs.Disk.Change
import FormatHost.Proofs.Path.Nesting
import FormatHost.Proofs.Run

namespace FormatHost

namespace Disk

/-! ## §1 Two goes -/

/-- To follow components and then more is to follow the first to a directory
and the others from there. -/
theorem walk_append {d : Disk} {start place : List String} {cs more : List Path.Component}
    (hs : d.Open start) (hm : more ≠ []) (h : d.walk start (cs ++ more) = .ok place) :
    ∃ stop, d.walk start cs = .ok stop ∧ d.Open stop ∧ d.walk stop more = .ok place := by
  induction cs generalizing start with
  | nil => exact ⟨start, rfl, hs, h⟩
  | cons c rest ih =>
    cases c with
    | root => exact ih (open_nil d) h
    | here => exact ih hs h
    | up => exact ih hs.dropLast h
    | name s =>
      rw [List.cons_append, walk] at h
      have hne : (rest ++ more).isEmpty = false := by
        cases rest <;> cases more <;> simp_all
      by_cases hl : s.utf8ByteSize > nameLimit
      · rw [if_pos hl] at h
        cases h
      rw [if_neg hl, hne, if_neg Bool.false_ne_true] at h
      cases hd : d.entry? (start ++ [s]) with
      | none =>
        rw [hd] at h
        cases h
      | some entry =>
        cases entry with
        | file bytes executable =>
          rw [hd] at h
          cases h
        | directory =>
          rw [hd] at h
          obtain ⟨stop, hw, ho, hr⟩ := ih (hs.concat hd) h
          refine ⟨stop, ?_, ho, hr⟩
          rw [walk, if_neg hl]
          cases hrest : rest.isEmpty with
          | true =>
            rw [List.isEmpty_iff.mp hrest] at hw
            rw [if_pos rfl]
            exact hw
          | false => rw [if_neg Bool.false_ne_true, hd]; exact hw

/-! ## §2 Relative and absolute -/

theorem walk_relative (d : Disk) (start : List String) {p : Path} (hp : p.isAbsolute = false) :
    d.walk start p.components = d.walk start p.innerComponents := by
  rcases Path.components_relative hp with h | h
  · rw [h]
  · rw [h]
    rfl

theorem text_ne_empty_of_isAbsolute {p : Path} (h : p.isAbsolute = true) : p.text ≠ "" := by
  intro he
  rw [Path.isAbsolute, Path.lead, he] at h
  cases h

/-- A relative path leads where it leads from the current directory's
path. -/
theorem place_of_join {d : Disk} {cwd p : Path} {place : List String}
    (hc : cwd.isAbsolute = true) (hp : p.isAbsolute = false) (hi : p.innerComponents ≠ [])
    (h : d.place cwd (cwd.join p) = .ok place) : d.place cwd p = .ok place := by
  have hb := text_ne_empty_of_isAbsolute hc
  have hjoin : (cwd.join p).isAbsolute = true := by
    rw [Path.isAbsolute_iff] at hc ⊢
    rw [Path.components_join hb hp, List.head?_append, hc]
    rfl
  have hempty : p.isEmpty = false := by
    refine Bool.not_eq_true _ ▸ fun he => hi ?_
    have ht : p.text = "" := by simpa [Path.isEmpty] using he
    rw [Path.innerComponents, ht]
    rfl
  obtain ⟨front, hfront⟩ := Path.exists_text_join hb hp
  have hnul : (cwd.join p).text.toList.contains '\x00' = false →
      p.text.toList.contains '\x00' = false := by
    rw [hfront]
    simp
  have hsize : p.text.utf8ByteSize ≤ (cwd.join p).text.utf8ByteSize := by
    rw [hfront, String.utf8ByteSize_append]
    omega
  unfold Disk.place at h ⊢
  rw [hjoin, Path.components_join hb hp] at h
  rw [hp, hempty]
  split at h
  · cases h
  rename_i hn
  rw [hnul (by simpa using hn), if_neg Bool.false_ne_true, if_neg Bool.false_ne_true]
  split at h
  · cases h
  split at h
  · cases h
  rw [if_neg (by omega), if_neg Bool.false_ne_true]
  rw [if_pos rfl] at h
  obtain ⟨stop, hw, ho, hr⟩ := walk_append (open_nil d) hi h
  rw [hw]
  simp only [bind, Except.bind, ho.isDirectoryAt, if_true]
  rw [walk_relative d stop hp, hr]

/-- Whether a path means a directory shows at its last segment. -/
theorem meansDirectory_eq (p : Path) :
    meansDirectory p = p.segments.getLast?.any Path.isSilent := by
  unfold meansDirectory
  cases p.segments with
  | nil => rfl
  | cons s rest => simp

theorem meansDirectory_join {base p : Path} (hb : base.text ≠ "") (hp : p.isAbsolute = false) :
    meansDirectory (base.join p) =
      ((Text.splitAll '/' p.text.toList).map String.ofList).getLast?.any Path.isSilent := by
  obtain ⟨front, hfront⟩ := Path.exists_text_join hb hp
  have ht : (base.join p).text.toList = front.toList ++ '/' :: p.text.toList := by
    simp [hfront]
  rw [meansDirectory_eq, Path.segments, ht, Path.getLast?_readLead_append]

/-- A path that adds nothing to a directory means one. -/
theorem meansDirectory_join_of_nil {base p : Path} (hb : base.text ≠ "")
    (hp : p.isAbsolute = false) (hi : p.innerComponents = []) :
    meansDirectory (base.join p) = true := by
  have hsilent : ∀ s ∈ (Text.splitAll '/' p.text.toList).map String.ofList,
      Path.isSilent s = true := by
    intro s hs
    have hn := List.filterMap_eq_nil_iff.mp hi s hs
    unfold Path.segmentComponent? at hn
    split at hn
    · assumption
    · split at hn <;> cases hn
  rw [meansDirectory_join hb hp]
  cases hl : ((Text.splitAll '/' p.text.toList).map String.ofList).getLast? with
  | none => simp [Text.splitAll_ne_nil] at hl
  | some s => exact hsilent s (List.mem_of_getLast? hl)

/-- Any other means one when its join does. -/
theorem meansDirectory_join_of_ne {base p : Path} (hb : base.text ≠ "")
    (hp : p.isAbsolute = false) (hi : p.innerComponents ≠ []) :
    meansDirectory (base.join p) = meansDirectory p := by
  rw [meansDirectory_join hb hp, meansDirectory_eq, Path.segments]
  rcases Path.readLead_cases p.text.toList with ⟨r, he⟩ | he | ⟨r, he⟩ | he
  · rw [Path.isAbsolute, Path.lead, he] at hp
    cases hp
  · refine absurd ?_ hi
    rw [Path.innerComponents, he]
    rfl
  · rw [he]
    exact congrArg (Option.any Path.isSilent) ((Path.getLast?_pieces_append ['.'] r).trans
      (Path.getLast?_append_pieces [""] r).symm)
  · rw [he]

/-- A join that leads to a file leads to the file of the relative path. -/
theorem look_of_join {d : Disk} {cwd p : Path} {bytes : List UInt8} {executable : Bool}
    (hc : cwd.isAbsolute = true) (hp : p.isAbsolute = false)
    (h : d.look cwd (cwd.join p) = .ok (.file bytes executable)) :
    d.look cwd p = .ok (.file bytes executable) := by
  have hb := text_ne_empty_of_isAbsolute hc
  cases hq : d.place cwd (cwd.join p) with
  | error e =>
    rw [look_of_error hq] at h
    cases h
  | ok place =>
    by_cases hi : p.innerComponents = []
    · rw [look_of_place hq, meansDirectory_join_of_nil hb hp hi] at h
      split at h
      · cases h
      · split at h
        · cases h
        · rw [if_pos rfl] at h
          cases h
        · cases h
    · rw [look_of_place hq, meansDirectory_join_of_ne hb hp hi] at h
      rw [look_of_place (place_of_join hc hp hi hq)]
      exact h

end Disk

/-- **A file that is read by its absolute path is read by the path that was
given.** -/
theorem Machine.readText_of_absolute {m : Machine} {file : Path} {text : String}
    (ha : (m.absolute file).isAbsolute = true) (h : m.readText (m.absolute file) = .ok text) :
    m.readText file = .ok text := by
  cases hf : file.isAbsolute with
  | true =>
    have hj : m.absolute file = file := by simp [absolute, Path.join, hf]
    rwa [hj] at h
  | false =>
    have hc : m.cwd.isAbsolute = true := by
      rcases Path.isAbsolute_of_join ha with hf' | hc
      · rw [hf] at hf'
        cases hf'
      · exact hc
    obtain ⟨bytes, hr, ht⟩ := exists_of_bind_eq_ok h
    obtain ⟨entry, hl, hr⟩ := exists_of_bind_eq_ok hr
    cases entry with
    | directory => cases hr
    | file bytes' executable =>
      have hl' := Disk.look_of_join hc hf hl
      unfold readText Disk.readText Disk.readBytes
      rw [hl']
      cases hr
      exact ht

/-! ## §3 Reading what was written -/

/-- **What is in a file after it was written is what was written.** -/
theorem readBytes_of_writeText {d d' : Disk} {cwd file : Path} {text : String}
    (h : d.writeText cwd file text = .ok d') :
    d'.readBytes cwd file = .ok (Text.Utf8.encode text.toList) := by
  obtain ⟨place, executable, hp, hr, hm, he, rfl⟩ := Disk.exists_of_writeBytes h
  have hs := Disk.sameBut_put (Disk.isDirectoryAt_of_place hp) he
    (Text.Utf8.encode text.toList) executable
  unfold Disk.readBytes
  rw [Disk.look_of_place (Disk.place_eq_of_ok hs hp)]
  simp only [List.isEmpty_iff, if_neg hr, Disk.put, if_pos, hm, Bool.false_eq_true, if_false]
  rfl

end FormatHost
