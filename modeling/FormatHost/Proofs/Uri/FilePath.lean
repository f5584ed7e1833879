/-
FormatHost.Proofs.Uri.FilePath — the path of a URI is absolute.

Whatever text a `file:` URI is read from, its path starts with a slash; and
no other URI has a file path. So a document whose URI was read has an
absolute path or none (`Document.isRooted_of_parse?`).
-/
import FormatHost.Document

namespace FormatHost

namespace Uri

/-- A path that starts with a slash still does when it was decoded. -/
theorem decodeLossy_decode_slash (rest : List Char) :
    ∃ cs, Text.Utf8.decodeLossy (decode ('/' :: rest)) = '/' :: cs := by
  have hd : decode ('/' :: rest) = 0x2F :: decode rest := by
    rw [decode]
    · rfl
    · exact fun _ _ _ h => absurd h (by decide)
  have hs : ∀ bs, Text.Utf8.step 0x2F bs = (some '/', 0) := fun _ => rfl
  rw [hd, Text.Utf8.decodeLossy, hs]
  exact ⟨_, rfl⟩

theorem isAbsolute_of_slash (cs : List Char) :
    (Path.mk (String.ofList ('/' :: cs))).isAbsolute := by
  unfold Path.isAbsolute Path.lead
  rw [String.toList_ofList]
  rfl

/-- The path of a `file:` URI starts with a slash. -/
theorem path_of_readFile {rest : List Char} {u : Uri} (h : readFile rest = some u) :
    ∃ path, u.path = String.ofList ('/' :: path) := by
  unfold readFile at h
  dsimp only at h
  split at h
  · split at h
    · cases h
      exact ⟨_, rfl⟩
    · split at h
      · cases h
        exact ⟨_, rfl⟩
      · obtain ⟨host, -, h⟩ := Option.bind_eq_some_iff.mp h
        split at h
        · cases h
          exact ⟨_, rfl⟩
        · cases h
          exact ⟨_, rfl⟩
  · cases h
    exact ⟨_, rfl⟩
  · cases h
    exact ⟨_, rfl⟩

theorem scheme_of_readSpecial {scheme : String} {rest : List Char} {u : Uri}
    (h : readSpecial scheme rest = some u) : u.scheme = scheme := by
  unfold readSpecial at h
  dsimp only at h
  split at h
  · cases h
  · obtain ⟨host, -, h⟩ := Option.bind_eq_some_iff.mp h
    obtain ⟨port, -, h⟩ := Option.bind_eq_some_iff.mp h
    cases h
    rfl

theorem scheme_of_readOther {scheme : String} {rest : List Char} {u : Uri}
    (h : readOther scheme rest = some u) : u.scheme = scheme := by
  unfold readOther at h
  dsimp only at h
  split at h
  · split at h
    · cases h
    · split at h
      all_goals
        obtain ⟨host, -, h⟩ := Option.bind_eq_some_iff.mp h
        obtain ⟨port, -, h⟩ := Option.bind_eq_some_iff.mp h
        cases h
        rfl
  · cases h
    rfl
  · cases h
    rfl

/-- **A URI that was read has an absolute file path or none.** -/
theorem isAbsolute_of_parse? {text : String} {u : Uri} {p : Path} (h : parse? text = some u)
    (hp : u.filePath? = some p) : p.isAbsolute = true := by
  unfold filePath? at hp
  split at hp
  · rename_i hs
    have hscheme : u.scheme = fileScheme := by
      rw [Bool.and_eq_true, beq_iff_eq] at hs
      exact hs.1
    obtain ⟨path, hpath⟩ : ∃ path, u.path = String.ofList ('/' :: path) := by
      unfold parse? at h
      obtain ⟨⟨scheme, rest⟩, -, h⟩ := Option.bind_eq_some_iff.mp h
      dsimp only at h
      by_cases hf : (scheme == fileScheme) = true
      · rw [if_pos hf] at h
        exact path_of_readFile h
      · rw [if_neg hf] at h
        have hu : u.scheme = scheme := by
          split at h
          · exact scheme_of_readSpecial h
          · exact scheme_of_readOther h
        rw [← hu, hscheme] at hf
        exact absurd (beq_iff_eq.mpr rfl) hf
    obtain ⟨cs, hcs⟩ := decodeLossy_decode_slash path
    rw [hpath, String.toList_ofList, hcs] at hp
    dsimp only at hp
    obtain rfl := Option.some.inj hp
    split
    · exact isAbsolute_of_slash (cs ++ ['/'])
    · exact isAbsolute_of_slash cs
  · cases hp

/-- The URI made for a file has a path. -/
theorem isSome_filePath?_ofFilePath? {p : Path} {u : Uri} (h : ofFilePath? p = some u) :
    u.filePath?.isSome = true := by
  unfold ofFilePath? at h
  split at h
  · obtain rfl := Option.some.inj h
    simp [filePath?]
  · cases h

end Uri

namespace Document

/-- The document has an absolute path or none. -/
def IsRooted (d : Document) : Prop := ∀ path, d.path? = some path → path.isAbsolute = true

theorem isRooted_of_parse? {d : Document} (text : String) (h : Uri.parse? text = some d.uri) :
    d.IsRooted :=
  fun _ => Uri.isAbsolute_of_parse? h

end Document
end FormatHost
