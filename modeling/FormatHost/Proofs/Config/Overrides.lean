/-
FormatHost.Proofs.Config.Overrides — the patterns of overrides beside those of
sections.

An override chooses files by patterns as a section of `.editorconfig` does,
and both read a pattern with a slash against the path below their directory.
But the patterns are read in two dialects. Where sections match path and
pattern component by component, the wildcards of an override run across
slashes, so that it also takes files further down than its pattern says.

* §1 patterns of paths, and matching by components;
* §2 sections;
* §3 overrides: `anyMatches_wildcards`.
-/
import FormatHost.Config.File
import FormatHost.EditorConfig
import FormatHost.Proofs.Glob.Wildcards

namespace FormatHost

open Text Glob

/-! ## §1 Patterns of paths -/

namespace Glob

/-- A wildcard pattern that says where below a directory a file is. -/
structure IsPathPattern (pattern : String) : Prop where
  wildcard : IsWildcard pattern.toList
  slash : '/' ∈ pattern.toList
  relative : pattern.toList.head? ≠ some '/'

instance (pattern : String) : Decidable (IsPathPattern pattern) :=
  decidable_of_iff (_ ∧ _ ∧ _)
    ⟨fun ⟨h, h', h''⟩ => ⟨h, h', h''⟩, fun h => ⟨h.wildcard, h.slash, h.relative⟩⟩

/-- Path and pattern have the same number of components, and each component of
the path matches that of the pattern. -/
def FitsComponents (pattern relative : String) : Prop :=
  List.Forall₂ (fun q piece => Fits {} q (Utf8.encode piece))
    (splitAll '/' pattern.toList) (splitAll '/' relative.toList)

theorem fitsComponents_iff {pattern relative : String} :
    FitsComponents pattern relative ↔
      Fits {} pattern.toList (Utf8.encode relative.toList) ∧
        pattern.toList.count '/' = relative.toList.count '/' := by
  have hd : EditorConfig.dialect.literalSeparator = true := rfl
  rw [FitsComponents, ← fits_iff_components hd, fits_separating_iff hd, count_slash_encode]

end Glob

/-! ## §2 Sections -/

/-- A section with such a pattern applies to the paths that match it component
by component. -/
theorem EditorConfig.sectionMatches_iff {pattern : String} (h : IsPathPattern pattern)
    (relative : String) :
    sectionMatches pattern relative = true ↔ FitsComponents pattern relative := by
  have htext : globText pattern = pattern := by
    unfold globText
    split
    · rename_i rest hrest
      exact absurd (congrArg List.head? hrest) h.relative
    · rw [if_pos (List.contains_iff_mem.mpr h.slash)]
  rw [sectionMatches, htext, parse_wildcard h.wildcard]
  exact isMatch_wildcard_iff.trans (fits_iff_components rfl)

/-! ## §3 Overrides -/

namespace ConfigFile

theorem patternMatches_eq {pattern : String} (h : IsPathPattern pattern) (t : Target) :
    patternMatches t pattern =
      .ok (isMatch ⟨pattern, dialect, pattern.toList.map charToken⟩ t.relative) := by
  rw [patternMatches, parse_wildcard h.wildcard]
  simp only
  rw [if_pos (List.contains_iff_mem.mpr h.slash)]

/-- Such patterns can always be read. One of them matches when the whole path
falls into pieces for it, slashes among them. -/
theorem anyMatches_iff (t : Target) {patterns : List String}
    (h : ∀ p ∈ patterns, IsPathPattern p) :
    ∃ b, anyMatches t patterns = .ok b ∧
      (b = true ↔ ∃ p ∈ patterns, Fits {} p.toList (Utf8.encode t.relative.toList)) := by
  induction patterns with
  | nil => exact ⟨false, rfl, by simp⟩
  | cons p ps ih =>
    rw [List.forall_mem_cons] at h
    obtain ⟨b, hb, hiff⟩ := ih h.2
    have hp : isMatch ⟨p, dialect, p.toList.map charToken⟩ t.relative = true ↔ _ :=
      isMatch_wildcard_iff
    rw [anyMatches, patternMatches_eq h.1]
    cases hm : isMatch ⟨p, dialect, p.toList.map charToken⟩ t.relative with
    | true => exact ⟨true, rfl, iff_of_true rfl ⟨p, List.mem_cons_self .., hp.mp hm⟩⟩
    | false =>
      refine ⟨b, hb, hiff.trans ?_⟩
      rw [List.exists_mem_cons_iff, or_iff_right]
      exact fun hfits => by simp [hp.mpr hfits] at hm

/-- **Override patterns of plain characters, `?` and `*`.** They can be read,
and one of them accepts a path exactly when the path falls into pieces for its
characters, where a wildcard can take slashes. A section with the pattern takes
the path exactly when both match component by component; these are the paths
that the pattern accepts and that have as many slashes as it has. What else it
accepts has more. -/
theorem anyMatches_wildcards (t : Target) {patterns : List String}
    (h : ∀ p ∈ patterns, IsPathPattern p) :
    ∃ b, anyMatches t patterns = .ok b ∧
      (b = true ↔ ∃ p ∈ patterns, Fits {} p.toList (Utf8.encode t.relative.toList)) ∧
      ∀ p ∈ patterns,
        (EditorConfig.sectionMatches p t.relative = true ↔ FitsComponents p t.relative) ∧
        (FitsComponents p t.relative ↔
          Fits {} p.toList (Utf8.encode t.relative.toList) ∧
            p.toList.count '/' = t.relative.toList.count '/') ∧
        (Fits {} p.toList (Utf8.encode t.relative.toList) →
          p.toList.count '/' ≤ t.relative.toList.count '/') := by
  obtain ⟨b, hb, hiff⟩ := anyMatches_iff t h
  refine ⟨b, hb, hiff, fun p hp => ⟨EditorConfig.sectionMatches_iff (h p hp) _,
    fitsComponents_iff, fun hfits => ?_⟩⟩
  have hle := hfits.count_le
  rwa [count_slash_encode] at hle

/-- A file right in the folder, for an override and for a section. -/
theorem anyMatches_wildcards_sources :
    (∀ p ∈ ["lib/?.js", "src/*.ts"], IsPathPattern p) ∧
      anyMatches ⟨"src/a.ts", "a.ts"⟩ ["lib/?.js", "src/*.ts"] = .ok true ∧
      FitsComponents "src/*.ts" "src/a.ts" := by
  have h : ∀ p ∈ ["lib/?.js", "src/*.ts"], IsPathPattern p := by decide +kernel
  obtain ⟨b, hb, hiff, hcomponents⟩ := anyMatches_wildcards ⟨"src/a.ts", "a.ts"⟩ h
  have hfits : Fits {} "src/*.ts".toList (Utf8.encode "src/a.ts".toList) :=
    isMatch_wildcard_iff.mp (by decide +kernel)
  have hmem : "src/*.ts" ∈ ["lib/?.js", "src/*.ts"] := by decide
  obtain rfl : b = true := hiff.mpr ⟨_, hmem, hfits⟩
  exact ⟨h, hb, (hcomponents _ hmem).2.1.mpr ⟨hfits, by decide +kernel⟩⟩

/-- Overrides do not match component by component: the pattern `src/*.ts` takes
a file in a folder of `src`. -/
theorem anyMatches_wildcards_deep :
    ¬ ∀ (path document : Path) (pattern : String), IsPathPattern pattern →
      anyMatches (target path document) [pattern] = .ok true →
        FitsComponents pattern (target path document).relative := by
  intro hclaim
  have hp : IsPathPattern "src/*.ts" := by decide +kernel
  have ht : target ⟨"/ws/.prettierrc"⟩ ⟨"/ws/src/deep/a.ts"⟩ = ⟨"src/deep/a.ts", "a.ts"⟩ := by
    decide +kernel
  have hm : isMatch ⟨"src/*.ts", dialect, "src/*.ts".toList.map charToken⟩ "src/deep/a.ts" =
      true := by
    decide +kernel
  have hany : anyMatches ⟨"src/deep/a.ts", "a.ts"⟩ ["src/*.ts"] = .ok true := by
    rw [anyMatches, patternMatches_eq hp, hm]
    rfl
  have hcount := (fitsComponents_iff.mp
    (hclaim ⟨"/ws/.prettierrc"⟩ ⟨"/ws/src/deep/a.ts"⟩ "src/*.ts" hp (by rw [ht, hany]))).2
  rw [ht] at hcount
  exact absurd hcount (by decide +kernel)

end ConfigFile
end FormatHost
