/-
FormatHost.Proofs.Ignore.Lines — what an ignore file says depends on the
lines that hold a rule, and on what lies below its directory.

A line that is blank, a comment or no pattern adds nothing to the rules, so
taking it out, wherever it stands, leaves the list of rules and the order in
it. And a file is matched by its path below the directory of the ignore file,
which is the same wherever the directory lies. So a project's answers do not
change when it is moved, nor with the lines that hold no rule.

* §1 lines without a rule: `rule?_eq_none_iff`;
* §2 files below the directory;
* §3 `isMatch_moved`.
-/
import FormatHost.Proofs.Ignore.Spelling
import FormatHost.Proofs.Text

namespace FormatHost

/-! ## §1 Lines -/

namespace Ignore

open Text

/-- The rule of a line, when it has one. -/
def rule? (l : List Char) : Option Rule :=
  match readRule l with
  | .ok r => r
  | .error _ => none

theorem readRules_eq_filterMap (ls : List (List Char)) : readRules ls = ls.filterMap rule? := rfl

/-- A line without a rule: a blank one, a comment, or one that is no
pattern. -/
def IsIdle (l : List Char) : Prop :=
  (∀ c ∈ l, isBlank c = true) ∨ l.head? = some '#' ∨ ∃ e, readRule l = .error e

/-- Nothing is read off a comment or a blank line, and off no other. -/
theorem lineText?_eq_none_iff {l : List Char} :
    lineText? l = none ↔ l.head? = some '#' ∨ ∀ c ∈ l, isBlank c = true := by
  unfold lineText?
  split
  · rename_i h
    exact ⟨fun _ => .inl h, fun _ => rfl⟩
  rename_i h
  rw [or_iff_right h]
  dsimp only
  split
  · -- a line that ends in a backslash and a space is kept, and the backslash is no blank
    rename_i hback
    obtain ⟨front, hfront⟩ := List.isPrefixOf_iff_prefix.mp hback
    have hl : '\\' ∈ l := by
      rw [← List.mem_reverse, ← hfront]
      exact List.mem_append_left _ (by decide)
    have hne : l.isEmpty = false := by simpa using List.ne_nil_of_mem hl
    rw [hne, if_neg Bool.false_ne_true]
    exact ⟨nofun, fun hall => absurd (hall _ hl) (by decide)⟩
  · have hempty : (trimEnd l).isEmpty = true ↔ ∀ c ∈ l, isBlank c = true := by
      rw [List.isEmpty_iff, trimEnd, dropRightWhile_eq, List.rdropWhile_eq_nil_iff]
    rw [← hempty]
    split <;> simp_all

theorem readRule_eq_none_iff {l : List Char} :
    readRule l = .ok none ↔ l.head? = some '#' ∨ ∀ c ∈ l, isBlank c = true := by
  rw [← lineText?_eq_none_iff]
  unfold readRule readLine
  cases lineText? l with
  | none => exact ⟨fun _ => rfl, fun _ => rfl⟩
  | some text =>
    refine ⟨fun h => ?_, nofun⟩
    dsimp only [Option.bind_eq_bind, Option.bind_some] at h
    split at h <;> cases h

/-- **The lines without a rule are the idle ones.** -/
theorem rule?_eq_none_iff {l : List Char} : rule? l = none ↔ IsIdle l := by
  unfold rule? IsIdle
  have hnone := readRule_eq_none_iff (l := l)
  cases h : readRule l with
  | ok r =>
    rw [h] at hnone
    simp only [Except.ok.injEq] at hnone
    simp [hnone, or_comm]
  | error e => simp

instance (l : List Char) : Decidable (IsIdle l) :=
  decidable_of_iff ((rule? l).isNone = true) (Option.isNone_iff_eq_none.trans rule?_eq_none_iff)

/-- The second list of lines is the first one with some idle lines taken
out. -/
inductive Pruned : List (List Char) → List (List Char) → Prop
  | nil : Pruned [] []
  | keep (l : List Char) {ls kept : List (List Char)} :
    Pruned ls kept → Pruned (l :: ls) (l :: kept)
  | drop {l : List Char} {ls kept : List (List Char)} :
    IsIdle l → Pruned ls kept → Pruned (l :: ls) kept

/-- It has the same rules. -/
theorem Pruned.readRules_eq {ls kept : List (List Char)} (h : Pruned ls kept) :
    readRules ls = readRules kept := by
  induction h with
  | nil => rfl
  | keep l _ ih =>
    simp only [readRules_eq_filterMap] at ih ⊢
    rw [List.filterMap_cons, List.filterMap_cons, ih]
  | drop hl _ ih =>
    rw [readRules_eq_filterMap, List.filterMap_cons_none (rule?_eq_none_iff.mpr hl)]
    exact ih

end Ignore

/-! ## §2 Below a directory -/

namespace Path

/-- Below a directory, the directory itself is the empty path. -/
theorem stripPrefix?_of_components_eq {file base : Path} (hb : base.components ≠ [])
    (h : file.components = base.components) : file.stripPrefix? base = some ⟨""⟩ := by
  have hlength : base.components.length - file.lead.components.length =
      (file.segments.filterMap segmentComponent?).length := by
    rw [← h, components, List.length_append, Nat.add_sub_cancel_left]
  have hrest := dropWhile_dropComponents file.segments []
  rw [List.append_nil] at hrest
  unfold stripPrefix?
  rw [if_pos (startsWith_iff.mpr (h ▸ List.prefix_rfl)), if_neg (by simpa using hb)]
  dsimp only
  rw [hlength, hrest]
  rfl

end Path

namespace Ignore.Matcher

/-- Rules exclude only what lies below their directory, and not the directory
itself. -/
theorem below_of_isMatch (rules : Matcher) {file : Path}
    (hb : (base rules.source).components ≠ []) (h : rules.isMatch file = true) :
    ∃ below, below ≠ [] ∧ file.components = (base rules.source).components ++ below := by
  have hs : file.startsWith (base rules.source) = true := by
    by_contra ho
    rw [Bool.not_eq_true] at ho
    rw [isMatch_of_outside rules ho] at h
    cases h
  obtain ⟨below, hbelow⟩ := Path.startsWith_iff.mp hs
  refine ⟨below, ?_, hbelow.symm⟩
  rintro rfl
  rw [List.append_nil] at hbelow
  unfold isMatch at h
  rw [Path.stripPrefix?_of_components_eq hb hbelow.symm] at h
  cases h

/-! ## §3 Another place, and fewer lines -/

theorem components_base_joinName {name : String} (hn : Path.IsName name) (dir : Path) :
    (base (dir / name)).components = dir.components :=
  components_base (Path.components_joinName hn dir)

/-- **An ignore file can be moved, and idle lines taken out of it.** A path
below one directory is excluded by the rules there just when it is excluded
below another directory by the same rules, read from a file without some of
the blank lines, the comments and the lines that are no pattern. In neither is
a file excluded whose components are not those of the directory and more. -/
theorem isMatch_moved {a b : Path} (ha : a.isAbsolute = true) (hb : b.isAbsolute = true)
    {name : String} (hn : Path.IsName name) {content kept : String}
    (h : Pruned (Text.lines content.toList) (Text.lines kept.toList)) :
    (∀ below : Path, below.isAbsolute = false →
      (ofContent (a / name) content).isMatch (a.join below) =
        (ofContent (b / name) kept).isMatch (b.join below)) ∧
    ∀ file, (ofContent (a / name) content).isMatch file = true →
      ∃ below, below ≠ [] ∧ file.components = a.components ++ below := by
  have hca := components_base_joinName hn a
  have hcb := components_base_joinName hn b
  have hbase : (base (a / name)).isAbsolute = true :=
    isAbsolute_base ((Path.isAbsolute_joinName hn a).trans ha) (Path.components_joinName hn a)
  have hbase' : (base (b / name)).isAbsolute = true :=
    isAbsolute_base ((Path.isAbsolute_joinName hn b).trans hb) (Path.components_joinName hn b)
  refine ⟨fun below hbelow => ?_, fun file hfile => ?_⟩
  · have hrules : ofContent (b / name) kept = ofContent (b / name) content := by
      unfold ofContent
      rw [h.readRules_eq]
    rw [hrules]
    refine isMatch_congr hbase hbase' ?_ content
    rw [Path.stripPrefix?_congr hca, Path.stripPrefix?_congr hcb, Path.stripPrefix?_join ha hbelow,
      Path.stripPrefix?_join hb hbelow]
  · have hne : (base (a / name)).components ≠ [] := by
      intro he
      rw [Path.isAbsolute_iff, he] at hbase
      cases hbase
    rw [← hca]
    exact below_of_isMatch (ofContent (a / name) content) hne hfile

/-- A file of rules among idle lines: a comment, an empty line and a range
that runs backwards. -/
def commented : String := "# output\n*.js\n\n[z-a]\n!keep.js\n/dist/\n"

/-- Its rules. -/
def uncommented : String := "*.js\n!keep.js\n/dist/\n"

theorem isMatch_moved_uncommented :
    Pruned (Text.lines commented.toList) (Text.lines uncommented.toList) ∧
      (ofContent (Path.mk "/ws" / ".prettierignore") commented).isMatch
          ((Path.mk "/ws").join ⟨"src/a.js"⟩) = true ∧
      (ofContent (Path.mk "/home/copy/" / ".prettierignore") uncommented).isMatch
          ((Path.mk "/home/copy/").join ⟨"src/a.js"⟩) = true := by
  have hlines : Text.lines commented.toList =
      ["# output", "*.js", "", "[z-a]", "!keep.js", "/dist/"].map String.toList := by
    decide +kernel
  have hkept : Text.lines uncommented.toList =
      ["*.js", "!keep.js", "/dist/"].map String.toList := by
    decide +kernel
  have hpruned : Pruned (Text.lines commented.toList) (Text.lines uncommented.toList) := by
    rw [hlines, hkept]
    refine .drop ?_ (.keep _ (.drop ?_ (.drop ?_ (.keep _ (.keep _ .nil)))))
    all_goals decide +kernel
  have hname : Path.IsName ".prettierignore" := by decide +kernel
  obtain ⟨hmoved, -⟩ := isMatch_moved (a := ⟨"/ws"⟩) (b := ⟨"/home/copy/"⟩) (by decide +kernel)
    (by decide +kernel) hname hpruned
  have hhere : (ofContent (Path.mk "/ws" / ".prettierignore") commented).isMatch
      ((Path.mk "/ws").join ⟨"src/a.js"⟩) = true := by
    decide +kernel
  exact ⟨hpruned, hhere, (hmoved ⟨"src/a.js"⟩ (by decide +kernel)).symm.trans hhere⟩

end Ignore.Matcher
end FormatHost
