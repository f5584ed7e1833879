/-
FormatHost.Proofs.Glob.Names — the pattern for files of some names.

The pattern is written as a glob and then read. Where no character of the
names is special, what is read is `**/` and the names, character by
character; so the pattern accepts every path that ends in a slash and one of
the names, at any depth.

* §1 reading plain characters;
* §2 reading the glob of names: `ofNames_eq`;
* §3 what such a glob matches: `accepts_ofNames`;
* §4 the names of configuration files.
-/
import FormatHost.Config.Discovery
import FormatHost.Proofs.Path.Ancestors
import FormatHost.Watch

namespace FormatHost

open Text

namespace Glob

/-! ## §1 Plain characters -/

/-- The characters that have a meaning of their own somewhere. -/
def specials : List Char := ['?', '*', '[', '\x7b', '\x7d', ',', '\\']

/-- A character that stands for itself wherever it is read. -/
def isPlain (c : Char) : Bool := !specials.contains c

/-- A name that is read as its own characters. -/
def IsPlainName (name : String) : Prop := name ≠ "" ∧ name.toList.all isPlain = true

instance (name : String) : Decidable (IsPlainName name) := inferInstanceAs (Decidable (_ ∧ _))

/-- The tokens of characters that stand for themselves. -/
def literals (cs : List Char) : List Token := cs.map .literal

variable {d : Dialect} {literalBracket : Bool} {before : Option Char}

theorem readTokens_plain_cons (r : Reading) {c : Char} (hc : isPlain c = true)
    (rest : List Char) :
    readTokens d literalBracket before r (c :: rest) =
      readTokens d literalBracket (some c) (r.push (.literal c)) rest := by
  have hne : c ≠ '?' ∧ c ≠ '*' ∧ c ≠ '[' ∧ c ≠ '\x7b' ∧ c ≠ '\x7d' ∧ c ≠ ',' ∧ c ≠ '\\' := by
    simpa [isPlain, specials] using hc
  obtain ⟨h1, h2, h3, h4, h5, h6, h7⟩ := hne
  rw [readTokens] <;> assumption

/-- Plain characters are read one by one. -/
theorem readTokens_plain {cs : List Char} (h : ∀ c ∈ cs, isPlain c = true) (r : Reading)
    (rest : List Char) :
    ∃ last, readTokens d literalBracket before r (cs ++ rest) =
      readTokens d literalBracket last
        { r with tokens := (literals cs).reverse ++ r.tokens } rest := by
  induction cs generalizing before r with
  | nil => exact ⟨before, rfl⟩
  | cons c cs ih =>
    obtain ⟨last, hl⟩ := ih (fun c hc => h c (List.mem_cons_of_mem _ hc)) (r.push (.literal c))
    refine ⟨last, ?_⟩
    rw [List.cons_append, readTokens_plain_cons r (h c (List.mem_cons_self ..)), hl]
    simp [Reading.push, literals]

/-! ## §2 Names -/

/-- Names between commas, up to the closing brace, become branches. -/
theorem readTokens_names {names : List String} (hne : names ≠ [])
    (h : ∀ name ∈ names, IsPlainName name) (branches : List (List Token)) (around : List Token) :
    readTokens d literalBracket before ⟨[], [(branches, around)]⟩
        (joinWith ',' (names.map String.toList) ++ ['\x7d']) =
      .ok ⟨.alternatives (branches.reverse ++ names.map (literals ·.toList)) :: around, []⟩ := by
  induction names generalizing before branches with
  | nil => exact absurd rfl hne
  | cons name rest ih =>
    have hplain := List.all_eq_true.mp (h name (List.mem_cons_self ..)).2
    cases rest with
    | nil =>
      obtain ⟨last, hl⟩ := readTokens_plain (d := d) hplain ⟨[], [(branches, around)]⟩ ['\x7d']
      simp only [List.map_cons, List.map_nil, joinWith]
      rw [hl]
      simp [readTokens]
    | cons next more =>
      obtain ⟨last, hl⟩ := readTokens_plain (d := d) hplain ⟨[], [(branches, around)]⟩
        (',' :: (joinWith ',' ((next :: more).map String.toList) ++ ['\x7d']))
      rw [List.map_cons, joinWith, List.append_assoc, List.cons_append, hl]
      · simp only [readTokens, List.append_nil, List.reverse_reverse]
        rw [ih (List.cons_ne_nil next more) fun name hn => h name (List.mem_cons_of_mem _ hn)]
        simp
      · simp

/-- The tokens of the glob of names. -/
def nameTokens (names : List String) : List Token :=
  [.recursiveFront, .alternatives (names.map (literals ·.toList))]

end Glob

/-- **The glob of plain names is read as it was meant.** -/
theorem WatchPattern.ofNames_eq {names : List String} (hne : names ≠ [])
    (h : ∀ name ∈ names, Glob.IsPlainName name) :
    ofNames names = .ok (.glob ⟨namesText names, {}, Glob.nameTokens names⟩) := by
  have hcomma : ",".toList = [','] := rfl
  have htext : (namesText names).toList =
      '*' :: '*' :: '/' :: '\x7b' :: (joinWith ',' (names.map String.toList) ++ ['\x7d']) := by
    simp [namesText, toList_intercalate hcomma]
  have hread : Glob.readTokens {} false none {} (namesText names).toList =
      .ok ⟨(Glob.nameTokens names).reverse, []⟩ := by
    rw [htext]
    simp only [Glob.readTokens]
    simp only [Glob.Reading.recursion, Glob.Reading.push]
    simpa [Glob.readTokens, Glob.nameTokens] using
      Glob.readTokens_names (d := {}) hne h [] [.recursiveFront]
  simp [ofNames, ofGlob, Glob.parse, Glob.parseTokens, hread, Glob.Reading.inBraces, Except.map]

/-! ## §3 Matching -/

theorem Text.Utf8.encode_append (a b : List Char) : encode (a ++ b) = encode a ++ encode b :=
  List.flatMap_append

namespace Glob

/-- Characters that stand for themselves take their own bytes. -/
theorem listResidues_literals (d : Dialect) (cs : List Char) (rest : List UInt8) :
    listResidues d (literals cs) [Utf8.encode cs ++ rest] = [rest] := by
  induction cs with
  | nil => rfl
  | cons c cs ih =>
    have hc : Utf8.encode (c :: cs) ++ rest =
        String.utf8EncodeChar c ++ (Utf8.encode cs ++ rest) := by
      rw [← List.append_assoc]
      rfl
    have htake : residues d (.literal c) (Utf8.encode (c :: cs) ++ rest) =
        [Utf8.encode cs ++ rest] := by
      rw [residues, hc, stripFront_append]
      rfl
    rw [literals, List.map_cons, listResidues, List.flatMap_cons, htake]
    exact ih

theorem mem_afterSlashes (front rest : List UInt8) :
    rest ∈ afterSlashes (front ++ slash :: rest) := by
  induction front with
  | nil => simp [afterSlashes]
  | cons b front ih =>
    rw [List.cons_append, afterSlashes]
    split
    · exact List.mem_cons_of_mem _ ih
    · exact ih

theorem allBranchesSilent_iff {branches : List (List Token)} :
    allBranchesSilent branches = true ↔ ∀ ts ∈ branches, allSilent ts = true := by
  induction branches with
  | nil => simp [allBranchesSilent]
  | cons ts branches ih => simp [allBranchesSilent, ih]

theorem mem_branchResidues_iff {d : Dialect} {branches : List (List Token)}
    {bs rest : List UInt8} :
    rest ∈ branchResidues d branches bs ↔
      ∃ ts ∈ branches, allSilent ts = false ∧ rest ∈ listResidues d ts [bs] := by
  induction branches with
  | nil => simp [branchResidues]
  | cons ts branches ih =>
    simp only [branchResidues, List.mem_append, ih, List.mem_cons, exists_eq_or_imp]
    cases allSilent ts <;> simp

/-- What one branch leaves, the alternatives leave. -/
theorem mem_branchResidues {d : Dialect} {branches : List (List Token)} {ts : List Token}
    (hm : ts ∈ branches) (hs : allSilent ts = false) {bs rest : List UInt8}
    (hr : rest ∈ listResidues d ts [bs]) :
    allBranchesSilent branches = false ∧ rest ∈ branchResidues d branches bs := by
  refine ⟨Bool.eq_false_iff.mpr fun hall => ?_, mem_branchResidues_iff.mpr ⟨ts, hm, hs, hr⟩⟩
  rw [allBranchesSilent_iff.mp hall ts hm] at hs
  cases hs

theorem allSilent_literals {cs : List Char} (h : cs ≠ []) : allSilent (literals cs) = false := by
  cases cs with
  | nil => exact absurd rfl h
  | cons c cs => simp [literals, allSilent, silentToken]

/-- The tokens of names take all of a text that ends in a slash and a
name. -/
theorem nil_mem_nameTokens {names : List String} {name : String} (hm : name ∈ names)
    (hn : name ≠ "") (d : Dialect) (front : List UInt8) :
    [] ∈ listResidues d (nameTokens names)
      [front ++ slash :: Utf8.encode name.toList] := by
  have hne : name.toList ≠ [] := by simpa using hn
  have hleft : [] ∈ listResidues d (literals name.toList) [Utf8.encode name.toList] := by
    have hl := listResidues_literals d name.toList []
    rw [List.append_nil] at hl
    rw [hl]
    exact List.mem_singleton_self _
  have hbranch := mem_branchResidues (List.mem_map_of_mem (f := (literals ·.toList)) hm)
    (allSilent_literals hne) hleft
  have hname : [] ∈ residues d (.alternatives (names.map (literals ·.toList)))
      (Utf8.encode name.toList) := by
    rw [residues, hbranch.1, if_neg Bool.false_ne_true]
    exact hbranch.2
  have hfront : Utf8.encode name.toList ∈
      residues d .recursiveFront (front ++ slash :: Utf8.encode name.toList) := by
    rw [residues]
    exact List.mem_cons_of_mem _ (mem_afterSlashes front _)
  simp only [nameTokens, listResidues, List.mem_eraseDups, List.mem_flatMap,
    List.mem_singleton]
  exact ⟨_, ⟨_, rfl, hfront⟩, hname⟩

end Glob

/-- **The pattern of names accepts every file with one of the names**, in
whatever directory. -/
theorem WatchPattern.accepts_ofNames {names : List String}
    (h : ∀ name ∈ names, Glob.IsPlainName name) {pattern : WatchPattern}
    (hp : ofNames names = .ok pattern) {name : String} (hm : name ∈ names) (front : String) :
    pattern.accepts ⟨front ++ "/" ++ name⟩ = true := by
  rw [ofNames_eq (List.ne_nil_of_mem hm) h] at hp
  obtain rfl := Except.ok.inj hp
  have hslash : Utf8.encode "/".toList = [Glob.slash] := by decide
  have hbytes : Utf8.encode (front ++ "/" ++ name).toList =
      Utf8.encode front.toList ++ Glob.slash :: Utf8.encode name.toList := by
    rw [String.toList_append, String.toList_append, Utf8.encode_append, Utf8.encode_append, hslash,
      List.append_assoc]
    rfl
  have hall := Glob.nil_mem_nameTokens hm (h name hm).1 {} (Utf8.encode front.toList)
  rw [← hbytes] at hall
  exact List.contains_iff_mem.mpr hall

/-! ## §4 Configuration files -/

namespace Config

theorem watchedFiles_plain : ∀ name ∈ watchedFiles, Glob.IsPlainName name := by decide +kernel

/-- The glob for configuration files can be read. -/
theorem ofNames_watchedFiles :
    WatchPattern.ofNames watchedFiles =
      .ok (.glob ⟨WatchPattern.namesText watchedFiles, {}, Glob.nameTokens watchedFiles⟩) :=
  WatchPattern.ofNames_eq (by decide : watchedFiles ≠ []) watchedFiles_plain

end Config
end FormatHost
