/-
FormatHost.Proofs.Cli.Guesses — a language that is guessed for a file has a
parser.

The same table is read twice and by different rules. A guess goes by the
file's name and extension and takes the first identifier of the first entry
that lists one of them. The parser goes by that identifier: it is the first
parser of the first entry that has the identifier and serves the file. The
two entries need not be one, but the entry that a guess is from serves the
file, so that there is always a second one.

* §1 entries that serve a file;
* §2 guesses, and `parser_of_guess`.
-/
import FormatHost.Cli.Context
import FormatHost.Proofs.Service.Course

namespace FormatHost

/-! ## §1 Entries -/

namespace Parser

/-- An entry serves a file under an identifier that it lists. An entry
without extensions is for the files that it names only. -/
def Serves (identifier : String) (path : Path) (l : Language) : Prop :=
  identifier ∈ l.identifiers ∧
    (l.extensions ≠ [] ∨ ∃ name ∈ path.fileName?, name ∈ l.filenames)

theorem admits_iff (l : Language) (name? : Option String) :
    admits l name? = true ↔ l.extensions ≠ [] ∨ ∃ name ∈ name?, name ∈ l.filenames := by
  cases name? <;> simp [admits]

/-- Where some entry serves a file, the first one is asked for the parser. -/
theorem exists_ofTable {languages : List Language} {identifier : String} {path : Path}
    (hplain : identifier ≠ plainText) (h : ∃ l ∈ languages, Serves identifier path l) :
    ∃ before l after, languages = before ++ l :: after ∧
      (∀ other ∈ before, ¬ Serves identifier path other) ∧ Serves identifier path l ∧
      ofTable languages (some path) identifier = l.parsers.head? := by
  have hserves : ∀ l, (l.identifiers.contains identifier && admits l path.fileName?) = true ↔
      Serves identifier path l := by
    intro l
    rw [Bool.and_eq_true, admits_iff, List.contains_iff_mem]
    rfl
  cases hf : byIdentifier languages identifier path.fileName? with
  | none =>
    obtain ⟨l, hl, hs⟩ := h
    have hn := List.find?_eq_none.mp hf l hl
    exact absurd ((hserves l).mpr hs) hn
  | some l =>
    obtain ⟨hs, before, after, heq, hbefore⟩ := List.find?_eq_some_iff_append.mp hf
    refine ⟨before, l, after, heq, ?_, (hserves l).mp hs, ?_⟩
    · intro other ho hother
      have hn := hbefore other ho
      rw [(hserves other).mpr hother] at hn
      cases hn
    · simp [ofTable, hplain, languageFor, hf]

end Parser

/-! ## §2 Guesses -/

namespace Cli.Context

/-- A guess is from an entry that serves the file. -/
theorem serves_of_guess {languages : List Language} {path : Path} {identifier : String}
    (h : languageInTable languages path = some identifier) :
    ∃ l ∈ languages, Parser.Serves identifier path l := by
  obtain ⟨name, hname, h⟩ := Option.bind_eq_some_iff.mp h
  obtain ⟨l, hl, hfirst⟩ := Option.bind_eq_some_iff.mp h
  refine ⟨l, List.mem_of_find?_eq_some hl, List.mem_of_mem_head? hfirst, ?_⟩
  have hlists := List.find?_some hl
  rcases Bool.or_eq_true _ _ |>.mp hlists with hn | he
  · exact .inr ⟨name, hname, List.contains_iff_mem.mp hn⟩
  · cases hx : Parser.dottedExtension? path with
    | none => simp [hx] at he
    | some extension =>
      rw [hx] at he
      exact .inl (List.ne_nil_of_mem (List.contains_iff_mem.mp he))

/-- **A guess leads to a parser.** When every entry of a table has a parser
and another language than plain text is guessed for a file, the table's
parser for that language is the first one of the first entry that serves the
file. So a formatter with that table never leaves the document without a
parser. -/
theorem parser_of_guess {languages : List Language} (hparsers : ∀ l ∈ languages, l.parsers ≠ [])
    {path : Path} {identifier : String} (hguess : languageInTable languages path = some identifier)
    (hplain : identifier ≠ Parser.plainText) :
    ∃ before l after parser, languages = before ++ l :: after ∧
      (∀ other ∈ before, ¬ Parser.Serves identifier path other) ∧ Parser.Serves identifier path l ∧
      l.parsers.head? = some parser ∧
      Parser.ofTable languages (some path) identifier = some parser ∧
      ∀ {σ : Type} (h : Handle) (m : Machine) (info : Option FileInfo) (plugins : List String)
        (s : σ), h.formatter.supportInfo m plugins = .ok ⟨languages⟩ →
          (Parser.select h m (some path) identifier info plugins s).value =
            .ok ((info.bind (·.inferredParser)).getD parser) := by
  obtain ⟨before, l, after, heq, hbefore, hserves, htable⟩ :=
    Parser.exists_ofTable hplain (serves_of_guess hguess)
  have hl : l ∈ languages := by simp [heq]
  obtain ⟨parser, rest, hp⟩ := List.exists_cons_of_ne_nil (hparsers l hl)
  have hfirst : l.parsers.head? = some parser := by simp [hp]
  rw [hfirst] at htable
  refine ⟨before, l, after, parser, heq, hbefore, hserves, hfirst, htable, ?_⟩
  intro σ h m info plugins s hsupport
  rw [Parser.select_value, Parser.chosen]
  cases info.bind (·.inferredParser) with
  | some inferred => rfl
  | none => simp [hplain, hsupport, htable]

/-- Entries that share an identifier: one for other extensions, one for a
file name alone, and the one that lists the extension. -/
def sharingTable : List Language :=
  [{ name := "Manifest", parsers := ["stringify"], filenames := ["package.json"],
     identifiers := ["json"] },
   { name := "Relaxed", parsers := ["json5", "json"], extensions := [".json5"],
     identifiers := ["json5", "json"] },
   { name := "Json", parsers := ["json"], extensions := [".json"],
     identifiers := ["json", "jsonc"] }]

/-- The guess is from the last of them and the parser from the second. -/
theorem parser_of_guess_shared :
    let path : Path := ⟨"/ws/tsconfig.json"⟩
    languageInTable sharingTable path = some "json" ∧
      (∀ l ∈ sharingTable, l.parsers ≠ []) ∧ "json" ≠ Parser.plainText ∧
      ∃ before l after parser, sharingTable = before ++ l :: after ∧
        (∀ other ∈ before, ¬ Parser.Serves "json" path other) ∧ Parser.Serves "json" path l ∧
        l.parsers.head? = some parser ∧
        Parser.ofTable sharingTable (some path) "json" = some parser ∧ parser = "json5" := by
  intro path
  have hguess : languageInTable sharingTable path = some "json" := by decide +kernel
  have hparsers : ∀ l ∈ sharingTable, l.parsers ≠ [] := by decide
  have hplain : "json" ≠ Parser.plainText := by decide
  have htable : Parser.ofTable sharingTable (some path) "json" = some "json5" := by decide +kernel
  obtain ⟨before, l, after, parser, heq, hbefore, hserves, hfirst, hp, -⟩ :=
    parser_of_guess hparsers hguess hplain
  refine ⟨hguess, hparsers, hplain, before, l, after, parser, heq, hbefore, hserves, hfirst, hp, ?_⟩
  exact Option.some.inj (hp.symm.trans htable)

end Cli.Context
end FormatHost
