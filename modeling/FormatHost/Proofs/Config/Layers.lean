/-
FormatHost.Proofs.Config.Layers — where a project's option comes from.

`resolve` puts table over table: the overrides that apply over the file's
own options, one after the other, and all of them over the options from
`.editorconfig`. For a single option this means to ask the other way
round: the last override that applies and names it, then the file, then
`.editorconfig`. An override that does not apply is never asked.

* §1 overrides: which apply, and what they say together;
* §2 the options of a file;
* §3 `resolve_layers`.
-/
import FormatHost.Config.Discovery
import FormatHost.Proofs.Config.Reading

namespace FormatHost

open Json

namespace ConfigFile

/-! ## §1 Overrides -/

/-- Whether a pattern matches. One that cannot be read matches nothing. -/
def covers (t : Target) (pattern : String) : Bool := (patternMatches t pattern).toOption.getD false

/-- Whether one of an override's patterns matches and none of those that
exclude. -/
def appliesTo (t : Target) (o : Override) : Bool :=
  o.files.any (covers t) && !o.excludeFiles.any (covers t)

theorem anyMatches_ok {t : Target} {patterns : List String} {b : Bool}
    (h : anyMatches t patterns = .ok b) : patterns.any (covers t) = b := by
  induction patterns with
  | nil =>
    cases h
    rfl
  | cons p ps ih =>
    obtain ⟨matched, hp, h⟩ := exists_of_bind_eq_ok h
    rw [List.any_cons, covers, hp]
    cases matched with
    | true =>
      cases h
      rfl
    | false => exact ih h

theorem applies_ok {t : Target} {o : Override} {b : Bool} (h : applies t o = .ok b) :
    appliesTo t o = b := by
  obtain ⟨included, hi, h⟩ := exists_of_bind_eq_ok h
  obtain ⟨excluded, hx, h⟩ := exists_of_bind_eq_ok h
  cases h
  rw [appliesTo, anyMatches_ok hi, anyMatches_ok hx]

/-- What overrides say about an option: the last value that one which
applies has for it. -/
def overriding? (t : Target) (overrides : List Override) (key : String) : Option Value :=
  ((overrides.filter (appliesTo t)).filterMap (·.options.find? key)).getLast?

theorem overriding?_cons (t : Target) (o : Override) (os : List Override) (key : String) :
    overriding? t (o :: os) key =
      (overriding? t os key).or (if appliesTo t o then o.options.find? key else none) := by
  unfold overriding?
  by_cases ha : appliesTo t o = true
  · rw [List.filter_cons_of_pos ha, if_pos ha]
    cases hk : Fields.find? o.options key with
    | none => rw [List.filterMap_cons_none (by exact hk), Option.or_none]
    | some v =>
      rw [List.filterMap_cons_some (by exact hk), List.getLast?_cons]
      cases List.getLast? _ <;> rfl
  · rw [List.filter_cons_of_neg ha, if_neg ha, Option.or_none]

/-- **Overrides win over what they are put over, the last one first.** -/
theorem find?_applyOverrides {t : Target} {os : List Override}
    (hos : ∀ o ∈ os, o.options.Ordered) {options result : Options}
    (h : applyOverrides t options os = .ok result) (key : String) :
    result.find? key = (overriding? t os key).or (options.find? key) := by
  induction os generalizing options with
  | nil =>
    cases h
    rfl
  | cons o os ih =>
    obtain ⟨ho, hos⟩ := List.forall_mem_cons.mp hos
    obtain ⟨applied, ha, h⟩ := exists_of_bind_eq_ok h
    rw [ih hos h, overriding?_cons, applies_ok ha, Option.or_assoc]
    cases applied with
    | true => rw [if_pos rfl, if_pos rfl, Fields.find?_overlay _ ho.nodup]
    | false => rfl

theorem ordered_applyOverrides {t : Target} {os : List Override} {options result : Options}
    (ho : options.Ordered) (h : applyOverrides t options os = .ok result) : result.Ordered := by
  induction os generalizing options with
  | nil =>
    cases h
    exact ho
  | cons o os ih =>
    obtain ⟨applied, -, h⟩ := exists_of_bind_eq_ok h
    refine ih ?_ h
    split
    · exact Fields.ordered_overlay ho o.options
    · exact ho

/-! ## §2 The options of a file -/

/-- What a file says about an option for a document: its overrides first,
then its own options. -/
def option? (c : ConfigFile) (document : Path) (key : String) : Option Value :=
  (overriding? (target c.path document) c.overrides key).or (c.options.find? key)

theorem find?_optionsFor {c : ConfigFile} (hc : c.InOrder) {document : Path} {options : Options}
    (h : c.optionsFor document = .ok options) :
    options.Ordered ∧ ∀ key, options.find? key = c.option? document key :=
  ⟨ordered_applyOverrides hc.options h, find?_applyOverrides hc.overrides h⟩

end ConfigFile

/-! ## §3 The project's options -/

namespace Config

/-- The layer of `.editorconfig`: the options that its properties stand for.
It is empty when it is turned off. -/
def editorLayer (m : Machine) (document : Path) (o : ConfigOptions) : Except Failure Options :=
  if o.editorConfig then (EditorConfig.properties m document).map EditorConfig.toOptions
  else .ok []

/-- An empty layer counts as none. -/
theorem editorLayer_of_ok {m : Machine} {document : Path} {o : ConfigOptions}
    {base? : Option Options}
    (h : (if o.editorConfig then EditorConfig.resolve m document else .ok none) = .ok base?) :
    ∃ base, editorLayer m document o = .ok base ∧
      (base? = none ∧ base = [] ∨ base? = some base ∧ base ≠ []) := by
  unfold editorLayer
  cases ho : o.editorConfig with
  | false =>
    rw [ho] at h
    cases h
    exact ⟨[], rfl, .inl ⟨rfl, rfl⟩⟩
  | true =>
    rw [ho, if_pos rfl] at h
    obtain ⟨properties, hp, h⟩ := exists_of_bind_eq_ok h
    refine ⟨EditorConfig.toOptions properties, by rw [hp]; rfl, ?_⟩
    split at h
    · rename_i he
      cases h
      exact .inl ⟨rfl, he⟩
    · rename_i he
      cases h
      exact .inr ⟨rfl, he⟩

/-- The options of the file that applies, if one does. -/
theorem fileOptions_ok {m : Machine} {document : Path} {o : ConfigOptions}
    {file? : Option Options} (h : fileOptions m document o = .ok file?) :
    file? = none ∧ fileFor m document o = .ok none ∨
      ∃ file options, file? = some options ∧ fileFor m document o = .ok (some file.path) ∧
        ConfigFile.load m file.path = .ok file ∧ file.optionsFor document = .ok options := by
  obtain ⟨path?, hf, h⟩ := exists_of_bind_eq_ok h
  cases path? with
  | none =>
    cases h
    exact .inl ⟨rfl, hf⟩
  | some path =>
    obtain ⟨file, hl, h⟩ := exists_of_bind_eq_ok h
    cases ho : file.optionsFor document with
    | error e =>
      rw [ho] at h
      cases h
    | ok options =>
      rw [ho] at h
      cases h
      obtain ⟨hpath, -⟩ := ConfigFile.load_says hl
      exact .inr ⟨file, options, rfl, by rw [hpath, hf], by rw [hpath, hl], ho⟩

/-- What `resolve` puts together: the options of the file over those of
`.editorconfig`. -/
theorem resolve_ok {m : Machine} {document : Path} {o : ConfigOptions}
    {result : Option Options} (h : resolve m document o = .ok result) :
    ∃ options? base?, fileOptions m document o = .ok options? ∧
      (if o.editorConfig then EditorConfig.resolve m document else .ok none) = .ok base? ∧
      result = match base?, options? with
        | none, options? => options?
        | some base, none => some base
        | some base, some options => some (base.overlay options) := by
  obtain ⟨options?, hf, h⟩ := exists_of_bind_eq_ok h
  dsimp only at h
  split at h
  · rename_i ho
    obtain ⟨base?, hb, h⟩ := exists_of_bind_eq_ok h
    cases h
    exact ⟨options?, base?, hf, by rw [if_pos ho, hb], rfl⟩
  · rename_i ho
    cases h
    exact ⟨options?, none, hf, if_neg ho, rfl⟩

/-- **Where a project's options come from.** When looking for them succeeds,
the file that applies was read as it says (the one that is asked for, or the
nearest), and an option is what the file says about it for the document, or
else what the `.editorconfig` layer has. There are no options at all exactly
when no file applies and the layer is empty. -/
theorem resolve_layers {m : Machine} {document : Path} {o : ConfigOptions}
    {result : Option Options} (h : resolve m document o = .ok result) :
    ∃ (file? : Option ConfigFile) (base : Options),
      fileFor m document o = .ok (file?.map (·.path)) ∧
      (∀ file ∈ file?, ConfigFile.load m file.path = .ok file ∧
        ∃ v, ConfigFile.written m file.path = .ok v ∧ ConfigFile.Says v file) ∧
      editorLayer m document o = .ok base ∧
      (result = none ↔ file? = none ∧ base = []) ∧
      ∀ key, result.bind (Fields.find? · key) =
        (file?.bind (·.option? document key)).or (base.find? key) := by
  obtain ⟨options?, base?, hf, hb, rfl⟩ := resolve_ok h
  obtain ⟨base, hlayer, hbase⟩ := editorLayer_of_ok hb
  rcases fileOptions_ok hf with ⟨rfl, hfor⟩ | ⟨file, options, rfl, hfor, hload, hoptions⟩
  · refine ⟨none, base, hfor, nofun, hlayer, ?_⟩
    rcases hbase with ⟨rfl, rfl⟩ | ⟨rfl, hne⟩
    · exact ⟨by simp, fun key => rfl⟩
    · exact ⟨by simp [hne], fun key => rfl⟩
  · obtain ⟨-, horder, hsays⟩ := ConfigFile.load_says hload
    obtain ⟨hordered, hkeys⟩ := ConfigFile.find?_optionsFor horder hoptions
    refine ⟨some file, base, hfor, ?_, hlayer, ?_⟩
    · intro loaded hm
      cases hm
      exact ⟨hload, hsays⟩
    · rcases hbase with ⟨rfl, rfl⟩ | ⟨rfl, hne⟩
      · refine ⟨by simp, fun key => ?_⟩
        rw [Option.bind_some, Option.bind_some, hkeys]
        exact (Option.or_none).symm
      · refine ⟨by simp, fun key => ?_⟩
        rw [Option.bind_some, Option.bind_some, Fields.find?_overlay _ hordered.nodup, hkeys]

/-- A project with both kinds of configuration. -/
def layeredProject : Machine where
  disk := ⟨fun
    | ["p"] => some .directory
    | ["p", ".prettierrc.toml"] => some (.file (Text.Utf8.encode
        ("proseWrap = 'never'\n[[overrides]]\nfiles = '*.md'\n".toList ++
          "[overrides.options]\nproseWrap = 'always'\n".toList)) false)
    | ["p", ".editorconfig"] => some (.file (Text.Utf8.encode
        "root = true\n[*]\nend_of_line = crlf\n".toList) false)
    | _ => none⟩
  cwd := ⟨"/p"⟩
  home := ⟨"/home"⟩
  searchPath := []

/-- The text of an option. -/
def textOf? (result : Option Options) (key : String) : Option String :=
  (result.bind (Fields.find? · key)).bind Value.str?

/-- There, a document gets one option from an override and one from
`.editorconfig`. -/
theorem resolve_layers_readme :
    let document : Path := ⟨"/p/readme.md"⟩
    let o : ConfigOptions := { editorConfig := true }
    ∃ result, resolve layeredProject document o = .ok result ∧
      textOf? result "proseWrap" = some "always" ∧ textOf? result "endOfLine" = some "crlf" ∧
      ∃ (file? : Option ConfigFile) (base : Options),
        fileFor layeredProject document o = .ok (file?.map (·.path)) ∧
        editorLayer layeredProject document o = .ok base ∧
        ∀ key, result.bind (Fields.find? · key) =
          (file?.bind (·.option? document key)).or (base.find? key) := by
  intro document o
  have htexts : (resolve layeredProject document o).toOption.map
      (fun result => (textOf? result "proseWrap", textOf? result "endOfLine")) =
        some (some "always", some "crlf") := by
    decide +kernel
  cases hr : resolve layeredProject document o with
  | error e =>
    rw [hr] at htexts
    cases htexts
  | ok result =>
    rw [hr] at htexts
    obtain ⟨file?, base, hfile, -, hbase, -, hkeys⟩ := resolve_layers hr
    obtain ⟨hwrap, hend⟩ := Prod.mk.inj (Option.some.inj htexts)
    exact ⟨result, rfl, hwrap, hend, file?, base, hfile, hbase, hkeys⟩

end Config
end FormatHost
