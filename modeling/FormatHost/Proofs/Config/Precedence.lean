/-
FormatHost.Proofs.Config.Precedence — which layer an option comes from.

`merge` writes layer over layer into two tables, one of options and one of
the layers they are from. `supplied` says the same from the reader's side:
it asks the layers for one name, the strongest first, and takes the first
answer. What a forced request changes in the end is one value in one of the
tables, so that the two stay in step is an invariant of the writers.

* §1 single layers, asked for a name;
* §2 `supplied` and `waived`;
* §3 what one writer does to the answer for a name;
* §4 `answers_merge`: the merged options answer as the layers do;
* §5 `inStep_merge`: options and layers have the same names, in order.
-/
import FormatHost.Config.Merge
import FormatHost.Proofs.Json.Fields

namespace FormatHost.Config

open Json

/-! ## §1 Layers -/

namespace RequestOptions

/-- The bound of the range that a name stands for. -/
def bound? (r : RequestOptions) (key : String) : Option Nat :=
  r.range.bind fun (start, stop) =>
    if key = "rangeStart" then some start else if key = "rangeEnd" then some stop else none

/-- What the request itself says: its parser, and its file if it has one. -/
def own? (r : RequestOptions) (key : String) : Option Value :=
  if key = "parser" then some (.str r.parser)
  else if key = "filepath" then r.filepath.map (.str ·.text)
  else none

theorem nodup_rangeOptions (r : RequestOptions) : r.rangeOptions.keys.Nodup := by
  cases h : r.range <;> simp [rangeOptions, h, Fields.keys]

theorem find?_rangeOptions (r : RequestOptions) (key : String) :
    r.rangeOptions.find? key = (r.bound? key).map .ofNat := by
  unfold rangeOptions bound?
  cases r.range with
  | none => rfl
  | some bounds =>
    by_cases hs : key = "rangeStart"
    · subst hs
      rfl
    · by_cases he : key = "rangeEnd"
      · subst he
        rfl
      · simp [Fields.find?, hs, he, Ne.symm hs, Ne.symm he]

theorem nodup_ownOptions (r : RequestOptions) : r.ownOptions.keys.Nodup := by
  cases h : r.filepath <;> simp [ownOptions, h, Fields.keys]

theorem find?_ownOptions (r : RequestOptions) (key : String) :
    r.ownOptions.find? key = r.own? key := by
  unfold ownOptions own?
  by_cases hp : key = "parser"
  · subst hp
    cases r.filepath <;> rfl
  · by_cases hf : key = "filepath"
    · subst hf
      cases r.filepath <;> rfl
    · cases r.filepath <;> simp [Fields.find?, hp, hf, Ne.symm hp, Ne.symm hf]

end RequestOptions

/-! ## §2 Precedence -/

/-- The value that the layers supply for a name, and the layer it is from:
the caller's options, the request's own, the project's, the request's range
and, where no project counts, the editor's defaults. -/
def supplied (project : Option Options) (editorDefaults : Options) (request : RequestOptions)
    (overrides : Options) (key : String) : Option (Value × Provenance) :=
  ((overrides.find? key).map (·, .callerOverride)).or <|
  ((request.own? key).map (·, .callerOverride)).or <|
  ((project.bind (·.find? key)).map (·, .projectFile)).or <|
  ((request.bound? key).map fun n => (.ofNat n, .callerOverride)).or <|
  if project.isNone then (editorDefaults.find? key).map (·, .editorDefault) else none

/-- The value that is handed on: a forced request requires no pragma. -/
def waived (force : Bool) (key : String) : Value → Value
  | .bool true => .bool !(force && key == requirePragma)
  | v => v

theorem waived_false (key : String) (v : Value) : waived false key v = v := by
  unfold waived
  split <;> simp

theorem waived_of_ne {key : String} (h : key ≠ requirePragma) (force : Bool) (v : Value) :
    waived force key v = v := by
  unfold waived
  split <;> simp [h]

/-! ## §3 Writers -/

namespace MergedOptions

/-- Asked for `key`, the two tables answer with a value and its layer. -/
def Answers (r : MergedOptions) (key : String) (answer : Option (Value × Provenance)) : Prop :=
  r.options.find? key = answer.map (·.1) ∧ r.provenance.find? key = answer.map (·.2)

/-- A layer is put over the options as it is, and over their layers as a
table that says `p` for each of its names. -/
theorem layer_eq (r : MergedOptions) (top : Options) (p : Provenance) :
    r.layer top p = { r with
      options := r.options.overlay top
      provenance := r.provenance.overlay (top.mapValues fun _ => p) } := by
  unfold layer Fields.overlay Fields.mapValues
  induction top generalizing r with
  | nil => rfl
  | cons e rest ih => exact ih (r.set e.1 e.2 p)

/-- A layer is asked before what it is put over. -/
theorem Answers.layer {r : MergedOptions} {key : String} {answer : Option (Value × Provenance)}
    (h : r.Answers key answer) {top : Options} (ht : top.keys.Nodup) (p : Provenance) :
    (r.layer top p).Answers key (((top.find? key).map (·, p)).or answer) := by
  have hk : (top.mapValues fun _ => p).keys.Nodup := by rwa [Fields.keys_mapValues]
  rw [layer_eq]
  constructor
  · have hid : (fun s : Value × Provenance => s.1) ∘ (·, p) = id := rfl
    rw [Fields.find?_overlay _ ht, h.1, Option.map_or, Option.map_map, hid, Option.map_id, id]
  · rw [Fields.find?_overlay _ hk, Fields.find?_mapValues, h.2, Option.map_or, Option.map_map]
    rfl

/-- Of several layers, the last is asked first. -/
theorem Answers.layerAll {r : MergedOptions} {key : String}
    {answer : Option (Value × Provenance)} (h : r.Answers key answer)
    {layers : List (Options × Provenance)} (hl : ∀ l ∈ layers, l.1.keys.Nodup) :
    (r.layerAll layers).Answers key
      (layers.foldl (fun below l => ((l.1.find? key).map (·, l.2)).or below) answer) := by
  unfold MergedOptions.layerAll
  induction layers generalizing r answer with
  | nil => exact h
  | cons l rest ih =>
    obtain ⟨hhead, hrest⟩ := List.forall_mem_cons.mp hl
    exact ih (h.layer hhead l.2) hrest

theorem find?_options_waivePragma (r : MergedOptions) (key : String) :
    r.waivePragma.options.find? key = (r.options.find? key).map (waived true key) := by
  by_cases hk : key = requirePragma
  · subst hk
    unfold waivePragma
    split
    · rename_i hf
      rw [Fields.find?_insert, if_pos rfl, hf]
      rfl
    · rename_i hne
      cases hf : r.options.find? requirePragma with
      | none => rfl
      | some v =>
        have hv : waived true requirePragma v = v := by
          unfold waived
          split
          · exact absurd hf hne
          · rfl
        rw [Option.map_some, hv]
  · have hw : waived true key = id := funext fun v => waived_of_ne hk true v
    rw [hw, Option.map_id, id]
    unfold waivePragma
    split
    · rw [Fields.find?_insert, if_neg (Ne.symm hk)]
    · rfl

theorem provenance_waivePragma (r : MergedOptions) :
    r.waivePragma.provenance = r.provenance := by
  unfold waivePragma
  split <;> rfl

/-- Waiving a pragma changes one value, and no layer. -/
theorem Answers.waivePragma {r : MergedOptions} {key : String}
    {answer : Option (Value × Provenance)} (h : r.Answers key answer) :
    r.waivePragma.Answers key (answer.map fun s => (waived true key s.1, s.2)) := by
  constructor
  · rw [find?_options_waivePragma, h.1, Option.map_map, Option.map_map]
    rfl
  · rw [provenance_waivePragma, h.2, Option.map_map]
    rfl

theorem requirePragma_ne_waivePragma (r : MergedOptions) :
    r.waivePragma.options.find? requirePragma ≠ some (.bool true) := by
  unfold waivePragma
  split
  · rw [Fields.find?_insert, if_pos rfl]
    simp
  · rename_i hne
    exact hne

end MergedOptions

/-! ## §4 What merging supplies -/

theorem nodup_layers {project : Option Options} {editorDefaults overrides : Options}
    (hp : ∀ p ∈ project, p.keys.Nodup) (hd : editorDefaults.keys.Nodup)
    (ho : overrides.keys.Nodup) (request : RequestOptions) :
    ∀ l ∈ layers project editorDefaults request overrides, l.1.keys.Nodup := by
  have hp' : (project.getD []).keys.Nodup := by
    cases project with
    | none => exact List.nodup_nil
    | some p => exact hp p rfl
  have hd' : (if project.isNone then editorDefaults else []).keys.Nodup := by
    split
    · exact hd
    · exact List.nodup_nil
  simp only [layers, List.forall_mem_cons, List.not_mem_nil, false_implies, implies_true, and_true]
  exact ⟨hd', request.nodup_rangeOptions, hp', request.nodup_ownOptions, ho⟩

/-- The layers supply what their tables have, the last asked first. -/
theorem foldl_layers (project : Option Options) (editorDefaults : Options)
    (request : RequestOptions) (overrides : Options) (key : String) :
    (layers project editorDefaults request overrides).foldl
        (fun below l => ((l.1.find? key).map (·, l.2)).or below) none =
      supplied project editorDefaults request overrides key := by
  have hf : (project.getD []).find? key = project.bind (·.find? key) := by
    cases project <;> rfl
  have he : (((if project.isNone then editorDefaults else []).find? key).map
        (·, Provenance.editorDefault)).or none =
      if project.isNone then (editorDefaults.find? key).map (·, .editorDefault) else none := by
    split <;> simp [Fields.find?]
  simp only [layers, List.foldl_cons, List.foldl_nil]
  rw [request.find?_ownOptions, request.find?_rangeOptions, hf, he, Option.map_map]
  rfl

/-- **A merged option is what the layers supply for its name**, and its
layer is theirs. -/
theorem answers_merge {project : Option Options} {editorDefaults overrides : Options}
    (hp : ∀ p ∈ project, p.keys.Nodup) (hd : editorDefaults.keys.Nodup)
    (ho : overrides.keys.Nodup) (request : RequestOptions) (key : String) :
    (merge project editorDefaults request overrides).Answers key
      ((supplied project editorDefaults request overrides key).map fun s =>
        (waived request.force key s.1, s.2)) := by
  have hstart : ({ hasProjectConfig := project.isSome } : MergedOptions).Answers key none :=
    ⟨rfl, rfl⟩
  have hall := hstart.layerAll (nodup_layers hp hd ho request)
  rw [foldl_layers] at hall
  unfold merge
  cases request.force with
  | true => exact hall.waivePragma
  | false => simpa [waived_false] using hall

/-- The parser that is handed on is the request's, whatever the project and
the editor say. -/
theorem find?_parser_merge (project : Option Options) (editorDefaults : Options)
    (request : RequestOptions) :
    (merge project editorDefaults request []).options.find? "parser" =
      some (.str request.parser) := by
  have hl : ∀ start : MergedOptions,
      (start.layerAll (layers project editorDefaults request [])).options.find? "parser" =
        some (.str request.parser) := by
    intro start
    simp only [MergedOptions.layerAll, layers, List.foldl_cons, List.foldl_nil]
    rw [MergedOptions.layer_eq _ [], MergedOptions.layer_eq _ request.ownOptions]
    exact (Fields.find?_overlay _ request.nodup_ownOptions "parser").trans
      (by rw [request.find?_ownOptions]; rfl)
  unfold merge
  split
  · rw [MergedOptions.find?_options_waivePragma, hl]
    rfl
  · exact hl _

/-- Beside a project's options, no layer supplies an editor's default. -/
theorem supplied_ne_editorDefault {project : Option Options} (hp : project.isSome)
    (editorDefaults : Options) (request : RequestOptions) (overrides : Options) (key : String) :
    (supplied project editorDefaults request overrides key).map (·.2) ≠ some .editorDefault := by
  obtain ⟨p, rfl⟩ := Option.isSome_iff_exists.mp hp
  unfold supplied
  cases overrides.find? key with
  | some v => simp
  | none =>
    cases request.own? key with
    | some v => simp
    | none =>
      cases hf : (some p).bind (·.find? key) with
      | some v => simp
      | none => cases request.bound? key <;> simp

/-- A forced request is merged without a required pragma, whatever its
layers say. -/
theorem requirePragma_ne_of_force {request : RequestOptions} (hf : request.force = true)
    (project : Option Options) (editorDefaults overrides : Options) :
    (merge project editorDefaults request overrides).options.find? requirePragma ≠
      some (.bool true) := by
  rw [merge, if_pos hf]
  exact MergedOptions.requirePragma_ne_waivePragma _

/-! ## §5 Two tables in step -/

namespace MergedOptions

/-- Options and layers have the same names, in order. -/
structure InStep (r : MergedOptions) : Prop where
  names : r.options.keys = r.provenance.keys
  ordered : r.options.Ordered

theorem InStep.ordered_provenance {r : MergedOptions} (h : r.InStep) : r.provenance.Ordered := by
  have ho := h.ordered
  rwa [Fields.Ordered, h.names] at ho

theorem InStep.set {r : MergedOptions} (h : r.InStep) (key : String) (v : Value)
    (p : Provenance) : (r.set key v p).InStep := by
  have ho := Fields.ordered_insert h.ordered key v
  have hp := Fields.ordered_insert h.ordered_provenance key p
  refine ⟨ho.keys_ext hp fun k => ?_, ho⟩
  exact (Fields.mem_keys_insert ..).trans (h.names ▸ (Fields.mem_keys_insert ..).symm)

theorem InStep.layer {r : MergedOptions} (h : r.InStep) (top : Options) (p : Provenance) :
    (r.layer top p).InStep := by
  unfold MergedOptions.layer
  induction top generalizing r with
  | nil => exact h
  | cons e rest ih => exact ih (h.set e.1 e.2 p)

theorem InStep.layerAll {r : MergedOptions} (h : r.InStep)
    (layers : List (Options × Provenance)) : (r.layerAll layers).InStep := by
  unfold MergedOptions.layerAll
  induction layers generalizing r with
  | nil => exact h
  | cons l rest ih => exact ih (h.layer l.1 l.2)

/-- The one writer of a single table writes to a name that both have. -/
theorem InStep.waivePragma {r : MergedOptions} (h : r.InStep) : r.waivePragma.InStep := by
  unfold MergedOptions.waivePragma
  split
  · rename_i hf
    have hmem : requirePragma ∈ r.options.keys := by
      rw [Fields.mem_keys_iff, hf]
      rfl
    have ho := Fields.ordered_insert h.ordered requirePragma (.bool false)
    refine ⟨(ho.keys_ext h.ordered fun k => ?_).trans h.names, ho⟩
    rw [Fields.mem_keys_insert]
    constructor
    · rintro (rfl | hk)
      · exact hmem
      · exact hk
    · exact .inr
  · exact h

end MergedOptions

/-- **Every option has a layer, and every layer an option.** -/
theorem inStep_merge (project : Option Options) (editorDefaults : Options)
    (request : RequestOptions) (overrides : Options) :
    (merge project editorDefaults request overrides).InStep := by
  have hstart : ({ hasProjectConfig := project.isSome } : MergedOptions).InStep :=
    ⟨rfl, Fields.ordered_nil⟩
  have hall := hstart.layerAll (layers project editorDefaults request overrides)
  unfold merge
  split
  · exact hall.waivePragma
  · exact hall

end FormatHost.Config
