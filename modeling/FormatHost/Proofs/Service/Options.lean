/-
FormatHost.Proofs.Service.Options — the options that a formatter is handed.

Every call of a request is handed options that were merged for it, so what
holds of merged options holds of what a formatter sees: which layer wins
for a name, that a forced request requires no pragma, and that an editor's
default does not reach a project with options of its own.
-/
import FormatHost.Proofs.Config.Precedence
import FormatHost.Proofs.Service.Gates

namespace FormatHost.Service

open Config Json

/-- The options merged for a request under a formatter and a parser. -/
def mergedFor (m : Machine) (s : Service) (r : FormatRequest) (h : Handle) (parser : String) :
    MergedOptions :=
  let c := situationWith m s r h
  merge c.project s.settings.editorDefaults (c.requestOptions parser) r.overrides

/-- A call is handed the options that were merged for it. -/
theorem handed_options (m : Machine) (s : Service) (r : FormatRequest) :
    ∀ call ∈ formattings (format m r s).events, ∃ h parser, handleFor m s r = some h ∧
      call.options = (mergedFor m s r h parser).options := by
  intro call hm
  obtain ⟨h, parser, hh, -, rfl⟩ := exists_of_mem_formattings hm
  exact ⟨h, parser, hh, rfl⟩

/-- **Which layer an option comes from.** For every name, the merged options
have the value of the strongest layer that has one, with a required pragma
waived by force, and remember that layer; options and layers have the same
names, each once. A forced request requires no pragma, no editor's default
stands beside a project's options, and a request hands its formatter the
options merged for it. -/
theorem merge_precedence (project : Option Options) (editorDefaults overrides : Options)
    (request : RequestOptions) (hp : ∀ p ∈ project, p.keys.Nodup)
    (hd : editorDefaults.keys.Nodup) (ho : overrides.keys.Nodup) :
    let merged := merge project editorDefaults request overrides
    let supply := supplied project editorDefaults request overrides
    (∀ key, merged.options.find? key =
      (supply key).map fun s => waived request.force key s.1) ∧
    (∀ key, merged.provenance.find? key = (supply key).map (·.2)) ∧
    (merged.options.keys = merged.provenance.keys ∧ merged.options.Ordered) ∧
    (request.force → merged.options.find? requirePragma ≠ some (.bool true)) ∧
    (project.isSome → ∀ key, merged.provenance.find? key ≠ some .editorDefault) ∧
    ∀ m s r, ∀ call ∈ formattings (format m r s).events,
      (∃ h parser, handleFor m s r = some h ∧
        call.options = (mergedFor m s r h parser).options) ∧
      (r.force → call.options.find? requirePragma ≠ some (.bool true)) := by
  intro merged supply
  have hprov : ∀ key, merged.provenance.find? key = (supply key).map (·.2) := by
    intro key
    rw [(answers_merge hp hd ho request key).2, Option.map_map]
    rfl
  have hstep : merged.InStep := inStep_merge project editorDefaults request overrides
  refine ⟨?_, hprov, ⟨hstep.names, hstep.ordered⟩, ?_, ?_, ?_⟩
  · intro key
    rw [(answers_merge hp hd ho request key).1, Option.map_map]
    rfl
  · intro hf
    exact requirePragma_ne_of_force hf project editorDefaults overrides
  · intro hs key
    rw [hprov]
    exact supplied_ne_editorDefault hs editorDefaults request overrides key
  · intro m s r call hm
    obtain ⟨h, parser, hh, he⟩ := handed_options m s r call hm
    refine ⟨⟨h, parser, hh, he⟩, ?_⟩
    intro hf
    rw [he]
    exact requirePragma_ne_of_force hf _ _ _

/-- A forced request in a project that requires a pragma, with an option
that the caller overrides and one that only the editor sets. -/
theorem merge_precedence_forced :
    let project : Options := [("requirePragma", .bool true), ("tabWidth", .ofNat 4)]
    let editorDefaults : Options := [("semi", .bool false)]
    let overrides : Options := [("tabWidth", .ofNat 8)]
    let request : RequestOptions := ⟨"babel", some ⟨"/p/a.js"⟩, some (1, 5), true⟩
    let merged := merge (some project) editorDefaults request overrides
    (project.keys.Nodup ∧ editorDefaults.keys.Nodup ∧ overrides.keys.Nodup) ∧
    merged.options.find? "tabWidth" = some (.ofNat 8) ∧
    merged.options.find? "requirePragma" = some (.bool false) ∧
    merged.provenance.find? "requirePragma" = some .projectFile ∧
    merged.options.find? "rangeEnd" = some (.ofNat 5) ∧
    merged.options.find? "semi" = none := by
  intro project editorDefaults overrides request merged
  have hp : project.keys.Nodup := by decide
  have hd : editorDefaults.keys.Nodup := by decide
  have ho : overrides.keys.Nodup := by decide
  obtain ⟨hv, hprov, -⟩ := merge_precedence (some project) editorDefaults overrides request
    (fun p h => by cases h; exact hp) hd ho
  exact ⟨⟨hp, hd, ho⟩, (hv _).trans rfl, (hv _).trans rfl, (hprov _).trans rfl, (hv _).trans rfl,
    (hv _).trans rfl⟩

end FormatHost.Service
