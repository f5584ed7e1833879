/-
FormatHost.Proofs.Resolver.Finding — what finding a formatter answers,
what it leaves behind and what it emits.

Finding is stated as plain functions of the resolver's unchanging parts
(its package, its loader, the bundled package), so that what later modules
say about runs never opens a run:

* §1 the plain functions: `localHandle?`, `bundledHandle?` and `found`;
* §2 events: finding only loads packages and writes log lines;
* §3 answers and states of `loadBundled`, `locate` and `resolve`;
* §4 what finding outside any workspace leaves alone;
* §5 asking again gives the answer that was given;
* §6 where the formatters that are found come from.
-/
import FormatHost.Proofs.Run
import FormatHost.Proofs.Table
import FormatHost.Resolver

namespace FormatHost

/-- An event of finding formatters: a log line, or a package loaded. -/
def Event.isLookup : Event → Bool
  | .log .. => true
  | .load _ => true
  | _ => false

namespace Resolver

open Run

/-! ## §1 Finding, as a function -/

/-- What loading a package comes to. -/
def loaded (r : Resolver) (m : Machine) (i : Install) : Except Failure Handle :=
  (r.loader.load m i).map (Handle.ofInstall i)

/-- The formatter of a document's project, when there is one that loads. -/
def localHandle? (r : Resolver) (m : Machine) (path : Path) (s : ResolverSettings) :
    Option Handle :=
  match findLocal r.package m path s with
  | .ok (some i) => (r.loaded m i).toOption
  | _ => none

/-- The bundled formatter, when there is one that loads. -/
def bundledHandle? (r : Resolver) (m : Machine) : Option Handle :=
  r.bundled.bind fun i => (r.loaded m i).toOption

/-- What a resolver that remembers nothing finds for a document. -/
def found (r : Resolver) (m : Machine) (path : Path) (s : ResolverSettings) : Option Handle :=
  (r.localHandle? m path s).or (if s.onlyUseLocalVersion then none else r.bundledHandle? m)

/-- What finding reads of a resolver and never changes: the package's
name, the loader and the bundled package. -/
def sources (r : Resolver) : String × Loader × Option Install := (r.package, r.loader, r.bundled)

/-- The bundled formatter that is remembered is the one that would be
loaded now. -/
def BundledFresh (r : Resolver) (m : Machine) : Prop :=
  ∀ h, r.bundledHandle = some h → r.bundledHandle? m = some h

/-! ## §2 Events -/

section Events

variable (m : Machine)

theorem emits_load (i : Install) : Emits (·.isLookup) (load m i) := by
  unfold load
  exact Emits.bind (emits_emit (by rfl)) fun _ => emits_get.bind fun _ => emits_pure _

theorem emits_loadBundled : Emits (·.isLookup) (loadBundled m) := by
  unfold loadBundled
  refine emits_get.bind fun r => ?_
  split
  · exact emits_pure _
  · exact emits_pure _
  · refine (emits_load m _).bind fun a => ?_
    cases a with
    | ok h => exact (emits_modify _).bind fun _ => emits_pure _
    | error e => exact Emits.bind (emits_error (by rfl)) fun _ => emits_pure _

theorem emits_locateLocal (path : Path) (s : ResolverSettings) :
    Emits (·.isLookup) (locateLocal m path s) := by
  unfold locateLocal
  refine emits_get.bind fun r => ?_
  dsimp only
  split
  · exact emits_pure _
  · exact Emits.bind (emits_error (by rfl)) fun _ => emits_pure _
  · refine (emits_load m _).bind fun a => ?_
    cases a with
    | ok h => exact emits_pure _
    | error e => exact Emits.bind (emits_error (by rfl)) fun _ => emits_pure _

theorem emits_locate (path : Path) (s : ResolverSettings) :
    Emits (·.isLookup) (locate m path s) := by
  unfold locate
  refine (emits_locateLocal m path s).bind fun a => ?_
  cases a with
  | some h => exact emits_pure _
  | none =>
    dsimp only
    split
    · exact emits_get.bind fun _ => Emits.bind (emits_warn (by rfl)) fun _ => emits_pure _
    · exact emits_loadBundled m

theorem emits_resolve (path : Path) (s : ResolverSettings) :
    Emits (·.isLookup) (resolve m path s) := by
  unfold resolve
  refine emits_get.bind fun r => ?_
  dsimp only
  split
  · exact emits_pure _
  · refine (emits_locate m path s).bind fun h => ?_
    split
    · exact Emits.bind (emits_error (by rfl)) fun _ => (emits_modify _).bind fun _ => emits_pure _
    · exact (emits_modify _).bind fun _ => emits_pure _

/-- Asking a package manager only writes log lines. -/
theorem emits_findGlobal {σ : Type} {p : Event → Prop} (hp : ∀ text, p (.log .warn text))
    (manager : PackageManager) (package : String) :
    Emits p (GlobalInstall.find (σ := σ) m manager package) := by
  unfold GlobalInstall.find
  refine Emits.bind ?_ fun a => by split <;> exact emits_pure _
  unfold GlobalInstall.directory
  split
  · exact emits_pure _
  · split
    · exact emits_pure _
    · unfold GlobalInstall.ofFinished
      split
      · exact Emits.bind (emits_warn (hp _)) fun _ => emits_pure _
      · split <;> exact emits_pure _

theorem emits_locateGlobal (s : ResolverSettings) : Emits (·.isLookup) (locateGlobal m s) := by
  unfold locateGlobal
  refine emits_get.bind fun r => ?_
  refine (emits_findGlobal m (fun _ => rfl) _ _).bind fun a => ?_
  split
  · exact emits_pure _
  · exact Emits.bind (emits_warn (by rfl)) fun _ => emits_pure _
  · refine (emits_load m _).bind fun a => ?_
    cases a with
    | ok h => exact emits_pure _
    | error e => exact Emits.bind (emits_error (by rfl)) fun _ => emits_pure _

theorem emits_resolveGlobal (s : ResolverSettings) : Emits (·.isLookup) (resolveGlobal m s) := by
  unfold resolveGlobal
  refine emits_get.bind fun r => ?_
  split
  · exact emits_pure _
  · dsimp only
    split
    · refine (emits_locateGlobal m s).bind fun found => ?_
      cases found with
      | some h => exact (emits_pure _).bind fun _ => (emits_modify _).bind fun _ => emits_pure _
      | none =>
        exact (emits_loadBundled m).bind fun _ => (emits_modify _).bind fun _ => emits_pure _
    · refine (emits_pure none).bind fun found => ?_
      cases found with
      | some h => exact (emits_pure _).bind fun _ => (emits_modify _).bind fun _ => emits_pure _
      | none =>
        exact (emits_loadBundled m).bind fun _ => (emits_modify _).bind fun _ => emits_pure _

end Events

/-! ## §3 Answers and states -/

section Answers

variable {r : Resolver} {m : Machine}

theorem bundledHandle?_congr {r' : Resolver} (h : r'.sources = r.sources) :
    r'.bundledHandle? m = r.bundledHandle? m := by
  simp only [sources, Prod.mk.injEq] at h
  simp only [bundledHandle?, loaded, h.2.1, h.2.2]

theorem found_congr {r' : Resolver} (h : r'.sources = r.sources) (path : Path)
    (s : ResolverSettings) : r'.found m path s = r.found m path s := by
  have hb := bundledHandle?_congr (m := m) h
  simp only [sources, Prod.mk.injEq] at h
  simp only [found, localHandle?, loaded, hb, h.1, h.2.1]

theorem load_value (i : Install) : (load m i r).value = r.loaded m i := rfl

theorem loadBundled_value (h : r.BundledFresh m) :
    (loadBundled m r).value = r.bundledHandle? m := by
  unfold loadBundled
  cases hb : r.bundledHandle with
  | some b => simp [hb, h b hb]
  | none =>
    cases hi : r.bundled with
    | none => simp [hb, hi, bundledHandle?]
    | some i =>
      simp [hb, hi, bundledHandle?, load, loaded]
      cases hl : r.loader.load m i <;> simp [Except.map, Except.toOption, Run.error]

/-- Loading the bundled formatter remembers what it answers. -/
theorem loadBundled_state :
    (loadBundled m r).state = { r with bundledHandle := (loadBundled m r).value } := by
  obtain ⟨package, loader, bundled, cache, handle, global⟩ := r
  unfold loadBundled
  cases handle with
  | some b => rfl
  | none =>
    cases bundled with
    | none => rfl
    | some i =>
      simp only [bind_apply, get_apply, load, emit_apply, pure_apply]
      cases loader.load m i <;> rfl

theorem locateLocal_value (path : Path) (s : ResolverSettings) :
    (locateLocal m path s r).value = r.localHandle? m path s := by
  simp only [locateLocal, localHandle?, bind_apply, get_apply]
  rcases findLocal r.package m path s with e | _ | i
  · rfl
  · rfl
  · simp only [bind_apply, load, loaded, emit_apply, get_apply, pure_apply]
    cases r.loader.load m i <;> rfl

theorem locateLocal_state (path : Path) (s : ResolverSettings) :
    (locateLocal m path s r).state = r := by
  simp only [locateLocal, bind_apply, get_apply]
  rcases findLocal r.package m path s with e | _ | i
  · rfl
  · rfl
  · simp only [bind_apply, load, emit_apply, get_apply, pure_apply]
    cases r.loader.load m i <;> rfl

theorem locate_value (h : r.BundledFresh m) (path : Path) (s : ResolverSettings) :
    (locate m path s r).value = r.found m path s := by
  unfold locate found
  rw [bind_apply, locateLocal_value, locateLocal_state]
  cases r.localHandle? m path s with
  | some h => rfl
  | none =>
    dsimp only
    split
    · rfl
    · simpa using loadBundled_value h

/-- Finding changes nothing but which bundled formatter is remembered, and
that stays the one that would be loaded now. -/
theorem locate_state (h : r.BundledFresh m) (path : Path) (s : ResolverSettings) :
    ∃ b, (locate m path s r).state = { r with bundledHandle := b } ∧
      ∀ h, b = some h → r.bundledHandle? m = some h := by
  unfold locate
  rw [bind_apply, locateLocal_value, locateLocal_state]
  cases r.localHandle? m path s with
  | some _ => exact ⟨r.bundledHandle, rfl, h⟩
  | none =>
    dsimp only
    split
    · exact ⟨r.bundledHandle, rfl, h⟩
    · refine ⟨_, loadBundled_state, fun b hb => ?_⟩
      rw [← loadBundled_value h, hb]

/-- What is remembered answers; else finding does. -/
theorem resolve_value (h : r.BundledFresh m) (path : Path) (s : ResolverSettings) :
    (resolve m path s r).value = (r.cached? (cacheKey m path)).getD (r.found m path s) := by
  simp only [resolve, bind_apply, get_apply]
  cases r.cached? (cacheKey m path) with
  | some known => rfl
  | none =>
    simp only [bind_apply, Option.getD_none]
    rw [locate_value h]
    cases r.found m path s <;> rfl

/-- A formatter is remembered for a project only when nothing was. -/
theorem resolve_state (h : r.BundledFresh m) (path : Path) (s : ResolverSettings) :
    ∃ b, (resolve m path s r).state =
        { r with
          bundledHandle := b
          cache := if (r.cached? (cacheKey m path)).isSome then r.cache
            else r.cache.insert (cacheKey m path) (r.found m path s) } ∧
      ∀ h, b = some h → r.bundledHandle? m = some h := by
  simp only [resolve, bind_apply, get_apply]
  cases r.cached? (cacheKey m path) with
  | some known => exact ⟨r.bundledHandle, rfl, h⟩
  | none =>
    obtain ⟨b, hs, hb⟩ := locate_state h path s
    refine ⟨b, ?_, hb⟩
    simp only [bind_apply]
    rw [locate_value h, hs]
    cases r.found m path s <;> rfl

end Answers

/-! ## §4 Outside any workspace -/

section Global

variable (m : Machine) (s : ResolverSettings)

theorem keeps_findGlobal {σ : Type} (manager : PackageManager) (package : String) :
    Keeps id (GlobalInstall.find (σ := σ) m manager package) := by
  unfold GlobalInstall.find
  refine Keeps.bind ?_ fun a => by split <;> exact keeps_pure _
  unfold GlobalInstall.directory
  split
  · exact keeps_pure _
  · split
    · exact keeps_pure _
    · unfold GlobalInstall.ofFinished
      split
      · exact Keeps.bind (keeps_emit _) fun _ => keeps_pure _
      · split <;> exact keeps_pure _

theorem keeps_locateGlobal : Keeps id (locateGlobal m s) := by
  unfold locateGlobal
  refine keeps_get.bind fun r => ?_
  refine (keeps_findGlobal m _ _).bind fun a => ?_
  split
  · exact keeps_pure _
  · exact Keeps.bind (keeps_emit _) fun _ => keeps_pure _
  · refine Keeps.bind (Keeps.bind (keeps_emit _) fun _ => keeps_get.bind fun _ => keeps_pure _)
      fun a => ?_
    cases a with
    | ok h => exact keeps_pure _
    | error e => exact Keeps.bind (keeps_emit _) fun _ => keeps_pure _

/-- What is found outside any workspace is remembered for no project. -/
theorem keeps_resolveGlobal : Keeps Resolver.cache (resolveGlobal m s) := by
  have hset : ∀ h : Option Handle, Keeps Resolver.cache (do
      Run.modify fun r : Resolver => { r with global := some h }
      pure h) := fun h => Keeps.bind (keeps_modify fun _ => rfl) fun _ => keeps_pure h
  have hbundled : Keeps Resolver.cache (loadBundled m) := fun r => by rw [loadBundled_state]
  unfold resolveGlobal
  refine keeps_get.bind fun r => ?_
  split
  · exact keeps_pure _
  · dsimp only
    split
    · refine (keeps_locateGlobal m s).of_id.bind fun found => ?_
      cases found with
      | some h => exact (keeps_pure _).bind hset
      | none => exact hbundled.bind hset
    · refine (keeps_pure none).bind fun found => ?_
      cases found with
      | some h => exact (keeps_pure _).bind hset
      | none => exact hbundled.bind hset

end Global

/-! ## §5 Asking again -/

section Again

variable (m : Machine) (s : ResolverSettings) (r : Resolver)

/-- **The answer for a document is what is remembered after it**, whatever
was remembered before. -/
theorem cached?_resolve (path : Path) :
    (resolve m path s r).state.cached? (cacheKey m path) = some (resolve m path s r).value := by
  simp only [resolve, bind_apply, get_apply]
  cases hc : r.cached? (cacheKey m path) with
  | some known => exact hc
  | none =>
    have hstored : ∀ (answer : Option Handle) (r : Resolver),
        (store (cacheKey m path) answer r).state.cached? (cacheKey m path) = some answer :=
      fun answer r => (Table.find?_insert r.cache _ _ _).trans (if_pos (Path.beq_refl _))
    simp only [bind_apply]
    cases (locate m path s r).value <;> exact hstored _ _

theorem resolve_value_of_cached {path : Path} {answer : Option Handle}
    (h : r.cached? (cacheKey m path) = some answer) : (resolve m path s r).value = answer := by
  simp only [resolve, bind_apply, get_apply, h]
  rfl

theorem global_resolveGlobal :
    (resolveGlobal m s r).state.global = some (resolveGlobal m s r).value := by
  simp only [resolveGlobal, bind_apply, get_apply]
  cases hg : r.global with
  | some known => exact hg
  | none =>
    dsimp only
    split
    · dsimp only [bind_apply]
      cases (locateGlobal m s r).value <;> rfl
    · rfl

theorem resolveGlobal_value_of_global {answer : Option Handle} (h : r.global = some answer) :
    (resolveGlobal m s r).value = answer := by
  simp only [resolveGlobal, bind_apply, get_apply, h]
  rfl

end Again

end Resolver

/-! ## §6 Where formatters come from -/

theorem readInstall_origin {m : Machine} {dir : Path} {package : String} {origin : Origin}
    {i : Install} (h : readInstall m dir package origin = .ok i) : i.origin = origin := by
  unfold readInstall at h
  cases hm : Manifest.read m (dir / manifestFile) with
  | error e =>
    rw [hm] at h
    cases h
  | ok manifest =>
    simp only [hm, bind, Except.bind] at h
    cases hv : manifest.version with
    | none =>
      simp only [hv] at h
      cases h
      rfl
    | some raw =>
      simp only [hv] at h
      cases hp : Version.parse? raw with
      | none =>
        simp only [hp] at h
        cases h
      | some v =>
        simp only [hp] at h
        cases h
        rfl

theorem map_some_eq_ok {ε α : Type} {x : Except ε α} {a : α} (h : x.map some = .ok (some a)) :
    x = .ok a := by
  cases x with
  | error e => cases h
  | ok b =>
    cases h
    rfl

theorem nearestInstall_origin {m : Machine} {package : String} {dirs : List Path} {i : Install}
    (h : nearestInstall m package dirs = .ok (some i)) : i.origin = .local := by
  induction dirs with
  | nil => cases h
  | cons dir dirs ih =>
    unfold nearestInstall at h
    cases he : Failure.ofIo (m.exists? (installPlace dir package / manifestFile)) with
    | error e =>
      simp only [he, bind, Except.bind] at h
      cases h
    | ok there =>
      simp only [he, bind, Except.bind] at h
      split at h
      · exact readInstall_origin (map_some_eq_ok h)
      · exact ih h

theorem findIn_origin {m : Machine} {root : Path} {package : String} {i : Install}
    (h : GlobalInstall.findIn m root package = .ok (some i)) : i.origin = .global := by
  unfold GlobalInstall.findIn at h
  obtain ⟨there, -, h⟩ := exists_of_bind_eq_ok h
  split at h
  · exact readInstall_origin (map_some_eq_ok h)
  · cases h

theorem findGlobal_origin {σ : Type} {m : Machine} {manager : PackageManager} {package : String}
    {s : σ} {i : Install} (h : (GlobalInstall.find m manager package s).value = .ok (some i)) :
    i.origin = .global := by
  unfold GlobalInstall.find at h
  rw [Run.bind_apply] at h
  rcases hd : (GlobalInstall.directory m manager s).value with e | _ | root <;> rw [hd] at h
  · cases h
  · cases h
  · exact findIn_origin h

namespace Resolver

theorem findLocal_origin {m : Machine} {package : String} {path : Path} {s : ResolverSettings}
    {i : Install} (h : findLocal package m path s = .ok (some i)) : i.origin = .local := by
  unfold findLocal at h
  split at h
  · exact readInstall_origin (map_some_eq_ok h)
  · exact nearestInstall_origin h

/-- A formatter comes from where its package does. -/
theorem loaded_origin {r : Resolver} {m : Machine} {i : Install} {h : Handle}
    (hh : r.loaded m i = .ok h) : h.origin = i.origin := by
  unfold loaded at hh
  cases hl : r.loader.load m i with
  | error e =>
    rw [hl] at hh
    cases hh
  | ok f =>
    rw [hl] at hh
    cases hh
    rfl

theorem localHandle?_origin {r : Resolver} {m : Machine} {path : Path} {s : ResolverSettings}
    {h : Handle} (hh : r.localHandle? m path s = some h) : h.origin = .local := by
  unfold localHandle? at hh
  split at hh
  · rename_i i hf
    exact (loaded_origin (eq_ok_of_toOption hh)).trans (findLocal_origin hf)
  · cases hh

end Resolver
end FormatHost
