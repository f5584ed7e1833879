/-
FormatHost.Proofs.Resolver.Cache — what a resolver remembers, and whom it
answers with it.

What is found for a document is remembered for its project, so the first
document of a project decides for all later ones. `Remembers` is the
invariant: after any run of calls, a project's entry is what a resolver
that remembers nothing finds for the first document of that project. The
answers of a run agree with those of such a resolver exactly where the
documents of a project do; the searches of two documents agree when no
directory between them and their project's root stops either.

* §1 runs of calls, and the document that decides;
* §2 `After.step`: one call keeps what is remembered in step;
* §3 `After.resolveAll_value`: the answers of a run;
* §4 `found_eq_of_quiet`: documents of one project with one search;
* §5 when remembering makes no difference.
-/
import FormatHost.Proofs.Path.Ancestors
import FormatHost.Proofs.Resolver.Finding
import FormatHost.Proofs.Table

namespace FormatHost.Resolver

open Run

/-! ## §1 Runs -/

/-- A resolver that remembers nothing. -/
def blank (package : String) (loader : Loader) (bundled : Option Install) : Resolver :=
  { package, loader, bundled }

/-- Find the formatters of documents, one after the other. -/
def resolveAll (m : Machine) (s : ResolverSettings) :
    List Path → Run Resolver (List (Option Handle))
  | [] => pure []
  | path :: paths => do
    let h ← resolve m path s
    let hs ← resolveAll m s paths
    return h :: hs

/-- The document that decides for `path` after others: the first of its
project. -/
def leader (m : Machine) (before : List Path) (path : Path) : Path :=
  (before.find? fun q => cacheKey m q == cacheKey m path).getD path

/-! ## §2 What is remembered -/

section Remembering

variable {m : Machine} {s : ResolverSettings} {r : Resolver}

/-- For every project, `cache` has what `r` finds for the first of the
documents `before` that is of the project, and nothing else. -/
def Remembers (r : Resolver) (m : Machine) (s : ResolverSettings) (before : List Path)
    (cache : PathMap (Option Handle)) : Prop :=
  ∀ project, cache.find? project =
    (before.find? fun q => cacheKey m q == project).map fun q => r.found m q s

/-- A resolver that has come from `r` by looking for the documents
`before`. -/
structure After (r : Resolver) (m : Machine) (s : ResolverSettings) (before : List Path)
    (r' : Resolver) : Prop where
  sources : r'.sources = r.sources
  fresh : r'.BundledFresh m
  remembers : Remembers r m s before r'.cache

theorem after_blank (package : String) (loader : Loader) (bundled : Option Install) :
    After (blank package loader bundled) m s [] (blank package loader bundled) :=
  ⟨rfl, nofun, fun _ => rfl⟩

/-- **One call keeps what is remembered in step.** -/
theorem After.step {before : List Path} {r' : Resolver} (h : After r m s before r')
    (path : Path) : After r m s (before ++ [path]) (resolve m path s r').state := by
  obtain ⟨b, hs, hb⟩ := resolve_state h.fresh path s
  have hsrc : (resolve m path s r').state.sources = r'.sources := by
    rw [hs]
    rfl
  refine ⟨hsrc.trans h.sources, ?_, ?_⟩
  · intro bundled hh
    rw [bundledHandle?_congr hsrc]
    exact hb bundled (by simpa [hs] using hh)
  intro project
  have hk : r'.cached? (cacheKey m path) = _ := h.remembers (cacheKey m path)
  rw [hs, List.find?_append, Option.map_or]
  dsimp only
  by_cases hc : (r'.cached? (cacheKey m path)).isSome = true
  · rw [if_pos hc, h.remembers]
    cases hb : before.find? fun q => cacheKey m q == project with
    | some q => rfl
    | none =>
      -- a document of the path's project was looked for before
      cases hp : cacheKey m path == project with
      | false => simp [hp]
      | true =>
        have he : (fun q => cacheKey m q == cacheKey m path) =
            fun q => cacheKey m q == project := by
          funext q
          exact Path.beq_congr hp _
        rw [hk, he, hb] at hc
        cases hc
  · have hn : r'.cached? (cacheKey m path) = none := by simpa using hc
    rw [if_neg hc, Table.find?_insert_of_none hn, h.remembers, found_congr h.sources]
    cases hp : cacheKey m path == project <;> simp [hp]

/-- A run of calls keeps what is remembered in step. -/
theorem After.run {before : List Path} {r' : Resolver} (h : After r m s before r')
    (paths : List Path) : After r m s (before ++ paths) (resolveAll m s paths r').state := by
  induction paths generalizing before r' with
  | nil => rwa [List.append_nil]
  | cons path paths ih =>
    have hn := ih (h.step path)
    rwa [List.append_assoc, List.singleton_append] at hn

/-! ## §3 Answers -/

/-- After other documents, a document gets what is found for its leader. -/
theorem After.resolve_value {before : List Path} {r' : Resolver} (h : After r m s before r')
    (path : Path) : (resolve m path s r').value = r.found m (leader m before path) s := by
  rw [Resolver.resolve_value h.fresh, cached?, h.remembers, found_congr h.sources, leader]
  cases before.find? fun q => cacheKey m q == cacheKey m path <;> rfl

/-- **A run answers each document with what is found for its leader.** -/
theorem After.resolveAll_value {before : List Path} {r' : Resolver} (h : After r m s before r')
    (paths : List Path) :
    (resolveAll m s paths r').value =
      paths.mapIdx fun i path => r.found m (leader m (before ++ paths.take i) path) s := by
  induction paths generalizing before r' with
  | nil => rfl
  | cons path paths ih =>
    have hn := ih (h.step path)
    simp only [List.append_assoc, List.singleton_append] at hn
    simp only [resolveAll, bind_apply, pure_apply]
    rw [hn, h.resolve_value path, List.mapIdx_cons, List.take_zero, List.append_nil]
    rfl

end Remembering

/-- A leader is among the documents of the run, and of the same project. -/
theorem leader_spec (m : Machine) (before : List Path) (path : Path) :
    (leader m before path ∈ before ∨ leader m before path = path) ∧
      (cacheKey m (leader m before path) == cacheKey m path) = true := by
  unfold leader
  cases hf : before.find? fun q => cacheKey m q == cacheKey m path with
  | none => exact ⟨.inr rfl, Path.beq_refl (cacheKey m path)⟩
  | some q =>
    have hk := List.find?_some hf
    exact ⟨.inl (List.mem_of_find?_eq_some hf), hk⟩

/-- Where the documents of a project have one formatter, each document has
its leader's. -/
theorem mapIdx_leader {m : Machine} {paths : List Path} {f : Path → Option Handle}
    (h : ∀ p ∈ paths, ∀ q ∈ paths, (cacheKey m p == cacheKey m q) = true → f p = f q) :
    (paths.mapIdx fun i path => f (leader m (paths.take i) path)) = paths.map f := by
  refine List.ext_getElem? fun i => ?_
  rw [List.getElem?_mapIdx, List.getElem?_map]
  cases hp : paths[i]? with
  | none => rfl
  | some path =>
    have hm : path ∈ paths := List.mem_of_getElem? hp
    obtain ⟨hl, hk⟩ := leader_spec m (paths.take i) path
    have hl' : leader m (paths.take i) path ∈ paths := by
      rcases hl with hl | hl
      · exact List.mem_of_mem_take hl
      · rw [hl]
        exact hm
    rw [Option.map_some, Option.map_some, h _ hl' _ hm hk]

/-! ## §4 Documents with one search -/

/-- The directories from a document up to its project's root, without the
root. -/
def belowRoot (m : Machine) (path : Path) : List Path :=
  (startDirectory m path).ancestors.takeWhile (· ≠ projectRoot m path)

/-- No directory between the document and its project's root has the
package, or keeps from looking. -/
def Quiet (m : Machine) (package : String) (path : Path) : Prop :=
  ∀ dir ∈ belowRoot m path, m.exists? (installPlace dir package / manifestFile) = .ok false

theorem nearestInstall_append {m : Machine} {package : String} {nearer : List Path}
    (h : ∀ dir ∈ nearer, m.exists? (installPlace dir package / manifestFile) = .ok false)
    (farther : List Path) :
    nearestInstall m package (nearer ++ farther) = nearestInstall m package farther := by
  induction nearer with
  | nil => rfl
  | cons dir nearer ih =>
    rw [List.cons_append, nearestInstall, h dir (List.mem_cons_self ..)]
    exact ih fun d hd => h d (List.mem_cons_of_mem _ hd)

/-- A project's root is at or above where its documents start. -/
theorem projectRoot_mem (m : Machine) (path : Path) :
    projectRoot m path ∈ (startDirectory m path).ancestors := by
  unfold projectRoot
  dsimp only
  cases hf : (startDirectory m path).ancestors.find? fun dir => m.isFile (dir / manifestFile) with
  | none => exact List.mem_cons_self ..
  | some root => exact List.mem_of_find?_eq_some hf

/-- An entry of a list stands behind those that differ from it. -/
theorem exists_eq_takeWhile_append {α : Type} [DecidableEq α] {l : List α} {a : α} (h : a ∈ l) :
    ∃ farther, l = l.takeWhile (· ≠ a) ++ a :: farther := by
  induction l with
  | nil => cases h
  | cons b l ih =>
    by_cases hb : b = a
    · exact ⟨l, by simp [hb]⟩
    · have hm : a ∈ l := List.mem_of_ne_of_mem (Ne.symm hb) h
      obtain ⟨farther, he⟩ := ih hm
      refine ⟨farther, ?_⟩
      rw [List.takeWhile_cons_of_pos (by simpa using hb), List.cons_append, ← he]

/-- What is not below a project's root is the root and what is above it. -/
theorem ancestors_eq_belowRoot_append (m : Machine) (path : Path) :
    (startDirectory m path).ancestors = belowRoot m path ++ (projectRoot m path).ancestors := by
  obtain ⟨farther, he⟩ := exists_eq_takeWhile_append (projectRoot_mem m path)
  rw [Path.ancestors_split he]
  exact he

/-- Above a quiet way the search goes on from the project's root. -/
theorem findLocalInstall_of_quiet {m : Machine} {package : String} {path : Path}
    (h : Quiet m package path) :
    findLocalInstall m (startDirectory m path) package =
      findLocalInstall m (projectRoot m path) package := by
  unfold findLocalInstall
  rw [ancestors_eq_belowRoot_append, nearestInstall_append h]

/-- **Documents of one project have the same formatter** when nothing on
their ways to its root stops the search. -/
theorem found_eq_of_quiet {r : Resolver} {m : Machine} (s : ResolverSettings) {p q : Path}
    (hk : cacheKey m p = cacheKey m q) (hp : Quiet m r.package p) (hq : Quiet m r.package q) :
    r.found m p s = r.found m q s := by
  have hl : findLocal r.package m p s = findLocal r.package m q s := by
    unfold findLocal
    cases s.modulePath with
    | some dir => rfl
    | none =>
      dsimp only
      rw [findLocalInstall_of_quiet hp, findLocalInstall_of_quiet hq]
      exact congrArg (findLocalInstall m · r.package) hk
  simp only [found, localHandle?, hl]

/-- So have all documents when the settings name the formatter's package. -/
theorem found_eq_of_modulePath {r : Resolver} {m : Machine} {s : ResolverSettings}
    (h : s.modulePath.isSome) (p q : Path) : r.found m p s = r.found m q s := by
  obtain ⟨dir, hd⟩ := Option.isSome_iff_exists.mp h
  simp only [found, localHandle?, findLocal, hd]

/-! ## §5 When remembering makes no difference -/

/-- What tells one formatter from another. -/
def identity (h : Handle) : Origin × Option Version × Path := (h.origin, h.version, h.path)

/-- A project whose directory `a` has the package installed but no manifest
of its own. -/
def nestedInstall : Machine where
  disk := ⟨fun
    | ["p"] | ["p", "a"] | ["p", "a", "node_modules"] | ["p", "a", "node_modules", "prettier"] =>
      some .directory
    | ["p", "package.json"] | ["p", "a", "node_modules", "prettier", "package.json"] =>
      some (.file (Text.Utf8.encode ['\x7b', '\x7d']) false)
    | _ => none⟩
  cwd := ⟨"/p"⟩
  home := ⟨"/home"⟩
  searchPath := []

/-- A loader of formatters that change nothing. -/
def plainLoader : Loader :=
  ⟨fun _ _ => .ok { format := fun _ text _ => .ok text, supportInfo := fun _ _ => .ok ⟨[]⟩ }⟩

/-- A run does not answer every document with the formatter that would be
found for it alone: the first document of the project has none, and so has
the second one, next to which the package is installed. -/
theorem resolveAll_ne_map_resolve :
    ¬ ∀ package loader bundled m s paths,
      (resolveAll m s paths (blank package loader bundled)).value.map (·.map identity) =
        paths.map fun path =>
          (resolve m path s (blank package loader bundled)).value.map identity := by
  intro h
  have hc := h defaultPackage plainLoader none nestedInstall {} [⟨"/p/x.ts"⟩, ⟨"/p/a/y.ts"⟩]
  revert hc
  decide +kernel

/-- A resolver that remembers nothing answers what it finds. -/
theorem resolve_blank (package : String) (loader : Loader) (bundled : Option Install)
    (m : Machine) (s : ResolverSettings) (path : Path) :
    (resolve m path s (blank package loader bundled)).value =
      (blank package loader bundled).found m path s :=
  (after_blank package loader bundled).resolve_value path

/-- **What a run answers, and when remembering makes no difference.** Each
document gets the formatter that a resolver which remembers nothing finds
for the first document of its project. On a set of documents every run
answers like such a resolver exactly when documents of one project have one
formatter there. They have when the settings name the package's directory;
and also when the project's root is spelled one way and no directory
between it and the documents has the package or keeps from looking. -/
theorem resolveAll_leaders (package : String) (loader : Loader) (bundled : Option Install)
    (m : Machine) (s : ResolverSettings) :
    let r := blank package loader bundled
    let fresh := fun path => (resolve m path s r).value
    (∀ paths, (resolveAll m s paths r).value =
      paths.mapIdx fun i path => fresh (leader m (paths.take i) path)) ∧
    (∀ documents : Path → Prop,
      (∀ paths, (∀ q ∈ paths, documents q) →
        (resolveAll m s paths r).value = paths.map fresh) ↔
      ∀ p q, documents p → documents q → (cacheKey m p == cacheKey m q) = true →
        fresh p = fresh q) ∧
    (s.modulePath.isSome → ∀ paths, (resolveAll m s paths r).value = paths.map fresh) ∧
    ∀ paths, (∀ q ∈ paths, Quiet m package q) →
      (∀ p ∈ paths, ∀ q ∈ paths, (cacheKey m p == cacheKey m q) = true →
        cacheKey m p = cacheKey m q) →
      (resolveAll m s paths r).value = paths.map fresh := by
  intro r fresh
  have hfresh : fresh = fun path => r.found m path s :=
    funext (resolve_blank package loader bundled m s)
  have hall : ∀ paths, (resolveAll m s paths r).value =
      paths.mapIdx fun i path => fresh (leader m (paths.take i) path) := by
    intro paths
    rw [hfresh]
    exact (after_blank package loader bundled).resolveAll_value paths
  refine ⟨hall, ?_, ?_, ?_⟩
  · intro documents
    constructor
    · intro h p q hp hq hk
      have hpq := h [p, q] (by simp [hp, hq])
      have hlead : leader m [p] q = p := by simp [leader, hk]
      rw [hall] at hpq
      simp only [List.mapIdx_cons, List.mapIdx_nil, List.map_cons, List.map_nil,
        List.cons.injEq] at hpq
      exact (congrArg fresh hlead).symm.trans hpq.2.1
    · intro h paths hd
      rw [hall, mapIdx_leader fun p hp q hq => h p q (hd p hp) (hd q hq)]
  · intro hs paths
    rw [hall, mapIdx_leader]
    intro p _ q _ _
    rw [hfresh]
    exact found_eq_of_modulePath hs p q
  · intro paths hquiet hspell
    rw [hall, mapIdx_leader]
    intro p hp q hq hk
    rw [hfresh]
    exact found_eq_of_quiet s (hspell p hp q hq hk) (hquiet p hp) (hquiet q hq)

/-- Two documents of that project with quiet ways, one of them in a
directory of its own, are answered as they would be alone. -/
theorem resolveAll_leaders_quiet :
    let paths : List Path := [⟨"/p/x.ts"⟩, ⟨"/p/b/z.ts"⟩]
    let r := blank defaultPackage plainLoader none
    belowRoot nestedInstall ⟨"/p/b/z.ts"⟩ = [⟨"/p/b"⟩] ∧
    (∀ q ∈ paths, Quiet nestedInstall defaultPackage q) ∧
    (resolveAll nestedInstall {} paths r).value =
      paths.map fun path => (resolve nestedInstall path {} r).value := by
  intro paths r
  have hb : belowRoot nestedInstall ⟨"/p/b/z.ts"⟩ = [⟨"/p/b"⟩] := by decide +kernel
  have hn : belowRoot nestedInstall ⟨"/p/x.ts"⟩ = [] := by decide +kernel
  have hx : Quiet nestedInstall defaultPackage ⟨"/p/x.ts"⟩ := by simp [Quiet, hn]
  have hz : Quiet nestedInstall defaultPackage ⟨"/p/b/z.ts"⟩ := by
    intro dir hd
    rw [hb] at hd
    rw [List.mem_singleton.mp hd]
    exact eq_ok_of_toOption (by decide +kernel)
  have hquiet : ∀ q ∈ paths, Quiet nestedInstall defaultPackage q := by
    simpa [paths] using And.intro hx hz
  have hspell : ∀ p ∈ paths, ∀ q ∈ paths,
      (cacheKey nestedInstall p == cacheKey nestedInstall q) = true →
        cacheKey nestedInstall p = cacheKey nestedInstall q := by
    decide +kernel
  exact ⟨hb, hquiet,
    (resolveAll_leaders defaultPackage plainLoader none nestedInstall {}).2.2.2 paths
      hquiet hspell⟩

end FormatHost.Resolver
