/-
FormatHost.Proofs.Resolver.Nearest — which package a document's formatter
comes from.

The search passes the directories above a document, nearest first, and stops
at the first one below which the package has a manifest. Whether this install
is of any use is asked only then: one with a broken manifest, or one that does
not load, is not made up for by another further up. The bundled formatter is
used instead, unless the settings rule it out.

* §1 `IsInstall`: what a package directory has to hold;
* §2 the search, as a first directory;
* §3 `resolve_nearest`.
-/
import FormatHost.Proofs.Resolver.Loading
import FormatHost.Proofs.Search

namespace FormatHost

/-! ## §1 Installs -/

/-- The version that a manifest names, if it names one; nothing when what it
names is no version. -/
def Manifest.version? (manifest : Manifest) : Option (Option Version) :=
  match manifest.version with
  | none => some none
  | some raw => (Version.parse? raw).map some

/-- The directory has a valid manifest, and the install is what it says. -/
structure IsInstall (m : Machine) (dir : Path) (package : String) (origin : Origin)
    (i : Install) : Prop where
  manifest : ∃ text manifest, m.readText (dir / manifestFile) = .ok text ∧
    Manifest.parse? text = some manifest ∧ manifest.version? = some i.version ∧
    i.entry = (manifest.entry? package).map dir.join
  path : i.path = dir
  origin : i.origin = origin

section Reading

variable {m : Machine} {dir : Path} {package : String} {origin : Origin} {i : Install}

theorem readInstall_of_read {manifest : Manifest}
    (h : Manifest.read m (dir / manifestFile) = .ok manifest) :
    readInstall m dir package origin =
      match manifest.version? with
      | some version => .ok ⟨dir, version, (manifest.entry? package).map dir.join, origin⟩
      | none => .error .version := by
  unfold readInstall Manifest.version?
  simp only [h, bind, Except.bind]
  cases manifest.version with
  | none => rfl
  | some raw => cases hv : Version.parse? raw <;> simp [hv]

/-- Reading a package directory succeeds exactly on installs. -/
theorem readInstall_eq_ok_iff :
    readInstall m dir package origin = .ok i ↔ IsInstall m dir package origin i := by
  constructor
  · intro h
    cases hr : Manifest.read m (dir / manifestFile) with
    | error e =>
      unfold readInstall at h
      rw [hr] at h
      cases h
    | ok manifest =>
      rw [readInstall_of_read hr] at h
      obtain ⟨text, ht, hp⟩ := Manifest.read_eq_ok_iff.mp hr
      split at h
      · rename_i version hv
        cases h
        exact ⟨⟨text, manifest, ht, hp, hv, rfl⟩, rfl, rfl⟩
      · cases h
  · rintro ⟨⟨text, manifest, ht, hp, hv, he⟩, hpath, horigin⟩
    rw [readInstall_of_read (Manifest.read_eq_ok_iff.mpr ⟨text, ht, hp⟩), hv]
    dsimp only
    rw [← he, ← hpath, ← horigin]

end Reading

/-! ## §2 The nearest install -/

/-- The package has a manifest at its place below the directory. -/
def HasPackage (m : Machine) (package : String) (dir : Path) : Prop :=
  m.exists? (installPlace dir package / manifestFile) = .ok true

/-- Each of the directories can be checked for the package. -/
def CanCheck (m : Machine) (package : String) (dirs : List Path) : Prop :=
  ∀ dir ∈ dirs, ∃ there, m.exists? (installPlace dir package / manifestFile) = .ok there

section Searching

variable {m : Machine} {package : String} {dirs : List Path} {dir : Path}

theorem CanCheck.eq_false (h : CanCheck m package dirs) (hd : dir ∈ dirs)
    (hn : ¬ HasPackage m package dir) :
    m.exists? (installPlace dir package / manifestFile) = .ok false := by
  obtain ⟨there, ht⟩ := h dir hd
  cases there with
  | true => exact absurd ht hn
  | false => exact ht

/-- The search ends at the first directory that has the package, with whatever
is there. -/
theorem nearestInstall_of_isFirst (h : CanCheck m package dirs)
    (hd : IsFirst (HasPackage m package) dirs dir) :
    nearestInstall m package dirs =
      (readInstall m (installPlace dir package) package .local).map some := by
  obtain ⟨nearer, farther, rfl, hhas, hnearer⟩ := hd
  rw [Resolver.nearestInstall_append fun d hm =>
    h.eq_false (List.mem_append_left _ hm) (hnearer d hm)]
  unfold HasPackage at hhas
  simp only [nearestInstall, hhas, Failure.ofIo, bind, Except.bind, if_true]

theorem nearestInstall_of_none (h : CanCheck m package dirs)
    (hnone : ∀ dir ∈ dirs, ¬ HasPackage m package dir) :
    nearestInstall m package dirs = .ok none := by
  have hall := Resolver.nearestInstall_append (fun d hm => h.eq_false hm (hnone d hm)) []
  rwa [List.append_nil] at hall

end Searching

/-! ## §3 The formatter of a document -/

namespace Resolver

/-- The formatter that the package below a directory makes, when its manifest
is valid and it loads. -/
def LoadsFrom (r : Resolver) (m : Machine) (dir : Path) (h : Handle) : Prop :=
  ∃ i f, IsInstall m (installPlace dir r.package) r.package .local i ∧
    r.loader.load m i = .ok f ∧ h = Handle.ofInstall i f

/-- What is used when the project has nothing that loads. -/
def fallback (r : Resolver) (m : Machine) (s : ResolverSettings) : Option Handle :=
  if s.onlyUseLocalVersion then none else r.bundledHandle? m

section Documents

variable {r : Resolver} {m : Machine} {path dir : Path} {s : ResolverSettings} {h : Handle}

theorem loaded_eq_some_iff {i : Install} :
    (r.loaded m i).toOption = some h ↔
      ∃ f, r.loader.load m i = .ok f ∧ h = Handle.ofInstall i f := by
  unfold loaded
  cases r.loader.load m i with
  | error e => simp [Except.map, Except.toOption]
  | ok f => simp [Except.map, Except.toOption, eq_comm]

theorem findLocal_of_isFirst (hc : CanCheck m r.package (startDirectory m path).ancestors)
    (hs : s.modulePath = none)
    (hd : IsFirst (HasPackage m r.package) (startDirectory m path).ancestors dir) :
    findLocal r.package m path s =
      (readInstall m (installPlace dir r.package) r.package .local).map some := by
  unfold findLocal
  rw [hs]
  exact nearestInstall_of_isFirst hc hd

/-- What the nearest install makes is what the project has. -/
theorem localHandle?_eq_some_iff (hc : CanCheck m r.package (startDirectory m path).ancestors)
    (hs : s.modulePath = none)
    (hd : IsFirst (HasPackage m r.package) (startDirectory m path).ancestors dir) :
    r.localHandle? m path s = some h ↔ r.LoadsFrom m dir h := by
  unfold localHandle? LoadsFrom
  rw [findLocal_of_isFirst hc hs hd]
  cases hr : readInstall m (installPlace dir r.package) r.package .local with
  | error e =>
    refine iff_of_false nofun ?_
    rintro ⟨i, f, hi, -⟩
    have hok := readInstall_eq_ok_iff.mpr hi
    rw [hr] at hok
    cases hok
  | ok i =>
    have hi := readInstall_eq_ok_iff.mp hr
    refine loaded_eq_some_iff.trans ⟨fun ⟨f, hl⟩ => ⟨i, f, hi, hl⟩, ?_⟩
    rintro ⟨i', f, hi', hl⟩
    have hok := readInstall_eq_ok_iff.mpr hi'
    rw [hr] at hok
    obtain rfl := Except.ok.inj hok
    exact ⟨f, hl⟩

theorem localHandle?_of_none (hc : CanCheck m r.package (startDirectory m path).ancestors)
    (hs : s.modulePath = none)
    (hnone : ∀ dir ∈ (startDirectory m path).ancestors, ¬ HasPackage m r.package dir) :
    r.localHandle? m path s = none := by
  unfold localHandle? findLocal
  rw [hs]
  dsimp only
  rw [findLocalInstall, nearestInstall_of_none hc hnone]

theorem LoadsFrom.describes (hl : r.LoadsFrom m dir h) :
    h.origin = .local ∧ h.path = installPlace dir r.package ∧
      ∃ text manifest, m.readText (h.path / manifestFile) = .ok text ∧
        Manifest.parse? text = some manifest ∧ manifest.version? = some h.version := by
  obtain ⟨i, f, ⟨⟨text, manifest, ht, hp, hv, -⟩, hpath, horigin⟩, -, rfl⟩ := hl
  refine ⟨horigin, hpath, text, manifest, ?_, hp, hv⟩
  show m.readText (i.path / manifestFile) = _
  rw [hpath, ht]

theorem fallback_origin (hf : r.fallback m s = some h) : ∃ i ∈ r.bundled, h.origin = i.origin := by
  unfold fallback at hf
  split at hf
  · cases hf
  · obtain ⟨i, hi, hl⟩ := Option.bind_eq_some_iff.mp hf
    exact ⟨i, hi, loaded_origin (eq_ok_of_toOption hl)⟩

/-- Where nothing is remembered for the project, the answer is what the project
has, or else the fallback. -/
theorem resolve_value_of_uncached (hcache : r.cached? (cacheKey m path) = none)
    (hbundled : r.BundledFresh m) :
    (resolve m path s r).value = (r.localHandle? m path s).or (r.fallback m s) := by
  rw [resolve_value hbundled, hcache]
  rfl

/-- The answer is remembered for the project, and nothing else changes in what
is remembered. -/
theorem resolve_remembers (hcache : r.cached? (cacheKey m path) = none)
    (hbundled : r.BundledFresh m) :
    let o := resolve m path s r
    o.state.cache.entries = r.cache.entries ++ [(cacheKey m path, o.value)] ∧
      ∀ project, (cacheKey m path == project) = false →
        o.state.cached? project = r.cached? project := by
  intro o
  obtain ⟨b, hs, -⟩ := resolve_state hbundled path s
  have hvalue : o.value = r.found m path s := resolve_value_of_uncached hcache hbundled
  have hstored : o.state.cache = r.cache.insert (cacheKey m path) o.value := by
    show (resolve m path s r).state.cache = _
    rw [hs, hcache, hvalue]
    rfl
  refine ⟨?_, fun project hp => ?_⟩
  · rw [hstored, Table.entries_insert_of_none hcache]
  · rw [cached?, hstored, Table.find?_insert_of_none hcache, hp]
    exact Option.or_none

end Documents

/-- **The nearest install decides.** On a resolver that remembers nothing, for a
document above which every place of the package can be checked, and without a
directory in the settings: where the nearest install is valid and loads, it is
the answer, from its directory and with its version. Where it is broken,
whatever there is further up, and where there is no install, the answer is the
bundled formatter if that loads, unless the settings rule it out. So local
formatters come from nearest installs only. One entry is added to what is
remembered, for the document's project. -/
theorem resolve_nearest {r : Resolver} {m : Machine} {path : Path} {s : ResolverSettings}
    (hchecks : ∀ dir ∈ (startDirectory m path).ancestors,
      ∃ there, m.exists? (installPlace dir r.package / manifestFile) = .ok there)
    (hsettings : s.modulePath = none) (hcache : r.cached? (cacheKey m path) = none)
    (hbundled : r.BundledFresh m) :
    let o := resolve m path s r
    let nearest := IsFirst (HasPackage m r.package) (startDirectory m path).ancestors
    (∀ dir h, nearest dir → r.LoadsFrom m dir h → o.value = some h ∧ h.origin = .local ∧
      h.path = installPlace dir r.package ∧
      ∃ text manifest, m.readText (h.path / manifestFile) = .ok text ∧
        Manifest.parse? text = some manifest ∧ manifest.version? = some h.version) ∧
    (∀ dir, nearest dir → (∀ h, ¬ r.LoadsFrom m dir h) → o.value = r.fallback m s) ∧
    ((∀ dir ∈ (startDirectory m path).ancestors, ¬ HasPackage m r.package dir) →
      o.value = r.fallback m s) ∧
    ((∀ i ∈ r.bundled, i.origin ≠ .local) → ∀ h,
      (o.value = some h ∧ h.origin = .local ↔ ∃ dir, nearest dir ∧ r.LoadsFrom m dir h)) ∧
    o.state.cache.entries = r.cache.entries ++ [(cacheKey m path, o.value)] ∧
    ∀ project, (cacheKey m path == project) = false →
      o.state.cached? project = r.cached? project := by
  intro o nearest
  have hvalue : o.value = (r.localHandle? m path s).or (r.fallback m s) :=
    resolve_value_of_uncached hcache hbundled
  have hfirst : ∀ dir, nearest dir → ∀ h, r.localHandle? m path s = some h ↔ r.LoadsFrom m dir h :=
    fun dir hd h => localHandle?_eq_some_iff hchecks hsettings hd
  have hloads : ∀ dir h, nearest dir → r.LoadsFrom m dir h → o.value = some h := by
    intro dir h hd hl
    rw [hvalue, (hfirst dir hd h).mpr hl, Option.some_or]
  have hbroken : ∀ dir, nearest dir → (∀ h, ¬ r.LoadsFrom m dir h) →
      o.value = r.fallback m s := by
    intro dir hd hn
    have hlocal : r.localHandle? m path s = none :=
      Option.eq_none_iff_forall_ne_some.mpr fun h hh => hn h ((hfirst dir hd h).mp hh)
    rw [hvalue, hlocal, Option.none_or]
  have hnone : (∀ dir ∈ (startDirectory m path).ancestors, ¬ HasPackage m r.package dir) →
      o.value = r.fallback m s := by
    intro hn
    rw [hvalue, localHandle?_of_none hchecks hsettings hn, Option.none_or]
  refine ⟨fun dir h hd hl => ⟨hloads dir h hd hl, hl.describes⟩, hbroken, hnone,
    fun hb h => ⟨?_, ?_⟩, resolve_remembers hcache hbundled⟩
  · rintro ⟨ho, horigin⟩
    have hnot : o.value ≠ r.fallback m s := by
      intro he
      obtain ⟨i, hi, hio⟩ := fallback_origin (he.symm.trans ho)
      exact hb i hi (hio.symm.trans horigin)
    rcases exists_isFirst (HasPackage m r.package) (startDirectory m path).ancestors with
      ⟨dir, hd⟩ | hn
    · have hsome : ∃ h, r.LoadsFrom m dir h :=
        Classical.byContradiction fun hn => hnot (hbroken dir hd (not_exists.mp hn))
      obtain ⟨h', hl⟩ := hsome
      obtain rfl := Option.some.inj (ho.symm.trans (hloads dir h' hd hl))
      exact ⟨dir, hd, hl⟩
    · exact absurd (hnone hn) hnot
  · rintro ⟨dir, hd, hl⟩
    exact ⟨hloads dir h hd hl, hl.describes.1⟩

/-- A project whose directory `a` has the package installed with a version
that is none; above it there is a good install. -/
def shadowingInstall : Machine where
  disk := ⟨fun
    | ["p"] | ["p", "a"] | ["p", "node_modules"] | ["p", "node_modules", "prettier"]
    | ["p", "a", "node_modules"] | ["p", "a", "node_modules", "prettier"] => some .directory
    | ["p", "node_modules", "prettier", "package.json"] =>
      some (.file (Text.Utf8.encode "\x7b\"version\":\"2.8.8\"\x7d".toList) false)
    | ["p", "a", "node_modules", "prettier", "package.json"] =>
      some (.file (Text.Utf8.encode "\x7b\"version\":\"next\"\x7d".toList) false)
    | _ => none⟩
  cwd := ⟨"/p"⟩
  home := ⟨"/home"⟩
  searchPath := []

/-- A document below `a` gets the bundled formatter, although the install
further up would load. -/
theorem resolve_nearest_shadowed :
    let m := shadowingInstall
    let r := blank defaultPackage plainLoader (some shipped)
    let dirs := (startDirectory m ⟨"/p/a/y.ts"⟩).ancestors
    (∀ dir ∈ dirs, ∃ there,
        m.exists? (installPlace dir defaultPackage / manifestFile) = .ok there) ∧
      IsFirst (HasPackage m defaultPackage) dirs ⟨"/p/a"⟩ ∧
      (∀ h, ¬ r.LoadsFrom m ⟨"/p/a"⟩ h) ∧ (∃ h, r.LoadsFrom m ⟨"/p"⟩ h) ∧
      (resolve m ⟨"/p/a/y.ts"⟩ {} r).value = r.bundledHandle? m := by
  intro m r dirs
  have hdirs : dirs = [⟨"/p/a"⟩, ⟨"/p"⟩, ⟨"/"⟩] := by decide +kernel
  have hchecks : ∀ dir ∈ dirs, ∃ there,
      m.exists? (installPlace dir defaultPackage / manifestFile) = .ok there := by
    have hall : ∀ dir ∈ dirs,
        (m.exists? (installPlace dir defaultPackage / manifestFile)).toOption.isSome := by
      decide +kernel
    exact fun dir hd => exists_ok_of_isSome (hall dir hd)
  have hhas : HasPackage m defaultPackage ⟨"/p/a"⟩ := eq_ok_of_toOption (by decide +kernel)
  have hfirst : IsFirst (HasPackage m defaultPackage) dirs ⟨"/p/a"⟩ := by
    rw [hdirs]
    exact isFirst_cons.mpr (.inl ⟨hhas, rfl⟩)
  have hread : (readInstall m (installPlace ⟨"/p/a"⟩ defaultPackage) defaultPackage
      .local).toOption = none := by
    decide +kernel
  have hbroken : ∀ h, ¬ r.LoadsFrom m ⟨"/p/a"⟩ h := by
    rintro h ⟨i, f, hi, -⟩
    have hok : readInstall m (installPlace ⟨"/p/a"⟩ defaultPackage) defaultPackage .local = .ok i :=
      readInstall_eq_ok_iff.mpr hi
    rw [hok] at hread
    cases hread
  have hgood : ∃ h, r.LoadsFrom m ⟨"/p"⟩ h := by
    have hsome : (readInstall m (installPlace ⟨"/p"⟩ defaultPackage) defaultPackage
        .local).toOption.isSome := by
      decide +kernel
    obtain ⟨i, hi⟩ := exists_ok_of_isSome hsome
    exact ⟨_, i, _, readInstall_eq_ok_iff.mp hi, rfl, rfl⟩
  exact ⟨hchecks, hfirst, hbroken, hgood,
    (resolve_nearest (r := r) (s := {}) hchecks rfl rfl nofun).2.1 _ hfirst hbroken⟩

end Resolver
end FormatHost
