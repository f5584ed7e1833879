/-
FormatHost.Proofs.Resolver.Loading — what a resolver looks for, it looks
for once.

Three things are remembered with lifetimes of their own: what was found for
each project, what was found outside any workspace, and the bundled
formatter. The first two are slots. A slot is filled by the first look,
with a formatter or with none, and every later look is answered from it
until it is forgotten, whatever the files have become. The bundled
formatter fills slots of both kinds and outlives them: after it was loaded
once, every slot that holds a bundled formatter holds that one.

* §1 actions, slots and histories;
* §2 the course of a look;
* §3 a slot that is filled answers: `remembered?_after`;
* §4 `Finds`: what a look does to the bundled formatter;
* §5 `Shares`: slots share the bundled formatter;
* §6 `lookups_once`.
-/
import FormatHost.Proofs.Resolver.Cache

namespace FormatHost.Resolver

open Run

/-! ## §1 Histories -/

/-- What a resolver looks for outside any workspace. -/
def searchOutside (m : Machine) (s : ResolverSettings) : Run Resolver (Option Handle) := do
  match ← if s.resolveGlobalModules then locateGlobal m s else pure none with
  | some h => return some h
  | none => loadBundled m

/-- What can be asked of a resolver. -/
inductive Action
  | resolve (path : Path) (s : ResolverSettings)
  | require (path : Path) (s : ResolverSettings)
  | resolveGlobal (s : ResolverSettings)
  | invalidate (project : Path)
  | invalidateTree (dir : Path)
  | invalidateGlobal
  | invalidateAll

/-- What a look goes by before it searches. -/
inductive Slot
  /-- What is remembered for a project. -/
  | project (root : Path)
  /-- What is remembered for documents outside any workspace. -/
  | outside
  deriving BEq

namespace Action

/-- Do an action; the answer is the formatter that is handed out. -/
def run (m : Machine) : Action → Run Resolver (Option Handle)
  | .resolve path s => Resolver.resolve m path s
  | .require path s => do return (← Resolver.require m path s).toOption
  | .resolveGlobal s => Resolver.resolveGlobal m s
  | .invalidate project => do Resolver.invalidate project; return none
  | .invalidateTree dir => do Resolver.invalidateTree dir; return none
  | .invalidateGlobal => do Resolver.invalidateGlobal; return none
  | .invalidateAll => do Resolver.invalidateAll; return none

/-- The search that an action makes when it finds its slot empty. -/
def search (m : Machine) : Action → Run Resolver (Option Handle)
  | .resolve path s => locate m path s
  | .require path s => locate m path s
  | .resolveGlobal s => searchOutside m s
  | _ => pure none

/-- The slot that an action looks at. -/
def slot? (m : Machine) : Action → Option Slot
  | .resolve path _ => some (.project (cacheKey m path))
  | .require path _ => some (.project (cacheKey m path))
  | .resolveGlobal _ => some .outside
  | _ => none

/-- Whether an action is an order to forget what a slot holds. -/
def covers : Action → Slot → Bool
  | .invalidate project, .project root => root == project
  | .invalidateTree dir, .project root => root.startsWith dir
  | .invalidateGlobal, .outside => true
  | .invalidateAll, _ => true
  | _, _ => false

end Action

/-- An action, and the machine at that time. -/
structure Occasion where
  machine : Machine
  action : Action

namespace Occasion

def run (o : Occasion) : Run Resolver (Option Handle) := o.action.run o.machine

def search (o : Occasion) : Run Resolver (Option Handle) := o.action.search o.machine

def slot? (o : Occasion) : Option Slot := o.action.slot? o.machine

end Occasion

/-- A resolver after a history. -/
def after (r : Resolver) : List Occasion → Resolver
  | [] => r
  | o :: history => after (o.run r).state history

/-- What is observed of each occasion of a history. -/
def along {α : Type} (f : Occasion → Resolver → List α) (r : Resolver) : List Occasion → List α
  | [] => []
  | o :: history => f o r ++ along f (o.run r).state history

/-- The formatters that come of loading the bundled package, among events
on a machine. -/
def bundledLoads (r : Resolver) (m : Machine) (es : List Event) : List Handle :=
  es.filterMap fun
    | .load i => if r.bundled = some i then (r.loaded m i).toOption else none
    | _ => none

/-- The formatters that a history hands out, by whatever action. -/
def handedOut (r : Resolver) (history : List Occasion) : List Handle :=
  along (fun o r => (o.run r).value.toList) r history

/-- The successful loads of the bundled package in a history. -/
def loadsOfBundled (r : Resolver) (history : List Occasion) : List Handle :=
  along (fun o r => bundledLoads r o.machine (o.run r).events) r history

theorem after_append (r : Resolver) (a b : List Occasion) :
    r.after (a ++ b) = (r.after a).after b := by
  induction a generalizing r with
  | nil => rfl
  | cons o a ih => exact ih _

/-! ## §2 Looks -/

section Looks

variable {m : Machine} {path : Path} {s : ResolverSettings} {r : Resolver}

/-- A formatter that is required is one that is resolved. -/
theorem run_require : (Action.require path s).run m = resolve m path s := by
  funext r
  simp only [Action.run, Resolver.require, bind_apply]
  obtain ⟨value, state, events⟩ := resolve m path s r
  cases value <;> simp [Except.toOption]

theorem resolve_of_cached {answer : Option Handle} (h : r.cached? (cacheKey m path) = some answer) :
    resolve m path s r = ⟨answer, r, []⟩ := by
  simp only [resolve, bind_apply, get_apply, h]
  rfl

/-- With nothing remembered the search decides, and its result is
remembered for the project. -/
theorem resolve_of_uncached (h : r.cached? (cacheKey m path) = none) :
    resolve m path s r =
      let found := locate m path s r
      ⟨found.value,
        { found.state with cache := found.state.cache.insert (cacheKey m path) found.value },
        found.events ++
          if found.value.isNone then [.log .error "Formatter module not found"] else []⟩ := by
  simp only [resolve, bind_apply, get_apply, h]
  cases (locate m path s r).value <;> rfl

theorem resolveGlobal_of_global {answer : Option Handle} (h : r.global = some answer) :
    resolveGlobal m s r = ⟨answer, r, []⟩ := by
  simp only [resolveGlobal, bind_apply, get_apply, h]
  rfl

theorem resolveGlobal_of_none (h : r.global = none) :
    resolveGlobal m s r =
      let found := searchOutside m s r
      ⟨found.value, { found.state with global := some found.value }, found.events⟩ := by
  simp only [resolveGlobal, searchOutside, bind_apply, get_apply, h]
  split
  · simp only [bind_apply]
    cases (locateGlobal m s r).value <;> simp
  · simp

/-- A search for a document changes nothing but which bundled formatter is
remembered. -/
theorem exists_locate_state (m : Machine) (path : Path) (s : ResolverSettings) (r : Resolver) :
    ∃ b, (locate m path s r).state = { r with bundledHandle := b } := by
  unfold locate
  rw [bind_apply, locateLocal_value, locateLocal_state]
  cases r.localHandle? m path s with
  | some h => exact ⟨r.bundledHandle, rfl⟩
  | none =>
    dsimp only
    split
    · exact ⟨r.bundledHandle, rfl⟩
    · exact ⟨_, loadBundled_state⟩

end Looks

/-! ## §3 Slots -/

/-- What a slot holds: a formatter, none that was looked for in vain, or
nothing yet. -/
def remembered? (r : Resolver) : Slot → Option (Option Handle)
  | .project root => r.cached? root
  | .outside => r.global

section Slots

variable {r : Resolver} {slot : Slot} {answer : Option Handle}

theorem Slot.eq_or_beq {a b : Slot} (h : (a == b) = true) :
    (∃ p q, a = .project p ∧ b = .project q ∧ (p == q) = true) ∨ a = .outside ∧ b = .outside := by
  cases a with
  | project p =>
    cases b with
    | project q => exact .inl ⟨p, q, rfl, rfl, h⟩
    | outside => cases h
  | outside =>
    cases b with
    | project q => cases h
    | outside => exact .inr ⟨rfl, rfl⟩

/-- Spellings of one project are below a directory alike. -/
theorem notBelow_congr (dir p q : Path) (h : (p == q) = true) :
    (!p.startsWith dir) = !q.startsWith dir :=
  congrArg (! ·) (Path.startsWith_congr h dir)

theorem remembered?_congr {slot' : Slot} (h : (slot' == slot) = true) :
    r.remembered? slot' = r.remembered? slot := by
  obtain ⟨p, q, rfl, rfl, hpq⟩ | ⟨rfl, rfl⟩ := Slot.eq_or_beq h
  · exact Table.find?_congr _ hpq
  · rfl

/-- A look leaves its answer in its slot. -/
theorem remembered?_run {o : Occasion} (h : o.slot? = some slot) (r : Resolver) :
    (o.run r).state.remembered? slot = some (o.run r).value := by
  obtain ⟨m, a⟩ := o
  cases a with
  | resolve path s =>
    cases h
    exact cached?_resolve m s r path
  | require path s =>
    cases h
    unfold Occasion.run
    rw [run_require]
    exact cached?_resolve m s r path
  | resolveGlobal s =>
    cases h
    exact global_resolveGlobal m s r
  | _ => cases h

/-- **A slot that is filled answers**: nothing is searched, loaded or
changed. -/
theorem run_of_remembered {o : Occasion} (h : o.slot? = some slot)
    (hr : r.remembered? slot = some answer) : o.run r = ⟨answer, r, []⟩ := by
  obtain ⟨m, a⟩ := o
  cases a with
  | resolve path s =>
    cases h
    exact resolve_of_cached hr
  | require path s =>
    cases h
    unfold Occasion.run
    rw [run_require]
    exact resolve_of_cached hr
  | resolveGlobal s =>
    cases h
    exact resolveGlobal_of_global hr
  | _ => cases h

/-- **A slot that is empty is filled by a search.** -/
theorem run_of_forgotten {o : Occasion} (h : o.slot? = some slot)
    (hr : r.remembered? slot = none) :
    (o.run r).value = (o.search r).value ∧ (o.search r).events <+: (o.run r).events := by
  obtain ⟨m, a⟩ := o
  have hresolve : ∀ path s, r.cached? (cacheKey m path) = none →
      (resolve m path s r).value = (locate m path s r).value ∧
        (locate m path s r).events <+: (resolve m path s r).events := by
    intro path s hc
    rw [resolve_of_uncached hc]
    exact ⟨rfl, List.prefix_append ..⟩
  cases a with
  | resolve path s =>
    cases h
    exact hresolve path s hr
  | require path s =>
    cases h
    unfold Occasion.run
    rw [run_require]
    exact hresolve path s hr
  | resolveGlobal s =>
    cases h
    unfold Occasion.run
    rw [Action.run, resolveGlobal_of_none hr]
    exact ⟨rfl, List.prefix_rfl⟩
  | _ => cases h

/-- A look for a document changes no other slot. -/
theorem remembered?_resolve {m : Machine} {path : Path} {s : ResolverSettings}
    (h : (Slot.project (cacheKey m path) == slot) = false) :
    (resolve m path s r).state.remembered? slot = r.remembered? slot := by
  cases hc : r.cached? (cacheKey m path) with
  | some known => rw [resolve_of_cached hc]
  | none =>
    obtain ⟨b, hs⟩ := exists_locate_state m path s r
    rw [resolve_of_uncached hc]
    cases slot with
    | project root =>
      have hne : (cacheKey m path == root) = false := h
      simp [remembered?, cached?, hs, Table.find?_insert, hne]
    | outside => simp [remembered?, hs]

/-- An order that covers a slot empties it. -/
theorem remembered?_run_of_covers {o : Occasion} (hc : o.action.covers slot = true)
    (r : Resolver) : (o.run r).state.remembered? slot = none := by
  obtain ⟨m, a⟩ := o
  cases a with
  | invalidate project =>
    cases slot with
    | project root =>
      have hsame : (project == root) = true := BEq.comm.trans hc
      exact (Table.find?_erase r.cache project root).trans (if_pos hsame)
    | outside => cases hc
  | invalidateTree dir =>
    cases slot with
    | project root =>
      have hgone : ¬ (!root.startsWith dir) = true := by
        simpa using (show root.startsWith dir = true from hc)
      exact (Table.find?_filterKeys (notBelow_congr dir) root).trans (if_neg hgone)
    | outside => cases hc
  | invalidateGlobal =>
    cases slot with
    | project root => cases hc
    | outside => rfl
  | invalidateAll => cases slot <;> rfl
  | _ => cases slot <;> cases hc

/-- What a slot holds stays until an order covers it. -/
theorem remembered?_run_of_not_covers {o : Occasion} (hr : r.remembered? slot = some answer)
    (hc : o.action.covers slot = false) : (o.run r).state.remembered? slot = some answer := by
  by_cases hs : ∃ slot', o.slot? = some slot' ∧ (slot' == slot) = true
  · obtain ⟨slot', ho, hb⟩ := hs
    rw [run_of_remembered ho ((remembered?_congr hb).trans hr)]
    exact hr
  have hother : ∀ slot', o.slot? = some slot' → (slot' == slot) = false := fun slot' ho =>
    Bool.eq_false_iff.mpr fun hb => hs ⟨slot', ho, hb⟩
  obtain ⟨m, a⟩ := o
  cases a with
  | resolve path s => exact (remembered?_resolve (hother _ rfl)).trans hr
  | require path s =>
    unfold Occasion.run
    rw [run_require]
    exact (remembered?_resolve (hother _ rfl)).trans hr
  | resolveGlobal s =>
    cases slot with
    | project root =>
      have hk := keeps_resolveGlobal m s r
      exact (congrArg (Table.find? · root) hk).trans hr
    | outside => cases hother _ rfl
  | invalidate project =>
    cases slot with
    | project root =>
      have hne : (project == root) = false := BEq.comm.trans hc
      show (r.cache.erase project).find? root = some answer
      rw [Table.find?_erase, hne]
      exact hr
    | outside => exact hr
  | invalidateTree dir =>
    cases slot with
    | project root =>
      have hkept : (!root.startsWith dir) = true := congrArg (! ·) hc
      show (r.cache.filterKeys _).find? root = some answer
      rw [Table.find?_filterKeys (notBelow_congr dir), if_pos hkept]
      exact hr
    | outside => exact hr
  | invalidateGlobal =>
    cases slot with
    | project root => exact hr
    | outside => cases hc
  | invalidateAll => cases slot <;> cases hc

/-- It stays over every history that does not cover it. -/
theorem remembered?_after {between : List Occasion} (hr : r.remembered? slot = some answer)
    (hc : ∀ o ∈ between, o.action.covers slot = false) :
    (r.after between).remembered? slot = some answer := by
  induction between generalizing r with
  | nil => exact hr
  | cons o between ih =>
    have hstep := remembered?_run_of_not_covers hr (hc o (List.mem_cons_self ..))
    exact ih hstep fun o' ho' => hc o' (List.mem_cons_of_mem _ ho')

end Slots

/-! ## §4 The bundled formatter -/

/-- From `r` a search comes to `o`: it may set the bundled formatter that
is remembered to `b`, loads the bundled package only for that, and a
bundled formatter that it answers is `b`. -/
structure Finds (r : Resolver) (m : Machine) (o : Outcome Resolver (Option Handle))
    (b : Option Handle) : Prop where
  state : o.state = { r with bundledHandle := b }
  loads : r.bundledHandle.toList ++ bundledLoads r m o.events = b.toList
  value : ∀ h, o.value = some h → h.origin = .bundled → b = some h

section Finds

variable {r : Resolver} {m : Machine} {b : Option Handle}

/-- An operation that has nothing to do with the bundled package. -/
theorem Finds.of_state {x : Run Resolver (Option Handle)} (hs : (x r).state = r)
    (hl : bundledLoads r m (x r).events = [])
    (hv : ∀ h, (x r).value = some h → h.origin ≠ .bundled) : Finds r m (x r) r.bundledHandle where
  state := hs
  loads := by rw [hl, List.append_nil]
  value h hh ho := absurd ho (hv h hh)

theorem bundledLoads_append (es es' : List Event) :
    bundledLoads r m (es ++ es') = bundledLoads r m es ++ bundledLoads r m es' :=
  List.filterMap_append

/-- A search that goes on after another one. -/
theorem Finds.bind {x : Run Resolver (Option Handle)}
    {f : Option Handle → Run Resolver (Option Handle)} {b' : Option Handle}
    (hx : Finds r m (x r) b)
    (hf : Finds { r with bundledHandle := b } m
      (f (x r).value { r with bundledHandle := b }) b') : Finds r m ((x >>= f) r) b' where
  state := by
    rw [bind_apply, hx.state]
    exact hf.state
  loads := by
    rw [bind_apply, hx.state, bundledLoads_append, ← List.append_assoc, hx.loads]
    exact hf.loads
  value := by
    rw [bind_apply, hx.state]
    exact hf.value

/-- What is answered after a search without another look. -/
theorem Finds.pure {x : Run Resolver (Option Handle)} {h : Handle} (hx : Finds r m (x r) b)
    (hv : (x r).value = some h) :
    Finds { r with bundledHandle := b } m
      ((Pure.pure (some h) : Run Resolver (Option Handle)) { r with bundledHandle := b }) b where
  state := rfl
  loads := List.append_nil _
  value := fun h' hh' => hx.value h' (hv.trans hh')

/-- The bundled package is loaded when its formatter is not remembered. -/
theorem finds_loadBundled (m : Machine) (r : Resolver) :
    Finds r m (loadBundled m r) (loadBundled m r).value where
  state := loadBundled_state
  loads := by
    unfold loadBundled
    cases hb : r.bundledHandle with
    | some h => simp [hb, bundledLoads]
    | none =>
      cases hi : r.bundled with
      | none => simp [hb, hi, bundledLoads]
      | some i =>
        simp only [bind_apply, get_apply, hb, hi, load, emit_apply, pure_apply]
        cases hl : r.loader.load m i <;>
          simp [bundledLoads, hi, loaded, hl, Except.map, Except.toOption, Run.error]
  value := fun _ hh _ => hh

section Origins

variable (hb : ∀ i ∈ r.bundled, i.origin = .bundled)

include hb

/-- Loading a package from elsewhere is not loading the bundled one. -/
theorem bundledLoads_load {i : Install} (hi : i.origin ≠ .bundled) :
    bundledLoads r m (load m i r).events = [] := by
  have hne : r.bundled ≠ some i := fun h => hi (hb i h)
  simp [load, bundledLoads, hne]

theorem finds_locateLocal (path : Path) (s : ResolverSettings) :
    Finds r m (locateLocal m path s r) r.bundledHandle := by
  refine Finds.of_state (locateLocal_state path s) ?_ fun h hh => ?_
  · simp only [locateLocal, bind_apply, get_apply]
    cases hf : findLocal r.package m path s with
    | error e => rfl
    | ok found =>
      cases found with
      | none => rfl
      | some i =>
        have ho : i.origin ≠ .bundled := by simp [findLocal_origin hf]
        simp only [bind_apply, List.nil_append, bundledLoads_append, bundledLoads_load hb ho]
        cases (load m i r).value <;> rfl
  · rw [locateLocal_value] at hh
    simp [localHandle?_origin hh]

theorem finds_locateGlobal (s : ResolverSettings) :
    Finds r m (locateGlobal m s r) r.bundledHandle := by
  have hquiet : bundledLoads r m (GlobalInstall.find m s.packageManager r.package r).events = [] :=
    List.filterMap_eq_nil_iff.mpr fun e he => by
      obtain ⟨text, rfl⟩ := emits_findGlobal (p := fun e => ∃ text, e = .log .warn text)
        m (fun text => ⟨text, rfl⟩) s.packageManager r.package r e he
      rfl
  have hstate : (GlobalInstall.find m s.packageManager r.package r).state = r :=
    keeps_findGlobal m s.packageManager r.package r
  refine Finds.of_state (keeps_locateGlobal m s r) ?_ fun h hh => ?_
  · simp only [locateGlobal, bind_apply, get_apply, hstate, List.nil_append,
      bundledLoads_append, hquiet]
    cases hf : (GlobalInstall.find m s.packageManager r.package r).value with
    | error e => rfl
    | ok found =>
      cases found with
      | none => rfl
      | some i =>
        have ho : i.origin ≠ .bundled := by simp [findGlobal_origin hf]
        simp only [bind_apply, bundledLoads_append, bundledLoads_load hb ho]
        cases (load m i r).value <;> rfl
  · simp only [locateGlobal, bind_apply, get_apply, hstate] at hh
    cases hf : (GlobalInstall.find m s.packageManager r.package r).value with
    | error e =>
      rw [hf] at hh
      cases hh
    | ok found =>
      cases found with
      | none =>
        rw [hf] at hh
        cases hh
      | some i =>
        have ho : r.loaded m i = .ok h := by
          simp only [hf, bind_apply, load_value] at hh
          cases hl : r.loaded m i with
          | error e =>
            rw [hl] at hh
            cases hh
          | ok h' =>
            rw [hl] at hh
            cases hh
            rfl
        simp [loaded_origin ho, findGlobal_origin hf]

omit hb in
/-- A search that falls back on another one when it was in vain. -/
theorem Finds.orElse {x : Run Resolver (Option Handle)}
    {f : Option Handle → Run Resolver (Option Handle)} (hx : Finds r m (x r) b)
    (hsome : ∀ h, f (some h) = Pure.pure (some h))
    (hnone : ∀ r : Resolver, ∃ b', Finds r m (f none r) b') :
    ∃ b', Finds r m ((x >>= f) r) b' := by
  cases hv : (x r).value with
  | some h =>
    refine ⟨b, hx.bind ?_⟩
    rw [hv, hsome]
    exact hx.pure hv
  | none =>
    obtain ⟨b', hb'⟩ := hnone { r with bundledHandle := b }
    refine ⟨b', hx.bind ?_⟩
    rw [hv]
    exact hb'

theorem finds_locate (path : Path) (s : ResolverSettings) :
    ∃ b, Finds r m (locate m path s r) b := by
  refine (finds_locateLocal hb path s).orElse (fun _ => rfl) fun r => ?_
  dsimp only
  split
  · exact ⟨r.bundledHandle, Finds.of_state rfl rfl nofun⟩
  · exact ⟨_, finds_loadBundled m r⟩

theorem finds_searchOutside (s : ResolverSettings) :
    ∃ b, Finds r m (searchOutside m s r) b := by
  have hbundled : ∀ r : Resolver, ∃ b, Finds r m (loadBundled m r) b := fun r =>
    ⟨_, finds_loadBundled m r⟩
  unfold searchOutside
  split
  · exact (finds_locateGlobal hb s).orElse (fun _ => rfl) hbundled
  · exact hbundled r

end Origins

end Finds

/-! ## §5 Sharing -/

/-- The slots of a resolver that hold a bundled formatter hold the one that
is remembered. -/
structure Shares (r : Resolver) : Prop where
  shipped : ∀ i ∈ r.bundled, i.origin = .bundled
  slots : ∀ slot h, r.remembered? slot = some (some h) → h.origin = .bundled →
    r.bundledHandle = some h

/-- What one action comes to: it loads the bundled package only to remember
its formatter, and hands out no other bundled one. -/
structure Shared (r : Resolver) (o : Occasion) : Prop where
  shares : (o.run r).state.Shares
  loads : r.bundledHandle.toList ++ bundledLoads r o.machine (o.run r).events =
    (o.run r).state.bundledHandle.toList
  value : ∀ h, (o.run r).value = some h → h.origin = .bundled →
    (o.run r).state.bundledHandle = some h

section Shares

variable {r : Resolver}

theorem shares_blank {package : String} {loader : Loader} {bundled : Option Install}
    (hb : ∀ i ∈ bundled, i.origin = .bundled) : (blank package loader bundled).Shares where
  shipped := hb
  slots slot h hs := by cases slot <;> cases hs

/-- The bundled formatter that is remembered stays so. -/
theorem bundledHandle_of_loads {b : Option Handle} {loads : List Handle}
    (hl : r.bundledHandle.toList ++ loads = b.toList) {h : Handle}
    (hh : r.bundledHandle = some h) : b = some h := by
  rw [hh] at hl
  cases b with
  | none => cases hl
  | some h' => exact congrArg some (List.cons.inj hl).1.symm

/-- An action that answers and loads what a search does, and fills slots
with nothing else. -/
theorem Finds.shared {o : Occasion} {found : Outcome Resolver (Option Handle)} {b : Option Handle}
    (hs : r.Shares) (hf : Finds r o.machine found b) (hv : (o.run r).value = found.value)
    (he : bundledLoads r o.machine (o.run r).events = bundledLoads r o.machine found.events)
    (hb : (o.run r).state.bundled = r.bundled) (hh : (o.run r).state.bundledHandle = b)
    (hslots : ∀ slot h, (o.run r).state.remembered? slot = some (some h) →
      r.remembered? slot = some (some h) ∨ found.value = some h) : Shared r o where
  shares.shipped := by
    rw [hb]
    exact hs.shipped
  shares.slots slot h hslot ho := by
    rw [hh]
    rcases hslots slot h hslot with hold | hnew
    · exact bundledHandle_of_loads hf.loads (hs.slots slot h hold ho)
    · exact hf.value h hnew ho
  loads := by rw [he, hh, hf.loads]
  value h hvalue ho := by
    rw [hh]
    exact hf.value h (hv.symm.trans hvalue) ho

/-- An action that only forgets. -/
theorem shared_of_forgets {o : Occasion} {state : Resolver} (hs : r.Shares)
    (ho : o.run r = ⟨none, state, []⟩) (hb : state.bundled = r.bundled)
    (hh : state.bundledHandle = r.bundledHandle)
    (hslots : ∀ slot h, state.remembered? slot = some (some h) →
      r.remembered? slot = some (some h)) : Shared r o := by
  have hnone : Finds r o.machine ((pure none : Run Resolver (Option Handle)) r) r.bundledHandle :=
    Finds.of_state rfl rfl nofun
  refine hnone.shared hs ?_ ?_ ?_ ?_ fun slot h hslot => .inl (hslots slot h ?_) <;> simp_all

/-- A look at a slot that is filled. -/
theorem shared_of_remembered {o : Occasion} {slot : Slot} {answer : Option Handle}
    (hs : r.Shares) (ho : o.slot? = some slot) (hr : r.remembered? slot = some answer) :
    Shared r o := by
  have hknown : Finds r o.machine ((pure answer : Run Resolver (Option Handle)) r)
      r.bundledHandle :=
    ⟨rfl, List.append_nil _, fun h hh => hs.slots slot h (hr.trans (congrArg some hh))⟩
  have hrun := run_of_remembered ho hr
  refine hknown.shared hs ?_ ?_ ?_ ?_ fun slot' h hslot => .inl ?_ <;> simp_all

theorem shared_resolve (hs : r.Shares) (m : Machine) (path : Path) (s : ResolverSettings) :
    Shared r ⟨m, .resolve path s⟩ := by
  cases hc : r.cached? (cacheKey m path) with
  | some known => exact shared_of_remembered hs (o := ⟨m, .resolve path s⟩) rfl hc
  | none =>
    obtain ⟨b, hf⟩ := finds_locate hs.shipped (m := m) path s
    have hrun : Occasion.run ⟨m, .resolve path s⟩ r = _ := resolve_of_uncached hc
    refine hf.shared hs ?_ ?_ ?_ ?_ fun slot h hslot => ?_
    · rw [hrun]
    · rw [hrun, bundledLoads_append]
      split <;> exact List.append_nil _
    · rw [hrun]
      dsimp only
      rw [hf.state]
    · rw [hrun]
      dsimp only
      rw [hf.state]
    · rw [hrun] at hslot
      cases slot with
      | project root =>
        simp only [remembered?, cached?, hf.state, Table.find?_insert] at hslot
        split at hslot
        · exact .inr (Option.some.inj hslot)
        · exact .inl hslot
      | outside =>
        simp only [remembered?, hf.state] at hslot
        exact .inl hslot

theorem shared_resolveGlobal (hs : r.Shares) (m : Machine) (s : ResolverSettings) :
    Shared r ⟨m, .resolveGlobal s⟩ := by
  cases hg : r.global with
  | some known => exact shared_of_remembered hs (o := ⟨m, .resolveGlobal s⟩) rfl hg
  | none =>
    obtain ⟨b, hf⟩ := finds_searchOutside hs.shipped (m := m) s
    have hrun : Occasion.run ⟨m, .resolveGlobal s⟩ r = _ := resolveGlobal_of_none hg
    refine hf.shared hs ?_ ?_ ?_ ?_ fun slot h hslot => ?_
    · rw [hrun]
    · rw [hrun]
    · rw [hrun]
      dsimp only
      rw [hf.state]
    · rw [hrun]
      dsimp only
      rw [hf.state]
    · rw [hrun] at hslot
      cases slot with
      | project root =>
        simp only [remembered?, cached?, hf.state] at hslot
        exact .inl hslot
      | outside => exact .inr (Option.some.inj hslot)

/-- **Every action but to forget everything keeps the bundled formatter
shared.** -/
theorem shared_run (hs : r.Shares) {o : Occasion} (hn : o.action ≠ .invalidateAll) :
    Shared r o := by
  obtain ⟨m, a⟩ := o
  cases a with
  | resolve path s => exact shared_resolve hs m path s
  | require path s =>
    have hrun : Occasion.run ⟨m, .require path s⟩ = Occasion.run ⟨m, .resolve path s⟩ := run_require
    obtain ⟨hshares, hloads, hvalue⟩ := shared_resolve hs m path s
    rw [← hrun] at hshares hloads hvalue
    exact ⟨hshares, hloads, hvalue⟩
  | resolveGlobal s => exact shared_resolveGlobal hs m s
  | invalidate project =>
    refine shared_of_forgets hs rfl rfl rfl fun slot h hslot => ?_
    cases slot with
    | project root =>
      have hfind : (r.cache.erase project).find? root = some (some h) := hslot
      rw [Table.find?_erase] at hfind
      split at hfind
      · cases hfind
      · exact hfind
    | outside => exact hslot
  | invalidateTree dir =>
    refine shared_of_forgets hs rfl rfl rfl fun slot h hslot => ?_
    cases slot with
    | project root =>
      have hfind : (r.cache.filterKeys _).find? root = some (some h) := hslot
      rw [Table.find?_filterKeys (notBelow_congr dir)] at hfind
      split at hfind
      · exact hfind
      · cases hfind
    | outside => exact hslot
  | invalidateGlobal =>
    refine shared_of_forgets hs rfl rfl rfl fun slot h hslot => ?_
    cases slot with
    | project root => exact hslot
    | outside => cases hslot
  | invalidateAll => exact absurd rfl hn

/-- So does every history of such actions, and all that it hands out is what
it loaded. -/
theorem Shares.along {history : List Occasion} (hs : r.Shares)
    (hn : ∀ o ∈ history, o.action ≠ .invalidateAll) :
    r.bundledHandle.toList ++ loadsOfBundled r history =
        (r.after history).bundledHandle.toList ∧
      ∀ h ∈ handedOut r history, h.origin = .bundled →
        (r.after history).bundledHandle = some h := by
  induction history generalizing r with
  | nil => exact ⟨List.append_nil _, nofun⟩
  | cons o history ih =>
    have hstep := shared_run hs (hn o (List.mem_cons_self ..))
    obtain ⟨hloads, hvalues⟩ := ih hstep.shares fun o' ho' => hn o' (List.mem_cons_of_mem _ ho')
    refine ⟨?_, fun h hh ho => ?_⟩
    · show _ ++ (_ ++ loadsOfBundled (o.run r).state history) = _
      rw [← List.append_assoc, hstep.loads]
      exact hloads
    · rcases List.mem_append.mp hh with hh | hh
      · exact bundledHandle_of_loads hloads (hstep.value h (Option.mem_toList.mp hh) ho)
      · exact hvalues h hh ho

end Shares

/-! ## §6 Once -/

/-- **What is looked for is looked for once.** In every history of a
resolver, on machines that change as they like: an order that covers a slot
empties it, and a look at an empty slot searches. After a look at a slot,
and until an order that covers it, every later look at it is answered with
what the first one found, none included, and loads, reports and changes
nothing, whatever is on the machine by then. And unless everything is
forgotten, the bundled package is loaded with success at most once, and
every bundled formatter that is handed out, for a document or outside any
workspace, is the one of that load. -/
theorem lookups_once (package : String) (loader : Loader) (bundled : Option Install)
    (hb : ∀ i ∈ bundled, i.origin = .bundled) :
    let r := blank package loader bundled
    (∀ (before : List Occasion) (o : Occasion) (slot : Slot),
      let now := r.after before
      (o.action.covers slot = true → (o.run now).state.remembered? slot = none) ∧
      (o.slot? = some slot → now.remembered? slot = none →
        (o.run now).value = (o.search now).value ∧
          (o.search now).events <+: (o.run now).events)) ∧
    (∀ (before between : List Occasion) (first again : Occasion) (slot slot' : Slot),
      first.slot? = some slot → again.slot? = some slot' → (slot' == slot) = true →
      (∀ o ∈ between, o.action.covers slot = false) →
      let answer := (first.run (r.after before)).value
      let now := r.after (before ++ first :: between)
      again.run now = ⟨answer, now, []⟩) ∧
    ∀ history : List Occasion, (∀ o ∈ history, o.action ≠ .invalidateAll) →
      (loadsOfBundled r history).length ≤ 1 ∧
      ∀ h ∈ handedOut r history, h.origin = .bundled → loadsOfBundled r history = [h] := by
  intro r
  refine ⟨fun before o slot => ⟨?_, run_of_forgotten⟩, ?_, ?_⟩
  · exact fun hc => remembered?_run_of_covers hc _
  · intro before between first again slot slot' hfirst hagain hslot hbetween answer now
    have hnow : now = (first.run (r.after before)).state.after between := after_append ..
    have hfilled : now.remembered? slot = some answer := by
      rw [hnow]
      exact remembered?_after (remembered?_run hfirst _) hbetween
    exact run_of_remembered hagain ((remembered?_congr hslot).trans hfilled)
  · intro history hn
    obtain ⟨hloads, hvalues⟩ := (shares_blank hb).along hn
    have hall : loadsOfBundled r history = (r.after history).bundledHandle.toList := hloads
    refine ⟨?_, fun h hh ho => ?_⟩
    · rw [hall]
      exact Option.length_toList_le
    · rw [hall, hvalues h hh ho]
      rfl

/-- The package that the editor ships. -/
def shipped : Install := ⟨⟨"/editor/prettier"⟩, none, none, .bundled⟩

/-- A project that was given the shipped formatter keeps it, also for a
document next to which the package is installed, and so do documents outside
any workspace when that is looked up anew. -/
theorem lookups_once_shipped :
    let r := blank defaultPackage plainLoader (some shipped)
    let first : Occasion := ⟨nestedInstall, .resolve ⟨"/p/x.ts"⟩ {}⟩
    let outside : Occasion := ⟨nestedInstall, .resolveGlobal {}⟩
    let forget : Occasion := ⟨nestedInstall, .invalidateGlobal⟩
    let again : Occasion := ⟨nestedInstall, .require ⟨"/p/a/y.ts"⟩ {}⟩
    let between := [outside, forget, outside]
    let history := first :: (between ++ [again])
    first.slot? = some (.project ⟨"/p"⟩) ∧ again.slot? = some (.project ⟨"/p"⟩) ∧
    again.run (r.after (first :: between)) =
      ⟨(first.run r).value, r.after (first :: between), []⟩ ∧
    (handedOut r history).map identity = List.replicate 4 (.bundled, none, shipped.path) ∧
    (loadsOfBundled r history).length ≤ 1 ∧
    ∀ h ∈ handedOut r history, loadsOfBundled r history = [h] := by
  intro r first outside forget again between history
  have hb : ∀ i ∈ some shipped, i.origin = .bundled := by
    rintro i ⟨⟩
    rfl
  have hfirst : first.slot? = some (.project ⟨"/p"⟩) := by
    have hkey : cacheKey nestedInstall ⟨"/p/x.ts"⟩ = ⟨"/p"⟩ := by decide +kernel
    exact congrArg (some ∘ Slot.project) hkey
  have hagain : again.slot? = some (.project ⟨"/p"⟩) := by
    have hkey : cacheKey nestedInstall ⟨"/p/a/y.ts"⟩ = ⟨"/p"⟩ := by decide +kernel
    exact congrArg (some ∘ Slot.project) hkey
  have hall : ∀ o ∈ history, o.action ≠ .invalidateAll := by
    simp [history, between, first, outside, forget, again]
  have hbetween : ∀ o ∈ between, o.action.covers (.project ⟨"/p"⟩) = false := by
    simp [between, outside, forget, Action.covers]
  have hanswers : (handedOut r history).map identity =
      List.replicate 4 (.bundled, none, shipped.path) := by
    decide +kernel
  obtain ⟨-, honce, hbundled⟩ := lookups_once defaultPackage plainLoader (some shipped) hb
  obtain ⟨hloads, hshared⟩ := hbundled history hall
  refine ⟨hfirst, hagain, ?_, hanswers, hloads, fun h hh => hshared h hh ?_⟩
  · exact honce [] between first again _ _ hfirst hagain (Path.beq_refl _) hbetween
  · have hmem : identity h ∈ List.replicate 4 (.bundled, none, shipped.path) := by
      rw [← hanswers]
      exact List.mem_map_of_mem hh
    exact congrArg Prod.fst (List.eq_of_mem_replicate hmem)

end FormatHost.Resolver
