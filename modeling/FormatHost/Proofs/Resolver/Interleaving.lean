/-
FormatHost.Proofs.Resolver.Interleaving — what is remembered for projects
while calls and orders to forget it are at work at the same time.

A call for the formatter of a document takes up to three steps: it looks at
what is remembered for the project, searches if that is nothing, and
remembers what it found. A search with all that it loads is one step, and so
is an order to forget. Between the steps of a call there may be any steps of
others and any orders, and the files change as they like.

A call that has searched before an order and remembers what it found after
it brings back what the order was to make forgotten. Nothing else does:
`Renewed` is the invariant that says so. What a search loads is another
matter. The bundled formatter is loaded once for all projects, so a search
may find one that was loaded long before it; `Stocked` is the invariant that
says where a formatter comes from.

* §1 scenes, and the steps, which are the operations of the resolver;
* §2 without interruption the steps are `resolve`;
* §3 what a step does to each part of a scene;
* §4 `Renewed`: answers come of searches after the order;
* §5 `Stocked`: formatters were loaded by such a search;
* §6 `answers_after_order`.
-/
import FormatHost.Proofs.Resolver.Loading
import Mathlib.Data.List.Induction

namespace FormatHost.Resolver

open Run

/-! ## §1 Steps -/

/-- An order to forget what is remembered for projects. -/
inductive Order
  | project (root : Path)
  | tree (dir : Path)
  | all
  deriving DecidableEq

namespace Order

def run : Order → Run Resolver Unit
  | .project root => invalidate root
  | .tree dir => invalidateTree dir
  | .all => invalidateAll

def covers : Order → Path → Bool
  | .project p, root => p == root
  | .tree dir, root => root.startsWith dir
  | .all, _ => true

end Order

/-- Among events on a machine is that a formatter was loaded. -/
def Loads (r : Resolver) (m : Machine) (es : List Event) (h : Handle) : Prop :=
  ∃ i, .load i ∈ es ∧ r.loaded m i = .ok h

/-- A search that a call has made, with what it went by. -/
structure Search where
  project : Path
  path : Path
  settings : ResolverSettings
  machine : Machine
  resolver : Resolver
  /-- How many steps were made before it. -/
  turn : Nat

namespace Search

def outcome (q : Search) : Outcome Resolver (Option Handle) :=
  locate q.machine q.path q.settings q.resolver

def answer (q : Search) : Option Handle := q.outcome.value

/-- The search has loaded a formatter. -/
def Loaded (q : Search) (h : Handle) : Prop := q.resolver.Loads q.machine q.outcome.events h

end Search

/-- How far a call for the formatter of a document has come. -/
inductive Stage
  /-- Nothing was remembered for the project, and the search is to be made. -/
  | missed (project path : Path) (s : ResolverSettings)
  /-- The search was made, and nothing of it is remembered yet. -/
  | found (q : Search)
  /-- The answer, and the search that it is from; none when it was
  remembered from the start. -/
  | answered (project : Path) (answer : Option Handle) (origin : Option Search)

def Stage.project : Stage → Path
  | .missed project _ _ => project
  | .found q => q.project
  | .answered project _ _ => project

/-- A resolver, with the calls that are at work on it. -/
structure Scene where
  resolver : Resolver
  calls : Nat → Option Stage := fun _ => none
  /-- The search that is remembered for a project. -/
  origin : Path → Option Search := fun _ => none
  /-- The searches that were made. -/
  searches : List Search := []
  /-- How many steps were made. -/
  turns : Nat := 0

/-- One step of a call, or an order. -/
inductive Turn
  | look (call : Nat) (m : Machine) (path : Path) (s : ResolverSettings)
  | search (call : Nat) (m : Machine)
  | store (call : Nat)
  | forget (o : Order)

namespace Scene

/-- A call goes on to a stage. -/
def go (x : Scene) (call : Nat) (st : Stage) : Scene :=
  { x with calls := Function.update x.calls call (some st) }

/-- What a step changes. A call is for one document; a step for which it is
not ready changes nothing. -/
def act (x : Scene) : Turn → Scene
  | .look call m path s =>
    let project := cacheKey m path
    match x.calls call, x.resolver.cached? project with
    | some _, _ => x
    | none, some answer => x.go call (.answered project answer (x.origin project))
    | none, none => x.go call (.missed project path s)
  | .search call m =>
    match x.calls call with
    | some (.missed project path s) =>
      let q : Search := ⟨project, path, s, m, x.resolver, x.turns⟩
      { x.go call (.found q) with
        resolver := q.outcome.state
        searches := x.searches ++ [q] }
    | _ => x
  | .store call =>
    match x.calls call with
    | some (.found q) =>
      { x.go call (.answered q.project q.answer (some q)) with
        resolver := (Resolver.store q.project q.answer x.resolver).state
        origin := fun project => if q.project == project then some q else x.origin project }
    | _ => x
  | .forget o => { x with resolver := (o.run x.resolver).state }

def step (x : Scene) (t : Turn) : Scene := { x.act t with turns := x.turns + 1 }

/-- Make the steps of an interleaving, in order. -/
def run (x : Scene) (turns : List Turn) : Scene := turns.foldl step x

theorem run_concat (x : Scene) (turns : List Turn) (t : Turn) :
    x.run (turns ++ [t]) = (x.run turns).step t := by
  simp only [run, List.foldl_append, List.foldl_cons, List.foldl_nil]

theorem turns_run (r : Resolver) (turns : List Turn) :
    (run { resolver := r } turns).turns = turns.length := by
  induction turns using List.reverseRecOn with
  | nil => rfl
  | append_singleton turns t ih =>
    rw [run_concat, List.length_append]
    exact congrArg (· + 1) ih

end Scene

/-! ## §2 Without interruption -/

/-- The steps of a call, one right after the other, are `resolve`. -/
theorem run_call (x : Scene) {call : Nat} (h : x.calls call = none) (m : Machine) (path : Path)
    (s : ResolverSettings) :
    let y := x.run [.look call m path s, .search call m, .store call]
    y.resolver = (resolve m path s x.resolver).state ∧
      ∃ origin, y.calls call =
        some (.answered (cacheKey m path) (resolve m path s x.resolver).value origin) := by
  simp only [Scene.run, List.foldl_cons, List.foldl_nil]
  cases hc : x.resolver.cached? (cacheKey m path) with
  | some answer =>
    rw [resolve_of_cached hc]
    simp [Scene.step, Scene.act, Scene.go, h, hc]
  | none =>
    rw [resolve_of_uncached hc]
    simp [Scene.step, Scene.act, Scene.go, h, hc, Search.answer, Search.outcome,
      Resolver.store, Run.modify]

/-! ## §3 What a step does -/

section Locate

variable {r : Resolver} {m : Machine} {path : Path} {s : ResolverSettings} {h : Handle}

/-- To load a package is an event. -/
theorem mem_events_load (i : Install) : .load i ∈ (load m i r).events := by simp [load]

theorem loaded_of_locateLocal (hh : (locateLocal m path s r).value = some h) :
    r.Loads m (locateLocal m path s r).events h := by
  rw [locateLocal_value] at hh
  simp only [localHandle?] at hh
  split at hh
  · rename_i i hi
    refine ⟨i, ?_, ?_⟩
    · simp only [locateLocal, bind_apply, get_apply, hi]
      exact List.mem_append_right _ (List.mem_append_left _ (mem_events_load i))
    · exact eq_ok_of_toOption hh
  · cases hh

theorem loaded_of_loadBundled (hh : (loadBundled m r).value = some h) :
    r.bundledHandle = some h ∨ r.Loads m (loadBundled m r).events h := by
  unfold loadBundled at hh ⊢
  cases hb : r.bundledHandle with
  | some b => exact .inl (by simpa [hb] using hh)
  | none =>
    cases hi : r.bundled with
    | none => simp [hb, hi] at hh
    | some i =>
      refine .inr ⟨i, ?_, ?_⟩
      · simp only [bind_apply, get_apply, hb, hi]
        exact List.mem_append_right _ (List.mem_append_left _ (mem_events_load i))
      · simp only [bind_apply, get_apply, hb, hi, load_value] at hh
        cases hl : r.loaded m i with
        | ok h' => simpa [hl] using hh
        | error e => simp [hl, Run.error] at hh

/-- A formatter that a search finds, or after which it is remembered as the
bundled one, was so before, or the search has loaded it. -/
theorem loaded_of_locate (hh : (locate m path s r).value = some h ∨
      (locate m path s r).state.bundledHandle = some h) :
    r.bundledHandle = some h ∨ r.Loads m (locate m path s r).events h := by
  unfold locate at hh ⊢
  rw [bind_apply, locateLocal_state] at hh ⊢
  cases hl : (locateLocal m path s r).value with
  | some found =>
    rw [hl] at hh
    rcases hh with hh | hh
    · obtain ⟨i, hi, hload⟩ := loaded_of_locateLocal (hl.trans hh)
      exact .inr ⟨i, List.mem_append_left _ hi, hload⟩
    · exact .inl hh
  | none =>
    rw [hl] at hh
    dsimp only at hh ⊢
    split at hh
    · rcases hh with hh | hh
      · cases hh
      · exact .inl hh
    · rw [if_neg ‹_›]
      -- what is remembered as the bundled formatter is what is answered
      rw [loadBundled_state, or_self] at hh
      rcases loaded_of_loadBundled hh with hb | ⟨i, hi, hload⟩
      · exact .inl hb
      · exact .inr ⟨i, List.mem_append_right _ hi, hload⟩

end Locate

theorem cached?_store (project : Path) (answer : Option Handle) (r : Resolver) (root : Path) :
    (store project answer r).state.cached? root =
      if project == root then some answer else r.cached? root :=
  Table.find?_insert r.cache project answer root

/-- What is remembered for a project after an order. -/
theorem Order.cached?_run (o : Order) (r : Resolver) (root : Path) :
    (o.run r).state.cached? root = if o.covers root then none else r.cached? root := by
  cases o with
  | project p => exact Table.find?_erase r.cache p root
  | tree dir =>
    refine (Table.find?_filterKeys (notBelow_congr dir) root).trans ?_
    by_cases hb : root.startsWith dir = true <;> simp [covers, hb, cached?]
  | all => rfl

/-- Only an order to forget all makes the bundled formatter forgotten. -/
theorem Order.bundledHandle_run (o : Order) (r : Resolver) :
    (o.run r).state.bundledHandle = if o = .all then none else r.bundledHandle := by
  cases o <;> rfl

/-- How a call comes to a stage. -/
inductive Enters (x : Scene) : Turn → Nat → Stage → Prop
  | recalled {call : Nat} (m : Machine) (path : Path) (s : ResolverSettings)
      {answer : Option Handle} (h : x.resolver.cached? (cacheKey m path) = some answer) :
      Enters x (.look call m path s) call
        (.answered (cacheKey m path) answer (x.origin (cacheKey m path)))
  | missed {call : Nat} (m : Machine) (path : Path) (s : ResolverSettings) :
      Enters x (.look call m path s) call (.missed (cacheKey m path) path s)
  | found {call : Nat} {m : Machine} {project path : Path} {s : ResolverSettings}
      (h : x.calls call = some (.missed project path s)) :
      Enters x (.search call m) call (.found ⟨project, path, s, m, x.resolver, x.turns⟩)
  | stored {call : Nat} {q : Search} (h : x.calls call = some (.found q)) :
      Enters x (.store call) call (.answered q.project q.answer (some q))

section Step

variable {x : Scene} {t : Turn}

theorem calls_go {call call' : Nat} {st st' : Stage} (h : (x.go call st).calls call' = some st') :
    x.calls call' = some st' ∨ call' = call ∧ st' = st :=
  (some_of_update h).imp_right fun ⟨hcall, hst⟩ => ⟨hcall, (Option.some.inj hst).symm⟩

theorem calls_step {call : Nat} {st : Stage} (h : (x.step t).calls call = some st) :
    x.calls call = some st ∨ Enters x t call st := by
  cases t with
  | look call' m path s =>
    simp only [Scene.step, Scene.act] at h
    split at h
    · exact .inl h
    · obtain h | ⟨rfl, rfl⟩ := calls_go h
      · exact .inl h
      · exact .inr (.recalled m path s ‹_›)
    · obtain h | ⟨rfl, rfl⟩ := calls_go h
      · exact .inl h
      · exact .inr (.missed m path s)
  | search call' m =>
    simp only [Scene.step, Scene.act] at h
    split at h
    · obtain h | ⟨rfl, rfl⟩ := calls_go h
      · exact .inl h
      · exact .inr (.found ‹_›)
    · exact .inl h
  | store call' =>
    simp only [Scene.step, Scene.act] at h
    split at h
    · obtain h | ⟨rfl, rfl⟩ := calls_go h
      · exact .inl h
      · exact .inr (.stored ‹_›)
    · exact .inl h
  | forget o => exact .inl h

/-- What is remembered for a project was so before, or a call has found it. -/
theorem cached?_step {root : Path} {answer : Option Handle}
    (h : (x.step t).resolver.cached? root = some answer) :
    (x.resolver.cached? root = some answer ∧ (x.step t).origin root = x.origin root) ∨
      ∃ call q, x.calls call = some (.found q) ∧ (q.project == root) = true ∧
        answer = q.answer ∧ (x.step t).origin root = some q := by
  revert h
  cases t with
  | look call m path s =>
    simp only [Scene.step, Scene.act]
    split <;> exact fun h => .inl ⟨h, rfl⟩
  | search call m =>
    simp only [Scene.step, Scene.act]
    split
    · intro h
      obtain ⟨b, hs⟩ := exists_locate_state m ‹_› ‹_› x.resolver
      dsimp only [Search.outcome] at h
      rw [hs] at h
      exact .inl ⟨h, rfl⟩
    · exact fun h => .inl ⟨h, rfl⟩
  | store call =>
    simp only [Scene.step, Scene.act]
    split
    · rename_i q hq
      intro h
      rw [cached?_store] at h
      split at h
      · exact .inr ⟨call, q, hq, ‹_›, (Option.some.inj h).symm, if_pos ‹_›⟩
      · exact .inl ⟨h, if_neg ‹_›⟩
    · exact fun h => .inl ⟨h, rfl⟩
  | forget o =>
    intro h
    have hkept : (o.run x.resolver).state.cached? root = some answer := h
    rw [o.cached?_run] at hkept
    split at hkept
    · cases hkept
    · exact .inl ⟨hkept, rfl⟩

/-- The bundled formatter that is remembered was so before, or a search has
come to it. -/
theorem bundledHandle_step {h : Handle} (hh : (x.step t).resolver.bundledHandle = some h) :
    x.resolver.bundledHandle = some h ∨
      ∃ q ∈ (x.step t).searches, q.turn = x.turns ∧ q.resolver = x.resolver ∧
        q.outcome.state.bundledHandle = some h := by
  revert hh
  cases t with
  | look call m path s =>
    simp only [Scene.step, Scene.act]
    split <;> exact .inl
  | search call m =>
    simp only [Scene.step, Scene.act]
    split
    · exact fun hh => .inr ⟨_, List.mem_append_right _ (List.mem_singleton_self _), rfl, rfl, hh⟩
    · exact .inl
  | store call =>
    simp only [Scene.step, Scene.act]
    split <;> exact .inl
  | forget o =>
    intro hh
    have hkept : (o.run x.resolver).state.bundledHandle = some h := hh
    rw [o.bundledHandle_run] at hkept
    split at hkept
    · cases hkept
    · exact .inl hkept

/-- A step makes one search at the most. -/
theorem searches_step (x : Scene) (t : Turn) :
    (x.step t).searches = x.searches ∨
      ∃ call m project path s, t = .search call m ∧
        x.calls call = some (.missed project path s) ∧
        (x.step t).searches = x.searches ++ [⟨project, path, s, m, x.resolver, x.turns⟩] := by
  cases t with
  | look call m path s =>
    simp only [Scene.step, Scene.act]
    split <;> exact .inl rfl
  | search call m =>
    simp only [Scene.step, Scene.act]
    split
    · exact .inr ⟨call, m, _, _, _, rfl, ‹_›, rfl⟩
    · exact .inl rfl
  | store call =>
    simp only [Scene.step, Scene.act]
    split <;> exact .inl rfl
  | forget o => exact .inl rfl

theorem mem_searches_step {q : Search} (h : q ∈ x.searches) : q ∈ (x.step t).searches := by
  obtain hs | ⟨_, _, _, _, _, -, -, hs⟩ := searches_step x t
  · rwa [hs]
  · rw [hs]
    exact List.mem_append_left _ h

/-- A search was made before a step, or is made by it. -/
theorem of_mem_searches_step {q : Search} (h : q ∈ (x.step t).searches) :
    q ∈ x.searches ∨ q.turn = x.turns ∧ q.resolver = x.resolver ∧
      ∃ call, t = .search call q.machine ∧
        x.calls call = some (.missed q.project q.path q.settings) := by
  obtain hs | ⟨call, m, project, path, s, ht, hc, hs⟩ := searches_step x t
  · exact .inl (hs ▸ h)
  · rw [hs, List.mem_append, List.mem_singleton] at h
    obtain h | rfl := h
    · exact .inl h
    · exact .inr ⟨rfl, rfl, call, ht, hc⟩

end Step

/-- **The searches of a scene are those that its steps have made**, each
with what the scene was when its turn came. -/
theorem search_of_mem {r : Resolver} {turns : List Turn} {q : Search}
    (hq : q ∈ (Scene.run { resolver := r } turns).searches) :
    ∃ before call, before ++ [.search call q.machine] <+: turns ∧ q.turn = before.length ∧
      q.resolver = (Scene.run { resolver := r } before).resolver ∧
      (Scene.run { resolver := r } before).calls call =
        some (.missed q.project q.path q.settings) := by
  induction turns using List.reverseRecOn with
  | nil => cases hq
  | append_singleton turns t ih =>
    rw [Scene.run_concat] at hq
    obtain hq | ⟨ht, hr, call, rfl, hc⟩ := of_mem_searches_step hq
    · obtain ⟨before, call, hp, h⟩ := ih hq
      exact ⟨before, call, hp.trans (List.prefix_append ..), h⟩
    · exact ⟨turns, call, List.prefix_rfl, ht.trans (Scene.turns_run ..), hr, hc⟩

theorem turn_lt_of_mem {r : Resolver} {turns : List Turn} {q : Search}
    (hq : q ∈ (Scene.run { resolver := r } turns).searches) :
    q.turn < (Scene.run { resolver := r } turns).turns := by
  obtain ⟨before, call, hp, ht, -⟩ := search_of_mem hq
  have hlen := hp.length_le
  rw [List.length_append, List.length_singleton] at hlen
  rw [Scene.turns_run, ht]
  exact hlen

/-! ## §4 Answers -/

/-- A search for a project that was made since, or one that a call had made
by then and not remembered yet. -/
def Late (y : Scene) (root : Path) (x : Scene) (q : Search) : Prop :=
  (q.project == root) = true ∧
    ((∃ call, y.calls call = some (.found q)) ∨ q ∈ x.searches ∧ y.turns ≤ q.turn)

/-- The invariant of what comes after `y`, in which nothing is remembered
for a project: what is remembered for it then, and what calls find and
answer, comes of late searches. -/
structure Renewed (y : Scene) (root : Path) (turns : List Turn) (x : Scene) : Prop where
  later : y.turns ≤ x.turns
  remembered : ∀ project answer, (project == root) = true →
    x.resolver.cached? project = some answer →
    ∃ q, x.origin project = some q ∧ answer = q.answer ∧ Late y root x q
  found : ∀ call q, x.calls call = some (.found q) → (q.project == root) = true → Late y root x q
  answered : ∀ call project answer origin, y.calls call = none →
    x.calls call = some (.answered project answer origin) → (project == root) = true →
    ∃ q, origin = some q ∧ answer = q.answer ∧ Late y root x q
  asked : ∀ call st, y.calls call = none → x.calls call = some st →
    ∃ m path s, .look call m path s ∈ turns ∧ st.project = cacheKey m path

section Renewed

variable {y x : Scene} {root : Path} {turns : List Turn}

theorem Late.step {q : Search} (h : Late y root x q) (t : Turn) : Late y root (x.step t) q := by
  obtain ⟨hroot, hflight | ⟨hmem, hturn⟩⟩ := h
  · exact ⟨hroot, .inl hflight⟩
  · exact ⟨hroot, .inr ⟨mem_searches_step hmem, hturn⟩⟩

theorem renewed_start (hy : y.resolver.cached? root = none) : Renewed y root [] y where
  later := Nat.le_refl _
  remembered project answer hp hc := by
    have hsame : y.resolver.cached? project = y.resolver.cached? root := Table.find?_congr _ hp
    rw [hsame, hy] at hc
    cases hc
  found call q hq hp := ⟨hp, .inl ⟨call, hq⟩⟩
  answered call project answer origin hn ha := by
    rw [hn] at ha
    cases ha
  asked call st hn hs := by
    rw [hn] at hs
    cases hs

/-- **Every step keeps to late searches.** -/
theorem Renewed.step (h : Renewed y root turns x) (t : Turn) :
    Renewed y root (turns ++ [t]) (x.step t) where
  later := Nat.le_succ_of_le h.later
  remembered project answer hp hc := by
    obtain ⟨hc, ho⟩ | ⟨call, q, hq, hproject, ha, ho⟩ := cached?_step hc
    · obtain ⟨q, hq, ha, hl⟩ := h.remembered project answer hp hc
      exact ⟨q, ho.trans hq, ha, hl.step t⟩
    · exact ⟨q, ho, ha, (h.found call q hq (PartialEquivBEq.trans hproject hp)).step t⟩
  found call q hq hp := by
    obtain hq | he := calls_step hq
    · exact (h.found call q hq hp).step t
    · cases he with
      | found hc =>
        -- the step makes the search, so it is late by its turn
        refine ⟨hp, .inr ⟨?_, h.later⟩⟩
        simp [Scene.step, Scene.act, hc]
  answered call project answer origin hn ha hp := by
    obtain ha | he := calls_step ha
    · obtain ⟨q, hq, ha, hl⟩ := h.answered call project answer origin hn ha hp
      exact ⟨q, hq, ha, hl.step _⟩
    · cases he with
      | recalled m path s hc =>
        obtain ⟨q, hq, ha, hl⟩ := h.remembered (cacheKey m path) answer hp hc
        exact ⟨q, hq, ha, hl.step _⟩
      | stored hq => exact ⟨_, rfl, rfl, (h.found call _ hq hp).step _⟩
  asked call st hn hs := by
    -- a call stays with the project that it looked for
    have hkept : ∀ st', x.calls call = some st' → st'.project = st.project →
        ∃ m path s, .look call m path s ∈ turns ++ [t] ∧ st.project = cacheKey m path := by
      intro st' hs' hp
      obtain ⟨m, path, s, hmem, hkey⟩ := h.asked call st' hn hs'
      exact ⟨m, path, s, List.mem_append_left _ hmem, hp.symm.trans hkey⟩
    obtain hs | he := calls_step hs
    · exact hkept st hs rfl
    · have hlast : t ∈ turns ++ [t] := List.mem_append_right _ (List.mem_singleton_self t)
      cases he with
      | recalled m path s => exact ⟨m, path, s, hlast, by simp only [Stage.project]⟩
      | missed m path s => exact ⟨m, path, s, hlast, by simp only [Stage.project]⟩
      | found hc => exact hkept _ hc rfl
      | stored hq => exact hkept _ hq rfl

/-- So does every interleaving. -/
theorem renewed_run (hy : y.resolver.cached? root = none) (turns : List Turn) :
    Renewed y root turns (y.run turns) := by
  induction turns using List.reverseRecOn with
  | nil => exact renewed_start hy
  | append_singleton turns t ih =>
    rw [Scene.run_concat]
    exact ih.step t

end Renewed

/-! ## §5 Formatters -/

/-- A formatter that was the bundled one by then, or that a search has
loaded since. -/
def Stock (y x : Scene) (h : Handle) : Prop :=
  y.resolver.bundledHandle = some h ∨ ∃ q ∈ x.searches, y.turns ≤ q.turn ∧ q.Loaded h

/-- The invariant of what comes after `y`: the formatters that are found
then, and the bundled one, are of the stock. -/
structure Stocked (y x : Scene) : Prop where
  later : y.turns ≤ x.turns
  bundled : ∀ h, x.resolver.bundledHandle = some h → Stock y x h
  answers : ∀ q ∈ x.searches, y.turns ≤ q.turn → ∀ h, q.answer = some h → Stock y x h

section Stocked

variable {y x : Scene}

theorem Stock.step {h : Handle} (hs : Stock y x h) (t : Turn) : Stock y (x.step t) h := by
  obtain hb | ⟨q, hmem, hturn, hload⟩ := hs
  · exact .inl hb
  · exact .inr ⟨q, mem_searches_step hmem, hturn, hload⟩

/-- What a search comes to is of the stock when the bundled formatter that
it starts with is. -/
theorem Stocked.stock_of_search (hx : Stocked y x) {t : Turn} {q : Search}
    (hmem : q ∈ (x.step t).searches) (ht : q.turn = x.turns) (hr : q.resolver = x.resolver)
    {h : Handle} (hh : q.answer = some h ∨ q.outcome.state.bundledHandle = some h) :
    Stock y (x.step t) h := by
  obtain hb | hload := loaded_of_locate hh
  · rw [hr] at hb
    exact (hx.bundled h hb).step t
  · exact .inr ⟨q, hmem, ht ▸ hx.later, hload⟩

/-- **Every step keeps to the stock.** -/
theorem Stocked.step (hx : Stocked y x) (t : Turn) : Stocked y (x.step t) where
  later := Nat.le_succ_of_le hx.later
  bundled h hh := by
    obtain hb | ⟨q, hmem, ht, hr, hh⟩ := bundledHandle_step hh
    · exact (hx.bundled h hb).step t
    · exact hx.stock_of_search hmem ht hr (.inr hh)
  answers q hmem hturn h hh := by
    obtain hold | ⟨ht, hr, -⟩ := of_mem_searches_step hmem
    · exact (hx.answers q hold hturn h hh).step t
    · exact hx.stock_of_search hmem ht hr (.inl hh)

/-- So does every interleaving. -/
theorem stocked_run (hy : ∀ q ∈ y.searches, q.turn < y.turns) (turns : List Turn) :
    Stocked y (y.run turns) := by
  induction turns using List.reverseRecOn with
  | nil =>
    exact ⟨Nat.le_refl _, fun _ => .inl, fun q hq hturn =>
      absurd hturn (Nat.not_le_of_lt (hy q hq))⟩
  | append_singleton turns t ih =>
    rw [Scene.run_concat]
    exact ih.step t

end Stocked

/-! ## §6 After an order -/

/-- An order makes forgotten what it covers. -/
theorem cached?_run_forget (x : Scene) (turns : List Turn) {o : Order} {project : Path}
    (h : o.covers project = true) :
    (x.run (turns ++ [.forget o])).resolver.cached? project = none := by
  rw [Scene.run_concat]
  exact (o.cached?_run _ project).trans (if_pos h)

/-- Only the order to forget all takes the bundled formatter along. -/
theorem ne_all_of_bundledHandle {x : Scene} {turns : List Turn} {o : Order} {h : Handle}
    (hb : (x.run (turns ++ [.forget o])).resolver.bundledHandle = some h) : o ≠ .all := by
  rintro rfl
  have hnone : (x.run (turns ++ [.forget .all])).resolver.bundledHandle = none := by
    rw [Scene.run_concat]
    exact Order.bundledHandle_run .all _
  rw [hnone] at hb
  cases hb

/-- **What is answered after an order.** The steps of a call, when nothing
comes between them, are `resolve`. However the steps of calls and orders
interleave, and whatever the files become meanwhile: a call that begins
after an order that covers its project is answered with what a search for
the project has found. Some call had made that search by the time of the
order and not remembered it yet, or it was made after the order. The
formatter that such a later search has found was loaded after the order too,
but for the bundled one, which an order to forget all alone makes forgotten. -/
theorem answers_after_order (r : Resolver) (before after : List Turn) (o : Order) :
    let y := Scene.run { resolver := r } (before ++ [.forget o])
    let x := y.run after
    (∀ (z : Scene) (call : Nat), z.calls call = none → ∀ m path s,
      let alone := z.run [.look call m path s, .search call m, .store call]
      alone.resolver = (resolve m path s z.resolver).state ∧
        ∃ origin, alone.calls call =
          some (.answered (cacheKey m path) (resolve m path s z.resolver).value origin)) ∧
    ∀ call project answer origin, y.calls call = none →
      x.calls call = some (.answered project answer origin) → o.covers project = true →
      (∃ m path s, .look call m path s ∈ after ∧ project = cacheKey m path) ∧
      ∃ q, origin = some q ∧ answer = q.answer ∧ (q.project == project) = true ∧
        ((∃ other, y.calls other = some (.found q)) ∨
          q ∈ x.searches ∧ before.length < q.turn ∧
          ∀ h, answer = some h →
            (o ≠ .all ∧ y.resolver.bundledHandle = some h) ∨
              ∃ q' ∈ x.searches, before.length < q'.turn ∧ q'.Loaded h) := by
  intro y x
  refine ⟨fun z call hcall m path s => run_call z hcall m path s, ?_⟩
  intro call project answer origin hbegins hanswered hcovers
  have hturns : y.turns = before.length + 1 := by
    rw [Scene.turns_run, List.length_append, List.length_singleton]
  have hforgotten : y.resolver.cached? project = none := cached?_run_forget _ before hcovers
  have hrenewed : Renewed y project after x := renewed_run hforgotten after
  have hstocked : Stocked y x := stocked_run (fun _ => turn_lt_of_mem) after
  refine ⟨hrenewed.asked call _ hbegins hanswered, ?_⟩
  obtain ⟨q, hq, ha, hproject, hlate⟩ :=
    hrenewed.answered call project answer origin hbegins hanswered (Path.beq_refl project)
  refine ⟨q, hq, ha, hproject, hlate.imp_right fun ⟨hmem, hturn⟩ => ⟨hmem, ?_, fun h hh => ?_⟩⟩
  · rw [hturns] at hturn
    exact hturn
  · obtain hb | hloaded := hstocked.answers q hmem hturn h (ha.symm.trans hh)
    · exact .inl ⟨ne_all_of_bundledHandle hb, hb⟩
    · rw [hturns] at hloaded
      exact .inr hloaded

/-- A project that has the package installed. -/
def ownInstall : Machine where
  disk := ⟨fun
    | ["p"] | ["p", "node_modules"] | ["p", "node_modules", "prettier"] => some .directory
    | ["p", "package.json"] | ["p", "node_modules", "prettier", "package.json"] =>
      some (.file (Text.Utf8.encode ['\x7b', '\x7d']) false)
    | _ => none⟩
  cwd := ⟨"/p"⟩
  home := ⟨"/home"⟩
  searchPath := []

/-- A test of what a call was answered. -/
def Scene.answers (x : Scene) (call : Nat)
    (p : Path → Option Handle → Option Search → Bool) : Bool :=
  match x.calls call with
  | some (.answered project answer origin) => p project answer origin
  | _ => false

theorem exists_of_answers (x : Scene) (call : Nat)
    (p : Path → Option Handle → Option Search → Bool) (h : x.answers call p = true) :
    ∃ project answer origin, x.calls call = some (.answered project answer origin) ∧
      p project answer origin = true := by
  unfold Scene.answers at h
  split at h
  · exact ⟨_, _, _, ‹_›, h⟩
  · cases h

/-- A project was given the shipped formatter when it had none of its own.
Since then the package was installed, and after the order the project is
given that one, which was loaded then. -/
theorem answers_after_order_installed :
    let document : Path := ⟨"/p/x.ts"⟩
    let r := (resolve nestedInstall document {}
      (blank defaultPackage plainLoader (some shipped))).state
    let o := Order.tree ⟨"/p"⟩
    let after : List Turn := [.look 0 ownInstall document {}, .search 0 ownInstall, .store 0]
    let y := Scene.run { resolver := r } ([] ++ [.forget o])
    let x := y.run after
    (r.cached? ⟨"/p"⟩).map (·.map identity) = some (some (.bundled, none, shipped.path)) ∧
    ∃ q h, x.calls 0 = some (.answered ⟨"/p"⟩ (some h) (some q)) ∧
      identity h = (.local, none, ⟨"/p/node_modules/prettier"⟩) ∧
      0 < q.turn ∧ ∃ q' ∈ x.searches, 0 < q'.turn ∧ q'.Loaded h := by
  intro document r o after y x
  have hremembered : (r.cached? ⟨"/p"⟩).map (·.map identity) =
      some (some (.bundled, none, shipped.path)) := by
    decide +kernel
  have hbundled : r.bundledHandle.map identity = some (.bundled, none, shipped.path) := by
    decide +kernel
  have hcovers : o.covers ⟨"/p"⟩ = true := by decide +kernel
  obtain ⟨project, answer, origin, hcall, hanswer⟩ := exists_of_answers x 0
    (fun project answer _ => project = ⟨"/p"⟩ ∧
      answer.map identity = some (.local, none, ⟨"/p/node_modules/prettier"⟩))
    (by decide +kernel)
  obtain ⟨rfl, hinstalled⟩ := of_decide_eq_true hanswer
  obtain ⟨h, rfl, hlocal⟩ := Option.map_eq_some_iff.mp hinstalled
  refine ⟨hremembered, ?_⟩
  clear_value r
  obtain ⟨-, q, rfl, -, -, hlate⟩ :=
    (answers_after_order r [] after o).2 0 ⟨"/p"⟩ (some h) origin rfl hcall hcovers
  obtain ⟨other, hflight⟩ | ⟨-, hturn, hstock⟩ := hlate
  · cases hflight
  · refine ⟨q, h, hcall, hlocal, hturn, ?_⟩
    obtain ⟨-, hb⟩ | hloaded := hstock h rfl
    · have hsame : r.bundledHandle.map identity = some (identity h) :=
        congrArg (Option.map identity) (show r.bundledHandle = some h from hb)
      rw [hbundled, hlocal] at hsame
      simp at hsame
    · exact hloaded

/-- **An order can be lost.** A call that begins after it may be answered
from a search before it, for another call may have made that search and
remember it only after the order. -/
theorem order_lost :
    ¬ ∀ (r : Resolver) (before after : List Turn) (o : Order),
      let y := Scene.run { resolver := r } (before ++ [.forget o])
      let x := y.run after
      ∀ call project answer origin, y.calls call = none →
        x.calls call = some (.answered project answer origin) → o.covers project = true →
        ∃ q, origin = some q ∧ before.length < q.turn := by
  intro hclaim
  let document : Path := ⟨"/p/x.ts"⟩
  let r := blank defaultPackage plainLoader (some shipped)
  let o := Order.tree ⟨"/p"⟩
  let before : List Turn := [.look 0 nestedInstall document {}, .search 0 nestedInstall]
  let after : List Turn := [.store 0, .look 1 ownInstall document {}]
  have hcovers : o.covers ⟨"/p"⟩ = true := by decide +kernel
  have hbegins : (Scene.run { resolver := r } (before ++ [.forget o])).calls 1 = none :=
    Option.isNone_iff_eq_none.mp (by decide +kernel)
  obtain ⟨project, answer, origin, hcall, hanswer⟩ :=
    exists_of_answers ((Scene.run { resolver := r } (before ++ [.forget o])).run after) 1
      (fun project _ origin => project = ⟨"/p"⟩ ∧ origin.all fun q => q.turn = 1)
      (by decide +kernel)
  obtain ⟨rfl, hearly⟩ := of_decide_eq_true hanswer
  obtain ⟨q, rfl, hlate⟩ := hclaim r before after o 1 ⟨"/p"⟩ answer origin hbegins hcall hcovers
  have hturn : q.turn = 1 := of_decide_eq_true hearly
  rw [hturn] at hlate
  exact absurd hlate (by decide)

end FormatHost.Resolver
