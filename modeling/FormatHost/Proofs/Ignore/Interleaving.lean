/-
FormatHost.Proofs.Ignore.Interleaving — the rules of an ignore file while
calls and events are at work on them at the same time.

A call that asks for the rules of a file takes up to three steps: it looks
for them, reads the file if there are none, and keeps what it read unless
there are some by then. Following an event takes two: the rules that it
tells of are made out, for which the file is read unless it was deleted, and
put in place. Between the steps of one there may be any steps of the others,
and the files change as they like.

A call may read a file before it changes and come to its last step when the
event of that change was long dealt with. It keeps nothing then, for there
are rules already; `Standing` is the invariant that says so.

* §1 scenes, and the steps, which are the operations of the cache;
* §2 without interruption the steps are `matcher` and `handle`;
* §3 `Standing`: what every step preserves;
* §4 `rules_of_last_event`.
-/
import FormatHost.Proofs.Ignore.Lookup
import Mathlib.Data.List.Induction

namespace FormatHost.Ignore.Cache

open Run

/-! ## §1 Steps -/

/-- How far a call that asks for the rules of a file has come. -/
inductive Stage
  /-- There were none, and the file is to be read. -/
  | missed (file : Path)
  /-- The file was read, and nothing is kept yet. -/
  | loaded (file : Path) (rules : Matcher)
  | answered (file : Path) (rules : Matcher)

/-- How far an event has come that a listener follows. -/
inductive Handling
  /-- The file is to be read. -/
  | taken (e : WatchEvent)
  /-- The rules are known and not in place yet. -/
  | ready (e : WatchEvent) (rules : Matcher)

/-- A cache, with the calls and the listeners that are at work on it. -/
structure Scene where
  cache : Cache
  calls : Nat → Option Stage := fun _ => none
  /-- The event that a listener follows; none between two events. -/
  listeners : Nat → Option Handling := fun _ => none
  /-- What the last event of a file that was completed has put in place. -/
  installed : Path → Option Matcher := fun _ => none

/-- One step of a call or of a listener. -/
inductive Turn
  | look (call : Nat) (file : Path)
  | load (call : Nat) (m : Machine)
  | keep (call : Nat)
  | take (listener : Nat) (e : WatchEvent)
  | read (listener : Nat) (m : Machine)
  | put (listener : Nat)

namespace Scene

/-- Make a step. A call has one question and a listener one event at a time;
a step for which they are not ready changes nothing. -/
def step (x : Scene) : Turn → Scene
  | .look call file =>
    match x.calls call, x.cache.get? file with
    | some _, _ => x
    | none, some rules =>
      { x with calls := Function.update x.calls call (some (.answered file rules)) }
    | none, none => { x with calls := Function.update x.calls call (some (.missed file)) }
  | .load call m =>
    match x.calls call with
    | some (.missed file) =>
      let o := Cache.load m file x.cache
      { x with
        cache := o.state
        calls := Function.update x.calls call (some (.loaded file o.value)) }
    | _ => x
  | .keep call =>
    match x.calls call with
    | some (.loaded file rules) =>
      let o := putIfAbsent file rules x.cache
      { x with
        cache := o.state
        calls := Function.update x.calls call (some (.answered file o.value)) }
    | _ => x
  | .take listener e =>
    match x.listeners listener with
    | some _ => x
    | none =>
      let handling := if e.change = .deleted then .ready e (.null e.path) else .taken e
      { x with listeners := Function.update x.listeners listener (some handling) }
  | .read listener m =>
    match x.listeners listener with
    | some (.taken e) =>
      let o := Cache.load m e.path x.cache
      { x with
        cache := o.state
        listeners := Function.update x.listeners listener (some (.ready e o.value)) }
    | _ => x
  | .put listener =>
    match x.listeners listener with
    | some (.ready e rules) =>
      { x with
        cache := (Cache.put e.path rules x.cache).state
        listeners := Function.update x.listeners listener none
        installed := fun file => if e.path == file then some rules else x.installed file }
    | _ => x

/-- Make the steps of an interleaving, in order. -/
def run (x : Scene) (turns : List Turn) : Scene := turns.foldl step x

end Scene

/-! ## §2 Without interruption -/

section Alone

variable (x : Scene)

/-- The steps of a call, one right after the other, are `matcher`. -/
theorem run_call {call : Nat} (h : x.calls call = none) (m : Machine) (file : Path) :
    let y := x.run [.look call file, .load call m, .keep call]
    y.cache = (matcher m file x.cache).state ∧
      y.calls call = some (.answered file (matcher m file x.cache).value) := by
  simp only [Scene.run, List.foldl_cons, List.foldl_nil, matcher, bind_apply, get_apply]
  cases hg : x.cache.get? file with
  | some rules => simp [Scene.step, h, hg]
  | none => simp [Scene.step, h, hg]

/-- The steps that follow an event, one right after the other, are
`handle`. -/
theorem run_event {listener : Nat} (h : x.listeners listener = none) (m : Machine)
    (e : WatchEvent) :
    let y := x.run [.take listener e, .read listener m, .put listener]
    y.cache = (handle m e x.cache).state ∧ y.listeners listener = none ∧
      y.installed e.path = some (told m e) := by
  simp only [Scene.run, List.foldl_cons, List.foldl_nil, handle, told]
  cases hc : e.change <;> simp [Scene.step, h, hc, invalidate, load, emitAll]

end Alone

/-! ## §3 What every step preserves -/

theorem get?_put (file : Path) (rules : Matcher) (c : Cache) (file' : Path) :
    (put file rules c).state.get? file' = if file == file' then some rules else c.get? file' :=
  Table.find?_insert c.matchers file rules file'

/-- What is there is kept. -/
theorem get?_putIfAbsent {c : Cache} {file' : Path} {known : Matcher}
    (h : c.get? file' = some known) (file : Path) (rules : Matcher) :
    (putIfAbsent file rules c).state.get? file' = some known ∧
      ((file == file') = true → (putIfAbsent file rules c).value = known) := by
  simp only [putIfAbsent, bind_apply, get_apply]
  cases hg : c.get? file with
  | some kept =>
    refine ⟨h, fun hf => ?_⟩
    have hsame : c.get? file = c.get? file' := Table.find?_congr _ hf
    exact Option.some.inj (hg.symm.trans (hsame.trans h))
  | none =>
    have hother : ¬ (file == file') = true := by
      intro hf
      have hsame : c.get? file = c.get? file' := Table.find?_congr _ hf
      rw [hg, h] at hsame
      cases hsame
    refine ⟨?_, fun hf => absurd hf hother⟩
    simp only [bind_apply, pure_apply]
    rw [get?_put, if_neg hother, h]

/-- An event that a listener took has told it of these rules: of none when
the file was deleted, and else of those that the listener has read. -/
def Told (turns : List Turn) (e : WatchEvent) (rules : Matcher) : Prop :=
  ∃ listener, .take listener e ∈ turns ∧
    if e.change = .deleted then rules = .null e.path
    else ∃ m, .read listener m ∈ turns ∧ rules = (Matcher.load m e.path).1

theorem Told.concat {turns : List Turn} {e : WatchEvent} {rules : Matcher} (h : Told turns e rules)
    (t : Turn) : Told (turns ++ [t]) e rules := by
  obtain ⟨listener, ht, hr⟩ := h
  refine ⟨listener, List.mem_append_left _ ht, ?_⟩
  split
  · rwa [if_pos ‹_›] at hr
  · rw [if_neg ‹_›] at hr
    obtain ⟨m, hm, hr⟩ := hr
    exact ⟨m, List.mem_append_left _ hm, hr⟩

/-- The invariant of an interleaving: what the last completed event of a
file has put in place is still there, and was told by an event of the
file. -/
structure Standing (turns : List Turn) (x : Scene) : Prop where
  taken : ∀ listener e, x.listeners listener = some (.taken e) →
    e.change ≠ .deleted ∧ .take listener e ∈ turns
  ready : ∀ listener e rules, x.listeners listener = some (.ready e rules) → Told turns e rules
  entry : ∀ file rules, x.installed file = some rules → x.cache.get? file = some rules
  told : ∀ file rules, x.installed file = some rules →
    ∃ e, (e.path == file) = true ∧ Told turns e rules

theorem standing_start (c : Cache) : Standing [] { cache := c } := ⟨nofun, nofun, nofun, nofun⟩

section Standing

variable {turns : List Turn} {x y : Scene}

/-- A step that leaves the listeners alone and takes no rules away. -/
theorem Standing.of_kept (h : Standing turns x) (t : Turn) (hl : y.listeners = x.listeners)
    (hi : y.installed = x.installed)
    (hc : ∀ file rules, x.cache.get? file = some rules → y.cache.get? file = some rules) :
    Standing (turns ++ [t]) y where
  taken listener e he := by
    rw [hl] at he
    obtain ⟨hd, ht⟩ := h.taken listener e he
    exact ⟨hd, List.mem_append_left _ ht⟩
  ready listener e rules he := by
    rw [hl] at he
    exact (h.ready listener e rules he).concat t
  entry file rules hf := by
    rw [hi] at hf
    exact hc file rules (h.entry file rules hf)
  told file rules hf := by
    rw [hi] at hf
    obtain ⟨e, he, ht⟩ := h.told file rules hf
    exact ⟨e, he, ht.concat t⟩

/-- A step with which a listener goes on to something else that it knows
rightly. -/
theorem Standing.of_handling (h : Standing turns x) (t : Turn) (listener : Nat)
    {handling : Handling} {c : Cache} (hc : ∀ file, c.get? file = x.cache.get? file)
    (htaken : ∀ e, handling = .taken e →
      e.change ≠ .deleted ∧ .take listener e ∈ turns ++ [t])
    (hready : ∀ e rules, handling = .ready e rules → Told (turns ++ [t]) e rules) :
    Standing (turns ++ [t])
      { x with cache := c, listeners := Function.update x.listeners listener (some handling) } where
  taken l e he := by
    obtain he | ⟨rfl, hnew⟩ := some_of_update he
    · obtain ⟨hd, ht⟩ := h.taken l e he
      exact ⟨hd, List.mem_append_left _ ht⟩
    · exact htaken e (Option.some.inj hnew)
  ready l e rules he := by
    obtain he | ⟨-, hnew⟩ := some_of_update he
    · exact (h.ready l e rules he).concat t
    · exact hready e rules (Option.some.inj hnew)
  entry file rules hf := (hc file).trans (h.entry file rules hf)
  told file rules hf := by
    obtain ⟨e, he, ht⟩ := h.told file rules hf
    exact ⟨e, he, ht.concat t⟩

/-- A step that completes an event. -/
theorem Standing.of_put (h : Standing turns x) (t : Turn) {listener : Nat} {e : WatchEvent}
    {rules : Matcher} (he : x.listeners listener = some (.ready e rules)) :
    Standing (turns ++ [t])
      { x with
        cache := (put e.path rules x.cache).state
        listeners := Function.update x.listeners listener none
        installed := fun file => if e.path == file then some rules else x.installed file } where
  taken l e' he' := by
    obtain he' | ⟨-, hnone⟩ := some_of_update he'
    · obtain ⟨hd, ht⟩ := h.taken l e' he'
      exact ⟨hd, List.mem_append_left _ ht⟩
    · cases hnone
  ready l e' rules' he' := by
    obtain he' | ⟨-, hnone⟩ := some_of_update he'
    · exact (h.ready l e' rules' he').concat t
    · cases hnone
  entry file rules' hf := by
    dsimp only at hf
    rw [get?_put]
    split at hf
    · rw [if_pos ‹_›]
      exact hf
    · rw [if_neg ‹_›]
      exact h.entry file rules' hf
  told file rules' hf := by
    dsimp only at hf
    split at hf
    · obtain rfl := Option.some.inj hf
      exact ⟨e, ‹_›, (h.ready listener e rules he).concat t⟩
    · obtain ⟨e', he', ht⟩ := h.told file rules' hf
      exact ⟨e', he', ht.concat t⟩

/-- **Every step preserves what was put in place.** -/
theorem Standing.step (h : Standing turns x) (t : Turn) : Standing (turns ++ [t]) (x.step t) := by
  have hsame : Standing (turns ++ [t]) x := h.of_kept t rfl rfl fun _ _ hf => hf
  cases t with
  | look call file =>
    simp only [Scene.step]
    split
    · exact hsame
    · exact h.of_kept _ rfl rfl fun _ _ hf => hf
    · exact h.of_kept _ rfl rfl fun _ _ hf => hf
  | load call m =>
    simp only [Scene.step]
    split
    · exact h.of_kept _ rfl rfl fun _ _ hf => hf
    · exact hsame
  | keep call =>
    simp only [Scene.step]
    split
    · exact h.of_kept _ rfl rfl fun _ _ hf => (get?_putIfAbsent hf _ _).1
    · exact hsame
  | take listener e =>
    have hmem : Turn.take listener e ∈ turns ++ [.take listener e] :=
      List.mem_append_right _ (List.mem_singleton_self _)
    simp only [Scene.step]
    split
    · exact hsame
    · refine h.of_handling _ listener (fun _ => rfl) (fun e' he' => ?_) fun e' rules he' => ?_
      · split at he'
        · cases he'
        · cases he'
          exact ⟨‹_›, hmem⟩
      · split at he'
        · cases he'
          exact ⟨listener, hmem, (if_pos ‹_›).mpr rfl⟩
        · cases he'
  | read listener m =>
    simp only [Scene.step]
    split
    · rename_i e he
      obtain ⟨hd, ht⟩ := h.taken listener e he
      refine h.of_handling _ listener (fun _ => rfl) nofun fun e' rules he' => ?_
      cases he'
      refine ⟨listener, List.mem_append_left _ ht, ?_⟩
      rw [if_neg hd]
      exact ⟨m, List.mem_append_right _ (List.mem_singleton_self _), rfl⟩
    · exact hsame
  | put listener =>
    simp only [Scene.step]
    split
    · exact h.of_put _ ‹_›
    · exact hsame

/-- So does every interleaving. -/
theorem standing_run (c : Cache) (turns : List Turn) :
    Standing turns (Scene.run { cache := c } turns) := by
  induction turns using List.reverseRecOn with
  | nil => exact standing_start c
  | append_singleton turns t ih =>
    rw [Scene.run, List.foldl_append]
    exact ih.step t

end Standing

/-! ## §4 Events win -/

/-- With rules in place for a file, a call for it can only answer these. -/
theorem answer_of_step {x : Scene} {file f : Path} {rules answer : Matcher}
    (hx : x.cache.get? file = some rules) (t : Turn) {call : Nat} (hf : (f == file) = true)
    (hbefore : x.calls call ≠ some (.answered f answer))
    (hafter : (x.step t).calls call = some (.answered f answer)) : answer = rules := by
  cases t with
  | look call' file' =>
    simp only [Scene.step] at hafter
    split at hafter
    · exact absurd hafter hbefore
    · rename_i known _ hknown
      cases ((some_of_update hafter).resolve_left hbefore).2
      have hsame : x.cache.get? f = x.cache.get? file := Table.find?_congr _ hf
      exact Option.some.inj (hknown.symm.trans (hsame.trans hx))
    · cases ((some_of_update hafter).resolve_left hbefore).2
  | load call' m =>
    simp only [Scene.step] at hafter
    split at hafter
    · cases ((some_of_update hafter).resolve_left hbefore).2
    · exact absurd hafter hbefore
  | keep call' =>
    simp only [Scene.step] at hafter
    split at hafter
    · cases ((some_of_update hafter).resolve_left hbefore).2
      exact (get?_putIfAbsent hx f _).2 hf
    · exact absurd hafter hbefore
  | take listener e =>
    simp only [Scene.step] at hafter
    split at hafter <;> exact absurd hafter hbefore
  | read listener m =>
    simp only [Scene.step] at hafter
    split at hafter <;> exact absurd hafter hbefore
  | put listener =>
    simp only [Scene.step] at hafter
    split at hafter <;> exact absurd hafter hbefore

/-- **What the last event has put in place stands.** The steps of a call and
those that follow an event, when nothing comes between them, are `matcher`
and `handle`. However the steps of calls and of listeners interleave, and
whatever the files become meanwhile, from when an event of a file was
completed the cache holds the rules that the last completed one has put in
place: no call brings back rules that it read before. They are the rules that
an event of the file told of, none after a deletion. And a call for the file
that answers next answers these. -/
theorem rules_of_last_event (c : Cache) (turns : List Turn) (file : Path) (rules : Matcher) :
    let x := Scene.run { cache := c } turns
    (∀ (z : Scene) (m : Machine),
      (∀ call f, z.calls call = none →
        let alone := z.run [.look call f, .load call m, .keep call]
        alone.cache = (matcher m f z.cache).state ∧
          alone.calls call = some (.answered f (matcher m f z.cache).value)) ∧
      ∀ listener e, z.listeners listener = none →
        let alone := z.run [.take listener e, .read listener m, .put listener]
        alone.cache = (handle m e z.cache).state ∧ alone.listeners listener = none ∧
          alone.installed e.path = some (told m e)) ∧
    (x.installed file = some rules →
      x.cache.get? file = some rules ∧
      (∃ e, (e.path == file) = true ∧ Told turns e rules) ∧
      ∀ (t : Turn) (call : Nat) (f : Path) (answer : Matcher), (f == file) = true →
        x.calls call ≠ some (.answered f answer) →
        (x.step t).calls call = some (.answered f answer) → answer = rules) := by
  intro x
  refine ⟨fun z m => ⟨fun call f h => run_call z h m f, fun listener e h => run_event z h m e⟩, ?_⟩
  intro hi
  have hs : Standing turns x := standing_run c turns
  have hentry := hs.entry file rules hi
  exact ⟨hentry, hs.told file rules hi, fun t call f answer hf => answer_of_step hentry t hf⟩

/-- A folder whose ignore file excludes everything. -/
def allExcluded : Machine where
  disk := ⟨fun
    | ["p"] => some .directory
    | ["p", ".prettierignore"] => some (.file (Text.Utf8.encode ['*']) false)
    | _ => none⟩
  cwd := ⟨"/p"⟩
  home := ⟨"/home"⟩
  searchPath := []

/-- A call reads rules that exclude a document. Before it keeps them their
file is deleted, and it has to answer that nothing is excluded. -/
theorem rules_of_last_event_deleted :
    let file : Path := ⟨"/p/.prettierignore"⟩
    let turns : List Turn :=
      [.look 0 file, .load 0 allExcluded, .take 0 ⟨.deleted, file⟩, .put 0]
    let x := Scene.run { cache := {} } turns
    (∃ old, x.calls 0 = some (.loaded file old) ∧ old.isMatch ⟨"/p/x.ts"⟩ = true) ∧
    x.installed file = some (.null file) ∧ x.cache.get? file = some (.null file) ∧
    (x.step (.keep 0)).calls 0 = some (.answered file (.null file)) := by
  intro file turns x
  have hold : (Matcher.load allExcluded file).1.isMatch ⟨"/p/x.ts"⟩ = true := by decide +kernel
  have hloaded : x.calls 0 = some (.loaded file (Matcher.load allExcluded file).1) := rfl
  have hinstalled : x.installed file = some (.null file) := if_pos (Path.beq_refl file)
  obtain ⟨hentry, -, hanswer⟩ :=
    (rules_of_last_event {} turns file (.null file)).2 hinstalled
  refine ⟨⟨_, hloaded, hold⟩, hinstalled, hentry, ?_⟩
  have hkept : ∃ answer, (x.step (.keep 0)).calls 0 = some (.answered file answer) := by
    simp [Scene.step, hloaded]
  obtain ⟨answer, hkept⟩ := hkept
  have hbefore : x.calls 0 ≠ some (.answered file answer) := by simp [hloaded]
  rw [hkept, hanswer (.keep 0) 0 file answer (Path.beq_refl file) hbefore hkept]

end FormatHost.Ignore.Cache
