/-
FormatHost.Proofs.Registration.Agreement — what the editor has heard, and
what is registered.

The editor is told when a registration begins and when one ends, and keeps
what it was told. The registrations are a table of their own. After every
action the two agree: for each folder beginnings and ends have taken turns,
and the last notice is a beginning exactly when the folder is registered,
under the selectors of that notice.

Folders are compared as the table compares them: two spellings of a path
are one folder.

* §1 actions and runs;
* §2 `notices`: what the editor hears of one folder;
* §3 `Turn`: what one action says of a folder and makes of it;
* §4 `Agrees`: the invariant of a run; `runAll_turn`: runs without an end;
* §5 `runAll_agrees`.
-/
import FormatHost.Proofs.Registration
import Mathlib.Data.List.Chain

namespace FormatHost.Registrations

open Run

/-! ## §1 Runs -/

inductive Action
  | register (folder : Option Path) (selectors : Selectors) (priority : Int32)
  | invalidate (folder : Option Path)
  | invalidateAll

/-- Do an action; the registration that it makes, if any. -/
def Action.run : Action → Run Registrations (Option Registration)
  | .register folder selectors priority => do
    return some (← Registrations.register folder selectors priority)
  | .invalidate folder => do
    Registrations.invalidate folder
    return none
  | .invalidateAll => do
    Registrations.invalidateAll
    return none

/-- Do actions one after the other; the registrations that they make, in
order. -/
def runAll : List Action → Run Registrations (List Registration)
  | [] => pure []
  | action :: actions => do
    let made? ← action.run
    let made ← runAll actions
    return made?.toList ++ made

/-! ## §2 Notices -/

/-- What the editor is told of a folder. -/
inductive Notice
  | begun (selectors : Selectors)
  | ended
  deriving Repr, DecidableEq

def notice? (folder : Option Path) : Event → Option Notice
  | .register f selectors _ => if f == folder then some (.begun selectors) else none
  | .unregister f => if f == folder then some .ended else none
  | _ => none

/-- A registration that the editor is told of: its folder and selectors. -/
def begun? : Event → Option (Option Path × Selectors)
  | .register folder selectors _ => some (folder, selectors)
  | _ => none

/-- What the editor hears of a folder, in order. -/
def notices (folder : Option Path) (es : List Event) : List Notice := es.filterMap (notice? folder)

@[simp] theorem notices_append (folder : Option Path) (a b : List Event) :
    notices folder (a ++ b) = notices folder a ++ notices folder b := List.filterMap_append

def Notice.isBegun : Notice → Bool
  | .begun _ => true
  | .ended => false

/-- Beginnings and ends take turns, a beginning first. -/
structure TakeTurns (heard : List Notice) : Prop where
  first : ∀ n ∈ heard.head?, n.isBegun = true
  next : heard.IsChain fun a b => b.isBegun = !a.isBegun

/-- What was heard of a folder fits its registration: the last notice is a
beginning exactly when there is one, and has its selectors. -/
structure InStep (heard : List Notice) (active? : Option Registration) : Prop where
  turns : TakeTurns heard
  last : ∀ selectors, heard.getLast? = some (.begun selectors) ↔
    active?.map (·.selectors) = some selectors

theorem inStep_nil : InStep [] none where
  turns := ⟨nofun, List.IsChain.nil⟩
  last := by simp

/-- One more notice, a beginning where there is no registration and an end
where there is one. -/
theorem InStep.turns_append {heard : List Notice} {active? : Option Registration}
    (h : InStep heard active?) {n : Notice} (hn : n.isBegun = active?.isNone) :
    TakeTurns (heard ++ [n]) := by
  have hlast : ∀ last ∈ heard.getLast?, active?.isNone = !last.isBegun := by
    intro last hl
    cases last with
    | begun selectors =>
      obtain ⟨r, hr, -⟩ := Option.map_eq_some_iff.mp ((h.last selectors).mp hl)
      rw [hr]
      rfl
    | ended =>
      cases hr : active? with
      | none => rfl
      | some r =>
        have hb := (h.last r.selectors).mpr (by rw [hr]; rfl)
        rw [hl] at hb
        cases hb
  refine ⟨fun first hf => ?_, h.turns.next.append (List.IsChain.singleton n) ?_⟩
  · cases heard with
    | nil =>
      obtain rfl : n = first := by simpa using hf
      rw [hn]
      cases hr : active? with
      | none => rfl
      | some r =>
        have hb := (h.last r.selectors).mpr (by rw [hr]; rfl)
        cases hb
    | cons a rest => exact h.turns.first first hf
  · intro last hl b hb
    obtain rfl : n = b := by simpa using hb
    rw [hn, hlast last hl]

theorem InStep.end {heard : List Notice} {r : Registration} (h : InStep heard (some r)) :
    InStep (heard ++ [.ended]) none where
  turns := h.turns_append rfl
  last := by simp

theorem InStep.begin {heard : List Notice} (h : InStep heard none) (r : Registration) :
    InStep (heard ++ [.begun r.selectors]) (some r) where
  turns := h.turns_append rfl
  last := by simp

/-! ## §3 One action -/

/-- What an action says of a folder, with the registration before and after:
nothing, an end, a beginning, or an end and a beginning. -/
inductive Turn : Option Registration → List Notice → Option Registration → Prop
  | quiet (active? : Option Registration) : Turn active? [] active?
  | ends (r : Registration) : Turn (some r) [.ended] none
  | begins (r : Registration) : Turn none [.begun r.selectors] (some r)
  | replaces (r r' : Registration) : Turn (some r) [.ended, .begun r'.selectors] (some r')

theorem Turn.inStep {heard said : List Notice} {before after : Option Registration}
    (ht : Turn before said after) (h : InStep heard before) : InStep (heard ++ said) after := by
  cases ht with
  | quiet => rwa [List.append_nil]
  | ends r => exact h.end
  | begins r => exact h.begin r
  | replaces r r' =>
    have hr := h.end.begin r'
    rwa [List.append_assoc] at hr

/-- What one action does: for each folder it takes a turn; what it makes is
what the editor hears of, is active from then on and has the latest time. -/
structure Steps (r : Registrations) (o : Outcome Registrations (Option Registration)) : Prop where
  distinct : o.state.active.Distinct
  turn : ∀ folder, Turn (r.get? folder) (notices folder o.events) (o.state.get? folder)
  begun : o.events.filterMap begun? = o.value.toList.map fun x => (x.folder, x.selectors)
  clock : r.clock ≤ o.state.clock
  latest : ∀ x ∈ o.value, r.clock < x.activation ∧ x.activation ≤ o.state.clock
  active : ∀ folder x, o.state.get? folder = some x →
    (o.value = some x ∧ (x.folder == folder) = true) ∨
      (r.get? folder = some x ∧ ∀ made ∈ o.value, (made.folder == folder) = false)

section Actions

variable {r : Registrations} (h : r.active.Distinct) (folder : Option Path)

theorem invalidate_events (r : Registrations) :
    (invalidate folder r).events =
      ((r.get? folder).toList.map fun _ => folder).map .unregister := by
  rw [invalidate_apply]
  cases r.get? folder <;> rfl

theorem notices_unregister (folders : List (Option Path)) (k : Option Path) :
    notices k (folders.map .unregister) = (folders.filter (· == k)).map fun _ => .ended := by
  induction folders with
  | nil => rfl
  | cons folder rest ih =>
    cases hk : folder == k <;> simp_all [notices, notice?]

include h in
/-- Ending all registrations is heard once by each folder that has one. -/
theorem notices_invalidateAll :
    notices folder (invalidateAll r).events = (r.get? folder).toList.map fun _ => .ended := by
  have he : (invalidateAll r).events = r.active.keys.map .unregister := by
    simp [invalidateAll, emitAll]
  have hone : _ = (r.get? folder).toList.length := h.length_filter_keys folder
  rw [he, notices_unregister, List.map_const', List.map_const', hone]

theorem get?_congr (r : Registrations) {k : Option Path} (hk : (folder == k) = true) :
    r.get? folder = r.get? k :=
  Table.find?_congr r.active hk

theorem notices_invalidate (k : Option Path) (r : Registrations) :
    notices k (invalidate folder r).events =
      if folder == k then (r.get? k).toList.map fun _ => .ended else [] := by
  rw [invalidate_events, notices_unregister]
  cases hk : folder == k with
  | false => cases r.get? folder <;> simp [hk]
  | true =>
    rw [get?_congr folder r hk]
    cases r.get? k <;> simp [hk]

theorem notices_register (selectors : Selectors) (priority : Int32) (k : Option Path) :
    notices k [.register folder selectors priority] =
      if folder == k then [.begun selectors] else [] := by
  cases hk : folder == k <;> simp [notices, notice?, hk]

theorem invalidate_turn (k : Option Path) (r : Registrations) :
    Turn (r.get? k) (notices k (invalidate folder r).events)
      ((invalidate folder r).state.get? k) := by
  rw [notices_invalidate, invalidate_get?]
  cases hk : folder == k with
  | false => exact .quiet _
  | true =>
    cases r.get? k with
    | none => exact .quiet _
    | some x => exact .ends x

include h in
theorem invalidate_distinct : (invalidate folder r).state.active.Distinct := by
  rw [invalidate_apply]
  split
  · exact h.erase folder
  · exact h

include h in
/-- Ending a registration. -/
theorem invalidate_steps : Steps r ((Action.invalidate folder).run r) := by
  have hrun : (Action.invalidate folder).run r =
      ⟨none, (invalidate folder r).state, (invalidate folder r).events⟩ := by
    simp [Action.run]
  rw [hrun]
  refine ⟨invalidate_distinct h folder, fun k => invalidate_turn folder k r, ?_,
    (invalidate_clock folder r).ge, nofun, fun k x hx => .inr ⟨?_, nofun⟩⟩
  · dsimp only
    rw [invalidate_events]
    cases r.get? folder <;> rfl
  · rw [invalidate_get?] at hx
    cases hk : folder == k with
    | true =>
      rw [hk] at hx
      cases hx
    | false =>
      rw [hk] at hx
      exact hx

include h in
/-- Making a registration: the one before it ends first. -/
theorem register_steps (selectors : Selectors) (priority : Int32) :
    Steps r ((Action.register folder selectors priority).run r) := by
  have hrun : (Action.register folder selectors priority).run r =
      ⟨some (register folder selectors priority r).value,
        (register folder selectors priority r).state,
        (register folder selectors priority r).events⟩ := by
    simp [Action.run]
  have hg := register_get? folder selectors priority r
  have hr := register_apply folder selectors priority r
  dsimp only at hr
  rw [hrun]
  rw [hr] at hg ⊢
  refine ⟨(invalidate_distinct h folder).insert _ _, fun k => ?_, ?_, Nat.le_succ _, ?_,
    fun k x hx => ?_⟩
  · rw [hg, notices_append, notices_invalidate, notices_register]
    cases hk : folder == k with
    | false => exact .quiet _
    | true =>
      cases r.get? k with
      | none => exact .begins ⟨folder, selectors, r.clock + 1⟩
      | some x => exact .replaces x ⟨folder, selectors, r.clock + 1⟩
  · dsimp only
    rw [List.filterMap_append, invalidate_events]
    cases r.get? folder <;> rfl
  · intro x hx
    obtain rfl := Option.some.inj hx
    exact ⟨Nat.lt_succ_self _, Nat.le_refl _⟩
  · rw [hg] at hx
    by_cases hk : (folder == k) = true
    · rw [if_pos hk] at hx
      obtain rfl := Option.some.inj hx
      exact .inl ⟨rfl, hk⟩
    · rw [if_neg hk] at hx
      refine .inr ⟨hx, fun made hm => ?_⟩
      obtain rfl := Option.some.inj hm
      simpa using hk

include h in
/-- Ending all registrations: every folder that has one is told of once. -/
theorem invalidateAll_steps : Steps r (Action.invalidateAll.run r) := by
  have hrun : Action.invalidateAll.run r =
      ⟨none, { r with active := {} }, (invalidateAll r).events⟩ := by
    simp [Action.run, invalidateAll, emitAll]
  rw [hrun]
  refine ⟨Table.distinct_empty, fun k => ?_, ?_, Nat.le_refl _, nofun, nofun⟩
  · rw [notices_invalidateAll h k]
    show Turn (r.get? k) _ none
    cases r.get? k with
    | none => exact .quiet none
    | some x => exact .ends x
  · simp only [invalidateAll, emitAll, bind_apply, get_apply, set_apply, List.append_nil,
      List.nil_append, Option.toList_none, List.map_nil, List.filterMap_map]
    exact List.filterMap_eq_nil_iff.mpr fun _ _ => rfl

end Actions

/-- **One action** keeps to the rules from every state in which folders
differ. -/
theorem Action.run_steps {r : Registrations} (h : r.active.Distinct) (action : Action) :
    Steps r (action.run r) := by
  cases action with
  | register folder selectors priority => exact register_steps h folder selectors priority
  | invalidate folder => exact invalidate_steps h folder
  | invalidateAll => exact invalidateAll_steps h

/-! ## §4 Runs -/

/-- The invariant of a run: what the editor has heard and the registrations
that were made, against the registrations that there are. -/
structure Agrees (heard : List Event) (made : List Registration) (r : Registrations) : Prop where
  distinct : r.active.Distinct
  inStep : ∀ folder, InStep (notices folder heard) (r.get? folder)
  begun : heard.filterMap begun? = made.map fun x => (x.folder, x.selectors)
  rising : (made.map (·.activation)).Pairwise (· < ·)
  past : ∀ x ∈ made, x.activation ≤ r.clock
  latest : ∀ folder x, r.get? folder = some x →
    (made.filter (·.folder == folder)).getLast? = some x

theorem agrees_nil : Agrees [] [] {} :=
  ⟨Table.distinct_empty, fun _ => inStep_nil, rfl, List.Pairwise.nil, nofun, nofun⟩

theorem Agrees.step {heard : List Event} {made : List Registration} {r : Registrations}
    (h : Agrees heard made r) {o : Outcome Registrations (Option Registration)} (hs : Steps r o) :
    Agrees (heard ++ o.events) (made ++ o.value.toList) o.state where
  distinct := hs.distinct
  inStep folder := by
    rw [notices_append]
    exact (hs.turn folder).inStep (h.inStep folder)
  begun := by rw [List.filterMap_append, List.map_append, h.begun, hs.begun]
  rising := by
    rw [List.map_append]
    refine List.pairwise_append.mpr ⟨h.rising, ?_, ?_⟩
    · cases o.value <;> simp
    · intro a ha b hb
      obtain ⟨x, hx, rfl⟩ := List.mem_map.mp ha
      obtain ⟨y, hy, rfl⟩ := List.mem_map.mp hb
      have hp := h.past x hx
      have hl := (hs.latest y (Option.mem_toList.mp hy)).1
      exact Nat.lt_of_le_of_lt hp hl
  past x hx := by
    rcases List.mem_append.mp hx with hx | hx
    · exact (h.past x hx).trans hs.clock
    · exact (hs.latest x (Option.mem_toList.mp hx)).2
  latest folder x hx := by
    rw [List.filter_append]
    rcases hs.active folder x hx with ⟨hv, hf⟩ | ⟨hr, hv⟩
    · simp [hv, hf]
    · have hn : o.value.toList.filter (·.folder == folder) = [] :=
        List.filter_eq_nil_iff.mpr fun made hm => by simp [hv made (Option.mem_toList.mp hm)]
      rw [hn, List.append_nil]
      exact h.latest folder x hr

theorem Agrees.run {heard : List Event} {made : List Registration} {r : Registrations}
    (h : Agrees heard made r) (actions : List Action) :
    let o := runAll actions r
    Agrees (heard ++ o.events) (made ++ o.value) o.state := by
  induction actions generalizing heard made r with
  | nil => simpa [runAll] using h
  | cons action actions ih =>
    have hn := ih (h.step (action.run_steps h.distinct))
    simpa [runAll] using hn

/-- Turns that follow one another without an end are one turn. -/
theorem Turn.append {before between after : Option Registration} {said said' : List Notice}
    (ht : Turn before said between) (ht' : Turn between said' after)
    (hn : .ended ∉ said ++ said') : Turn before (said ++ said') after := by
  cases ht with
  | quiet => exact ht'
  | ends r => simp at hn
  | replaces r r' => simp at hn
  | begins r =>
    cases ht' with
    | quiet => exact .begins r
    | ends => simp at hn
    | replaces => simp at hn

/-- **A run in which a folder's registration does not end** is one turn: it
says nothing of the folder, or begins the registration that there was not. -/
theorem runAll_turn {r : Registrations} (h : r.active.Distinct) (actions : List Action)
    {folder : Option Path} (hn : .ended ∉ notices folder (runAll actions r).events) :
    Turn (r.get? folder) (notices folder (runAll actions r).events)
      ((runAll actions r).state.get? folder) := by
  induction actions generalizing r with
  | nil => exact .quiet _
  | cons action actions ih =>
    have hs := action.run_steps h
    have he : notices folder (runAll (action :: actions) r).events =
        notices folder (action.run r).events ++
          notices folder (runAll actions (action.run r).state).events := by
      simp [runAll]
    rw [he] at hn ⊢
    exact (hs.turn folder).append
      (ih hs.distinct fun hm => hn (List.mem_append_right _ hm)) hn

/-! ## §5 The editor and the registrations agree -/

/-- **The editor and the registrations agree after every run of actions.**
For each folder the editor has heard beginnings and ends by turns, a
beginning first. What it heard last is a beginning exactly when the folder
is registered, and then the folder is registered under the selectors of that
beginning. The beginnings it heard are the registrations that were made, in
order; their times rise strictly, so no two registrations of a run have one
time, of whatever folders they are; and the registration that a folder has
is the latest one that was made for it. -/
theorem runAll_agrees (actions : List Action) :
    let o := runAll actions {}
    (∀ folder, TakeTurns (notices folder o.events) ∧
      ∀ selectors, (notices folder o.events).getLast? = some (.begun selectors) ↔
        (o.state.get? folder).map (·.selectors) = some selectors) ∧
    o.events.filterMap begun? = (o.value.map fun x => (x.folder, x.selectors)) ∧
    (o.value.map (·.activation)).Pairwise (· < ·) ∧
    ∀ folder x, o.state.get? folder = some x →
      (o.value.filter (·.folder == folder)).getLast? = some x := by
  intro o
  have h := agrees_nil.run actions
  dsimp only at h
  rw [List.nil_append, List.nil_append] at h
  exact ⟨fun folder => ⟨(h.inStep folder).turns, (h.inStep folder).last⟩, h.begun, h.rising,
    h.latest⟩

/-- A folder that is registered again and then forgotten. -/
example :
    let actions : List Action :=
      [.register none {} 1, .register none {} 1, .invalidateAll, .invalidate none]
    notices none (runAll actions {}).events = [.begun {}, .ended, .begun {}, .ended] := by
  decide

end FormatHost.Registrations
