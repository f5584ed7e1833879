/-
FormatHost.Proofs.Watch.Delivery — which events a subscription yields, over
every history of a watcher.

A watcher is asked to subscribe, to tell of an event, for the next event of
a subscription, and to drop one. What a subscription has yielded and what
still waits in its queue are, together, the events since it was made, up to
its end, that its pattern accepts: each request keeps this sum in step with
the events told of (`answer_step`), and before its beginning and after its
end a subscription yields nothing.

* §1 requests and histories;
* §2 the number of a subscription, and what a request does to one;
* §3 a subscription that is not there yields nothing;
* §4 what a subscription yields;
* §5 which subscriptions are live;
* §6 what is asked of others;
* §7 `delivery`.
-/
import FormatHost.Proofs.Watch

namespace FormatHost.Watcher

/-! ## §1 Requests and histories -/

/-- What is asked of a watcher. -/
inductive Request
  | watch (pattern : WatchPattern)
  | emit (e : WatchEvent)
  /-- Take the oldest event of a subscription. -/
  | next (id : Nat)
  | drop (id : Nat)

/-- What a watcher answers. -/
inductive Reply
  | subscribed (id : Nat)
  /-- To how many subscriptions an event went. -/
  | delivered (count : Nat)
  | yielded (e? : Option WatchEvent)
  | dropped
  deriving DecidableEq

/-- The answer to a request, and the watcher after it. -/
def answer (w : Watcher) : Request → Reply × Watcher
  | .watch pattern => (.subscribed (w.watch pattern).1, (w.watch pattern).2)
  | .emit e => (.delivered (w.emit e).1, (w.emit e).2)
  | .next id => (.yielded (w.next? id).1, (w.next? id).2)
  | .drop id => (.dropped, w.drop id)

/-- The watcher after requests. -/
def after (w : Watcher) (rs : List Request) : Watcher := rs.foldl (fun w r => (w.answer r).2) w

/-- Requests with their answers. -/
def history (w : Watcher) : List Request → List (Request × Reply)
  | [] => []
  | r :: rs => (r, (w.answer r).1) :: history (w.answer r).2 rs

/-- The event that an answered request yields for a subscription. -/
def yield? (id : Nat) : Request × Reply → Option WatchEvent
  | (.next i, .yielded e?) => if i = id then e? else none
  | _ => none

/-- The events that a subscription has yielded, in order. -/
def yielded (id : Nat) (h : List (Request × Reply)) : List WatchEvent := h.filterMap (yield? id)

namespace Request

def event? : Request → Option WatchEvent
  | .emit e => some e
  | _ => none

def isWatch : Request → Bool
  | .watch _ => true
  | _ => false

/-- The request ends a subscription. -/
def drops (id : Nat) : Request → Bool
  | .drop i => i = id
  | _ => false

end Request

/-- The events that are told of, in order. -/
def emitted (rs : List Request) : List WatchEvent := rs.filterMap Request.event?

/-- How many subscriptions are made. -/
def watches (rs : List Request) : Nat := rs.countP Request.isWatch

/-- The subscriptions that are made and not dropped afterwards, by their
numbers: `n` is the number of the first one. -/
def liveFrom (n : Nat) : List Request → List (Nat × WatchPattern)
  | [] => []
  | .watch pattern :: rs =>
    if rs.any (Request.drops n) then liveFrom (n + 1) rs else (n, pattern) :: liveFrom (n + 1) rs
  | _ :: rs => liveFrom n rs

/-- The subscriptions that are live after requests. -/
def live (rs : List Request) : List (Nat × WatchPattern) := liveFrom 0 rs

variable {w : Watcher} {id : Nat}

@[simp] theorem after_cons (w : Watcher) (r : Request) (rs : List Request) :
    w.after (r :: rs) = (w.answer r).2.after rs := rfl

theorem after_append (w : Watcher) (rs rs' : List Request) :
    w.after (rs ++ rs') = (w.after rs).after rs' := List.foldl_append

theorem history_append (w : Watcher) (rs rs' : List Request) :
    w.history (rs ++ rs') = w.history rs ++ (w.after rs).history rs' := by
  induction rs generalizing w with
  | nil => rfl
  | cons r rs ih => simp [history, ih]

theorem yielded_append (id : Nat) (h h' : List (Request × Reply)) :
    yielded id (h ++ h') = yielded id h ++ yielded id h' := List.filterMap_append

theorem yielded_cons (id : Nat) (p : Request × Reply) (h : List (Request × Reply)) :
    yielded id (p :: h) = (yield? id p).toList ++ yielded id h := by
  rw [yielded, List.filterMap_cons]
  cases yield? id p <;> rfl

theorem emitted_cons (r : Request) (rs : List Request) :
    emitted (r :: rs) = r.event?.toList ++ emitted rs := by
  rw [emitted, List.filterMap_cons]
  cases r.event? <;> rfl

/-! ## §2 One request -/

theorem nextId_answer (w : Watcher) (r : Request) :
    (w.answer r).2.nextId = w.nextId + if r.isWatch then 1 else 0 := by
  cases r with
  | next id => exact nextId_next? w id
  | _ => rfl

theorem nextId_after (w : Watcher) (rs : List Request) :
    (w.after rs).nextId = w.nextId + watches rs := by
  induction rs generalizing w with
  | nil => rfl
  | cons r rs ih =>
    rw [after_cons, ih, nextId_answer, watches, watches, List.countP_cons]
    omega

/-- A subscription is where it was after a request that does not drop it;
its pattern stays, and what it yields and what waits has grown by the event
told of, if the pattern accepts it. -/
theorem answer_step {s : Subscription} (hf : w.find? id = some s) {r : Request}
    (hr : r.drops id = false) :
    ∃ t, (w.answer r).2.find? id = some t ∧ t.pattern = s.pattern ∧
      (yield? id (r, (w.answer r).1)).toList ++ t.queue =
        s.queue ++ r.event?.toList.filter (s.pattern.accepts ·.path) := by
  cases r with
  | watch pattern =>
    refine ⟨s, ?_, rfl, ?_⟩
    · rw [answer, find?_watch, hf, Option.some_or]
    · simp [yield?, Request.event?]
  | emit e =>
    refine ⟨s.receive e, ?_, Subscription.receive_pattern e s, ?_⟩
    · rw [answer, find?_emit, hf, Option.map_some]
    · cases ha : s.pattern.accepts e.path <;>
        simp [yield?, Request.event?, Subscription.receive, ha]
  | next i =>
    by_cases hi : i = id
    · subst hi
      refine ⟨{ s with queue := s.queue.tail }, ?_, rfl, ?_⟩
      · rw [answer, find?_next?, hf, Option.map_some, if_pos rfl]
      · rcases hq : s.queue with _ | ⟨e, rest⟩ <;>
          simp [answer, yield?, next?_value, hf, hq, Request.event?]
    · refine ⟨s, ?_, rfl, ?_⟩
      · rw [answer, find?_next?, hf, Option.map_some, if_neg (Ne.symm hi)]
      · simp [answer, yield?, hi, Request.event?]
  | drop i =>
    have hi : i ≠ id := by simpa [Request.drops] using hr
    refine ⟨s, ?_, rfl, ?_⟩
    · rw [answer, find?_drop, if_neg (Ne.symm hi), hf]
    · simp [yield?, Request.event?]

/-! ## §3 Before its beginning and after its end -/

/-- A subscription that is not there, and does not get made, stays away and
yields nothing. -/
theorem yielded_of_absent {rs : List Request} (hf : w.find? id = none)
    (hid : id < w.nextId ∨ w.nextId + watches rs ≤ id) :
    yielded id (w.history rs) = [] ∧ (w.after rs).find? id = none := by
  induction rs generalizing w with
  | nil => exact ⟨rfl, hf⟩
  | cons r rs ih =>
    have hwatches : watches (r :: rs) = watches rs + if r.isWatch then 1 else 0 :=
      List.countP_cons
    have hlater : id < (w.answer r).2.nextId ∨ (w.answer r).2.nextId + watches rs ≤ id := by
      rw [nextId_answer]
      omega
    have hstay : (w.answer r).2.find? id = none := by
      cases r with
      | watch pattern =>
        have hne : id ≠ w.nextId := by
          simp only [Request.isWatch, if_true] at hwatches
          omega
        rw [answer, find?_watch, hf, if_neg hne, Option.none_or]
      | emit e => rw [answer, find?_emit, hf, Option.map_none]
      | next i => rw [answer, find?_next?, hf, Option.map_none]
      | drop i => rw [answer, find?_drop, hf, ite_self]
    have hnow : yield? id (r, (w.answer r).1) = none := by
      cases r with
      | next i =>
        by_cases hi : i = id
        · simp [answer, yield?, hi, next?_value, hf]
        · simp [answer, yield?, hi]
      | _ => rfl
    obtain ⟨hnothing, hnever⟩ := ih hstay hlater
    rw [history, yielded_cons, hnow, hnothing]
    exact ⟨rfl, hnever⟩

/-! ## §4 Delivery -/

/-- **What a subscription yields, and then has waiting**, is what waited
before and the events it was told of since, up to its end, that its pattern
accepts. -/
theorem yielded_append_waiting {s : Subscription} (hf : w.find? id = some s)
    (hid : id < w.nextId) (rs : List Request) :
    let life := rs.takeWhile fun r => !r.drops id
    yielded id (w.history rs) ++ ((w.after life).takeAll id).1 =
      s.queue ++ (emitted life).filter (s.pattern.accepts ·.path) := by
  induction rs generalizing w s with
  | nil => simp [history, yielded, emitted, after, takeAll, hf]
  | cons r rs ih =>
    have hlater : id < (w.answer r).2.nextId := by
      rw [nextId_answer]
      omega
    cases hr : r.drops id with
    | false =>
      obtain ⟨t, ht, hpattern, hsum⟩ := answer_step hf hr
      have hrest := ih ht hlater
      simp only [hpattern] at hrest
      rw [List.takeWhile_cons_of_pos (by simp [hr])]
      simp only [history, after_cons, yielded_cons, emitted_cons, List.filter_append]
      rw [List.append_assoc, hrest, ← List.append_assoc, hsum, List.append_assoc]
    | true =>
      -- the subscription ends here, and what waits in it is all there is
      obtain ⟨i, rfl, rfl⟩ : ∃ i, r = .drop i ∧ i = id := by
        cases r with
        | drop i => exact ⟨i, rfl, by simpa [Request.drops] using hr⟩
        | _ => cases hr
      have hgone : (w.drop i).find? i = none := by rw [find?_drop, if_pos rfl]
      have hnothing : yielded i ((w.drop i).history rs) = [] :=
        (yielded_of_absent hgone (.inl hlater)).1
      rw [List.takeWhile_cons_of_neg (by simp [hr])]
      simp only [history, yielded_cons, answer, hnothing]
      simp [yield?, emitted, after, takeAll, hf]

/-! ## §5 Live subscriptions -/

/-- The subscriptions of a watcher, apart from what waits in them. -/
def roll (w : Watcher) : List (Nat × WatchPattern) := w.subscriptions.map fun s => (s.id, s.pattern)

theorem roll_emit (w : Watcher) (e : WatchEvent) : (w.emit e).2.roll = w.roll := by
  simp [roll, emit]

theorem roll_next? (w : Watcher) (id : Nat) : (w.next? id).2.roll = w.roll := by
  have hset : ∀ queue, (w.setQueue id queue).roll = w.roll := by
    intro queue
    simp only [roll, setQueue, List.map_map]
    refine List.map_congr_left fun s _ => ?_
    simp only [Function.comp_apply]
    split <;> rfl
  unfold next?
  split
  · exact hset _
  · rfl

theorem roll_drop (w : Watcher) (id : Nat) :
    (w.drop id).roll = w.roll.filter fun k => decide (k.1 ≠ id) := by
  simp only [roll, drop, List.filter_map]
  rfl

/-- **The live subscriptions** after requests are those of before and those
made meanwhile, less those that were dropped later. -/
theorem roll_after (w : Watcher) (rs : List Request) :
    (w.after rs).roll =
      (w.roll.filter fun k => !rs.any (Request.drops k.1)) ++ liveFrom w.nextId rs := by
  induction rs generalizing w with
  | nil =>
    have hall : (w.roll.filter fun _ => true) = w.roll := List.filter_eq_self.mpr fun _ _ => rfl
    simp [after, liveFrom, hall]
  | cons r rs ih =>
    rw [after_cons, ih, nextId_answer]
    cases r with
    | watch pattern =>
      have hroll : (w.watch pattern).2.roll = w.roll ++ [(w.nextId, pattern)] := by
        simp [roll, watch]
      cases hd : rs.any (Request.drops w.nextId) <;>
        simp [answer, hroll, liveFrom, Request.isWatch, Request.drops, hd]
    | emit e => simp [answer, roll_emit, liveFrom, Request.isWatch, Request.drops]
    | next i => simp [answer, roll_next?, liveFrom, Request.isWatch, Request.drops]
    | drop i =>
      have hkeep : ∀ k : Nat × WatchPattern,
          (!(Request.drop i :: rs).any (Request.drops k.1)) =
            (!rs.any (Request.drops k.1) && decide (k.1 ≠ i)) := by
        intro k
        simp only [List.any_cons, Request.drops, Bool.not_or, Bool.and_comm, eq_comm (a := i),
          decide_not]
      simp only [answer, roll_drop, List.filter_filter, hkeep, liveFrom, Request.isWatch,
        Bool.false_eq_true, if_false, Nat.add_zero]

/-! ## §6 What is asked of others -/

/-- Two watchers do not differ as far as one subscription goes. -/
def Alike (id : Nat) (w w' : Watcher) : Prop :=
  w'.find? id = w.find? id ∧ w'.nextId = w.nextId

/-- Watchers that are alike answer alike, and are alike then. -/
theorem Alike.answer {w' : Watcher} (h : Alike id w w') (r : Request) :
    Alike id (w.answer r).2 (w'.answer r).2 ∧
      yield? id (r, (w'.answer r).1) = yield? id (r, (w.answer r).1) := by
  obtain ⟨hf, hn⟩ := h
  refine ⟨⟨?_, by rw [nextId_answer, nextId_answer, hn]⟩, ?_⟩
  · cases r with
    | watch pattern => simp only [Watcher.answer, find?_watch, hf, hn]
    | emit e => simp only [Watcher.answer, find?_emit, hf]
    | next i => simp only [Watcher.answer, find?_next?, hf]
    | drop i => simp only [Watcher.answer, find?_drop, hf]
  · cases r with
    | next i =>
      by_cases hi : i = id
      · simp only [Watcher.answer, yield?, hi, next?_value, hf]
      · simp only [Watcher.answer, yield?, if_neg hi]
    | _ => rfl

/-- **Dropping another subscription changes nothing for this one.** -/
theorem Alike.without {w' : Watcher} (h : Alike id w w') {other : Nat} (ho : other ≠ id)
    (rs : List Request) :
    let kept := rs.filter fun r => !r.drops other
    yielded id (w'.history kept) = yielded id (w.history rs) ∧
      Alike id (w.after rs) (w'.after kept) := by
  induction rs generalizing w w' with
  | nil => exact ⟨rfl, h⟩
  | cons r rs ih =>
    cases hr : r.drops other with
    | false =>
      obtain ⟨hstep, hyield⟩ := h.answer r
      obtain ⟨hrest, hafter⟩ := ih hstep
      rw [List.filter_cons_of_pos (by simp [hr])]
      refine ⟨?_, hafter⟩
      rw [history, history, yielded_cons, yielded_cons, hyield, hrest]
    | true =>
      obtain ⟨i, rfl, rfl⟩ : ∃ i, r = .drop i ∧ i = other := by
        cases r with
        | drop i => exact ⟨i, rfl, by simpa [Request.drops] using hr⟩
        | _ => cases hr
      have hdrop : Alike id (w.drop i) w' := by
        refine ⟨?_, h.2⟩
        rw [find?_drop, if_neg (Ne.symm ho)]
        exact h.1
      rw [List.filter_cons_of_neg (by simp [hr])]
      exact ih hdrop

/-! ## §7 Histories -/

/-- **What a watcher delivers**, over every history from its beginning. An
event goes to as many subscriptions as are live and accept its path, and
their number is what the watcher says. A subscription that is made next gets
the number of those made before; whatever is asked afterwards, the events it
has yielded and those that wait in it, at its end or now, are the events told
of since then and up to its end that its pattern accepts, in order; and
leaving out that another one is dropped, of the same pattern or not, changes
neither what it yields nor what it is. -/
theorem delivery (rs : List Request) :
    (∀ e, (answer (after {} rs) (.emit e)).1 =
      .delivered ((live rs).countP fun s => s.2.accepts e.path)) ∧
    (after {} rs).size = (live rs).length ∧
    ∀ (pattern : WatchPattern) (later : List Request),
      let id := watches rs
      let all := rs ++ .watch pattern :: later
      let life := later.takeWhile fun r => !r.drops id
      (answer (after {} rs) (.watch pattern)).1 = .subscribed id ∧
      yielded id (history {} all) ++ ((after {} (rs ++ .watch pattern :: life)).takeAll id).1 =
        (emitted life).filter (fun e => pattern.accepts e.path) ∧
      ∀ other, other ≠ id →
        let kept := all.filter fun r => !r.drops other
        yielded id (history {} kept) = yielded id (history {} all) ∧
          (after {} kept).find? id = (after {} all).find? id := by
  have hroll : (after {} rs).roll = live rs := by
    rw [roll_after]
    exact List.nil_append _
  refine ⟨fun e => ?_, ?_, fun pattern later => ?_⟩
  · rw [← hroll, roll, List.countP_map]
    rfl
  · rw [← hroll, roll, List.length_map]
    rfl
  · intro id all life
    have hid : (after {} rs).nextId = id := by
      rw [nextId_after]
      exact Nat.zero_add _
    have hbefore : yielded id (history {} rs) = [] ∧ (after {} rs).find? id = none :=
      yielded_of_absent rfl (.inr (Nat.le_of_eq (Nat.zero_add _)))
    refine ⟨?_, ?_, fun other ho => ?_⟩
    · rw [answer, watch, hid]
    · have hnew : ((after {} rs).watch pattern).2.find? id = some ⟨id, pattern, []⟩ := by
        rw [find?_watch, hbefore.2, hid, if_pos rfl, Option.none_or]
      have hlt : id < ((after {} rs).watch pattern).2.nextId := by
        rw [← hid]
        exact Nat.lt_succ_self _
      have hsum := yielded_append_waiting hnew hlt later
      simp only [all, history_append, yielded_append, hbefore.1, history, yielded_cons, after_append,
        after_cons]
      exact hsum
    · have hstart : Alike id {} {} := ⟨rfl, rfl⟩
      obtain ⟨hyield, hfind, -⟩ := hstart.without ho all
      exact ⟨hyield, hfind⟩

/-- Two subscriptions to one file: the second gets both events, though the
first is dropped between them. -/
theorem delivery_dropped_twin :
    let file : WatchPattern := .path ⟨"/p/a"⟩
    let e : WatchEvent := ⟨.changed, ⟨"/p/a"⟩⟩
    let later : List Request := [.emit e, .drop 0, .emit e, .next 1]
    let all := .watch file :: .watch file :: later
    yielded 1 (history {} (all.filter fun r => !r.drops 0)) = yielded 1 (history {} all) ∧
      yielded 1 (history {} all) = [e] ∧ ((after {} all).takeAll 1).1 = [e] := by
  intro file e later all
  have htwin := ((delivery [.watch file]).2.2 file later).2.2 0 (by decide)
  exact ⟨htwin.1, by decide +kernel, by decide +kernel⟩

end FormatHost.Watcher
