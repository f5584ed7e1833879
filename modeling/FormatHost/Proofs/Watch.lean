/-
FormatHost.Proofs.Watch — what a subscription has after each operation of
the watcher.

Subscriptions are found by their numbers. A new one gets a number above
all others (`Numbered`), so it is found from then on and hides none; and the
other operations leave it where it is and change its queue at most.
-/
import FormatHost.Watch

namespace FormatHost

namespace Subscription

@[simp] theorem receive_id (e : WatchEvent) (s : Subscription) : (s.receive e).id = s.id := by
  unfold receive
  split <;> rfl

@[simp] theorem receive_pattern (e : WatchEvent) (s : Subscription) :
    (s.receive e).pattern = s.pattern := by
  unfold receive
  split <;> rfl

/-- An event that is received waits behind those that came before. -/
theorem mem_queue_receive {e e' : WatchEvent} {s : Subscription} :
    e' ∈ (s.receive e).queue ↔ e' ∈ s.queue ∨ e' = e ∧ s.pattern.accepts e.path = true := by
  unfold receive
  split
  · rename_i ha
    simp [ha]
  · rename_i ha
    simp [ha]

end Subscription

namespace Watcher

/-- What is there hides a new subscription of the same number. -/
theorem find?_watch (w : Watcher) (pattern : WatchPattern) (id : Nat) :
    (w.watch pattern).2.find? id =
      (w.find? id).or (if id = w.nextId then some ⟨w.nextId, pattern, []⟩ else none) := by
  unfold watch find?
  rw [List.find?_append, List.find?_singleton]
  simp only [decide_eq_true_eq, eq_comm (a := w.nextId)]

/-- The number of every subscription lies below the next one. -/
def Numbered (w : Watcher) : Prop := ∀ s ∈ w.subscriptions, s.id < w.nextId

section Numbered

variable {w : Watcher}

theorem Numbered.watch (h : w.Numbered) (pattern : WatchPattern) :
    (w.watch pattern).2.Numbered := by
  intro s hs
  rcases List.mem_append.mp hs with hs | hs
  · exact Nat.lt_succ_of_lt (h s hs)
  · rw [List.mem_singleton.mp hs]
    exact Nat.lt_succ_self _

theorem Numbered.emit (h : w.Numbered) (e : WatchEvent) : (w.emit e).2.Numbered := by
  intro s hs
  obtain ⟨old, ho, rfl⟩ := List.mem_map.mp hs
  rw [Subscription.receive_id]
  exact h old ho

theorem Numbered.setQueue (h : w.Numbered) (id : Nat) (queue : List WatchEvent) :
    (w.setQueue id queue).Numbered := by
  intro s hs
  obtain ⟨old, ho, rfl⟩ := List.mem_map.mp hs
  split <;> exact h old ho

theorem Numbered.lt_of_find? (h : w.Numbered) {id : Nat} {s : Subscription}
    (hf : w.find? id = some s) : id < w.nextId := by
  have hs := h s (List.mem_of_find?_eq_some hf)
  have hid : s.id = id := by simpa using List.find?_some hf
  rwa [hid] at hs

/-- A new subscription is found under its number, and the others under
theirs. -/
theorem Numbered.find?_watch (h : w.Numbered) (pattern : WatchPattern) (id : Nat) :
    (w.watch pattern).2.find? id =
      if id = w.nextId then some ⟨w.nextId, pattern, []⟩ else w.find? id := by
  rw [Watcher.find?_watch]
  by_cases hid : id = w.nextId
  · have hn : w.find? id = none := by
      cases hf : w.find? id with
      | none => rfl
      | some s => exact absurd (hid ▸ h.lt_of_find? hf) (Nat.lt_irrefl _)
    rw [if_pos hid, if_pos hid, hn, Option.none_or]
  · rw [if_neg hid, if_neg hid, Option.or_none]

end Numbered

theorem find?_emit (w : Watcher) (e : WatchEvent) (id : Nat) :
    (w.emit e).2.find? id = (w.find? id).map (·.receive e) := by
  simp only [find?, emit, List.find?_map]
  congr 2
  funext s
  simp

theorem find?_setQueue (w : Watcher) (id : Nat) (queue : List WatchEvent) (id' : Nat) :
    (w.setQueue id queue).find? id' =
      (w.find? id').map fun s => if id' = id then { s with queue } else s := by
  simp only [find?, setQueue, List.find?_map]
  have hid : ((fun s : Subscription => decide (s.id = id')) ∘ fun s =>
      if s.id = id then { s with queue } else s) = fun s => decide (s.id = id') := by
    funext s
    simp only [Function.comp_apply]
    split <;> rfl
  rw [hid]
  cases hf : w.subscriptions.find? fun s => decide (s.id = id') with
  | none => rfl
  | some s =>
    have hs : s.id = id' := by simpa using List.find?_some hf
    simp [hs]

/-- The oldest event of a subscription is taken, and those of others are
left. -/
theorem next?_value (w : Watcher) (id : Nat) :
    (w.next? id).1 = (w.find? id).bind (·.queue.head?) := by
  unfold next?
  cases w.find? id with
  | none => rfl
  | some s =>
    rcases hq : s.queue with _ | ⟨e, rest⟩ <;> simp [hq]

theorem find?_next? (w : Watcher) (id id' : Nat) :
    (w.next? id).2.find? id' =
      (w.find? id').map fun s => if id' = id then { s with queue := s.queue.tail } else s := by
  by_cases hid : id' = id
  · subst hid
    simp only [if_true]
    unfold next?
    cases hf : w.find? id' with
    | none => simp [hf]
    | some s =>
      rcases hq : s.queue with _ | ⟨e, rest⟩
      · have hs : s = { s with queue := [] } := congrArg (fun queue => { s with queue }) hq
        simpa [hf, hq] using hs
      · simp [hf, hq, find?_setQueue]
  · simp only [if_neg hid, Option.map_id']
    unfold next?
    split <;> simp [find?_setQueue, hid]

theorem nextId_next? (w : Watcher) (id : Nat) : (w.next? id).2.nextId = w.nextId := by
  unfold next?
  split <;> rfl

theorem find?_drop (w : Watcher) (id id' : Nat) :
    (w.drop id).find? id' = if id' = id then none else w.find? id' := by
  simp only [find?, drop, List.find?_filter]
  by_cases hid : id' = id
  · rw [if_pos hid]
    refine List.find?_eq_none.mpr fun s _ => ?_
    simp
    omega
  · rw [if_neg hid]
    congr 1
    funext s
    simp
    omega

end Watcher
end FormatHost
