/-
FormatHost.Proofs.Registration — what ending and making a registration does.

* §1 ending: the outcome, and which registrations are left;
* §2 making: the outcome, and which registrations there are then;
* §3 events: the registrar only hears of the folder in question.
-/
import FormatHost.Proofs.Run
import FormatHost.Proofs.Table
import FormatHost.Registration

namespace FormatHost.Registrations

open Run

variable (folder : Option Path)

/-! ## §1 Ending -/

/-- Only a registration that there is ends, and the editor is told. -/
theorem invalidate_apply (r : Registrations) :
    invalidate folder r =
      if (r.get? folder).isSome then
        ⟨(), { r with active := r.active.erase folder }, [.unregister folder]⟩
      else ⟨(), r, []⟩ := by
  have h : invalidate folder r =
      (if (r.get? folder).isSome then do
        Run.emit (.unregister folder)
        Run.set { r with active := r.active.erase folder }
      else pure ()) r := rfl
  rw [h]
  split <;> rfl

theorem invalidate_get? (r : Registrations) (k : Option Path) :
    (invalidate folder r).state.get? k = if folder == k then none else r.get? k := by
  rw [invalidate_apply]
  split
  · exact Table.find?_erase r.active folder k
  · rename_i hf
    cases hk : folder == k with
    | false => rfl
    | true =>
      -- a folder that compares equal has no registration either
      have hn : r.active.find? folder = none := by simpa [get?] using hf
      exact (Table.find?_congr r.active hk).symm.trans hn

/-- What is heard of an end goes by whether there is a registration. -/
theorem invalidate_events_congr {folder : Option Path} {r r' : Registrations}
    (h : (r.get? folder).isSome = (r'.get? folder).isSome) :
    (invalidate folder r).events = (invalidate folder r').events := by
  rw [invalidate_apply, invalidate_apply, h]
  split <;> rfl

/-! ## §2 Making -/

theorem invalidate_clock (r : Registrations) : (invalidate folder r).state.clock = r.clock := by
  rw [invalidate_apply]
  split <;> rfl

/-- A registration is made after the one before it has ended, at the next
tick of the clock. -/
theorem register_apply (selectors : Selectors) (priority : Int32) (r : Registrations) :
    let registration : Registration := ⟨folder, selectors, r.clock + 1⟩
    register folder selectors priority r =
      ⟨registration,
        ⟨(invalidate folder r).state.active.insert folder registration, r.clock + 1⟩,
        (invalidate folder r).events ++ [.register folder selectors priority]⟩ := by
  dsimp only
  rw [← invalidate_clock folder r]
  rfl

theorem register_get? (selectors : Selectors) (priority : Int32) (r : Registrations)
    (k : Option Path) :
    (register folder selectors priority r).state.get? k =
      if folder == k then some (register folder selectors priority r).value else r.get? k := by
  have hr := invalidate_get? folder r k
  rw [register_apply]
  refine (Table.find?_insert _ folder _ k).trans ?_
  cases hk : folder == k with
  | true => rfl
  | false =>
    rw [hk] at hr
    exact hr

/-! ## §3 Events -/

variable {p : Event → Prop}

theorem emits_invalidate (hu : p (.unregister folder)) : Emits p (invalidate folder) := by
  intro r e he
  rw [invalidate_apply] at he
  split at he
  · rw [List.mem_singleton.mp he]
    exact hu
  · cases he

theorem emits_register {selectors : Selectors} {priority : Int32} (hu : p (.unregister folder))
    (hr : p (.register folder selectors priority)) :
    Emits p (register folder selectors priority) := by
  unfold register
  refine (emits_invalidate folder hu).bind fun _ => Emits.bind (emits_emit hr) fun _ => ?_
  exact emits_get.bind fun r => (emits_set _).bind fun _ => emits_pure _

end FormatHost.Registrations
