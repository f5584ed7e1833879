/-
FormatHost.Proofs.Search — the first of some things that has a property.

Searches on disk go through directories, nearest first, and in each through
names, in order. What they find is first in one order, in which the directory
counts before the name.

* §1 `IsFirst`: nothing before it has the property;
* §2 one thing at a time, and two lists in a row;
* §3 pairs: `isFirst_pairs`.
-/
import Mathlib.Data.List.Basic

namespace FormatHost

variable {α β : Type}

/-! ## §1 The first -/

/-- The first of the things in a list that has a property. -/
def IsFirst (P : α → Prop) (l : List α) (x : α) : Prop :=
  ∃ front back, l = front ++ x :: back ∧ P x ∧ ∀ y ∈ front, ¬ P y

theorem IsFirst.mem {P : α → Prop} {l : List α} {x : α} (h : IsFirst P l x) : x ∈ l := by
  obtain ⟨front, back, rfl, -⟩ := h
  simp

theorem IsFirst.holds {P : α → Prop} {l : List α} {x : α} (h : IsFirst P l x) : P x := by
  obtain ⟨-, -, -, hx, -⟩ := h
  exact hx

/-! ## §2 One at a time -/

theorem not_isFirst_nil {P : α → Prop} {x : α} : ¬ IsFirst P [] x := by
  rintro ⟨front, back, h, -⟩
  simp at h

theorem isFirst_cons {P : α → Prop} {a x : α} {l : List α} :
    IsFirst P (a :: l) x ↔ P a ∧ x = a ∨ ¬ P a ∧ IsFirst P l x := by
  constructor
  · rintro ⟨front, back, h, hx, hfront⟩
    cases front with
    | nil =>
      obtain ⟨rfl, rfl⟩ := List.cons.inj h
      exact .inl ⟨hx, rfl⟩
    | cons b front =>
      obtain ⟨rfl, rfl⟩ := List.cons.inj h
      exact .inr ⟨hfront a (List.mem_cons_self ..), front, back, rfl, hx,
        fun y hy => hfront y (List.mem_cons_of_mem _ hy)⟩
  · rintro (⟨ha, rfl⟩ | ⟨ha, front, back, rfl, hx, hfront⟩)
    · exact ⟨[], l, rfl, ha, fun y hy => absurd hy List.not_mem_nil⟩
    · refine ⟨a :: front, back, rfl, hx, fun y hy => ?_⟩
      rcases List.mem_cons.mp hy with rfl | hy
      · exact ha
      · exact hfront y hy

/-- One of the things is the first, or none has the property. -/
theorem exists_isFirst (P : α → Prop) (l : List α) :
    (∃ x, IsFirst P l x) ∨ ∀ x ∈ l, ¬ P x := by
  induction l with
  | nil => exact .inr fun x hx => absurd hx List.not_mem_nil
  | cons a l ih =>
    by_cases ha : P a
    · exact .inl ⟨a, isFirst_cons.mpr (.inl ⟨ha, rfl⟩)⟩
    rcases ih with ⟨x, hx⟩ | hnone
    · exact .inl ⟨x, isFirst_cons.mpr (.inr ⟨ha, hx⟩)⟩
    · exact .inr (List.forall_mem_cons.mpr ⟨ha, hnone⟩)

theorem isFirst_append {P : α → Prop} {x : α} {l l' : List α} :
    IsFirst P (l ++ l') x ↔ IsFirst P l x ∨ (∀ y ∈ l, ¬ P y) ∧ IsFirst P l' x := by
  induction l with
  | nil => simp [not_isFirst_nil]
  | cons a l ih =>
    rw [List.cons_append, isFirst_cons, isFirst_cons, ih, List.forall_mem_cons]
    tauto

/-! ## §3 Pairs -/

theorem isFirst_map {P : β → Prop} {f : α → β} {l : List α} {y : β} :
    IsFirst P (l.map f) y ↔ ∃ x, IsFirst (P ∘ f) l x ∧ y = f x := by
  induction l with
  | nil => simp [not_isFirst_nil]
  | cons a l ih =>
    rw [List.map_cons, isFirst_cons, ih]
    constructor
    · rintro (⟨ha, rfl⟩ | ⟨ha, x, hx, rfl⟩)
      · exact ⟨a, isFirst_cons.mpr (.inl ⟨ha, rfl⟩), rfl⟩
      · exact ⟨x, isFirst_cons.mpr (.inr ⟨ha, hx⟩), rfl⟩
    · rintro ⟨x, hx, rfl⟩
      rcases isFirst_cons.mp hx with ⟨ha, rfl⟩ | ⟨ha, hx⟩
      · exact .inl ⟨ha, rfl⟩
      · exact .inr ⟨ha, x, hx, rfl⟩

/-- **The first of all pairs.** Its left part is the first that makes a pair
with the property at all, its right part the first that does so with it. -/
theorem isFirst_pairs {P : α × β → Prop} {l : List α} {bs : List β} {x : α × β} :
    IsFirst P (l.flatMap fun a => bs.map (a, ·)) x ↔
      IsFirst (fun a => ∃ b ∈ bs, P (a, b)) l x.1 ∧ IsFirst (fun b => P (x.1, b)) bs x.2 := by
  obtain ⟨a', b'⟩ := x
  induction l with
  | nil => simp [not_isFirst_nil]
  | cons a l ih =>
    have hrow : IsFirst P (bs.map (a, ·)) (a', b') ↔
        a' = a ∧ IsFirst (fun b => P (a, b)) bs b' := by
      rw [isFirst_map]
      constructor
      · rintro ⟨b, hb, he⟩
        obtain ⟨rfl, rfl⟩ := Prod.mk.inj he
        exact ⟨rfl, hb⟩
      · rintro ⟨rfl, hb⟩
        exact ⟨b', hb, rfl⟩
    rw [List.flatMap_cons, isFirst_append, ih, hrow, List.forall_mem_map, isFirst_cons]
    constructor
    · rintro (⟨rfl, hb⟩ | ⟨hnone, ha, hb⟩)
      · exact ⟨.inl ⟨⟨b', hb.mem, hb.holds⟩, rfl⟩, hb⟩
      · exact ⟨.inr ⟨fun ⟨b, hm, hp⟩ => hnone b hm hp, ha⟩, hb⟩
    · rintro ⟨⟨-, rfl⟩ | ⟨hnone, ha⟩, hb⟩
      · exact .inl ⟨rfl, hb⟩
      · exact .inr ⟨fun b hm hp => hnone ⟨b, hm, hp⟩, ha, hb⟩

end FormatHost
