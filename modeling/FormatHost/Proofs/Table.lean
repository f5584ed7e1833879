/-
FormatHost.Proofs.Table — what is found in a table after it was changed.

Keys are compared by `==`, which for paths is not equality: two spellings
of a path are one key. That `==` is an equivalence is all that looking up
needs.

* §1 paths, and folders that may be missing, as keys;
* §2 `find?` after `insert`, `erase` and `filterKeys`;
* §3 `Distinct`: tables in which no two keys compare equal;
* §4 `key?`: how a table spells a key;
* §5 functions that are changed at one place.
-/
import FormatHost.Table
import Mathlib.Logic.Function.Basic

namespace FormatHost

/-! ## §1 Keys -/

namespace Path

theorem beq_iff {p q : Path} : (p == q) = true ↔ p.components = q.components := by
  show (p.components == q.components) = true ↔ p.components = q.components
  exact beq_iff_eq

theorem beq_refl (p : Path) : (p == p) = true := beq_iff.mpr rfl

instance : EquivBEq Path where
  rfl := beq_refl _
  symm h := beq_iff.mpr (beq_iff.mp h).symm
  trans h h' := beq_iff.mpr ((beq_iff.mp h).trans (beq_iff.mp h'))

/-- Paths that compare equal compare alike with every other. -/
theorem beq_congr {p q : Path} (h : (p == q) = true) (k : Path) : (k == p) = (k == q) :=
  BEq.congr_right h

/-- What nests a path nests every spelling of it. -/
theorem startsWith_congr {p q : Path} (h : (p == q) = true) (base : Path) :
    p.startsWith base = q.startsWith base := by
  unfold startsWith
  rw [beq_iff.mp h]

/-- Every spelling of a directory nests the same paths. -/
theorem startsWith_base_congr {base base' : Path} (h : (base == base') = true) (p : Path) :
    p.startsWith base = p.startsWith base' := by
  unfold startsWith
  rw [beq_iff.mp h]

end Path

instance equivBEqOption {κ : Type} [BEq κ] [EquivBEq κ] : EquivBEq (Option κ) where
  rfl := by
    intro a
    cases a with
    | none => rfl
    | some k => exact BEq.refl k
  symm := by
    intro a b h
    cases a with
    | none => cases b with
      | none => rfl
      | some k => cases h
    | some k => cases b with
      | none => cases h
      | some k' => exact PartialEquivBEq.symm (a := k) (b := k') h
  trans := by
    intro a b c h h'
    cases a with
    | none => cases b with
      | none => exact h'
      | some k => cases h
    | some k => cases b with
      | none => cases h
      | some k' => cases c with
        | none => cases h'
        | some k'' => exact PartialEquivBEq.trans (a := k) (b := k') (c := k'') h h'

/-! ## §2 Looking up -/

namespace Table

variable {κ α : Type} [BEq κ]

/-- What is found stands in the table, under a key that compares equal. -/
theorem exists_of_find? {t : Table κ α} {k : κ} {a : α} (h : t.find? k = some a) :
    ∃ e ∈ t.entries, (e.1 == k) = true ∧ e.2 = a := by
  obtain ⟨e, he, ha⟩ := Option.map_eq_some_iff.mp h
  have hk := List.find?_some he
  exact ⟨e, List.mem_of_find?_eq_some he, hk, ha⟩

theorem find?_cons (e : κ × α) (rest : List (κ × α)) (k : κ) :
    find? ⟨e :: rest⟩ k = if e.1 == k then some e.2 else find? ⟨rest⟩ k := by
  simp only [find?, List.find?_cons]
  cases e.1 == k <;> rfl

/-- Under a new key one entry is added, and the others are left alone. -/
theorem entries_insert_of_none {t : Table κ α} {k : κ} (h : t.find? k = none) (a : α) :
    (t.insert k a).entries = t.entries ++ [(k, a)] := by
  have hf : t.entries.find? (fun e => e.1 == k) = none := by simpa [find?] using h
  simp only [insert, hf]

/-- Storing under a new key leaves the others' values. -/
theorem find?_insert_of_none {t : Table κ α} {k : κ} (h : t.find? k = none) (a : α) (k' : κ) :
    (t.insert k a).find? k' = (t.find? k').or (if k == k' then some a else none) := by
  simp only [find?, entries_insert_of_none h, List.find?_append]
  cases t.entries.find? (fun e => e.1 == k') with
  | some e => rfl
  | none => by_cases hk : (k == k') = true <;> simp [hk]

/-- A value in the table after storing one is that one or was there before. -/
theorem mem_entries_insert {t : Table κ α} {k : κ} {a : α} {e : κ × α}
    (h : e ∈ (t.insert k a).entries) : e ∈ t.entries ∨ e.2 = a := by
  unfold insert at h
  split at h
  · rcases List.mem_append.mp h with h | h
    · exact .inl ((List.mem_filter.mp h).1)
    · exact .inr (by rw [List.mem_singleton.mp h])
  · rcases List.mem_append.mp h with h | h
    · exact .inl h
    · exact .inr (by rw [List.mem_singleton.mp h])

/-- Of the entries that a test on keys leaves, one is found when its key
passes. -/
theorem find?_filterKeys {t : Table κ α} {keep : κ → Bool}
    (hk : ∀ a b, (a == b) = true → keep a = keep b) (k : κ) :
    (t.filterKeys keep).find? k = if keep k then t.find? k else none := by
  simp only [filterKeys, find?, List.find?_filter]
  have hcongr : ∀ e : κ × α, decide (keep e.1 = true ∧ (e.1 == k) = true) =
      (keep k && (e.1 == k)) := by
    intro e
    cases he : e.1 == k with
    | false => simp
    | true => simp [hk _ _ he]
  simp only [hcongr]
  cases keep k <;> simp

section Equivalence

variable [EquivBEq κ]

/-- Keys that compare equal find the same. -/
theorem find?_congr (t : Table κ α) {k k' : κ} (h : (k == k') = true) :
    t.find? k = t.find? k' := by
  simp only [find?]
  congr 2
  funext e
  exact BEq.congr_right h

theorem find?_erase (t : Table κ α) (k k' : κ) :
    (t.erase k).find? k' = if k == k' then none else t.find? k' := by
  have he : t.erase k = t.filterKeys fun a => !(a == k) := rfl
  have hk : ∀ a b, (a == b) = true → (!(a == k)) = !(b == k) := by
    intro a b hab
    rw [BEq.congr_left hab]
  rw [he, find?_filterKeys hk, BEq.comm (a := k')]
  cases k == k' <;> rfl

theorem find?_insert (t : Table κ α) (k : κ) (a : α) (k' : κ) :
    (t.insert k a).find? k' = if k == k' then some a else t.find? k' := by
  cases hf : t.entries.find? fun e => e.1 == k with
  | none =>
    have hn : t.find? k = none := by simp [find?, hf]
    rw [find?_insert_of_none hn]
    cases hk : k == k' with
    | false => simp
    | true =>
      rw [← find?_congr t hk, hn]
      rfl
  | some old =>
    have ho := List.find?_some hf
    have hi : t.insert k a = ⟨(t.erase k).entries ++ [(old.1, a)]⟩ := by simp only [insert, hf]
    have he := find?_erase t k k'
    simp only [hi, find?, List.find?_append, List.find?_singleton, BEq.congr_left ho] at he ⊢
    cases hk : k == k' with
    | false =>
      rw [hk] at he
      simpa using he
    | true =>
      rw [hk] at he
      have hn : (t.erase k).entries.find? (fun e => e.1 == k') = none := by simpa using he
      rw [hn]
      rfl

end Equivalence

/-! ## §3 Keys that differ -/

/-- No two keys compare equal. -/
def Distinct (t : Table κ α) : Prop := t.keys.Pairwise fun a b => (a == b) = false

theorem distinct_empty : Distinct ({} : Table κ α) := List.Pairwise.nil

theorem Distinct.erase {t : Table κ α} (h : t.Distinct) (k : κ) : (t.erase k).Distinct :=
  List.Pairwise.sublist (List.filter_sublist.map _) h

/-- A key without a value differs from all keys. -/
theorem beq_of_find?_eq_none {t : Table κ α} {k : κ} (h : t.find? k = none) :
    ∀ a ∈ t.keys, (a == k) = false := by
  intro a ha
  obtain ⟨e, he, rfl⟩ := List.mem_map.mp ha
  have hf : t.entries.find? (fun e => e.1 == k) = none := by simpa [find?] using h
  simpa using List.find?_eq_none.mp hf e he

section Equivalence

variable [EquivBEq κ]

theorem Distinct.insert {t : Table κ α} (h : t.Distinct) (k : κ) (a : α) :
    (t.insert k a).Distinct := by
  have hput : ∀ (t : Table κ α) (key : κ), t.Distinct → (∀ b ∈ t.keys, (b == key) = false) →
      Distinct ⟨t.entries ++ [(key, a)]⟩ := by
    intro t key ht hb
    unfold Distinct keys
    rw [List.map_append]
    refine List.pairwise_append.mpr ⟨ht, List.pairwise_singleton _ _, fun b hm c hc => ?_⟩
    rw [List.mem_singleton.mp hc]
    exact hb b hm
  cases hf : t.entries.find? fun e => e.1 == k with
  | none =>
    have hi : t.insert k a = ⟨t.entries ++ [(k, a)]⟩ := by simp only [Table.insert, hf]
    have hn : t.find? k = none := by simp [find?, hf]
    rw [hi]
    exact hput t k h (beq_of_find?_eq_none hn)
  | some old =>
    have hi : t.insert k a = ⟨(t.erase k).entries ++ [(old.1, a)]⟩ := by
      simp only [Table.insert, hf]
    have ho := List.find?_some hf
    have hn : (t.erase k).find? old.1 = none := by
      rw [find?_erase, BEq.comm, ho, if_pos rfl]
    rw [hi]
    exact hput (t.erase k) old.1 (h.erase k) (beq_of_find?_eq_none hn)

/-- Where keys differ, a key is found once if it has a value, and else not. -/
theorem Distinct.length_filter_keys {t : Table κ α} (h : t.Distinct) (k : κ) :
    (t.keys.filter (· == k)).length = (t.find? k).toList.length := by
  obtain ⟨entries⟩ := t
  induction entries with
  | nil => rfl
  | cons e rest ih =>
    obtain ⟨he, hrest⟩ := List.pairwise_cons.mp h
    have hr := ih hrest
    have hkeys : keys ⟨e :: rest⟩ = e.1 :: keys ⟨rest⟩ := rfl
    rw [hkeys, find?_cons]
    by_cases hk : (e.1 == k) = true
    · have hn : (keys ⟨rest⟩).filter (· == k) = [] := by
        refine List.filter_eq_nil_iff.mpr fun a ha hak => ?_
        have hea : (e.1 == a) = true := (BEq.congr_right hak).trans hk
        exact Bool.false_ne_true ((he a ha).symm.trans hea)
      rw [List.filter_cons_of_pos (by exact hk), hn, if_pos hk]
      rfl
    · rw [List.filter_cons_of_neg (by exact hk), hr, if_neg hk]

end Equivalence

/-! ## §4 Spellings -/

section Spellings

variable {κ α : Type} [BEq κ]

/-- Each key with itself as its value. -/
def spelled (t : Table κ α) : Table κ κ := ⟨t.entries.map fun e => (e.1, e.1)⟩

/-- A key as the table spells it. -/
def key? (t : Table κ α) (k : κ) : Option κ := t.spelled.find? k

theorem key?_eq (t : Table κ α) (k : κ) :
    t.key? k = (t.entries.find? fun e => e.1 == k).map (·.1) := by
  simp only [key?, find?, spelled, List.find?_map, Option.map_map]
  rfl

theorem isSome_key? (t : Table κ α) (k : κ) : (t.key? k).isSome = (t.find? k).isSome := by
  rw [key?_eq, find?, Option.isSome_map, Option.isSome_map]

theorem spelled_insert (t : Table κ α) (k : κ) (a : α) :
    (t.insert k a).spelled = t.spelled.insert k ((t.key? k).getD k) := by
  have hs : t.spelled.entries.find? (fun e => e.1 == k) =
      (t.entries.find? fun e => e.1 == k).map fun e => (e.1, e.1) := by
    rw [spelled, List.find?_map]
    rfl
  rw [key?_eq, insert, insert, hs]
  cases t.entries.find? fun e => e.1 == k with
  | none => simp [spelled]
  | some old =>
    simp only [spelled, erase, Option.map_some, Option.getD_some, List.map_append, List.map_cons,
      List.map_nil, List.filter_map]
    rfl

variable [EquivBEq κ]

/-- A key keeps its spelling when it gets another value. -/
theorem key?_insert (t : Table κ α) (k : κ) (a : α) (k' : κ) :
    (t.insert k a).key? k' = if k == k' then some ((t.key? k).getD k) else t.key? k' := by
  rw [key?, spelled_insert, find?_insert]
  rfl

/-- Storing under a key as the table spells it changes no spelling. -/
theorem key?_insert_of_spelled {t : Table κ α} {k : κ} (h : t.key? k = some k) (a : α) (k' : κ) :
    (t.insert k a).key? k' = t.key? k' := by
  rw [key?_insert]
  split
  · rename_i hk
    rw [h, Option.getD_some, ← h]
    exact find?_congr t.spelled hk
  · rfl

/-- Where keys differ, every key is spelled as the table has it. -/
theorem Distinct.key?_of_mem {t : Table κ α} (h : t.Distinct) {k : κ} (hk : k ∈ t.keys) :
    t.key? k = some k := by
  obtain ⟨entries⟩ := t
  induction entries with
  | nil => cases hk
  | cons e rest ih =>
    obtain ⟨he, hrest⟩ := List.pairwise_cons.mp h
    have hcons : key? ⟨e :: rest⟩ k = if e.1 == k then some e.1 else key? ⟨rest⟩ k :=
      find?_cons (e.1, e.1) _ k
    rcases List.mem_cons.mp hk with rfl | hk
    · rw [hcons, BEq.refl, if_pos rfl]
    · rw [hcons, he k hk, if_neg Bool.false_ne_true, ih hrest hk]

end Spellings
end Table

/-! ## §5 Functions -/

/-- A value of a function that was changed at one place was there before, or
it is the new one. -/
theorem some_of_update {ι α : Type} [DecidableEq ι] {f : ι → Option α} {i j : ι}
    {new? : Option α} {a : α} (h : Function.update f i new? j = some a) :
    f j = some a ∨ j = i ∧ new? = some a := by
  rw [Function.update_apply] at h
  split at h
  · exact .inr ⟨‹_›, h⟩
  · exact .inl h

end FormatHost
