/-
FormatHost.Proofs.Json.Fields — what overlaying one table with another
does to look-ups and to the order of names.

A table in order has each name once. Look-ups see the upper of two tables
first, provided the upper one has each name once: a table that named a key
twice would be read at the first of the two and overlaid by the last.

* §1 names: which there are, and that building tables keeps them in order;
* §2 `find?_overlay`;
* §3 lists of fields with each name once, in any order;
* §4 fields that may be missing.
-/
import FormatHost.Json.Value

namespace FormatHost.Fields

variable {α β : Type}

/-! ## §1 Names -/

/-- The names stand in order, each once. -/
def Ordered (o : Fields α) : Prop := o.keys.Pairwise (· < ·)

theorem ordered_nil : Ordered ([] : Fields α) := List.Pairwise.nil

theorem keys_mapValues (f : α → β) (o : Fields α) : (o.mapValues f).keys = o.keys := by
  simp [keys, mapValues]

/-- The names of a table are those that it has a value for. -/
theorem mem_keys_iff (o : Fields α) (key : String) : key ∈ o.keys ↔ (o.find? key).isSome := by
  induction o with
  | nil => simp [keys, find?]
  | cons e rest ih =>
    obtain ⟨k, v⟩ := e
    rw [keys] at ih
    simp only [keys, List.map_cons, List.mem_cons, find?]
    by_cases h : k = key
    · simp [h]
    · simp [h, Ne.symm h, ih]

theorem find?_eq_none {o : Fields α} {key : String} (h : key ∉ o.keys) : o.find? key = none := by
  rw [mem_keys_iff] at h
  simpa using h

theorem mem_keys_insert (o : Fields α) (key k : String) (value : α) :
    k ∈ (o.insert key value).keys ↔ key = k ∨ k ∈ o.keys := by
  rw [mem_keys_iff, mem_keys_iff, find?_insert]
  by_cases h : key = k <;> simp [h]

theorem ordered_insert {o : Fields α} (ho : o.Ordered) (key : String) (value : α) :
    (o.insert key value).Ordered := by
  induction o with
  | nil => simp [Ordered, insert, keys]
  | cons e rest ih =>
    obtain ⟨k, v⟩ := e
    obtain ⟨hk, hr⟩ := List.pairwise_cons.mp ho
    unfold insert
    by_cases h1 : key = k
    · rw [if_pos h1, h1]
      exact List.pairwise_cons.mpr ⟨hk, hr⟩
    rw [if_neg h1]
    by_cases h2 : key < k
    · rw [if_pos h2]
      refine List.pairwise_cons.mpr ⟨?_, List.pairwise_cons.mpr ⟨hk, hr⟩⟩
      intro k' hm
      rcases List.mem_cons.mp hm with rfl | hm
      · exact h2
      · exact String.lt_trans h2 (hk k' hm)
    · rw [if_neg h2]
      refine List.pairwise_cons.mpr ⟨?_, ih hr⟩
      intro k' hm
      rcases (mem_keys_insert rest key k' value).mp hm with rfl | hm
      · refine Decidable.byContradiction fun h3 => h1 ?_
        exact String.le_antisymm (String.not_lt.mp h3) (String.not_lt.mp h2)
      · exact hk k' hm

theorem ordered_overlay {base : Fields α} (hb : base.Ordered) (top : Fields α) :
    (base.overlay top).Ordered := by
  unfold overlay
  induction top generalizing base with
  | nil => exact hb
  | cons e rest ih => exact ih (ordered_insert hb e.1 e.2)

theorem ordered_ofList (fields : List (String × α)) : (ofList fields).Ordered :=
  ordered_overlay ordered_nil fields

theorem ordered_erase {o : Fields α} (ho : o.Ordered) (key : String) : (o.erase key).Ordered :=
  List.Pairwise.sublist (List.filter_sublist.map _) ho

theorem Ordered.nodup {o : Fields α} (ho : o.Ordered) : o.keys.Nodup :=
  List.Pairwise.imp (fun h he => absurd (he ▸ h) (String.lt_irrefl _)) ho

theorem find?_erase (o : Fields α) (key k : String) :
    (o.erase key).find? k = if k = key then none else o.find? k := by
  induction o with
  | nil => simp [erase, find?]
  | cons e rest ih =>
    have hcons : erase (e :: rest) key =
        if e.1 ≠ key then e :: erase rest key else erase rest key := by
      simp only [erase, List.filter_cons, decide_eq_true_eq]
    rw [hcons]
    by_cases h1 : e.1 = key
    · rw [if_neg (not_not_intro h1), ih, find?]
      by_cases h2 : k = key
      · rw [if_pos h2, if_pos h2]
      · rw [if_neg h2, if_neg h2, if_neg fun h => h2 (h.symm.trans h1)]
    · rw [if_pos h1, find?, find?, ih]
      by_cases h2 : e.1 = k
      · rw [if_pos h2, if_pos h2, if_neg (h2 ▸ h1)]
      · rw [if_neg h2, if_neg h2]

/-! ## §2 Overlays -/

/-- A look-up in an overlay sees the upper table first. -/
theorem find?_overlay (base : Fields α) {top : Fields α} (ht : top.keys.Nodup) (key : String) :
    (base.overlay top).find? key = (top.find? key).or (base.find? key) := by
  unfold overlay
  induction top generalizing base with
  | nil => rfl
  | cons e rest ih =>
    obtain ⟨k, v⟩ := e
    obtain ⟨hk, hr⟩ := List.nodup_cons.mp ht
    rw [List.foldl_cons, ih _ hr, find?_insert, find?]
    by_cases h : k = key
    · subst h
      rw [if_pos rfl, if_pos rfl, find?_eq_none hk]
      rfl
    · rw [if_neg h, if_neg h]

/-! ## §3 Lists of fields -/

/-- What is found stands in the list. -/
theorem mem_of_find? {o : Fields α} {key : String} {value : α} (h : o.find? key = some value) :
    (key, value) ∈ o := by
  induction o with
  | nil => cases h
  | cons e rest ih =>
    rw [find?] at h
    split at h
    · rename_i hk
      obtain rfl := Option.some.inj h
      subst hk
      exact List.mem_cons_self ..
    · exact List.mem_cons_of_mem _ (ih h)

/-- Where each name stands once, what stands in the list is found. -/
theorem find?_eq_some_iff {o : Fields α} (hn : o.keys.Nodup) {key : String} {value : α} :
    o.find? key = some value ↔ (key, value) ∈ o := by
  refine ⟨mem_of_find?, fun h => ?_⟩
  induction o with
  | nil => cases h
  | cons e rest ih =>
    obtain ⟨k, v⟩ := e
    obtain ⟨hk, hr⟩ := List.nodup_cons.mp hn
    rw [find?]
    rcases List.mem_cons.mp h with h | h
    · obtain ⟨rfl, rfl⟩ := Prod.mk.inj h
      rw [if_pos rfl]
    · have hne : k ≠ key := by
        rintro rfl
        exact hk (List.mem_map.mpr ⟨_, h, rfl⟩)
      rw [if_neg hne, ih hr h]

theorem nodup_keys_of_perm {o o' : Fields α} (h : o.Perm o') (hn : o'.keys.Nodup) :
    o.keys.Nodup :=
  (h.map _).nodup_iff.mpr hn

/-- The order of the list does not matter. -/
theorem find?_perm {o o' : Fields α} (h : o.Perm o') (hn : o'.keys.Nodup) (key : String) :
    o.find? key = o'.find? key := by
  apply Option.ext
  intro value
  rw [find?_eq_some_iff (nodup_keys_of_perm h hn), find?_eq_some_iff hn, h.mem_iff]

/-- A table made of a list is the list, in order. -/
theorem find?_ofList {fields : Fields α} (hn : fields.keys.Nodup) (key : String) :
    (ofList fields).find? key = fields.find? key := by
  have h := find?_overlay [] hn key
  rwa [show Fields.find? ([] : Fields α) key = none from rfl, Option.or_none] at h

theorem nodup_of_keys {o : Fields α} (hn : o.keys.Nodup) : o.Nodup :=
  (List.pairwise_map.mp hn).imp fun h he => h (congrArg Prod.fst he)

theorem ofList_perm {fields : Fields α} (hn : fields.keys.Nodup) :
    (ofList fields).Perm fields := by
  have ho := (ordered_ofList fields).nodup
  refine (List.perm_ext_iff_of_nodup (nodup_of_keys ho) (nodup_of_keys hn)).mpr ?_
  rintro ⟨key, value⟩
  rw [← find?_eq_some_iff ho, ← find?_eq_some_iff hn, find?_ofList hn]

theorem nodup_keys_filter {o : Fields α} (hn : o.keys.Nodup) (p : String × α → Bool) :
    (Fields.keys (o.filter p)).Nodup :=
  hn.sublist (List.filter_sublist.map _)

theorem find?_filter {o : Fields α} (hn : o.keys.Nodup) (p : String × α → Bool) (key : String) :
    Fields.find? (o.filter p) key = (o.find? key).filter fun value => p (key, value) := by
  apply Option.ext
  intro value
  rw [find?_eq_some_iff (nodup_keys_filter hn p), Option.filter_eq_some_iff,
    find?_eq_some_iff hn, List.mem_filter]

/-- Tables in order with the same look-ups are the same table. -/
theorem Ordered.ext {o o' : Fields α} (ho : o.Ordered) (ho' : o'.Ordered)
    (h : ∀ key, o.find? key = o'.find? key) : o = o' := by
  have hperm : o.Perm o' := by
    refine (List.perm_ext_iff_of_nodup (nodup_of_keys ho.nodup) (nodup_of_keys ho'.nodup)).mpr ?_
    rintro ⟨key, value⟩
    rw [← find?_eq_some_iff ho.nodup, ← find?_eq_some_iff ho'.nodup, h]
  have hsorted : o.Pairwise fun a b => a.1 < b.1 := List.pairwise_map.mp ho
  have hsorted' : o'.Pairwise fun a b => a.1 < b.1 := List.pairwise_map.mp ho'
  exact hperm.eq_of_pairwise
    (fun _ _ _ _ hab hba => absurd (String.lt_trans hab hba) (String.lt_irrefl _)) hsorted hsorted'

/-- Tables in order that name the same keys name them in the same places. -/
theorem Ordered.keys_ext {o : Fields α} {o' : Fields β} (ho : o.Ordered) (ho' : o'.Ordered)
    (h : ∀ key, key ∈ o.keys ↔ key ∈ o'.keys) : o.keys = o'.keys := by
  have hperm : o.keys.Perm o'.keys := (List.perm_ext_iff_of_nodup ho.nodup ho'.nodup).mpr h
  exact hperm.eq_of_pairwise
    (fun _ _ _ _ hab hba => absurd (String.lt_trans hab hba) (String.lt_irrefl _)) ho ho'

/-- In a table made of a list, the last field of a name counts. -/
theorem find?_overlay_last (base : Fields α) (top : List (String × α)) (key : String) :
    (base.overlay top).find? key =
      ((top.filter (·.1 == key)).getLast?.map Prod.snd).or (base.find? key) := by
  unfold overlay
  induction top generalizing base with
  | nil => rfl
  | cons e rest ih =>
    rw [List.foldl_cons, ih, find?_insert, List.filter_cons]
    by_cases h : e.1 = key
    · rw [if_pos h, if_pos (beq_iff_eq.mpr h), List.getLast?_cons]
      cases (rest.filter (·.1 == key)).getLast? <;> rfl
    · rw [if_neg h, if_neg (by simpa using h)]

theorem find?_append (o o' : Fields α) (key : String) :
    Fields.find? (o ++ o') key = (o.find? key).or (o'.find? key) := by
  induction o with
  | nil => rfl
  | cons e rest ih =>
    rw [List.cons_append, find?, find?, ih]
    split <;> rfl

/-! ## §4 Fields that may be missing -/

/-- The fields that have a value. -/
def present (o : Fields (Option α)) : Fields α := o.filterMap fun e => e.2.map (e.1, ·)

theorem find?_present {o : Fields (Option α)} (hn : o.keys.Nodup) (key : String) :
    o.present.find? key = (o.find? key).join := by
  induction o with
  | nil => rfl
  | cons e rest ih =>
    obtain ⟨k, v?⟩ := e
    obtain ⟨hk, hr⟩ := List.nodup_cons.mp hn
    have hrest := ih hr
    rw [find?]
    cases v? with
    | none =>
      have hcons : present ((k, none) :: rest) = present rest := rfl
      rw [hcons, hrest]
      split
      · rename_i h
        rw [find?_eq_none (h ▸ hk)]
        rfl
      · rfl
    | some v =>
      have hcons : present ((k, some v) :: rest) = (k, v) :: present rest := rfl
      rw [hcons, find?, hrest]
      split <;> rfl

theorem keys_present_sublist (o : Fields (Option α)) : (present o).keys.Sublist o.keys := by
  unfold present keys
  rw [List.map_filterMap]
  induction o with
  | nil => exact List.Sublist.slnil
  | cons e rest ih =>
    obtain ⟨k, v?⟩ := e
    cases v? with
    | none => exact ih.cons k
    | some v => exact ih.cons_cons k

theorem nodup_keys_present {o : Fields (Option α)} (hn : o.keys.Nodup) : o.present.keys.Nodup :=
  hn.sublist (keys_present_sublist o)

end FormatHost.Fields
