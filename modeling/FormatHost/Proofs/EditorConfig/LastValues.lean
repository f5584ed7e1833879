/-
FormatHost.Proofs.EditorConfig.LastValues — which of the values of a
repeated property counts.

Properties are collected from the outermost file in, so a key comes once for
each section that has it, the most specific one last. The two widths go by
their last value, whatever it is. Every other key goes by the last value
that it knows: a later one that it does not know, such as `off` or `unset`,
leaves the earlier one in force.

* §1 what a single property sets;
* §2 `latest?`: the last property that says something;
* §3 `find?_toOptions`: options told from the properties;
* §4 `lastOnly`: the last property of each key;
* §5 `toOptions_lastOnly`.
-/
import FormatHost.EditorConfig
import FormatHost.Proofs.Json.Fields

namespace FormatHost.EditorConfig

open Json

/-! ## §1 Single properties -/

/-- What a property sets by itself: one option, or none when its key has no
option of its own or does not know the value. -/
def sets (p : Property) : Options := setOption [] p

/-- The keys with an option of their own. -/
def optionNames : List (String × String) :=
  [("indent_style", "useTabs"), ("quote_type", "singleQuote"), ("end_of_line", "endOfLine"),
    ("max_line_length", "printWidth")]

/-- Keys and options stand for each other. -/
theorem optionNames_one_to_one :
    ∀ a ∈ optionNames, ∀ b ∈ optionNames, a.1 = b.1 ↔ a.2 = b.2 := by
  decide

theorem optionNames_ne_width : ∀ a ∈ optionNames,
    a.1 ≠ "indent_size" ∧ a.1 ≠ "tab_width" ∧ a.2 ≠ "tabWidth" := by
  decide

theorem sets_cases (p : Property) :
    sets p = [] ∨ ∃ name value, (p.1, name) ∈ optionNames ∧ sets p = [(name, value)] := by
  unfold sets setOption
  split
  · exact .inr ⟨_, _, by simp [optionNames], rfl⟩
  · exact .inr ⟨_, _, by simp [optionNames], rfl⟩
  · exact .inr ⟨_, _, by simp [optionNames], rfl⟩
  · exact .inr ⟨_, _, by simp [optionNames], rfl⟩
  · split
    · exact .inr ⟨_, _, by simp [optionNames], rfl⟩
    · exact .inl rfl
  · split
    · exact .inr ⟨_, _, by simp [optionNames], rfl⟩
    · exact .inl rfl
  · exact .inl rfl

/-- The values that keys know: some words, and numbers. -/
theorem known_of_sets {p : Property} (h : sets p ≠ []) :
    p.2 ∈ ["tab", "space", "single", "double", "lf", "crlf", "cr"] ∨
      (Text.boundedDecimal? (bitValues 64) p.2.toList).isSome := by
  unfold sets setOption at h
  split at h
  · simp
  · simp
  · simp
  · simp
  · rename_i value
    split at h
    · rename_i hword
      rcases hword with rfl | rfl | rfl <;> simp
    · exact absurd rfl h
  · split at h
    · rename_i n hn
      exact .inr (by simp [hn])
    · exact absurd rfl h
  · exact absurd rfl h

/-- A property puts what it sets over the options. -/
theorem setOption_eq_overlay (o : Options) (p : Property) : setOption o p = o.overlay (sets p) := by
  unfold sets setOption
  split
  · rfl
  · rfl
  · rfl
  · rfl
  · split <;> rfl
  · split <;> rfl
  · rfl

theorem find?_setOption (o : Options) (p : Property) (name : String) :
    (setOption o p).find? name = ((sets p).find? name).or (o.find? name) := by
  rw [setOption_eq_overlay]
  refine Fields.find?_overlay o ?_ name
  rcases sets_cases p with hs | ⟨_, _, -, hs⟩ <;> simp [hs, Fields.keys]

/-- Properties that set one option have one key. -/
theorem key_eq_of_sets {p q : Property} {name : String} (hp : ((sets p).find? name).isSome)
    (hq : ((sets q).find? name).isSome) : p.1 = q.1 := by
  rcases sets_cases p with hs | ⟨name₁, v₁, hn₁, hs⟩
  · simp [hs, Fields.find?] at hp
  · rcases sets_cases q with hs' | ⟨name₂, v₂, hn₂, hs'⟩
    · simp [hs', Fields.find?] at hq
    · obtain rfl : name₁ = name := by simpa [hs, Fields.find?] using hp
      obtain rfl : name₂ = name₁ := by simpa [hs', Fields.find?] using hq
      exact (optionNames_one_to_one _ hn₁ _ hn₂).mpr rfl

/-- Properties of one key set the same option, if they set one. -/
theorem isSome_find?_sets {p q : Property} (h : q.1 = p.1) {name : String}
    (hp : ((sets p).find? name).isSome) (hq : sets q ≠ []) : ((sets q).find? name).isSome := by
  rcases sets_cases p with hs | ⟨name₁, v₁, hn₁, hs⟩
  · simp [hs, Fields.find?] at hp
  · rcases sets_cases q with hs' | ⟨name₂, v₂, hn₂, hs'⟩
    · exact absurd hs' hq
    · obtain rfl : name₁ = name := by simpa [hs, Fields.find?] using hp
      obtain rfl : name₂ = name₁ := (optionNames_one_to_one _ hn₂ _ hn₁).mp h
      simp [hs', Fields.find?]

/-! ## §2 The last property that says something -/

section Latest

variable {α : Type} {f : Property → Option α}

/-- What the last property says that says something. -/
def latest? (f : Property → Option α) (ps : List Property) : Option α := ps.reverse.findSome? f

theorem latest?_cons (p : Property) (ps : List Property) :
    latest? f (p :: ps) = (latest? f ps).or (f p) := by
  simp [latest?, List.findSome?_append]

theorem isSome_latest?_iff {ps : List Property} :
    (latest? f ps).isSome ↔ ∃ p ∈ ps, (f p).isSome := by
  simp [latest?, List.findSome?_isSome_iff]

/-- Properties that say nothing can be left out. -/
theorem latest?_filter {keep : Property → Bool} (h : ∀ p, (f p).isSome → keep p = true)
    (ps : List Property) : latest? f (ps.filter keep) = latest? f ps := by
  induction ps with
  | nil => rfl
  | cons p ps ih =>
    rw [List.filter_cons]
    split
    · rw [latest?_cons, latest?_cons, ih]
    · rename_i hk
      have hn : f p = none := by
        rw [← Option.not_isSome_iff_eq_none]
        exact fun hs => hk (h p hs)
      rw [latest?_cons, ih, hn, Option.or_none]

/-- The model's look-up of a value is one. -/
theorem last?_eq_latest? (ps : List Property) (key : String) :
    last? ps key = latest? (fun p => if p.1 = key then some p.2 else none) ps := by
  induction ps with
  | nil => rfl
  | cons p ps ih =>
    rw [latest?_cons, ← ih]
    by_cases hk : p.1 = key
    · simp only [last?, List.filter_cons, hk, decide_true, if_true, List.getLast?_cons]
      cases (ps.filter (·.1 = key)).getLast? <;> rfl
    · simp [last?, hk]

end Latest

/-! ## §3 Options -/

/-- What the last property that sets an option sets it to. -/
def lastSet? (ps : List Property) (name : String) : Option Value :=
  latest? (fun p => (sets p).find? name) ps

/-- Nothing sets the width of an indentation by itself. -/
theorem lastSet?_tabWidth (ps : List Property) : lastSet? ps "tabWidth" = none := by
  rw [← Option.not_isSome_iff_eq_none, lastSet?, isSome_latest?_iff]
  rintro ⟨p, -, h⟩
  rcases sets_cases p with hs | ⟨name, value, hn, hs⟩
  · simp [hs, Fields.find?] at h
  · have hne := (optionNames_ne_width _ hn).2.2
    simp [hs, Fields.find?, hne] at h

theorem find?_foldl_setOption (o : Options) (ps : List Property) (name : String) :
    (ps.foldl setOption o).find? name = (lastSet? ps name).or (o.find? name) := by
  induction ps generalizing o with
  | nil => rfl
  | cons p ps ih =>
    rw [List.foldl_cons, ih, find?_setOption, lastSet?, lastSet?, latest?_cons, Option.or_assoc]

/-- **An option is what the last property that sets it says.** The width of
an indentation is put together from the last values of its two keys. -/
theorem find?_toOptions (ps : List Property) (name : String) :
    (toOptions ps).find? name =
      if name = "tabWidth" then (indentWidth? ps).map .ofNat else lastSet? ps name := by
  have hfold : (ps.foldl setOption []).find? name = lastSet? ps name :=
    (find?_foldl_setOption [] ps name).trans Option.or_none
  unfold toOptions
  cases indentWidth? ps with
  | none =>
    dsimp only
    rw [hfold]
    split
    · rename_i hn
      rw [hn, lastSet?_tabWidth]
      rfl
    · rfl
  | some n =>
    dsimp only
    rw [Fields.find?_insert, hfold]
    simp [eq_comm]

theorem ordered_toOptions (ps : List Property) : (toOptions ps).Ordered := by
  have hfold : ∀ o : Options, o.Ordered → (ps.foldl setOption o).Ordered := by
    induction ps with
    | nil => exact fun o ho => ho
    | cons p ps ih =>
      intro o ho
      refine ih _ ?_
      rw [setOption_eq_overlay]
      exact Fields.ordered_overlay ho _
  unfold toOptions
  cases indentWidth? ps with
  | none => exact hfold [] Fields.ordered_nil
  | some n => exact Fields.ordered_insert (hfold [] Fields.ordered_nil) _ _

/-- Properties stand for the same options when their widths and what they
set last agree. -/
theorem toOptions_congr {ps qs : List Property} (hwidth : indentWidth? ps = indentWidth? qs)
    (hset : ∀ name, lastSet? ps name = lastSet? qs name) : toOptions ps = toOptions qs := by
  refine (ordered_toOptions ps).ext (ordered_toOptions qs) fun name => ?_
  rw [find?_toOptions, find?_toOptions, hwidth, hset]

theorem lastSet?_eq_of_toOptions {ps qs : List Property} (h : toOptions ps = toOptions qs)
    (name : String) : lastSet? ps name = lastSet? qs name := by
  by_cases hn : name = "tabWidth"
  · rw [hn, lastSet?_tabWidth, lastSet?_tabWidth]
  · have hfind := congrArg (Fields.find? · name) h
    simpa [find?_toOptions, hn] using hfind

theorem indentWidth?_congr {ps qs : List Property}
    (hsize : last? ps "indent_size" = last? qs "indent_size")
    (hwidth : last? ps "tab_width" = last? qs "tab_width") :
    indentWidth? ps = indentWidth? qs := by
  rw [indentWidth?, indentWidth?, hsize, hwidth]

/-! ## §4 The last property of each key -/

/-- The properties that no later one of the same key follows. -/
def lastOnly : List Property → List Property
  | [] => []
  | p :: ps => if ps.any (·.1 == p.1) then lastOnly ps else p :: lastOnly ps

theorem mem_of_mem_lastOnly {ps : List Property} {p : Property} (h : p ∈ lastOnly ps) : p ∈ ps := by
  induction ps with
  | nil => cases h
  | cons q ps ih =>
    unfold lastOnly at h
    split at h
    · exact List.mem_cons_of_mem _ (ih h)
    · rcases List.mem_cons.mp h with rfl | h
      · exact List.mem_cons_self
      · exact List.mem_cons_of_mem _ (ih h)

theorem mem_lastOnly_cons {ps : List Property} {p : Property} (h : p ∈ lastOnly ps)
    (q : Property) : p ∈ lastOnly (q :: ps) := by
  unfold lastOnly
  split
  · exact h
  · exact List.mem_cons_of_mem _ h

/-- Every key keeps a property. -/
theorem exists_mem_lastOnly {ps : List Property} {p : Property} (h : p ∈ ps) :
    ∃ q ∈ lastOnly ps, q.1 = p.1 := by
  induction ps generalizing p with
  | nil => cases h
  | cons q ps ih =>
    rcases List.mem_cons.mp h with rfl | h
    · by_cases hany : ps.any (·.1 == p.1) = true
      · obtain ⟨later, hm, hk⟩ := List.any_eq_true.mp hany
        obtain ⟨last, hlast, hkey⟩ := ih hm
        exact ⟨last, mem_lastOnly_cons hlast p, hkey.trans (beq_iff_eq.mp hk)⟩
      · exact ⟨p, by simp [lastOnly, hany], rfl⟩
    · obtain ⟨last, hlast, hkey⟩ := ih h
      exact ⟨last, mem_lastOnly_cons hlast q, hkey⟩

/-- And only one. -/
theorem lastOnly_unique {ps : List Property} {p q : Property} (hp : p ∈ lastOnly ps)
    (hq : q ∈ lastOnly ps) (h : p.1 = q.1) : p = q := by
  induction ps with
  | nil => cases hp
  | cons first ps ih =>
    unfold lastOnly at hp hq
    by_cases hany : ps.any (·.1 == first.1) = true
    · rw [if_pos hany] at hp hq
      exact ih hp hq
    · rw [if_neg hany] at hp hq
      have hnew : ∀ later ∈ lastOnly ps, later.1 ≠ first.1 := by
        intro later hm hk
        exact hany (List.any_eq_true.mpr ⟨later, mem_of_mem_lastOnly hm, beq_iff_eq.mpr hk⟩)
      rcases List.mem_cons.mp hp with hpf | hpr
      · rcases List.mem_cons.mp hq with hqf | hqr
        · rw [hpf, hqf]
        · exact absurd (h.symm.trans (congrArg Prod.fst hpf)) (hnew q hqr)
      · rcases List.mem_cons.mp hq with hqf | hqr
        · exact absurd (h.trans (congrArg Prod.fst hqf)) (hnew p hpr)
        · exact ih hpr hqr

/-- Where the last property of each key says something if any of that key
does, the others can be left out. -/
theorem latest?_lastOnly {α : Type} {f : Property → Option α} {ps : List Property}
    (h : ∀ p ∈ ps, (f p).isSome → ∀ q ∈ lastOnly ps, q.1 = p.1 → (f q).isSome) :
    latest? f (lastOnly ps) = latest? f ps := by
  induction ps with
  | nil => rfl
  | cons p ps ih =>
    have hrest := ih fun p' hp' hs q hq =>
      h p' (List.mem_cons_of_mem _ hp') hs q (mem_lastOnly_cons hq p)
    rw [latest?_cons]
    by_cases hany : ps.any (·.1 == p.1) = true
    · rw [lastOnly, if_pos hany, hrest]
      cases hp : f p with
      | none => rw [Option.or_none]
      | some a =>
        -- the last property of the key speaks, so this one is not heard
        obtain ⟨later, hm, hk⟩ := List.any_eq_true.mp hany
        obtain ⟨last, hlast, hkey⟩ := exists_mem_lastOnly hm
        have hs : (f last).isSome := h p List.mem_cons_self (by simp [hp]) last
          (mem_lastOnly_cons hlast p) (hkey.trans (beq_iff_eq.mp hk))
        obtain ⟨b, hb⟩ := Option.isSome_iff_exists.mp
          (isSome_latest?_iff.mpr ⟨last, mem_of_mem_lastOnly hlast, hs⟩)
        rw [hb]
        rfl
    · rw [lastOnly, if_neg hany, latest?_cons, hrest]

theorem last?_lastOnly (ps : List Property) (key : String) :
    last? (lastOnly ps) key = last? ps key := by
  rw [last?_eq_latest?, last?_eq_latest?]
  refine latest?_lastOnly fun p _ hs q _ hk => ?_
  simpa [hk] using hs

/-! ## §5 Which properties count -/

/-- Whether a property takes the place of earlier ones of its key: one that
sets an option, and each of the two widths. -/
def counts (p : Property) : Bool :=
  p.1 == "indent_size" || p.1 == "tab_width" || !(sets p).isEmpty

/-- No property that sets an option is followed by a last one of its key
that does not. -/
def Settled (ps : List Property) : Prop :=
  ∀ p ∈ ps, sets p ≠ [] → ∀ q ∈ lastOnly ps, q.1 = p.1 → sets q ≠ []

theorem lastSet?_lastOnly {ps : List Property} (h : Settled ps) (name : String) :
    lastSet? (lastOnly ps) name = lastSet? ps name := by
  refine latest?_lastOnly fun p hp hs q hq hk => isSome_find?_sets hk hs ?_
  refine h p hp ?_ q hq hk
  rintro hnil
  simp [hnil, Fields.find?] at hs

theorem sets_ne_nil_of_isSome {p : Property} {name : String}
    (h : ((sets p).find? name).isSome) : sets p ≠ [] := by
  rintro hnil
  simp [hnil, Fields.find?] at h

/-- Properties that do not count can be left out. -/
theorem toOptions_filter {keep : Property → Bool} (h : ∀ p, counts p = true → keep p = true)
    (ps : List Property) : toOptions (ps.filter keep) = toOptions ps := by
  have hlast : ∀ key, key = "indent_size" ∨ key = "tab_width" →
      last? (ps.filter keep) key = last? ps key := by
    intro key hkey
    rw [last?_eq_latest?, last?_eq_latest?]
    refine latest?_filter (fun p hs => h p ?_) ps
    have hk : p.1 = key := by simpa using hs
    rcases hkey with rfl | rfl <;> simp [counts, hk]
  refine toOptions_congr (indentWidth?_congr (hlast _ (.inl rfl)) (hlast _ (.inr rfl))) fun name => ?_
  refine latest?_filter (fun p hs => h p ?_) ps
  simp [counts, sets_ne_nil_of_isSome hs]

/-- Among properties that count, the last of each key is enough. -/
theorem settled_filter_counts (ps : List Property) : Settled (ps.filter counts) := by
  intro p _ hs q hq hk
  have hc := (List.mem_filter.mp (mem_of_mem_lastOnly hq)).2
  rcases sets_cases p with hnil | ⟨name, value, hn, -⟩
  · exact absurd hnil hs
  · obtain ⟨hsize, hwidth, -⟩ := optionNames_ne_width _ hn
    simpa [counts, hk, hsize, hwidth] using hc

theorem toOptions_lastOnly_of_settled {ps : List Property} (h : Settled ps) :
    toOptions (lastOnly ps) = toOptions ps :=
  toOptions_congr (indentWidth?_congr (last?_lastOnly ps _) (last?_lastOnly ps _))
    (lastSet?_lastOnly h)

theorem settled_of_toOptions {ps : List Property} (h : toOptions (lastOnly ps) = toOptions ps) :
    Settled ps := by
  intro p hp hs q hq hk
  rcases sets_cases p with hnil | ⟨name, value, hn, hsets⟩
  · exact absurd hnil hs
  · have hsome : (lastSet? (lastOnly ps) name).isSome := by
      rw [lastSet?_eq_of_toOptions h, lastSet?, isSome_latest?_iff]
      exact ⟨p, hp, by simp [hsets, Fields.find?]⟩
    obtain ⟨q', hq', hs'⟩ := isSome_latest?_iff.mp hsome
    have hkey : q'.1 = p.1 := key_eq_of_sets hs' (by simp [hsets, Fields.find?])
    obtain rfl := lastOnly_unique hq' hq (hkey.trans hk.symm)
    exact sets_ne_nil_of_isSome hs'

/-- `off` and `unset` are known to no key with an option of its own. -/
theorem sets_off {value : String} (h : value = "off" ∨ value = "unset") (key : String) :
    sets (key, value) = [] := by
  refine Decidable.byContradiction fun hs => ?_
  rcases known_of_sets hs with hword | hnumber
  · rcases h with rfl | rfl <;> simp at hword
  · have hn : Text.boundedDecimal? (bitValues 64) value.toList = none := by
      rcases h with rfl | rfl <;> decide
    simp [hn] at hnumber

/-- **Which of repeated properties count.** Options depend only on the last
property of each key that counts. So they are those of the last properties
alone exactly when none of these has a value that its key does not know
where an earlier one has a known value; and `off` or `unset` at the end
changes nothing, for every key but the two widths. -/
theorem toOptions_lastOnly (ps : List Property) :
    toOptions (lastOnly (ps.filter counts)) = toOptions ps ∧
      (toOptions (lastOnly ps) = toOptions ps ↔ Settled ps) ∧
      ∀ key, key ≠ "indent_size" → key ≠ "tab_width" → ∀ value, value = "off" ∨ value = "unset" →
        toOptions (ps ++ [(key, value)]) = toOptions ps := by
  refine ⟨?_, ⟨settled_of_toOptions, toOptions_lastOnly_of_settled⟩, ?_⟩
  · rw [toOptions_lastOnly_of_settled (settled_filter_counts ps)]
    exact toOptions_filter (fun p h => h) ps
  · intro key hsize hwidth value hv
    have hc : counts (key, value) = false := by simp [counts, hsize, hwidth, sets_off hv]
    rw [← toOptions_filter (fun p h => h) (ps ++ [(key, value)]),
      ← toOptions_filter (fun p h => h) ps]
    simp [hc]

/-- A limit of 100 columns is still in force after a section that turns it
off. -/
theorem toOptions_lastOnly_limit :
    toOptions [("max_line_length", "100"), ("max_line_length", "off")] =
        toOptions [("max_line_length", "100")] ∧
      ((toOptions [("max_line_length", "100")]).find? "printWidth").isSome :=
  ⟨(toOptions_lastOnly [("max_line_length", "100")]).2.2 "max_line_length" (by decide) (by decide)
    "off" (.inl rfl), by decide +kernel⟩

/-- A section for some files turns the limit off that another has set. -/
theorem toOptions_lastOnly_off : ¬ ∀ ps : List Property, toOptions (lastOnly ps) = toOptions ps := by
  intro h
  have hlimit := congrArg (fun o => (o.find? "printWidth").isSome)
    (h [("max_line_length", "100"), ("max_line_length", "off")])
  exact absurd hlimit (by decide +kernel)

end FormatHost.EditorConfig
