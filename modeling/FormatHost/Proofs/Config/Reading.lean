/-
FormatHost.Proofs.Config.Reading — what a configuration file says.

A configuration file is JSON, JSON5, YAML or TOML, or a manifest with a
field for the formatter. Whatever it is written in, it says a value
(`written`), and the names of this value's fields stand in order, each
once: that is what lets options be laid over one another. From the value
come the options of the file, which are its fields but for the overrides,
and the overrides.

* §1 the fields of a value that was read are in order;
* §2 `written`, and what a file with a value is read as: `Says`;
* §3 `load_says`.
-/
import FormatHost.Config.File
import FormatHost.Proofs.Json.Fields
import FormatHost.Proofs.Run
import Mathlib.Logic.Basic

namespace FormatHost

open Json

/-! ## §1 Values that are read -/

/-- The fields of a value; only objects have any. -/
def Json.Value.fields : Value → Options
  | .obj fields => fields
  | _ => []

namespace Json.Source

theorem ordered_value? {levels : Nat} {s : Source} {v : Value} (h : s.value? levels = some v) :
    v.fields.Ordered := by
  cases s with
  | null =>
    cases h
    exact Fields.ordered_nil
  | bool b =>
    cases h
    exact Fields.ordered_nil
  | num n =>
    obtain ⟨_, -, rfl⟩ := Option.map_eq_some_iff.mp h
    exact Fields.ordered_nil
  | str s =>
    obtain ⟨_, -, rfl⟩ := Option.map_eq_some_iff.mp h
    exact Fields.ordered_nil
  | arr items =>
    cases levels with
    | zero => cases h
    | succ levels =>
      obtain ⟨_, -, rfl⟩ := Option.map_eq_some_iff.mp h
      exact Fields.ordered_nil
  | obj fields =>
    cases levels with
    | zero => cases h
    | succ levels =>
      obtain ⟨fs, -, rfl⟩ := Option.map_eq_some_iff.mp h
      exact Fields.ordered_ofList fs

theorem ordered_options? {levels : Nat} {s : Source} {o : Options}
    (h : s.options? levels = some o) : o.Ordered := by
  unfold options? at h
  split at h
  · rename_i fields hv
    cases h
    exact ordered_value? hv
  · cases h

/-- Every value of a list was decoded from an item. -/
theorem exists_of_list? {α : Type} {decode : Source → Option α} {s : Source} {as : List α}
    (h : s.list? decode = some as) : ∀ a ∈ as, ∃ item, decode item = some a := by
  unfold list? at h
  split at h
  · rename_i items
    induction items generalizing as with
    | nil =>
      cases h
      nofun
    | cons item items ih =>
      rw [List.mapM_cons] at h
      obtain ⟨first, hf, h⟩ := Option.bind_eq_some_iff.mp h
      obtain ⟨others, ho, h⟩ := Option.bind_eq_some_iff.mp h
      cases h
      intro a ha
      rcases List.mem_cons.mp ha with rfl | ha
      · exact ⟨item, hf⟩
      · exact ih ho a ha
  · cases h

end Json.Source

theorem Json.Value.ordered_parse? {text : String} {v : Value} (h : Value.parse? text = some v) :
    v.fields.Ordered := by
  obtain ⟨s, -, hs⟩ := Option.bind_eq_some_iff.mp h
  exact Source.ordered_value? hs

namespace Json5

theorem fields_word? {i : Int} {v : Value} (h : word? i = some v) : v.fields = [] := by
  unfold word? at h
  split at h
  · cases h
    rfl
  · cases h

theorem fields_finite? {x : Float} {v : Value} (h : finite? x = some v) : v.fields = [] := by
  unfold finite? at h
  split at h
  · cases h
    rfl
  · cases h

/-- A number is no object. -/
theorem fields_readNumber {cs rest : List Char} {v : Value}
    (h : readNumber cs = some (some v, rest)) : v.fields = [] := by
  have hnull : ∀ sign : Option Char,
      (if sign = some '+' then none else some Value.null) = some v → v.fields = [] := by
    intro sign hs
    split at hs
    · cases hs
    · cases hs
      rfl
  unfold readNumber at h
  split at h
  split at h
  · simp only [Option.some.injEq, Prod.mk.injEq] at h
    exact hnull _ h.1
  · simp only [Option.some.injEq, Prod.mk.injEq] at h
    exact hnull _ h.1
  · dsimp only at h
    split at h
    · simp only [Option.some.injEq, Prod.mk.injEq] at h
      have hex := h.1
      split at hex
      · cases hex
        rfl
      · cases hex
    · simp only [ite_eq_iff, Option.some.injEq, Prod.mk.injEq] at h
      rcases h with ⟨-, h⟩ | ⟨-, ⟨-, hv, -⟩ | ⟨-, hv, -⟩⟩
      · cases h
      · exact fields_finite? hv
      · exact fields_word? hv

/-- A value that is made of what was read is made of something. -/
theorem eq_of_map {α : Type} {f : α → Value} {x : Option (Option α × List Char)}
    {rest : List Char} {v : Value}
    (h : (x.map fun (a, rest) => (a.map f, rest)) = some (some v, rest)) : ∃ a, v = f a := by
  obtain ⟨⟨a?, _⟩, _, he⟩ := Option.map_eq_some_iff.mp h
  obtain ⟨a, -, rfl⟩ := Option.map_eq_some_iff.mp (Prod.mk.inj he).1
  exact ⟨a, rfl⟩

theorem ordered_readValue {fuel : Nat} {cs rest : List Char} {v : Value}
    (h : readValue fuel cs = some (some v, rest)) : v.fields.Ordered := by
  cases fuel with
  | zero => cases h
  | succ fuel =>
    unfold readValue at h
    split at h
    · obtain ⟨s, rfl⟩ := eq_of_map h
      exact Fields.ordered_nil
    · obtain ⟨s, rfl⟩ := eq_of_map h
      exact Fields.ordered_nil
    · obtain ⟨fields, rfl⟩ := eq_of_map h
      exact Fields.ordered_ofList fields
    · obtain ⟨items, rfl⟩ := eq_of_map h
      exact Fields.ordered_nil
    · cases h
      exact Fields.ordered_nil
    · cases h
      exact Fields.ordered_nil
    · cases h
      exact Fields.ordered_nil
    · rw [fields_readNumber h]
      exact Fields.ordered_nil

theorem ordered_value? {text : String} {v : Value} (h : value? text = some v) :
    v.fields.Ordered := by
  obtain ⟨⟨read?, rest⟩, hr, hv⟩ := Option.bind_eq_some_iff.mp h
  dsimp only at hv
  split at hv
  · exact ordered_readValue (hv ▸ hr)
  · cases hv

end Json5

namespace Yaml

theorem fields_scalar {s : Scalar} {v : Value} (h : s.value? = some v) : v.fields = [] := by
  cases s with
  | int i =>
    simp only [Scalar.value?] at h
    split at h
    · cases h
      rfl
    · cases h
  | float x =>
    cases h
    unfold Value.ofFloat
    split <;> rfl
  | _ =>
    cases h
    rfl

theorem Tree.ordered_value? {t : Tree} {v : Value} (h : t.value? = some v) :
    v.fields.Ordered := by
  cases t with
  | scalar text plain tag =>
    rw [Tree.value?] at h
    obtain ⟨s, -, hs⟩ := Option.bind_eq_some_iff.mp h
    rw [fields_scalar hs]
    exact Fields.ordered_nil
  | sequence items tag =>
    rw [Tree.value?] at h
    split at h
    · cases h
    · obtain ⟨_, -, rfl⟩ := Option.map_eq_some_iff.mp h
      exact Fields.ordered_nil
  | mapping pairs tag =>
    rw [Tree.value?] at h
    split at h
    · cases h
    · obtain ⟨fs, -, rfl⟩ := Option.map_eq_some_iff.mp h
      exact Fields.ordered_ofList fs

theorem ordered_value? {text : String} {v : Value} (h : value? text = some v) :
    v.fields.Ordered := by
  obtain ⟨t, -, ht⟩ := Option.bind_eq_some_iff.mp h
  exact t.ordered_value? ht

end Yaml

theorem Toml.ordered_value? {text : String} {v : Value} (h : value? text = some v) :
    v.fields.Ordered := by
  obtain ⟨s, -, hs⟩ := Option.bind_eq_some_iff.mp h
  obtain ⟨es, -, he⟩ := Option.bind_eq_some_iff.mp hs
  cases he
  exact Fields.ordered_ofList _

/-! ## §2 What a file says -/

namespace ConfigFile

/-- The value that a configuration file says; a manifest says what stands
under the formatter's name, if anything does. -/
def written (m : Machine) (path : Path) : Except Failure Value :=
  match kind path with
  | .manifest => (Manifest.read m path).map fun manifest => manifest.prettier.getD .null
  | kind => do parse kind (← Failure.ofIo (m.readText path))

/-- The overrides among the fields of a file. -/
def overrides? (fields : Options) : Option (List Override) :=
  match fields.find? "overrides" with
  | none => some []
  | some v => v.source.list? Override.decode?

/-- The file is read as the value says: its options are the value's fields
but for `overrides`, which holds its overrides. -/
structure Says (v : Value) (c : ConfigFile) : Prop where
  find? : ∀ key, c.options.find? key = if key = "overrides" then none else v.fields.find? key
  overrides : overrides? v.fields = some c.overrides

/-- All tables of options in a file are in order. -/
structure InOrder (c : ConfigFile) : Prop where
  options : c.options.Ordered
  overrides : ∀ o ∈ c.overrides, o.options.Ordered

end ConfigFile

/-! ## §3 Reading a file -/

theorem Override.ordered_decode? {s : Source} {o : Override} (h : decode? s = some o) :
    o.options.Ordered := by
  obtain ⟨fields, -, hf⟩ := Option.bind_eq_some_iff.mp h
  split at hf
  · rename_i files excludeFiles options
    obtain ⟨_, -, hf⟩ := Option.bind_eq_some_iff.mp hf
    obtain ⟨_, -, hf⟩ := Option.bind_eq_some_iff.mp hf
    obtain ⟨read, hr, hf⟩ := Option.bind_eq_some_iff.mp hf
    cases hf
    cases options with
    | none =>
      cases hr
      exact Fields.ordered_nil
    | some s => exact Source.ordered_options? hr
  · cases hf

/-- The options in a manifest are missing, or read off a value other than
`null`. -/
theorem Manifest.prettier_of_decode? {s : Source} {manifest : Manifest}
    (h : decode? s = some manifest) :
    manifest.prettier = none ∨
      ∃ (given : Source) (v : Value), given ≠ .null ∧ given.value? (nesting - 1) = some v ∧
        manifest.prettier = some v := by
  obtain ⟨fields, -, hf⟩ := Option.bind_eq_some_iff.mp h
  split at hf
  · rename_i prettier
    obtain ⟨_, -, hf⟩ := Option.bind_eq_some_iff.mp hf
    obtain ⟨_, -, hf⟩ := Option.bind_eq_some_iff.mp hf
    obtain ⟨_, -, hf⟩ := Option.bind_eq_some_iff.mp hf
    obtain ⟨_, -, hf⟩ := Option.bind_eq_some_iff.mp hf
    obtain ⟨read, hr, hf⟩ := Option.bind_eq_some_iff.mp hf
    cases hf
    cases prettier with
    | none =>
      cases hr
      exact .inl rfl
    | some given =>
      simp only [orDefault, Source.nullable?] at hr
      split at hr
      · cases hr
        exact .inl rfl
      · rename_i hne
        obtain ⟨v, hv, rfl⟩ := Option.map_eq_some_iff.mp hr
        exact .inr ⟨given, v, hne, hv, rfl⟩
  · cases hf

theorem Manifest.ordered_decode? {s : Source} {manifest : Manifest}
    (h : decode? s = some manifest) : (manifest.prettier.getD .null).fields.Ordered := by
  rcases prettier_of_decode? h with hn | ⟨given, v, -, hv, hs⟩
  · rw [hn]
    exact Fields.ordered_nil
  · rw [hs]
    exact Source.ordered_value? hv

theorem Manifest.ordered_read {m : Machine} {path : Path} {manifest : Manifest}
    (h : read m path = .ok manifest) : (manifest.prettier.getD .null).fields.Ordered := by
  obtain ⟨text, -, hp⟩ := read_eq_ok_iff.mp h
  obtain ⟨s, -, hs⟩ := Option.bind_eq_some_iff.mp hp
  exact ordered_decode? hs

namespace ConfigFile

/-- What a text stands for, one of the four readers has read. -/
theorem parse_cases {kind : Kind} {text : String} {v : Value} (h : parse kind text = .ok v) :
    Value.parse? text = some v ∨ Json5.value? text = some v ∨ Yaml.value? text = some v ∨
      Toml.value? text = some v := by
  unfold parse at h
  dsimp only at h
  split at h <;> split at h <;> cases h
  · exact .inl ‹_›
  · exact .inr (.inl ‹_›)
  · exact .inr (.inr (.inl ‹_›))
  · exact .inr (.inr (.inr ‹_›))
  · rename_i hread
    cases hj : Value.parse? text with
    | some read =>
      rw [hj] at hread
      exact .inl hread
    | none =>
      rw [hj] at hread
      exact .inr (.inr (.inl hread))

theorem ordered_parse {kind : Kind} {text : String} {v : Value} (h : parse kind text = .ok v) :
    v.fields.Ordered := by
  rcases parse_cases h with hv | hv | hv | hv
  · exact Json.Value.ordered_parse? hv
  · exact Json5.ordered_value? hv
  · exact Yaml.ordered_value? hv
  · exact Toml.ordered_value? hv

/-- **The fields of what a file says are in order**, whatever kind of file
it is. -/
theorem ordered_written {m : Machine} {path : Path} {v : Value} (h : written m path = .ok v) :
    v.fields.Ordered := by
  unfold written at h
  split at h
  · cases hm : Manifest.read m path with
    | error e =>
      rw [hm] at h
      cases h
    | ok manifest =>
      rw [hm] at h
      cases h
      exact Manifest.ordered_read hm
  · obtain ⟨text, -, hp⟩ := exists_of_bind_eq_ok h
    exact ordered_parse hp

theorem ordered_overrides? {fields : Options} {overrides : List Override}
    (h : overrides? fields = some overrides) : ∀ o ∈ overrides, o.options.Ordered := by
  intro o ho
  unfold overrides? at h
  split at h
  · cases h
    cases ho
  · obtain ⟨item, hi⟩ := Source.exists_of_list? h o ho
    exact Override.ordered_decode? hi

theorem ofValue_ok {path : Path} {v : Value} {c : ConfigFile} (h : ofValue path v = .ok c) :
    c.path = path ∧ c.options = v.fields.erase "overrides" ∧
      overrides? v.fields = some c.overrides := by
  cases v with
  | null =>
    cases h
    exact ⟨rfl, rfl, rfl⟩
  | obj fields =>
    simp only [ofValue, bind, Except.bind] at h
    simp only [Value.fields, overrides?]
    cases ho : Fields.find? fields "overrides" with
    | none =>
      rw [ho] at h
      cases h
      exact ⟨rfl, rfl, rfl⟩
    | some raw =>
      rw [ho] at h
      dsimp only at h ⊢
      cases hd : raw.source.list? Override.decode? with
      | none =>
        rw [hd] at h
        cases h
      | some overrides =>
        rw [hd] at h
        cases h
        exact ⟨rfl, rfl, rfl⟩
  | _ => cases h

/-- Reading a value says what the value does. -/
theorem ofValue_says {path : Path} {v : Value} {c : ConfigFile} (hv : v.fields.Ordered)
    (h : ofValue path v = .ok c) : c.path = path ∧ c.InOrder ∧ Says v c := by
  obtain ⟨hpath, hoptions, hoverrides⟩ := ofValue_ok h
  refine ⟨hpath, ⟨?_, ordered_overrides? hoverrides⟩, ⟨fun key => ?_, hoverrides⟩⟩
  · rw [hoptions]
    exact Fields.ordered_erase hv _
  · rw [hoptions, Fields.find?_erase]

/-- **A file that is read is read as it says.** -/
theorem load_says {m : Machine} {path : Path} {c : ConfigFile} (h : load m path = .ok c) :
    c.path = path ∧ c.InOrder ∧ ∃ v, written m path = .ok v ∧ Says v c := by
  have hvalue : ∀ {v : Value}, written m path = .ok v → ofValue path v = .ok c →
      c.path = path ∧ c.InOrder ∧ ∃ v, written m path = .ok v ∧ Says v c := by
    intro v hv hc
    obtain ⟨hpath, horder, hsays⟩ := ofValue_says (ordered_written hv) hc
    exact ⟨hpath, horder, v, hv, hsays⟩
  unfold load at h
  split at h
  · rename_i hk
    obtain ⟨manifest, hm, h⟩ := exists_of_bind_eq_ok h
    have hw : written m path = .ok (manifest.prettier.getD .null) := by
      simp only [written, hk, hm]
      rfl
    split at h
    · cases h
    · rename_i v hp
      rw [hp] at hw
      exact hvalue hw h
    · rename_i hp
      rw [hp] at hw
      exact hvalue hw h
  · cases h
  · obtain ⟨text, ht, h⟩ := exists_of_bind_eq_ok h
    obtain ⟨v, hp, h⟩ := exists_of_bind_eq_ok h
    refine hvalue ?_ h
    unfold written
    split
    · contradiction
    · rw [ht]
      exact hp

end ConfigFile

end FormatHost
