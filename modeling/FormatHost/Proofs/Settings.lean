/-
FormatHost.Proofs.Settings — settings written as JSON and read back.

Settings and formatting defaults share one flat object. What is written
says every setting, and of the formatting defaults those that are set;
what is read takes a missing setting for its default, a missing formatting
default for one that is not set, and keeps the two kinds apart by name.

* §1 formatting defaults as twenty slots, each with a value or without;
* §2 single fields;
* §3 `Reads`: what it takes for fields to be read as settings;
* §4 formatting defaults are read slot by slot;
* §5 values, written and read;
* §6 objects that say the settings, in any order and with fields missing;
* §7 what is read, against what stands in the object;
* §8 `serialization`.
-/
import FormatHost.Proofs.Json.Fields
import FormatHost.Proofs.Json.RoundTrip
import FormatHost.Settings.Decode

namespace FormatHost

open Json

/-! ## §1 Slots -/

theorem NumberOption.mem_all (k : NumberOption) : k ∈ all := by cases k <;> decide

theorem FlagOption.mem_all (k : FlagOption) : k ∈ all := by cases k <;> decide

theorem WordOption.mem_all (k : WordOption) : k ∈ all := by cases k <;> decide

namespace EditorDefaults

/-- The options with their values, as far as they are set. -/
def slots (d : EditorDefaults) : Fields (Option Value) :=
  (NumberOption.all.map fun k => (k.name, (d.number k).map fun n => .ofNat n.toNat)) ++
    (FlagOption.all.map fun k => (k.name, (d.flag k).map .bool)) ++
    (WordOption.all.map fun k => (k.name, (d.word k).map .str))

/-- The names of the twenty options. -/
def optionNames : List String :=
  NumberOption.all.map (·.name) ++ FlagOption.all.map (·.name) ++ WordOption.all.map (·.name)

theorem nodup_optionNames : optionNames.Nodup := by decide

variable (d : EditorDefaults)

theorem keys_slots : d.slots.keys = optionNames := by
  simp [slots, optionNames, Fields.keys, Function.comp_def]

theorem nodup_keys_slots : d.slots.keys.Nodup := by
  rw [keys_slots]
  exact nodup_optionNames

theorem mem_optionNames_of_slot {name : String} {value? : Option Value}
    (h : (name, value?) ∈ d.slots) : name ∈ optionNames := by
  rw [← d.keys_slots]
  exact List.mem_map.mpr ⟨_, h, rfl⟩

theorem fields_eq : d.fields = Fields.present d.slots := by
  simp [fields, slots, Fields.present, Function.comp_def]

theorem find?_fields (key : String) : Fields.find? d.fields key = (d.slots.find? key).join := by
  rw [fields_eq, Fields.find?_present d.nodup_keys_slots]

theorem nodup_keys_fields : (Fields.keys d.fields).Nodup := by
  rw [fields_eq]
  exact Fields.nodup_keys_present d.nodup_keys_slots

theorem mem_optionNames {key : String} (h : key ∈ Fields.keys d.fields) : key ∈ optionNames := by
  rw [fields_eq] at h
  rw [← d.keys_slots]
  exact (Fields.keys_present_sublist d.slots).subset h

theorem find?_toOptions (key : String) : d.toOptions.find? key = (d.slots.find? key).join := by
  rw [toOptions, Fields.find?_ofList d.nodup_keys_fields, find?_fields]

end EditorDefaults

namespace Settings

/-! ## §2 Single fields -/

section Field

variable {σ α β : Type} {fields : List (String × σ)} {name : String}

/-- Two ways to read a field agree on where they give `a` and `b`, if they
do so on a value and on none. -/
theorem readField_congr {decode : σ → Option α} {decode' : σ → Option β} {default a : α}
    {default' b : β} (hdefault : default = a ↔ default' = b)
    (hvalue : ∀ v, decode v = some a ↔ decode' v = some b) :
    readField fields name decode default = some a ↔
      readField fields name decode' default' = some b := by
  unfold readField
  split
  · rw [Option.some_inj, Option.some_inj, hdefault]
  · exact hvalue _
  · simp

/-- A field that was read is missing, or stands there once. -/
theorem readField_cases {decode : σ → Option α} {default a : α}
    (h : readField fields name decode default = some a) :
    fields.filter (·.1 == name) = [] ∧ default = a ∨
      ∃ v, fields.filter (·.1 == name) = [(name, v)] ∧ decode v = some a := by
  unfold readField at h
  split at h
  · rename_i hnone
    exact .inl ⟨hnone, Option.some.inj h⟩
  · rename_i k v hone
    have hk : (k, v) ∈ fields.filter (·.1 == name) := by
      rw [hone]
      exact List.mem_singleton_self _
    obtain rfl : k = name := beq_iff_eq.mp (List.mem_filter.mp hk).2
    exact .inr ⟨v, hone, h⟩
  · cases h

theorem filter_name (hn : (Fields.keys fields).Nodup) :
    fields.filter (·.1 == name) = ((Fields.find? fields name).map (name, ·)).toList := by
  induction fields with
  | nil => rfl
  | cons e rest ih =>
    obtain ⟨k, v⟩ := e
    obtain ⟨hk, hr⟩ := List.nodup_cons.mp hn
    rw [List.filter_cons, Fields.find?]
    by_cases h : k = name
    · subst h
      rw [if_pos (beq_self_eq_true k), if_pos rfl, ih hr, Fields.find?_eq_none hk]
      rfl
    · rw [if_neg (by simpa using h), if_neg h, ih hr]

/-- Where each name stands once, a field is looked up. -/
theorem readField_of_nodup (hn : (Fields.keys fields).Nodup) (decode : σ → Option α)
    (default : α) : readField fields name decode default =
      (Fields.find? fields name).elim (some default) decode := by
  rw [readField, filter_name hn]
  cases Fields.find? fields name <;> rfl

end Field

/-! ## §3 All fields -/

section Reads

variable {σ : Type} {f : Format σ} {fields : List (String × σ)} {s : Settings}

/-- The fields that are not settings of their own. -/
def optionFields (fields : List (String × σ)) : List (String × σ) :=
  fields.filter fun e => !ownNames.contains e.1

/-- What it takes for fields to be read as `s`. -/
structure Reads (f : Format σ) (fields : List (String × σ)) (s : Settings) : Prop where
  wellFormed : ∀ e ∈ fields, e.1 ∉ ownNames → (f.raw? e.2).isSome
  enable : readField fields "enable" f.bool? ({} : Settings).enable = some s.enable
  disableLanguages : readField fields "disableLanguages" f.texts? ({} : Settings).disableLanguages =
    some s.disableLanguages
  onlyUseLocalVersion : readField fields "onlyUseLocalVersion" f.bool?
    ({} : Settings).onlyUseLocalVersion = some s.onlyUseLocalVersion
  requireConfig : readField fields "requireConfig" f.bool? ({} : Settings).requireConfig =
    some s.requireConfig
  ignorePath : readField fields "ignorePath" f.nullableText? ({} : Settings).ignorePath =
    some s.ignorePath
  documentSelectors : readField fields "documentSelectors" f.texts?
    ({} : Settings).documentSelectors = some s.documentSelectors
  formatterPriority : readField fields "formatterPriority"
    (fun v => (f.int? (-bitValues 31) (bitValues 31 - 1) v).map Int32.ofInt)
    ({} : Settings).formatterPriority = some s.formatterPriority
  useEditorConfig : readField fields "useEditorConfig" f.bool? ({} : Settings).useEditorConfig =
    some s.useEditorConfig
  withNodeModules : readField fields "withNodeModules" f.bool? ({} : Settings).withNodeModules =
    some s.withNodeModules
  resolveGlobalModules : readField fields "resolveGlobalModules" f.bool?
    ({} : Settings).resolveGlobalModules = some s.resolveGlobalModules
  packageManager : readField fields "packageManager" f.manager? ({} : Settings).packageManager =
    some s.packageManager
  prettierPath : readField fields "prettierPath" f.nullableText? ({} : Settings).prettierPath =
    some s.prettierPath
  configPath : readField fields "configPath" f.nullableText? ({} : Settings).configPath =
    some s.configPath
  statusItemText : readField fields "statusItemText" f.text? ({} : Settings).statusItemText =
    some s.statusItemText
  defaults : readDefaults f (optionFields fields) = some s.defaults

/-- A field that is no setting has to be well-formed. -/
theorem any_optionFields_iff : ((optionFields fields).any fun e => (f.raw? e.2).isNone) = false ↔
    ∀ e ∈ fields, e.1 ∉ ownNames → (f.raw? e.2).isSome := by
  simp [optionFields, List.any_eq_false, Option.isSome_iff_ne_none]

theorem ofFields?_eq_some_iff : ofFields? f fields = some s ↔ Reads f fields s := by
  unfold ofFields?
  simp only []
  constructor
  · intro h
    split at h
    · cases h
    · rename_i hany
      obtain ⟨_, h1, h⟩ := Option.bind_eq_some_iff.mp h
      obtain ⟨_, h2, h⟩ := Option.bind_eq_some_iff.mp h
      obtain ⟨_, h3, h⟩ := Option.bind_eq_some_iff.mp h
      obtain ⟨_, h4, h⟩ := Option.bind_eq_some_iff.mp h
      obtain ⟨_, h5, h⟩ := Option.bind_eq_some_iff.mp h
      obtain ⟨_, h6, h⟩ := Option.bind_eq_some_iff.mp h
      obtain ⟨_, h7, h⟩ := Option.bind_eq_some_iff.mp h
      obtain ⟨_, h8, h⟩ := Option.bind_eq_some_iff.mp h
      obtain ⟨_, h9, h⟩ := Option.bind_eq_some_iff.mp h
      obtain ⟨_, h10, h⟩ := Option.bind_eq_some_iff.mp h
      obtain ⟨_, h11, h⟩ := Option.bind_eq_some_iff.mp h
      obtain ⟨_, h12, h⟩ := Option.bind_eq_some_iff.mp h
      obtain ⟨_, h13, h⟩ := Option.bind_eq_some_iff.mp h
      obtain ⟨_, h14, h⟩ := Option.bind_eq_some_iff.mp h
      obtain ⟨_, h15, h⟩ := Option.bind_eq_some_iff.mp h
      obtain rfl := Option.some.inj h
      exact ⟨any_optionFields_iff.mp (by simpa [optionFields] using hany), h1, h2, h3, h4, h5, h6,
        h7, h8, h9, h10, h11, h12, h13, h14, h15⟩
  · rintro ⟨hany, h1, h2, h3, h4, h5, h6, h7, h8, h9, h10, h11, h12, h13, h14, h15⟩
    have hfalse := any_optionFields_iff.mpr hany
    rw [optionFields] at hfalse h15
    simp only [hfalse, h1, h2, h3, h4, h5, h6, h7, h8, h9, h10, h11, h12, h13, h14, h15,
      Bool.false_eq_true, if_false, bind, Option.bind_some]

end Reads

/-! ## §4 Formatting defaults, slot by slot -/

section Group

variable {σ κ α : Type} {fields : List (String × σ)} {raw? : σ → Option Raw}
  {as? : Raw → Option (Option α)} {name : κ → String} {keys : List κ}

theorem exists_readGroup {value : κ → Option α} (h : ∀ k ∈ keys,
      readField fields (name k) (fun v => (raw? v).bind as?) none = some (value k)) :
    ∃ group, readGroup fields raw? as? name keys = some group := by
  refine ⟨keys.map fun k => (k, value k), ?_⟩
  unfold readGroup
  induction keys with
  | nil => rfl
  | cons k keys ih =>
    rw [List.mapM_cons, h k (List.mem_cons_self ..), ih fun k hk => h k (List.mem_cons_of_mem _ hk)]
    rfl

variable [BEq κ] [LawfulBEq κ]

/-- What was read of a list of options is each option's own field. -/
theorem readField_of_group {group : List (κ × Option α)}
    (h : readGroup fields raw? as? name keys = some group) {k : κ} (hk : k ∈ keys) :
    readField fields (name k) (fun v => (raw? v).bind as?) none = some (groupValue group k) := by
  unfold readGroup at h
  induction keys generalizing group with
  | nil => cases hk
  | cons k' keys ih =>
    simp only [List.mapM_cons, bind, pure, Option.bind_eq_some_iff, Option.map_eq_some_iff] at h
    obtain ⟨_, ⟨value, hvalue, rfl⟩, group', hgroup, h⟩ := h
    obtain rfl := Option.some.inj h
    by_cases hkk : k = k'
    · subst hkk
      rw [hvalue]
      simp [groupValue]
    · rw [ih hgroup ((List.mem_cons.mp hk).resolve_left hkk)]
      rw [groupValue, groupValue, List.lookup_cons, beq_eq_false_iff_ne.mpr hkk]

end Group

theorem readDefaults_eq_some_iff {σ : Type} {f : Format σ} {fields : List (String × σ)}
    {d : EditorDefaults} : readDefaults f fields = some d ↔
      (∀ k : NumberOption, readField fields k.name (fun v => (f.raw? v).bind Raw.number?) none =
        some (d.number k)) ∧
      (∀ k : FlagOption, readField fields k.name (fun v => (f.raw? v).bind Raw.flag?) none =
        some (d.flag k)) ∧
      ∀ k : WordOption, readField fields k.name (fun v => (f.raw? v).bind Raw.word?) none =
        some (d.word k) := by
  unfold readDefaults
  simp only [bind, Option.bind_eq_some_iff]
  constructor
  · rintro ⟨numbers, hnumbers, flags, hflags, words, hwords, h⟩
    obtain rfl := Option.some.inj h
    exact ⟨fun k => readField_of_group hnumbers k.mem_all,
      fun k => readField_of_group hflags k.mem_all, fun k => readField_of_group hwords k.mem_all⟩
  · rintro ⟨hnumber, hflag, hword⟩
    obtain ⟨numbers, hnumbers⟩ := exists_readGroup fun k (_ : k ∈ NumberOption.all) => hnumber k
    obtain ⟨flags, hflags⟩ := exists_readGroup fun k (_ : k ∈ FlagOption.all) => hflag k
    obtain ⟨words, hwords⟩ := exists_readGroup fun k (_ : k ∈ WordOption.all) => hword k
    refine ⟨numbers, hnumbers, flags, hflags, words, hwords, ?_⟩
    have hn : groupValue numbers = d.number := funext fun k =>
      Option.some.inj ((readField_of_group hnumbers k.mem_all).symm.trans (hnumber k))
    have hf : groupValue flags = d.flag := funext fun k =>
      Option.some.inj ((readField_of_group hflags k.mem_all).symm.trans (hflag k))
    have hw : groupValue words = d.word := funext fun k =>
      Option.some.inj ((readField_of_group hwords k.mem_all).symm.trans (hword k))
    rw [hn, hf, hw]

theorem fitsNumber_toNat (n : UInt32) : fitsNumber n.toNat = true := by
  have hlt : n.toNat < bitValues 32 := n.toNat_lt
  simpa [fitsNumber] using hlt

theorem rawOfInt_eq_number_iff (i : Int) (n : UInt32) : rawOfInt i = .number n ↔ i = n.toNat := by
  constructor
  · intro h
    unfold rawOfInt at h
    split at h
    · rename_i hfits
      obtain rfl := Raw.number.inj h
      obtain ⟨hlow, hhigh⟩ : 0 ≤ i ∧ i < bitValues 32 := by simpa [fitsNumber] using hfits
      have hlt : i.toNat < 2 ^ 32 := (Int.toNat_lt hlow).mpr hhigh
      rw [UInt32.toNat_ofNat', Nat.mod_eq_of_lt hlt, Int.toNat_of_nonneg hlow]
    · cases h
  · rintro rfl
    rw [rawOfInt, if_pos (fitsNumber_toNat n), Int.toNat_natCast, UInt32.ofNat_toNat]

/-- Numbers are never read as anything else. -/
theorem rawOfNumber_cases (m : Number) :
    (∃ n, rawOfValue (.num m) = .number n) ∨ rawOfValue (.num m) = .other := by
  cases m with
  | float bits => exact .inr rfl
  | int i =>
    simp only [rawOfValue, rawOfInt]
    split
    · exact .inl ⟨_, rfl⟩
    · exact .inr rfl

theorem rawOfValue_eq_unset_iff (v : Value) : rawOfValue v = .unset ↔ v = .null := by
  cases v with
  | num m => rcases rawOfNumber_cases m with ⟨n, h⟩ | h <;> simp [h]
  | _ => simp [rawOfValue]

theorem rawOfValue_eq_number_iff (v : Value) (n : UInt32) :
    rawOfValue v = .number n ↔ v = .ofNat n.toNat := by
  cases v with
  | num m =>
    cases m with
    | float bits => simp [rawOfValue, Value.ofNat]
    | int i => simp [rawOfValue, Value.ofNat, rawOfInt_eq_number_iff]
  | _ => simp [rawOfValue, Value.ofNat]

theorem rawOfValue_eq_flag_iff (v : Value) (b : Bool) : rawOfValue v = .flag b ↔ v = .bool b := by
  cases v with
  | num m => rcases rawOfNumber_cases m with ⟨n, h⟩ | h <;> simp [h]
  | _ => simp [rawOfValue]

theorem rawOfValue_eq_word_iff (v : Value) (s : String) : rawOfValue v = .word s ↔ v = .str s := by
  cases v with
  | num m => rcases rawOfNumber_cases m with ⟨n, h⟩ | h <;> simp [h]
  | _ => simp [rawOfValue]

/-- The value of a slot as it is written, `null` for a slot without. -/
def slotValue (value? : Option Value) : Value := value?.getD .null

theorem number?_rawOfValue (v : Value) (n? : Option UInt32) :
    (rawOfValue v).number? = some n? ↔ v = slotValue (n?.map fun n => .ofNat n.toNat) := by
  cases n? with
  | none =>
    refine Iff.trans ?_ (rawOfValue_eq_unset_iff v)
    cases rawOfValue v <;> simp [Raw.number?]
  | some n =>
    refine Iff.trans ?_ (rawOfValue_eq_number_iff v n)
    cases rawOfValue v <;> simp [Raw.number?]

theorem flag?_rawOfValue (v : Value) (b? : Option Bool) :
    (rawOfValue v).flag? = some b? ↔ v = slotValue (b?.map .bool) := by
  cases b? with
  | none =>
    refine Iff.trans ?_ (rawOfValue_eq_unset_iff v)
    cases rawOfValue v <;> simp [Raw.flag?]
  | some b =>
    refine Iff.trans ?_ (rawOfValue_eq_flag_iff v b)
    cases rawOfValue v <;> simp [Raw.flag?]

theorem word?_rawOfValue (v : Value) (s? : Option String) :
    (rawOfValue v).word? = some s? ↔ v = slotValue (s?.map .str) := by
  cases s? with
  | none =>
    refine Iff.trans ?_ (rawOfValue_eq_unset_iff v)
    cases rawOfValue v <;> simp [Raw.word?]
  | some s =>
    refine Iff.trans ?_ (rawOfValue_eq_word_iff v s)
    cases rawOfValue v <;> simp [Raw.word?]

/-- The value of a field, `null` for a missing field. -/
def fieldValue? (fields : List (String × Source)) (name : String) : Option Value :=
  readField fields name (Source.value? (nesting - 1)) .null

theorem raw?_json (v : Source) : jsonFormat.raw? v = (v.value? (nesting - 1)).map rawOfValue := rfl

/-- A formatting default is read as the value of its field. -/
theorem readField_slot_iff {α : Type} {as? : Raw → Option (Option α)} {toValue : α → Value}
    (has : ∀ v a?, as? (rawOfValue v) = some a? ↔ v = slotValue (a?.map toValue))
    (hunset : as? .unset = some none) {fields : List (String × Source)} {name : String}
    {a? : Option α} :
    readField fields name (fun v => (jsonFormat.raw? v).bind as?) none = some a? ↔
      fieldValue? fields name = some (slotValue (a?.map toValue)) := by
  refine readField_congr ?_ fun v => ?_
  · rw [← has, rawOfValue, hunset, Option.some_inj]
  · rw [raw?_json]
    cases v.value? (nesting - 1) with
    | none => simp
    | some w => rw [Option.map_some, Option.bind_some, has, Option.some_inj]

/-- **Formatting defaults are read slot by slot**: each is the value of its
own field. -/
theorem readDefaults_json_iff {fields : List (String × Source)} {d : EditorDefaults} :
    readDefaults jsonFormat fields = some d ↔
      ∀ e ∈ d.slots, fieldValue? fields e.1 = some (slotValue e.2) := by
  rw [readDefaults_eq_some_iff]
  simp only [readField_slot_iff number?_rawOfValue rfl, readField_slot_iff flag?_rawOfValue rfl,
    readField_slot_iff word?_rawOfValue rfl]
  simp only [EditorDefaults.slots, List.mem_append, List.mem_map]
  constructor
  · rintro ⟨hnumber, hflag, hword⟩ e ((⟨k, -, rfl⟩ | ⟨k, -, rfl⟩) | ⟨k, -, rfl⟩)
    · exact hnumber k
    · exact hflag k
    · exact hword k
  · intro h
    exact ⟨fun k => h _ (.inl (.inl ⟨k, k.mem_all, rfl⟩)),
      fun k => h _ (.inl (.inr ⟨k, k.mem_all, rfl⟩)), fun k => h _ (.inr ⟨k, k.mem_all, rfl⟩)⟩

/-! ## §5 Values -/

theorem list?_texts (xs : List String) :
    Source.list? Source.string? (Value.arr (xs.map .str)).source = some xs := by
  rw [Value.source, Source.list?]
  induction xs with
  | nil => rfl
  | cons x xs ih =>
    rw [List.map_cons, itemSources, List.mapM_cons, ih]
    rfl

theorem nullable?_text (text? : Option String) :
    Source.nullable? Source.string? (Value.ofOption .str text?).source = some text? := by
  cases text? <;> rfl

theorem int?_priority (n : Int32) :
    (Source.int? (-bitValues 31) (bitValues 31 - 1) (Value.num (.int n.toInt)).source).map
      Int32.ofInt = some n := by
  have hlow : -(bitValues 31 : Int) ≤ n.toInt := n.le_toInt
  have hhigh : n.toInt < bitValues 31 := n.toInt_lt
  rw [Value.source, Source.int?, if_pos (by omega), Option.map_some, Int32.ofInt_toInt]

theorem decode?_manager (manager : PackageManager) :
    PackageManager.decode? (Value.str manager.command).source = some manager := by
  cases manager <;> decide

/-- What holds of a value that an option has: it is written plainly, is not
`null`, and is read back from its tree. -/
structure IsSet (v : Value) : Prop where
  plain : v.isPlain = true
  notNull : v.isNull = false
  value?_source : ∀ levels, v.source.value? levels = some v

theorem isSet_number (n : UInt32) : IsSet (.ofNat n.toNat) where
  plain := by
    have hlow : -(bitValues 63 : Int) ≤ n.toNat := by omega
    have hhigh : n.toNat < bitValues 64 := Nat.lt_trans n.toNat_lt (by decide)
    simp [Value.ofNat, Value.isPlain, fitsWord, hlow, hhigh]
  notNull := rfl
  value?_source _ := by simp [Value.ofNat, Value.source, Source.value?]

theorem isSet_flag (b : Bool) : IsSet (.bool b) where
  plain := rfl
  notNull := rfl
  value?_source _ := by simp [Value.source, Source.value?]

theorem isSet_word (text : String) : IsSet (.str text) where
  plain := rfl
  notNull := rfl
  value?_source _ := by simp [Value.source, Source.value?]

theorem isSet_of_mem_slots {d : EditorDefaults} {name : String} {v : Value}
    (h : (name, some v) ∈ d.slots) : IsSet v := by
  simp only [EditorDefaults.slots, List.mem_append, List.mem_map] at h
  rcases h with (⟨k, -, h⟩ | ⟨k, -, h⟩) | ⟨k, -, h⟩
  · obtain ⟨n, -, rfl⟩ := Option.map_eq_some_iff.mp (Prod.mk.inj h).2
    exact isSet_number n
  · obtain ⟨b, -, rfl⟩ := Option.map_eq_some_iff.mp (Prod.mk.inj h).2
    exact isSet_flag b
  · obtain ⟨text, -, rfl⟩ := Option.map_eq_some_iff.mp (Prod.mk.inj h).2
    exact isSet_word text

theorem isPlain_ownFields (s : Settings) : ∀ e ∈ s.ownFields, e.2.isPlain = true := by
  have htexts : ∀ xs : List String, itemsPlain (xs.map .str) = true := by
    intro xs
    induction xs with
    | nil => rfl
    | cons x xs ih => exact ih
  have htext? : ∀ text? : Option String, (Value.ofOption .str text?).isPlain = true := by
    intro text?
    cases text? <;> rfl
  have hpriority : fitsWord s.formatterPriority.toInt = true := by
    have hlow : -(2 : Int) ^ 31 ≤ s.formatterPriority.toInt := s.formatterPriority.le_toInt
    have hhigh : s.formatterPriority.toInt < 2 ^ 31 := s.formatterPriority.toInt_lt
    have hwide : bitValues 63 = 2 ^ 63 ∧ bitValues 64 = 2 ^ 64 := ⟨rfl, rfl⟩
    simp only [fitsWord, hwide, Bool.and_eq_true, decide_eq_true_eq]
    omega
  simp [ownFields, Value.isPlain, htexts, htext?, hpriority]

/-! ## §6 Objects that say settings -/

theorem nodup_ownNames : ownNames.Nodup := by decide

theorem not_mem_ownNames : ∀ name ∈ EditorDefaults.optionNames, name ∉ ownNames := by decide

theorem keys_ownFields (s : Settings) : Fields.keys s.ownFields = ownNames := rfl

/-- The fields say `s`: where a setting is missing it has its default, and
what is no setting is a formatting default that is set. -/
structure Says (fields : Options) (s : Settings) : Prop where
  nodup : fields.keys.Nodup
  own : ∀ name ∈ ownNames, (fields.find? name).or (Fields.find? ({} : Settings).ownFields name) =
    Fields.find? s.ownFields name
  options : ∀ name ∉ ownNames, fields.find? name = (s.defaults.slots.find? name).join

theorem fieldsPlain_iff (fields : Options) :
    fieldsPlain fields = true ↔ ∀ e ∈ fields, e.2.isPlain = true := by
  induction fields with
  | nil => simp [fieldsPlain]
  | cons e rest ih =>
    obtain ⟨k, v⟩ := e
    rw [fieldsPlain, Bool.and_eq_true, ih, List.forall_mem_cons]

theorem readableFields_source (fields : Options) :
    readableFields (fieldSources fields) = some (fields.mapValues Value.source) := by
  unfold readableFields
  induction fields with
  | nil => rfl
  | cons e rest ih =>
    rw [fieldSources, List.mapM_cons, ih]
    rfl

namespace Says

variable {fields : Options} {s : Settings} (h : Says fields s)

include h

/-- A field that is no setting is a slot with its value. -/
theorem mem_slots {name : String} {v : Value} (hv : (name, v) ∈ fields) (hname : name ∉ ownNames) :
    (name, some v) ∈ s.defaults.slots := by
  have hfind := (Fields.find?_eq_some_iff h.nodup).mpr hv
  rw [h.options name hname, Option.join_eq_some_iff] at hfind
  exact Fields.mem_of_find? hfind

theorem isPlain : (Value.obj fields).isPlain = true := by
  rw [Value.isPlain, fieldsPlain_iff]
  rintro ⟨name, v⟩ hv
  by_cases hname : name ∈ ownNames
  · have hown := h.own name hname
    rw [(Fields.find?_eq_some_iff h.nodup).mpr hv, Option.some_or] at hown
    exact isPlain_ownFields s _ (Fields.mem_of_find? hown.symm)
  · exact (isSet_of_mem_slots (h.mem_slots hv hname)).plain

theorem nodup_sources : (Fields.keys (fields.mapValues Value.source)).Nodup := by
  rw [Fields.keys_mapValues]
  exact h.nodup

/-- A setting is read from its field, or has its default. -/
theorem readField_own {α : Type} {name : String} {v standard : Value}
    (hv : Fields.find? s.ownFields name = some v)
    (hstandard : Fields.find? ({} : Settings).ownFields name = some standard)
    {decode : Source → Option α} {default a : α} (hdefault : decode standard.source = some default)
    (ha : decode v.source = some a) :
    readField (fields.mapValues Value.source) name decode default = some a := by
  have hname : name ∈ Fields.keys s.ownFields := by
    rw [Fields.mem_keys_iff, hv, Option.isSome_some]
  have hown := h.own name hname
  rw [hstandard, hv] at hown
  rw [readField_of_nodup h.nodup_sources, Fields.find?_mapValues]
  cases hfind : fields.find? name with
  | none =>
    rw [hfind, Option.none_or] at hown
    obtain rfl := Option.some.inj hown
    rw [hdefault] at ha
    exact ha
  | some w =>
    rw [hfind, Option.some_or] at hown
    obtain rfl := Option.some.inj hown
    exact ha

theorem fieldValue?_slot {name : String} {value? : Option Value}
    (he : (name, value?) ∈ s.defaults.slots) :
    fieldValue? (optionFields (fields.mapValues Value.source)) name = some (slotValue value?) := by
  have hname : name ∉ ownNames :=
    not_mem_ownNames name (s.defaults.mem_optionNames_of_slot he)
  have hslot := (Fields.find?_eq_some_iff s.defaults.nodup_keys_slots).mpr he
  have hfind : Fields.find? (optionFields (fields.mapValues Value.source)) name =
      value?.map Value.source := by
    rw [optionFields, Fields.find?_filter h.nodup_sources, Fields.find?_mapValues,
      h.options name hname, hslot]
    cases value? <;> simp [hname]
  have hnodup : (Fields.keys (optionFields (fields.mapValues Value.source))).Nodup :=
    Fields.nodup_keys_filter h.nodup_sources _
  rw [fieldValue?, readField_of_nodup hnodup, hfind]
  cases value? with
  | none => rfl
  | some v => exact (isSet_of_mem_slots he).value?_source _

theorem reads : Reads jsonFormat (fields.mapValues Value.source) s where
  wellFormed e he hname := by
    obtain ⟨⟨name, v⟩, hv, rfl⟩ := List.mem_map.mp he
    have hvalue := (isSet_of_mem_slots (h.mem_slots hv hname)).value?_source (nesting - 1)
    rw [raw?_json, hvalue]
    rfl
  enable := h.readField_own rfl rfl rfl rfl
  disableLanguages := h.readField_own (v := .arr _) rfl rfl rfl (list?_texts _)
  onlyUseLocalVersion := h.readField_own rfl rfl rfl rfl
  requireConfig := h.readField_own rfl rfl rfl rfl
  ignorePath := h.readField_own (v := .ofOption .str _) rfl rfl rfl (nullable?_text _)
  documentSelectors := h.readField_own (v := .arr _) rfl rfl rfl (list?_texts _)
  formatterPriority := h.readField_own (v := .num (.int _)) rfl rfl rfl (int?_priority _)
  useEditorConfig := h.readField_own rfl rfl rfl rfl
  withNodeModules := h.readField_own rfl rfl rfl rfl
  resolveGlobalModules := h.readField_own rfl rfl rfl rfl
  packageManager := h.readField_own (v := .str _) rfl rfl rfl (decode?_manager _)
  prettierPath := h.readField_own (v := .ofOption .str _) rfl rfl rfl (nullable?_text _)
  configPath := h.readField_own (v := .ofOption .str _) rfl rfl rfl (nullable?_text _)
  statusItemText := h.readField_own rfl rfl rfl rfl
  defaults := readDefaults_json_iff.mpr fun _ he => h.fieldValue?_slot he

/-- **What says settings is read as these settings.** -/
theorem parse? : Settings.parse? (Value.obj fields).compact = some s := by
  rw [Settings.parse?, parse?_compact h.isPlain, Option.bind_some, Value.source, decode?,
    readableFields_source]
  exact ofFields?_eq_some_iff.mpr h.reads

end Says

/-- The fields of settings, as they are written. -/
def written (s : Settings) : Options := s.ownFields ++ s.defaults.fields

theorem nodup_keys_written (s : Settings) : s.written.keys.Nodup := by
  have hkeys : s.written.keys = ownNames ++ Fields.keys s.defaults.fields := List.map_append
  rw [hkeys, List.nodup_append]
  refine ⟨nodup_ownNames, s.defaults.nodup_keys_fields, ?_⟩
  rintro name hown _ hname rfl
  exact not_mem_ownNames name (s.defaults.mem_optionNames hname) hown

theorem says_of_perm {fields : Options} {s : Settings} (h : fields.Perm s.written) :
    Says fields s where
  nodup := Fields.nodup_keys_of_perm h s.nodup_keys_written
  own name hname := by
    rw [← keys_ownFields s, Fields.mem_keys_iff, Option.isSome_iff_exists] at hname
    obtain ⟨v, hv⟩ := hname
    rw [Fields.find?_perm h s.nodup_keys_written, written, Fields.find?_append, hv,
      Option.some_or, Option.some_or]
  options name hname := by
    rw [← keys_ownFields s] at hname
    rw [Fields.find?_perm h s.nodup_keys_written, written, Fields.find?_append,
      Fields.find?_eq_none hname, Option.none_or, EditorDefaults.find?_fields]

/-- Without its field the ignore file is the one used by default. -/
theorem Says.erase_ignorePath {fields : Options} {s : Settings} (h : Says fields s) :
    Says (fields.erase "ignorePath") { s with ignorePath := some defaultIgnorePath } where
  nodup := h.nodup.sublist (List.filter_sublist.map _)
  own name hname := by
    rw [Fields.find?_erase]
    split
    · rename_i hpath
      subst hpath
      rfl
    · rename_i hpath
      have hsame : Fields.erase s.ownFields "ignorePath" =
        Fields.erase { s with ignorePath := some defaultIgnorePath }.ownFields "ignorePath" := rfl
      have hfind := congrArg (Fields.find? · name) hsame
      simp only [Fields.find?_erase, if_neg hpath] at hfind
      exact (h.own name hname).trans hfind
  options name hname := by
    have hpath : name ≠ "ignorePath" := by
      rintro rfl
      exact hname (by decide)
    rw [Fields.find?_erase, if_neg hpath, h.options name hname]

/-! ## §7 What is read -/

theorem readableFields_eq_some {raw : List (Option String × Source)}
    {fields : List (String × Source)} (h : readableFields raw = some fields) :
    raw = fields.map fun e => (some e.1, e.2) := by
  unfold readableFields at h
  induction raw generalizing fields with
  | nil =>
    obtain rfl := Option.some.inj h
    rfl
  | cons e raw ih =>
    obtain ⟨key?, v⟩ := e
    simp only [List.mapM_cons, bind, pure, Option.bind_eq_some_iff, Option.map_eq_some_iff] at h
    obtain ⟨_, ⟨key, rfl, rfl⟩, rest, hrest, h⟩ := h
    obtain rfl := Option.some.inj h
    rw [ih hrest]
    rfl

section Value

variable {levels : Nat} {v : Source}

theorem isSome_value?_bool {b : Bool} (h : v.bool? = some b) : (v.value? levels).isSome := by
  cases v with
  | bool b => simp [Source.value?]
  | _ => cases h

theorem isSome_value?_text {text : String} (h : v.string? = some text) :
    (v.value? levels).isSome := by
  cases v with
  | str s =>
    obtain rfl : s = some text := h
    simp [Source.value?]
  | _ => cases h

theorem isSome_value?_nullable {text? : Option String}
    (h : v.nullable? Source.string? = some text?) : (v.value? levels).isSome := by
  unfold Source.nullable? at h
  split at h
  · simp [Source.value?]
  · obtain ⟨text, htext, -⟩ := Option.map_eq_some_iff.mp h
    exact isSome_value?_text htext

theorem isSome_value?_int {low high i : Int} (h : v.int? low high = some i) :
    (v.value? levels).isSome := by
  unfold Source.int? at h
  split at h
  · simp [Source.value?]
  · cases h

theorem isSome_value?_texts {texts : List String} (h : v.list? Source.string? = some texts) :
    (v.value? (levels + 1)).isSome := by
  unfold Source.list? at h
  split at h
  · rename_i items
    rw [Source.value?, Option.isSome_map]
    induction items generalizing texts with
    | nil => simp [itemValues?]
    | cons item items ih =>
      simp only [List.mapM_cons, bind, pure, Option.bind_eq_some_iff] at h
      obtain ⟨text, htext, rest, hrest, -⟩ := h
      have hvalue : (item.value? levels).isSome := isSome_value?_text htext
      obtain ⟨w, hw⟩ := Option.isSome_iff_exists.mp hvalue
      obtain ⟨ws, hws⟩ := Option.isSome_iff_exists.mp (ih hrest)
      simp [itemValues?, hw, hws]
  · cases h

theorem isSome_value?_choice {α : Type} {names : List (String × α)} {a : α}
    (h : v.choice? names = some a) : (v.value? (levels + 1)).isSome := by
  unfold Source.choice? at h
  split at h
  · simp [Source.value?]
  · simp [Source.value?, fieldValues?]
  · cases h

end Value

section Own

variable {fields : List (String × Source)}

/-- A field that was read as a setting is a value. -/
theorem isSome_value?_of_read {α : Type} {name : String} {decode : Source → Option α}
    {default a : α} {levels : Nat} (h : readField fields name decode default = some a)
    (hdecode : ∀ v a, decode v = some a → (v.value? levels).isSome) {v : Source}
    (hv : (name, v) ∈ fields) : (v.value? levels).isSome := by
  have hmem : (name, v) ∈ fields.filter (·.1 == name) :=
    List.mem_filter.mpr ⟨hv, beq_self_eq_true name⟩
  rcases readField_cases h with ⟨hnone, -⟩ | ⟨w, hone, ha⟩
  · rw [hnone] at hmem
    cases hmem
  · rw [hone] at hmem
    obtain ⟨-, rfl⟩ := Prod.mk.inj (List.mem_singleton.mp hmem)
    exact hdecode _ a ha

theorem Reads.isSome_value? {t : Settings} (h : Reads jsonFormat fields t) :
    ∀ e ∈ fields, (e.2.value? (nesting - 1)).isSome := by
  rintro ⟨name, v⟩ hv
  by_cases hname : name ∈ ownNames
  · simp only [ownNames, ownFields, List.map_cons, List.map_nil, List.mem_cons, List.not_mem_nil,
      or_false] at hname
    rcases hname with rfl | rfl | rfl | rfl | rfl | rfl | rfl | rfl | rfl | rfl | rfl | rfl | rfl |
      rfl
    · exact isSome_value?_of_read h.enable (fun _ _ => isSome_value?_bool) hv
    · exact isSome_value?_of_read h.disableLanguages (fun _ _ => isSome_value?_texts) hv
    · exact isSome_value?_of_read h.onlyUseLocalVersion (fun _ _ => isSome_value?_bool) hv
    · exact isSome_value?_of_read h.requireConfig (fun _ _ => isSome_value?_bool) hv
    · exact isSome_value?_of_read h.ignorePath (fun _ _ => isSome_value?_nullable) hv
    · exact isSome_value?_of_read h.documentSelectors (fun _ _ => isSome_value?_texts) hv
    · refine isSome_value?_of_read h.formatterPriority (fun _ _ hn => ?_) hv
      obtain ⟨i, hi, -⟩ := Option.map_eq_some_iff.mp hn
      exact isSome_value?_int hi
    · exact isSome_value?_of_read h.useEditorConfig (fun _ _ => isSome_value?_bool) hv
    · exact isSome_value?_of_read h.withNodeModules (fun _ _ => isSome_value?_bool) hv
    · exact isSome_value?_of_read h.resolveGlobalModules (fun _ _ => isSome_value?_bool) hv
    · exact isSome_value?_of_read h.packageManager (fun _ _ => isSome_value?_choice) hv
    · exact isSome_value?_of_read h.prettierPath (fun _ _ => isSome_value?_nullable) hv
    · exact isSome_value?_of_read h.configPath (fun _ _ => isSome_value?_nullable) hv
    · exact isSome_value?_of_read h.statusItemText (fun _ _ => isSome_value?_text) hv
  · have hraw := h.wellFormed (name, v) hv hname
    rwa [raw?_json, Option.isSome_map] at hraw

end Own

/-- The fields with their values. -/
def values (fields : List (String × Source)) : List (String × Value) :=
  fields.map fun e => (e.1, (e.2.value? (nesting - 1)).getD .null)

theorem fieldValues?_eq {fields : List (String × Source)}
    (h : ∀ e ∈ fields, (e.2.value? (nesting - 1)).isSome) :
    fieldValues? (nesting - 1) (fields.map fun e => (some e.1, e.2)) = some (values fields) := by
  induction fields with
  | nil => simp [fieldValues?, values]
  | cons e rest ih =>
    rw [List.forall_mem_cons] at h
    obtain ⟨w, hw⟩ := Option.isSome_iff_exists.mp h.1
    simp [fieldValues?, ih h.2, hw, values]

/-- The value of an object's only field of a name. -/
theorem find?_values (fields : List (String × Source)) (name : String) :
    Fields.find? (Fields.ofList (values fields)) name =
      (fields.filter (·.1 == name)).getLast?.map fun e => (e.2.value? (nesting - 1)).getD .null := by
  have h := Fields.find?_overlay_last [] (values fields) name
  rw [show Fields.find? ([] : Options) name = none from rfl, Option.or_none] at h
  rw [Fields.ofList, ← Fields.overlay, h, values, List.filter_map, List.getLast?_map, Option.map_map]
  rfl

/-- A slot that was read is the value in its place, unless that is `null`. -/
theorem find?_values_slot {fields : List (String × Source)} {d : EditorDefaults}
    (hd : readDefaults jsonFormat (optionFields fields) = some d) {name : String}
    {value? : Option Value} (he : (name, value?) ∈ d.slots) :
    (Fields.find? (Fields.ofList (values fields)) name).filter (!·.isNull) = value? := by
  have hname : name ∉ ownNames := not_mem_ownNames name (d.mem_optionNames_of_slot he)
  have hfilter : (optionFields fields).filter (·.1 == name) = fields.filter (·.1 == name) := by
    rw [optionFields, List.filter_filter]
    refine List.filter_congr fun e _ => ?_
    by_cases hkey : e.1 = name <;> simp [hkey, hname]
  have hread := readDefaults_json_iff.mp hd _ he
  rw [find?_values, ← hfilter]
  rcases readField_cases hread with ⟨hnone, hnull⟩ | ⟨v, hone, hv⟩
  · rw [hnone]
    cases value? with
    | none => rfl
    | some w =>
      have hw := (isSet_of_mem_slots he).notNull
      rw [slotValue, Option.getD_some] at hnull
      rw [← hnull] at hw
      cases hw
  · rw [hone]
    simp only [List.getLast?_singleton, Option.map_some, hv, Option.getD_some]
    cases value? with
    | none => rfl
    | some w =>
      simp [slotValue, (isSet_of_mem_slots he).notNull]

theorem join_find?_slots {fields : List (String × Source)} {d : EditorDefaults}
    (hd : readDefaults jsonFormat (optionFields fields) = some d) (name : String) :
    (d.slots.find? name).join = (Fields.find? (Fields.ofList (values fields)) name).filter fun v =>
      EditorDefaults.optionNames.contains name && !v.isNull := by
  cases hslot : d.slots.find? name with
  | none =>
    have hname : name ∉ EditorDefaults.optionNames := by
      rw [← d.keys_slots, Fields.mem_keys_iff, hslot]
      exact Bool.false_ne_true
    cases Fields.find? (Fields.ofList (values fields)) name <;> simp [hname, Option.filter]
  | some value? =>
    have he := Fields.mem_of_find? hslot
    rw [Option.join_some, ← find?_values_slot hd he]
    simp [d.mem_optionNames_of_slot he]

/-- **What is read says what the object says** of the formatting defaults,
and nothing else. -/
theorem editorDefaults_of_decode? {source : Source} {t : Settings} (h : decode? source = some t) :
    ∃ o : Options, source.value? nesting = some (.obj o) ∧
      t.editorDefaults =
        o.filter fun e => EditorDefaults.optionNames.contains e.1 && !e.2.isNull := by
  cases source with
  | obj raw =>
    simp only [decode?, bind, Option.bind_eq_some_iff] at h
    obtain ⟨fields, hfields, hread⟩ := h
    obtain rfl := readableFields_eq_some hfields
    have hreads := ofFields?_eq_some_iff.mp hread
    have hvalues := fieldValues?_eq hreads.isSome_value?
    refine ⟨Fields.ofList (values fields), ?_, ?_⟩
    · rw [show nesting = (nesting - 1) + 1 from rfl, Source.value?, hvalues, Option.map_some]
    · have ho := Fields.ordered_ofList (values fields)
      refine (Fields.ordered_ofList _).ext (ho.sublist (List.filter_sublist.map _)) fun name => ?_
      rw [Fields.find?_filter ho.nodup, ← join_find?_slots hreads.defaults]
      exact EditorDefaults.find?_toOptions _ name
  | _ => cases h

/-! ## §8 Serialization -/

/-- **Settings survive being written and read back**: in whatever order
their fields are written, and with `ignorePath` written as `null` where no
ignore file is used, for without the field it is the default one. Read from
any object, the options for the formatter are those of the twenty that
stand in it with a value other than `null`; settings are none of them. -/
theorem serialization :
    (∀ (s : Settings) (fields : Options), fields.Perm s.written →
      parse? (Value.obj fields).compact = some s ∧
        parse? (Value.obj (fields.erase "ignorePath")).compact =
          some { s with ignorePath := some defaultIgnorePath }) ∧
    (∀ s : Settings, parse? s.toValue.compact = some s) ∧
    (∀ (source : Source) (t : Settings), decode? source = some t →
      ∃ o : Options, source.value? nesting = some (.obj o) ∧
        t.editorDefaults =
          o.filter fun e => EditorDefaults.optionNames.contains e.1 && !e.2.isNull) ∧
    ∀ name ∈ ownNames, ∀ t : Settings, t.editorDefaults.find? name = none := by
  refine ⟨fun s fields hfields => ⟨(says_of_perm hfields).parse?,
    (says_of_perm hfields).erase_ignorePath.parse?⟩, fun s => ?_, fun source t h =>
    editorDefaults_of_decode? h, fun name hname t => ?_⟩
  · have hperm : (Fields.ofList s.written).Perm s.written :=
      Fields.ofList_perm s.nodup_keys_written
    exact (says_of_perm hperm).parse?
  · have hkey : name ∉ t.defaults.slots.keys := by
      rw [EditorDefaults.keys_slots]
      exact fun hoption => not_mem_ownNames name hoption hname
    rw [editorDefaults, EditorDefaults.find?_toOptions, Fields.find?_eq_none hkey, Option.join_none]

end Settings
end FormatHost
