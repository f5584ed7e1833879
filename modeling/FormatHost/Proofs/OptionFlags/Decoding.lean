/-
FormatHost.Proofs.OptionFlags.Decoding — what can be told from the flags of
options.

The flags are a flat list of words without lengths. A word that begins with
two dashes is a flag as long as no text of an option does, so the words fall
into flags and their values in one way. From the name of a flag the option's
name can be told as long as names have no dash of their own, and from a flag
that begins with `--no-` that an option is off, as long as no name begins with
`no` and a capital. Then two tables with the same flags say the same, but for
what has no flag.

* §1 words: `read_words`;
* §2 names of flags: `dashed_inj`;
* §3 the texts of numbers;
* §4 options as entries: `flags_eq`;
* §5 `flags_unambiguous`.
-/
import FormatHost.Proofs.OptionFlags

namespace FormatHost.OptionFlags

open Json

/-! ## §1 Words -/

/-- The word begins with two dashes. -/
def IsFlag (word : String) : Prop := "--".toList <+: word.toList

instance (word : String) : Decidable (IsFlag word) :=
  inferInstanceAs (Decidable ("--".toList <+: word.toList))

/-- A flag, with its value if it has one. -/
abbrev Entry := String × Option String

namespace Entry

def words : Entry → List String
  | (flag, none) => [flag]
  | (flag, some value) => [flag, value]

/-- The words can be told apart: the first one is a flag, the second is not. -/
structure Readable (e : Entry) : Prop where
  flag : IsFlag e.1
  value : ∀ value ∈ e.2, ¬ IsFlag value

/-- Words as entries: a word that is no flag belongs to the one before it. -/
def read : List String → List Entry
  | [] => []
  | [flag] => [(flag, none)]
  | flag :: word :: rest =>
    if IsFlag word then (flag, none) :: read (word :: rest) else (flag, some word) :: read rest

/-- **Words that can be told apart are read back.** -/
theorem read_words {entries : List Entry} (h : ∀ e ∈ entries, e.Readable) :
    read (entries.flatMap words) = entries := by
  induction entries with
  | nil => rfl
  | cons e entries ih =>
    obtain ⟨he, hrest⟩ := List.forall_mem_cons.mp h
    obtain ⟨flag, value?⟩ := e
    have hread := ih hrest
    cases value? with
    | some value =>
      show read (flag :: value :: entries.flatMap words) = _
      rw [read, if_neg (he.value value rfl), hread]
    | none =>
      cases entries with
      | nil => rfl
      | cons next entries =>
        obtain ⟨hnext, -⟩ := List.forall_mem_cons.mp hrest
        obtain ⟨more, hwords⟩ : ∃ more, (next :: entries).flatMap words = next.1 :: more := by
          obtain ⟨flag', value?'⟩ := next
          cases value?' <;> exact ⟨_, rfl⟩
        rw [hwords] at hread
        rw [List.flatMap_cons, hwords]
        show read (flag :: next.1 :: more) = _
        rw [read, if_pos hnext.flag, hread]

end Entry

/-- Maps that tell the items of two lists apart tell the lists apart. -/
theorem eq_of_map_eq {α β : Type} {f : α → β} {xs ys : List α}
    (hinj : ∀ x ∈ xs, ∀ y ∈ ys, f x = f y → x = y) (h : xs.map f = ys.map f) : xs = ys := by
  induction xs generalizing ys with
  | nil => exact (List.map_eq_nil_iff.mp h.symm).symm
  | cons x xs ih =>
    cases ys with
    | nil => cases h
    | cons y ys =>
      obtain ⟨hx, hxs⟩ := List.cons.inj h
      rw [hinj x (List.mem_cons_self ..) y (List.mem_cons_self ..) hx,
        ih (fun x hx y hy => hinj x (List.mem_cons_of_mem _ hx) y (List.mem_cons_of_mem _ hy)) hxs]

/-! ## §2 Names -/

theorem isCapital_iff {c : Char} : isCapital c = true ↔ 65 ≤ c.toNat ∧ c.toNat ≤ 90 := by
  unfold isCapital
  rw [Bool.and_eq_true, decide_eq_true_eq, decide_eq_true_eq]
  rfl

theorem toNat_lowerAscii {c : Char} (h : isCapital c = true) :
    (Text.lowerAscii c).toNat = c.toNat + 32 := by
  obtain ⟨hl, hu⟩ := isCapital_iff.mp h
  have hc : 'A' ≤ c ∧ c ≤ 'Z' := ⟨hl, hu⟩
  have hv : (c.toNat + 32).isValidChar := .inl (by omega)
  rw [Text.lowerAscii, if_pos hc, Char.ofNat, dif_pos hv]
  rfl

/-- Capitals have different small letters. -/
theorem lowerAscii_inj {c d : Char} (hc : isCapital c = true) (hd : isCapital d = true)
    (h : Text.lowerAscii c = Text.lowerAscii d) : c = d := by
  have hn := congrArg Char.toNat h
  rw [toNat_lowerAscii hc, toNat_lowerAscii hd] at hn
  exact Char.toNat_inj.mp (Nat.add_right_cancel hn)

/-- A dash is where a capital was. -/
theorem dashed_inj {cs ds : List Char} (hc : '-' ∉ cs) (hd : '-' ∉ ds)
    (h : dashed cs = dashed ds) : cs = ds := by
  induction cs generalizing ds with
  | nil =>
    cases ds with
    | nil => rfl
    | cons d ds =>
      unfold dashed at h
      split at h <;> cases h
  | cons c cs ih =>
    obtain ⟨hc, hcs⟩ := not_or.mp (fun hm => hc (List.mem_cons.mpr hm))
    cases ds with
    | nil =>
      unfold dashed at h
      split at h <;> cases h
    | cons d ds =>
      obtain ⟨hd, hds⟩ := not_or.mp (fun hm => hd (List.mem_cons.mpr hm))
      rw [dashed, dashed] at h
      by_cases hcap : isCapital c = true <;> by_cases hcap' : isCapital d = true
      · rw [if_pos hcap, if_pos hcap'] at h
        obtain ⟨hlow, hrest⟩ := List.cons.inj (List.cons.inj h).2
        rw [lowerAscii_inj hcap hcap' hlow, ih hcs hds hrest]
      · rw [if_pos hcap, if_neg hcap'] at h
        exact absurd (List.cons.inj h).1 hd
      · rw [if_neg hcap, if_pos hcap'] at h
        exact absurd (List.cons.inj h).1.symm hc
      · rw [if_neg hcap, if_neg hcap'] at h
        obtain ⟨rfl, hrest⟩ := List.cons.inj h
        rw [ih hcs hds hrest]

/-- A name whose flag can be told from others: it has no dash of its own,
and does not begin with `no` and a capital. -/
structure PlainName (key : String) : Prop where
  dash : '-' ∉ key.toList
  negation : ∀ c rest, key.toList = 'n' :: 'o' :: c :: rest → isCapital c = false

theorem flagName_inj {key key' : String} (h : PlainName key) (h' : PlainName key')
    (he : flagName key = flagName key') : key = key' :=
  String.toList_inj.mp (dashed_inj h.dash h'.dash (String.ofList_injective he))

theorem onFlag_inj {key key' : String} (h : PlainName key) (h' : PlainName key')
    (he : "--" ++ flagName key = "--" ++ flagName key') : key = key' :=
  flagName_inj h h' (by simpa [← String.toList_inj] using he)

theorem offFlag_inj {key key' : String} (h : PlainName key) (h' : PlainName key')
    (he : "--no-" ++ flagName key = "--no-" ++ flagName key') : key = key' :=
  flagName_inj h h' (by simpa [← String.toList_inj] using he)

/-- What is not a dash in a flag stands so in the name. -/
theorem dashed_eq_cons {cs rest : List Char} {c : Char} (hc : c ≠ '-')
    (h : dashed cs = c :: rest) : ∃ cs', cs = c :: cs' ∧ dashed cs' = rest := by
  cases cs with
  | nil => cases h
  | cons d ds =>
    rw [dashed] at h
    split at h
    · exact absurd (List.cons.inj h).1.symm hc
    · obtain ⟨rfl, hrest⟩ := List.cons.inj h
      exact ⟨ds, rfl, hrest⟩

/-- An option that is off has the flag of no other that has one. -/
theorem offFlag_ne_onFlag {key' : String} (h' : PlainName key') (key : String) :
    "--no-" ++ flagName key ≠ "--" ++ flagName key' := by
  intro he
  have hname : dashed key'.toList = 'n' :: 'o' :: '-' :: dashed key.toList := by
    simpa [← String.toList_inj, flagName] using he.symm
  obtain ⟨cs, hcs, ho⟩ := dashed_eq_cons (by decide) hname
  obtain ⟨ds, rfl, hd⟩ := dashed_eq_cons (by decide) ho
  cases ds with
  | nil => cases hd
  | cons c ds =>
    have hcap := h'.negation c ds hcs
    rw [dashed, hcap] at hd
    obtain ⟨rfl, -⟩ := List.cons.inj hd
    exact h'.dash (by simp [hcs])

/-! ## §3 Numbers -/

theorem dash_not_mem_digits (n : Nat) : '-' ∉ Nat.toDigits 10 n :=
  fun h => absurd (Json.isDigit_decimal h) (by decide)

theorem head?_append_ne {front rest : List Char} (hf : '-' ∉ front) (hr : rest.head? ≠ some '-') :
    (front ++ rest).head? ≠ some '-' := by
  cases front with
  | nil => exact hr
  | cons c front =>
    intro h
    obtain rfl : c = '-' := by simpa using h
    exact hf (List.mem_cons_self ..)

/-- One sign does not make two dashes. -/
theorem not_isFlag_signed (negative : Bool) {digits : String}
    (hd : digits.toList.head? ≠ some '-') :
    ¬ IsFlag ((if negative then "-" else "") ++ digits) := by
  rintro ⟨rest, hr⟩
  rw [String.toList_append] at hr
  cases negative with
  | true =>
    have hdigits : digits.toList = '-' :: rest := by simpa using hr.symm
    exact hd (by rw [hdigits]; rfl)
  | false =>
    have hdigits : digits.toList = '-' :: '-' :: rest := by simpa using hr.symm
    exact hd (by rw [hdigits]; rfl)

theorem not_isFlag_render (b : Decimal.Binary) : ¬ IsFlag (Decimal.render b) := by
  have htake (n k : Nat) : '-' ∉ (Nat.toDigits 10 n).take k :=
    fun h => dash_not_mem_digits n (List.mem_of_mem_take h)
  have hpoint (n : Nat) : '-' ∉ (if (toString n).length > 1
      then "." ++ String.ofList ((toString n).toList.drop 1) else "").toList := by
    split
    · simpa using fun h => dash_not_mem_digits n (List.mem_of_mem_tail h)
    · decide
  unfold Decimal.render
  dsimp only
  -- one case for each notation: zero, with an exponent, and three without
  split
  · exact not_isFlag_signed _ (by decide)
  split
  · simp only [String.append_assoc]
    refine not_isFlag_signed _ ?_
    rw [String.toList_append, String.toList_append]
    refine head?_append_ne (by simpa using htake _ _) (head?_append_ne (hpoint _) ?_)
    simp
  split
  · simp only [String.append_assoc]
    refine not_isFlag_signed _ ?_
    rw [String.toList_append, String.toList_append]
    refine head?_append_ne (by simpa using dash_not_mem_digits _) (head?_append_ne (by simp) ?_)
    decide
  split
  · simp only [String.append_assoc]
    refine not_isFlag_signed _ ?_
    rw [String.toList_append]
    refine head?_append_ne (by simpa using htake _ _) ?_
    simp
  · simp only [String.append_assoc]
    refine not_isFlag_signed _ ?_
    simp

theorem not_isFlag_number (n : Number) : ¬ IsFlag n.text := by
  cases n with
  | int i =>
    obtain ⟨negative, n, htext, -, -⟩ := exists_int_text i
    have hword : (Number.int i).text =
        (if negative then "-" else "") ++ String.ofList (Nat.toDigits 10 n) := by
      rw [← String.toList_inj, htext]
      cases negative <;> simp
    rw [hword]
    refine not_isFlag_signed _ fun h => dash_not_mem_digits n ?_
    rw [String.toList_ofList] at h
    exact List.mem_of_head? h
  | float bits =>
    unfold Number.text
    dsimp only
    split
    · exact not_isFlag_render _
    · decide

/-! ## §4 Entries -/

/-- What flags say of an option: that it is on or off, or its text. -/
inductive Said
  | switch (on : Bool)
  | text (s : String)
  deriving DecidableEq

namespace Said

/-- What flags say of an option's value; nothing of lists, objects and
null. -/
def ofValue? : Value → Option Said
  | .bool on => some (.switch on)
  | .num n => some (.text n.text)
  | .str s => some (.text s)
  | _ => none

def entry (key : String) : Said → Entry
  | .switch true => ("--" ++ flagName key, none)
  | .switch false => ("--no-" ++ flagName key, none)
  | .text s => ("--" ++ flagName key, some s)

theorem entry_flag (key : String) (said : Said) :
    (said.entry key).1 = "--" ++ flagName key ∨ (said.entry key).1 = "--no-" ++ flagName key := by
  cases said with
  | switch on =>
    cases on
    · exact .inr rfl
    · exact .inl rfl
  | text s => exact .inl rfl

/-- **The option and what is said of it can be told from its entry.** -/
theorem entry_inj {key key' : String} (h : PlainName key) (h' : PlainName key')
    {said said' : Said} (he : said.entry key = said'.entry key') : (key, said) = (key', said') := by
  obtain ⟨hflag, hvalue⟩ := Prod.mk.inj he
  match said, said' with
  | .switch true, .switch true => rw [onFlag_inj h h' hflag]
  | .switch false, .switch false => rw [offFlag_inj h h' hflag]
  | .text s, .text s' => rw [onFlag_inj h h' hflag, Option.some.inj hvalue]
  | .switch true, .switch false => exact absurd hflag.symm (offFlag_ne_onFlag h key')
  | .switch false, .switch true => exact absurd hflag (offFlag_ne_onFlag h' key)
  | .switch true, .text s | .text s, .switch true => cases hvalue
  | .switch false, .text s | .text s, .switch false => cases hvalue

end Said

/-- The file that the text stands for, if the options name one. -/
def path? (o : Options) : Option String := (o.find? "filepath").bind Value.str?

def pathEntries (o : Options) : List Entry :=
  (path? o).toList.map fun p => ("--stdin-filepath", some p)

def pluginEntries (o : Options) : List Entry := (plugins o).map fun p => ("--plugin", some p)

/-- What flags say of each option that has one of its own name. -/
def said (o : Options) : Fields Said :=
  Fields.present (Fields.mapValues Said.ofValue? (o.filter fun e => !skipped.contains e.1))

def ownEntries (o : Options) : List Entry := (said o).map fun e => e.2.entry e.1

theorem flagsOf_eq (o : Options) :
    (o.flatMap fun e => flagsOf e.1 e.2) =
      ((Fields.present (o.mapValues Said.ofValue?)).map fun e => e.2.entry e.1).flatMap
        Entry.words := by
  induction o with
  | nil => rfl
  | cons e o ih =>
    obtain ⟨key, value⟩ := e
    rw [List.flatMap_cons, ih]
    match value with
    | .bool true | .bool false | .num _ | .str _ => rfl
    | .null | .arr _ | .obj _ => rfl

/-- The flags are the words of entries. -/
theorem flags_eq (o : Options) :
    flags o = (pathEntries o ++ pluginEntries o ++ ownEntries o).flatMap Entry.words := by
  have hpath : pathFlags o = (pathEntries o).flatMap Entry.words := by
    unfold pathFlags pathEntries path?
    cases o.find? "filepath" with
    | none => rfl
    | some value => cases value <;> rfl
  have hplugins : ((plugins o).flatMap fun p => ["--plugin", p]) =
      (pluginEntries o).flatMap Entry.words := by
    rw [pluginEntries, List.flatMap_map]
    rfl
  rw [List.flatMap_append, List.flatMap_append, flags, flagsOf_eq, hpath, hplugins]
  rfl

/-- A table of options from whose flags it can be told what they say: names are
plain and not those of the flags of the file and the plugins, and no text
begins like a flag. -/
structure Unambiguous (o : Options) : Prop where
  nodup : o.keys.Nodup
  name : ∀ key ∈ o.keys, PlainName key
  reserved : ∀ key ∈ o.keys, key ≠ "stdinFilepath" ∧ key ≠ "plugin"
  text : ∀ e ∈ o, ∀ s, e.2 = .str s → ¬ IsFlag s
  plugin : ∀ p ∈ plugins o, ¬ IsFlag p

section Options

variable {o : Options}

theorem mem_said {key : String} {t : Said} (h : (key, t) ∈ said o) :
    ∃ value, (key, value) ∈ o ∧ Said.ofValue? value = some t := by
  obtain ⟨e, he, ht⟩ := List.mem_filterMap.mp h
  obtain ⟨e', he', rfl⟩ := List.mem_map.mp he
  obtain ⟨t', ht', heq⟩ := Option.map_eq_some_iff.mp ht
  obtain ⟨rfl, rfl⟩ := Prod.mk.inj heq
  exact ⟨e'.2, (List.mem_filter.mp he').1, ht'⟩

theorem find?_said (h : o.keys.Nodup) {key : String} (hk : key ∉ skipped) :
    (said o).find? key = (o.find? key).bind Said.ofValue? := by
  have hn := Fields.nodup_keys_filter h fun e => !skipped.contains e.1
  rw [said, Fields.find?_present (by rwa [Fields.keys_mapValues]), Fields.find?_mapValues,
    Fields.find?_filter h]
  cases o.find? key with
  | none => rfl
  | some value => simp [hk, Option.filter]

theorem readable_entries (h : Unambiguous o) :
    ∀ e ∈ pathEntries o ++ pluginEntries o ++ ownEntries o, e.Readable := by
  have hon (key : String) : IsFlag ("--" ++ flagName key) := by simp [IsFlag]
  have hoff (key : String) : IsFlag ("--no-" ++ flagName key) := by simp [IsFlag]
  intro e he
  rcases List.mem_append.mp he with he | he
  · rcases List.mem_append.mp he with he | he
    · obtain ⟨p, hp, rfl⟩ := List.mem_map.mp he
      obtain ⟨value, hv, hs⟩ := Option.bind_eq_some_iff.mp (Option.mem_toList.mp hp)
      refine ⟨(by decide : IsFlag "--stdin-filepath"), fun word hw => ?_⟩
      obtain rfl := Option.some.inj hw
      cases value with
      | str s =>
        cases hs
        exact h.text _ (Fields.mem_of_find? hv) p rfl
      | _ => cases hs
    · obtain ⟨p, hp, rfl⟩ := List.mem_map.mp he
      refine ⟨(by decide : IsFlag "--plugin"), fun word hw => ?_⟩
      obtain rfl := Option.some.inj hw
      exact h.plugin p hp
  · obtain ⟨⟨key, t⟩, ht, rfl⟩ := List.mem_map.mp he
    obtain ⟨value, hv, hsaid⟩ := mem_said ht
    match value with
    | .bool true =>
      cases hsaid
      exact ⟨hon key, nofun⟩
    | .bool false =>
      cases hsaid
      exact ⟨hoff key, nofun⟩
    | .num n =>
      cases hsaid
      refine ⟨hon key, fun word hw => ?_⟩
      obtain rfl := Option.some.inj hw
      exact not_isFlag_number n
    | .str s =>
      cases hsaid
      refine ⟨hon key, fun word hw => ?_⟩
      obtain rfl := Option.some.inj hw
      exact h.text _ hv s rfl

/-- No option of its own name has the flag of a plain name that is not
its. -/
theorem ownEntries_flag_ne (h : Unambiguous o) {name : String} (hname : PlainName name)
    (hn : name ∉ o.keys) : ∀ e ∈ ownEntries o, e.1 ≠ "--" ++ flagName name := by
  intro e he hflag
  obtain ⟨⟨key, t⟩, ht, rfl⟩ := List.mem_map.mp he
  obtain ⟨value, hv, -⟩ := mem_said ht
  have hkey : key ∈ o.keys := List.mem_map_of_mem hv
  rcases t.entry_flag key with hon | hoff
  · exact hn (onFlag_inj (h.name key hkey) hname (hon.symm.trans hflag) ▸ hkey)
  · exact offFlag_ne_onFlag hname key (hoff.symm.trans hflag)

theorem fileFlag_eq : "--" ++ flagName "stdinFilepath" = "--stdin-filepath" := by decide +kernel

theorem pluginFlag_eq : "--" ++ flagName "plugin" = "--plugin" := by decide +kernel

theorem plainName_of_head {key : String} (hd : '-' ∉ key.toList)
    (hn : key.toList.head? ≠ some 'n') : PlainName key :=
  ⟨hd, fun c rest h => absurd (by rw [h]; rfl) hn⟩

/-- By their flags the entries fall into those of the file, of the plugins and
of the other options. -/
theorem filter_entries (h : Unambiguous o) :
    let entries := pathEntries o ++ pluginEntries o ++ ownEntries o
    entries.filter (·.1 = "--stdin-filepath") = pathEntries o ∧
      entries.filter (·.1 = "--plugin") = pluginEntries o ∧
      entries.filter (fun e => e.1 ≠ "--stdin-filepath" ∧ e.1 ≠ "--plugin") = ownEntries o := by
  have hfile : ∀ e ∈ ownEntries o, e.1 ≠ "--stdin-filepath" := fileFlag_eq ▸
    ownEntries_flag_ne h (plainName_of_head (by decide) (by decide))
      fun hk => (h.reserved _ hk).1 rfl
  have hplugin : ∀ e ∈ ownEntries o, e.1 ≠ "--plugin" := pluginFlag_eq ▸
    ownEntries_flag_ne h (plainName_of_head (by decide) (by decide))
      fun hk => (h.reserved _ hk).2 rfl
  have hpath : ∀ e ∈ pathEntries o, e.1 = "--stdin-filepath" := by
    intro e he
    obtain ⟨p, -, rfl⟩ := List.mem_map.mp he
    rfl
  have hplugins : ∀ e ∈ pluginEntries o, e.1 = "--plugin" := by
    intro e he
    obtain ⟨p, -, rfl⟩ := List.mem_map.mp he
    rfl
  have hall {q : Entry → Bool} {es : List Entry} (hq : ∀ e ∈ es, q e = true) :
      es.filter q = es := List.filter_eq_self.mpr hq
  have hnone {q : Entry → Bool} {es : List Entry} (hq : ∀ e ∈ es, q e = false) :
      es.filter q = [] := List.filter_eq_nil_iff.mpr fun e he => by simp [hq e he]
  simp only [List.filter_append]
  refine ⟨?_, ?_, ?_⟩
  · rw [hall fun e he => by simp [hpath e he], hnone fun e he => by simp [hplugins e he],
      hnone fun e he => by simp [hfile e he], List.append_nil, List.append_nil]
  · rw [hnone fun e he => by simp [hpath e he], hall fun e he => by simp [hplugins e he],
      hnone fun e he => by simp [hplugin e he], List.nil_append, List.append_nil]
  · rw [hnone fun e he => by simp [hpath e he], hnone fun e he => by simp [hplugins e he],
      hall fun e he => by simp [hfile e he, hplugin e he], List.nil_append, List.nil_append]

/-- What is said of the options can be told from their entries. -/
theorem said_eq {o' : Options} (h : Unambiguous o) (h' : Unambiguous o')
    (he : ownEntries o = ownEntries o') : said o = said o' := by
  refine eq_of_map_eq (fun e hm e' hm' => ?_) he
  obtain ⟨value, hv, -⟩ := mem_said hm
  obtain ⟨value', hv', -⟩ := mem_said hm'
  exact Said.entry_inj (h.name _ (List.mem_map_of_mem hv)) (h'.name _ (List.mem_map_of_mem hv'))

end Options

/-! ## §5 What can be told -/

/-- The text that stands for a number or a text. -/
def printed? : Value → Option String
  | .num n => some n.text
  | .str s => some s
  | _ => none

theorem bool_iff_said {o : Options} {key : String} {on : Bool} :
    o.find? key = some (.bool on) ↔ (o.find? key).bind Said.ofValue? = some (.switch on) := by
  cases o.find? key with
  | none => simp
  | some value => cases value <;> simp [Said.ofValue?]

def Said.text? : Said → Option String
  | .switch _ => none
  | .text s => some s

theorem printed?_eq (value : Value) : printed? value = (Said.ofValue? value).bind Said.text? := by
  cases value <;> rfl

/-- **The flags of options lose nothing that they stand for.** Two tables whose
flags are the same words name the same file, or both none, and the same
plugins; and of each option that has a flag of its own name they say the
same: that it is on, or off, or how its number or text is written. -/
theorem flags_unambiguous {a b : Options} (ha : Unambiguous a) (hb : Unambiguous b)
    (h : flags a = flags b) :
    (a.find? "filepath").bind Value.str? = (b.find? "filepath").bind Value.str? ∧
      plugins a = plugins b ∧
      ∀ key, key ∉ skipped →
        (∀ on, a.find? key = some (.bool on) ↔ b.find? key = some (.bool on)) ∧
        (a.find? key).bind printed? = (b.find? key).bind printed? := by
  have hentries : pathEntries a ++ pluginEntries a ++ ownEntries a =
      pathEntries b ++ pluginEntries b ++ ownEntries b := by
    rw [← Entry.read_words (readable_entries ha), ← Entry.read_words (readable_entries hb),
      ← flags_eq, ← flags_eq, h]
  obtain ⟨hpath, hplugins, hown⟩ := filter_entries ha
  obtain ⟨hpath', hplugins', hown'⟩ := filter_entries hb
  rw [hentries] at hpath hplugins hown
  rw [hpath'] at hpath
  rw [hplugins'] at hplugins
  rw [hown'] at hown
  have hsaid : said a = said b := (said_eq hb ha hown).symm
  refine ⟨?_, ?_, fun key hk => ?_⟩
  · have hlist : (path? a).toList = (path? b).toList :=
      eq_of_map_eq (fun p _ q _ he => Option.some.inj (Prod.mk.inj he).2) hpath.symm
    have hfile : path? a = path? b := by simpa using congrArg List.head? hlist
    exact hfile
  · exact eq_of_map_eq (fun p _ q _ he => Option.some.inj (Prod.mk.inj he).2) hplugins.symm
  · have hkey : (a.find? key).bind Said.ofValue? = (b.find? key).bind Said.ofValue? := by
      rw [← find?_said ha.nodup hk, ← find?_said hb.nodup hk, hsaid]
    refine ⟨fun on => ?_, ?_⟩
    · rw [bool_iff_said, bool_iff_said, hkey]
    · simp only [funext printed?_eq, ← Option.bind_assoc, hkey]

/-- Options with a number, a list of plugins and overrides. -/
def listedOptions : Options :=
  [("filepath", .str "/ws/a.ts"), ("overrides", .arr []), ("plugins", .arr [.null, .str "a"]),
    ("semi", .bool false), ("tabWidth", .num (.int 4))]

/-- The same options but for what flags do not show. -/
def spelledOptions : Options :=
  [("embedded", .null), ("filepath", .str "/ws/a.ts"), ("plugins", .str "a"),
    ("semi", .bool false), ("tabWidth", .str "4")]

theorem unambiguous_of_heads {o : Options} (hn : o.keys.Nodup)
    (hk : ∀ key ∈ o.keys, '-' ∉ key.toList ∧ key.toList.head? ≠ some 'n' ∧
      key ≠ "stdinFilepath" ∧ key ≠ "plugin")
    (ht : ∀ e ∈ o, ∀ s, e.2 = .str s → ¬ IsFlag s) (hp : ∀ p ∈ plugins o, ¬ IsFlag p) :
    Unambiguous o :=
  ⟨hn, fun key hm => plainName_of_head (hk key hm).1 (hk key hm).2.1,
    fun key hm => (hk key hm).2.2, ht, hp⟩

/-- The tables differ in what flags do not show only. -/
theorem flags_unambiguous_spelled :
    Unambiguous listedOptions ∧ Unambiguous spelledOptions ∧
      flags listedOptions = flags spelledOptions ∧
      plugins listedOptions = plugins spelledOptions ∧
      (listedOptions.find? "tabWidth").bind printed? =
        (spelledOptions.find? "tabWidth").bind printed? := by
  have ha : Unambiguous listedOptions :=
    unambiguous_of_heads (by decide) (by decide) (by simp [listedOptions, IsFlag]) (by decide)
  have hb : Unambiguous spelledOptions :=
    unambiguous_of_heads (by decide) (by decide) (by simp [spelledOptions, IsFlag]) (by decide)
  have hflags : flags listedOptions = flags spelledOptions := by decide +kernel
  obtain ⟨-, hplugins, hown⟩ := flags_unambiguous ha hb hflags
  exact ⟨ha, hb, hflags, hplugins, (hown "tabWidth" (by decide)).2⟩

/-- A name that begins with `no` and a capital would not do. -/
example : flags [("noSemi", .bool true)] = flags [("semi", .bool false)] := by decide +kernel

end FormatHost.OptionFlags
