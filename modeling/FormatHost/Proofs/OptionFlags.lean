/-
FormatHost.Proofs.OptionFlags — the plugins that a formatting names on its
command line, against the plugins that the inference is told of.

The flags are a flat list of words, in which a flag and the text of an
option look alike. What follows `--plugin` is a plugin as long as no other
word of the list is `--plugin`: no name of an option makes that flag but
`plugin`, no number is written so, and only texts are left to ask for.

* §1 `valuesOf`: what follows a flag in a list of words;
* §2 words that are not `--plugin`;
* §3 `inferred_plugins`: the two readings of `plugins` agree unless it is a
  single text, which the flags have and the inference does not.
-/
import FormatHost.OptionFlags
import FormatHost.Config.Project
import FormatHost.Proofs.Json.Fields
import FormatHost.Proofs.Json.RoundTrip

namespace FormatHost.OptionFlags

open Json

/-! ## §1 Reading the words back -/

/-- The values of a flag, each the word that follows it. -/
def valuesOf (flag : String) : List String → List String
  | [] => []
  | [_] => []
  | word :: next :: rest =>
    if word = flag then next :: valuesOf flag rest else valuesOf flag (next :: rest)

section Words

variable {flag : String}

theorem valuesOf_cons_of_ne {word : String} (h : word ≠ flag) (rest : List String) :
    valuesOf flag (word :: rest) = valuesOf flag rest := by
  cases rest with
  | nil => rfl
  | cons next rest => rw [valuesOf, if_neg h]

theorem valuesOf_append {words : List String} (h : flag ∉ words) (rest : List String) :
    valuesOf flag (words ++ rest) = valuesOf flag rest := by
  induction words with
  | nil => rfl
  | cons word words ih =>
    obtain ⟨hword, hwords⟩ := not_or.mp (fun hm => h (List.mem_cons.mpr hm))
    rw [List.cons_append, valuesOf_cons_of_ne (Ne.symm hword), ih hwords]

theorem valuesOf_eq_nil {words : List String} (h : flag ∉ words) : valuesOf flag words = [] := by
  rw [← List.append_nil words, valuesOf_append h, valuesOf]

/-- Values with the flag before each of them are read back, in order; a
value may well be spelled like the flag. -/
theorem valuesOf_pairs (values rest : List String) :
    valuesOf flag (values.flatMap (fun v => [flag, v]) ++ rest) = values ++ valuesOf flag rest := by
  induction values with
  | nil => rfl
  | cons v values ih =>
    rw [List.flatMap_cons, List.append_assoc, List.cons_append, List.cons_append, List.nil_append,
      valuesOf, if_pos rfl, ih, List.cons_append]

end Words

/-! ## §2 Other words -/

/-- A capital always leaves its dash behind. -/
theorem dashed_eq_self : ∀ {cs : List Char}, '-' ∉ dashed cs → dashed cs = cs
  | [], _ => rfl
  | c :: cs, h => by
    unfold dashed at h ⊢
    split at h
    · exact absurd (List.mem_cons_self ..) h
    · rename_i hc
      rw [if_neg hc, dashed_eq_self fun hm => h (List.mem_cons_of_mem _ hm)]

/-- Only the option `plugin` has the flag of the plugins for its own. -/
theorem eq_plugin_of_flagName {key : String} (h : "--" ++ flagName key = "--plugin") :
    key = "plugin" := by
  have hname : dashed key.toList = "plugin".toList := by
    have hcs : "--".toList ++ (flagName key).toList = "--".toList ++ "plugin".toList := by
      rw [← String.toList_append, h]
      rfl
    rw [← List.append_cancel_left hcs, flagName, String.toList_ofList]
  have hdash : '-' ∉ dashed key.toList := by rw [hname]; decide
  exact String.toList_inj.mp ((dashed_eq_self hdash).symm.trans hname)

theorem not_flagName_no (key : String) : "--no-" ++ flagName key ≠ "--plugin" := by
  intro h
  have h' := congrArg (fun s => s.toList.take 3) h
  rw [String.toList_append] at h'
  exact absurd h' (by simp)

theorem not_mem_digits (n : Nat) : 'p' ∉ Nat.toDigits 10 n :=
  fun h => absurd (Json.isDigit_decimal h) (by decide)

theorem not_mem_ite {c : Prop} [Decidable c] {s t : String} (hs : 'p' ∉ s.toList)
    (ht : 'p' ∉ t.toList) : 'p' ∉ (if c then s else t).toList := by
  split
  · exact hs
  · exact ht

theorem not_mem_render (b : Decimal.Binary) : 'p' ∉ (Decimal.render b).toList := by
  have hsign : 'p' ∉ (if b.negative then "-" else "").toList := not_mem_ite (by decide) (by decide)
  have htake (n k : Nat) : 'p' ∉ (Nat.toDigits 10 n).take k :=
    fun h => not_mem_digits n (List.mem_of_mem_take h)
  have hdrop (n k : Nat) : 'p' ∉ (Nat.toDigits 10 n).drop k :=
    fun h => not_mem_digits n (List.mem_of_mem_drop h)
  have htail (n : Nat) : 'p' ∉ (Nat.toDigits 10 n).tail :=
    fun h => not_mem_digits n (List.mem_of_mem_tail h)
  unfold Decimal.render
  dsimp only
  refine not_mem_ite ?_ (not_mem_ite ?_ (not_mem_ite ?_ (not_mem_ite ?_ ?_)))
  · simp [hsign]
  · have hmark (e : Int) : 'p' ∉ (if e < 0 then "-" else "+").toList :=
      not_mem_ite (by decide) (by decide)
    have hpoint (n : Nat) : 'p' ∉ (if (toString n).length > 1
        then "." ++ String.ofList ((toString n).toList.drop 1) else "").toList :=
      not_mem_ite (by simp [htail]) (by decide)
    simp only [String.toList_append, List.mem_append, not_or]
    exact ⟨⟨⟨⟨hsign, by simp [htake], hpoint _⟩, by decide⟩, hmark _⟩, by simp [not_mem_digits]⟩
  · simp [hsign, not_mem_digits]
  · simp [hsign, htake, hdrop]
  · simp [hsign, not_mem_digits]

/-- A number is written in digits and the signs of numbers, without a
letter `p`. -/
theorem not_mem_number (n : Number) : 'p' ∉ n.text.toList := by
  cases n with
  | int i =>
    obtain ⟨negative, n, htext, -, -⟩ := exists_int_text i
    rw [htext]
    cases negative <;> simp [not_mem_digits]
  | float bits =>
    unfold Number.text
    dsimp only
    split
    · exact not_mem_render _
    · decide

theorem not_mem_flagsOf {key : String} {value : Value} (hkey : key ≠ "plugin")
    (hvalue : value ≠ .str "--plugin") : "--plugin" ∉ flagsOf key value := by
  have hflag : "--plugin" ≠ "--" ++ flagName key := fun h => hkey (eq_plugin_of_flagName h.symm)
  match value with
  | .bool true => simpa [flagsOf] using hflag
  | .bool false => simpa [flagsOf] using (not_flagName_no key).symm
  | .num n =>
    have hn : "--plugin" ≠ n.text := fun h => not_mem_number n (h ▸ by decide)
    simpa [flagsOf] using ⟨hflag, hn⟩
  | .str s =>
    have hs : "--plugin" ≠ s := fun h => hvalue (h ▸ rfl)
    simpa [flagsOf] using ⟨hflag, hs⟩
  | .null | .arr _ | .obj _ => simp [flagsOf]

/-- A table of options in which the flag `--plugin` is only for what
`plugins` names: no option is called `plugin`, and the text of no other
option is that flag. -/
structure PlainOptions (o : Options) : Prop where
  name : ∀ e ∈ o, e.1 ≠ "plugin"
  text : ∀ e ∈ o, e.1 ≠ "plugins" → e.2 ≠ .str "--plugin"

variable {o : Options}

theorem not_mem_pathFlags (h : PlainOptions o) : "--plugin" ∉ pathFlags o := by
  unfold pathFlags
  split
  · rename_i p hp
    have hne : "--plugin" ≠ p := fun heq =>
      h.text _ (Fields.mem_of_find? hp) (by simp) (heq ▸ rfl)
    simpa using hne
  · exact List.not_mem_nil

theorem not_mem_ownFlags (h : PlainOptions o) : "--plugin" ∉
    (o.filter fun e => !skipped.contains e.1).flatMap fun e => flagsOf e.1 e.2 := by
  intro hm
  obtain ⟨e, he, hin⟩ := List.mem_flatMap.mp hm
  obtain ⟨he, hskip⟩ := List.mem_filter.mp he
  have hplugins : e.1 ≠ "plugins" := by
    intro heq
    rw [heq] at hskip
    exact absurd hskip (by decide)
  exact not_mem_flagsOf (h.name e he) (h.text e he hplugins) hin

/-! ## §3 What the formatter gets and what the inference gets -/

theorem valuesOf_flags (h : PlainOptions o) : valuesOf "--plugin" (flags o) = plugins o := by
  rw [flags, List.append_assoc, valuesOf_append (not_mem_pathFlags h), valuesOf_pairs,
    valuesOf_eq_nil (not_mem_ownFlags h), List.append_nil]

/-- **The inference is told of the plugins of the command line, in their
order, unless `plugins` is a single text: then the command line has that
plugin, and the inference none.** -/
theorem inferred_plugins (h : PlainOptions o) :
    ((∀ s, o.find? "plugins" ≠ some (.str s)) →
      Config.pluginNames (some o) = valuesOf "--plugin" (flags o)) ∧
    ∀ s, o.find? "plugins" = some (.str s) →
      valuesOf "--plugin" (flags o) = [s] ∧ Config.pluginNames (some o) = [] := by
  rw [valuesOf_flags h, plugins, Config.pluginNames, Option.bind_some]
  constructor
  · intro hsingle
    cases hp : o.find? "plugins" with
    | none => rfl
    | some value =>
      cases value with
      | str s => exact absurd hp (hsingle s)
      | _ => rfl
  · intro s hs
    rw [hs]
    exact ⟨rfl, rfl⟩

/-- Lists of texts and other values, among options of all kinds. -/
def mixedOptions : Options :=
  [("embedded", .obj []), ("filepath", .str "/ws/a.ts"), ("parser", .str "babel"),
    ("plugins", .arr [.str "a", .null, .obj [], .str "--plugin", .num (.int 3), .str "b"]),
    ("semi", .bool false), ("tabWidth", .num (.int 4)), ("useTabs", .bool true)]

theorem plainOptions_mixed : PlainOptions mixedOptions := ⟨by decide, by simp [mixedOptions]⟩

theorem inferred_plugins_mixed : PlainOptions mixedOptions ∧
    Config.pluginNames (some mixedOptions) = valuesOf "--plugin" (flags mixedOptions) ∧
    valuesOf "--plugin" (flags mixedOptions) = ["a", "--plugin", "b"] :=
  ⟨plainOptions_mixed,
    (inferred_plugins plainOptions_mixed).1 (by simp [mixedOptions, Fields.find?]),
    by decide +kernel⟩

theorem inferred_plugins_single : ¬ ∀ o : Options,
    Config.pluginNames (some o) = valuesOf "--plugin" (flags o) := by
  intro h
  exact absurd (h [("plugins", .str "prettier-plugin-foo")]) (by decide +kernel)

end FormatHost.OptionFlags
