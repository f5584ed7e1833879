/-
FormatHost.Proofs.Message — where a message names its file, and what is
written there.

The path goes in front of the first place of the first line, and nothing
else of the message changes. But it is put in as a template, in which a
dollar sign can begin a reference, so what is written is the path with its
references replaced. That is the path itself exactly when no dollar sign in
it begins one: every reference that is replaced takes a dollar sign away,
and nothing puts one in.

* §1 `Cut.First`: the leftmost place, and the longest one there;
* §2 templates, dollar sign by dollar sign;
* §3 `fill_append_places`: the references of a path end within the path;
* §4 `expand_eq_self_iff`: paths that stand for themselves;
* §5 `annotate_first_place`.
-/
import FormatHost.Message
import FormatHost.Proofs.Text

namespace FormatHost.Message

open Text

/-! ## §1 The first place -/

section Places

variable {c c' : Cut} {cs : List Char}

/-- The cut is at a place of the text: digits, a colon and digits. -/
structure Cut.In (c : Cut) (cs : List Char) : Prop where
  text : cs = c.before ++ c.place ++ c.after
  line_ne : c.line ≠ []
  line : ∀ x ∈ c.line, isDigit x = true
  column_ne : c.column ≠ []
  column : ∀ x ∈ c.column, isDigit x = true

/-- The place begins before all others of the text, and no other one that
begins there goes farther. -/
structure Cut.First (c : Cut) (cs : List Char) : Prop extends c.In cs where
  leftmost : ∀ c' : Cut, c'.In cs → c.before.length ≤ c'.before.length
  longest : ∀ c' : Cut, c'.In cs → c'.before.length = c.before.length →
    c'.place.length ≤ c.place.length

theorem isDigit_colon : isDigit ':' = false := by decide

/-- The digits before a colon are all the digits at the front. -/
theorem digits_append_colon {line : List Char} (h : ∀ x ∈ line, isDigit x = true)
    (rest : List Char) :
    (line ++ ':' :: rest).takeWhile isDigit = line ∧
      (line ++ ':' :: rest).dropWhile isDigit = ':' :: rest := by
  rw [List.takeWhile_append_of_pos h, List.dropWhile_append_of_pos h,
    List.takeWhile_cons_of_neg (by simp [isDigit_colon]),
    List.dropWhile_cons_of_neg (by simp [isDigit_colon]), List.append_nil]
  exact ⟨rfl, rfl⟩

/-- A place right at the front, as the text around it. -/
theorem Cut.In.front (h : c.In cs) (hb : c.before = []) :
    cs = c.line ++ ':' :: (c.column ++ c.after) := by
  have ht := h.text
  rw [hb, List.nil_append, Cut.place, List.append_assoc, List.cons_append] at ht
  exact ht

/-- A place that is found right at the front is the longest one there. -/
theorem placeAt?_eq_some (h : placeAt? cs = some c) :
    c.before = [] ∧ c.In cs ∧
      ∀ c' : Cut, c'.In cs → c'.before = [] → c'.place.length ≤ c.place.length := by
  have hcut : cs.takeWhile isDigit ++ cs.dropWhile isDigit = cs := List.takeWhile_append_dropWhile
  unfold placeAt? at h
  dsimp only at h
  split at h
  · cases h
  · rename_i hline
    split at h
    · rename_i rest hdrop
      split at h
      · cases h
      · rename_i hcolumn
        obtain rfl := Option.some.inj h
        have hrest : rest.takeWhile isDigit ++ rest.dropWhile isDigit = rest :=
          List.takeWhile_append_dropWhile
        refine ⟨rfl, ⟨?_, ?_, ?_, ?_, ?_⟩, fun c' hc' hb => ?_⟩
        · rw [List.nil_append, Cut.place, List.append_assoc, List.cons_append, hrest, ← hdrop, hcut]
        · simpa using hline
        · exact List.all_eq_true.mp List.all_takeWhile
        · simpa using hcolumn
        · exact List.all_eq_true.mp List.all_takeWhile
        · obtain ⟨hl, hd⟩ := digits_append_colon hc'.line (c'.column ++ c'.after)
          rw [← hc'.front hb] at hl hd
          rw [hd] at hdrop
          obtain ⟨-, rfl⟩ := List.cons.inj hdrop
          rw [Cut.place, Cut.place, hl, List.takeWhile_append_of_pos hc'.column]
          simp
    · cases h

/-- Where no place is found right at the front, there is none. -/
theorem placeAt?_eq_none (h : placeAt? cs = none) (hc : c.In cs) : c.before ≠ [] := by
  intro hb
  obtain ⟨hl, hd⟩ := digits_append_colon hc.line (c.column ++ c.after)
  rw [← hc.front hb] at hl hd
  unfold placeAt? at h
  simp only [hl, hd, List.isEmpty_eq_false_iff.mpr hc.line_ne, Bool.false_eq_true, if_false,
    List.takeWhile_append_of_pos hc.column] at h
  split at h
  · rename_i hcolumn
    exact hc.column_ne (List.append_eq_nil_iff.mp (List.isEmpty_iff.mp hcolumn)).1
  · cases h

/-- A place that is not right at the front is one of what follows the first
character. -/
theorem Cut.In.tail {x : Char} (h : c.In (x :: cs)) (hb : c.before ≠ []) :
    ∃ b, c.before = x :: b ∧ Cut.In { c with before := b } cs := by
  obtain ⟨y, b, hy⟩ := List.exists_cons_of_ne_nil hb
  have ht := h.text
  rw [hy, List.cons_append, List.cons_append] at ht
  obtain ⟨rfl, hrest⟩ := List.cons.inj ht
  exact ⟨b, hy, ⟨hrest, h.line_ne, h.line, h.column_ne, h.column⟩⟩

theorem firstPlace?_eq_none (h : firstPlace? cs = none) : ¬ c.In cs := by
  induction cs generalizing c with
  | nil =>
    intro hc
    have ht := hc.text
    simp [Cut.place] at ht
  | cons x cs ih =>
    unfold firstPlace? at h
    split at h
    · cases h
    · rename_i hp
      intro hc
      obtain ⟨b, -, hin⟩ := hc.tail (placeAt?_eq_none hp hc)
      exact ih (Option.map_eq_none_iff.mp h) hin

/-- **The place that is found is the first one.** -/
theorem first_of_firstPlace? (h : firstPlace? cs = some c) : c.First cs := by
  induction cs generalizing c with
  | nil => cases h
  | cons x cs ih =>
    unfold firstPlace? at h
    split at h
    · rename_i cut hp
      obtain rfl := Option.some.inj h
      obtain ⟨hb, hin, hlongest⟩ := placeAt?_eq_some hp
      refine ⟨hin, fun c' _ => ?_, fun c' hc' he => hlongest c' hc' ?_⟩
      · rw [hb]
        exact Nat.zero_le _
      · rw [hb] at he
        exact List.length_eq_zero_iff.mp he
    · rename_i hp
      obtain ⟨cut, hcut, rfl⟩ := Option.map_eq_some_iff.mp h
      have hf := ih hcut
      refine ⟨⟨congrArg (x :: ·) hf.text, hf.line_ne, hf.line, hf.column_ne, hf.column⟩,
        fun c' hc' => ?_, fun c' hc' he => ?_⟩
      · obtain ⟨b, hb, hin⟩ := hc'.tail (placeAt?_eq_none hp hc')
        rw [hb]
        exact Nat.succ_le_succ (hf.leftmost _ hin)
      · obtain ⟨b, hb, hin⟩ := hc'.tail (placeAt?_eq_none hp hc')
        have hlength : b.length = cut.before.length := by simpa [hb] using he
        exact hf.longest { c' with before := b } hin hlength

end Places

/-! ## §2 Templates -/

section Templates

/-- A text that begins a reference when a dollar sign stands before it: with
a second dollar sign, a name, or a name in braces. -/
def Refers : List Char → Prop
  | [] => False
  | x :: cs => x = '$' ∨ isNameChar x = true ∨ x = '\x7b' ∧ '\x7d' ∈ cs

/-- Some dollar sign of the text begins a reference. -/
def HasReference (cs : List Char) : Prop := ∃ a b, cs = a ++ '$' :: b ∧ Refers b

/-- What a template has after the path. -/
def places : List Char := ":$1:$2".toList

theorem template_eq (path : Path) : template path = path.text.toList ++ places := rfl

theorem head?_ne_of_not_refers {rest : List Char} (h : ¬ Refers rest) :
    rest.head? ≠ some '$' := by
  rintro he
  obtain ⟨r, rfl⟩ := List.head?_eq_some_iff.mp he
  exact h (.inl rfl)

theorem isNameChar_brace : isNameChar '\x7b' = false := by decide

theorem readName?_of_not_refers {rest : List Char} (h : ¬ Refers rest) :
    readName? rest = none := by
  unfold readName?
  split
  · rename_i r
    cases hs : splitOnce '\x7d' r with
    | none => rfl
    | some p =>
      refine absurd (.inr (.inr ⟨rfl, ?_⟩)) h
      rw [(splitOnce_eq_some hs).1]
      simp
  · cases rest with
    | nil => rfl
    | cons x r =>
      have hx : ¬ isNameChar x = true := fun hx => h (.inr (.inl hx))
      rw [List.takeWhile_cons_of_neg hx]

/-- What stands after the path begins no reference and ends none. -/
theorem refers_append_places {rest : List Char} : Refers (rest ++ places) ↔ Refers rest := by
  cases rest with
  | nil =>
    refine ⟨fun h => ?_, False.elim⟩
    rcases h with h | h | ⟨h, -⟩ <;> exact absurd h (by decide)
  | cons x r =>
    have hbrace : '\x7d' ∉ places := by decide
    simp only [List.cons_append, Refers, List.mem_append, hbrace, or_false]

/-- The name characters at the end of a path are followed by a colon. -/
theorem nameChars_append_places (cs : List Char) :
    (cs ++ places).takeWhile isNameChar = cs.takeWhile isNameChar ∧
      (cs ++ places).dropWhile isNameChar = cs.dropWhile isNameChar ++ places := by
  induction cs with
  | nil => decide
  | cons x cs ih =>
    rw [List.cons_append]
    cases hx : isNameChar x with
    | true =>
      rw [List.takeWhile_cons_of_pos hx, List.dropWhile_cons_of_pos hx, ih.1, ih.2,
        List.takeWhile_cons_of_pos hx, List.dropWhile_cons_of_pos hx]
      exact ⟨rfl, rfl⟩
    | false =>
      have hx' : ¬ isNameChar x = true := by simp [hx]
      rw [List.takeWhile_cons_of_neg hx', List.dropWhile_cons_of_neg hx',
        List.takeWhile_cons_of_neg hx', List.dropWhile_cons_of_neg hx']
      exact ⟨rfl, rfl⟩

theorem readName?_of_isNameChar {x : Char} (hx : isNameChar x = true) (cs : List Char) :
    readName? (x :: cs) = some (x :: cs.takeWhile isNameChar, cs.dropWhile isNameChar) := by
  unfold readName?
  split
  · rename_i he
    obtain ⟨rfl, -⟩ := List.cons.inj he
    rw [isNameChar_brace] at hx
    cases hx
  · rw [List.takeWhile_cons_of_pos hx, List.dropWhile_cons_of_pos hx]

/-- A name that is begun in the path is read in the path. -/
theorem exists_readName? {rest : List Char} (h : Refers rest) (hd : rest.head? ≠ some '$') :
    ∃ name taken after, rest = taken ++ after ∧ readName? rest = some (name, after) ∧
      readName? (rest ++ places) = some (name, after ++ places) := by
  cases rest with
  | nil => exact h.elim
  | cons x r =>
    rcases h with rfl | hx | ⟨rfl, hr⟩
    · exact absurd rfl hd
    · refine ⟨x :: r.takeWhile isNameChar, x :: r.takeWhile isNameChar, r.dropWhile isNameChar,
        by simp, readName?_of_isNameChar hx r, ?_⟩
      obtain ⟨htake, hdrop⟩ := nameChars_append_places r
      rw [List.cons_append, readName?_of_isNameChar hx, htake, hdrop]
    · obtain ⟨name, after, rfl, hname⟩ := List.eq_append_cons_of_mem hr
      refine ⟨name, '\x7b' :: (name ++ ['\x7d']), after, by simp, splitOnce_append hname after, ?_⟩
      rw [List.cons_append, List.append_assoc]
      exact splitOnce_append hname (after ++ places)

end Templates

/-! ## §3 Filling in -/

section Filling

variable (c : Cut)

theorem fill_nil (n : Nat) : c.fill n [] = [] := by cases n <;> rfl

theorem fill_plain {x : Char} (hx : x ≠ '$') (n : Nat) (rest : List Char) :
    c.fill (n + 1) (x :: rest) = x :: c.fill n rest := by
  rw [Cut.fill] <;> simp [hx]

/-- A dollar sign that no second one follows stands for a name, or for
itself. -/
theorem fill_dollar {rest : List Char} (h : rest.head? ≠ some '$') (n : Nat) :
    c.fill (n + 1) ('$' :: rest) = match readName? rest with
      | some (name, after) => c.group name ++ c.fill n after
      | none => '$' :: c.fill n rest := by
  have hrest : ∀ r, rest ≠ '$' :: r := by
    rintro r rfl
    exact h rfl
  cases hname : readName? rest <;> simp [Cut.fill, hname]

/-- A dollar sign that begins no reference is kept. -/
theorem fill_of_not_refers {rest : List Char} (h : ¬ Refers rest) (n : Nat) :
    c.fill (n + 1) ('$' :: rest) = '$' :: c.fill n rest := by
  rw [fill_dollar c (head?_ne_of_not_refers h), readName?_of_not_refers h]

/-- A place has no dollar sign in it. -/
theorem Cut.In.dollar_not_mem {c : Cut} {cs : List Char} (h : c.In cs) : '$' ∉ c.place := by
  have hdigit : isDigit '$' = false := by decide
  intro hm
  rcases List.mem_append.mp hm with hm | hm
  · exact absurd (h.line _ hm) (by simp [hdigit])
  · rcases List.mem_cons.mp hm with hm | hm
    · exact absurd hm (by decide)
    · exact absurd (h.column _ hm) (by simp [hdigit])

variable {c}

theorem dollar_not_mem_group (hc : '$' ∉ c.place) (name : List Char) : '$' ∉ c.group name := by
  have hc' := hc
  rw [Cut.place, List.mem_append, List.mem_cons, not_or, not_or] at hc'
  unfold Cut.group
  split
  · exact hc
  · exact hc'.1
  · exact hc'.2.2
  · exact List.not_mem_nil

/-- A reference is replaced by a text that has no more dollar signs than
were read after the first one. -/
theorem fill_of_refers (hc : '$' ∉ c.place) {rest : List Char} (h : Refers rest) :
    ∃ put taken after, rest = taken ++ after ∧ put.count '$' ≤ taken.count '$' ∧
      (∀ n, c.fill (n + 1) ('$' :: rest) = put ++ c.fill n after) ∧
      ∀ n, c.fill (n + 1) ('$' :: (rest ++ places)) = put ++ c.fill n (after ++ places) := by
  by_cases hd : rest.head? = some '$'
  · obtain ⟨r, rfl⟩ := List.head?_eq_some_iff.mp hd
    exact ⟨['$'], ['$'], r, rfl, Nat.le_refl _, fun _ => rfl, fun _ => rfl⟩
  · obtain ⟨name, taken, after, he, hname, hplaces⟩ := exists_readName? h hd
    have hd' : (rest ++ places).head? ≠ some '$' := by
      cases rest with
      | nil => exact h.elim
      | cons x r => exact hd
    refine ⟨c.group name, taken, after, he, ?_, fun n => ?_, fun n => ?_⟩
    · rw [List.count_eq_zero_of_not_mem (dollar_not_mem_group hc name)]
      exact Nat.zero_le _
    · rw [fill_dollar c hd, hname]
    · rw [fill_dollar c hd', hplaces]

/-- What stands after the path becomes the place. -/
theorem fill_places (c : Cut) (n : Nat) : c.fill (n + 7) places = ':' :: c.place := by
  have hplaces : places = [':', '$', '1', ':', '$', '2'] := rfl
  have hone : c.group ['1'] = c.line := rfl
  have htwo : c.group ['2'] = c.column := rfl
  rw [hplaces, fill_plain c (by decide), fill_dollar c (by decide)]
  have hread : readName? ['1', ':', '$', '2'] = some (['1'], [':', '$', '2']) := by decide
  have hread' : readName? ['2'] = some (['2'], []) := by decide
  rw [hread]
  dsimp only
  rw [hone, fill_plain c (by decide), fill_dollar c (by decide), hread']
  dsimp only
  rw [htwo, fill_nil, List.append_nil, Cut.place]

/-- **The references of a path end within the path**: its text is filled in
on its own, and the place follows. -/
theorem fill_append_places (hc : '$' ∉ c.place) {n m : Nat} {cs : List Char} (hn : cs.length < n)
    (hm : cs.length + 6 < m) : c.fill m (cs ++ places) = c.fill n cs ++ ':' :: c.place := by
  induction n generalizing m cs with
  | zero => exact absurd hn (Nat.not_lt_zero _)
  | succ n ih =>
    cases cs with
    | nil =>
      obtain ⟨k, rfl⟩ : ∃ k, m = k + 7 := ⟨m - 7, by simp at hm; omega⟩
      rw [List.nil_append, fill_places, fill_nil, List.nil_append]
    | cons x rest =>
      rw [List.length_cons] at hn hm
      obtain ⟨m, rfl⟩ : ∃ k, m = k + 1 := ⟨m - 1, by omega⟩
      rw [List.cons_append]
      by_cases hx : x = '$'
      · subst hx
        by_cases hr : Refers rest
        · obtain ⟨put, taken, after, rfl, -, hfill, hplaces⟩ := fill_of_refers hc hr
          rw [List.length_append] at hn hm
          rw [hfill, hplaces, ih (by omega) (by omega), List.append_assoc]
        · have hr' : ¬ Refers (rest ++ places) := fun h => hr (refers_append_places.mp h)
          rw [fill_of_not_refers c hr, fill_of_not_refers c hr', ih (by omega) (by omega),
            List.cons_append]
      · rw [fill_plain c hx, fill_plain c hx, ih (by omega) (by omega), List.cons_append]

/-! ## §4 Texts that stand for themselves -/

/-- A text with its references replaced. -/
def Cut.expand (c : Cut) (cs : List Char) : List Char := c.fill (cs.length + 1) cs

theorem fill_eq_self (c : Cut) {cs : List Char} (h : ¬ HasReference cs) (n : Nat) :
    c.fill n cs = cs := by
  induction n generalizing cs with
  | zero => rfl
  | succ n ih =>
    cases cs with
    | nil => rfl
    | cons x rest =>
      have hrest : ¬ HasReference rest := by
        rintro ⟨a, b, rfl, hb⟩
        exact h ⟨x :: a, b, rfl, hb⟩
      by_cases hx : x = '$'
      · subst hx
        rw [fill_of_not_refers c fun hr => h ⟨[], rest, rfl, hr⟩, ih hrest]
      · rw [fill_plain c hx, ih hrest]

theorem count_fill_le (hc : '$' ∉ c.place) (n : Nat) (cs : List Char) :
    (c.fill n cs).count '$' ≤ cs.count '$' := by
  induction n generalizing cs with
  | zero => exact Nat.le_refl _
  | succ n ih =>
    cases cs with
    | nil => exact Nat.le_refl _
    | cons x rest =>
      by_cases hx : x = '$'
      · subst hx
        by_cases hr : Refers rest
        · obtain ⟨put, taken, after, rfl, hle, hfill, -⟩ := fill_of_refers hc hr
          have hafter := ih after
          rw [hfill, List.count_append, List.count_cons_self, List.count_append]
          omega
        · rw [fill_of_not_refers c hr, List.count_cons_self, List.count_cons_self]
          exact Nat.succ_le_succ (ih rest)
      · rw [fill_plain c hx, List.count_cons_of_ne hx, List.count_cons_of_ne hx]
        exact ih rest

/-- Replacing a reference takes a dollar sign away. -/
theorem count_fill_of_refers (hc : '$' ∉ c.place) (n : Nat) {rest : List Char}
    (h : Refers rest) : (c.fill (n + 1) ('$' :: rest)).count '$' < ('$' :: rest).count '$' := by
  obtain ⟨put, taken, after, rfl, hle, hfill, -⟩ := fill_of_refers hc h
  have hafter := count_fill_le hc n after
  rw [hfill, List.count_append, List.count_cons_self, List.count_append]
  omega

theorem count_fill_lt (hc : '$' ∉ c.place) {n : Nat} {cs : List Char} (h : HasReference cs)
    (hn : cs.length < n) : (c.fill n cs).count '$' < cs.count '$' := by
  induction n generalizing cs with
  | zero => exact absurd hn (Nat.not_lt_zero _)
  | succ n ih =>
    obtain ⟨a, b, rfl, hb⟩ := h
    cases a with
    | nil => exact count_fill_of_refers hc n hb
    | cons x a =>
      have hlater := ih ⟨a, b, rfl, hb⟩ (by simpa using hn)
      rw [List.cons_append]
      by_cases hx : x = '$'
      · subst hx
        by_cases hr : Refers (a ++ '$' :: b)
        · exact count_fill_of_refers hc n hr
        · rw [fill_of_not_refers c hr, List.count_cons_self, List.count_cons_self]
          exact Nat.succ_lt_succ hlater
      · rw [fill_plain c hx, List.count_cons_of_ne hx, List.count_cons_of_ne hx]
        exact hlater

/-- **A text stands for itself exactly when no dollar sign in it begins a
reference.** -/
theorem expand_eq_self_iff (hc : '$' ∉ c.place) {cs : List Char} :
    c.expand cs = cs ↔ ¬ HasReference cs := by
  constructor
  · intro he h
    have hlt := count_fill_lt hc h (Nat.lt_succ_self cs.length)
    rw [Cut.expand] at he
    rw [he] at hlt
    exact Nat.lt_irrefl _ hlt
  · exact fun h => fill_eq_self c h _

end Filling

/-! ## §5 Messages -/

/-- The first line of a message, and the rest from its line feed on. -/
def cutLine (message : String) : List Char × List Char :=
  (message.toList.takeWhile (· != '\n'), message.toList.dropWhile (· != '\n'))

/-- Only the first line changes. -/
theorem toList_annotate (message : String) (path : Path) :
    (annotate message path).toList =
      annotateLine path (cutLine message).1 ++ (cutLine message).2 := by
  have hkeep : ∀ {cs : List Char}, '\n' ∉ cs → ∀ c ∈ cs, (c != '\n') = true := by
    intro cs h c hc
    simpa using ne_of_mem_of_not_mem hc h
  unfold annotate cutLine
  split
  · rename_i first rest hcut
    obtain ⟨hm, hfirst⟩ := splitOnce_eq_some hcut
    rw [String.toList_ofList, hm, List.takeWhile_append_of_pos (hkeep hfirst),
      List.dropWhile_append_of_pos (hkeep hfirst), List.takeWhile_cons_of_neg (by simp),
      List.dropWhile_cons_of_neg (by simp), List.append_nil]
  · rename_i hcut
    have hn := hkeep (not_mem_of_splitOnce hcut)
    rw [String.toList_ofList, List.takeWhile_eq_self_iff.mpr hn, List.dropWhile_eq_nil_iff.mpr hn,
      List.append_nil]

/-- The text that a path is given in at a place. -/
theorem annotateLine_of_first {line : List Char} {c : Cut} (h : firstPlace? line = some c)
    (path : Path) :
    annotateLine path line =
      c.before ++ (c.expand path.text.toList ++ ':' :: c.place) ++ c.after := by
  have hc := (first_of_firstPlace? h).dollar_not_mem
  have hlength : (template path).length = path.text.toList.length + 6 := by
    rw [template_eq, List.length_append]
    rfl
  unfold annotateLine
  rw [h]
  dsimp only
  rw [hlength, template_eq, Cut.expand,
    fill_append_places hc (Nat.lt_succ_self path.text.toList.length) (Nat.lt_succ_self _)]

/-- **Where a path is put into a message, and what is written there.** When
the first line has a place in it, the first one has a text and a colon put
in front of it; when it has none, the message stays as it is. The text is
the path with its references replaced. It is the path itself exactly when no
dollar sign in the path begins a reference. All else is kept, whatever is in
the line and whatever lines follow. -/
theorem annotate_first_place (message : String) (path : Path) :
    let (line, rest) := cutLine message
    (∃ c : Cut, c.First line ∧
      (annotate message path).toList =
        c.before ++ (c.expand path.text.toList ++ ':' :: c.place) ++ c.after ++ rest ∧
      ((annotate message path).toList =
          c.before ++ (path.text.toList ++ ':' :: c.place) ++ c.after ++ rest ↔
        ¬ HasReference path.text.toList)) ∨
    (∀ c : Cut, ¬ c.In line) ∧ annotate message path = message := by
  have htext := toList_annotate message path
  dsimp only [cutLine] at htext ⊢
  cases hplace : firstPlace? (message.toList.takeWhile (· != '\n')) with
  | some c =>
    have hfirst := first_of_firstPlace? hplace
    rw [annotateLine_of_first hplace] at htext
    refine .inl ⟨c, hfirst, htext, ?_⟩
    rw [htext, ← expand_eq_self_iff hfirst.dollar_not_mem]
    simp only [List.append_assoc, List.append_cancel_left_eq, List.append_cancel_right_eq]
  | none =>
    refine .inr ⟨fun c => firstPlace?_eq_none hplace, String.toList_inj.mp ?_⟩
    rw [htext, annotateLine, hplace]
    exact List.takeWhile_append_dropWhile

/-- A path is not always put in as it is: after `$lib` nothing is left of
the folder's name. -/
theorem annotate_loses_name :
    ¬ ∀ (message : String) (path : Path) (c : Cut), c.First (cutLine message).1 →
      (annotate message path).toList =
        c.before ++ (path.text.toList ++ ':' :: c.place) ++ c.after ++ (cutLine message).2 := by
  intro h
  let message := "Unexpected token (3:14)"
  let path : Path := ⟨"/ws/src/$lib/a.ts"⟩
  have hplace : firstPlace? (cutLine message).1 =
      some ⟨"Unexpected token (".toList, ['3'], ['1', '4'], [')']⟩ := by decide +kernel
  have hlost : (annotate message path).toList = "Unexpected token (/ws/src//a.ts:3:14)".toList := by
    decide +kernel
  have hc := h message path _ (first_of_firstPlace? hplace)
  rw [hlost] at hc
  exact absurd hc (by decide +kernel)

end FormatHost.Message
