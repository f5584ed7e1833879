/-
FormatHost.Proofs.Text — reading numbers, blanks and separators.

What the small readers of texts accept, said without them:

* §1 `decimal?_eq_some_iff`: a number is one or more digits;
* §2 `trim_append`, `exists_trim`: blanks are dropped at both ends and
  nowhere else;
* §3 `splitOnce_append`: the cut is at the first separator.
-/
import FormatHost.Proofs.Json.RoundTrip
import FormatHost.Text
import Mathlib.Data.List.DropRight

namespace FormatHost

namespace Text

/-! ## §1 Numbers -/

theorem toNat_of_isDigit {c : Char} (h : c.isDigit = true) : 48 ≤ c.toNat ∧ c.toNat ≤ 57 :=
  Char.isDigit_iff_toNat.mp h

/-- Only ASCII digits have a value, and it is below ten. -/
theorem digit?_cases (c : Char) :
    c.isDigit = true ∧ digit? c = some (Json.digitValue c) ∧ Json.digitValue c < 10 ∨
      c.isDigit = false ∧ digit? c = none := by
  cases hc : c.isDigit with
  | true =>
    refine .inl ⟨rfl, Json.digit?_of_isDigit hc, ?_⟩
    have h := toNat_of_isDigit hc
    have hzero : '0'.toNat = 48 := rfl
    rw [Json.digitValue, hzero]
    omega
  | false =>
    refine .inr ⟨rfl, if_neg fun h => ?_⟩
    rw [Bool.eq_false_iff] at hc
    exact hc (by simpa [Char.isDigit, Char.le_def] using h)

theorem readDigits_eq_some_iff {cs : List Char} {acc n : Nat} :
    readDigits 10 digit? acc cs = some n ↔
      (∀ c ∈ cs, c.isDigit = true) ∧ Nat.ofDigitChars 10 cs acc = n := by
  induction cs generalizing acc with
  | nil => simp [readDigits, Nat.ofDigitChars]
  | cons c cs ih =>
    rw [readDigits, List.forall_mem_cons, Nat.ofDigitChars_cons]
    rcases digit?_cases c with ⟨hc, hd, hlt⟩ | ⟨hc, hd⟩
    · rw [hd, Option.bind_eq_bind, Option.bind_some, if_pos hlt, ih, Nat.mul_comm acc 10]
      simp only [hc, true_and, Json.digitValue]
    · rw [hd, hc]
      simp

theorem decimal?_eq_some_iff {cs : List Char} {n : Nat} :
    decimal? cs = some n ↔
      cs ≠ [] ∧ (∀ c ∈ cs, c.isDigit = true) ∧ Nat.ofDigitChars 10 cs 0 = n := by
  unfold decimal?
  cases cs with
  | nil => simp
  | cons c cs =>
    rw [List.isEmpty_cons, if_neg Bool.false_ne_true, readDigits_eq_some_iff]
    simp

/-! ## §2 Blanks -/

theorem dropRightWhile_eq (p : Char → Bool) (cs : List Char) :
    dropRightWhile p cs = cs.rdropWhile p := rfl

/-- Blanks around a text without blanks are dropped. -/
theorem trim_append {left middle right : List Char} (hl : ∀ c ∈ left, isBlank c = true)
    (hm : ∀ c ∈ middle, isBlank c = false) (hr : ∀ c ∈ right, isBlank c = true) :
    trim (left ++ middle ++ right) = middle := by
  have hdrop : ∀ {a b : List Char}, (∀ c ∈ a, isBlank c = false) → (∀ c ∈ b, isBlank c = true) →
      (a ++ b).dropWhile isBlank = if a = [] then [] else a ++ b := by
    intro a b ha hb
    cases a with
    | nil =>
      rw [List.nil_append, if_pos rfl]
      exact List.dropWhile_eq_nil_iff.mpr hb
    | cons c a =>
      rw [if_neg (List.cons_ne_nil c a), List.cons_append,
        List.dropWhile_cons_of_neg (by simp [ha c (List.mem_cons_self ..)])]
  unfold trim dropRightWhile
  rw [List.append_assoc, List.dropWhile_append_of_pos hl, hdrop hm hr]
  split
  · rename_i hnil
    rw [hnil]
    rfl
  · rename_i hne
    rw [List.reverse_append, List.dropWhile_append_of_pos (by simpa using hr)]
    have hback := hdrop (a := middle.reverse) (b := []) (by simpa using hm) (by simp)
    rw [List.append_nil, if_neg (by simpa using hne)] at hback
    rw [hback, List.reverse_reverse]

/-- What is dropped at the ends are blanks. -/
theorem exists_trim (cs : List Char) :
    ∃ left right, cs = left ++ trim cs ++ right ∧ (∀ c ∈ left, isBlank c = true) ∧
      ∀ c ∈ right, isBlank c = true := by
  refine ⟨cs.takeWhile isBlank, (cs.dropWhile isBlank).rtakeWhile isBlank, ?_, ?_, ?_⟩
  · rw [trim, dropRightWhile_eq, List.append_assoc, List.rdropWhile_append_rtakeWhile,
      List.takeWhile_append_dropWhile]
  · exact fun c hc => List.all_eq_true.mp List.all_takeWhile c hc
  · exact fun c hc => List.mem_rtakeWhile_imp hc

/-! ## §3 Cuts -/

/-- The cut at the first separator. -/
theorem splitOnce_append {sep : Char} {a : List Char} (h : sep ∉ a) (b : List Char) :
    splitOnce sep (a ++ sep :: b) = some (a, b) := by
  induction a with
  | nil => simp [splitOnce]
  | cons c a ih =>
    rw [List.mem_cons, not_or] at h
    rw [List.cons_append, splitOnce, if_neg (Ne.symm h.1), ih h.2]
    rfl

theorem not_mem_of_splitOnce {sep : Char} {cs : List Char} (h : splitOnce sep cs = none) :
    sep ∉ cs := by
  intro hm
  obtain ⟨a, b, rfl, ha⟩ := List.eq_append_cons_of_mem hm
  rw [splitOnce_append ha] at h
  cases h

end Text
end FormatHost
