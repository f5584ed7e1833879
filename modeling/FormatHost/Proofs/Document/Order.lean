/-
FormatHost.Proofs.Document.Order — places keep their order on the way from
one unit to another.

A place is named in three units: line and column, bytes, and UTF-16 units
from the start. Each conversion stops at an end of its own, of the line or
of the text, and rounds inside a character; none of them moves a later place
before an earlier one, wherever the two lie.

* §1 `offsetAt_mono`: from positions to offsets;
* §2 `utf16Offset_mono`: from offsets to UTF-16 units;
* §3 `utf16Offset_eq`: UTF-16 units of a place, by its line.
-/
import FormatHost.Proofs.Document.Places
import FormatHost.Proofs.Edit.Minimality

namespace FormatHost

open Text

/-! ## §1 Positions -/

namespace Document

/-- In a line, a larger column is no nearer to the line's start. -/
theorem columnOffset_mono {i j : Nat} (h : i ≤ j) (cs : List Char) :
    columnOffset i cs ≤ columnOffset j cs := by
  induction cs generalizing i j with
  | nil => cases i <;> exact Nat.zero_le _
  | cons c cs ih =>
    cases i with
    | zero => exact Nat.zero_le _
    | succ i =>
      obtain ⟨j, rfl⟩ := Nat.exists_eq_succ_of_ne_zero (Nat.ne_of_gt (Nat.zero_lt_of_lt h))
      rw [columnOffset, columnOffset]
      split
      · exact Nat.le_refl 0
      · exact Nat.add_le_add_left (ih (Nat.sub_le_sub_right h _)) _

theorem offsetIn_mono_column {i j : Nat} (h : i ≤ j) (n : Nat) (cs : List Char) :
    offsetIn i n cs ≤ offsetIn j n cs := by
  induction cs generalizing n with
  | nil =>
    cases n with
    | zero => exact columnOffset_mono h []
    | succ n => exact Nat.le_refl 0
  | cons c cs ih =>
    cases n with
    | zero => exact columnOffset_mono h (c :: cs)
    | succ n =>
      rw [offsetIn, offsetIn]
      split <;> exact Nat.add_le_add_left (ih _) _

/-- Whatever its column, a place is not behind the places of later lines. -/
theorem offsetIn_le_of_lt (i j : Nat) {n k : Nat} (h : n < k) (cs : List Char) :
    offsetIn i n cs ≤ offsetIn j k cs := by
  induction cs generalizing i n k with
  | nil =>
    cases n with
    | zero => cases i <;> exact Nat.zero_le _
    | succ n => exact Nat.zero_le _
  | cons c cs ih =>
    obtain ⟨k, rfl⟩ := Nat.exists_eq_succ_of_ne_zero (Nat.ne_of_gt (Nat.zero_lt_of_lt h))
    cases n with
    | succ n =>
      rw [offsetIn, offsetIn]
      split
      · exact Nat.add_le_add_left (ih i (Nat.lt_of_succ_lt_succ h)) _
      · exact Nat.add_le_add_left (ih i h) _
    | zero =>
      rw [offsetIn, offsetIn]
      cases i with
      | zero => exact Nat.zero_le _
      | succ i =>
        rw [columnOffset]
        split
        · exact Nat.zero_le _
        · -- the rest of the line is the first line of the rest
          have hr := ih (i + 1 - units c) h
          rw [offsetIn] at hr
          exact Nat.add_le_add_left hr _

/-- **A later position leads to no earlier offset.** -/
theorem offsetAt_mono (d : Document) {p q : Position} (h : p ≤ q) :
    d.offsetAt p ≤ d.offsetAt q := by
  obtain ⟨line, i⟩ := p
  obtain ⟨line', j⟩ := q
  rcases h with h | ⟨rfl, h⟩
  · exact offsetIn_le_of_lt i j h d.text.toList
  · exact offsetIn_mono_column h _ d.text.toList

end Document

/-! ## §2 Offsets -/

namespace Text

theorem takeBytes_front (n : Nat) (cs : List Char) : takeBytes n cs <+: cs :=
  ⟨dropBytes n cs, takeBytes_append_dropBytes n cs⟩

theorem takeBytes_mono {i j : Nat} (h : i ≤ j) (cs : List Char) :
    takeBytes i cs <+: takeBytes j cs := by
  have hi := byteSize_takeBytes_le i cs
  have hj : byteSize (takeBytes i cs) ≤ byteSize (takeBytes j cs) := by
    conv_rhs => rw [← takeBytes_append_dropBytes i cs]
    exact byteSize_le_takeBytes (Nat.le_trans hi h)
  exact prefix_of_byteSize_le (takeBytes_front i cs) (takeBytes_front j cs) hj

theorem unitSize_le_of_prefix {a b : List Char} (h : a <+: b) : unitSize a ≤ unitSize b := by
  obtain ⟨rest, rfl⟩ := h
  rw [unitSize_append]
  exact Nat.le_add_right ..

/-- The character that is left first did not fit. -/
theorem lt_of_dropBytes_eq_cons {n : Nat} {cs rest : List Char} {c : Char}
    (h : dropBytes n cs = c :: rest) : n < byteSize (takeBytes n cs) + c.utf8Size := by
  induction cs generalizing n with
  | nil => cases h
  | cons d cs ih =>
    rw [dropBytes] at h
    rw [takeBytes]
    split at h
    · rename_i hfit
      have hr := ih h
      rw [if_pos hfit, byteSize]
      omega
    · rename_i hfit
      obtain ⟨rfl, -⟩ := List.cons.inj h
      rw [if_neg hfit, byteSize]
      omega

end Text

namespace Document

/-- **A later offset has no fewer UTF-16 units before it.** -/
theorem utf16Offset_mono (d : Document) {i j : Nat} (h : i ≤ j) :
    d.utf16Offset i ≤ d.utf16Offset j :=
  unitSize_le_of_prefix (takeBytes_mono h d.text.toList)

theorem utf16Offset_le (d : Document) (i : Nat) :
    d.utf16Offset i ≤ unitSize d.text.toList :=
  unitSize_le_of_prefix (takeBytes_front i d.text.toList)

end Document

/-! ## §3 Lines -/

namespace Text

/-- Where a text is cut, the line of the cut consists of the last line of
the front and of what follows up to a line feed. -/
theorem exists_lineAt_cut (a b : List Char) :
    ∃ before tail after, LineAt (a ++ b) (a.count '\n') before (lastLine a ++ tail) after ∧
      a = before ++ lastLine a ∧ b = tail ++ after := by
  have hb : b = b.takeWhile (· != '\n') ++ b.dropWhile (· != '\n') :=
    List.takeWhile_append_dropWhile.symm
  have htail : '\n' ∉ b.takeWhile (· != '\n') := fun hm => by
    simpa using List.all_eq_true.mp List.all_takeWhile _ hm
  have hends : b.dropWhile (· != '\n') = [] ∨ (b.dropWhile (· != '\n')).head? = some '\n' := by
    cases hd : b.dropWhile (· != '\n') with
    | nil => exact .inl rfl
    | cons c rest =>
      have hn := List.head?_dropWhile_not (· != '\n') b
      rw [hd] at hn
      exact .inr (by simpa using hn)
  generalize b.takeWhile (· != '\n') = tail at hb htail
  generalize b.dropWhile (· != '\n') = after at hb hends
  subst hb
  rcases lastLine_cases a with ha | ⟨x, y, rfl, hy⟩
  · rw [lastLine_of_not_mem ha]
    refine ⟨[], tail, after, ⟨by simp, ?_, .inl rfl, by simp [ha, htail], hends⟩, rfl, rfl⟩
    exact (List.count_eq_zero_of_not_mem ha).symm
  · rw [lastLine_append_newline x hy]
    refine ⟨x ++ ['\n'], tail, after, ⟨by simp, ?_, .inr (by simp), by simp [hy, htail], hends⟩,
      by simp, rfl⟩
    simp [List.count_append, List.count_eq_zero_of_not_mem hy]

end Text

namespace Document

/-- **The UTF-16 units before an offset** are those before its line and its
column. Its line is the one that begins no later and, unless it is the last
one, ends no earlier. -/
theorem utf16Offset_eq (d : Document) (i : Nat) :
    ∃ before line after, LineAt d.text.toList (d.positionAt i).line before line after ∧
      byteSize before ≤ i ∧ (i ≤ byteSize (before ++ line) ∨ after = []) ∧
      d.utf16Offset i = unitSize before + (d.positionAt i).character := by
  obtain ⟨before, tail, after, hl, ha, hb⟩ :=
    exists_lineAt_cut (takeBytes i d.text.toList) (dropBytes i d.text.toList)
  rw [takeBytes_append_dropBytes] at hl
  have hfront := byteSize_takeBytes_le i d.text.toList
  have hsize := congrArg byteSize ha
  rw [byteSize_append] at hsize
  refine ⟨before, lastLine (takeBytes i d.text.toList) ++ tail, after, hl, by omega, ?_, ?_⟩
  · cases hr : dropBytes i d.text.toList with
    | nil =>
      rw [hr] at hb
      exact .inr (List.append_eq_nil_iff.mp hb.symm).2
    | cons c rest =>
      left
      have hlt := lt_of_dropBytes_eq_cons hr
      rw [hr] at hb
      rw [byteSize_append, byteSize_append]
      cases tail with
      | cons e tail =>
        obtain ⟨rfl, -⟩ := List.cons.inj hb
        rw [byteSize]
        omega
      | nil =>
        -- what does not fit is the line feed, of one byte
        have hc : c = '\n' := by
          have he := hl.ends
          rw [List.nil_append] at hb
          rw [← hb] at he
          simpa using he
        have hone : c.utf8Size = 1 := by rw [hc]; decide
        rw [byteSize]
        omega
  · rw [utf16Offset, Document.before, positionAt, Document.before, ← unitSize_append, ← ha]

end Document
end FormatHost
