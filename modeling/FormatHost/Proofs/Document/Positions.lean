/-
FormatHost.Proofs.Document.Positions — a boundary between two characters,
as a byte offset and as a position.

A byte offset stands between two characters when it is the size of what
lies before it. `positionAt` counts lines and UTF-16 units up to it, and
`offsetAt` walks the text by lines and units and counts bytes. At a
boundary the two are inverse, whatever the characters before it are and
whatever follows; the order of offsets is the order of positions.

* §1 boundaries, and the text before and after one;
* §2 the last line of a text;
* §3 `offsetAt_positionAt`: from a boundary to its position and back;
* §4 `positionAt_le`: later boundaries have later positions.
-/
import FormatHost.Document

namespace FormatHost

/-! ## §1 Boundaries -/

namespace Text

/-- A byte offset between two characters of a text, or at one of its ends. -/
def IsBoundary (n : Nat) (cs : List Char) : Prop := ∃ a b, cs = a ++ b ∧ byteSize a = n

theorem takeBytes_append (a b : List Char) : takeBytes (byteSize a) (a ++ b) = a := by
  induction a with
  | nil =>
    cases b with
    | nil => rfl
    | cons c cs =>
      have hc := c.utf8Size_pos
      simp only [byteSize, List.nil_append, takeBytes]
      rw [if_neg (by omega)]
  | cons c cs ih =>
    simp only [byteSize, List.cons_append, takeBytes]
    rw [if_pos (by omega), Nat.add_sub_cancel_left, ih]

theorem dropBytes_append (a b : List Char) : dropBytes (byteSize a) (a ++ b) = b := by
  have h := takeBytes_append_dropBytes (byteSize a) (a ++ b)
  rw [takeBytes_append] at h
  exact List.append_cancel_left h

theorem units_pos (c : Char) : 0 < units c := by
  unfold units
  split <;> omega

/-- A character has no more UTF-16 units than bytes. -/
theorem units_le_utf8Size (c : Char) : units c ≤ c.utf8Size := by
  have hc := c.utf8Size_pos
  unfold units
  split
  · exact hc
  · rename_i h
    have h1 : c.utf8Size ≠ 1 := by
      intro he
      have hle := UInt32.le_iff_toNat_le.mp (Char.utf8Size_eq_one_iff.mp he)
      exact h (Nat.lt_of_le_of_lt hle (by decide))
    omega

theorem unitSize_le_byteSize (cs : List Char) : unitSize cs ≤ byteSize cs := by
  induction cs with
  | nil => exact Nat.le_refl 0
  | cons c cs ih => exact Nat.add_le_add (units_le_utf8Size c) ih

theorem count_le_byteSize (c : Char) (cs : List Char) : cs.count c ≤ byteSize cs := by
  induction cs with
  | nil => simp [byteSize]
  | cons d cs ih =>
    have hd := d.utf8Size_pos
    simp only [List.count_cons, byteSize]
    split <;> omega

/-! ## §2 The last line -/

/-- A text of one line is its last line. -/
theorem lastLine_of_not_mem {cs : List Char} (h : '\n' ∉ cs) : lastLine cs = cs := by
  have hall : ∀ c ∈ cs.reverse, (c != '\n') = true := by
    intro c hc
    rw [List.mem_reverse] at hc
    simpa using ne_of_mem_of_not_mem hc h
  rw [lastLine, ← List.append_nil cs.reverse, List.takeWhile_append_of_pos hall,
    List.takeWhile_nil, List.append_nil, List.reverse_reverse]

/-- The last line begins after the last line feed. -/
theorem lastLine_append_newline (a : List Char) {b : List Char} (h : '\n' ∉ b) :
    lastLine (a ++ '\n' :: b) = b := by
  have hall : ∀ c ∈ b.reverse, (c != '\n') = true := by
    intro c hc
    rw [List.mem_reverse] at hc
    simpa using ne_of_mem_of_not_mem hc h
  unfold lastLine
  rw [List.reverse_append, List.reverse_cons, List.append_assoc,
    List.takeWhile_append_of_pos hall]
  simp

/-- A text is one line, or a line feed stands before its last line. -/
theorem lastLine_cases (cs : List Char) :
    '\n' ∉ cs ∨ ∃ a b, cs = a ++ '\n' :: b ∧ '\n' ∉ b := by
  by_cases h : '\n' ∈ cs
  · obtain ⟨b, a, he, hb⟩ := List.eq_append_cons_of_mem (List.mem_reverse.mpr h)
    refine .inr ⟨a.reverse, b.reverse, ?_, by simpa using hb⟩
    simpa using congrArg List.reverse he
  · exact .inl h

/-- Text without line feeds makes the last line longer. -/
theorem lastLine_append (a : List Char) {b : List Char} (h : '\n' ∉ b) :
    lastLine (a ++ b) = lastLine a ++ b := by
  rcases lastLine_cases a with ha | ⟨x, y, rfl, hy⟩
  · rw [lastLine_of_not_mem ha, lastLine_of_not_mem (by simp [ha, h])]
  · rw [List.append_assoc, List.cons_append, lastLine_append_newline x (by simp [hy, h]),
      lastLine_append_newline x hy]

theorem byteSize_lastLine_le (cs : List Char) : byteSize (lastLine cs) ≤ byteSize cs := by
  rcases lastLine_cases cs with h | ⟨a, b, rfl, hb⟩
  · exact Nat.le_of_eq (congrArg byteSize (lastLine_of_not_mem h))
  · rw [lastLine_append_newline a hb, byteSize_append, byteSize]
    omega

end Text

/-! ## §3 There and back -/

namespace Document

open Text

/-- In a line, the column of a place leads to the bytes before it. -/
theorem columnOffset_append {a : List Char} (h : '\n' ∉ a) (b : List Char) :
    columnOffset (unitSize a) (a ++ b) = byteSize a := by
  induction a with
  | nil => cases b <;> rfl
  | cons c cs ih =>
    rw [List.mem_cons, not_or] at h
    obtain ⟨k, hk⟩ : ∃ k, unitSize (c :: cs) = k + 1 :=
      Nat.exists_eq_succ_of_ne_zero (by have := units_pos c; simp only [unitSize]; omega)
    have hs : k + 1 - units c = unitSize cs := by
      rw [← hk, unitSize, Nat.add_sub_cancel_left]
    rw [hk, List.cons_append, columnOffset, if_neg (Ne.symm h.1), hs, ih h.2, byteSize]

/-- A line is found behind as many line feeds as its number says. -/
theorem offsetIn_line (character : Nat) (a cs : List Char) :
    offsetIn character (a.count '\n' + 1) (a ++ '\n' :: cs) =
      byteSize (a ++ ['\n']) + columnOffset character cs := by
  induction a with
  | nil => simp [offsetIn, byteSize]
  | cons c a ih =>
    rw [List.cons_append, List.cons_append, byteSize, offsetIn]
    by_cases hc : c = '\n'
    · rw [if_pos hc, hc, List.count_cons_self, ih, Nat.add_assoc]
    · rw [if_neg hc, List.count_cons_of_ne hc, ih, Nat.add_assoc]

theorem before_eq {d : Document} {a b : List Char} (h : d.text.toList = a ++ b) :
    d.before (byteSize a) = a := by
  rw [before, h, takeBytes_append]

theorem positionAt_eq {d : Document} {a b : List Char} (h : d.text.toList = a ++ b) :
    d.positionAt (byteSize a) = ⟨a.count '\n', unitSize (lastLine a)⟩ := by
  rw [positionAt, before_eq h]

/-- **At a boundary between two characters, the position of an offset leads
back to the offset.** -/
theorem offsetAt_positionAt {d : Document} {a b : List Char} (h : d.text.toList = a ++ b) :
    d.offsetAt (d.positionAt (byteSize a)) = byteSize a := by
  rw [positionAt_eq h, offsetAt, h]
  rcases lastLine_cases a with ha | ⟨x, y, rfl, hy⟩
  · rw [lastLine_of_not_mem ha, List.count_eq_zero_of_not_mem ha, offsetIn]
    exact columnOffset_append ha b
  · have hc : (x ++ '\n' :: y).count '\n' = x.count '\n' + 1 := by
      rw [List.count_append, List.count_cons_self, List.count_eq_zero_of_not_mem hy]
    rw [lastLine_append_newline x hy, hc, List.append_assoc, List.cons_append, offsetIn_line,
      columnOffset_append hy]
    simp only [byteSize_append, byteSize]
    omega

end Document

/-! ## §4 Order -/

/-- Positions are in the order of the text: by line, then by column. -/
instance : LE Position :=
  ⟨fun p q => p.line < q.line ∨ p.line = q.line ∧ p.character ≤ q.character⟩

/-- Neither number of the position is larger than `n`. -/
def Position.Within (p : Position) (n : Nat) : Prop := p.line ≤ n ∧ p.character ≤ n

namespace Document

open Text

/-- A later boundary has a later position. -/
theorem positionAt_le {d : Document} {a b c : List Char} (h : d.text.toList = a ++ b ++ c) :
    d.positionAt (byteSize a) ≤ d.positionAt (byteSize (a ++ b)) := by
  rw [positionAt_eq h, positionAt_eq (a := a) (b := b ++ c) (by rw [h, List.append_assoc])]
  by_cases hb : '\n' ∈ b
  · left
    have hpos := List.count_pos_iff.mpr hb
    simp only [List.count_append]
    omega
  · right
    refine ⟨?_, ?_⟩
    · simp [List.count_append, List.count_eq_zero_of_not_mem hb]
    · simp only [lastLine_append a hb, unitSize_append]
      omega

/-- Lines and columns count no more than bytes, so the positions of a text
fit in every width that its size fits in. -/
theorem positionAt_within (d : Document) (offset : Nat) :
    (d.positionAt offset).Within (byteSize d.text.toList) := by
  have hle : byteSize (d.before offset) ≤ byteSize d.text.toList := by
    have hs := congrArg byteSize (takeBytes_append_dropBytes offset d.text.toList)
    rw [byteSize_append] at hs
    simp only [before]
    omega
  refine ⟨Nat.le_trans (count_le_byteSize _ _) hle, ?_⟩
  calc unitSize (lastLine (d.before offset))
      ≤ byteSize (lastLine (d.before offset)) := unitSize_le_byteSize _
    _ ≤ byteSize (d.before offset) := byteSize_lastLine_le _
    _ ≤ byteSize d.text.toList := hle

end Document
end FormatHost
