/-
FormatHost.Proofs.Document.Places — what an offset or a position leads to
that names no place in the text.

Offsets and positions are asked for by others and may lie anywhere. An
offset is rounded down: it counts as the last boundary between characters
that is not behind it. A position is rounded up, but only in its line: it
counts as the first boundary of the line that has enough UTF-16 units before
it, as the end of the line when the line is too short, and as the end of the
text when there is no such line. On boundaries nothing is rounded, so there
the two conversions undo each other.

* §1 `LineAt`: the lines of a text by their numbers;
* §2 `takeBytes` is the longest front that fits;
* §3 `columnOffset` is the shortest front that reaches a column;
* §4 `offsetIn` goes to a line;
* §5 `places_correspond`.
-/
import FormatHost.Proofs.Document.Positions
import Mathlib.Order.Bounds.Basic

namespace FormatHost

namespace Text

/-! ## §1 Lines -/

/-- `line` is the line number `n` of a text, without its line feed: it
stands between `before`, which ends in the line feed before it, and `after`,
which begins with the one at its end. -/
structure LineAt (cs : List Char) (n : Nat) (before line after : List Char) : Prop where
  text : cs = before ++ (line ++ after)
  number : before.count '\n' = n
  begins : before = [] ∨ before.getLast? = some '\n'
  plain : '\n' ∉ line
  ends : after = [] ∨ after.head? = some '\n'

/-- A text has as many lines as line feeds, and one more. -/
theorem exists_lineAt {cs : List Char} {n : Nat} (h : n ≤ cs.count '\n') :
    ∃ before line after, LineAt cs n before line after := by
  induction n generalizing cs with
  | zero =>
    by_cases hc : '\n' ∈ cs
    · obtain ⟨line, rest, rfl, hl⟩ := List.eq_append_cons_of_mem hc
      exact ⟨[], line, '\n' :: rest, rfl, rfl, .inl rfl, hl, .inr rfl⟩
    · exact ⟨[], cs, [], by simp, rfl, .inl rfl, hc, .inl rfl⟩
  | succ n ih =>
    have hc : '\n' ∈ cs := List.count_pos_iff.mp (by omega)
    obtain ⟨first, rest, rfl, hf⟩ := List.eq_append_cons_of_mem hc
    rw [List.count_append, List.count_eq_zero_of_not_mem hf, List.count_cons_self] at h
    have hrest : n ≤ rest.count '\n' := by omega
    obtain ⟨before, line, after, hl⟩ := ih hrest
    refine ⟨first ++ '\n' :: before, line, after, ?_, ?_, .inr ?_, hl.plain, hl.ends⟩
    · rw [hl.text, List.append_assoc, List.cons_append]
    · rw [List.count_append, List.count_eq_zero_of_not_mem hf, List.count_cons_self, hl.number,
        Nat.zero_add]
    · rw [List.getLast?_append, List.getLast?_cons]
      rcases hl.begins with rfl | hb
      · rfl
      · rw [hb]
        rfl

section Lines

variable {cs before line after a : List Char} {n : Nat}

/-- Before a line there is nothing, or text that ends in a line feed. -/
theorem LineAt.before_cases (h : LineAt cs n before line after) :
    before = [] ∧ n = 0 ∨ ∃ x, before = x ++ ['\n'] ∧ n = x.count '\n' + 1 := by
  rcases h.begins with rfl | hb
  · exact .inl ⟨rfl, h.number.symm⟩
  · obtain ⟨x, rfl⟩ := List.getLast?_eq_some_iff.mp hb
    refine .inr ⟨x, rfl, ?_⟩
    rw [← h.number, List.count_append, List.count_singleton_self]

/-- The last line of a text that ends within a line is what it has of that
line. -/
theorem LineAt.lastLine_append (h : LineAt cs n before line after) (ha : a <+: line) :
    lastLine (before ++ a) = a := by
  have hn : '\n' ∉ a := fun hm => h.plain (ha.subset hm)
  rcases h.before_cases with ⟨rfl, -⟩ | ⟨x, rfl, -⟩
  · exact lastLine_of_not_mem hn
  · rw [List.append_assoc]
    exact lastLine_append_newline x hn

end Lines

/-! ## §2 Rounding down -/

section Down

variable {a b cs : List Char} {n : Nat}

theorem byteSize_takeBytes_le (n : Nat) (cs : List Char) : byteSize (takeBytes n cs) ≤ n := by
  induction cs generalizing n with
  | nil => exact Nat.zero_le n
  | cons c cs ih =>
    rw [takeBytes]
    split
    · have hr := ih (n - c.utf8Size)
      rw [byteSize]
      omega
    · exact Nat.zero_le n

/-- A front that fits is no longer than the one that is taken. -/
theorem byteSize_le_takeBytes (h : byteSize a ≤ n) :
    byteSize a ≤ byteSize (takeBytes n (a ++ b)) := by
  induction a generalizing n with
  | nil => exact Nat.zero_le _
  | cons c a ih =>
    rw [byteSize] at h
    have hr := ih (n := n - c.utf8Size) (by omega)
    rw [List.cons_append, takeBytes, if_pos (by omega), byteSize, byteSize]
    omega

theorem byteSize_le_of_boundary (h : IsBoundary n cs) : n ≤ byteSize cs := by
  obtain ⟨a, b, rfl, rfl⟩ := h
  rw [byteSize_append]
  exact Nat.le_add_right ..

/-- **Taking bytes rounds down to a boundary.** -/
theorem isGreatest_takeBytes (n : Nat) (cs : List Char) :
    IsGreatest {k | IsBoundary k cs ∧ k ≤ min n (byteSize cs)} (byteSize (takeBytes n cs)) := by
  have hb : IsBoundary (byteSize (takeBytes n cs)) cs :=
    ⟨_, dropBytes n cs, (takeBytes_append_dropBytes n cs).symm, rfl⟩
  refine ⟨⟨hb, Nat.le_min.mpr ⟨byteSize_takeBytes_le n cs, byteSize_le_of_boundary hb⟩⟩, ?_⟩
  rintro k ⟨⟨a, b, rfl, rfl⟩, hk⟩
  exact byteSize_le_takeBytes (Nat.le_trans hk (Nat.min_le_left ..))

end Down

end Text

namespace Document

open Text

/-! ## §3 Rounding up -/

/-- The boundaries of a line that have at least `character` units of the
line before them. -/
def reaching (before line : List Char) (character : Nat) : Set Nat :=
  {n | ∃ a, a <+: line ∧ character ≤ unitSize a ∧ byteSize (before ++ a) = n}

/-- In a line, a column leads to the shortest front that reaches it, or to
the whole line when none does. -/
theorem columnOffset_spec (character : Nat) {line after : List Char} (hl : '\n' ∉ line)
    (ha : after = [] ∨ after.head? = some '\n') :
    ∃ a, a <+: line ∧ columnOffset character (line ++ after) = byteSize a ∧
      (character ≤ unitSize a ∨ a = line) ∧
      ∀ a', a' <+: line → character ≤ unitSize a' → byteSize a ≤ byteSize a' := by
  induction line generalizing character with
  | nil =>
    refine ⟨[], List.nil_prefix, ?_, .inr rfl, fun _ _ _ => Nat.zero_le _⟩
    rw [List.nil_append]
    cases character with
    | zero => rw [columnOffset, byteSize]
    | succ k =>
      cases after with
      | nil => rfl
      | cons c after =>
        obtain rfl : c = '\n' := by simpa using ha
        exact if_pos rfl
  | cons c line ih =>
    rw [List.mem_cons, not_or] at hl
    cases character with
    | zero => exact ⟨[], List.nil_prefix, rfl, .inl (Nat.zero_le _), fun _ _ _ => Nat.zero_le _⟩
    | succ k =>
      obtain ⟨a, hp, ho, hr, hmin⟩ := ih (k + 1 - units c) hl.2
      refine ⟨c :: a, (List.prefix_cons_inj c).mpr hp, ?_, ?_, fun a' hp' hk => ?_⟩
      · rw [List.cons_append, columnOffset, if_neg (Ne.symm hl.1), ho, byteSize]
      · refine hr.imp (fun hr => ?_) (congrArg (c :: ·))
        rw [unitSize]
        omega
      · -- the empty front reaches no column but the first
        obtain ⟨b, rfl, hb⟩ : ∃ b, a' = c :: b ∧ b <+: line := by
          rcases List.prefix_cons_iff.mp hp' with rfl | hp'
          · exact absurd hk (Nat.not_succ_le_zero k)
          · exact hp'
        have hle := hmin b hb (by rw [unitSize] at hk; omega)
        rw [byteSize, byteSize]
        omega

/-! ## §4 Going to a line -/

/-- A position leads into its line. -/
theorem offsetIn_of_lineAt (character : Nat) {cs before line after : List Char} {n : Nat}
    (h : LineAt cs n before line after) :
    offsetIn character n cs = byteSize before + columnOffset character (line ++ after) := by
  rw [h.text]
  rcases h.before_cases with ⟨rfl, rfl⟩ | ⟨x, rfl, rfl⟩
  · rw [List.nil_append, offsetIn, byteSize, Nat.zero_add]
  · rw [List.append_assoc]
    exact offsetIn_line character x (line ++ after)

/-- Behind the last line a position leads to the end of the text. -/
theorem offsetIn_of_count_lt (character : Nat) {n : Nat} {cs : List Char}
    (h : cs.count '\n' < n) : offsetIn character n cs = byteSize cs := by
  induction cs generalizing n with
  | nil =>
    obtain ⟨k, rfl⟩ := Nat.exists_eq_succ_of_ne_zero (Nat.ne_of_gt h)
    rfl
  | cons c cs ih =>
    obtain ⟨k, rfl⟩ := Nat.exists_eq_succ_of_ne_zero (Nat.ne_of_gt (Nat.zero_lt_of_lt h))
    rw [List.count_cons] at h
    rw [offsetIn, byteSize]
    split
    · rename_i hc
      rw [hc, beq_self_eq_true, if_pos rfl] at h
      rw [ih (by omega)]
    · rw [ih (by omega)]

/-! ## §5 Places -/

section Places

variable {d : Document}

/-- The position of an offset leads to where the offset is rounded to. -/
theorem offsetAt_positionAt_eq (d : Document) (offset : Nat) :
    d.offsetAt (d.positionAt offset) = byteSize (takeBytes offset d.text.toList) := by
  have hs := takeBytes_append_dropBytes offset d.text.toList
  have hp : d.positionAt offset = d.positionAt (byteSize (takeBytes offset d.text.toList)) :=
    (positionAt_eq hs.symm).symm
  rw [hp, offsetAt_positionAt hs.symm]

/-- A position leads to the first boundary of its line that reaches its
column, or else to the end of the line. -/
theorem offsetAt_of_lineAt {p : Position} {before line after : List Char}
    (h : LineAt d.text.toList p.line before line after) :
    ((reaching before line p.character).Nonempty →
        IsLeast (reaching before line p.character) (d.offsetAt p)) ∧
      (reaching before line p.character = ∅ → d.offsetAt p = byteSize (before ++ line)) := by
  obtain ⟨a, hp, ho, hr, hmin⟩ := columnOffset_spec p.character h.plain h.ends
  have hoff : d.offsetAt p = byteSize (before ++ a) := by
    rw [offsetAt, offsetIn_of_lineAt p.character h, ho, byteSize_append]
  rw [hoff]
  constructor
  · rintro ⟨n, b, hb, hu, rfl⟩
    refine ⟨⟨a, hp, ?_, rfl⟩, ?_⟩
    · rcases hr with hr | rfl
      · exact hr
      · obtain ⟨rest, rfl⟩ := hb
        rw [unitSize_append]
        omega
    · rintro k ⟨a', ha', hu', rfl⟩
      have hle := hmin a' ha' hu'
      rw [byteSize_append, byteSize_append]
      omega
  · intro hempty
    rcases hr with hr | rfl
    · have hm : byteSize (before ++ a) ∈ reaching before line p.character := ⟨a, hp, hr, rfl⟩
      rw [hempty] at hm
      exact hm.elim
    · rfl

/-- A position that names a boundary is the boundary's. -/
theorem positionAt_of_lineAt {p : Position} {before line after a : List Char}
    (h : LineAt d.text.toList p.line before line after) (ha : a <+: line)
    (hu : unitSize a = p.character) : d.positionAt (byteSize (before ++ a)) = p := by
  obtain ⟨rest, rfl⟩ := ha
  have hn : '\n' ∉ a := fun hm => h.plain (List.mem_append_left _ hm)
  have ht : d.text.toList = (before ++ a) ++ (rest ++ after) := by simp [h.text]
  rw [positionAt_eq ht, h.lastLine_append (List.prefix_append a rest), List.count_append, h.number,
    List.count_eq_zero_of_not_mem hn, hu]
  rfl

/-- **Offsets and positions of a document.** From an offset by way of its
position one comes to the last boundary between characters that is behind
neither the offset nor the end of the text; the numbers of the position are
no larger than the text's size. A position leads to the end of the text when
there is no such line, and otherwise to the first boundary of the line that
has as many units before it as the column says, or to the line's end when
none has. So a position that names a boundary leads to that boundary, whose
position it is. -/
theorem places_correspond (d : Document) :
    let cs := d.text.toList
    (∀ offset, (d.positionAt offset).Within (byteSize cs) ∧
      IsGreatest {n | IsBoundary n cs ∧ n ≤ min offset (byteSize cs)}
        (d.offsetAt (d.positionAt offset))) ∧
    (∀ p : Position, cs.count '\n' < p.line → d.offsetAt p = byteSize cs) ∧
    (∀ p : Position, p.line ≤ cs.count '\n' → ∃ before line after,
      LineAt cs p.line before line after ∧
      ((reaching before line p.character).Nonempty →
        IsLeast (reaching before line p.character) (d.offsetAt p)) ∧
      (reaching before line p.character = ∅ → d.offsetAt p = byteSize (before ++ line))) ∧
    ∀ (p : Position) (before line after a : List Char), LineAt cs p.line before line after →
      a <+: line → unitSize a = p.character →
      d.offsetAt p = byteSize (before ++ a) ∧ d.positionAt (d.offsetAt p) = p := by
  refine ⟨fun offset => ⟨d.positionAt_within offset, ?_⟩, ?_, ?_, ?_⟩
  · rw [offsetAt_positionAt_eq]
    exact isGreatest_takeBytes offset d.text.toList
  · exact fun p hp => offsetIn_of_count_lt p.character hp
  · intro p hp
    obtain ⟨before, line, after, hl⟩ := exists_lineAt hp
    exact ⟨before, line, after, hl, offsetAt_of_lineAt hl⟩
  · intro p before line after a hl ha hu
    have hp := positionAt_of_lineAt hl ha hu
    obtain ⟨rest, rfl⟩ := ha
    have ht : d.text.toList = (before ++ a) ++ (rest ++ after) := by simp [hl.text]
    have ho : d.offsetAt p = byteSize (before ++ a) := by
      rw [← hp]
      exact offsetAt_positionAt ht
    exact ⟨ho, ho ▸ hp⟩

/-- A column inside a surrogate pair leads behind the character. -/
example : offsetIn 2 0 ['a', '😀', 'b'] = 5 := by decide

end Places

end Document
end FormatHost
