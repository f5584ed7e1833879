/-
FormatHost.Proofs.Edit.LineBreaks — edits that begin or end inside a line
break.

A break may be written as a carriage return and a line feed. An editor that
takes the two as one has no column between them, and moves a position there
to the end of the line. The minimal replacement is cut wherever the characters
stop agreeing, so it can begin there, where the output goes on from the
carriage return in another way, and it can end there, where the output has
the line feed and all that follows it but not the carriage return. It does
neither where both texts write all their breaks in full; a replacement of the
whole document never does.

* §1 `SplitsBreak`: the place inside a break;
* §2 longest common fronts and backs;
* §3 where the minimal replacement begins and ends;
* §4 texts that write their breaks in full;
* §5 `edits_splitting_breaks`.
-/
import FormatHost.Proofs.Edit.Minimality

namespace FormatHost

open Text

/-! ## §1 Inside a break -/

namespace Document

/-- The position between a carriage return and the line feed behind it, one
column past the text of its line. -/
def SplitsBreak (d : Document) (p : Position) : Prop :=
  ∃ a b, d.text.toList = a ++ '\r' :: '\n' :: b ∧ p = ⟨a.count '\n', unitSize (lastLine a) + 1⟩

theorem positionAt_after_return {d : Document} {a b : List Char}
    (h : d.text.toList = a ++ '\r' :: b) :
    d.positionAt (byteSize (a ++ ['\r'])) = ⟨a.count '\n', unitSize (lastLine a) + 1⟩ := by
  have hreturn : '\n' ∉ ['\r'] := by decide
  have hunits : unitSize ['\r'] = 1 := rfl
  rw [positionAt_eq (a := a ++ ['\r']) (b := b) (by rw [h, List.append_cons]),
    lastLine_append a hreturn, unitSize_append, hunits, List.count_append,
    List.count_eq_zero_of_not_mem hreturn, Nat.add_zero]

/-- A place in the text is inside a break when there is a carriage return
right before it and a line feed right behind it. -/
theorem splitsBreak_iff {d : Document} {front back : List Char}
    (h : d.text.toList = front ++ back) :
    d.SplitsBreak (d.positionAt (byteSize front)) ↔
      ∃ a b, front = a ++ ['\r'] ∧ back = '\n' :: b := by
  constructor
  · rintro ⟨a, b, ht, hp⟩
    have ht' : d.text.toList = (a ++ ['\r']) ++ '\n' :: b := by rw [ht, List.append_cons]
    rw [← positionAt_after_return ht] at hp
    have hsize := congrArg d.offsetAt hp
    rw [offsetAt_positionAt h, offsetAt_positionAt ht'] at hsize
    have hle : front <+: a ++ ['\r'] :=
      prefix_of_byteSize_le ⟨back, h.symm⟩ ⟨'\n' :: b, ht'.symm⟩ (Nat.le_of_eq hsize)
    have hge : a ++ ['\r'] <+: front :=
      prefix_of_byteSize_le ⟨'\n' :: b, ht'.symm⟩ ⟨back, h.symm⟩ (Nat.le_of_eq hsize.symm)
    obtain rfl : front = a ++ ['\r'] := hle.eq_of_length_le hge.length_le
    exact ⟨a, b, rfl, List.append_cancel_left (h.symm.trans ht')⟩
  · rintro ⟨a, b, rfl, rfl⟩
    have ht : d.text.toList = a ++ '\r' :: '\n' :: b := by rw [h, ← List.append_cons]
    exact ⟨a, b, ht, positionAt_after_return ht⟩

end Document

/-! ## §2 Longest common ends -/

namespace Edit

/-- What two texts begin with is the first part of their common front. -/
theorem commonFront_append (a x y : List Char) :
    commonFront (a ++ x) (a ++ y) = a ++ commonFront x y := by
  induction a with
  | nil => rfl
  | cons c a ih => rw [List.cons_append, List.cons_append, commonFront, if_pos rfl, ih]; rfl

/-- What two texts end with is the last part of their common back. -/
theorem commonBack_append (x y b : List Char) :
    commonBack (x ++ b) (y ++ b) = commonBack x y ++ b := by
  simp [commonBack, commonFront_append]

theorem commonFront_eq_nil_iff {x y : List Char} :
    commonFront x y = [] ↔ ∀ c, x.head? = some c → y.head? ≠ some c := by
  cases x with
  | nil => simp [commonFront]
  | cons c x =>
    cases y with
    | nil => simp [commonFront]
    | cons d y =>
      rw [commonFront]
      split
      · simp [*]
      · simpa using Ne.symm ‹_›

theorem commonBack_eq_nil_iff {x y : List Char} :
    commonBack x y = [] ↔ ∀ c, x.getLast? = some c → y.getLast? ≠ some c := by
  rw [commonBack, List.reverse_eq_nil_iff, commonFront_eq_nil_iff]
  simp only [List.head?_reverse]

/-! ## §3 The minimal replacement -/

/-- The texts agree up to the carriage return of a break of the first, and
there the second goes on without its line feed. -/
def ReturnShared (x y : List Char) : Prop :=
  ∃ a b rest, x = a ++ '\r' :: '\n' :: b ∧ y = a ++ '\r' :: rest ∧ rest.head? ≠ some '\n'

/-- The texts agree from the line feed of a break of the first on. Either the
common front has the break's carriage return, or what the second has between
the common front and the line feed does not end in one. -/
def FeedShared (x y : List Char) : Prop :=
  ∃ a b rest, x = a ++ '\r' :: '\n' :: b ∧ y = commonFront x y ++ rest ++ '\n' :: b ∧
    (commonFront x y = a ++ ['\r'] ∨ commonFront x y <+: a ∧ rest.getLast? ≠ some '\r')

variable {x y front middle new back : List Char}

theorem front_splits_iff (hx : x = front ++ back) (hfront : commonFront x y = front) :
    (∃ a b, front = a ++ ['\r'] ∧ back = '\n' :: b) ↔ ReturnShared x y := by
  have hcut : ∀ a b rest : List Char, x = a ++ '\r' :: '\n' :: b → y = a ++ '\r' :: rest →
      front = (a ++ ['\r']) ++ commonFront ('\n' :: b) rest := by
    rintro a b rest rfl rfl
    rw [← hfront, ← commonFront_append]
    simp
  constructor
  · rintro ⟨a, b, hf, rfl⟩
    obtain ⟨rest, hrest⟩ : front <+: y := ⟨_, hfront ▸ (commonFront_append_drop x y).2⟩
    have hx' : x = a ++ '\r' :: '\n' :: b := by rw [hx, hf, ← List.append_cons]
    have hy' : y = a ++ '\r' :: rest := by rw [← hrest, hf, ← List.append_cons]
    refine ⟨a, b, rest, hx', hy', ?_⟩
    have hnil := hcut a b rest hx' hy'
    rw [hf, List.self_eq_append_right] at hnil
    exact commonFront_eq_nil_iff.mp hnil '\n' rfl
  · rintro ⟨a, b, rest, hx', hy', hrest⟩
    have hnil : commonFront ('\n' :: b) rest = [] :=
      commonFront_eq_nil_iff.mpr fun c hc => by
        obtain rfl := Option.some.inj hc
        exact hrest
    have hf := hcut a b rest hx' hy'
    rw [hnil, List.append_nil] at hf
    refine ⟨a, b, hf, (List.append_right_inj front).mp ?_⟩
    rw [← hx, hx', hf, ← List.append_cons]

theorem back_splits_iff (hx : x = front ++ middle ++ back) (hy : y = front ++ new ++ back)
    (hfront : commonFront x y = front) (hback : commonBack middle new = []) :
    (∃ a b, front ++ middle = a ++ ['\r'] ∧ back = '\n' :: b) ↔ FeedShared x y := by
  rw [FeedShared, hfront]
  constructor
  · rintro ⟨a, b, hfm, rfl⟩
    refine ⟨a, b, new, by rw [hx, hfm, ← List.append_cons], hy, ?_⟩
    rcases List.eq_nil_or_concat middle with rfl | ⟨kept, c, rfl⟩
    · exact .inl (by rw [← hfm, List.append_nil])
    · rw [List.concat_eq_append] at hback hfm
      rw [← List.append_assoc] at hfm
      obtain ⟨rfl, hc⟩ := List.append_inj' hfm rfl
      obtain rfl : c = '\r' := by simpa using hc
      exact .inr ⟨List.prefix_append .., commonBack_eq_nil_iff.mp hback '\r' (by simp)⟩
  · rintro ⟨a, b, rest, hx', hy', hor⟩
    -- in front of the line feed the texts end differently, so the common back begins with it
    obtain ⟨z, hz, hnil⟩ : ∃ z, a ++ ['\r'] = front ++ z ∧ commonBack z rest = [] := by
      rcases hor with hf | ⟨⟨w, rfl⟩, hne⟩
      · exact ⟨[], by rw [hf, List.append_nil], commonBack_eq_nil_iff.mpr (by simp)⟩
      · refine ⟨w ++ ['\r'], by rw [List.append_assoc], commonBack_eq_nil_iff.mpr fun c hc => ?_⟩
        rw [List.getLast?_concat] at hc
        exact Option.some.inj hc ▸ hne
    have hold : z ++ '\n' :: b = middle ++ back := by
      refine (List.append_right_inj front).mp ?_
      rw [← List.append_assoc, ← hz, ← List.append_assoc, ← hx, hx', ← List.append_cons]
    have hnew : rest ++ '\n' :: b = new ++ back := by
      refine (List.append_right_inj front).mp ?_
      rw [← List.append_assoc, ← hy', hy, List.append_assoc]
    have heq : '\n' :: b = back := by
      have hleft := commonBack_append z rest ('\n' :: b)
      rw [hold, hnew, commonBack_append, hback, hnil] at hleft
      exact hleft.symm
    refine ⟨a, b, ?_, heq.symm⟩
    rw [hz]
    rw [heq] at hold
    rw [List.append_cancel_right hold]

/-! ## §4 Breaks written in full -/

/-- Each carriage return has its line feed. -/
def NoLoneReturn (cs : List Char) : Prop :=
  ∀ i < cs.length, cs[i]? = some '\r' → (cs.drop (i + 1)).head? = some '\n'

/-- Each line feed has its carriage return. -/
def NoLoneFeed (cs : List Char) : Prop :=
  ∀ i < cs.length, cs[i]? = some '\n' → (cs.take i).getLast? = some '\r'

instance (cs : List Char) : Decidable (NoLoneReturn cs) :=
  inferInstanceAs (Decidable (∀ i < cs.length, _ → _))

instance (cs : List Char) : Decidable (NoLoneFeed cs) :=
  inferInstanceAs (Decidable (∀ i < cs.length, _ → _))

theorem NoLoneReturn.head? (h : NoLoneReturn x) {a b : List Char} (hx : x = a ++ '\r' :: b) :
    b.head? = some '\n' := by
  subst hx
  simpa using h a.length (by simp) (by simp)

theorem NoLoneFeed.getLast? (h : NoLoneFeed x) {a b : List Char} (hx : x = a ++ '\n' :: b) :
    a.getLast? = some '\r' := by
  subst hx
  simpa using h a.length (by simp) (by simp)

theorem not_returnShared (hy : NoLoneReturn y) : ¬ ReturnShared x y := by
  rintro ⟨a, b, rest, -, hy', hrest⟩
  exact hrest (hy.head? hy')

/-- Where both texts go on with a line feed after each carriage return, what
they have in common goes on, too. -/
theorem commonFront_getLast?_ne_return (hx : NoLoneReturn x) (hy : NoLoneReturn y) :
    (commonFront x y).getLast? ≠ some '\r' := by
  intro hlast
  obtain ⟨a, ha⟩ := List.getLast?_eq_some_iff.mp hlast
  obtain ⟨hxf, hyf⟩ := commonFront_append_drop x y
  generalize x.drop (commonFront x y).length = u at hxf
  generalize y.drop (commonFront x y).length = v at hyf
  have hu : u.head? = some '\n' := hx.head? (a := a) (by rw [← hxf, ha, ← List.append_cons])
  have hv : v.head? = some '\n' := hy.head? (a := a) (by rw [← hyf, ha, ← List.append_cons])
  have hnil : commonFront u v = [] := by
    have happ := commonFront_append (commonFront x y) u v
    rw [hxf, hyf] at happ
    exact List.self_eq_append_right.mp happ
  exact commonFront_eq_nil_iff.mp hnil '\n' hu hv

theorem not_feedShared (hx : NoLoneReturn x) (hy : NoLoneReturn y) (hy' : NoLoneFeed y) :
    ¬ FeedShared x y := by
  have hfront := commonFront_getLast?_ne_return hx hy
  rintro ⟨a, b, rest, -, hback, hf | ⟨-, hrest⟩⟩
  · exact hfront (by rw [hf, List.getLast?_concat])
  · have hlast := hy'.getLast? hback
    rw [List.getLast?_append] at hlast
    cases hr : rest.getLast? with
    | none =>
      rw [hr] at hlast
      exact hfront hlast
    | some c =>
      rw [hr] at hlast hrest
      exact hrest hlast

end Edit

/-! ## §5 Edits -/

namespace EditResult

open Edit

variable {d : Document} {formatted : String} {e : TextEdit}

theorem splitsBreak_of_keeps {r : Replacement} {front middle back : List Char}
    (h : r.Keeps d.text front middle back) :
    (d.SplitsBreak (d.positionAt r.start) ↔
        ∃ a b, front = a ++ ['\r'] ∧ middle ++ back = '\n' :: b) ∧
      (d.SplitsBreak (d.positionAt r.stop) ↔
        ∃ a b, front ++ middle = a ++ ['\r'] ∧ back = '\n' :: b) := by
  rw [h.start, h.stop]
  exact ⟨Document.splitsBreak_iff (by rw [h.text, List.append_assoc]),
    Document.splitsBreak_iff h.text⟩

theorem fullDocument_splits (he : e ∈ (compute d formatted .fullDocument).edits) :
    ¬ d.SplitsBreak e.range.start ∧ ¬ d.SplitsBreak e.range.stop := by
  by_cases hne : d.text = formatted
  · simp [compute, full?, hne, edits] at he
  · have hk : (Replacement.mk 0 (byteSize d.text.toList) formatted).Keeps
        d.text [] d.text.toList [] := ⟨by simp, rfl, rfl⟩
    obtain ⟨hstart, hstop⟩ := splitsBreak_of_keeps hk
    have he' : e = ⟨⟨d.positionAt 0, d.positionAt (byteSize d.text.toList)⟩, formatted⟩ := by
      simpa [compute, full?, hne, edits] using he
    rw [he', hstart, hstop]
    simp

theorem minimal_splits (he : e ∈ (compute d formatted .minimal).edits) :
    (d.SplitsBreak e.range.start ↔ ReturnShared d.text.toList formatted.toList) ∧
      (d.SplitsBreak e.range.stop ↔ FeedShared d.text.toList formatted.toList) := by
  by_cases hne : d.text = formatted
  · simp [compute, minimal?, hne, edits] at he
  · obtain ⟨r, middle, hr, hk, hf⟩ := minimal?_keeps hne
    generalize hfront : commonFront d.text.toList formatted.toList = front at hk hf
    generalize hback : commonBack (d.text.toList.drop front.length)
      (formatted.toList.drop front.length) = back at hk hf
    -- what is replaced and what takes its place end differently
    have hnil : commonBack middle r.text.toList = [] := by
      rw [hk.text, hf, List.append_assoc, List.append_assoc, List.drop_left, List.drop_left,
        commonBack_append] at hback
      exact List.append_left_eq_self.mp hback
    obtain ⟨hstart, hstop⟩ := splitsBreak_of_keeps hk
    have he' : e = ⟨⟨d.positionAt r.start, d.positionAt r.stop⟩, r.text⟩ := by
      simpa [compute, hr, edits] using he
    rw [he', hstart, hstop]
    exact ⟨front_splits_iff (by rw [hk.text, List.append_assoc]) hfront,
      back_splits_iff hk.text hf hfront hnil⟩

/-- **Edits that split a line break.** A replacement of the whole document
never begins or ends between a carriage return and its line feed. The minimal
one begins there exactly when the output has the text up to the carriage return
and goes on without the line feed, and it ends there exactly when the output
has the text from the line feed on and not the carriage return in front of it.
It never begins there when the output has no lone carriage return, and never
ends there when, besides, the text has none and the output no lone line
feed. -/
theorem edits_splitting_breaks (d : Document) (formatted : String) :
    (∀ e ∈ (compute d formatted .fullDocument).edits,
      ¬ d.SplitsBreak e.range.start ∧ ¬ d.SplitsBreak e.range.stop) ∧
    ∀ e ∈ (compute d formatted .minimal).edits,
      (d.SplitsBreak e.range.start ↔ ReturnShared d.text.toList formatted.toList) ∧
      (d.SplitsBreak e.range.stop ↔ FeedShared d.text.toList formatted.toList) ∧
      (NoLoneReturn formatted.toList → ¬ d.SplitsBreak e.range.start) ∧
      (NoLoneReturn d.text.toList → NoLoneReturn formatted.toList → NoLoneFeed formatted.toList →
        ¬ d.SplitsBreak e.range.stop) := by
  refine ⟨fun _ => fullDocument_splits, fun e he => ?_⟩
  obtain ⟨hstart, hstop⟩ := minimal_splits he
  refine ⟨hstart, hstop, fun hy => ?_, fun hx hy hy' => ?_⟩
  · rw [hstart]
    exact not_returnShared hy
  · rw [hstop]
    exact not_feedShared hx hy hy'

/-- The blank in front of a break goes, and the break stays whole. -/
theorem edits_splitting_breaks_blank :
    let u : Uri := { scheme := "file", hasAuthority := true, path := "/a.ts" }
    let d : Document := ⟨u, "typescript", "a \r\nb\r\n"⟩
    let e : TextEdit := ⟨⟨⟨0, 1⟩, ⟨0, 2⟩⟩, ""⟩
    e ∈ (compute d "a\r\nb\r\n" .minimal).edits ∧ ¬ d.SplitsBreak e.range.start ∧
      ¬ d.SplitsBreak e.range.stop := by
  intro u d e
  have he : e ∈ (compute d "a\r\nb\r\n" .minimal).edits := by decide +kernel
  obtain ⟨-, -, hstart, hstop⟩ := (edits_splitting_breaks d "a\r\nb\r\n").2 e he
  exact ⟨he, hstart (by decide +kernel),
    hstop (by decide +kernel) (by decide +kernel) (by decide +kernel)⟩

/-- Not every edit leaves each break whole: to make its one break a line feed
alone, the edit of a text takes the carriage return only. -/
theorem edits_splitting_breaks_feed :
    ¬ ∀ (d : Document) (formatted : String) (mode : Mode),
      ∀ e ∈ (compute d formatted mode).edits,
        ¬ d.SplitsBreak e.range.start ∧ ¬ d.SplitsBreak e.range.stop := by
  intro h
  let u : Uri := { scheme := "file", hasAuthority := true, path := "/a.ts" }
  let d : Document := ⟨u, "typescript", "a\r\n"⟩
  let e : TextEdit := ⟨⟨⟨0, 1⟩, ⟨0, 2⟩⟩, ""⟩
  have he : e ∈ (compute d "a\n" .minimal).edits := by decide +kernel
  exact (h d "a\n" .minimal e he).2 ⟨['a'], [], by decide +kernel, by decide +kernel⟩

end EditResult
end FormatHost
