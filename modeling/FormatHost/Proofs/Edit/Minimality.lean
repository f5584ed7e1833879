/-
FormatHost.Proofs.Edit.Minimality — no single replacement is smaller than
the minimal one.

A replacement that makes one text into another keeps a common front and a
common back of both, and is the smaller the more it keeps. The minimal one
takes the longest front first and may have to content itself with a short
back, as in `aba` and `ababa`, where front and back overlap. That costs
nothing: when the back of a competitor does not fit behind the longest
front, the shorter of the texts is kept as a whole, and more cannot be kept.

* §1 every common front is part of the longest one, and so with backs;
* §2 `kept_le`: no front and back together are longer;
* §3 `Spans`, and `minimal?_smallest`.
-/
import FormatHost.Proofs.Edit.Reconstruction

namespace FormatHost

open Text

/-! ## §1 Common ends -/

namespace Text

theorem byteSize_le_of_prefix {a b : List Char} (h : a <+: b) : byteSize a ≤ byteSize b := by
  obtain ⟨rest, rfl⟩ := h
  rw [byteSize_append]
  exact Nat.le_add_right ..

theorem byteSize_le_of_suffix {a b : List Char} (h : a <:+ b) : byteSize a ≤ byteSize b := by
  obtain ⟨front, rfl⟩ := h
  rw [byteSize_append]
  exact Nat.le_add_left ..

/-- Of two fronts of a text the one of fewer bytes is a front of the other. -/
theorem prefix_of_byteSize_le {a b cs : List Char} (ha : a <+: cs) (hb : b <+: cs)
    (h : byteSize a ≤ byteSize b) : a <+: b := by
  rcases List.prefix_or_prefix_of_prefix ha hb with hab | ⟨rest, rfl⟩
  · exact hab
  · rw [byteSize_append] at h
    cases rest with
    | nil => simp
    | cons c rest =>
      have hc := c.utf8Size_pos
      rw [byteSize] at h
      omega

end Text

namespace Edit

section CommonEnds

variable {a x y : List Char}

/-- A common front of two texts is part of the longest one. -/
theorem prefix_commonFront (hx : a <+: x) (hy : a <+: y) : a <+: commonFront x y := by
  induction a generalizing x y with
  | nil => exact List.nil_prefix
  | cons c a ih =>
    obtain ⟨x', rfl⟩ := hx
    obtain ⟨y', rfl⟩ := hy
    rw [List.cons_append, List.cons_append, commonFront, if_pos rfl]
    exact (List.prefix_cons_inj c).mpr (ih (List.prefix_append ..) (List.prefix_append ..))

/-- A common back of two texts is part of the longest one. -/
theorem suffix_commonBack (hx : a <:+ x) (hy : a <:+ y) : a <:+ commonBack x y := by
  have h := prefix_commonFront (List.reverse_prefix.mpr hx) (List.reverse_prefix.mpr hy)
  rw [← List.reverse_prefix, commonBack, List.reverse_reverse]
  exact h

end CommonEnds

/-! ## §2 What can be kept -/

/-- When a common back of two texts does not fit into what `front` leaves of
the shorter one, that rest is at the end of both. -/
theorem suffix_of_overlap {front x y back : List Char} (hx : back <:+ front ++ x)
    (hy : back <:+ front ++ y) (hl : x.length ≤ y.length) (hb : x.length ≤ back.length) :
    x <:+ y := by
  have hxb : x <:+ back := List.suffix_of_suffix_length_le (List.suffix_append front x) hx hb
  exact List.suffix_of_suffix_length_le (hxb.trans hy) (List.suffix_append front y) hl

/-- **No common front and back of two texts are together longer than the
longest front with the longest back of what it leaves.** -/
theorem kept_le {x y front back middle new : List Char} (hx : x = front ++ middle ++ back)
    (hy : y = front ++ new ++ back) :
    byteSize front + byteSize back ≤ byteSize (commonFront x y) +
      byteSize (commonBack (x.drop (commonFront x y).length)
        (y.drop (commonFront x y).length)) := by
  obtain ⟨hp, hp'⟩ := commonFront_append_drop x y
  have hfront : front <+: commonFront x y :=
    prefix_commonFront ⟨middle ++ back, by rw [hx, List.append_assoc]⟩
      ⟨new ++ back, by rw [hy, List.append_assoc]⟩
  have hbx : back <:+ x := ⟨front ++ middle, hx.symm⟩
  have hby : back <:+ y := ⟨front ++ new, hy.symm⟩
  have hsx := congrArg byteSize hx
  have hsy := congrArg byteSize hy
  generalize commonFront x y = kept at hp hp' hfront ⊢
  generalize x.drop kept.length = x' at hp ⊢
  generalize y.drop kept.length = y' at hp' ⊢
  rw [← hp] at hbx hsx
  rw [← hp'] at hby hsy
  simp only [byteSize_append] at hsx hsy
  have hf := byteSize_le_of_prefix hfront
  rcases Nat.le_total back.length (min x'.length y'.length) with hl | hl
  · -- the back fits behind the longest front
    have hb : back <:+ commonBack x' y' := suffix_commonBack
      (List.suffix_of_suffix_length_le hbx (List.suffix_append kept x') (by omega))
      (List.suffix_of_suffix_length_le hby (List.suffix_append kept y') (by omega))
    have hle := byteSize_le_of_suffix hb
    omega
  · -- it does not, and then the shorter text is kept as a whole
    rcases Nat.le_total x'.length y'.length with hxy | hxy
    · have hs : x' <:+ commonBack x' y' :=
        suffix_commonBack (List.suffix_refl x') (suffix_of_overlap hbx hby hxy (by omega))
      have hle := byteSize_le_of_suffix hs
      omega
    · have hs : y' <:+ commonBack x' y' :=
        suffix_commonBack (suffix_of_overlap hby hbx hxy (by omega)) (List.suffix_refl y')
      have hle := byteSize_le_of_suffix hs
      omega

end Edit

/-! ## §3 Replacements -/

namespace Replacement

/-- The replacement is of a span of the text: its offsets are boundaries
between characters, and in order. -/
structure Spans (r : Replacement) (old : String) : Prop where
  start : IsBoundary r.start old.toList
  stop : IsBoundary r.stop old.toList
  ordered : r.start ≤ r.stop

theorem Keeps.spans {r : Replacement} {old : String} {front middle back : List Char}
    (h : r.Keeps old front middle back) : r.Spans old where
  start := ⟨front, middle ++ back, by rw [h.text, List.append_assoc], h.start.symm⟩
  stop := ⟨front ++ middle, back, h.text, h.stop.symm⟩
  ordered := by
    rw [h.start, h.stop, byteSize_append]
    exact Nat.le_add_right ..

/-- A replacement of a span keeps what is before and after the span. -/
theorem Spans.exists_keeps {r : Replacement} {old : String} (h : r.Spans old) :
    ∃ front middle back, r.Keeps old front middle back := by
  obtain ⟨front, rest, hf, hstart⟩ := h.start
  obtain ⟨upTo, back, hb, hstop⟩ := h.stop
  obtain ⟨middle, rfl⟩ : front <+: upTo :=
    prefix_of_byteSize_le ⟨rest, hf.symm⟩ ⟨back, hb.symm⟩ (by
      rw [hstart, hstop]
      exact h.ordered)
  exact ⟨front, middle, back, hb, hstart.symm, hstop.symm⟩

/-- The sizes of a span and of what takes its place, told from what is
kept. -/
theorem Keeps.sizes {r : Replacement} {old formatted : String} {front middle back : List Char}
    (h : r.Keeps old front middle back) (hf : formatted.toList = front ++ r.text.toList ++ back) :
    r.stop - r.start + (byteSize front + byteSize back) = byteSize old.toList ∧
      byteSize r.text.toList + (byteSize front + byteSize back) = byteSize formatted.toList := by
  have ht := congrArg byteSize h.text
  have hs := congrArg byteSize hf
  simp only [byteSize_append] at ht hs
  rw [h.start, h.stop, byteSize_append]
  omega

end Replacement

namespace Edit

/-- **The minimal replacement is the smallest.** For texts that differ there
is one; it is of a span of the old text, makes it into the new one, and of
all replacements of a span that do so none replaces fewer bytes and none
puts in fewer. -/
theorem minimal?_smallest {old formatted : String} (h : old ≠ formatted) :
    ∃ r, minimal? old formatted = some r ∧ r.Spans old ∧ r.stop ≤ byteSize old.toList ∧
      r.apply old = formatted ∧
      ∀ other : Replacement, other.Spans old → other.apply old = formatted →
        r.stop - r.start ≤ other.stop - other.start ∧
          byteSize r.text.toList ≤ byteSize other.text.toList := by
  obtain ⟨r, middle, hr, hk, hf⟩ := minimal?_keeps h
  obtain ⟨hspan, hput⟩ := hk.sizes hf
  refine ⟨r, hr, hk.spans, ?_, ?_, fun other hs ha => ?_⟩
  · have ht := congrArg byteSize hk.text
    rw [byteSize_append _ (commonBack _ _)] at ht
    rw [hk.stop]
    omega
  · rw [hk.apply_eq, ← hf, String.ofList_toList]
  · obtain ⟨front, middle', back, hother⟩ := hs.exists_keeps
    have hf' : formatted.toList = front ++ other.text.toList ++ back := by
      rw [← ha, hother.apply_eq, String.toList_ofList]
    obtain ⟨hspan', hput'⟩ := hother.sizes hf'
    have hle := kept_le hother.text hf'
    omega

/-- Where front and back overlap: to make `aba` into `ababa` everything is
kept, and nothing that does so puts in less. -/
theorem minimal?_smallest_overlap :
    let r : Replacement := ⟨3, 3, "ba"⟩
    "aba" ≠ "ababa" ∧ minimal? "aba" "ababa" = some r ∧ r.Spans "aba" ∧
      r.apply "aba" = "ababa" ∧
      ∀ other : Replacement, other.Spans "aba" → other.apply "aba" = "ababa" →
        2 ≤ byteSize other.text.toList := by
  intro r
  have hne : "aba" ≠ "ababa" := by decide
  have hr : minimal? "aba" "ababa" = some r := by decide
  obtain ⟨r', hr', hs, -, ha, hleast⟩ := minimal?_smallest hne
  obtain rfl : r = r' := Option.some.inj (hr.symm.trans hr')
  have hsize : byteSize "ba".toList = 2 := by decide
  exact ⟨hne, hr, hs, ha, fun other ho hap => hsize ▸ (hleast other ho hap).2⟩

end Edit
end FormatHost
