/-
FormatHost.Proofs.Path.Ancestors — what is above a directory does not
depend on the path that led there.

`ancestors` reads a path once and writes each directory above it as a text
of its own. Reading such a text again gives the lead and the segments that
it was written from, so that every tail of the list is the list of its own
first entry.

* §1 cutting at slashes and joining again;
* §2 `Readable`: the segments that reading a path yields;
* §3 `parents_ofSegments`, `ancestors_split`.
-/
import FormatHost.Path

namespace FormatHost

/-! ## §1 Cuts -/

namespace Text

theorem not_mem_of_mem_splitAll {sep : Char} {cs piece : List Char}
    (h : piece ∈ splitAll sep cs) : sep ∉ piece := by
  induction cs generalizing piece with
  | nil =>
    obtain rfl : piece = [] := by simpa [splitAll] using h
    exact List.not_mem_nil
  | cons c cs ih =>
    unfold splitAll at h
    by_cases hc : c = sep
    · rw [if_pos hc] at h
      rcases List.mem_cons.mp h with rfl | h
      · exact List.not_mem_nil
      · exact ih h
    · rw [if_neg hc] at h
      cases hs : splitAll sep cs with
      | nil => exact absurd hs (splitAll_ne_nil sep cs)
      | cons first rest =>
        rw [hs] at h ih
        rcases List.mem_cons.mp h with rfl | h
        · simpa [Ne.symm hc] using ih (List.mem_cons_self ..)
        · exact ih (List.mem_cons_of_mem _ h)

theorem mem_of_mem_splitAll {sep : Char} {cs piece : List Char} (h : piece ∈ splitAll sep cs)
    {c : Char} (hc : c ∈ piece) : c ∈ cs := by
  induction cs generalizing piece with
  | nil =>
    obtain rfl : piece = [] := by simpa [splitAll] using h
    exact hc
  | cons first cs ih =>
    unfold splitAll at h
    split at h
    · rcases List.mem_cons.mp h with rfl | h
      · cases hc
      · exact List.mem_cons_of_mem _ (ih h hc)
    · cases hs : splitAll sep cs with
      | nil => exact absurd hs (splitAll_ne_nil sep cs)
      | cons second rest =>
        rw [hs] at h ih
        rcases List.mem_cons.mp h with rfl | h
        · rcases List.mem_cons.mp hc with rfl | hc
          · exact List.mem_cons_self ..
          · exact List.mem_cons_of_mem _ (ih (List.mem_cons_self ..) hc)
        · exact List.mem_cons_of_mem _ (ih (List.mem_cons_of_mem _ h) hc)

/-- Text without separators adds to the first piece. -/
theorem splitAll_append {sep : Char} {piece : List Char} (h : sep ∉ piece) {cs first : List Char}
    {rest : List (List Char)} (hs : splitAll sep cs = first :: rest) :
    splitAll sep (piece ++ cs) = (piece ++ first) :: rest := by
  induction piece with
  | nil => exact hs
  | cons c piece ih =>
    rw [List.mem_cons, not_or] at h
    rw [List.cons_append, splitAll, if_neg (Ne.symm h.1), ih h.2]
    rfl

/-- Cutting joined pieces gives the pieces back. -/
theorem splitAll_joinWith {sep : Char} {pieces : List (List Char)} (hne : pieces ≠ [])
    (h : ∀ piece ∈ pieces, sep ∉ piece) : splitAll sep (joinWith sep pieces) = pieces := by
  induction pieces with
  | nil => exact absurd rfl hne
  | cons piece rest ih =>
    have hp : sep ∉ piece := h piece (List.mem_cons_self ..)
    cases rest with
    | nil =>
      have hs : splitAll sep [] = [] :: [] := rfl
      simpa [joinWith] using splitAll_append hp hs
    | cons next more =>
      have hr := ih (List.cons_ne_nil next more) fun q hq => h q (List.mem_cons_of_mem _ hq)
      have hs : splitAll sep (sep :: joinWith sep (next :: more)) = [] :: next :: more := by
        rw [splitAll, if_pos rfl, hr]
      simpa [joinWith] using splitAll_append hp hs

theorem toList_intercalate {sep : Char} {s : String} (h : s.toList = [sep]) (segs : List String) :
    (s.intercalate segs).toList = joinWith sep (segs.map String.toList) := by
  induction segs with
  | nil => simp [joinWith]
  | cons t segs ih =>
    cases segs with
    | nil => simp [joinWith]
    | cons u segs => simp [String.intercalate_cons_cons, joinWith, ih, h]

end Text

/-! ## §2 Reading -/

namespace Path

open Text

/-- Segments, last first, such as reading a path with that lead yields:
no slash in any, the first one empty behind a leading `.`, and no silent
first one in a bare path unless nothing speaks. -/
structure Readable (lead : Lead) (reversed : List String) : Prop where
  slashless : ∀ s ∈ reversed, '/' ∉ s.toList
  dot : lead = .dot → ∀ s ∈ reversed.getLast?, s = ""
  bare : lead = .bare → ∀ s ∈ reversed.getLast?, isSilent s → ∀ t ∈ reversed, isSilent t

theorem Readable.tail {lead : Lead} {s : String} {rest : List String}
    (h : Readable lead (s :: rest)) : Readable lead rest := by
  cases rest with
  | nil => exact ⟨nofun, nofun, nofun⟩
  | cons t rest =>
    refine ⟨fun u hu => h.slashless u (List.mem_cons_of_mem _ hu), h.dot, ?_⟩
    intro hl u hu hs v hv
    exact h.bare hl u hu hs v (List.mem_cons_of_mem _ hv)

theorem slashless_splitAll (cs : List Char) :
    ∀ s ∈ (splitAll '/' cs).map String.ofList, '/' ∉ s.toList := by
  intro s hs
  obtain ⟨piece, hp, rfl⟩ := List.mem_map.mp hs
  rw [String.toList_ofList]
  exact not_mem_of_mem_splitAll hp

/-- The first piece is silent only in the empty text, in `.`, behind a
slash and behind `./`. -/
theorem silent_first {cs first : List Char} {rest : List (List Char)}
    (hs : splitAll '/' cs = first :: rest) (hf : isSilent (String.ofList first)) :
    cs = [] ∨ cs = ['.'] ∨ (∃ more, cs = '/' :: more) ∨ ∃ more, cs = '.' :: '/' :: more := by
  have hj := joinWith_splitAll '/' cs
  rw [hs] at hj
  have hc : first = [] ∨ first = ['.'] := by
    simp only [isSilent, Bool.or_eq_true, beq_iff_eq, ← String.toList_inj,
      String.toList_ofList] at hf
    exact hf
  rcases hc with rfl | rfl
  · cases rest with
    | nil => exact .inl hj.symm
    | cons next more => exact .inr (.inr (.inl ⟨_, hj.symm⟩))
  · cases rest with
    | nil => exact .inr (.inl hj.symm)
    | cons next more => exact .inr (.inr (.inr ⟨_, hj.symm⟩))

theorem readable_readLead (cs : List Char) :
    Readable (readLead cs).1 (readLead cs).2.reverse := by
  unfold readLead
  split
  · exact ⟨fun s hs => slashless_splitAll _ s (List.mem_reverse.mp hs), nofun, nofun⟩
  · exact ⟨nofun, nofun, nofun⟩
  · refine ⟨?_, ?_, nofun⟩
    · intro s hs
      rcases List.mem_cons.mp (List.mem_reverse.mp hs) with rfl | hs
      · simp
      · exact slashless_splitAll _ s hs
    · intro _ s hs
      rw [List.getLast?_reverse] at hs
      simpa using hs.symm
  · rename_i hslash hdot hdots
    refine ⟨fun s hs => slashless_splitAll _ s (List.mem_reverse.mp hs), nofun, ?_⟩
    intro _ s hs hf t ht
    rw [List.getLast?_reverse] at hs
    cases hp : splitAll '/' cs with
    | nil => exact absurd hp (splitAll_ne_nil '/' cs)
    | cons first rest =>
      rw [hp] at hs ht
      obtain rfl : String.ofList first = s := by simpa using hs
      rcases silent_first hp hf with rfl | he | ⟨more, he⟩ | ⟨more, he⟩
      · cases hp
        obtain rfl : t = String.ofList [] := by simpa using ht
        exact hf
      · exact absurd he hdot
      · exact absurd he (hslash more)
      · exact absurd he (hdots more)

theorem readable (p : Path) : Readable p.lead p.segments.reverse := readable_readLead p.text.toList

theorem splitAll_intercalate {segs : List String} (hne : segs ≠ [])
    (h : ∀ s ∈ segs, '/' ∉ s.toList) :
    (splitAll '/' ("/".intercalate segs).toList).map String.ofList = segs := by
  have hp : ∀ piece ∈ segs.map String.toList, '/' ∉ piece := by
    intro piece hm
    obtain ⟨s, hs, rfl⟩ := List.mem_map.mp hm
    exact h s hs
  have hsep : "/".toList = ['/'] := rfl
  rw [toList_intercalate hsep, splitAll_joinWith (by simpa using hne) hp, List.map_map]
  simp [Function.comp_def]

/-- A text whose first piece speaks has no lead. -/
theorem readLead_of_speaks {cs : List Char} {s : String} {more : List String}
    (hs : (splitAll '/' cs).map String.ofList = s :: more) (hn : isSilent s = false) :
    readLead cs = (.bare, s :: more) := by
  have hne : s ≠ "" ∧ s ≠ "." := by simpa [isSilent] using hn
  unfold readLead
  split
  · exact absurd (List.cons.inj hs).1.symm hne.1
  · exact absurd (List.cons.inj hs).1.symm hne.2
  · exact absurd (List.cons.inj hs).1.symm hne.2
  · rw [hs]

/-- Reading what was written from segments, of which the last one speaks,
gives them back. -/
theorem readLead_write {lead : Lead} {s : String} {rest : List String}
    (h : Readable lead (s :: rest)) (hs : isSilent s = false) :
    readLead (lead.text ++ "/".intercalate (s :: rest).reverse).toList =
      (lead, (s :: rest).reverse) := by
  have hslash : ∀ t ∈ (s :: rest).reverse, '/' ∉ t.toList :=
    fun t ht => h.slashless t (List.mem_reverse.mp ht)
  rw [String.toList_append]
  cases hr : (s :: rest).reverse with
  | nil => simp at hr
  | cons first more =>
    rw [hr] at hslash
    have hf : first ∈ (s :: rest).getLast? := by
      rw [← List.head?_reverse, hr]
      rfl
    have hcut := splitAll_intercalate (List.cons_ne_nil first more) hslash
    cases lead with
    | slash =>
      have hl : Lead.text .slash = "/" := rfl
      rw [hl]
      exact Prod.ext rfl hcut
    | dot =>
      have hl : Lead.text .dot = "." := rfl
      rw [hl]
      obtain rfl : first = "" := h.dot rfl first hf
      cases more with
      | nil =>
        obtain ⟨rfl, rfl⟩ : s = "" ∧ rest = [] := by simpa using congrArg List.reverse hr
        cases hs
      | cons next more =>
        have hrest := splitAll_intercalate (List.cons_ne_nil next more)
          fun t ht => hslash t (List.mem_cons_of_mem _ ht)
        rw [String.intercalate_cons_cons]
        simp only [String.toList_append]
        exact Prod.ext rfl (congrArg ("" :: ·) hrest)
    | bare =>
      have hl : Lead.text .bare = "" := rfl
      rw [hl, String.toList_empty, List.nil_append]
      refine readLead_of_speaks hcut ?_
      cases hsf : isSilent first with
      | false => rfl
      | true =>
        have ht := h.bare rfl first hf hsf s (List.mem_cons_self ..)
        rw [hs] at ht
        cases ht

/-! ## §3 Ancestors of ancestors -/

theorem above_dropWhile (lead : Lead) (reversed : List String) :
    above lead (reversed.dropWhile isSilent) = above lead reversed := by
  induction reversed with
  | nil => rfl
  | cons s rest ih =>
    cases hs : isSilent s with
    | true => rw [List.dropWhile_cons_of_pos hs, ih, above, if_pos hs]
    | false => rw [List.dropWhile_cons_of_neg (by simp [hs])]

theorem Readable.dropWhile {lead : Lead} {reversed : List String} (h : Readable lead reversed) :
    Readable lead (reversed.dropWhile isSilent) := by
  induction reversed with
  | nil => exact h
  | cons s rest ih =>
    cases hs : isSilent s with
    | true =>
      rw [List.dropWhile_cons_of_pos hs]
      exact ih h.tail
    | false =>
      rw [List.dropWhile_cons_of_neg (by simp [hs])]
      exact h

/-- Reading what was written from a lead and segments gives the lead back, and
the segments but for silent ones at the end. -/
theorem read_ofSegments {lead : Lead} {reversed : List String} (h : Readable lead reversed) :
    (ofSegments lead reversed).lead = lead ∧
      (ofSegments lead reversed).segments.reverse.dropWhile isSilent =
        reversed.dropWhile isSilent := by
  have hd := h.dropWhile
  unfold Path.lead segments ofSegments
  cases ht : reversed.dropWhile isSilent with
  | nil => cases lead <;> exact ⟨rfl, rfl⟩
  | cons s rest =>
    rw [ht] at hd
    have hs : isSilent s = false := by
      have := List.head?_dropWhile_not isSilent reversed
      rw [ht] at this
      simpa using this
    rw [readLead_write hd hs, List.reverse_reverse]
    exact ⟨rfl, List.dropWhile_cons_of_neg (by simp [hs])⟩

theorem lead_ofSegments {lead : Lead} {reversed : List String} (h : Readable lead reversed) :
    (ofSegments lead reversed).lead = lead :=
  (read_ofSegments h).1

theorem dropWhile_segments_ofSegments {lead : Lead} {reversed : List String}
    (h : Readable lead reversed) :
    (ofSegments lead reversed).segments.reverse.dropWhile isSilent =
      reversed.dropWhile isSilent :=
  (read_ofSegments h).2

/-- What is above a written directory is what was above its segments. -/
theorem parents_ofSegments {lead : Lead} {reversed : List String} (h : Readable lead reversed) :
    (ofSegments lead reversed).parents = above lead reversed := by
  rw [parents, lead_ofSegments h, ← above_dropWhile, dropWhile_segments_ofSegments h,
    above_dropWhile]

theorem above_split {lead : Lead} {reversed : List String} (h : Readable lead reversed)
    {dir : Path} {nearer farther : List Path}
    (he : above lead reversed = nearer ++ dir :: farther) : dir.parents = farther := by
  induction reversed generalizing nearer with
  | nil =>
    unfold above at he
    split at he
    · cases nearer with
      | nil =>
        obtain ⟨rfl, rfl⟩ := List.cons.inj he
        rfl
      | cons first nearer => simp at he
    · simp at he
  | cons s rest ih =>
    unfold above at he
    by_cases hs : isSilent s = true
    · rw [if_pos hs] at he
      exact ih h.tail he
    rw [if_neg hs] at he
    cases nearer with
    | nil =>
      obtain ⟨rfl, rfl⟩ := List.cons.inj he
      exact parents_ofSegments h.tail
    | cons first nearer => exact ih h.tail (List.cons.inj he).2

/-- **What is above a directory does not depend on the path that led to
it.** -/
theorem ancestors_split {p dir : Path} {nearer farther : List Path}
    (h : p.ancestors = nearer ++ dir :: farther) : dir.ancestors = dir :: farther := by
  cases nearer with
  | nil =>
    obtain ⟨rfl, rfl⟩ := List.cons.inj h
    rfl
  | cons first nearer => exact congrArg (dir :: ·) (above_split p.readable (List.cons.inj h).2)

end Path
end FormatHost
