/-
FormatHost.Proofs.Edit.Reconstruction — an edit makes the document into the
formatter's output.

Both replacements keep a front and a back of the old text and put the new
text between them. `Keeps` says so, and fixes the offsets as the sizes of
what is kept; so both offsets are boundaries between characters, their
positions lead back to them, and splicing at these gives the output.

* §1 the longest common front and back;
* §2 `Keeps`: what a replacement keeps;
* §3 edits, and what a document becomes by them.
-/
import FormatHost.Proofs.Document.Positions
import FormatHost.Service.Format

namespace FormatHost

open Text

/-! ## §1 Common ends -/

namespace Edit

/-- Two texts begin with their common front. -/
theorem commonFront_append_drop (a b : List Char) :
    commonFront a b ++ a.drop (commonFront a b).length = a ∧
      commonFront a b ++ b.drop (commonFront a b).length = b := by
  induction a generalizing b with
  | nil => exact ⟨rfl, rfl⟩
  | cons c cs ih =>
    cases b with
    | nil => exact ⟨rfl, rfl⟩
    | cons d ds =>
      rw [commonFront]
      split
      · rename_i hcd
        obtain ⟨ha, hb⟩ := ih ds
        exact ⟨congrArg (c :: ·) ha, hcd ▸ congrArg (c :: ·) hb⟩
      · exact ⟨rfl, rfl⟩

/-- Two texts end with their common back. -/
theorem take_append_commonBack (a b : List Char) :
    a.take (a.length - (commonBack a b).length) ++ commonBack a b = a ∧
      b.take (b.length - (commonBack a b).length) ++ commonBack a b = b := by
  have hl : (commonBack a b).length = (commonFront a.reverse b.reverse).length := by
    simp [commonBack]
  have hrev : ∀ cs : List Char,
      commonFront a.reverse b.reverse ++
          cs.reverse.drop (commonFront a.reverse b.reverse).length = cs.reverse →
        cs.take (cs.length - (commonBack a b).length) ++ commonBack a b = cs := by
    intro cs h
    have hr := congrArg List.reverse h
    rw [List.reverse_append, List.drop_reverse, List.reverse_reverse, List.reverse_reverse] at hr
    rw [hl]
    exact hr
  obtain ⟨ha, hb⟩ := commonFront_append_drop a.reverse b.reverse
  exact ⟨hrev a ha, hrev b hb⟩

end Edit

/-! ## §2 What a replacement keeps -/

namespace Replacement

/-- The replacement keeps `front` and `back` of a text and stands for what
is between them. -/
structure Keeps (r : Replacement) (old : String) (front middle back : List Char) : Prop where
  text : old.toList = front ++ middle ++ back
  start : r.start = byteSize front
  stop : r.stop = byteSize (front ++ middle)

/-- Making a replacement puts its text between what it keeps. -/
theorem Keeps.apply_eq {r : Replacement} {old : String} {front middle back : List Char}
    (h : r.Keeps old front middle back) :
    r.apply old = String.ofList (front ++ r.text.toList ++ back) := by
  have hf : takeBytes r.start old.toList = front := by
    rw [h.start, h.text, List.append_assoc, takeBytes_append]
  have hb : dropBytes r.stop old.toList = back := by
    rw [h.stop, h.text, dropBytes_append]
  rw [apply, hf, hb]

end Replacement

namespace Edit

/-- What a mode answers for two texts: nothing when they are equal, and
otherwise a replacement that makes the one into the other. -/
def Answers (old formatted : String) : Option Replacement → Prop
  | none => formatted = old
  | some r => formatted ≠ old ∧ ∃ front middle back, r.Keeps old front middle back ∧
      formatted.toList = front ++ r.text.toList ++ back

/-- The minimal replacement keeps the common front of two texts and, of what
is left of them, the common back. -/
theorem minimal?_keeps {old formatted : String} (h : old ≠ formatted) :
    let front := commonFront old.toList formatted.toList
    let back := commonBack (old.toList.drop front.length) (formatted.toList.drop front.length)
    ∃ r middle, minimal? old formatted = some r ∧ r.Keeps old front middle back ∧
      formatted.toList = front ++ r.text.toList ++ back := by
  intro front back
  obtain ⟨hf, hf'⟩ := commonFront_append_drop old.toList formatted.toList
  obtain ⟨hb, hb'⟩ := take_append_commonBack
    (old.toList.drop front.length) (formatted.toList.drop front.length)
  have ht : old.toList = front ++
      (old.toList.drop front.length).take ((old.toList.drop front.length).length - back.length) ++
      back := by
    rw [List.append_assoc, hb, hf]
  refine ⟨_, _, if_neg h, ⟨ht, rfl, ?_⟩, ?_⟩
  · have hs := congrArg byteSize ht
    rw [byteSize_append _ back] at hs
    exact Nat.sub_eq_of_eq_add hs
  · rw [String.toList_ofList, List.append_assoc, hb', hf']

theorem minimal?_answers (old formatted : String) :
    Answers old formatted (minimal? old formatted) := by
  by_cases h : old = formatted
  · rw [minimal?, if_pos h]
    exact h.symm
  · obtain ⟨r, middle, hr, hk, hf⟩ := minimal?_keeps h
    rw [hr]
    exact ⟨Ne.symm h, _, middle, _, hk, hf⟩

theorem full?_answers (old formatted : String) :
    Answers old formatted (full? old formatted) := by
  unfold full?
  split
  · exact Eq.symm ‹_›
  rename_i hne
  exact ⟨Ne.symm hne, [], old.toList, [], ⟨by simp, rfl, rfl⟩, by simp⟩

/-- The replacement that a mode answers. -/
def Mode.replacement? (old formatted : String) : Mode → Option Replacement
  | .minimal => minimal? old formatted
  | .fullDocument => full? old formatted

theorem replacement?_answers (old formatted : String) (mode : Mode) :
    Answers old formatted (mode.replacement? old formatted) := by
  cases mode with
  | minimal => exact minimal?_answers old formatted
  | fullDocument => exact full?_answers old formatted

end Edit

/-! ## §3 Edits -/

/-- The document's text with the edit made: its positions become offsets
again, and what lies between them becomes the new text. -/
def TextEdit.applyTo (e : TextEdit) (d : Document) : String :=
  Replacement.apply ⟨d.offsetAt e.range.start, d.offsetAt e.range.stop, e.newText⟩ d.text

namespace EditResult

/-- What an editor makes of an answer. -/
def applyTo (d : Document) : EditResult → String
  | .noop => d.text
  | .replace e => e.applyTo d

/-- The edit leads from a document to a text, which differs: its positions
are in order and no larger than the document's size, stand between
characters, and the text between them gives way to the edit's. -/
structure LeadsTo (d : Document) (formatted : String) (e : TextEdit) : Prop where
  differs : formatted ≠ d.text
  ordered : e.range.start ≤ e.range.stop
  start_within : e.range.start.Within (byteSize d.text.toList)
  stop_within : e.range.stop.Within (byteSize d.text.toList)
  start_boundary : IsBoundary (d.offsetAt e.range.start) d.text.toList
  stop_boundary : IsBoundary (d.offsetAt e.range.stop) d.text.toList
  applied : e.applyTo d = formatted

theorem leadsTo_of_keeps {d : Document} {formatted : String} {r : Replacement}
    {front middle back : List Char} (hne : formatted ≠ d.text)
    (hk : r.Keeps d.text front middle back)
    (hf : formatted.toList = front ++ r.text.toList ++ back) :
    LeadsTo d formatted ⟨⟨d.positionAt r.start, d.positionAt r.stop⟩, r.text⟩ := by
  have ht := hk.text
  have hs : d.offsetAt (d.positionAt r.start) = byteSize front := by
    rw [hk.start]
    exact Document.offsetAt_positionAt (ht.trans (List.append_assoc ..))
  have hp : d.offsetAt (d.positionAt r.stop) = byteSize (front ++ middle) := by
    rw [hk.stop]
    exact Document.offsetAt_positionAt ht
  refine ⟨hne, ?_, ?_, ?_, ?_, ?_, ?_⟩
  · rw [hk.start, hk.stop]
    exact Document.positionAt_le ht
  · exact d.positionAt_within r.start
  · exact d.positionAt_within r.stop
  · exact ⟨front, middle ++ back, ht.trans (List.append_assoc ..), hs.symm⟩
  · exact ⟨front ++ middle, back, ht, hp.symm⟩
  · have hr : (Replacement.mk (byteSize front) (byteSize (front ++ middle)) r.text).Keeps
        d.text front middle back := ⟨ht, rfl, rfl⟩
    rw [TextEdit.applyTo, hs, hp, hr.apply_eq, ← hf, String.ofList_toList]

/-- What `compute` answers: nothing when the texts are equal, and otherwise
an edit that leads from the one to the other. -/
theorem compute_leadsTo (d : Document) (formatted : String) (mode : Edit.Mode) :
    match compute d formatted mode with
    | .noop => formatted = d.text
    | .replace e => LeadsTo d formatted e := by
  have ha := Edit.replacement?_answers d.text formatted mode
  have hc : compute d formatted mode =
      match mode.replacement? d.text formatted with
      | none => .noop
      | some r => .replace ⟨⟨d.positionAt r.start, d.positionAt r.stop⟩, r.text⟩ := by
    cases mode <;> rfl
  rw [hc]
  cases hr : mode.replacement? d.text formatted with
  | none =>
    rw [hr] at ha
    exact ha
  | some r =>
    rw [hr] at ha
    obtain ⟨hne, front, middle, back, hk, hf⟩ := ha
    exact leadsTo_of_keeps hne hk hf

theorem applyTo_compute (d : Document) (formatted : String) (mode : Edit.Mode) :
    (compute d formatted mode).applyTo d = formatted := by
  have h := compute_leadsTo d formatted mode
  cases hc : compute d formatted mode with
  | noop =>
    rw [hc] at h
    exact h.symm
  | replace e =>
    rw [hc] at h
    exact h.applied

end EditResult

namespace Service

/-- The edits of a request make its document into what `format` gives, for
they go by the same attempt. -/
theorem applyTo_edits (m : Machine) (s : Service) (r : FormatRequest) (mode : Edit.Mode) :
    (edits m r mode s).value.applyTo r.document = (format m r s).value := by
  simp only [edits, format, Run.bind_apply]
  cases (execute m r s).value with
  | none => rfl
  | some formatted => exact EditResult.applyTo_compute r.document formatted mode

/-- **Edits reconstruct the formatter's output.** `compute` answers no edit
exactly when the output is the document's text; otherwise the edit's
positions are in order and no larger than the text's size, lead back to
boundaries between characters, and splicing there gives the output. So from
every state, making the edit of a request gives what `format` gives. -/
theorem edits_reconstruct :
    (∀ (d : Document) (formatted : String) (mode : Edit.Mode),
      match EditResult.compute d formatted mode with
      | .noop => formatted = d.text
      | .replace e => EditResult.LeadsTo d formatted e) ∧
    ∀ (m : Machine) (s : Service) (r : FormatRequest) (mode : Edit.Mode),
      (edits m r mode s).value.applyTo r.document = (format m r s).value :=
  ⟨EditResult.compute_leadsTo, applyTo_edits⟩

end Service
end FormatHost
