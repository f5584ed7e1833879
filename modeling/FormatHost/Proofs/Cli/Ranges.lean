/-
FormatHost.Proofs.Cli.Ranges — every range that is asked for reaches the
formatter in order and within the text.

A range comes from an editor, as two positions, or from the command line, as
two offsets in a text `START:END`. Neither need name places of the document.
Both are brought to bytes and then to UTF-16 units, and these conversions
keep the order and end with the text, so what the formatter is told is a
range of the text after all.

* §1 `parse_eq_ok_iff`: the ranges that are read;
* §2 `Formatting.IsOfRange`: calls made for a range;
* §3 `ranges_in_order`.
-/
import FormatHost.Proofs.Cli.Reports
import FormatHost.Proofs.Document.Order
import FormatHost.Proofs.Service.Options
import FormatHost.Proofs.Service.Providing
import FormatHost.Proofs.Text

namespace FormatHost

/-! ## §1 Written ranges -/

namespace Cli.ByteRange

open Text

/-- A decimal number of 64 bits, with a plus sign or none, and blanks around
it. -/
def IsOffset (cs : List Char) (n : Nat) : Prop :=
  ∃ left sign digits right, cs = left ++ (sign ++ digits) ++ right ∧
    (∀ c ∈ left, isBlank c = true) ∧ (∀ c ∈ right, isBlank c = true) ∧
    (sign = [] ∨ sign = ['+']) ∧ digits ≠ [] ∧ (∀ c ∈ digits, c.isDigit = true) ∧
    Nat.ofDigitChars 10 digits 0 = n ∧ n < bitValues 64

/-- Two offsets around a colon, the first not behind the second. -/
def IsRange (raw : String) (i j : Nat) : Prop :=
  ∃ start stop, raw.toList = start ++ ':' :: stop ∧ IsOffset start i ∧ IsOffset stop j ∧ i ≤ j

theorem isBlank_of_isDigit {c : Char} (h : c.isDigit = true) : isBlank c = false := by
  have hn := toNat_of_isDigit h
  simp [isBlank]
  omega

theorem boundedDecimal?_eq_some_iff {cs : List Char} {n : Nat} :
    boundedDecimal? (bitValues 64) cs = some n ↔
      ∃ sign digits, cs = sign ++ digits ∧ (sign = [] ∨ sign = ['+']) ∧ digits ≠ [] ∧
        (∀ c ∈ digits, c.isDigit = true) ∧ Nat.ofDigitChars 10 digits 0 = n ∧ n < bitValues 64 := by
  have hread : ∀ digits : List Char, (decimal? digits).filter (· < bitValues 64) = some n ↔
      digits ≠ [] ∧ (∀ c ∈ digits, c.isDigit = true) ∧ Nat.ofDigitChars 10 digits 0 = n ∧
        n < bitValues 64 := by
    intro digits
    rw [Option.filter_eq_some_iff, decimal?_eq_some_iff, decide_eq_true_iff]
    simp only [and_assoc]
  unfold boundedDecimal?
  dsimp only
  split
  · rename_i rest
    rw [hread]
    constructor
    · exact fun h => ⟨['+'], rest, rfl, .inr rfl, h⟩
    · rintro ⟨sign, digits, he, hs, h⟩
      rcases hs with rfl | rfl
      · -- a plus sign is no digit
        rw [List.nil_append] at he
        exact absurd (h.2.1 '+' (he ▸ List.mem_cons_self ..)) (by decide)
      · obtain ⟨-, rfl⟩ := List.cons.inj he
        exact h
  · rename_i hplus
    rw [hread]
    constructor
    · exact fun h => ⟨[], cs, rfl, .inl rfl, h⟩
    · rintro ⟨sign, digits, rfl, hs, h⟩
      rcases hs with rfl | rfl
      · exact h
      · exact absurd rfl (hplus digits)

/-- **An offset is read exactly when it is written so.** -/
theorem parseOffset_eq_ok_iff {cs : List Char} {n : Nat} :
    parseOffset cs = .ok n ↔ IsOffset cs n := by
  have hread : parseOffset cs = .ok n ↔ boundedDecimal? (bitValues 64) (trim cs) = some n := by
    unfold parseOffset
    cases boundedDecimal? (bitValues 64) (trim cs) <;> simp
  rw [hread, boundedDecimal?_eq_some_iff]
  constructor
  · rintro ⟨sign, digits, ht, h⟩
    obtain ⟨left, right, he, hl, hr⟩ := exists_trim cs
    rw [ht] at he
    exact ⟨left, sign, digits, right, he, hl, hr, h⟩
  · rintro ⟨left, sign, digits, right, rfl, hl, hr, hs, h⟩
    refine ⟨sign, digits, trim_append hl (fun c hc => ?_) hr, hs, h⟩
    rcases List.mem_append.mp hc with hc | hc
    · rcases hs with rfl | rfl
      · cases hc
      · obtain rfl := List.mem_singleton.mp hc
        decide
    · exact isBlank_of_isDigit (h.2.1 c hc)

/-- No offset has a colon in it. -/
theorem IsOffset.colon_not_mem {cs : List Char} {n : Nat} (h : IsOffset cs n) : ':' ∉ cs := by
  obtain ⟨left, sign, digits, right, rfl, hl, hr, hs, -, hd, -⟩ := h
  have hblank : isBlank ':' = false := by decide
  intro hm
  simp only [List.mem_append] at hm
  rcases hm with (hm | hm | hm) | hm
  · exact absurd (hl _ hm) (by simp [hblank])
  · rcases hs with rfl | rfl <;> simp at hm
  · exact absurd (hd _ hm) (by decide)
  · exact absurd (hr _ hm) (by simp [hblank])

/-- **A range is read exactly when it is written as one.** -/
theorem parse_eq_ok_iff {raw : String} {i j : Nat} :
    parse raw = .ok (i, j) ↔ IsRange raw i j := by
  constructor
  · intro h
    unfold parse at h
    split at h
    · cases h
    · rename_i start stop hcut
      obtain ⟨i', hi, h⟩ := exists_of_bind_eq_ok h
      obtain ⟨j', hj, h⟩ := exists_of_bind_eq_ok h
      split at h
      · cases h
      · rename_i hle
        cases h
        exact ⟨start, stop, (splitOnce_eq_some hcut).1, parseOffset_eq_ok_iff.mp hi,
          parseOffset_eq_ok_iff.mp hj, Nat.le_of_not_lt hle⟩
  · rintro ⟨start, stop, hraw, hi, hj, hle⟩
    unfold parse
    rw [hraw, splitOnce_append hi.colon_not_mem]
    simp only [parseOffset_eq_ok_iff.mpr hi, parseOffset_eq_ok_iff.mpr hj, bind, Except.bind,
      if_neg (Nat.not_lt_of_le hle)]

/-- An option that is read as a range is written as one. -/
theorem exists_of_parse? {raw : String} {bounds : Option (Nat × Nat)}
    (h : parse? (some raw) = .ok bounds) :
    ∃ i j, bounds = some (i, j) ∧ IsRange raw i j := by
  have hmap : (parse raw).map some = .ok bounds := h
  cases hp : parse raw with
  | error e =>
    rw [hp] at hmap
    cases hmap
  | ok range =>
    rw [hp] at hmap
    exact ⟨range.1, range.2, (Except.ok.inj hmap).symm, parse_eq_ok_iff.mp hp⟩

/-- Blanks, a plus sign and leading zeros are allowed; the order is not
free. -/
example : (parse " +04 :12").toOption = some (4, 12) ∧ (parse "9:3").toOption = none := by
  decide +kernel

end Cli.ByteRange

/-! ## §2 Ranges of calls -/

open Text

/-- The call is made for a range of a request's document: its options are
those of the request, whose range counts the document's UTF-16 units. -/
structure Formatting.IsOfRange (call : Formatting) (d : Document) (start stop : Nat) : Prop where
  merged : ∃ (c : Situation) (parser : String), c.request.document = d ∧
    call.text = d.text ∧ call.options = c.options parser ∧
    (c.requestOptions parser).range = some (start, stop)
  ordered : start ≤ stop
  within : stop ≤ unitSize d.text.toList

/-- The range of a request, as its options have it. -/
theorem Situation.range_requestOptions {c : Situation} {i j : Nat}
    (h : c.request.range = some (i, j))
    (parser : String) : (c.requestOptions parser).range =
      some (c.request.document.utf16Offset i, c.request.document.utf16Offset j) := by
  rw [requestOptions, h]
  rfl

namespace Service

/-- Every call of a request for a range that is in order is made for the
document's units of that range. -/
theorem isOfRange_of_mem_format {m : Machine} {s : Service} {r : FormatRequest} {i j : Nat}
    (hr : r.range = some (i, j)) (hle : i ≤ j) {call : Formatting}
    (hm : call ∈ formattings (format m r s).events) :
    call.IsOfRange r.document (r.document.utf16Offset i) (r.document.utf16Offset j) := by
  obtain ⟨h, parser, -, -, rfl⟩ := exists_of_mem_formattings hm
  exact
    { merged := ⟨situationWith m s r h, parser, rfl, rfl, rfl,
        Situation.range_requestOptions (c := situationWith m s r h) hr parser⟩
      ordered := r.document.utf16Offset_mono hle
      within := r.document.utf16Offset_le j }

/-- Edits are computed from what formatting gives, with the same calls. -/
theorem formattings_edits (m : Machine) (s : Service) (r : FormatRequest) (mode : Edit.Mode) :
    formattings (edits m r mode s).events = formattings (format m r s).events := by
  unfold edits format
  simp only [Run.bind_apply, formattings_append]
  cases (execute m r s).value <;> rfl

/-- The calls of a provided range are those of its request. -/
theorem mem_format_of_provideRangeEdits {m : Machine} {s : Service} {d : Document} {r : Range}
    {call : Formatting} (hm : call ∈ formattings (provideRangeEdits m d r s).events) :
    call ∈ formattings (format m
      { document := d, range := some (d.offsetAt r.start, d.offsetAt r.stop) }
      (registrationFor m d s).state).events := by
  have hn : NeverFormats (registrationFor m d) :=
    Run.emits_get.bind fun t => neverFormats_ensureRegistered m _ _
  unfold provideRangeEdits at hm
  rw [Run.bind_apply, formattings_append, hn.formattings_eq, List.nil_append] at hm
  split at hm
  · rwa [formattings_edits] at hm
  · cases hm

end Service

namespace Cli

/-- The calls of the command for a written range are made for the range that
is written, of the document that the file is. -/
theorem isOfRange_of_mem_execute {m : Machine} {loader : Loader} {i : Invocation} {file : Path}
    {write force : Bool} {raw : String} {language : Option String} {call : Formatting}
    (hm : call ∈ formattings (execute m loader
      { i with command := .format file write force (some raw) language }).events) :
    ∃ c s d start stop, Context.create m loader i.options = .ok (c, s) ∧
      (c.document file language s).value = .ok d ∧ ByteRange.IsRange raw start stop ∧
      call.IsOfRange d (d.utf16Offset start) (d.utf16Offset stop) := by
  unfold execute at hm
  split at hm
  · cases hm
  · rename_i action c s hprepare
    obtain ⟨ha, hc, rfl⟩ := exists_of_prepare hprepare
    obtain ⟨bounds, hbounds, ha⟩ := exists_of_bind_eq_ok ha
    obtain rfl := Except.ok.inj ha
    obtain ⟨start, stop, rfl, hrange⟩ := ByteRange.exists_of_parse? hbounds
    have hle : start ≤ stop := by
      obtain ⟨-, -, -, -, -, hle⟩ := hrange
      exact hle
    dsimp only at hm
    obtain ⟨d, hd, hm⟩ := formattings_formatFile hm
    exact ⟨c, s, d, start, stop, hc, hd, hrange, Service.isOfRange_of_mem_format rfl hle hm⟩

end Cli

/-! ## §3 Ranges in order -/

/-- **Ranges stay in order.** A later position leads to no earlier offset,
and a later offset has no fewer UTF-16 units before it: those before its
line, and its column. So whenever a request's range is in order, the range
in its options is in order and ends within the text. The calls that are made
for a range of the editor and for a range of the command line are made for
such a range, wherever the ends of the range lie; and a range of the command
line is read exactly when it is two numbers of 64 bits around a colon, of
which the first is not the larger one, each with a plus sign or none and
blanks around it. -/
theorem Document.ranges_in_order (d : Document) :
    (∀ p q : Position, p ≤ q → d.offsetAt p ≤ d.offsetAt q) ∧
    (∀ i j, i ≤ j → d.utf16Offset i ≤ d.utf16Offset j) ∧
    (∀ i, ∃ before line after, LineAt d.text.toList (d.positionAt i).line before line after ∧
      byteSize before ≤ i ∧ (i ≤ byteSize (before ++ line) ∨ after = []) ∧
      d.utf16Offset i = unitSize before + (d.positionAt i).character) ∧
    (∀ (c : Situation) (parser : String) (i j : Nat), c.request.document = d →
      c.request.range = some (i, j) → i ≤ j →
        (c.requestOptions parser).range = some (d.utf16Offset i, d.utf16Offset j) ∧
        d.utf16Offset i ≤ d.utf16Offset j ∧ d.utf16Offset j ≤ unitSize d.text.toList) ∧
    (∀ (m : Machine) (s : Service) (r : Range), r.start ≤ r.stop →
      ∀ call ∈ formattings (Service.provideRangeEdits m d r s).events,
        call.IsOfRange d (d.utf16OffsetAt r.start) (d.utf16OffsetAt r.stop)) ∧
    (∀ raw i j, Cli.ByteRange.parse raw = .ok (i, j) ↔ Cli.ByteRange.IsRange raw i j) ∧
    ∀ (m : Machine) (loader : Loader) (i : Cli.Invocation) (file : Path) (write force : Bool)
      (raw : String) (language : Option String),
      ∀ call ∈ formattings (Cli.execute m loader
        { i with command := .format file write force (some raw) language }).events,
        ∃ c s read start stop, Cli.Context.create m loader i.options = .ok (c, s) ∧
          (c.document file language s).value = .ok read ∧ Cli.ByteRange.IsRange raw start stop ∧
          call.IsOfRange read (read.utf16Offset start) (read.utf16Offset stop) := by
  refine ⟨fun p q => d.offsetAt_mono, fun i j => d.utf16Offset_mono, d.utf16Offset_eq, ?_, ?_,
    fun raw i j => Cli.ByteRange.parse_eq_ok_iff, ?_⟩
  · rintro c parser i j rfl hr hle
    exact ⟨Situation.range_requestOptions hr parser, c.request.document.utf16Offset_mono hle,
      c.request.document.utf16Offset_le j⟩
  · intro m s r hle call hm
    exact Service.isOfRange_of_mem_format rfl (d.offsetAt_mono hle)
      (Service.mem_format_of_provideRangeEdits hm)
  · intro m loader i file write force raw language call hm
    exact Cli.isOfRange_of_mem_execute hm

/-- A range that begins in a line of two characters and ends far behind the
text is formatted up to the end of the text. -/
theorem Document.ranges_in_order_past_end :
    let d := Service.nestedScript
    let r : Range := ⟨⟨0, 1⟩, ⟨9, 9⟩⟩
    let loader := Cli.inferring fun _ => some "typescript"
    let s := Service.fresh defaultPackage loader none {} [⟨"/p/a"⟩] { text := "" }
    let calls := formattings (Service.provideRangeEdits Resolver.nestedInstall d r s).events
    r.start ≤ r.stop ∧ calls.map (·.text) = ["a;"] ∧ ∀ call ∈ calls, call.IsOfRange d 1 2 := by
  intro d r loader s calls
  have hle : r.start ≤ r.stop := .inl (by decide)
  have hcalls : calls.map (·.text) = ["a;"] := by decide +kernel
  have hunits : d.utf16OffsetAt r.start = 1 ∧ d.utf16OffsetAt r.stop = 2 := by decide +kernel
  obtain ⟨-, -, -, -, hprovided, -⟩ := d.ranges_in_order
  have hrange := hprovided Resolver.nestedInstall s r hle
  rw [hunits.1, hunits.2] at hrange
  exact ⟨hle, hcalls, hrange⟩

end FormatHost
