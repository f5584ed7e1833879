/-
FormatHost.Proofs.Glob.Wildcards — patterns of plain characters, `?` and `*`.

Without brackets, braces, backslashes and double stars a pattern is read
character by character, and a text matches when it falls into pieces, one for
each character. In a dialect where `?` and `*` stop at slashes the pieces of a
text have as many slashes as the pattern, so that text and pattern correspond
component by component. In a dialect where they do not stop, a piece can have
slashes of its own, and what more a pattern matches are texts with more
slashes than it has.

* §1 reading: `parse_wildcard`;
* §2 `Fits`: the pieces of a text; `isMatch_wildcard_iff`;
* §3 slashes in pattern and text: `fits_separating_iff`;
* §4 components: `fits_iff_components`.
-/
import FormatHost.Proofs.Glob.Taking
import Mathlib.Data.List.Forall2
import Mathlib.Data.List.Infix

namespace FormatHost.Glob

open Text

/-! ## §1 Reading -/

/-- A pattern in which every character stands for itself or is a `?` or a
single star. -/
structure IsWildcard (p : List Char) : Prop where
  takeThemselves : p.all takesItself = true
  single : ¬ ['*', '*'] <:+: p

instance (p : List Char) : Decidable (IsWildcard p) :=
  decidable_of_iff (_ ∧ _) ⟨fun ⟨h, h'⟩ => ⟨h, h'⟩, fun h => ⟨h.takeThemselves, h.single⟩⟩

variable {d : Dialect} {p q : List Char} {c : Char} {a b bs : List UInt8}

theorem IsWildcard.head (h : IsWildcard (c :: p)) : takesItself c = true :=
  List.all_eq_true.mp h.takeThemselves c (List.mem_cons_self ..)

theorem IsWildcard.tail (h : IsWildcard (c :: p)) : IsWildcard p where
  takeThemselves := (Bool.and_eq_true_iff.mp h.takeThemselves).2
  single hs := h.single (hs.trans (List.suffix_cons c p).isInfix)

theorem IsWildcard.head?_ne (h : IsWildcard (c :: p)) (hc : c = '*') : p.head? ≠ some '*' := by
  subst hc
  intro hp
  obtain ⟨p, rfl⟩ := List.head?_eq_some_iff.mp hp
  exact h.single (List.prefix_append ['*', '*'] p).isInfix

theorem readTokens_wildcard (h : IsWildcard p) (before : Option Char) (ts : List Token) :
    readTokens d false before ⟨ts, []⟩ p = .ok ⟨(p.map charToken).reverse ++ ts, []⟩ := by
  induction p generalizing before ts with
  | nil => simp [readTokens]
  | cons c p ih =>
    rw [readTokens_char d before ts h.head h.head?_ne, ih h.tail, List.map_cons,
      List.reverse_cons, List.append_assoc]
    rfl

theorem parse_wildcard {p : String} (h : IsWildcard p.toList) :
    parse d p = .ok ⟨p, d, p.toList.map charToken⟩ := by
  have hread := readTokens_wildcard (d := d) h none []
  simp [parse, parseTokens, hread, Reading.inBraces, Except.map]

/-! ## §2 Matching -/

/-- What a character of a pattern stands for. -/
def StandsFor (d : Dialect) : Char → List UInt8 → Prop
  | '*', a => ∀ b ∈ a, d.takes b = true
  | '?', a => ∃ b, d.takes b = true ∧ a = [b]
  | c, a => a = String.utf8EncodeChar c

/-- The text falls into pieces that the characters of the pattern stand for. -/
inductive Fits (d : Dialect) : List Char → List UInt8 → Prop
  | nil : Fits d [] []
  | cons {c : Char} {p : List Char} {a bs : List UInt8} :
    StandsFor d c a → Fits d p bs → Fits d (c :: p) (a ++ bs)

theorem fits_nil_iff : Fits d [] bs ↔ bs = [] := by
  constructor
  · rintro ⟨⟩
    rfl
  · rintro rfl
    exact .nil

theorem fits_cons_iff :
    Fits d (c :: p) bs ↔ ∃ a rest, bs = a ++ rest ∧ StandsFor d c a ∧ Fits d p rest := by
  constructor
  · rintro ⟨⟩
    exact ⟨_, _, rfl, ‹_›, ‹_›⟩
  · rintro ⟨a, rest, rfl, ha, hrest⟩
    exact .cons ha hrest

theorem mem_tailsWhile_iff {f : UInt8 → Bool} {rest : List UInt8} :
    rest ∈ tailsWhile f bs ↔ ∃ a, bs = a ++ rest ∧ ∀ b ∈ a, f b = true := by
  constructor
  · intro h
    induction bs with
    | nil =>
      obtain rfl : rest = [] := by simpa [tailsWhile] using h
      exact ⟨[], rfl, List.forall_mem_nil _⟩
    | cons b bs ih =>
      rw [tailsWhile, List.mem_cons] at h
      rcases h with rfl | h
      · exact ⟨[], rfl, List.forall_mem_nil _⟩
      · split at h
        · rename_i hb
          obtain ⟨a, rfl, ha⟩ := ih h
          exact ⟨b :: a, rfl, List.forall_mem_cons.mpr ⟨hb, ha⟩⟩
        · cases h
  · rintro ⟨a, rfl, ha⟩
    exact mem_tailsWhile ha rest

theorem standsFor_literal_iff (hstar : c ≠ '*') (hany : c ≠ '?') :
    StandsFor d c a ↔ a = String.utf8EncodeChar c := by
  unfold StandsFor
  split
  · exact absurd rfl hstar
  · exact absurd rfl hany
  · rfl

theorem mem_residues_charToken_iff {rest : List UInt8} :
    rest ∈ residues d (charToken c) bs ↔ ∃ a, bs = a ++ rest ∧ StandsFor d c a := by
  by_cases hstar : c = '*'
  · subst hstar
    exact mem_tailsWhile_iff
  by_cases hany : c = '?'
  · subst hany
    constructor
    · intro h
      cases bs with
      | nil => cases h
      | cons b bs =>
        change rest ∈ if d.takes b then [bs] else [] at h
        split at h
        · obtain rfl := List.mem_singleton.mp h
          exact ⟨[b], rfl, b, ‹_›, rfl⟩
        · cases h
    · rintro ⟨a, rfl, b, hb, rfl⟩
      change rest ∈ if d.takes b then [rest] else []
      rw [if_pos hb]
      exact List.mem_singleton_self _
  · rw [charToken_eq_literal hstar hany, residues, Option.mem_toList]
    simp only [standsFor_literal_iff hstar hany, exists_eq_right]
    constructor
    · exact eq_append_of_stripFront
    · rintro rfl
      exact stripFront_append ..

theorem nil_mem_listResidues_iff :
    [] ∈ listResidues d (p.map charToken) [bs] ↔ Fits d p bs := by
  induction p generalizing bs with
  | nil => rw [List.map_nil, listResidues, List.mem_singleton, fits_nil_iff, eq_comm]
  | cons c p ih =>
    rw [List.map_cons, listResidues, mem_listResidues_iff, fits_cons_iff]
    simp only [List.mem_eraseDups, List.flatMap_cons, List.flatMap_nil, List.append_nil,
      mem_residues_charToken_iff, ih]
    constructor
    · rintro ⟨rest, ⟨a, rfl, ha⟩, hrest⟩
      exact ⟨a, rest, rfl, ha, hrest⟩
    · rintro ⟨a, rest, rfl, ha, hrest⟩
      exact ⟨rest, ⟨a, rfl, ha⟩, hrest⟩

/-- A wildcard pattern matches the texts that fall into pieces for it. -/
theorem isMatch_wildcard_iff {p : String} {text : String} :
    isMatch ⟨p, d, p.toList.map charToken⟩ text = true ↔
      Fits d p.toList (Utf8.encode text.toList) := by
  rw [isMatch, matchesBytes]
  split
  · rename_i hfront
    have hmem : Token.recursiveFront ∈ p.toList.map charToken := by
      change p.toList.map charToken = _ at hfront
      rw [hfront]
      exact List.mem_singleton_self _
    obtain ⟨c, -, hc⟩ := List.mem_map.mp hmem
    unfold charToken at hc
    split at hc <;> cases hc
  · rw [List.contains_iff_mem, nil_mem_listResidues_iff]

/-! ## §3 Slashes -/

theorem count_slash_singleton (hc : c ≠ '/') : [c].count '/' = 0 :=
  List.count_eq_zero_of_not_mem (by simpa using Ne.symm hc)

/-- Only a slash has the byte of a slash. -/
theorem count_slash_encodeChar (c : Char) :
    (String.utf8EncodeChar c).count slash = [c].count '/' := by
  by_cases hc : c = '/'
  · subst hc
    decide
  · have hnat : c.val.toNat ≠ 47 := fun h => hc (Char.ext (UInt32.toNat_inj.mp h))
    have hbyte : ∀ n, n % 256 ≠ 47 → slash ≠ UInt8.ofNat n := by
      intro n hn h
      have hmod : 47 = n % 256 := congrArg UInt8.toNat h
      exact hn hmod.symm
    have hnot : slash ∉ String.utf8EncodeChar c := by
      fun_cases String.utf8EncodeChar c
      all_goals
        intro h
        simp only [List.mem_cons, List.not_mem_nil, or_false] at h
      · exact hbyte _ (by omega) h
      · rcases h with h | h <;> exact hbyte _ (by omega) h
      · rcases h with h | h | h <;> exact hbyte _ (by omega) h
      · rcases h with h | h | h | h <;> exact hbyte _ (by omega) h
    rw [List.count_eq_zero_of_not_mem hnot, count_slash_singleton hc]

theorem count_slash_cons (c : Char) (cs : List Char) :
    (c :: cs).count '/' = [c].count '/' + cs.count '/' := by
  rw [← List.singleton_append, List.count_append]

theorem count_slash_encode (cs : List Char) : (Utf8.encode cs).count slash = cs.count '/' := by
  induction cs with
  | nil => rfl
  | cons c cs ih =>
    have hcons : Utf8.encode (c :: cs) = String.utf8EncodeChar c ++ Utf8.encode cs := rfl
    rw [hcons, List.count_append, count_slash_encodeChar, ih, ← count_slash_cons]

theorem takes_iff_of_separating (hd : d.literalSeparator = true) {b : UInt8} :
    d.takes b = true ↔ b ≠ slash := by
  simp [Dialect.takes, hd]

/-- Where `?` and `*` stop at slashes, a piece has as many of them as its
character. -/
theorem standsFor_separating_iff (hd : d.literalSeparator = true) :
    StandsFor d c a ↔ StandsFor {} c a ∧ [c].count '/' = a.count slash := by
  have hnone : c ≠ '/' → ([c].count '/' = a.count slash ↔ slash ∉ a) := fun hc => by
    rw [count_slash_singleton hc, eq_comm, List.count_eq_zero]
  by_cases hstar : c = '*'
  · subst hstar
    rw [hnone (by decide)]
    constructor
    · intro h
      exact ⟨fun _ _ => rfl, fun hm => (takes_iff_of_separating hd).mp (h _ hm) rfl⟩
    · rintro ⟨-, hm⟩ b hb
      exact (takes_iff_of_separating hd).mpr fun he => hm (he ▸ hb)
  by_cases hany : c = '?'
  · subst hany
    rw [hnone (by decide)]
    constructor
    · rintro ⟨b, hb, rfl⟩
      refine ⟨⟨b, rfl, rfl⟩, ?_⟩
      rw [List.mem_singleton]
      exact Ne.symm ((takes_iff_of_separating hd).mp hb)
    · rintro ⟨⟨b, -, rfl⟩, hm⟩
      exact ⟨b, (takes_iff_of_separating hd).mpr fun he => hm (he ▸ List.mem_singleton_self _), rfl⟩
  · simp only [standsFor_literal_iff hstar hany]
    refine ⟨fun h => ⟨h, ?_⟩, And.left⟩
    rw [h, count_slash_encodeChar]

theorem StandsFor.count_le (h : StandsFor d c a) : [c].count '/' ≤ a.count slash := by
  by_cases hc : c = '/'
  · subst hc
    obtain rfl := (standsFor_literal_iff (by decide) (by decide)).mp h
    exact Nat.le_of_eq (count_slash_encodeChar '/').symm
  · rw [count_slash_singleton hc]
    exact Nat.zero_le _

theorem Fits.count_le (h : Fits d p bs) : p.count '/' ≤ bs.count slash := by
  induction h with
  | nil => exact Nat.le_refl _
  | @cons c p a bs ha _ ih =>
    rw [count_slash_cons, List.count_append]
    exact Nat.add_le_add ha.count_le ih

/-- What stops at slashes leaves as many of them in the text as the pattern
has. -/
theorem fits_separating_iff (hd : d.literalSeparator = true) :
    Fits d p bs ↔ Fits {} p bs ∧ p.count '/' = bs.count slash := by
  induction p generalizing bs with
  | nil =>
    simp only [fits_nil_iff]
    refine ⟨fun h => ⟨h, ?_⟩, And.left⟩
    rw [h]
    rfl
  | cons c p ih =>
    simp only [fits_cons_iff, ih, standsFor_separating_iff hd]
    constructor
    · rintro ⟨a, rest, rfl, ⟨ha, hc⟩, hrest, hp⟩
      refine ⟨⟨a, rest, rfl, ha, hrest⟩, ?_⟩
      rw [count_slash_cons, List.count_append, hc, hp]
    · rintro ⟨⟨a, rest, rfl, ha, hrest⟩, hcount⟩
      rw [count_slash_cons, List.count_append] at hcount
      have hle := ha.count_le
      have hle' := hrest.count_le
      exact ⟨a, rest, rfl, ⟨ha, by omega⟩, hrest, by omega⟩

/-! ## §4 Components -/

theorem fits_append_iff :
    Fits d (p ++ q) bs ↔ ∃ a b, bs = a ++ b ∧ Fits d p a ∧ Fits d q b := by
  induction p generalizing bs with
  | nil =>
    constructor
    · intro h
      exact ⟨[], bs, rfl, .nil, h⟩
    · rintro ⟨a, b, rfl, ha, hb⟩
      rw [fits_nil_iff.mp ha]
      exact hb
  | cons c p ih =>
    simp only [List.cons_append, fits_cons_iff, ih]
    constructor
    · rintro ⟨a, _, rfl, ha, b, e, rfl, hb, he⟩
      exact ⟨a ++ b, e, by rw [List.append_assoc], ⟨a, b, rfl, ha, hb⟩, he⟩
    · rintro ⟨_, e, rfl, ⟨a, b, rfl, ha, hb⟩, he⟩
      exact ⟨a, b ++ e, by rw [List.append_assoc], ha, b, e, rfl, hb, he⟩

theorem slash_notMem_encode {cs : List Char} (h : '/' ∉ cs) : slash ∉ Utf8.encode cs := by
  rw [← List.count_eq_zero, count_slash_encode, List.count_eq_zero]
  exact h

theorem takeWhile_to_slash (ha : slash ∉ a) : (a ++ slash :: b).takeWhile (· != slash) = a := by
  rw [List.takeWhile_append_of_pos fun x hx => by simpa using ne_of_mem_of_not_mem hx ha]
  simp
/-- Where `?` and `*` stop at slashes, the first slash of a pattern stands for
the first one of the text. -/
theorem fits_separating_append_iff (hd : d.literalSeparator = true) (hp : '/' ∉ p)
    (ha : slash ∉ a) :
    Fits d (p ++ '/' :: q) (a ++ slash :: b) ↔ Fits d p a ∧ Fits d q b := by
  have hslash : String.utf8EncodeChar '/' = [slash] := by decide
  rw [fits_append_iff]
  simp only [fits_cons_iff, standsFor_literal_iff (c := '/') (by decide) (by decide), hslash]
  constructor
  · rintro ⟨u, _, hbytes, hu, _, w, rfl, rfl, hw⟩
    have hu' : slash ∉ u := by
      rw [← List.count_eq_zero, ← ((fits_separating_iff hd).mp hu).2, List.count_eq_zero]
      exact hp
    have hfront := congrArg (List.takeWhile (· != slash)) hbytes
    rw [List.singleton_append, takeWhile_to_slash ha, takeWhile_to_slash hu'] at hfront
    subst hfront
    obtain rfl : b = w := by simpa using hbytes
    exact ⟨hu, hw⟩
  · rintro ⟨hpa, hqb⟩
    exact ⟨a, slash :: b, rfl, hpa, [slash], b, rfl, rfl, hqb⟩

theorem Fits.slash_mem_iff (hd : d.literalSeparator = true) {cs : List Char}
    (h : Fits d p (Utf8.encode cs)) : '/' ∈ p ↔ '/' ∈ cs := by
  rw [← List.count_pos_iff, ((fits_separating_iff hd).mp h).2, count_slash_encode,
    List.count_pos_iff]

theorem fits_slashless_iff (hd : d.literalSeparator = true) {cs : List Char} (hp : '/' ∉ p)
    (hc : '/' ∉ cs) : Fits d p (Utf8.encode cs) ↔ Fits {} p (Utf8.encode cs) := by
  rw [fits_separating_iff hd, count_slash_encode, List.count_eq_zero_of_not_mem hp,
    List.count_eq_zero_of_not_mem hc]
  exact and_iff_left rfl

theorem fits_join_iff (hd : d.literalSeparator = true) {ps cs : List (List Char)}
    (hps : ps ≠ []) (hcs : cs ≠ []) (hp : ∀ q ∈ ps, '/' ∉ q) (hc : ∀ piece ∈ cs, '/' ∉ piece) :
    Fits d (joinWith '/' ps) (Utf8.encode (joinWith '/' cs)) ↔
      List.Forall₂ (fun q piece => Fits {} q (Utf8.encode piece)) ps cs := by
  induction ps generalizing cs with
  | nil => exact absurd rfl hps
  | cons p ps ih =>
    cases cs with
    | nil => exact absurd rfl hcs
    | cons piece cs =>
      rw [List.forall_mem_cons] at hp hc
      rw [List.forall₂_cons, ← fits_slashless_iff hd hp.1 hc.1]
      match ps, cs with
      | [], [] => simp [joinWith]
      | [], next :: cs =>
        refine iff_of_false (fun h => hp.1 ((h.slash_mem_iff hd).mpr ?_)) (by simp)
        simp [joinWith]
      | q :: ps, [] =>
        refine iff_of_false (fun h => hc.1 ((h.slash_mem_iff hd).mp ?_)) (by simp)
        simp [joinWith]
      | q :: ps, next :: cs =>
        have hslash : Utf8.encode ('/' :: joinWith '/' (next :: cs)) =
            slash :: Utf8.encode (joinWith '/' (next :: cs)) := rfl
        rw [← ih (List.cons_ne_nil _ _) (List.cons_ne_nil _ _) hp.2 hc.2]
        simp only [joinWith]
        rw [Utf8.encode_append, hslash,
          fits_separating_append_iff hd hp.1 (slash_notMem_encode hc.1)]

theorem fits_iff_components (hd : d.literalSeparator = true) {p cs : List Char} :
    Fits d p (Utf8.encode cs) ↔
      List.Forall₂ (fun q piece => Fits {} q (Utf8.encode piece))
        (splitAll '/' p) (splitAll '/' cs) := by
  have h := fits_join_iff hd (splitAll_ne_nil '/' p) (splitAll_ne_nil '/' cs)
    (fun _ => not_mem_of_mem_splitAll) fun _ => not_mem_of_mem_splitAll
  rwa [joinWith_splitAll, joinWith_splitAll] at h

end FormatHost.Glob
