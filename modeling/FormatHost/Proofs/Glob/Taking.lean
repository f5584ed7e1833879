/-
FormatHost.Proofs.Glob.Taking — text that a pattern takes when it is read
as a glob itself.

A text that goes into a pattern without escapes is read like the rest of the
pattern. Characters without a meaning take themselves; so do `?` and `*`,
which can take anything. `**` between slashes becomes one token together
with the slash before it, and that token takes what was there, too. What is
left out are brackets, braces and the backslash, which do not take
themselves.

* §1 `Takes`: the tokens can take a text off the front of any other;
* §2 single tokens;
* §3 `Reading.Covers`: the tokens read so far take the text they were read
  from, kept from character to character;
* §4 `readTokens_folder`: a whole folder.
-/
import FormatHost.Proofs.Glob.Names

namespace FormatHost.Glob

open Text

/-! ## §1 Taking a text off the front -/

section Takes

variable {d : Dialect} {ts us : List Token} {a b : List UInt8}

/-- Whatever is left of several texts is left of one of them. -/
theorem mem_listResidues_iff {x : List UInt8} {left : List (List UInt8)} :
    x ∈ listResidues d ts left ↔ ∃ y ∈ left, x ∈ listResidues d ts [y] := by
  induction ts generalizing left with
  | nil => simp [listResidues]
  | cons t ts ih =>
    simp only [listResidues]
    rw [ih]
    constructor
    · rintro ⟨z, hz, hx⟩
      obtain ⟨y, hy, hz⟩ := List.mem_flatMap.mp (List.mem_eraseDups.mp hz)
      exact ⟨y, hy, ih.mpr ⟨z, by simpa using hz, hx⟩⟩
    · rintro ⟨y, hy, hx⟩
      obtain ⟨z, hz, hx⟩ := ih.mp hx
      exact ⟨z, List.mem_eraseDups.mpr (List.mem_flatMap.mpr ⟨y, hy, by simpa using hz⟩), hx⟩

theorem listResidues_append (left : List (List UInt8)) :
    listResidues d (ts ++ us) left = listResidues d us (listResidues d ts left) := by
  induction ts generalizing left with
  | nil => rfl
  | cons t ts ih => exact ih _

/-- The tokens can take the text off the front, whatever follows it. -/
def Takes (d : Dialect) (ts : List Token) (a : List UInt8) : Prop :=
  ∀ rest, rest ∈ listResidues d ts [a ++ rest]

theorem takes_nil : Takes d [] [] := fun _ => List.mem_singleton_self _

theorem Takes.append (ha : Takes d ts a) (hb : Takes d us b) : Takes d (ts ++ us) (a ++ b) := by
  intro rest
  rw [listResidues_append, List.append_assoc]
  exact mem_listResidues_iff.mpr ⟨b ++ rest, ha _, hb rest⟩

theorem takes_singleton {t : Token} (h : ∀ rest, rest ∈ residues d t (a ++ rest)) :
    Takes d [t] a := by
  intro rest
  simpa [listResidues] using h rest

/-! ## §2 Single tokens -/

theorem takes_literals (cs : List Char) : Takes d (literals cs) (Utf8.encode cs) := by
  intro rest
  rw [listResidues_literals]
  exact List.mem_singleton_self _

theorem takes_literal (c : Char) : Takes d [.literal c] (Utf8.encode [c]) := takes_literals [c]

theorem takes_any {b : UInt8} (h : d.takes b = true) : Takes d [.any] [b] :=
  takes_singleton fun rest => by simp [residues, h]

theorem mem_tailsWhile {p : UInt8 → Bool} (h : ∀ b ∈ a, p b = true) (rest : List UInt8) :
    rest ∈ tailsWhile p (a ++ rest) := by
  induction a with
  | nil => cases rest <;> simp [tailsWhile]
  | cons b a ih =>
    rw [List.cons_append, tailsWhile, if_pos (h b (List.mem_cons_self ..))]
    exact List.mem_cons_of_mem _ (ih fun b hb => h b (List.mem_cons_of_mem _ hb))

theorem takes_zeroOrMore (h : ∀ b ∈ a, d.takes b = true) : Takes d [.zeroOrMore] a :=
  takes_singleton fun rest => by
    rw [residues]
    exact mem_tailsWhile h rest

/-- Directories between two slashes can be just the one slash. -/
theorem takes_recursiveMiddle_slash : Takes d [.recursiveMiddle] [slash] :=
  takes_singleton fun rest => by simp [residues]

theorem takes_recursiveMiddle (a : List UInt8) :
    Takes d [.recursiveMiddle] (slash :: (a ++ [slash])) :=
  takes_singleton fun rest => by
    have hrest := List.mem_cons_of_mem (a ++ slash :: rest) (mem_afterSlashes a rest)
    simpa [residues] using hrest

theorem takes_alternatives {branches : List (List Token)} (hm : ts ∈ branches)
    (hs : allSilent ts = false) (ha : Takes d ts a) : Takes d [.alternatives branches] a :=
  takes_singleton fun rest => by
    obtain ⟨hsome, hrest⟩ := mem_branchResidues hm hs (ha rest)
    rwa [residues, hsome, if_neg Bool.false_ne_true]

end Takes

/-- Tokens that can take all of a text match it. -/
theorem matchesBytes_of_takes {g : Glob} {a : List UInt8} (h : Takes g.dialect g.tokens a) :
    g.matchesBytes a = true := by
  unfold matchesBytes
  split
  · rfl
  · have hall := h []
    rw [List.append_nil] at hall
    exact List.contains_iff_mem.mpr hall

/-! ## §3 What has been read -/

/-- The tokens take the text. After a slash, the last of them stands for
that slash, so that `**` can follow it: `before` is the last character. -/
structure Covers (before : Option Char) (ts : List Token) (cs : List Char) : Prop where
  ne_nil : ts ≠ []
  takes : Takes {} ts.reverse (Utf8.encode cs)
  slash : before = some '/' → ∃ t us a b, ts = t :: us ∧
    (t = .literal '/' ∨ t = .recursiveMiddle) ∧ Takes {} us.reverse a ∧
      Utf8.encode cs = a ++ slash :: b

section Covers

variable {before : Option Char} {ts : List Token} {cs : List Char}

theorem covers_slash : Covers (some '/') [.literal '/'] ['/'] where
  ne_nil := List.cons_ne_nil _ _
  takes := takes_literal '/'
  slash _ := ⟨.literal '/', [], [], [], rfl, .inl rfl, takes_nil, rfl⟩

/-- One more token, for one more character. -/
theorem Covers.push (h : Covers before ts cs) {t : Token} {c : Char}
    (ht : Takes {} [t] (Utf8.encode [c])) (hc : c = '/' → t = .literal '/') :
    Covers (some c) (t :: ts) (cs ++ [c]) where
  ne_nil := List.cons_ne_nil _ _
  takes := by
    rw [List.reverse_cons, Utf8.encode_append]
    exact h.takes.append ht
  slash hslash := by
    obtain rfl := Option.some.inj hslash
    exact ⟨t, ts, Utf8.encode cs, [], rfl, .inl (hc rfl), h.takes, Utf8.encode_append ..⟩

theorem takes_star : Takes {} [.zeroOrMore] (Utf8.encode ['*']) := takes_zeroOrMore fun _ _ => rfl

theorem Covers.star (h : Covers before ts cs) :
    Covers (some '*') (.zeroOrMore :: ts) (cs ++ ['*']) :=
  h.push takes_star fun hc => absurd hc (by decide)

/-- A `**` between slashes replaces the token of the slash before it. -/
theorem Covers.readTokens_directories (h : Covers (some '/') ts cs) :
    ∃ us a b, Takes {} us.reverse a ∧ Utf8.encode cs = a ++ Glob.slash :: b ∧
      ∀ rest, readTokens {} false (some '/') ⟨ts, []⟩ ('*' :: '*' :: '/' :: rest) =
        readTokens {} false (some '/') ⟨.recursiveMiddle :: us, []⟩ rest := by
  obtain ⟨t, us, a, b, rfl, ht, hus, hcs⟩ := h.slash rfl
  refine ⟨us, a, b, hus, hcs, fun rest => ?_⟩
  have hrec : Reading.recursion ⟨t :: us, []⟩ (some '/') ('/' :: rest) =
      (⟨.recursiveMiddle :: us, []⟩, 1) := by
    rcases ht with rfl | rfl <;> simp [Reading.recursion]
  rw [readTokens, hrec]
  rfl

/-- What it then stands for takes that slash, the two stars and the slash
after them. -/
theorem covers_recursiveMiddle {a b : List UInt8} (hts : Takes {} ts.reverse a)
    (hcs : Utf8.encode cs = a ++ slash :: b) :
    Covers (some '/') (.recursiveMiddle :: ts) (cs ++ ['*', '*', '/']) := by
  have hbytes : Utf8.encode (cs ++ ['*', '*', '/']) =
      a ++ slash :: (b ++ Utf8.encode ['*', '*'] ++ [slash]) := by
    rw [Utf8.encode_append, hcs, List.append_assoc, List.append_assoc]
    rfl
  refine ⟨List.cons_ne_nil _ _, ?_, fun _ => ⟨_, ts, a, _, rfl, .inr rfl, hts, hbytes⟩⟩
  rw [hbytes, List.reverse_cons]
  exact hts.append (takes_recursiveMiddle _)

/-- Any other `**` is read as two stars. -/
theorem recursion_plain {rest : List Char} (hts : ts ≠ []) (hrest : rest ≠ [])
    (h : ¬ (before = some '/' ∧ rest.head? = some '/')) :
    Reading.recursion ⟨ts, []⟩ before rest = (⟨.zeroOrMore :: .zeroOrMore :: ts, []⟩, 0) := by
  have hne : ts.isEmpty = false := by simpa using hts
  unfold Reading.recursion
  simp only [hne, Bool.false_eq_true, if_false]
  split
  · rfl
  · rename_i hbefore
    have hslash : before = some '/' := Decidable.not_not.mp fun hb => hbefore ⟨hb, .inl rfl⟩
    cases rest with
    | nil => exact absurd rfl hrest
    | cons c rest =>
      have hc : c ≠ '/' := fun hc => h ⟨hslash, congrArg some hc⟩
      split
      · contradiction
      · simp_all
      all_goals rfl

theorem Covers.readTokens_stars (hts : Covers before ts cs) {rest : List Char} (hrest : rest ≠ [])
    (h : ¬ (before = some '/' ∧ rest.head? = some '/')) :
    readTokens {} false before ⟨ts, []⟩ ('*' :: '*' :: rest) =
      readTokens {} false (some '*') ⟨.zeroOrMore :: .zeroOrMore :: ts, []⟩ rest := by
  rw [readTokens, recursion_plain hts.ne_nil hrest h]
  rfl

end Covers

/-! ## §4 A folder -/

/-- Characters that take themselves when they are read in a pattern. -/
def takesItself (c : Char) : Bool := !(['[', '\x7b', '\x7d', '\\'].contains c)

theorem isPlain_of_takesItself {c : Char} (hc : takesItself c = true) (hany : c ≠ '?')
    (hstar : c ≠ '*') (hcomma : c ≠ ',') : isPlain c = true := by
  have hne : c ≠ '[' ∧ c ≠ '\x7b' ∧ c ≠ '\x7d' ∧ c ≠ '\\' := by simpa [takesItself] using hc
  simpa [isPlain, specials] using ⟨hany, hstar, hne.1, hne.2.1, hne.2.2.1, hcomma, hne.2.2.2⟩

/-- What such a character is read as, unless it is one of two stars. -/
def charToken : Char → Token
  | '*' => .zeroOrMore
  | '?' => .any
  | c => .literal c

theorem charToken_eq_literal {c : Char} (hstar : c ≠ '*') (hany : c ≠ '?') :
    charToken c = .literal c := by
  unfold charToken
  split
  · exact absurd rfl hstar
  · exact absurd rfl hany
  · rfl

theorem takes_charToken (c : Char) : Takes {} [charToken c] (Utf8.encode [c]) := by
  unfold charToken
  split
  · exact takes_star
  · exact takes_any rfl
  · exact takes_literal c

theorem readTokens_char (d : Dialect) (before : Option Char) (ts : List Token) {c : Char}
    (hc : takesItself c = true) {rest : List Char} (hstar : c = '*' → rest.head? ≠ some '*') :
    readTokens d false before ⟨ts, []⟩ (c :: rest) =
      readTokens d false (some c) ⟨charToken c :: ts, []⟩ rest := by
  by_cases h1 : c = '*'
  · subst h1
    cases rest with
    | nil => simp [readTokens, Reading.push, charToken]
    | cons c rest =>
      have hc : c ≠ '*' := fun h => hstar rfl (congrArg some h)
      rw [readTokens]
      · rfl
      · simpa using hc
  · by_cases h2 : c = '?'
    · subst h2
      rw [readTokens]
      rfl
    · rw [charToken_eq_literal h1 h2]
      by_cases h3 : c = ','
      · subst h3
        rw [readTokens]
        rfl
      · exact readTokens_plain_cons _ (isPlain_of_takesItself hc h2 h1 h3) rest

/-- Text up to a slash is read as tokens that take it. -/
theorem readTokens_covers {before : Option Char} {ts : List Token} {cs : List Char}
    (hcs : ∀ c ∈ cs, takesItself c = true) {done : List Char} (h : Covers before ts done)
    (rest : List Char) :
    ∃ us, readTokens {} false before ⟨ts, []⟩ (cs ++ '/' :: rest) =
        readTokens {} false (some '/') ⟨us, []⟩ rest ∧
      Covers (some '/') us (done ++ cs ++ ['/']) := by
  match cs with
  | [] =>
    refine ⟨.literal '/' :: ts, readTokens_plain_cons _ (by decide) rest, ?_⟩
    rw [List.append_nil]
    exact h.push (takes_literal '/') fun _ => rfl
  | c :: cs =>
    by_cases hdouble : c = '*' ∧ cs.head? = some '*'
    · obtain ⟨rfl, hhead⟩ := hdouble
      obtain ⟨cs, rfl⟩ := List.head?_eq_some_iff.mp hhead
      have hcs' : ∀ c ∈ cs, takesItself c = true := fun c hc =>
        hcs c (List.mem_cons_of_mem _ (List.mem_cons_of_mem _ hc))
      by_cases hslash : before = some '/' ∧ (cs ++ '/' :: rest).head? = some '/'
      · -- the slash after the stars is read with them, whether it is the last one or not
        obtain ⟨rfl, hnext⟩ := hslash
        obtain ⟨us, a, b, hus, hdone, hread⟩ := h.readTokens_directories
        have hcover := covers_recursiveMiddle hus hdone
        cases cs with
        | nil => exact ⟨_, hread rest, by simpa using hcover⟩
        | cons c cs =>
          obtain rfl : c = '/' := Option.some.inj hnext
          obtain ⟨vs, hrest, hvs⟩ := readTokens_covers
            (fun c hc => hcs' c (List.mem_cons_of_mem _ hc)) hcover rest
          exact ⟨vs, (hread _).trans hrest, by simpa using hvs⟩
      · obtain ⟨us, hread, hus⟩ := readTokens_covers hcs' h.star.star rest
        exact ⟨us, (h.readTokens_stars (by simp) hslash).trans hread, by simpa using hus⟩
    · have hstar : c = '*' → (cs ++ '/' :: rest).head? ≠ some '*' := by
        intro hc hhead
        cases cs with
        | nil => exact absurd hhead (by simp)
        | cons c' cs => exact hdouble ⟨hc, hhead⟩
      have hstep := readTokens_char {} before ts (hcs c (List.mem_cons_self ..)) hstar
      have hpush := h.push (takes_charToken c) fun hslash => by
        subst hslash
        rfl
      obtain ⟨us, hread, hus⟩ := readTokens_covers
        (fun c hc => hcs c (List.mem_cons_of_mem _ hc)) hpush rest
      exact ⟨us, hstep.trans hread, by simpa using hus⟩
termination_by cs.length

/-- A folder and a slash, at the beginning of a pattern. -/
theorem readTokens_folder {cs : List Char} (hcs : ∀ c ∈ cs, takesItself c = true)
    (hroot : ∀ c, cs.head? = some c → c = '/') (rest : List Char) :
    ∃ us, readTokens {} false none {} (cs ++ '/' :: rest) =
        readTokens {} false (some '/') ⟨us, []⟩ rest ∧
      Covers (some '/') us (cs ++ ['/']) := by
  cases cs with
  | nil => exact ⟨_, readTokens_plain_cons _ (by decide) rest, covers_slash⟩
  | cons c cs =>
    obtain rfl := hroot c rfl
    obtain ⟨us, hread, hus⟩ := readTokens_covers (fun c hc => hcs c (List.mem_cons_of_mem _ hc))
      covers_slash rest
    exact ⟨us, (readTokens_plain_cons _ (by decide) _).trans hread, hus⟩

end FormatHost.Glob
