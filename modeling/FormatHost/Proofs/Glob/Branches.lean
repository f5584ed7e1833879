/-
FormatHost.Proofs.Glob.Branches — patterns that end in names between braces.

The reader goes from left to right and looks ahead by one character, except
in a class, where it looks for the closing bracket. So what it makes of a
front of the pattern does not depend on the names behind it, when none of
these has a closing bracket: a class that is open where the names begin is
never closed. And what it makes of a name between the braces depends on that
name alone, when the name has no bracket, brace or backslash that would tie
it to its neighbours. A comma cuts a name in two. Only the set of the pieces
is left of the names, for a text matches when it matches with one of them.

* §1 `next`: one step of the reader;
* §2 fronts of patterns;
* §3 `branchTokens`: what is between two commas;
* §4 `readTokens_braces`: what is between the braces;
* §5 matching: the set of branches counts.
-/
import FormatHost.Proofs.Glob.Taking
import FormatHost.Proofs.Path.Nesting

namespace FormatHost.Glob

open Text

/-! ## §1 One step -/

/-- What has been read after a step: the last character, what it makes, and
how many characters it took besides its first. -/
structure Step where
  before : Char
  reading : Reading
  taken : Nat

/-- The step of the reader at a character with others behind it. -/
def next (before : Option Char) (r : Reading) (c : Char) (rest : List Char) :
    Except Problem Step :=
  match c with
  | '?' => .ok ⟨'?', r.push .any, 0⟩
  | '*' =>
    match rest with
    | '*' :: rest =>
      let (r, n) := r.recursion before rest
      .ok ⟨if n = 0 then '*' else '/', r, n + 1⟩
    | _ => .ok ⟨'*', r.push .zeroOrMore, 0⟩
  | '[' =>
    match readClass rest with
    | .error e => .error e
    | .ok (some (t, n)) => .ok ⟨']', r.push t, n⟩
    | .ok none => .error .unclosedClass
  | '\x7b' => .ok ⟨'\x7b', ⟨[], ([], r.tokens) :: r.opened⟩, 0⟩
  | '\x7d' =>
    match r.opened with
    | [] => .error .unopenedAlternatives
    | (branches, around) :: opened =>
      .ok ⟨'\x7d', ⟨.alternatives (r.tokens.reverse :: branches).reverse :: around, opened⟩, 0⟩
  | ',' =>
    match r.opened with
    | [] => .ok ⟨',', r.push (.literal ','), 0⟩
    | (branches, around) :: opened =>
      .ok ⟨',', ⟨[], (r.tokens.reverse :: branches, around) :: opened⟩, 0⟩
  | '\\' =>
    match rest with
    | [] => .error .danglingEscape
    | c :: _ => .ok ⟨c, r.push (.literal c), 1⟩
  | c => .ok ⟨c, r.push (.literal c), 0⟩

theorem next_plain (before : Option Char) (r : Reading) {c : Char} (hc : isPlain c = true)
    (rest : List Char) : next before r c rest = .ok ⟨c, r.push (.literal c), 0⟩ := by
  have hne : c ≠ '?' ∧ c ≠ '*' ∧ c ≠ '[' ∧ c ≠ '\x7b' ∧ c ≠ '\x7d' ∧ c ≠ ',' ∧ c ≠ '\\' := by
    simpa [isPlain, specials] using hc
  unfold next
  split <;> simp_all

/-- The step of two stars, with what they stand for. -/
def afterStars (found : Reading × Nat) : Step :=
  ⟨if found.2 = 0 then '*' else '/', found.1, found.2 + 1⟩

theorem next_stars (before : Option Char) (r : Reading) (rest : List Char) :
    next before r '*' ('*' :: rest) = .ok (afterStars (r.recursion before rest)) := rfl

theorem next_star (before : Option Char) (r : Reading) {rest : List Char}
    (h : rest.head? ≠ some '*') : next before r '*' rest = .ok ⟨'*', r.push .zeroOrMore, 0⟩ := by
  cases rest with
  | nil => rfl
  | cons c rest =>
    have hc : c ≠ '*' := fun hc => h (congrArg some hc)
    simp [next, hc]

theorem readTokens_star (before : Option Char) (r : Reading) {rest : List Char}
    (h : rest.head? ≠ some '*') :
    readTokens {} false before r ('*' :: rest) =
      readTokens {} false (some '*') (r.push .zeroOrMore) rest := by
  rw [readTokens]
  rintro rest rfl
  exact h rfl

/-- The reader goes on from step to step. -/
theorem readTokens_cons (before : Option Char) (r : Reading) (c : Char) (rest : List Char) :
    readTokens {} false before r (c :: rest) =
      match next before r c rest with
      | .error e => .error e
      | .ok s => readTokens {} false (some s.before) s.reading (rest.drop s.taken) := by
  by_cases hc : isPlain c = true
  · rw [readTokens_plain_cons r hc, next_plain before r hc]
    rfl
  have hspecial : c ∈ specials := by simpa [isPlain] using hc
  obtain ⟨tokens, opened⟩ := r
  simp only [specials, List.mem_cons, List.not_mem_nil, or_false] at hspecial
  rcases hspecial with rfl | rfl | rfl | rfl | rfl | rfl | rfl
  · rw [readTokens]
    rfl
  · by_cases hstars : rest.head? = some '*'
    · obtain ⟨rest, rfl⟩ := List.head?_eq_some_iff.mp hstars
      rw [readTokens, next]
      generalize Reading.recursion ⟨tokens, opened⟩ before rest = after
      obtain ⟨r, n⟩ := after
      cases n <;> rfl
    · rw [readTokens_star before _ hstars, next_star before _ hstars]
      rfl
  · rw [readTokens, next]
    cases readClass rest with
    | error e => rfl
    | ok class? => cases class? <;> rfl
  · rw [readTokens]
    rfl
  · rw [readTokens, next]
    cases opened <;> rfl
  · rw [readTokens, next]
    cases opened <;> rfl
  · cases rest with
    | nil =>
      rw [readTokens]
      rfl
    | cons c rest =>
      rw [readTokens]
      rfl

/-! ## §2 Fronts -/

/-- In a class a character closes it, or cannot stand there, or is kept. -/
theorem readRanges_cons (taken : Nat) (first inRange : Bool) (ranges : List (Char × Char))
    (c : Char) :
    (c = ']' ∧ ∃ closed, ∀ rest,
      readRanges taken first inRange ranges (c :: rest) = .ok (some (closed, taken + 1))) ∨
    (∃ e, ∀ rest, readRanges taken first inRange ranges (c :: rest) = .error e) ∨
    ∃ inRange' ranges', ∀ rest, readRanges taken first inRange ranges (c :: rest) =
      readRanges (taken + 1) false inRange' ranges' rest := by
  by_cases hclose : c = ']'
  · subst hclose
    cases first with
    | true => exact .inr (.inr ⟨_, _, fun rest => by rw [readRanges, if_pos rfl]⟩)
    | false => exact .inl ⟨rfl, _, fun rest => by rw [readRanges, if_neg Bool.false_ne_true]⟩
  refine .inr ?_
  by_cases hfirst : c = '-' ∧ (first = true ∨ inRange = false)
  · obtain ⟨rfl, hkept⟩ := hfirst
    right
    cases first with
    | true => exact ⟨_, _, fun rest => by rw [readRanges, if_pos rfl]⟩
    | false =>
      obtain rfl := hkept.resolve_left Bool.false_ne_true
      exact ⟨_, _, fun rest => by
        rw [readRanges, if_neg Bool.false_ne_true, if_neg Bool.false_ne_true]⟩
  · cases inRange with
    | false =>
      have hdash : c ≠ '-' := fun hc => hfirst ⟨hc, .inr rfl⟩
      exact .inr ⟨_, _, fun rest => by
        rw [readRanges, if_neg Bool.false_ne_true] <;> assumption⟩
    | true =>
      have hend : ∀ rest, readRanges taken first true ranges (c :: rest) =
          (closeRange ranges c >>= fun ranges => readRanges (taken + 1) false false ranges rest) := by
        intro rest
        by_cases hdash : c = '-'
        · subst hdash
          have hlater : first = false := by simpa using hfirst
          rw [readRanges, hlater, if_neg Bool.false_ne_true, if_pos rfl]
        · rw [readRanges, if_pos rfl] <;> assumption
      cases hrange : closeRange ranges c with
      | error e => exact .inl ⟨e, fun rest => by rw [hend, hrange]; rfl⟩
      | ok ranges => exact .inr ⟨false, ranges, fun rest => by rw [hend, hrange]; rfl⟩

/-- A class is not closed by text without closing brackets. -/
theorem readRanges_ne_some {rest : List Char} (h : ']' ∉ rest) (taken : Nat)
    (first inRange : Bool) (ranges : List (Char × Char)) (x : List (Char × Char) × Nat) :
    readRanges taken first inRange ranges rest ≠ .ok (some x) := by
  induction rest generalizing taken first inRange ranges with
  | nil => simp [readRanges]
  | cons c rest ih =>
    obtain ⟨hc, hrest⟩ := List.ne_and_not_mem_of_not_mem_cons h
    obtain ⟨rfl, -⟩ | ⟨e, he⟩ | ⟨inRange', ranges', hkept⟩ :=
      readRanges_cons taken first inRange ranges c
    · exact absurd rfl hc
    · simp [he]
    · rw [hkept]
      exact ih hrest (taken + 1) false inRange' ranges'

/-- Before text without closing brackets, a class is closed in the front, or
not at all. -/
theorem readRanges_front (front : List Char) (taken : Nat) (first inRange : Bool)
    (ranges : List (Char × Char)) :
    (∃ closed n, n ≤ front.length ∧ ∀ rest,
      readRanges taken first inRange ranges (front ++ rest) = .ok (some (closed, taken + n))) ∨
    ∀ rest, ']' ∉ rest → ∀ x, readRanges taken first inRange ranges (front ++ rest) ≠ .ok (some x) := by
  induction front generalizing taken first inRange ranges with
  | nil => exact .inr fun rest h => readRanges_ne_some h taken first inRange ranges
  | cons c front ih =>
    simp only [List.cons_append, List.length_cons]
    obtain ⟨-, closed, hclosed⟩ | ⟨e, he⟩ | ⟨inRange', ranges', hkept⟩ :=
      readRanges_cons taken first inRange ranges c
    · exact .inl ⟨closed, 1, Nat.le_add_left .., fun rest => hclosed _⟩
    · exact .inr fun rest _ x => by simp [he]
    · simp only [hkept]
      refine (ih (taken + 1) false inRange' ranges').imp_left ?_
      rintro ⟨closed, n, hn, hclosed⟩
      exact ⟨closed, n + 1, Nat.succ_le_succ hn, fun rest => by
        rw [hclosed, Nat.add_right_comm, Nat.add_assoc]⟩

/-- The sign of a class is its first character, if it has one. -/
theorem readClass_cons (c : Char) : ∃ negated, ∃ sign ≤ 1, ∀ rest,
    readClass (c :: rest) = (readRanges sign true false [] ((c :: rest).drop sign)).map
      (·.map fun x => (.set negated x.1.reverse, x.2)) := by
  unfold readClass
  by_cases hsigned : c = '!' ∨ c = '^'
  · refine ⟨true, 1, Nat.le_refl _, fun rest => ?_⟩
    split
    rename_i negated sign hsign
    have hpair : (true, 1) = (negated, sign) := by rcases hsigned with rfl | rfl <;> exact hsign
    cases hpair
    generalize readRanges 1 true false [] _ = found
    rcases found with e | _ | x <;> rfl
  · refine ⟨false, 0, Nat.zero_le _, fun rest => ?_⟩
    split
    rename_i hsign
    split at hsign
    · exact absurd (.inl (List.cons.inj ‹_›).1) hsigned
    · exact absurd (.inr (List.cons.inj ‹_›).1) hsigned
    · cases hsign
      generalize readRanges 0 true false [] _ = found
      rcases found with e | _ | x <;> rfl

theorem readClass_front {front : List Char} (hne : front ≠ []) :
    (∃ t n, n ≤ front.length ∧ ∀ rest, readClass (front ++ rest) = .ok (some (t, n))) ∨
    ∀ rest, ']' ∉ rest → ∀ x, readClass (front ++ rest) ≠ .ok (some x) := by
  obtain ⟨c, front, rfl⟩ := List.exists_cons_of_ne_nil hne
  obtain ⟨negated, sign, hsign, hread⟩ := readClass_cons c
  have hlen : sign ≤ (c :: front).length := Nat.le_trans hsign (Nat.le_add_left ..)
  have hdrop : ∀ rest, (c :: (front ++ rest)).drop sign = (c :: front).drop sign ++ rest :=
    fun rest => List.drop_append_of_le_length hlen
  simp only [List.cons_append, hread, hdrop]
  refine (readRanges_front ((c :: front).drop sign) sign true false []).imp ?_ ?_
  · rintro ⟨closed, n, hn, hclosed⟩
    rw [List.length_drop] at hn
    exact ⟨.set negated closed.reverse, sign + n, by omega, fun rest => by rw [hclosed]; rfl⟩
  · intro hopen rest hrest x hx
    cases hr : readRanges sign true false [] ((c :: front).drop sign ++ rest) with
    | error e => simp [hr, Except.map] at hx
    | ok class? =>
      cases class? with
      | none => simp [hr, Except.map] at hx
      | some y => exact hopen rest hrest y hr

/-- The text ends in a character that is read for itself, whatever follows. -/
def EndsPlain (cs : List Char) : Prop := ∀ c ∈ cs.getLast?, isPlain c = true

theorem EndsPlain.drop {cs : List Char} (h : EndsPlain cs) (n : Nat) : EndsPlain (cs.drop n) := by
  intro c hc
  rw [List.getLast?_drop] at hc
  split at hc
  · cases hc
  · exact h c hc

theorem EndsPlain.ne_nil {c : Char} {cs : List Char} (h : EndsPlain (c :: cs))
    (hc : isPlain c = false) : cs ≠ [] := by
  rintro rfl
  exact Bool.false_ne_true (hc.symm.trans (h c rfl))

/-- Two stars see one character behind them. -/
theorem recursion_cons (r : Reading) (before : Option Char) (c : Char) (rest rest' : List Char) :
    r.recursion before (c :: rest) = r.recursion before (c :: rest') := by
  unfold Reading.recursion
  by_cases hslash : c = '/'
  · subst hslash
    rfl
  by_cases hcomma : c = ','
  · subst hcomma
    rfl
  by_cases hclose : c = '\x7d'
  · subst hclose
    rfl
  · simp [hslash, hcomma, hclose]

/-- They take a slash behind them, or nothing. -/
theorem recursion_taken (r : Reading) (before : Option Char) (after : List Char) :
    (r.recursion before after).2 = 0 ∨
      (r.recursion before after).2 = 1 ∧ after.head? = some '/' := by
  unfold Reading.recursion
  dsimp only
  split
  · split
    · exact .inl rfl
    · exact .inr ⟨rfl, rfl⟩
    · exact .inl rfl
  · split
    · exact .inl rfl
    · split
      · exact .inl rfl
      · exact .inr ⟨rfl, rfl⟩
      · split <;> exact .inl rfl
      · split <;> exact .inl rfl
      · exact .inl rfl

theorem recursion_taken_le (r : Reading) (before : Option Char) {front : List Char}
    {stop : Char} (h : stop ≠ '/') :
    (r.recursion before (front ++ [stop])).2 ≤ front.length := by
  obtain hnone | ⟨hone, hslash⟩ := recursion_taken r before (front ++ [stop])
  · exact hnone ▸ Nat.zero_le _
  · cases front with
    | nil => exact absurd (Option.some.inj hslash) h
    | cons c front => exact hone ▸ Nat.le_add_left ..

/-- A step in a front sees nothing of the text behind it, unless it looks for
the end of a class that is never closed. -/
theorem next_front (before : Option Char) (r : Reading) {c : Char} {front : List Char}
    (h : EndsPlain (c :: front)) :
    (∃ s : Step, s.taken ≤ front.length ∧
      ∀ rest, ']' ∉ rest → next before r c (front ++ rest) = .ok s) ∨
    ∀ rest, ']' ∉ rest → ∃ e, next before r c (front ++ rest) = .error e := by
  by_cases hc : isPlain c = true
  · exact .inl ⟨_, Nat.zero_le _, fun rest _ => next_plain before r hc _⟩
  have hspecial : c ∈ specials := by simpa [isPlain] using hc
  simp only [specials, List.mem_cons, List.not_mem_nil, or_false] at hspecial
  rcases hspecial with rfl | rfl | rfl | rfl | rfl | rfl | rfl
  · exact .inl ⟨_, Nat.zero_le _, fun _ _ => rfl⟩
  · left
    obtain ⟨c, front, rfl⟩ := List.exists_cons_of_ne_nil (h.ne_nil rfl)
    by_cases hstars : c = '*'
    · subst hstars
      obtain ⟨c, front, rfl⟩ := List.exists_cons_of_ne_nil ((h.drop 1).ne_nil rfl)
      refine ⟨afterStars (r.recursion before [c]), Nat.succ_le_succ ?_, fun rest _ => ?_⟩
      · obtain hnone | ⟨hone, -⟩ := recursion_taken r before [c]
        · exact hnone ▸ Nat.zero_le _
        · exact hone ▸ Nat.le_add_left ..
      · rw [List.cons_append, List.cons_append, next_stars, recursion_cons r before c _ []]
    · exact ⟨_, Nat.zero_le _, fun rest _ => next_star before r (by simpa using hstars)⟩
  · refine (readClass_front (h.ne_nil rfl)).imp ?_ ?_
    · rintro ⟨t, n, hn, hread⟩
      refine ⟨⟨']', r.push t, n⟩, hn, fun rest _ => ?_⟩
      rw [next, hread]
    · intro hopen rest hrest
      rw [next]
      rcases hr : readClass (front ++ rest) with e | _ | x
      · exact ⟨e, rfl⟩
      · exact ⟨_, rfl⟩
      · exact absurd hr (hopen rest hrest x)
  · exact .inl ⟨_, Nat.zero_le _, fun _ _ => rfl⟩
  · obtain ⟨tokens, opened⟩ := r
    cases opened with
    | nil => exact .inr fun rest _ => ⟨_, rfl⟩
    | cons o opened => exact .inl ⟨_, Nat.zero_le _, fun _ _ => rfl⟩
  · obtain ⟨tokens, opened⟩ := r
    cases opened <;> exact .inl ⟨_, Nat.zero_le _, fun _ _ => rfl⟩
  · obtain ⟨c, front, rfl⟩ := List.exists_cons_of_ne_nil (h.ne_nil rfl)
    exact .inl ⟨_, Nat.le_add_left .., fun _ _ => rfl⟩

/-- **What a front is read as does not depend on the text behind it**, when
that has no closing bracket. -/
theorem readTokens_front (before : Option Char) (r : Reading) {front : List Char}
    (h : EndsPlain front) :
    (∃ before' r', ∀ rest, ']' ∉ rest →
      readTokens {} false before r (front ++ rest) = readTokens {} false before' r' rest) ∨
    ∀ rest, ']' ∉ rest → ∃ e, readTokens {} false before r (front ++ rest) = .error e := by
  match front with
  | [] => exact .inl ⟨before, r, fun _ _ => rfl⟩
  | c :: front =>
    obtain ⟨s, hs, hstep⟩ | hfails := next_front before r h
    · have hread : ∀ rest, ']' ∉ rest → readTokens {} false before r (c :: (front ++ rest)) =
          readTokens {} false (some s.before) s.reading (front.drop s.taken ++ rest) := by
        intro rest hrest
        rw [readTokens_cons, hstep rest hrest, ← List.drop_append_of_le_length hs]
      have hend : EndsPlain (front.drop s.taken) := h.drop (s.taken + 1)
      obtain ⟨before', r', hlater⟩ | hfails := readTokens_front (some s.before) s.reading hend
      · exact .inl ⟨before', r', fun rest hrest => (hread rest hrest).trans (hlater rest hrest)⟩
      · refine .inr fun rest hrest => ?_
        obtain ⟨e, he⟩ := hfails rest hrest
        exact ⟨e, (hread rest hrest).trans he⟩
    · refine .inr fun rest hrest => ?_
      obtain ⟨e, he⟩ := hfails rest hrest
      exact ⟨e, by rw [List.cons_append, readTokens_cons, he]⟩
termination_by front.length
decreasing_by
  rw [List.length_drop]
  exact Nat.lt_succ_of_le (Nat.sub_le ..)

/-! ## §3 Branches -/

/-- What ends a branch. -/
def EndsBranch (stop : Char) : Prop := stop = ',' ∨ stop = '\x7d'

/-- A character that neither ends a branch nor reaches beyond it. -/
def isBranchChar (c : Char) : Bool := takesItself c && c != ','

/-- Two stars between braces leave what is around the branch as it is. -/
theorem recursion_opened (ts : List Token) (brace : List (List Token) × List Token)
    (opened : List (List (List Token) × List Token)) (before : Option Char) (after : List Char) :
    let found := Reading.recursion ⟨ts, [([], [])]⟩ before after
    Reading.recursion ⟨ts, brace :: opened⟩ before after =
      (⟨found.1.tokens, brace :: opened⟩, found.2) := by
  cases ts with
  | nil =>
    cases after with
    | nil => rfl
    | cons c after =>
      by_cases hslash : c = '/'
      · subst hslash
        rfl
      · simp [Reading.recursion, Reading.push, hslash]
  | cons t ts =>
    simp only [Reading.recursion, Reading.push, Reading.inBraces, List.isEmpty_cons,
      Bool.false_eq_true, if_false, Bool.not_false, Bool.not_true, false_or, if_true]
    split
    · rfl
    · cases t <;> split <;> rfl

/-- What ends the branch makes no difference to two stars. -/
theorem recursion_stop (ts : List Token) (brace : List (List Token) × List Token)
    (opened : List (List (List Token) × List Token)) (before : Option Char) {stop : Char}
    (h : EndsBranch stop) (rest : List Char) :
    Reading.recursion ⟨ts, brace :: opened⟩ before (stop :: rest) =
      Reading.recursion ⟨ts, brace :: opened⟩ before [','] := by
  rcases h with rfl | rfl <;> rfl

/-- Two stars in a branch: what they stand for depends on the branch alone,
and at its beginning not on what is before it. -/
theorem recursion_branch (ts : List Token) (before : Option Char) (cs : List Char) :
    ∃ us n, n ≤ cs.length ∧ ∀ before', (ts = [] ∨ before' = before) →
      ∀ brace opened stop rest, EndsBranch stop →
        Reading.recursion ⟨ts, brace :: opened⟩ before' (cs ++ stop :: rest) =
          (⟨us, brace :: opened⟩, n) := by
  let found := Reading.recursion ⟨ts, [([], [])]⟩ before (cs ++ [','])
  refine ⟨found.1.tokens, found.2, recursion_taken_le _ before (by decide), ?_⟩
  intro before' hbefore brace opened stop rest hstop
  have hfirst : ∀ after, Reading.recursion ⟨ts, brace :: opened⟩ before' after =
      Reading.recursion ⟨ts, brace :: opened⟩ before after := by
    rcases hbefore with rfl | rfl <;> exact fun _ => rfl
  have hbehind : Reading.recursion ⟨ts, brace :: opened⟩ before (cs ++ stop :: rest) =
      Reading.recursion ⟨ts, brace :: opened⟩ before (cs ++ [',']) := by
    cases cs with
    | nil => exact recursion_stop ts brace opened before hstop rest
    | cons c cs => exact recursion_cons ..
  rw [hfirst, hbehind]
  exact recursion_opened ..

/-- So does any step in a branch. -/
theorem next_branch (ts : List Token) (before : Option Char) {c : Char} (cs : List Char)
    (hc : isBranchChar c = true) :
    ∃ b us n, n ≤ cs.length ∧ ∀ before', (ts = [] ∨ before' = before) →
      ∀ brace opened stop rest, EndsBranch stop →
        next before' ⟨ts, brace :: opened⟩ c (cs ++ stop :: rest) =
          .ok ⟨b, ⟨us, brace :: opened⟩, n⟩ := by
  obtain ⟨hitself, hcomma⟩ : takesItself c = true ∧ c ≠ ',' := by simpa [isBranchChar] using hc
  by_cases hstar : c = '*'
  · subst hstar
    by_cases hstars : cs.head? = some '*'
    · obtain ⟨cs, rfl⟩ := List.head?_eq_some_iff.mp hstars
      obtain ⟨us, n, hn, hread⟩ := recursion_branch ts before cs
      refine ⟨if n = 0 then '*' else '/', us, n + 1, Nat.succ_le_succ hn, ?_⟩
      intro before' hbefore brace opened stop rest hstop
      rw [List.cons_append, next_stars, hread before' hbefore brace opened stop rest hstop]
      rfl
    · refine ⟨'*', .zeroOrMore :: ts, 0, Nat.zero_le _, ?_⟩
      intro before' _ brace opened stop rest hstop
      have hhead : (cs ++ stop :: rest).head? ≠ some '*' := by
        cases cs with
        | nil => rcases hstop with rfl | rfl <;> simp
        | cons c cs => exact hstars
      exact next_star before' _ hhead
  by_cases hany : c = '?'
  · subst hany
    exact ⟨'?', .any :: ts, 0, Nat.zero_le _, fun _ _ _ _ _ _ _ => rfl⟩
  · have hplain : isPlain c = true := isPlain_of_takesItself hitself hany hstar hcomma
    exact ⟨c, .literal c :: ts, 0, Nat.zero_le _, fun before' _ _ _ _ _ _ =>
      next_plain before' _ hplain _⟩

/-- And so does a whole branch. -/
theorem readTokens_branch {cs : List Char} (hcs : ∀ c ∈ cs, isBranchChar c = true)
    (ts : List Token) (before : Option Char) :
    ∃ us, ∀ before', (ts = [] ∨ before' = before) →
      ∀ brace opened stop rest, EndsBranch stop →
        ∃ b, readTokens {} false before' ⟨ts, brace :: opened⟩ (cs ++ stop :: rest) =
          readTokens {} false b ⟨us, brace :: opened⟩ (stop :: rest) := by
  match cs with
  | [] => exact ⟨ts, fun before' _ _ _ _ _ _ => ⟨before', rfl⟩⟩
  | c :: cs =>
    obtain ⟨b, us, n, hn, hstep⟩ := next_branch ts before cs (hcs c (List.mem_cons_self ..))
    have hrest : ∀ c ∈ cs.drop n, isBranchChar c = true := fun c hc =>
      hcs c (List.mem_cons_of_mem _ (List.mem_of_mem_drop hc))
    obtain ⟨vs, hlater⟩ := readTokens_branch hrest us (some b)
    refine ⟨vs, fun before' hbefore brace opened stop rest hstop => ?_⟩
    rw [List.cons_append, readTokens_cons, hstep before' hbefore brace opened stop rest hstop]
    dsimp only
    rw [List.drop_append_of_le_length hn]
    exact hlater (some b) (.inr rfl) brace opened stop rest hstop
termination_by cs.length
decreasing_by
  rw [List.length_drop]
  exact Nat.lt_succ_of_le (Nat.sub_le ..)

/-- The tokens of a branch, as the reader makes them between braces. -/
def branchTokens (cs : List Char) : List Token :=
  match readTokens {} false none ⟨[], [([], [])]⟩ (cs ++ [',']) with
  | .ok ⟨_, (branch :: _, _) :: _⟩ => branch
  | _ => []

/-- **A branch is read as its own tokens**, wherever it stands. -/
theorem readTokens_branchTokens {cs : List Char} (hcs : ∀ c ∈ cs, isBranchChar c = true)
    (before : Option Char) (brace : List (List Token) × List Token)
    (opened : List (List (List Token) × List Token)) {stop : Char} (hstop : EndsBranch stop)
    (rest : List Char) :
    ∃ b, readTokens {} false before ⟨[], brace :: opened⟩ (cs ++ stop :: rest) =
      readTokens {} false b ⟨(branchTokens cs).reverse, brace :: opened⟩ (stop :: rest) := by
  obtain ⟨us, hread⟩ := readTokens_branch hcs [] none
  have hus : branchTokens cs = us.reverse := by
    obtain ⟨b, hb⟩ := hread none (.inl rfl) ([], []) [] ',' [] (.inl rfl)
    rw [branchTokens, hb, readTokens_cons]
    simp [next, readTokens]
  rw [hus, List.reverse_reverse]
  exact hread before (.inl rfl) brace opened stop rest hstop

/-! ## §4 Braces -/

/-- **Braces are read as their branches**, one for each piece of text between
two commas. -/
theorem readTokens_braces {pieces : List (List Char)} (hne : pieces ≠ [])
    (hpieces : ∀ piece ∈ pieces, ∀ c ∈ piece, isBranchChar c = true) (before : Option Char)
    (branches : List (List Token)) (around : List Token)
    (opened : List (List (List Token) × List Token)) (rest : List Char) :
    readTokens {} false before ⟨[], (branches, around) :: opened⟩
        (joinWith ',' pieces ++ '\x7d' :: rest) =
      readTokens {} false (some '\x7d')
        ⟨.alternatives (branches.reverse ++ pieces.map branchTokens) :: around, opened⟩ rest := by
  induction pieces generalizing before branches with
  | nil => exact absurd rfl hne
  | cons piece pieces ih =>
    have hpiece := hpieces piece (List.mem_cons_self ..)
    cases pieces with
    | nil =>
      obtain ⟨b, hb⟩ := readTokens_branchTokens hpiece before (branches, around) opened
        (.inr rfl) rest
      rw [joinWith, hb, readTokens_cons]
      simp [next]
    | cons other pieces =>
      obtain ⟨b, hb⟩ := readTokens_branchTokens hpiece before (branches, around) opened
        (.inl rfl) (joinWith ',' (other :: pieces) ++ '\x7d' :: rest)
      rw [joinWith, List.append_assoc, List.cons_append, hb, readTokens_cons]
      · simp only [next, List.drop_zero, List.reverse_reverse]
        rw [ih (List.cons_ne_nil _ _) fun p hp => hpieces p (List.mem_cons_of_mem _ hp)]
        simp
      · simp

/-- Names are cut at their commas too. -/
theorem splitAll_names {names : List (List Char)} (hne : names ≠ []) :
    splitAll ',' (joinWith ',' names) = names.flatMap (splitAll ',') := by
  induction names with
  | nil => exact absurd rfl hne
  | cons name names ih =>
    cases names with
    | nil => simp [joinWith]
    | cons other names =>
      rw [joinWith, Path.splitAll_append_cons, ih (List.cons_ne_nil _ _), ← List.flatMap_cons]
      exact List.cons_ne_nil _ _

theorem mem_joinWith {sep c : Char} {names : List (List Char)} (h : c ∈ joinWith sep names) :
    c = sep ∨ ∃ name ∈ names, c ∈ name := by
  induction names with
  | nil => cases h
  | cons name names ih =>
    cases names with
    | nil => exact .inr ⟨name, List.mem_cons_self .., h⟩
    | cons other names =>
      rw [joinWith, List.mem_append, List.mem_cons] at h
      · rcases h with h | rfl | h
        · exact .inr ⟨name, List.mem_cons_self .., h⟩
        · exact .inl rfl
        · refine (ih h).imp_right ?_
          rintro ⟨n, hn, hc⟩
          exact ⟨n, List.mem_cons_of_mem _ hn, hc⟩
      · exact List.cons_ne_nil _ _

/-- A character that ties a name to nothing else in the pattern. -/
def staysInside (c : Char) : Bool := takesItself c && c != ']'

/-- Names between braces close no class in front of them. -/
theorem bracket_notMem_names {names : List (List Char)}
    (hnames : ∀ name ∈ names, ∀ c ∈ name, staysInside c = true) :
    ']' ∉ '\x7b' :: (joinWith ',' names ++ ['\x7d']) := by
  intro hmem
  simp only [List.mem_cons, List.mem_append, List.not_mem_nil, or_false] at hmem
  rcases hmem with h | h | h
  · cases h
  · obtain h | ⟨name, hname, hc⟩ := mem_joinWith h
    · cases h
    · exact absurd (hnames name hname ']' hc) (by decide)
  · cases h

/-- What is left of names between braces. -/
def nameBranches (names : List (List Char)) : List (List Token) :=
  (names.flatMap (splitAll ',')).map branchTokens

theorem mem_nameBranches_congr {names names' : List (List Char)}
    (h : ∀ name, name ∈ names ↔ name ∈ names') (ts : List Token) :
    ts ∈ nameBranches names ↔ ts ∈ nameBranches names' := by
  simp only [nameBranches, List.mem_map, List.mem_flatMap, h]

theorem readTokens_nameBraces {names : List (List Char)} (hne : names ≠ [])
    (hnames : ∀ name ∈ names, ∀ c ∈ name, staysInside c = true) (before : Option Char)
    (r : Reading) :
    readTokens {} false before r ('\x7b' :: (joinWith ',' names ++ ['\x7d'])) =
      .ok ⟨.alternatives (nameBranches names) :: r.tokens, r.opened⟩ := by
  have hpieces : ∀ piece ∈ names.flatMap (splitAll ','), ∀ c ∈ piece, isBranchChar c = true := by
    intro piece hpiece c hc
    obtain ⟨name, hname, hpiece⟩ := List.mem_flatMap.mp hpiece
    have hstays := hnames name hname c (mem_of_mem_splitAll hpiece hc)
    have hcomma : c ≠ ',' := fun he => not_mem_of_mem_splitAll hpiece (he ▸ hc)
    simp_all [staysInside, isBranchChar]
  have hsome : names.flatMap (splitAll ',') ≠ [] := by
    rw [← splitAll_names hne]
    exact splitAll_ne_nil _ _
  have hjoin : joinWith ',' (names.flatMap (splitAll ',')) = joinWith ',' names := by
    rw [← splitAll_names hne, joinWith_splitAll]
  rw [readTokens_cons, next, ← hjoin]
  dsimp only
  rw [List.drop_zero, readTokens_braces hsome hpieces, readTokens]
  rfl

/-! ## §5 Matching -/

/-- Of alternatives, the set counts. -/
theorem mem_residues_alternatives_congr {d : Dialect} {branches branches' : List (List Token)}
    (h : ∀ ts, ts ∈ branches ↔ ts ∈ branches') (bs rest : List UInt8) :
    rest ∈ residues d (.alternatives branches) bs ↔
      rest ∈ residues d (.alternatives branches') bs := by
  have hsilent : allBranchesSilent branches = allBranchesSilent branches' := by
    rw [Bool.eq_iff_iff, allBranchesSilent_iff, allBranchesSilent_iff]
    simp only [h]
  rw [residues, residues, hsilent]
  split
  · exact Iff.rfl
  · simp only [mem_branchResidues_iff, h]

/-- A pattern with alternatives at its end matches when these can take all
that the rest leaves. -/
theorem matchesBytes_alternatives_iff {pattern : String} {d : Dialect} (ts : List Token)
    (branches : List (List Token)) (bs : List UInt8) :
    matchesBytes ⟨pattern, d, ts ++ [.alternatives branches]⟩ bs = true ↔
      ∃ left ∈ listResidues d ts [bs], [] ∈ residues d (.alternatives branches) left := by
  unfold matchesBytes
  split
  · rename_i hfront
    have hlast := congrArg List.getLast? hfront
    simp at hlast
  · rw [List.contains_iff_mem, listResidues_append, mem_listResidues_iff]
    simp [listResidues]

/-- The pattern is a front and names between braces, each of which stays
inside of them. -/
structure EndsInNames (front : List Char) (names : List (List Char)) (p : String) : Prop where
  ne_nil : names ≠ []
  inside : ∀ name ∈ names, ∀ c ∈ name, staysInside c = true
  text : p.toList = front ++ '\x7b' :: (joinWith ',' names ++ ['\x7d'])

/-- Such a pattern cannot be read, whatever the names are, or is read as what
the front is read as and the branches of the names. -/
theorem parse_names {front : List Char} (hfront : EndsPlain front) :
    (∃ ts, ∀ names p, EndsInNames front names p →
      parse {} p = .ok ⟨p, {}, ts ++ [.alternatives (nameBranches names)]⟩) ∨
    ∀ names p, EndsInNames front names p → ∃ e, parse {} p = .error e := by
  obtain ⟨before, r, hread⟩ | hfails := readTokens_front none {} hfront
  · have hparse : ∀ names p, EndsInNames front names p →
        parse {} p = if r.inBraces then .error ⟨p, .unclosedAlternatives⟩
          else .ok ⟨p, {}, r.tokens.reverse ++ [.alternatives (nameBranches names)]⟩ := by
      intro names p h
      rw [parse, parseTokens, h.text, hread _ (bracket_notMem_names h.inside),
        readTokens_nameBraces h.ne_nil h.inside before r]
      obtain ⟨tokens, opened⟩ := r
      cases opened <;> simp [Reading.inBraces, Except.map]
    cases hbraces : r.inBraces with
    | true =>
      refine .inr fun names p h => ⟨⟨p, .unclosedAlternatives⟩, ?_⟩
      rw [hparse names p h, if_pos hbraces]
    | false =>
      refine .inl ⟨r.tokens.reverse, fun names p h => ?_⟩
      rw [hparse names p h, if_neg (Bool.eq_false_iff.mp hbraces)]
  · refine .inr fun names p h => ?_
    obtain ⟨e, he⟩ := hfails _ (bracket_notMem_names h.inside)
    refine ⟨⟨p, e⟩, ?_⟩
    rw [parse, parseTokens, h.text, he]
    rfl

/-- **Of the names in a pattern, the set counts.** With the same names in
another order, or several times, the pattern matches the same texts, if it can
be read at all. -/
theorem parse_names_congr {front : List Char} (hfront : EndsPlain front)
    {names names' : List (List Char)} (hmem : ∀ name, name ∈ names ↔ name ∈ names')
    {p p' : String} (h : EndsInNames front names p) (h' : EndsInNames front names' p') :
    (∃ g g', parse {} p = .ok g ∧ parse {} p' = .ok g' ∧
      ∀ text, g.isMatch text = g'.isMatch text) ∨
    ∃ e e', parse {} p = .error e ∧ parse {} p' = .error e' := by
  obtain ⟨ts, hread⟩ | hfails := parse_names hfront
  · refine .inl ⟨_, _, hread names p h, hread names' p' h', fun text => ?_⟩
    rw [Bool.eq_iff_iff, isMatch, isMatch, matchesBytes_alternatives_iff,
      matchesBytes_alternatives_iff]
    simp only [mem_residues_alternatives_congr (mem_nameBranches_congr hmem)]
  · obtain ⟨e, he⟩ := hfails names p h
    obtain ⟨e', he'⟩ := hfails names' p' h'
    exact .inr ⟨e, e', he, he'⟩

end FormatHost.Glob
