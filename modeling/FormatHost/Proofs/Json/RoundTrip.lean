/-
FormatHost.Proofs.Json.RoundTrip — what was printed is read back.

The compact text of a value is read as the tree of that value, in whatever
text it stands, as long as the text goes on with a comma or a closing
bracket. Values with binary64 numbers are left out: their digits are read
by floating-point arithmetic, about which nothing can be said here.

* §1 strings: what is escaped is read as the character it stands for;
* §2 whole numbers: their digits are read, and kept exactly;
* §3 plain values, and what may follow a value;
* §4 `readsBack`, by induction on the fuel, one step for each reader;
* §5 `parse?_compact`.
-/
import FormatHost.Json.Print
import FormatHost.Json.Source

namespace FormatHost.Json

/-! ## §1 Strings -/

theorem hexDigit?_hexDigit : ∀ d < 16, Text.hexDigit? (hexDigit d) = some d := by decide

/-- A character that needs no escape is read as it stands. -/
theorem readPieces_cons {c : Char} (hquote : c ≠ '"') (hbackslash : c ≠ '\\')
    (hcontrol : ¬ c.toNat < 0x20) (cs : List Char) :
    readPieces (c :: cs) = (readPieces cs).map fun p => (.char c :: p.1, p.2) := by
  rw [readPieces.eq_def]
  split
  · rename_i he
    cases he
  · rename_i he
    exact absurd (List.cons.inj he).1 hquote
  · rename_i he
    exact absurd (List.cons.inj he).1 hbackslash
  · rename_i he
    exact absurd (List.cons.inj he).1 hbackslash
  · rename_i he
    obtain ⟨rfl, rfl⟩ := List.cons.inj he
    rw [if_neg (by simp [hcontrol, hbackslash])]
    cases readPieces cs <;> rfl

/-- An escape letter is read as its character. -/
theorem readPieces_escape {e c : Char} (he : escape? e = some c) (hu : e ≠ 'u') (cs : List Char) :
    readPieces ('\\' :: e :: cs) = (readPieces cs).map fun p => (.char c :: p.1, p.2) := by
  rw [readPieces.eq_def]
  split
  · rename_i h
    cases h
  · rename_i h
    exact absurd (List.cons.inj h).1 (by decide)
  · rename_i h
    exact absurd (List.cons.inj (List.cons.inj h).2).1 hu
  · rename_i h
    obtain ⟨-, h⟩ := List.cons.inj h
    obtain ⟨rfl, rfl⟩ := List.cons.inj h
    simp only [he, Option.bind_some, bind]
    cases readPieces cs <;> rfl
  · rename_i hother h
    obtain ⟨rfl, rfl⟩ := List.cons.inj h
    exact absurd rfl (hother e cs rfl)

/-- A control character is read from its four digits. -/
theorem unitPiece_toNat {c : Char} (h : c.toNat < 0x20) :
    unitPiece (((0 * 16 + 0) * 16 + c.toNat / 16) * 16 + c.toNat % 16) = .char c := by
  have hu : ((0 * 16 + 0) * 16 + c.toNat / 16) * 16 + c.toNat % 16 = c.toNat := by omega
  rw [hu, unitPiece, if_neg (by omega), Char.ofNat_toNat]

/-- **An escaped character is read as the character.** -/
theorem readPieces_escaped (c : Char) (cs : List Char) :
    readPieces (escaped c ++ cs) = (readPieces cs).map fun p => (.char c :: p.1, p.2) := by
  unfold escaped
  split
  case h_8 hquote hbackslash _ _ _ _ _ =>
    split
    · rename_i hcontrol
      have hzero : Text.hexDigit? '0' = some 0 := by decide
      have hhigh := hexDigit?_hexDigit (c.toNat / 16) (by omega)
      have hlow := hexDigit?_hexDigit (c.toNat % 16) (by omega)
      simp only [List.cons_append, List.nil_append, readPieces, hzero, hhigh, hlow,
        unitPiece_toNat hcontrol, Option.bind_some, bind]
      cases readPieces cs <;> rfl
    · rename_i hcontrol
      exact readPieces_cons hquote hbackslash hcontrol cs
  all_goals exact readPieces_escape rfl (by decide) cs

theorem readPieces_quoted (cs rest : List Char) :
    readPieces (cs.flatMap escaped ++ '"' :: rest) = some (cs.map .char, rest) := by
  induction cs with
  | nil => simp [readPieces]
  | cons c cs ih =>
    rw [List.flatMap_cons, List.append_assoc, readPieces_escaped, ih]
    rfl

theorem joinPieces_chars (cs : List Char) : joinPieces (cs.map .char) = some cs := by
  induction cs with
  | nil => rfl
  | cons c cs ih => rw [List.map_cons, joinPieces, ih, Option.map_some]

theorem quoted_toList (s : String) :
    (quoted s).toList = '"' :: (s.toList.flatMap escaped ++ ['"']) := by
  simp [quoted]

theorem quoted_append (s : String) (rest : List Char) :
    (quoted s).toList ++ rest = '"' :: (s.toList.flatMap escaped ++ '"' :: rest) := by
  rw [quoted_toList, List.cons_append, List.append_assoc, List.singleton_append]

/-- **A quoted string is read as the string.** -/
theorem readString_quoted (s : String) (rest : List Char) :
    readString (s.toList.flatMap escaped ++ '"' :: rest) = some (some s, rest) := by
  simp [readString, readPieces_quoted, joinPieces_chars]

/-! ## §2 Whole numbers -/

/-- The value of a digit. -/
def digitValue (c : Char) : Nat := c.toNat - '0'.toNat

/-- The text stops being a numeral here. -/
def Stops (cs : List Char) : Prop := ∀ c ∈ cs.head?, c = ',' ∨ c = ']' ∨ c = '}'

theorem digit?_of_isDigit {c : Char} (h : c.isDigit = true) :
    Text.digit? c = some (digitValue c) := by
  have hc : '0' ≤ c ∧ c ≤ '9' := by simpa [Char.isDigit, Char.le_def] using h
  rw [Text.digit?, if_pos hc]
  rfl

theorem takeDigits_append {ds rest : List Char} (hd : ∀ c ∈ ds, c.isDigit = true)
    (hr : Stops rest) : Numeral.takeDigits (ds ++ rest) = (ds.map digitValue, rest) := by
  induction ds with
  | nil =>
    cases rest with
    | nil => rfl
    | cons c rest =>
      have hc : Text.digit? c = none := by
        rcases hr c rfl with rfl | rfl | rfl <;> decide
      simp [Numeral.takeDigits, hc]
  | cons c ds ih =>
    have hc := digit?_of_isDigit (hd c (List.mem_cons_self ..))
    rw [List.cons_append, Numeral.takeDigits, hc, ih fun c hm => hd c (List.mem_cons_of_mem _ hm)]
    rfl

theorem digitValue_digitChar : ∀ d < 10, 0 < d → digitValue d.digitChar ≠ 0 := by decide

theorem isDigit_decimal {n : Nat} {c : Char} (h : c ∈ Nat.toDigits 10 n) : c.isDigit = true :=
  Nat.isDigit_of_mem_toDigits (by decide) (by decide) h

/-- The digits of a number other than zero begin with one other than zero. -/
theorem exists_decimal_cons (n : Nat) (hn : 0 < n) :
    ∃ c ds, Nat.toDigits 10 n = c :: ds ∧ digitValue c ≠ 0 := by
  induction n using Nat.strongRecOn with
  | ind n ih =>
    by_cases h : n < 10
    · exact ⟨n.digitChar, [], Nat.toDigits_of_lt_base h, digitValue_digitChar n h hn⟩
    · obtain ⟨c, ds, hc, hv⟩ := ih (n / 10) (by omega) (by omega)
      exact ⟨c, ds ++ [(n % 10).digitChar],
        by rw [Nat.toDigits_of_base_le (by decide) (by omega), hc, List.cons_append], hv⟩

/-- The value that digits stand for. -/
def ofDigits (ds : List Nat) (acc : Nat) : Nat := ds.foldl (fun v d => v * 10 + d) acc

theorem le_ofDigits (ds : List Nat) (acc : Nat) : acc ≤ ofDigits ds acc := by
  induction ds generalizing acc with
  | nil => exact Nat.le_refl acc
  | cons d ds ih => exact Nat.le_trans (by omega) (ih (acc * 10 + d))

theorem ofDigits_decimal (n : Nat) : ofDigits ((Nat.toDigits 10 n).map digitValue) 0 = n := by
  have h := Nat.ofDigitChars_ten_toDigits (n := n)
  unfold Nat.ofDigitChars at h
  rw [ofDigits, List.foldl_map]
  simpa [digitValue, Nat.mul_comm] using h

/-- Digits of a number of 64 bits are all taken. -/
theorem accumulate_of_lt {ds : List Nat} {acc : Nat} (h : ofDigits ds acc < bitValues 64) :
    Numeral.accumulate acc ds = (ofDigits ds acc, []) := by
  induction ds generalizing acc with
  | nil => rfl
  | cons d ds ih =>
    have hle : acc * 10 + d < bitValues 64 := Nat.lt_of_le_of_lt (le_ofDigits ds _) h
    rw [Numeral.accumulate, if_pos hle, ih h]
    rfl

/-- The digits of a whole number, as they are read. -/
def wholeDigits (n : Nat) : List Nat := (Nat.toDigits 10 n).map digitValue

/-- There is a digit, and none follows a zero at the front. -/
theorem wholeDigits_shape (n : Nat) :
    ∃ d ds, wholeDigits n = d :: ds ∧ (d = 0 → ds = []) := by
  unfold wholeDigits
  by_cases hn : 0 < n
  · obtain ⟨c, ds, hc, hv⟩ := exists_decimal_cons n hn
    exact ⟨digitValue c, ds.map digitValue, by rw [hc, List.map_cons], fun h => absurd h hv⟩
  · obtain rfl : n = 0 := by omega
    exact ⟨0, [], by decide, fun _ => rfl⟩

theorem readExponent_of_stops {rest : List Char} (h : Stops rest) :
    Numeral.readExponent rest = some (none, rest) := by
  cases rest with
  | nil => rfl
  | cons c rest => rcases h c rfl with rfl | rfl | rfl <;> rfl

/-- **The digits of a whole number are read as a numeral**, with a sign
before them or without. -/
theorem read_decimal (negative : Bool) (n : Nat) {rest : List Char} (hr : Stops rest) :
    Numeral.read ((if negative then ['-'] else []) ++ (Nat.toDigits 10 n ++ rest)) =
      some (⟨negative, wholeDigits n, none, none⟩, rest) := by
  obtain ⟨d, ds, hshape, hzero⟩ := wholeDigits_shape n
  have htake : Numeral.takeDigits (Nat.toDigits 10 n ++ rest) = (d :: ds, rest) := by
    rw [takeDigits_append (fun c => isDigit_decimal) hr]
    exact congrArg (·, rest) hshape
  unfold Numeral.read
  split
  rename_i negative' cs hsign
  have hcs : negative' = negative ∧ cs = Nat.toDigits 10 n ++ rest := by
    cases negative with
    | true =>
      obtain ⟨rfl, rfl⟩ := Prod.mk.inj hsign
      exact ⟨rfl, rfl⟩
    | false =>
      simp only [Bool.false_eq_true, if_false, List.nil_append] at hsign
      split at hsign
      · rename_i r hminus
        rw [hminus] at htake
        cases htake
      · obtain ⟨rfl, rfl⟩ := Prod.mk.inj hsign
        exact ⟨rfl, rfl⟩
  obtain ⟨rfl, rfl⟩ := hcs
  simp only [htake]
  rw [hshape]
  split
  · rename_i h
    cases h
  · rename_i h
    obtain ⟨rfl, h⟩ := List.cons.inj h
    rw [hzero rfl] at h
    cases h
  · -- what stops a numeral begins neither a fraction nor an exponent
    split
    · exact absurd (hr '.' rfl) (by decide)
    · simp only [readExponent_of_stops hr, bind, Option.bind_some]

/-- A whole number of 64 bits is its own significand. -/
theorem significand_whole {n : Nat} (h : n < bitValues 64) (negative : Bool) :
    Numeral.significand ⟨negative, wholeDigits n, none, none⟩ = (n, 0) := by
  have hvalue : ofDigits (wholeDigits n) 0 = n := ofDigits_decimal n
  have ha := accumulate_of_lt (hvalue.symm ▸ h)
  rw [hvalue] at ha
  simp [Numeral.significand, ha]

theorem number?_of_whole {n : Nat} (h : n < bitValues 64) :
    Numeral.number? ⟨false, wholeDigits n, none, none⟩ = some (.int n) := by
  simp [Numeral.number?, significand_whole h]

theorem number?_of_negative {n : Nat} (hn : 0 < n) (h : n ≤ bitValues 63) :
    Numeral.number? ⟨true, wholeDigits n, none, none⟩ = some (.int (-(n : Int))) := by
  have hlt : n < bitValues 64 := Nat.lt_of_le_of_lt h (by decide)
  have hin : ¬ (n = 0 ∨ n > bitValues 63) := by omega
  simp [Numeral.number?, significand_whole hlt, hin]

/-- A whole number is written as a sign, if it is below zero, and digits. -/
theorem exists_int_text (i : Int) : ∃ negative n,
    (Number.int i).text.toList = (if negative then ['-'] else []) ++ Nat.toDigits 10 n ∧
      i = (if negative then -(n : Int) else n) ∧ (negative = true → 0 < n) := by
  cases i with
  | ofNat n => exact ⟨false, n, Nat.toList_repr, rfl, nofun⟩
  | negSucc n =>
    refine ⟨true, n + 1, ?_, rfl, fun _ => Nat.succ_pos n⟩
    show ("-" ++ (n + 1).repr).toList = _
    rw [String.toList_append, Nat.toList_repr]
    rfl

/-- Its text begins with the sign or a digit. -/
theorem exists_int_text_cons (i : Int) : ∃ c tl, (Number.int i).text.toList = c :: tl ∧
    (c = '-' ∨ c.isDigit = true) := by
  obtain ⟨negative, n, htext, -, -⟩ := exists_int_text i
  cases negative with
  | true => exact ⟨'-', _, htext, .inl rfl⟩
  | false =>
    cases hd : Nat.toDigits 10 n with
    | nil =>
      obtain ⟨d, ds, hshape, -⟩ := wholeDigits_shape n
      simp [wholeDigits, hd] at hshape
    | cons c tl =>
      refine ⟨c, tl, htext.trans hd, .inr (isDigit_decimal (n := n) ?_)⟩
      rw [hd]
      exact List.mem_cons_self ..

/-- **A whole number of 64 bits is read back exactly.** -/
theorem read_int {i : Int} (hi : fitsWord i = true) {rest : List Char} (hr : Stops rest) :
    ∃ numeral, Numeral.read ((Number.int i).text.toList ++ rest) = some (numeral, rest) ∧
      numeral.number? = some (.int i) := by
  have hbounds : -(bitValues 63 : Int) ≤ i ∧ i < (bitValues 64 : Int) := by
    simpa [fitsWord] using hi
  obtain ⟨negative, n, htext, rfl, hpos⟩ := exists_int_text i
  rw [htext, List.append_assoc]
  refine ⟨_, read_decimal negative n hr, ?_⟩
  cases negative with
  | false => exact number?_of_whole (Int.ofNat_lt.mp hbounds.2)
  | true =>
    have hn : n ≤ bitValues 63 := by
      have hlow : -(bitValues 63 : Int) ≤ -(n : Int) := hbounds.1
      omega
    exact number?_of_negative (hpos rfl) hn

/-! ## §3 Plain values -/

mutual

/-- Whether all numbers in a value are whole ones of 64 bits. -/
def Value.isPlain : Value → Bool
  | .num (.int i) => fitsWord i
  | .num (.float _) => false
  | .arr items => itemsPlain items
  | .obj fields => fieldsPlain fields
  | _ => true

def itemsPlain : List Value → Bool
  | [] => true
  | v :: vs => v.isPlain && itemsPlain vs

def fieldsPlain : List (String × Value) → Bool
  | [] => true
  | (_, v) :: fs => v.isPlain && fieldsPlain fs

end

/-- The text begins like a value: with no blank and no closing bracket. -/
def Begins (cs : List Char) : Prop := ∃ c tl, cs = c :: tl ∧ isSpace c = false ∧ c ≠ ']'

/-- So does a numeral. -/
theorem not_space_of_numeral {c : Char} (hc : c = '-' ∨ c.isDigit = true) :
    isSpace c = false ∧ c ≠ ']' := by
  rcases hc with rfl | hc
  · decide
  · have hne : ∀ d : Char, d.isDigit = false → c ≠ d := by
      rintro d hd rfl
      rw [hc] at hd
      cases hd
    exact ⟨by simp [isSpace, hne ' ' rfl, hne '\t' rfl, hne '\n' rfl, hne '\r' rfl], hne ']' rfl⟩

theorem skipSpace_of_begins {cs : List Char} (h : Begins cs) (rest : List Char) :
    skipSpace (cs ++ rest) = cs ++ rest := by
  obtain ⟨c, tl, rfl, hc, -⟩ := h
  simp [skipSpace, hc]

theorem begins_compact {v : Value} (hv : v.isPlain = true) : Begins v.compact.toList := by
  cases v with
  | null => exact ⟨'n', _, rfl, by decide, by decide⟩
  | bool b =>
    cases b
    · exact ⟨'f', _, rfl, by decide, by decide⟩
    · exact ⟨'t', _, rfl, by decide, by decide⟩
  | num n =>
    cases n with
    | float bits => cases hv
    | int i =>
      obtain ⟨c, tl, htext, hc⟩ := exists_int_text_cons i
      exact ⟨c, tl, by rw [Value.compact, htext], not_space_of_numeral hc⟩
  | str s => exact ⟨'"', _, by rw [Value.compact, quoted_toList], by decide, by decide⟩
  | arr items =>
    exact ⟨'[', _, by rw [Value.compact, String.toList_append, String.toList_append]; rfl,
      by decide, by decide⟩
  | obj fields =>
    exact ⟨'{', _, by rw [Value.compact, String.toList_append, String.toList_append]; rfl,
      by decide, by decide⟩

/-- A numeral is read where no other value begins. -/
theorem readValue_numeral {c : Char} (hc : c = '-' ∨ c.isDigit = true) (fuel : Nat)
    (tl : List Char) : readValue (fuel + 1) (c :: tl) =
      (Numeral.read (c :: tl)).map fun r => (.num r.1.number?, r.2) := by
  have hs : skipSpace (c :: tl) = c :: tl := by
    simp [skipSpace, (not_space_of_numeral hc).1]
  rw [readValue, hs]
  split
  case h_7 => cases Numeral.read (c :: tl) <;> rfl
  all_goals
    rename_i h
    obtain ⟨rfl, -⟩ := List.cons.inj h
    exact absurd hc (by decide)

/-! ## §4 Reading values -/

theorem stops_comma (cs : List Char) : Stops (',' :: cs) := by simp [Stops]

theorem stops_bracket (cs : List Char) : Stops (']' :: cs) := by simp [Stops]

theorem stops_brace (cs : List Char) : Stops ('}' :: cs) := by simp [Stops]

theorem compactItems_cons (v w : Value) (vs : List Value) :
    (compactItems (v :: w :: vs)).toList =
      v.compact.toList ++ ',' :: (compactItems (w :: vs)).toList := by
  simp [compactItems]

theorem compactFields_single (k : String) (v : Value) :
    (compactFields [(k, v)]).toList = (quoted k).toList ++ ':' :: v.compact.toList := by
  simp [compactFields]

theorem compactFields_cons (k : String) (v : Value) (f : String × Value)
    (fs : List (String × Value)) : (compactFields ((k, v) :: f :: fs)).toList =
      (quoted k).toList ++ ':' :: (v.compact.toList ++ ',' :: (compactFields (f :: fs)).toList) := by
  simp [compactFields]

theorem Begins.append {cs : List Char} (h : Begins cs) (more : List Char) :
    Begins (cs ++ more) := by
  obtain ⟨c, tl, rfl, hc⟩ := h
  exact ⟨c, tl ++ more, rfl, hc⟩

theorem begins_items {v : Value} {vs : List Value} (hv : v.isPlain = true) :
    Begins (compactItems (v :: vs)).toList := by
  cases vs with
  | nil => exact begins_compact hv
  | cons w vs =>
    rw [compactItems_cons]
    exact (begins_compact hv).append _

/-- The text of fields begins with the quote of a key. -/
theorem exists_fields_cons (k : String) (v : Value) (fs : List (String × Value)) :
    ∃ tl, (compactFields ((k, v) :: fs)).toList = '"' :: tl := by
  cases fs with
  | nil => exact ⟨_, by rw [compactFields_single, quoted_toList]; rfl⟩
  | cons f fs => exact ⟨_, by rw [compactFields_cons, quoted_toList]; rfl⟩

theorem readValue_int {i : Int} (hi : fitsWord i = true) {rest : List Char} (hr : Stops rest)
    (fuel : Nat) : readValue (fuel + 1) ((Number.int i).text.toList ++ rest) =
      some (.num (some (.int i)), rest) := by
  obtain ⟨c, tl, htext, hc⟩ := exists_int_text_cons i
  obtain ⟨numeral, hread, hnumber⟩ := read_int hi hr
  rw [htext, List.cons_append] at hread
  rw [htext, List.cons_append, readValue_numeral hc, hread, Option.map_some, hnumber]

theorem readValue_quoted (s : String) (rest : List Char) (fuel : Nat) :
    readValue (fuel + 1) ((quoted s).toList ++ rest) = some (.str (some s), rest) := by
  have hskip : ∀ cs, skipSpace ('"' :: cs) = '"' :: cs := fun _ => rfl
  rw [quoted_append, readValue, hskip]
  simp only [readString_quoted, bind, Option.bind_some]

/-- After an opening bracket and the begin of a value, items are read. -/
theorem readValue_bracket {cs : List Char} (h : Begins cs) (rest : List Char) (fuel : Nat) :
    readValue (fuel + 1) ('[' :: (cs ++ rest)) =
      (readItems fuel (cs ++ rest)).map fun r => (.arr r.1, r.2) := by
  have hskip : ∀ cs, skipSpace ('[' :: cs) = '[' :: cs := fun _ => rfl
  rw [readValue, hskip]
  simp only [skipSpace_of_begins h rest]
  split
  · rename_i hend
    obtain ⟨c, tl, rfl, -, hne⟩ := h
    exact absurd (List.cons.inj hend).1 hne
  · cases readItems fuel (cs ++ rest) <;> rfl

/-- After an opening brace and a quote, fields are read. -/
theorem readValue_brace (cs : List Char) (fuel : Nat) :
    readValue (fuel + 1) ('{' :: '"' :: cs) =
      (readFields fuel ('"' :: cs)).map fun r => (.obj r.1, r.2) := by
  have hbrace : ∀ cs, skipSpace ('{' :: cs) = '{' :: cs := fun _ => rfl
  have hquote : skipSpace ('"' :: cs) = '"' :: cs := rfl
  rw [readValue, hbrace]
  simp only [hquote]
  split
  · rename_i hend
    exact absurd (List.cons.inj hend).1 (by decide)
  · cases readFields fuel ('"' :: cs) <;> rfl

/-- What `fuel` is enough to read back: plain values, and the items and
fields of which arrays and objects consist, up to the closing bracket. -/
structure ReadsBack (fuel : Nat) : Prop where
  value : ∀ (v : Value) (rest : List Char), v.isPlain = true →
    2 * v.compact.toList.length ≤ fuel → Stops rest →
    readValue fuel (v.compact.toList ++ rest) = some (v.source, rest)
  items : ∀ (v : Value) (vs : List Value) (rest : List Char), itemsPlain (v :: vs) = true →
    2 * (compactItems (v :: vs)).toList.length < fuel →
    readItems fuel ((compactItems (v :: vs)).toList ++ ']' :: rest) =
      some (itemSources (v :: vs), rest)
  fields : ∀ (k : String) (v : Value) (fs : List (String × Value)) (rest : List Char),
    fieldsPlain ((k, v) :: fs) = true →
    2 * (compactFields ((k, v) :: fs)).toList.length < fuel →
    readFields fuel ((compactFields ((k, v) :: fs)).toList ++ '}' :: rest) =
      some (fieldSources ((k, v) :: fs), rest)

theorem readsBack_zero : ReadsBack 0 where
  value v rest hv hf _ := by
    obtain ⟨c, tl, hc, -⟩ := begins_compact hv
    rw [hc] at hf
    cases hf
  items _ _ _ _ hf := by cases hf
  fields _ _ _ _ _ hf := by cases hf

section Step

variable {fuel : Nat} (ih : ReadsBack fuel)

include ih

theorem ReadsBack.value_succ (v : Value) (rest : List Char) (hv : v.isPlain = true)
    (hf : 2 * v.compact.toList.length ≤ fuel + 1) (hr : Stops rest) :
    readValue (fuel + 1) (v.compact.toList ++ rest) = some (v.source, rest) := by
  cases v with
  | null => rfl
  | bool b => cases b <;> rfl
  | num n =>
    cases n with
    | float bits => cases hv
    | int i => exact readValue_int hv hr fuel
  | str s => exact readValue_quoted s rest fuel
  | arr items =>
    cases items with
    | nil => rfl
    | cons v vs =>
      have hplain : itemsPlain (v :: vs) = true := hv
      have htext : (Value.arr (v :: vs)).compact.toList =
          '[' :: ((compactItems (v :: vs)).toList ++ [']']) := by simp [Value.compact]
      rw [htext] at hf ⊢
      have hread := ih.items v vs rest hplain (by simp at hf; omega)
      rw [List.cons_append, List.append_assoc, List.singleton_append,
        readValue_bracket (begins_items (Bool.and_eq_true_iff.mp hplain).1), hread]
      rfl
  | obj fields =>
    cases fields with
    | nil => rfl
    | cons f fs =>
      obtain ⟨k, v⟩ := f
      have hplain : fieldsPlain ((k, v) :: fs) = true := hv
      have htext : (Value.obj ((k, v) :: fs)).compact.toList =
          '{' :: ((compactFields ((k, v) :: fs)).toList ++ ['}']) := by simp [Value.compact]
      rw [htext] at hf ⊢
      have hread := ih.fields k v fs rest hplain (by simp at hf; omega)
      obtain ⟨tl, htl⟩ := exists_fields_cons k v fs
      rw [htl, List.cons_append] at hread
      rw [List.cons_append, List.append_assoc, List.singleton_append, htl, List.cons_append,
        readValue_brace, hread]
      rfl

theorem ReadsBack.items_succ (v : Value) (vs : List Value) (rest : List Char)
    (hv : itemsPlain (v :: vs) = true)
    (hf : 2 * (compactItems (v :: vs)).toList.length < fuel + 1) :
    readItems (fuel + 1) ((compactItems (v :: vs)).toList ++ ']' :: rest) =
      some (itemSources (v :: vs), rest) := by
  obtain ⟨hfirst, hvs⟩ := Bool.and_eq_true_iff.mp hv
  cases vs with
  | nil =>
    have hread := ih.value v (']' :: rest) hfirst (Nat.le_of_lt_succ hf) (stops_bracket rest)
    have hs : skipSpace (']' :: rest) = ']' :: rest := rfl
    have htext : (compactItems [v]).toList = v.compact.toList := rfl
    rw [htext, readItems, hread]
    simp only [bind, Option.bind_some, hs]
    rfl
  | cons w vs =>
    rw [compactItems_cons] at hf ⊢
    rw [List.length_append, List.length_cons] at hf
    have hread := ih.value v (',' :: ((compactItems (w :: vs)).toList ++ ']' :: rest)) hfirst
      (by omega) (stops_comma _)
    have hmore := ih.items w vs rest hvs (by omega)
    have hs : ∀ cs, skipSpace (',' :: cs) = ',' :: cs := fun _ => rfl
    rw [List.append_assoc, List.cons_append, readItems, hread]
    simp only [bind, Option.bind_some, hs, hmore]
    rfl

theorem ReadsBack.fields_succ (k : String) (v : Value) (fs : List (String × Value))
    (rest : List Char) (hv : fieldsPlain ((k, v) :: fs) = true)
    (hf : 2 * (compactFields ((k, v) :: fs)).toList.length < fuel + 1) :
    readFields (fuel + 1) ((compactFields ((k, v) :: fs)).toList ++ '}' :: rest) =
      some (fieldSources ((k, v) :: fs), rest) := by
  obtain ⟨hfirst, hfs⟩ := Bool.and_eq_true_iff.mp hv
  have hquote : ∀ cs, skipSpace ('"' :: cs) = '"' :: cs := fun _ => rfl
  have hcolon : ∀ cs, skipSpace (':' :: cs) = ':' :: cs := fun _ => rfl
  cases fs with
  | nil =>
    rw [compactFields_single] at hf ⊢
    rw [List.length_append, List.length_cons] at hf
    have hread := ih.value v ('}' :: rest) hfirst (by omega) (stops_brace rest)
    have hs : skipSpace ('}' :: rest) = '}' :: rest := rfl
    rw [List.append_assoc, quoted_append, readFields, hquote]
    simp only [readString_quoted, bind, Option.bind_some, List.cons_append, hcolon, hread, hs]
    rfl
  | cons f fs =>
    obtain ⟨k', w⟩ := f
    rw [compactFields_cons] at hf ⊢
    rw [List.length_append, List.length_cons, List.length_append, List.length_cons] at hf
    have hread := ih.value v (',' :: ((compactFields ((k', w) :: fs)).toList ++ '}' :: rest)) hfirst
      (by omega) (stops_comma _)
    have hmore := ih.fields k' w fs rest hfs (by omega)
    have hs : ∀ cs, skipSpace (',' :: cs) = ',' :: cs := fun _ => rfl
    rw [List.append_assoc, quoted_append, readFields, hquote]
    simp only [readString_quoted, bind, Option.bind_some, List.cons_append, List.append_assoc,
      hcolon, hread, hs, hmore]
    rfl

end Step

/-- **Fuel for twice the characters is enough.** -/
theorem readsBack (fuel : Nat) : ReadsBack fuel := by
  induction fuel with
  | zero => exact readsBack_zero
  | succ fuel ih => exact ⟨ih.value_succ, ih.items_succ, ih.fields_succ⟩

/-! ## §5 Whole texts -/

/-- **The compact text of a plain value is read as its tree.** -/
theorem parse?_compact {v : Value} (hv : v.isPlain = true) :
    Source.parse? v.compact = some v.source := by
  have hread := (readsBack (2 * v.compact.toList.length + 1)).value v [] hv (by omega) nofun
  rw [List.append_nil] at hread
  simp only [Source.parse?, hread, bind, Option.bind_some]
  rfl

end FormatHost.Json
