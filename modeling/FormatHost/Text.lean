/-
FormatHost.Text — cutting text into pieces.

Every reader of this library (configuration formats, patterns, ranges,
command output) cuts text at a character, at line ends or at blanks.
The cuts are defined here once, over `List Char`, so that each has
equation lemmas to reason with:

* §1 blanks: the characters with the Unicode property `White_Space`,
  and trimming them from both ends;
* §2 cuts: `splitAll` at every separator (`splitAll_join` puts the
  pieces back together), `splitOnce` at the first one;
* §3 lines: the pieces between line feeds, each without one carriage
  return before its line feed;
* §4 decimal digits and bounded numbers.
-/

namespace FormatHost.Text

/-! ## §1 Blanks -/

/-- The characters with the Unicode property `White_Space`. -/
def isBlank (c : Char) : Bool :=
  let n := c.toNat
  (9 ≤ n && n ≤ 13) || n == 0x20 || n == 0x85 || n == 0xA0 || n == 0x1680 ||
    (0x2000 ≤ n && n ≤ 0x200A) || n == 0x2028 || n == 0x2029 || n == 0x202F ||
    n == 0x205F || n == 0x3000

/-- Drop from the end while `p` holds. -/
def dropRightWhile (p : Char → Bool) (cs : List Char) : List Char :=
  (cs.reverse.dropWhile p).reverse

/-- Drop the blanks at both ends. -/
def trim (cs : List Char) : List Char :=
  dropRightWhile isBlank (cs.dropWhile isBlank)

/-- Drop the blanks at the end. -/
def trimEnd (cs : List Char) : List Char :=
  dropRightWhile isBlank cs

/-- `trim` on a string. -/
def trimString (s : String) : String :=
  String.ofList (trim s.toList)

/-! ## §2 Cuts -/

/-- The pieces between separators; there is always one more piece than
there are separators. -/
def splitAll (sep : Char) : List Char → List (List Char)
  | [] => [[]]
  | c :: cs =>
    if c = sep then [] :: splitAll sep cs
    else
      match splitAll sep cs with
      | [] => [[c]]
      | piece :: pieces => (c :: piece) :: pieces

/-- The pieces with a separator between each two neighbours. -/
def joinWith (sep : Char) : List (List Char) → List Char
  | [] => []
  | [piece] => piece
  | piece :: pieces => piece ++ sep :: joinWith sep pieces

theorem splitAll_ne_nil (sep : Char) (cs : List Char) : splitAll sep cs ≠ [] := by
  cases cs with
  | nil => simp [splitAll]
  | cons c cs =>
    unfold splitAll
    split
    · simp
    · split <;> simp

/-- Joining the pieces gives the text back. -/
theorem joinWith_splitAll (sep : Char) (cs : List Char) :
    joinWith sep (splitAll sep cs) = cs := by
  induction cs with
  | nil => rfl
  | cons c cs ih =>
    by_cases h : c = sep
    · cases hs : splitAll sep cs with
      | nil => exact absurd hs (splitAll_ne_nil sep cs)
      | cons p ps => rw [hs] at ih; simp [splitAll, h, hs, joinWith, ih]
    · cases hs : splitAll sep cs with
      | nil => exact absurd hs (splitAll_ne_nil sep cs)
      | cons p ps =>
        rw [hs] at ih
        cases ps with
        | nil => simpa [splitAll, h, hs, joinWith] using ih
        | cons q qs => simpa [splitAll, h, hs, joinWith] using ih

/-- The text before and after the first separator. -/
def splitOnce (sep : Char) : List Char → Option (List Char × List Char)
  | [] => none
  | c :: cs =>
    if c = sep then some ([], cs)
    else (splitOnce sep cs).map fun (before, after) => (c :: before, after)

/-- The cut puts back together to the text, and the first part holds no
separator. -/
theorem splitOnce_eq_some {sep : Char} {cs before after : List Char}
    (h : splitOnce sep cs = some (before, after)) :
    cs = before ++ sep :: after ∧ sep ∉ before := by
  induction cs generalizing before with
  | nil => simp [splitOnce] at h
  | cons c cs ih =>
    by_cases hc : c = sep
    · simp only [splitOnce, if_pos hc, Option.some.injEq, Prod.mk.injEq] at h
      obtain ⟨rfl, rfl⟩ := h
      simp [hc]
    · simp only [splitOnce, if_neg hc, Option.map_eq_some_iff] at h
      obtain ⟨⟨b, a⟩, hb, he⟩ := h
      simp only [Prod.mk.injEq] at he
      obtain ⟨rfl, rfl⟩ := he
      obtain ⟨h1, h2⟩ := ih hb
      exact ⟨by simp [h1], by simp [h2, Ne.symm hc]⟩

/-! ## §3 Lines -/

/-- Remove one carriage return at the end. -/
def dropCarriageReturn (cs : List Char) : List Char :=
  match cs.reverse with
  | '\r' :: rest => rest.reverse
  | _ => cs

/-- The lines of a text. A line ends in a line feed, with or without one
carriage return before it; text after the last line feed is a line of
its own unless it is empty, and keeps its carriage return. -/
def lines (cs : List Char) : List (List Char) :=
  match (splitAll '\n' cs).reverse with
  | [] => []
  | last :: rest =>
    let ended := rest.reverse.map dropCarriageReturn
    if last.isEmpty then ended else ended ++ [last]

/-! ## §4 Digits and numbers -/

/-- The value of an ASCII decimal digit. -/
def digit? (c : Char) : Option Nat :=
  if '0' ≤ c ∧ c ≤ '9' then some (c.toNat - '0'.toNat) else none

/-- The value of an ASCII hexadecimal digit. -/
def hexDigit? (c : Char) : Option Nat :=
  if '0' ≤ c ∧ c ≤ '9' then some (c.toNat - '0'.toNat)
  else if 'a' ≤ c ∧ c ≤ 'f' then some (c.toNat - 'a'.toNat + 10)
  else if 'A' ≤ c ∧ c ≤ 'F' then some (c.toNat - 'A'.toNat + 10)
  else none

/-- Read digits in the given base, most significant first, onto `acc`. -/
def readDigits (base : Nat) (value : Char → Option Nat) : Nat → List Char → Option Nat
  | acc, [] => some acc
  | acc, c :: cs => do
    let d ← value c
    if d < base then readDigits base value (acc * base + d) cs else none

/-- A natural number of at least one decimal digit. -/
def decimal? (cs : List Char) : Option Nat :=
  if cs.isEmpty then none else readDigits 10 digit? 0 cs

/-- An optional `+` and a decimal number below `bound`. -/
def boundedDecimal? (bound : Nat) (cs : List Char) : Option Nat :=
  let digits := match cs with
    | '+' :: rest => rest
    | _ => cs
  (decimal? digits).filter (· < bound)

/-- `prefix` of a list removed, when it is one. -/
def stripFront {α : Type} [BEq α] : List α → List α → Option (List α)
  | [], cs => some cs
  | _ :: _, [] => none
  | p :: ps, c :: cs => if p == c then stripFront ps cs else none

theorem stripFront_append {α : Type} [BEq α] [ReflBEq α] (front rest : List α) :
    stripFront front (front ++ rest) = some rest := by
  induction front with
  | nil => rfl
  | cons a front ih => rw [List.cons_append, stripFront, BEq.refl, if_pos rfl, ih]

theorem eq_append_of_stripFront {α : Type} [BEq α] [LawfulBEq α] {front cs rest : List α}
    (h : stripFront front cs = some rest) : cs = front ++ rest := by
  induction front generalizing cs with
  | nil => exact Option.some.inj h
  | cons a front ih =>
    cases cs with
    | nil => cases h
    | cons c cs =>
      unfold stripFront at h
      split at h
      · rename_i hac
        rw [beq_iff_eq.mp hac, ih h]
        rfl
      · cases h

/-- ASCII capitals become small letters; everything else is kept. -/
def lowerAscii (c : Char) : Char :=
  if 'A' ≤ c ∧ c ≤ 'Z' then Char.ofNat (c.toNat + 32) else c

/-- ASCII small letters become capitals; everything else is kept. -/
def upperAscii (c : Char) : Char :=
  if 'a' ≤ c ∧ c ≤ 'z' then Char.ofNat (c.toNat - 32) else c

end FormatHost.Text
