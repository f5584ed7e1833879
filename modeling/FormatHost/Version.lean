/-
FormatHost.Version — semantic versions.

Three numbers without leading zeros, then optionally `-` and a
pre-release, then optionally `+` and build data, each a list of
identifiers between dots. Numeric identifiers of a pre-release have no
leading zeros either.
-/
import FormatHost.Bits
import FormatHost.Text

namespace FormatHost

structure Version where
  major : Nat
  minor : Nat
  patch : Nat
  /-- The text after `-`, empty without a pre-release. -/
  preRelease : String := ""
  /-- The text after `+`, empty without build data. -/
  build : String := ""
  deriving Repr, DecidableEq

namespace Version

def text (v : Version) : String :=
  toString v.major ++ "." ++ toString v.minor ++ "." ++ toString v.patch ++
    (if v.preRelease == "" then "" else "-" ++ v.preRelease) ++
    (if v.build == "" then "" else "+" ++ v.build)

/-- A number of 64 bits without leading zeros. -/
def number? (cs : List Char) : Option Nat :=
  match cs with
  | '0' :: _ :: _ => none
  | _ => (Text.decimal? cs).filter (· < bitValues 64)

def isIdentifierChar (c : Char) : Bool :=
  ('0' ≤ c && c ≤ '9') || ('a' ≤ c && c ≤ 'z') || ('A' ≤ c && c ≤ 'Z') || c == '-'

/-- An identifier; with `strict`, a numeric one has no leading zero. -/
def isIdentifier (strict : Bool) (cs : List Char) : Bool :=
  !cs.isEmpty && cs.all isIdentifierChar &&
    !(strict && cs.length > 1 && cs.head? == some '0' && cs.all fun c => (Text.digit? c).isSome)

def areIdentifiers (strict : Bool) (cs : List Char) : Bool :=
  (Text.splitAll '.' cs).all (isIdentifier strict)

def parse? (s : String) : Option Version := do
  let (front, build) ← match Text.splitOnce '+' s.toList with
    | some (a, b) => if areIdentifiers false b then some (a, b) else none
    | none => some (s.toList, [])
  let (core, pre) ← match Text.splitOnce '-' front with
    | some (a, b) => if areIdentifiers true b then some (a, b) else none
    | none => some (front, [])
  match Text.splitAll '.' core with
  | [a, b, c] =>
    some ⟨← number? a, ← number? b, ← number? c, String.ofList pre, String.ofList build⟩
  | _ => none

end Version
end FormatHost
