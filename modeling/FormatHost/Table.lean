/-
FormatHost.Table — tables with a key each.

A table holds at most one entry per key. Keys are compared by `==`, which
for paths goes by components; an entry that is replaced keeps the key it
was made with.
-/
import FormatHost.Path

namespace FormatHost

structure Table (κ α : Type) where
  entries : List (κ × α) := []
  deriving Repr

namespace Table

variable {κ α : Type} [BEq κ]

def find? (t : Table κ α) (k : κ) : Option α :=
  (t.entries.find? fun e => e.1 == k).map (·.2)

def erase (t : Table κ α) (k : κ) : Table κ α :=
  ⟨t.entries.filter fun e => !(e.1 == k)⟩

/-- The value of `k` becomes `a`. -/
def insert (t : Table κ α) (k : κ) (a : α) : Table κ α :=
  match t.entries.find? fun e => e.1 == k with
  | some old => ⟨(t.erase k).entries ++ [(old.1, a)]⟩
  | none => ⟨t.entries ++ [(k, a)]⟩

def filterKeys (t : Table κ α) (keep : κ → Bool) : Table κ α :=
  ⟨t.entries.filter fun e => keep e.1⟩

def keys (t : Table κ α) : List κ := t.entries.map (·.1)

end Table

/-- A table keyed by path. -/
abbrev PathMap (α : Type) := Table Path α

end FormatHost
