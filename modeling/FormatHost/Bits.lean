/-
FormatHost.Bits — the sizes of machine words.
-/
namespace FormatHost

/-- How many values `n` bits have. -/
def bitValues (n : Nat) : Nat := Nat.pow 2 n

end FormatHost
