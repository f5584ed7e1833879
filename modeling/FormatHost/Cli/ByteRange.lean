/-
FormatHost.Cli.ByteRange — ranges of bytes, written `START:END`.
-/
import FormatHost.Bits
import FormatHost.Cli.Failure

namespace FormatHost.Cli.ByteRange

/-- An offset: a decimal number of 64 bits with blanks around it. -/
def parseOffset (cs : List Char) : Except CommandFailure Nat :=
  match Text.boundedDecimal? (bitValues 64) (Text.trim cs) with
  | some n => .ok n
  | none => .error (.invalidArgument ("invalid range offset '" ++ String.ofList cs ++ "'"))

/-- Two offsets, of which the first is not the greater one. -/
def parse (raw : String) : Except CommandFailure (Nat × Nat) := do
  match Text.splitOnce ':' raw.toList with
  | none => .error (.invalidArgument ("range must be START:END, got '" ++ raw ++ "'"))
  | some (start, stop) =>
    let start ← parseOffset start
    let stop ← parseOffset stop
    if stop < start then
      .error (.invalidArgument
        ("range start " ++ toString start ++ " is after end " ++ toString stop))
    else .ok (start, stop)

/-- The range of an option, when it is given. -/
def parse? : Option String → Except CommandFailure (Option (Nat × Nat))
  | some raw => (parse raw).map some
  | none => .ok none

end FormatHost.Cli.ByteRange
