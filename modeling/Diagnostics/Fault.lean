import Diagnostics.Text.Decimal

/-!
# Faults of untyped input

What can be wrong with input from which a diagnostic value is built. Once built, a value is
valid, so these faults arise at construction only.
-/
namespace Diagnostics

open Text (decimal hexByte)

inductive Fault where
  /-- The byte is not the flag of exactly one severity. -/
  | invalidSeverity (bits : UInt8)
  /-- A list of coordinates has fewer than four values; `count` says how many. -/
  | invalidCoordinates (count : Nat)
  /-- A filter expression names no severity; `name` is the part as it was written. -/
  | unknownSeverity (name : String)
  deriving DecidableEq, Repr

/-- One line for the reader of a report. -/
def Fault.message : Fault → String
  | .invalidSeverity bits =>
      "invalid severity: 0x" ++ String.ofList (hexByte bits) ++ " is not a single severity flag"
  | .invalidCoordinates count => "invalid coordinates: expected 4 values, got " ++ decimal count
  | .unknownSeverity name => "unknown severity `" ++ name ++ "`"

end Diagnostics
