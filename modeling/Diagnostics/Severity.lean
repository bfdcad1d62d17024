import Diagnostics.Fault

/-!
# Severities

How serious a problem is. Each severity owns one bit of a byte, its *flag*, and has a place in
the order of gravity `warning < error < abort`. Flags and gravity run in opposite directions.
-/
namespace Diagnostics

inductive Severity where
  /-- The analysis could not continue. -/
  | abort
  /-- The input is wrong. -/
  | error
  /-- The input is suspicious but usable. -/
  | warning
  deriving DecidableEq, Repr, Hashable

namespace Severity

/-- All severities, the gravest first. -/
def all : List Severity := [.abort, .error, .warning]

/-- The flag of a severity. -/
def bits : Severity → UInt8
  | .abort => 16
  | .error => 32
  | .warning => 64

def name : Severity → String
  | .abort => "abort"
  | .error => "error"
  | .warning => "warning"

/-- Place in the order of gravity. -/
def rank : Severity → Nat
  | .warning => 0
  | .error => 1
  | .abort => 2

instance : Ord Severity := ⟨fun a b => compare a.rank b.rank⟩
instance : LE Severity := ⟨fun a b => a.rank ≤ b.rank⟩
instance : LT Severity := ⟨fun a b => a.rank < b.rank⟩
instance (a b : Severity) : Decidable (a ≤ b) := inferInstanceAs (Decidable (a.rank ≤ b.rank))
instance (a b : Severity) : Decidable (a < b) := inferInstanceAs (Decidable (a.rank < b.rank))
instance : Max Severity := maxOfLe
instance : Min Severity := minOfLe

/-- The list from the least to the most grave. -/
def sort (severities : List Severity) : List Severity :=
  severities.mergeSort (· ≤ ·)

/-- The severity with this flag. A byte that is no flag, or joins several, is refused. -/
def ofBits? (bits : UInt8) : Except Fault Severity :=
  match all.find? (·.bits = bits) with
  | some severity => .ok severity
  | none => .error (.invalidSeverity bits)

end Severity
end Diagnostics
