import Std.Data.HashSet

/-!
# Comparing values

How the values of a list compare with each other: as equal or not, by hash, and as members of a
set.
-/
namespace Diagnostics

structure Comparison where
  /-- Row `i`, column `j`: the values at `i` and `j` are equal. -/
  equal : List (List Bool)
  /-- Equal values have equal hashes. -/
  hashesAgree : Bool
  /-- How many members a hash set of the values has. -/
  distinct : Nat
  deriving DecidableEq, Repr

variable {α : Type} [DecidableEq α] [Hashable α]

/-- One row for each value, one column for each value. -/
def Comparison.matrix {β : Type} (values : List α) (relation : α → α → β) : List (List β) :=
  values.map fun a => values.map (relation a)

def Comparison.ofList (values : List α) : Comparison where
  equal := matrix values fun a b => decide (a = b)
  hashesAgree := values.all fun a => values.all fun b => a ≠ b || hash a == hash b
  distinct := (Std.HashSet.ofList values).size

end Diagnostics
