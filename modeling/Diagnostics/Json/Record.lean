import Diagnostics.Json.Document

/-!
# Records

A record is a value with named fields in a fixed order. A document holds one in either of two
forms: an object, whose members may stand in any order among others of no meaning, or an array of
all the fields in their order.
-/
namespace Diagnostics.Json.Document

abbrev Members := List (Option String × Document)

/-- How many members have a name. -/
def occurrences (members : Members) (name : String) : Nat :=
  members.countP (·.1 = some name)

/-- An object can be read as a record if every member's name is a text and no field is given
twice. -/
def isRecord (names : List String) (members : Members) : Bool :=
  members.all (·.1.isSome) && names.all (occurrences members · ≤ 1)

/-- The documents of the named fields, `none` for a field that an object does not give. An array
gives all of them. -/
def fields? (names : List String) : Document → Option (List (Option Document))
  | .array items => if items.length = names.length then some (items.map some) else none
  | .object members =>
      if isRecord names members then some (names.map fun name => members.lookup (some name))
      else none
  | _ => none

end Diagnostics.Json.Document
