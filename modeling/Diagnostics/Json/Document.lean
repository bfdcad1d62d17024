/-!
# JSON documents

A JSON document as the values of this library need it. The members of an object keep their order
and may repeat a name. A text is `none` when its escapes leave a surrogate unpaired: such a text is
grammatical, but it is no sequence of characters. Of a number with a fraction or an exponent only
that fact and the digits in front are kept, since no value is read from one.
-/
namespace Diagnostics.Json

structure Number where
  negative : Bool
  /-- The digits in front of a fraction or an exponent. -/
  magnitude : Nat
  /-- There is neither a fraction nor an exponent. -/
  integral : Bool
  deriving DecidableEq, Repr

namespace Number

def ofInt (n : Int) : Number := ⟨n < 0, n.natAbs, true⟩

/-- The integer that a number denotes. The number `-0` denotes none, because its sign would be
lost. -/
def toInt? (n : Number) : Option Int :=
  if !n.integral then none
  else if !n.negative then some n.magnitude
  else if n.magnitude = 0 then none
  else some (-n.magnitude)

end Number

inductive Document where
  | null
  | bool (value : Bool)
  | number (value : Number)
  | text (value : Option String)
  | array (items : List Document)
  | object (members : List (Option String × Document))
  deriving Repr

end Diagnostics.Json
