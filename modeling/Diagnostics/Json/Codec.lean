import Diagnostics.Json.Reader
import Diagnostics.Json.Writer

/-!
# Values as documents

A type with a JSON form says how a value becomes a document and which documents are read as a
value. Texts, optional texts and integers of a range have their forms here.
-/
namespace Diagnostics.Json

class Codec (α : Type) where
  toDocument : α → Document
  ofDocument? : Document → Option α

export Codec (toDocument ofDocument?)

variable {α : Type} [Codec α]

/-- The compact text of a value. -/
def encode (value : α) : String := (toDocument value).toText

/-- The value that a text holds. -/
def decode? (text : String) : Option α := do ofDocument? (← Document.read? text)

namespace Document

def ofInt (n : Int) : Document := .number (.ofInt n)

/-- The integer that a document holds, if it lies in the range. -/
def intWithin? (least greatest : Int) : Document → Option Int
  | .number numeral => do
      let n ← numeral.toInt?
      if least ≤ n ∧ n ≤ greatest then return n else none
  | _ => none

end Document

instance : Codec String where
  toDocument text := .text (some text)
  ofDocument?
    | .text text => text
    | _ => none

/-- An absent text is `null`. -/
instance : Codec (Option String) where
  toDocument
    | some text => .text (some text)
    | none => .null
  ofDocument?
    | .null => some none
    | .text (some text) => some (some text)
    | _ => none

instance : Codec Int32 where
  toDocument n := .ofInt n.toInt
  ofDocument? d := (d.intWithin? Int32.minValue.toInt Int32.maxValue.toInt).map Int32.ofInt

instance : Codec UInt8 where
  toDocument b := .ofInt b.toNat
  ofDocument? d := (d.intWithin? 0 255).map fun n => UInt8.ofNat n.toNat

end Diagnostics.Json
