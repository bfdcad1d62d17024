import Diagnostics.Problem

/-!
# Value types and views

The types of the values for which capabilities are looked up and of the views that providers
produce, with a tag for each. A view carries its tag, so that asking for it at another type is an
answer and not an error.
-/
namespace Diagnostics.Capability

open Text (decimal)

inductive ValueType where
  | problem | location | severity | integer | text | flag | unit
  /-- A type that a client brings along, known by its name. -/
  | foreign (name : String)
  deriving DecidableEq, Repr

namespace ValueType

/-- Of a client's type the library knows the bytes of the values only. -/
def Carrier : ValueType → Type
  | .problem => Problem
  | .location => Location
  | .severity => Severity
  | .integer => Int32
  | .text => String
  | .flag => Bool
  | .unit => Unit
  | .foreign _ => List UInt8

/-- The name by which the log knows a type. -/
def name : ValueType → String
  | .problem => "Problem"
  | .location => "Location"
  | .severity => "Severity"
  | .integer => "i32"
  | .text => "String"
  | .flag => "bool"
  | .unit => "()"
  | .foreign name => name

/-- The number by which a rule judges a value. A text counts its characters. -/
def number : (type : ValueType) → type.Carrier → Int32
  | .problem, (p : Problem) => p.location.span.start.line
  | .location, (l : Location) => l.span.start.line
  | .severity, (s : Severity) => Int32.ofNat s.bits.toNat
  | .integer, (n : Int32) => n
  | .text, (t : String) => Int32.ofNat t.length
  | .flag, (b : Bool) => if b then 1 else 0
  | .unit, _ => 0
  | .foreign _, (bytes : List UInt8) => Int32.ofNat bytes.length

/-- The text by which a rule judges a value. -/
def describe : (type : ValueType) → type.Carrier → String
  | .problem, (p : Problem) => p.text
  | .location, (l : Location) => l.text
  | .severity, (s : Severity) => s.name
  | .integer, (n : Int32) => decimal n.toInt
  | .text, (t : String) => t
  | .flag, (b : Bool) => if b then "true" else "false"
  | .unit, _ => "()"
  | .foreign name, _ => name

end ValueType

/-- A value together with its type. -/
structure View where
  type : ValueType
  value : type.Carrier

/-- The value of a view, if the view has this type. -/
def View.as? (type : ValueType) (view : View) : Option type.Carrier :=
  if h : view.type = type then some (h ▸ view.value) else none

/-- The outcome of a lookup: the view that a provider produced, or `none` if no provider answered.
-/
abbrev Resolution := Option View

namespace Resolution

/-- The view at a type; `none` also if a provider answered with a view of another type. -/
def as? (type : ValueType) (resolution : Resolution) : Option type.Carrier :=
  resolution.bind (View.as? type)

def text : Resolution → String
  | some _ => "Supported(Any \x7b .. \x7d)"
  | none => "Unsupported"

end Resolution
end Diagnostics.Capability
