import Diagnostics.Severity
import Diagnostics.Source.Location

/-!
# Problems

What an analysis found: a place, a severity and, mostly, a message. A message that is absent
differs from an empty one.
-/
namespace Diagnostics

structure Problem where
  location : Location
  message : Option String
  severity : Severity
  deriving DecidableEq, Repr, Hashable

namespace Problem

/-- An absent location becomes `Location.nil`. -/
def located (location : Option Location) (message : Option String) (severity : Severity) :
    Problem :=
  ⟨location.getD .nil, message, severity⟩

/-- A problem found before any module was known, without a message. -/
def bare (severity : Severity) : Problem := located none none severity

def spanned (moduleName : Option String) (span : Option Span) (message : Option String)
    (severity : Severity) : Problem :=
  located (some (Location.ofOptionalSpan moduleName span)) message severity

/-- A problem with a message, at a known place. -/
def stated (severity : Severity) (location : Location) (message : String) : Problem :=
  located (some location) (some message) severity

/-- A problem from an untyped producer. The flag is looked at before the coordinates, so of two
faults the flag's is reported. -/
def ofRaw? (moduleName : Option String) (coordinates : Option (List Int32))
    (message : Option String) (bits : UInt8) : Except Fault Problem := do
  let severity ← Severity.ofBits? bits
  let location ← Location.ofList? moduleName coordinates
  return located (some location) message severity

def locationText (p : Problem) : String := p.location.text

/-- One line: severity, message if there is one, and the place in parentheses. -/
def text (p : Problem) : String :=
  match p.message with
  | some message => p.severity.name ++ ": " ++ message ++ " (" ++ p.location.text ++ ")"
  | none => p.severity.name ++ " (" ++ p.location.text ++ ")"

end Problem
end Diagnostics
