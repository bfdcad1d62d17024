import Diagnostics.Json.Codec
import Diagnostics.Json.Record
import Diagnostics.Problem
import Diagnostics.Severity.Mask

/-!
# JSON forms of the diagnostic values

Positions, locations and problems are records, a severity is its label, a mask its byte. A problem
without a message may leave the member out.
-/
namespace Diagnostics.Json

instance : Codec Position where
  toDocument p := .object [(some "line", toDocument p.line), (some "column", toDocument p.column)]
  ofDocument? d :=
    match d.fields? ["line", "column"] with
    | some [some line, some column] => do
        return ⟨← ofDocument? line, ← ofDocument? column⟩
    | _ => none

instance : Codec Location where
  toDocument l :=
    .object
      [(some "module_name", toDocument l.moduleName), (some "begin", toDocument l.span.start),
       (some "end", toDocument l.span.stop)]
  ofDocument? d :=
    match d.fields? ["module_name", "begin", "end"] with
    | some [some moduleName, some start, some stop] => do
        return ⟨← ofDocument? moduleName, ⟨← ofDocument? start, ← ofDocument? stop⟩⟩
    | _ => none

/-- The name of a severity in a document. -/
def severityLabel : Severity → String
  | .abort => "Abort"
  | .error => "Error"
  | .warning => "Warning"

def ofLabel? (label : String) : Option Severity := Severity.all.find? (severityLabel · = label)

/-- A severity is read from its label or from an object with the label as its one member, whose
value is `null`. -/
instance : Codec Severity where
  toDocument s := .text (some (severityLabel s))
  ofDocument?
    | .text (some label) => ofLabel? label
    | .object [(some label, .null)] => ofLabel? label
    | _ => none

/-- Bits of the byte that are no flag are dropped on reading. -/
instance : Codec Mask where
  toDocument m := toDocument m.bits
  ofDocument? d := (ofDocument? d).map Mask.ofByte

instance : Codec Problem where
  toDocument p :=
    .object
      [(some "location", toDocument p.location), (some "message", toDocument p.message),
       (some "severity", toDocument p.severity)]
  ofDocument? d :=
    match d.fields? ["location", "message", "severity"] with
    | some [some location, message, some severity] => do
        return ⟨← ofDocument? location, ← ofDocument? (message.getD .null), ← ofDocument? severity⟩
    | _ => none

end Diagnostics.Json
