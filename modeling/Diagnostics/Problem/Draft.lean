import Diagnostics.Problem
import Diagnostics.Source.Location.Draft

/-!
# Problems under construction

The routes by which a producer hands over a problem, and whole lists of them. The first fault in
the order of writing is the fault of the whole.
-/
namespace Diagnostics.Problem

inductive Draft where
  | bare (severity : Severity)
  | spanned (moduleName : Option String) (span : Option Span) (message : Option String)
      (severity : Severity)
  | located (location : Option Location.Draft) (message : Option String) (severity : Severity)
  | raw (moduleName : Option String) (coordinates : Option (List Int32))
      (message : Option String) (bits : UInt8)
  | stated (severity : Severity) (location : Location.Draft) (message : String)
  deriving DecidableEq, Repr

def Draft.build : Draft → Except Fault Problem
  | .bare severity => .ok (Problem.bare severity)
  | .spanned moduleName span message severity =>
      .ok (Problem.spanned moduleName span message severity)
  | .located none message severity => .ok (Problem.located none message severity)
  | .located (some location) message severity =>
      return Problem.located (some (← location.build)) message severity
  | .raw moduleName coordinates message bits => ofRaw? moduleName coordinates message bits
  | .stated severity location message => return Problem.stated severity (← location.build) message

/-- All problems of a list, or the fault of the first draft that has one. -/
def Draft.buildAll (drafts : List Draft) : Except Fault (List Problem) := drafts.mapM build

end Diagnostics.Problem
