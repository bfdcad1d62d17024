import Diagnostics.Fault
import Diagnostics.Source.Position

/-!
# Locations

A span of source text in a named module. A location is always complete: a producer that does not
know the module or the span gets the sentinel values, so that equality, order of output and
printed text need no case for a missing part.
-/
namespace Diagnostics

open Text (decimal)

/-- From the first position of a stretch of text to its last one. -/
structure Span where
  start : Position
  stop : Position
  deriving DecidableEq, Repr, Hashable

namespace Span

def unknown : Span := ⟨.unknown, .unknown⟩

instance : Inhabited Span := ⟨unknown⟩

def isUnknown (s : Span) : Bool := s.start.isUnknown && s.stop.isUnknown

/-- Start line, start column, stop line, stop column. -/
def ofCoordinates (startLine startColumn stopLine stopColumn : Int32) : Span :=
  ⟨⟨startLine, startColumn⟩, ⟨stopLine, stopColumn⟩⟩

def coordinates (s : Span) : List Int32 :=
  [s.start.line, s.start.column, s.stop.line, s.stop.column]

def lines (s : Span) : List Int32 := [s.start.line, s.stop.line]

def columns (s : Span) : List Int32 := [s.start.column, s.stop.column]

/-- The span with the first four coordinates of a list; what follows them is ignored. -/
def ofList? : List Int32 → Except Fault Span
  | startLine :: startColumn :: stopLine :: stopColumn :: _ =>
      .ok (ofCoordinates startLine startColumn stopLine stopColumn)
  | short => .error (.invalidCoordinates short.length)

end Span

structure Location where
  moduleName : String
  span : Span
  deriving DecidableEq, Repr, Hashable

namespace Location

/-- The module name of a location whose module is not known. -/
def unknownModule : String := "-- unknown --"

/-- The location of what has no known place. -/
def nil : Location := ⟨unknownModule, .unknown⟩

instance : Inhabited Location := ⟨nil⟩

/-- Module name and both positions are those of `nil`. -/
def isNil (l : Location) : Bool := l.moduleName == unknownModule && l.span.isUnknown

/-- An absent module name becomes `unknownModule`. -/
def ofSpan (moduleName : Option String) (span : Span) : Location :=
  ⟨moduleName.getD unknownModule, span⟩

/-- An absent span becomes the unknown one. -/
def ofOptionalSpan (moduleName : Option String) (span : Option Span) : Location :=
  ofSpan moduleName (span.getD .unknown)

/-- Takes coordinates whose number is known only when they arrive. -/
def ofList? (moduleName : Option String) (coordinates : Option (List Int32)) :
    Except Fault Location :=
  match coordinates with
  | none => .ok (ofOptionalSpan moduleName none)
  | some list => return ofOptionalSpan moduleName (some (← Span.ofList? list))

/-- Unknown parts are written out like any others. -/
def text (l : Location) : String :=
  "from line " ++ decimal l.span.start.line.toInt ++
  ", column " ++ decimal l.span.start.column.toInt ++
  " to line " ++ decimal l.span.stop.line.toInt ++
  ", column " ++ decimal l.span.stop.column.toInt ++
  " of module " ++ l.moduleName

end Location
end Diagnostics
