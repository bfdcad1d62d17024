import Diagnostics.Source.Location

/-!
# Locations under construction

The routes by which a producer hands over a location. Only a list of coordinates can be refused.
-/
namespace Diagnostics.Location

inductive Draft where
  | spanned (moduleName : Option String) (span : Span)
  | optionallySpanned (moduleName : Option String) (span : Option Span)
  | listed (moduleName : Option String) (coordinates : Option (List Int32))
  | nil
  | default
  deriving DecidableEq, Repr

def Draft.build : Draft → Except Fault Location
  | .spanned moduleName span => .ok (ofSpan moduleName span)
  | .optionallySpanned moduleName span => .ok (ofOptionalSpan moduleName span)
  | .listed moduleName coordinates => ofList? moduleName coordinates
  | .nil => .ok Location.nil
  | .default => .ok Inhabited.default

end Diagnostics.Location
