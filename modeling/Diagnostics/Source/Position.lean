/-!
# Positions

One end of a span of source text. Whether lines and columns count from zero or from one is the
producer's choice; only `-1` is reserved, for "not known".
-/
namespace Diagnostics

structure Position where
  line : Int32
  column : Int32
  deriving DecidableEq, Repr, Hashable

namespace Position

/-- Stands for a line or column that is not known. -/
def unknownCoordinate : Int32 := -1

def unknown : Position := ⟨unknownCoordinate, unknownCoordinate⟩

instance : Inhabited Position := ⟨unknown⟩

/-- Neither the line nor the column is known. -/
def isUnknown (p : Position) : Bool := p == unknown

end Position
end Diagnostics
