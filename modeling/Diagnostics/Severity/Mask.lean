import Diagnostics.Severity

/-!
# Sets of severities

A mask is a set of severities, kept as one byte that holds the flags of its members. No other bit
of the byte is ever set, so two masks with the same members are the same byte.
-/
namespace Diagnostics

structure Mask where
  bits : UInt8
  /-- Only the flags of severities are set. -/
  flags_only : bits &&& 112 = bits
  deriving DecidableEq, Repr

namespace Mask

instance : Hashable Mask := ⟨fun m => hash m.bits⟩

/-- Intersecting with the three flags leaves nothing but flags. -/
theorem and_flags_only (b : UInt8) : b &&& 112 &&& 112 = b &&& 112 := by
  rw [UInt8.and_assoc]; rfl

theorem or_flags_only {a b : UInt8} (ha : a &&& 112 = a) (hb : b &&& 112 = b) :
    (a ||| b) &&& 112 = a ||| b := by
  have ha' := congrArg UInt8.toBitVec ha
  have hb' := congrArg UInt8.toBitVec hb
  apply UInt8.toBitVec_inj.1
  simp only [UInt8.toBitVec_and, UInt8.toBitVec_or] at ha' hb' ⊢
  rw [BitVec.and_or_distrib_right, ha', hb']

/-- The set named by a byte; bits that are no flag are dropped. -/
def ofByte (b : UInt8) : Mask := ⟨b &&& 112, and_flags_only b⟩

/-- The set without members. -/
def empty : Mask := ⟨0, rfl⟩

/-- The set of all severities. -/
def full : Mask := ⟨112, rfl⟩

def ofSeverity (s : Severity) : Mask := ⟨s.bits, by cases s <;> rfl⟩

def union (a b : Mask) : Mask := ⟨a.bits ||| b.bits, or_flags_only a.flags_only b.flags_only⟩

def inter (a b : Mask) : Mask :=
  ⟨a.bits &&& b.bits, by rw [UInt8.and_assoc, b.flags_only]⟩

instance : EmptyCollection Mask := ⟨empty⟩
instance : Inhabited Mask := ⟨empty⟩
instance : Singleton Severity Mask := ⟨ofSeverity⟩
instance : Union Mask := ⟨union⟩
instance : Inter Mask := ⟨inter⟩

/-- A severity is a member if its flag is set. -/
def contains (m : Mask) (s : Severity) : Bool := m.bits &&& s.bits != 0

instance : Membership Severity Mask := ⟨fun m s => m.contains s = true⟩
instance (s : Severity) (m : Mask) : Decidable (s ∈ m) :=
  inferInstanceAs (Decidable (m.contains s = true))

def insert (m : Mask) (s : Severity) : Mask := m ∪ {s}

def isEmpty (m : Mask) : Bool := m.bits == 0

/-- The set of the severities in a list. -/
def ofList (severities : List Severity) : Mask := severities.foldl insert ∅

/-- The members, the gravest first. -/
def toList (m : Mask) : List Severity := Severity.all.filter m.contains

/-- The gravest member. -/
def mostSevere? (m : Mask) : Option Severity := m.toList.max?

/-- The union of each two neighbours in a list. -/
def ofNeighbours (severities : List Severity) : List Mask :=
  severities.zipWith (fun a b => {a} ∪ {b}) severities.tail

end Mask
end Diagnostics
