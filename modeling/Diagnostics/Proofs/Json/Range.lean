import Diagnostics.Proofs.Json.Part
import Diagnostics.Proofs.Severity.FiniteSet

/-!
# The range of integers in a text

A coordinate has 32 bits and a mask one byte, but the literals in a text are of any length. A
literal is read as exactly its integer if that lies in the range, and otherwise the whole text is
not read, wherever in the text the literal stands.
-/
namespace Diagnostics.Json

open Reader (Spaces)
open Numeral (IsLiteral)

/-- How the integers of a part of 32 bits are read. -/
structure Part.IsExact {α : Type} [Codec α] (part : Part α Int32) : Prop where
  /-- A text that is read has the integer of the part. -/
  stored {text : String} {a : α} (reads : decode? text = some a) :
    ∃ d, Document.read? text = some d ∧ d.part? part.path = some (.ofInt (part.get a).toInt)
  /-- If a text has a number for the part, readable or not, the number stands in a place, as a
  literal. -/
  placed {text : String} {d : Document} {number : Number} (reads : Document.read? text = some d)
    (found : d.part? part.path = some (.number number)) :
    ∃ front literal back, text = String.ofList (front ++ (literal ++ back)) ∧
      IsPlace part.path front back ∧ IsLiteral literal number
  /-- Wherever a literal makes the text readable, any other literal of an integer does so just if
  the integer is in the range. -/
  accepted {front probe back literal : List Char} {a : α} {m : Number} {n : Int}
    (place : IsPlace part.path front back) (isProbe : IsLiteral probe m)
    (reads : decode? (String.ofList (front ++ (probe ++ back))) = some a)
    (isLiteral : IsLiteral literal (.ofInt n)) :
    (decode? (String.ofList (front ++ (literal ++ back))) : Option α).isSome ↔
      -2147483648 ≤ n ∧ n ≤ 2147483647
  /-- The integer is then the part, and nothing else has changed. -/
  value {front probe back literal : List Char} {a b : α} {m : Number} {n : Int}
    (place : IsPlace part.path front back) (isProbe : IsLiteral probe m)
    (reads : decode? (String.ofList (front ++ (probe ++ back))) = some a)
    (isLiteral : IsLiteral literal (.ofInt n))
    (readsLiteral : decode? (String.ofList (front ++ (literal ++ back))) = some b) :
    (part.get b).toInt = n ∧ b = part.put a (part.get b)
  /-- A literal with a fraction or an exponent makes the text unreadable. -/
  integral {front literal back : List Char} {number : Number}
    (place : IsPlace part.path front back) (isLiteral : IsLiteral literal number)
    (broken : number.integral = false) :
    (decode? (String.ofList (front ++ (literal ++ back))) : Option α) = none

/-- How the masks are read that a literal stands for, with spaces around it or without. -/
structure IsExactMask (lead literal trail : List Char) : Prop where
  accepted {n : Int} (isLiteral : IsLiteral literal (.ofInt n)) :
    (decode? (String.ofList (lead ++ (literal ++ trail))) : Option Mask).isSome ↔ 0 ≤ n ∧ n ≤ 255
  /-- The mask is named by the byte, and its text is the sum of the flags that the byte has. -/
  value {n : Int} {m : Mask} (isLiteral : IsLiteral literal (.ofInt n))
    (reads : decode? (String.ofList (lead ++ (literal ++ trail))) = some m) :
    ∃ byte : UInt8, byte.toNat = n ∧ m = Mask.ofByte byte ∧
      encode m = Text.decimal ↑(∑ s ∈ Mask.flagged byte.toNat, s.bits.toNat) ∧
      decode? (encode m) = some m
  integral {number : Number} (isLiteral : IsLiteral literal number)
    (broken : number.integral = false) :
    (decode? (String.ofList (lead ++ (literal ++ trail))) : Option Mask) = none

section Integers

variable {α : Type} [Codec α] {n : Int} {number : Number}

theorem Number.ofInt_injective {m n : Int} (same : ofInt m = ofInt n) : m = n := by
  have denotes := congrArg toInt? same
  rw [toInt?_ofInt, toInt?_ofInt] at denotes
  exact Option.some.inj denotes

theorem Document.intWithin?_broken {least greatest : Int} (broken : number.integral = false) :
    (Document.number number).intWithin? least greatest = none := by
  simp [intWithin?, Number.toInt?, broken]

theorem Document.intWithin?_isSome {least greatest : Int} :
    ((Document.ofInt n).intWithin? least greatest).isSome ↔ least ≤ n ∧ n ≤ greatest := by
  by_cases within : least ≤ n ∧ n ≤ greatest
  · simp [Document.intWithin?_ofInt within.1 within.2, within]
  · simp [Document.intWithin?_ofInt_outside within, within]

theorem ofDocument?_coordinate_isSome :
    (ofDocument? (.ofInt n) : Option Int32).isSome ↔ -2147483648 ≤ n ∧ n ≤ 2147483647 := by
  change (((Document.ofInt n).intWithin? _ _).map Int32.ofInt).isSome ↔ _
  rw [Option.isSome_map]
  exact Document.intWithin?_isSome

theorem ofDocument?_broken (broken : number.integral = false) :
    (ofDocument? (.number number) : Option Int32) = none := by
  change ((Document.number number).intWithin? _ _).map Int32.ofInt = none
  rw [Document.intWithin?_broken broken]
  rfl

theorem document?_literal {literal : List Char} (isLiteral : IsLiteral literal number) :
    Reader.document? literal = some (.number number) :=
  Reader.document?_eq_some.mpr (Reader.spells_number isLiteral).holds

theorem decode?_ofList (cs : List Char) :
    (decode? (String.ofList cs) : Option α) = (Reader.document? cs).bind ofDocument? := by
  rw [decode?, Document.read?, String.toList_ofList]
  rfl

namespace Part.IsRead

variable {part : Part α Int32} {front probe back literal : List Char} {a : α} {m : Number}

theorem decode?_number (isRead : part.IsRead) (place : IsPlace part.path front back)
    (isProbe : IsLiteral probe m)
    (reads : decode? (String.ofList (front ++ (probe ++ back))) = some a)
    (isLiteral : IsLiteral literal number) :
    decode? (String.ofList (front ++ (literal ++ back))) =
      (ofDocument? (.number number)).map (part.put a) := by
  obtain ⟨fill, frames, leads⟩ := place
  rw [decode?_ofList, frames (document?_literal isProbe)] at reads
  rw [decode?_ofList, frames (document?_literal isLiteral)]
  exact (isRead.replaced leads reads).2 _

theorem isExact (isRead : part.IsRead) : part.IsExact where
  stored {text a} reads := by
    obtain ⟨d, readsText, readsDocument⟩ := decode?_eq_some.mp reads
    obtain ⟨e, found, readsPart⟩ := isRead.found readsDocument
    obtain rfl := ofDocument?_coordinate.mp readsPart
    exact ⟨d, readsText, found⟩
  placed {text d number} reads found := by
    obtain ⟨front, piece, back, whole, readsPiece, place⟩ := exists_place reads found
    obtain ⟨lead, literal, trail, rfl, blank, blankTrail, isLiteral⟩ :=
      (Reader.document?_eq_some.mp readsPiece).number
    refine ⟨front ++ lead, literal, trail ++ back, ?_, place.pad blank blankTrail, isLiteral⟩
    apply String.toList_inj.mp
    rw [whole]
    simp
  accepted place isProbe reads isLiteral := by
    rw [isRead.decode?_number place isProbe reads isLiteral, Option.isSome_map]
    exact ofDocument?_coordinate_isSome
  value place isProbe reads isLiteral readsLiteral := by
    rw [isRead.decode?_number place isProbe reads isLiteral] at readsLiteral
    obtain ⟨k, readsCoordinate, rfl⟩ := Option.map_eq_some_iff.mp readsLiteral
    have same := Document.number.inj (ofDocument?_coordinate.mp readsCoordinate)
    rw [part.get_put]
    exact ⟨(Number.ofInt_injective same).symm, rfl⟩
  integral {front literal back number} place isLiteral broken := by
    obtain ⟨fill, frames, leads⟩ := place
    rw [decode?_ofList, frames (document?_literal isLiteral), Option.bind_some]
    -- If the record were read, so would be the coordinate.
    refine Option.eq_none_iff_forall_ne_some.mpr fun a reads => ?_
    have readsCoordinate := (isRead.replaced leads reads).1
    rw [id, ofDocument?_broken broken] at readsCoordinate
    cases readsCoordinate

end Part.IsRead

theorem encode_mask (m : Mask) : encode m = Text.decimal m.bits.toNat :=
  congrArg String.ofList (Numeral.write_ofInt m.bits.toNat)

theorem isExactMask {lead trail : List Char} (blank : Spaces lead) (blankTrail : Spaces trail)
    (literal : List Char) : IsExactMask lead literal trail := by
  have decodes {number : Number} (isLiteral : IsLiteral literal number) :
      (decode? (String.ofList (lead ++ (literal ++ trail))) : Option Mask) =
        ((Document.number number).intWithin? 0 255).map fun n => .ofByte (UInt8.ofNat n.toNat) := by
    have padded := (Reader.spells_number isLiteral).holds.pad blank blankTrail
    rw [decode?_ofList, Reader.document?_eq_some.mpr padded, Option.bind_some]
    exact Option.map_map Mask.ofByte _ _
  refine ⟨fun {n} isLiteral => ?_, fun {n m} isLiteral reads => ?_,
    fun {number} isLiteral broken => ?_⟩
  · rw [decodes isLiteral, Option.isSome_map]
    exact Document.intWithin?_isSome
  · rw [decodes isLiteral] at reads
    obtain ⟨k, within, rfl⟩ := Option.map_eq_some_iff.mp reads
    obtain ⟨same, low, high⟩ := Document.intWithin?_eq_some.mp within
    obtain rfl := Number.ofInt_injective (Document.number.inj same)
    have byte : (UInt8.ofNat n.toNat).toNat = n.toNat :=
      UInt8.toNat_ofNat_of_lt (show n.toNat < 256 by omega)
    refine ⟨UInt8.ofNat n.toNat, by omega, rfl, ?_, decode?_encode _⟩
    rw [encode_mask, Mask.bits_eq_sum, Mask.members_ofByte]
  · rw [decodes isLiteral, Document.intWithin?_broken broken]
    rfl

end Integers

/-- No integer in a text wraps around. A coordinate of a position, a location or a problem is read
as the integer of its literal, however long it is and wherever in the record it stands, or else the
whole record is not read. A mask is read from the literals of the bytes, and from no others. -/
theorem integers_exact :
    (∀ axis : Axis, axis.part.IsExact) ∧
    (∀ (edge : Edge) (axis : Axis), (edge.part.trans axis.part).IsExact) ∧
    (∀ (edge : Edge) (axis : Axis),
      (Part.location.trans (edge.part.trans axis.part)).IsExact) ∧
    ∀ lead literal trail : List Char, Spaces lead → Spaces trail →
      IsExactMask lead literal trail := by
  refine ⟨fun axis => axis.isRead.isExact, fun edge axis => ?_, fun edge axis => ?_, ?_⟩
  · exact (edge.isRead.trans axis.isRead).isExact
  · exact (Part.isRead_location.trans (edge.isRead.trans axis.isRead)).isExact
  · exact fun lead literal trail blank blankTrail => isExactMask blank blankTrail literal

/-- In a problem of both forms, with members in another order and of another name, the line of the
start takes integers up to the limit and no other numbers. Of the byte 255 a mask keeps the three
flags, whose sum is 112. -/
theorem integers_exact_mixed :
    let text := "\x7b\"x\":9,\"severity\":\"Error\",\"location\":[\"m\",\x7b\"column\":2, " ++
      "\"line\" : 7 \x7d,[3,4]]\x7d"
    (∃ front literal back, text = String.ofList (front ++ (literal ++ back)) ∧
      (∃ p : Problem,
        decode? (String.ofList (front ++ (Text.intDigits 2147483647 ++ back))) = some p ∧
          p.location.span.start.line.toInt = 2147483647 ∧ p.location.span.start.column = 2) ∧
      (decode? (String.ofList (front ++ (Text.intDigits 2147483648 ++ back))) : Option Problem) =
        none ∧
      (decode? (String.ofList (front ++ (['7', '.', '0'] ++ back))) : Option Problem) = none) ∧
    ∃ m : Mask, decode? " 255 " = some m ∧ encode m = Text.decimal 112 := by
  intro text
  have reads : decode? text = some (⟨⟨"m", ⟨⟨7, 2⟩, ⟨3, 4⟩⟩⟩, none, .error⟩ : Problem) := by
    decide +kernel
  have line := integers_exact.2.2.1 .start .line
  obtain ⟨d, readsDocument, found⟩ := line.stored reads
  obtain ⟨front, literal, back, whole, place, isLiteral⟩ := line.placed readsDocument found
  rw [whole] at reads
  refine ⟨⟨front, literal, back, whole, ?_, ?_, ?_⟩, ?_⟩
  · have accepted := line.accepted place isLiteral reads (Numeral.isLiteral_intDigits 2147483647)
    obtain ⟨p, readsLimit⟩ := Option.isSome_iff_exists.mp (accepted.mpr ⟨by decide, by decide⟩)
    obtain ⟨same, changed⟩ :=
      line.value place isLiteral reads (Numeral.isLiteral_intDigits _) readsLimit
    refine ⟨p, readsLimit, same, ?_⟩
    rw [changed]
    rfl
  · have accepted := line.accepted place isLiteral reads (Numeral.isLiteral_intDigits 2147483648)
    rw [← Option.not_isSome_iff_eq_none, accepted]
    decide
  · have isDigits : Numeral.IsDigits ['7'] := by simp [Numeral.IsDigits]
    have isFraction : Numeral.IsFraction ['.', '0'] true := .given (by simp [Numeral.IsDigits])
    have isLiteral : IsLiteral ['7', '.', '0'] ⟨false, 7, false⟩ :=
      .intro false isDigits (fun _ => by contradiction) isFraction .absent
    exact line.integral place isLiteral rfl
  · have blank : Spaces [' '] := List.forall_mem_singleton.mpr rfl
    have mask := integers_exact.2.2.2 [' '] (Text.intDigits 255) [' '] blank blank
    obtain ⟨m, readsMask⟩ := Option.isSome_iff_exists.mp
      ((mask.accepted (Numeral.isLiteral_intDigits 255)).mpr ⟨by decide, by decide⟩)
    obtain ⟨byte, same, -, written, -⟩ := mask.value (Numeral.isLiteral_intDigits 255) readsMask
    obtain rfl : byte = 255 := by
      apply UInt8.toNat_inj.mp
      exact Int.ofNat_inj.mp same
    exact ⟨m, readsMask, written⟩

end Diagnostics.Json
