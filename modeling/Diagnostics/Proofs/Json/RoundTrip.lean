import Diagnostics.Json.Forms
import Diagnostics.Proofs.Json.Spelling

/-!
# Written documents read back

Every document is read back from its compact text, and every diagnostic value from its document.
-/
namespace Diagnostics.Json

namespace Document

theorem writeItems_eq (items : List Document) :
    writeItems items = [','].intercalate (items.map write) := by
  induction items with
  | nil => rfl
  | cons item others ih =>
    cases others with
    | nil => simp [writeItems]
    | cons next others =>
      rw [List.map_cons, List.map_cons, List.intercalate_cons_cons, ← List.map_cons, ← ih]
      simp [writeItems]

def writeMember (member : Option String × Document) : List Char :=
  Quoted.write member.1 ++ ':' :: member.2.write

theorem writeMembers_eq (members : List (Option String × Document)) :
    writeMembers members = [','].intercalate (members.map writeMember) := by
  induction members with
  | nil => rfl
  | cons member others ih =>
    cases others with
    | nil => simp [writeMembers, writeMember]
    | cons next others =>
      rw [List.map_cons, List.map_cons, List.intercalate_cons_cons, ← List.map_cons, ← ih]
      simp [writeMembers, writeMember]

end Document

namespace Reader

theorem holdsName_write (name : Option String) : HoldsName (Quoted.write name) name := by
  obtain ⟨body, written, reads⟩ := Quoted.read_write name
  exact ⟨[], body, [], by simp [written], nofun, nofun, reads⟩

mutual

/-- What is written for a document spells it. -/
theorem spells_write : ∀ d : Document, Spells d.write d
  | .null => spells_of_begins (List.cons_ne_nil _ _) fun _ _ _ _ => .null
  | .bool true => spells_of_begins (List.cons_ne_nil _ _) fun _ _ _ _ => .yes
  | .bool false => spells_of_begins (List.cons_ne_nil _ _) fun _ _ _ _ => .no
  | .number n => spells_number (Numeral.isLiteral_write n)
  | .text text => by
    obtain ⟨body, written, reads⟩ := Quoted.read_write text
    rw [Document.write, written]
    exact spells_of_begins (List.cons_ne_nil _ _) fun _ more _ _ => .text (reads more)
  | .array [] => spells_array_nil (fun _ mem => nomatch mem)
  | .array (item :: others) => by
    rw [Document.write, Document.writeItems_eq]
    exact spells_array (holds_writeItems (item :: others)) (List.cons_ne_nil _ _)
  | .object [] => spells_object_nil (fun _ mem => nomatch mem)
  | .object (member :: others) => by
    rw [Document.write, Document.writeMembers_eq]
    exact spells_object (holds_writeMembers (member :: others)) (List.cons_ne_nil _ _)

theorem holds_writeItems : ∀ items : List Document,
    List.Forall₂ Holds (items.map Document.write) items
  | [] => .nil
  | item :: others => .cons (spells_write item).holds (holds_writeItems others)

theorem holds_writeMembers : ∀ members : List (Option String × Document),
    List.Forall₂ HoldsMember (members.map Document.writeMember) members
  | [] => .nil
  | (name, item) :: others =>
    .cons ⟨_, _, rfl, holdsName_write name, (spells_write item).holds⟩ (holds_writeMembers others)

end

end Reader

/-- Every document is read back from its text, whatever it holds. -/
theorem Document.read?_toText (d : Document) : Document.read? d.toText = some d := by
  rw [read?, toText, String.toList_ofList]
  exact Reader.document?_eq_some.mpr (Reader.spells_write d).holds

/-- The documents of a type's values are read as the same values. -/
class Codec.Faithful (α : Type) [Codec α] : Prop where
  ofDocument?_toDocument : ∀ a : α, ofDocument? (toDocument a) = some a

export Codec.Faithful (ofDocument?_toDocument)

theorem decode?_encode {α : Type} [Codec α] [Codec.Faithful α] (a : α) :
    decode? (encode a) = some a := by
  rw [decode?, encode, Document.read?_toText]
  exact ofDocument?_toDocument a

theorem encode_injective {α : Type} [Codec α] [Codec.Faithful α] {a b : α}
    (same : encode a = encode b) : a = b := by
  have read := decode?_encode a
  rw [same, decode?_encode b] at read
  exact (Option.some.inj read).symm

theorem Number.toInt?_ofInt (n : Int) : (Number.ofInt n).toInt? = some n := by
  unfold ofInt toInt?
  by_cases negative : n < 0
  · have nonzero : n.natAbs ≠ 0 := by omega
    have magnitude : -(n.natAbs : Int) = n := by omega
    simp only [negative, decide_true, Bool.not_true, Bool.false_eq_true, if_false, nonzero,
      magnitude]
  · have magnitude : (n.natAbs : Int) = n := by omega
    simp only [negative, decide_false, Bool.not_true, Bool.not_false, Bool.false_eq_true,
      if_false, if_true, magnitude]

theorem Document.intWithin?_ofInt {least greatest n : Int} (low : least ≤ n) (high : n ≤ greatest) :
    (Document.ofInt n).intWithin? least greatest = some n := by
  simp only [intWithin?, ofInt, Number.toInt?_ofInt, Option.bind_eq_bind, Option.bind_some,
    if_pos (And.intro low high)]
  rfl

instance : Codec.Faithful String := ⟨fun _ => rfl⟩

instance : Codec.Faithful (Option String) := ⟨fun message => by cases message <;> rfl⟩

instance : Codec.Faithful Int32 where
  ofDocument?_toDocument n := by
    have read := Document.intWithin?_ofInt (Int32.minValue_le_toInt n) (Int32.toInt_le n)
    change (Document.intWithin? _ _ (Document.ofInt n.toInt)).map Int32.ofInt = some n
    rw [read, Option.map_some, Int32.ofInt_toInt]

instance : Codec.Faithful UInt8 where
  ofDocument?_toDocument b := by
    have high : (b.toNat : Int) ≤ 255 := by have := b.toNat_lt; omega
    have read := Document.intWithin?_ofInt (Int.natCast_nonneg b.toNat) high
    change (Document.intWithin? _ _ (Document.ofInt b.toNat)).map _ = some b
    rw [read, Option.map_some, Int.toNat_natCast, UInt8.ofNat_toNat]

instance : Codec.Faithful Severity := ⟨fun s => by cases s <;> decide⟩

instance : Codec.Faithful Mask where
  ofDocument?_toDocument m := by
    have known : Mask.ofByte m.bits = m := by
      obtain ⟨bits, flags⟩ := m
      simp only [Mask.ofByte, flags]
    change (ofDocument? (toDocument m.bits)).map Mask.ofByte = some m
    rw [ofDocument?_toDocument, Option.map_some, known]

-- An object with just the fields of a record, in any order, is read field by field.
instance : Codec.Faithful Position where
  ofDocument?_toDocument p := by
    change (do
      return Position.mk (← ofDocument? (toDocument p.line))
        (← ofDocument? (toDocument p.column))) = some p
    rw [ofDocument?_toDocument, ofDocument?_toDocument]
    rfl

instance : Codec.Faithful Location where
  ofDocument?_toDocument l := by
    change (do
      return Location.mk (← ofDocument? (toDocument l.moduleName))
        ⟨← ofDocument? (toDocument l.span.start),
          ← ofDocument? (toDocument l.span.stop)⟩) = some l
    rw [ofDocument?_toDocument, ofDocument?_toDocument, ofDocument?_toDocument]
    rfl

instance : Codec.Faithful Problem where
  ofDocument?_toDocument p := by
    change (do
      return Problem.mk (← ofDocument? (toDocument p.location))
        (← ofDocument? (toDocument p.message)) (← ofDocument? (toDocument p.severity))) = some p
    rw [ofDocument?_toDocument, ofDocument?_toDocument, ofDocument?_toDocument]
    rfl

/-- A text tells the value of which it is the form: writing a value and reading the text gives the
value, and so no two values of a type share a text. -/
theorem decode?_encode_values :
    ((∀ p : Problem, decode? (encode p) = some p) ∧
      (∀ l : Location, decode? (encode l) = some l) ∧
      (∀ p : Position, decode? (encode p) = some p) ∧
      (∀ s : Severity, decode? (encode s) = some s) ∧
      ∀ m : Mask, decode? (encode m) = some m) ∧
    (∀ p q : Problem, encode p = encode q → p = q) ∧
    (∀ k l : Location, encode k = encode l → k = l) ∧
    (∀ p q : Position, encode p = encode q → p = q) ∧
    (∀ s t : Severity, encode s = encode t → s = t) ∧
    ∀ m n : Mask, encode m = encode n → m = n :=
  ⟨⟨decode?_encode, decode?_encode, decode?_encode, decode?_encode, decode?_encode⟩,
    fun _ _ => encode_injective, fun _ _ => encode_injective, fun _ _ => encode_injective,
    fun _ _ => encode_injective, fun _ _ => encode_injective⟩

end Diagnostics.Json
