import Diagnostics.Proofs.Json.Place

/-!
# Parts of a record

A part of a value can be taken and put, and so can a part of a part. Reading a record reads the part
from the part's own document, and puts into the record what was read from that document.
-/
namespace Diagnostics.Json

/-- A part of the values of a type, and the fields that lead to it in their documents. -/
structure Part (α β : Type) where
  path : List Field
  get : α → β
  put : α → β → α
  get_put : ∀ a b, get (put a b) = b
  put_get : ∀ a, put a (get a) = a
  put_put : ∀ a b c, put (put a b) c = put a c

namespace Part

variable {α β γ : Type}

/-- A part of a part. -/
def trans (outer : Part α β) (inner : Part β γ) : Part α γ where
  path := outer.path ++ inner.path
  get a := inner.get (outer.get a)
  put a c := outer.put a (inner.put (outer.get a) c)
  get_put a c := by rw [outer.get_put, inner.get_put]
  put_get a := by rw [inner.put_get, outer.put_get]
  put_put a b c := by rw [outer.get_put, outer.put_put, inner.put_put]

end Part

inductive Axis where
  | line
  | column

inductive Edge where
  | start
  | stop

/-- The line or the column of a position. -/
def Axis.part (axis : Axis) : Part Position Int32 where
  path := [⟨["line", "column"], match axis with | .line => "line" | .column => "column",
    by cases axis <;> decide, by decide⟩]
  get p := match axis with
    | .line => p.line
    | .column => p.column
  put p n := match axis with
    | .line => { p with line := n }
    | .column => { p with column := n }
  get_put _ _ := by cases axis <;> rfl
  put_get _ := by cases axis <;> rfl
  put_put _ _ _ := by cases axis <;> rfl

/-- One end of a location. -/
def Edge.part (edge : Edge) : Part Location Position where
  path := [⟨["module_name", "begin", "end"], match edge with | .start => "begin" | .stop => "end",
    by cases edge <;> decide, by decide⟩]
  get l := match edge with
    | .start => l.span.start
    | .stop => l.span.stop
  put l p := match edge with
    | .start => { l with span := { l.span with start := p } }
    | .stop => { l with span := { l.span with stop := p } }
  get_put _ _ := by cases edge <;> rfl
  put_get _ := by cases edge <;> rfl
  put_put _ _ _ := by cases edge <;> rfl

def Part.location : Part Problem Location where
  path := [⟨["location", "message", "severity"], "location", by decide, by decide⟩]
  get p := p.location
  put p l := { p with location := l }
  get_put _ _ := rfl
  put_get _ := rfl
  put_put _ _ _ := rfl

section Reading

variable {α β γ : Type} [Codec α] [Codec β] [Codec γ]

/-- A reader reads the part from the part's document, and depends on that document by the part
alone. -/
structure Part.IsRead (part : Part α β) : Prop where
  found {d : Document} {a : α} (reads : ofDocument? d = some a) :
    ∃ e, d.part? part.path = some e ∧ ofDocument? e = some (part.get a)
  replaced {fill inner : Document → Document} {d : Document} {a : α}
    (leads : Leads part.path fill inner) (reads : ofDocument? (fill d) = some a) :
    ofDocument? (inner d) = some (part.get a) ∧
      ∀ e, ofDocument? (fill e) = (ofDocument? (inner e)).map (part.put a)

theorem leads_append {path others : List Field} {fill inner : Document → Document} :
    Leads (path ++ others) fill inner ↔
      ∃ middle, Leads path fill middle ∧ Leads others middle inner := by
  induction path generalizing fill with
  | nil =>
    constructor
    · exact fun leads => ⟨fill, .here, leads⟩
    · rintro ⟨_, ⟨⟩, leads⟩
      exact leads
  | cons field path ih =>
    constructor
    · rintro (_ | ⟨given, leads⟩)
      obtain ⟨middle, first, last⟩ := ih.mp leads
      exact ⟨middle, .field given first, last⟩
    · rintro ⟨middle, _ | ⟨given, first⟩, last⟩
      exact .field given (ih.mpr ⟨middle, first, last⟩)

theorem Document.part?_append (path others : List Field) (d : Document) :
    d.part? (path ++ others) = (d.part? path).bind (part? others) := by
  induction path generalizing d with
  | nil => rfl
  | cons field path ih => simp [part?, ih, Option.bind_assoc]

theorem Part.IsRead.trans {outer : Part α β} {inner : Part β γ} (isRead : outer.IsRead)
    (isReadInner : inner.IsRead) : (outer.trans inner).IsRead where
  found {d a} reads := by
    obtain ⟨middle, foundMiddle, readsMiddle⟩ := isRead.found reads
    obtain ⟨e, found, readsPart⟩ := isReadInner.found readsMiddle
    refine ⟨e, ?_, readsPart⟩
    rw [Part.trans, Document.part?_append, foundMiddle]
    exact found
  replaced {fill last d a} leads reads := by
    obtain ⟨middle, first, second⟩ := leads_append.mp leads
    obtain ⟨readsMiddle, again⟩ := isRead.replaced first reads
    obtain ⟨readsPart, againInner⟩ := isReadInner.replaced second readsMiddle
    refine ⟨readsPart, fun e => ?_⟩
    rw [again, againInner, Option.map_map]
    rfl

/-- It is enough to look at one field of a record. -/
theorem Part.isRead_of_field {part : Part α β} {field : Field} (single : part.path = [field])
    (readsField : ∀ {d : Document} {a : α}, ofDocument? d = some a →
      ∃ parts e, d.fields? field.names = some parts ∧ parts[field.index]? = some (some e) ∧
        ofDocument? e = some (part.get a) ∧
        ∀ other f, other.fields? field.names = some (parts.set field.index (some f)) →
          ofDocument? other = (ofDocument? f).map (part.put a)) : part.IsRead where
  found {d a} reads := by
    obtain ⟨parts, e, given, atIndex, readsPart, -⟩ := readsField reads
    refine ⟨e, ?_, readsPart⟩
    simp [single, Document.part?, given, atIndex]
  replaced {fill inner d a} leads reads := by
    rw [single] at leads
    obtain _ | ⟨⟨parts, given⟩, _ | _⟩ := leads
    obtain ⟨found, e, givenFound, atIndex, readsPart, again⟩ := readsField reads
    rw [given d, Option.some.injEq] at givenFound
    subst givenFound
    obtain ⟨-, rfl⟩ : field.index < parts.length ∧ inner d = e := by
      simpa [List.getElem?_set] using atIndex
    refine ⟨readsPart, fun f => again (fill f) (inner f) ?_⟩
    rw [given f, List.set_set]

theorem Axis.isRead (axis : Axis) : axis.part.IsRead := by
  refine Part.isRead_of_field rfl fun {d p} reads => ?_
  have given := Document.fields?_eq_some.mpr (ofDocument?_position.mp reads)
  have line : ofDocument? (.ofInt p.line.toInt) = some p.line := ofDocument?_coordinate.mpr rfl
  have column : ofDocument? (.ofInt p.column.toInt) = some p.column :=
    ofDocument?_coordinate.mpr rfl
  cases axis with
  | line =>
    refine ⟨_, _, given, rfl, line, fun other f replaced => ?_⟩
    rw [ofDocument?_position_of_fields replaced, column]
    cases (ofDocument? f : Option Int32) <;> rfl
  | column =>
    refine ⟨_, _, given, rfl, column, fun other f replaced => ?_⟩
    rw [ofDocument?_position_of_fields replaced, line]
    cases (ofDocument? f : Option Int32) <;> rfl

theorem Edge.isRead (edge : Edge) : edge.part.IsRead := by
  refine Part.isRead_of_field rfl fun {d l} reads => ?_
  obtain ⟨start, stop, gives, starts, stops⟩ := ofDocument?_location.mp reads
  have given := Document.fields?_eq_some.mpr gives
  have named : ofDocument? (.text (some l.moduleName)) = some l.moduleName := rfl
  have readsStart := ofDocument?_position.mpr starts
  have readsStop := ofDocument?_position.mpr stops
  cases edge with
  | start =>
    refine ⟨_, _, given, rfl, readsStart, fun other f replaced => ?_⟩
    rw [ofDocument?_location_of_fields replaced, named, readsStop]
    cases (ofDocument? f : Option Position) <;> rfl
  | stop =>
    refine ⟨_, _, given, rfl, readsStop, fun other f replaced => ?_⟩
    rw [ofDocument?_location_of_fields replaced, named, readsStart]
    cases (ofDocument? f : Option Position) <;> rfl

theorem Part.isRead_location : Part.location.IsRead := by
  refine Part.isRead_of_field rfl fun {d p} reads => ?_
  obtain ⟨location, message, severity, gives, located, stated, graded⟩ :=
    ofDocument?_problem.mp reads
  have given := Document.fields?_eq_some.mpr gives
  refine ⟨_, _, given, rfl, ofDocument?_location.mpr located, fun other f replaced => ?_⟩
  rw [ofDocument?_problem_of_fields replaced, ofDocument?_message.mpr stated,
    ofDocument?_severity.mpr graded]
  cases (ofDocument? f : Option Location) <;> rfl

end Reading

end Diagnostics.Json
