import Mathlib.Data.List.Nodup
import Diagnostics.Proofs.Json.Decoding
import Diagnostics.Proofs.Json.Spelling

/-!
# Places in a text

A part of a record stands somewhere in the text of the record. The texts in front of it and behind
it are a place: whatever document is written there, the whole is the text of a record with that
document as the part and all other parts unchanged. Every part that is read from a text stands in
such a place, however deep it lies and whichever form the records around it have.
-/
namespace Diagnostics.Json

open Reader (HoldsMember Spaces)

/-- One of the fields of a record. -/
structure Field where
  names : List String
  name : String
  known : name ∈ names
  distinct : names.Nodup

namespace Field

/-- Where the field stands among the fields. -/
def index (field : Field) : Nat := field.names.idxOf field.name

/-- Whatever is filled in, the record gives something of it for the field, and for each other field
the same. -/
def Given (field : Field) (fill inner : Document → Document) : Prop :=
  ∃ parts : List (Option Document),
    ∀ d, (fill d).fields? field.names = some (parts.set field.index (some (inner d)))

end Field

/-- The same through records one in the other, of which the last gives `inner` for the last
field. -/
inductive Leads : List Field → (Document → Document) → (Document → Document) → Prop where
  | here {fill : Document → Document} : Leads [] fill fill
  | field {field : Field} {path : List Field} {fill middle inner : Document → Document}
      (given : field.Given fill middle) (leads : Leads path middle inner) :
      Leads (field :: path) fill inner

/-- Between the two texts the text of any document can stand, and then the whole is the text of the
filled document. -/
def Frames (front back : List Char) (fill : Document → Document) : Prop :=
  ∀ {cs : List Char} {d : Document}, Reader.document? cs = some d →
    Reader.document? (front ++ (cs ++ back)) = some (fill d)

/-- The part to which the fields lead stands between the two texts. -/
def IsPlace (path : List Field) (front back : List Char) : Prop :=
  ∃ fill, Frames front back fill ∧ Leads path fill id

/-- The part of a document to which the fields lead. -/
def Document.part? : List Field → Document → Option Document
  | [], d => some d
  | field :: path, d => do part? path (← (← d.fields? field.names)[field.index]?.join)

section Frames

theorem intercalate_middle (before : List (List Char)) (text : List Char)
    (after : List (List Char)) :
    [','].intercalate (before ++ text :: after) =
      before.flatMap (· ++ [',']) ++ (text ++ after.flatMap (',' :: ·)) := by
  induction before with
  | nil =>
    rw [List.nil_append, List.flatMap_nil, List.nil_append]
    induction after generalizing text with
    | nil => simp
    | cons next after ih =>
      rw [List.intercalate_cons_cons, ih next]
      simp
  | cons first before ih =>
    rw [List.cons_append, List.intercalate_cons_of_ne_nil (by simp), ih]
    simp

/-- Texts that belong to a list, cut where the list is cut. -/
theorem exists_text {α : Type} {R : List Char → α → Prop} {texts : List (List Char)}
    {before after : List α} {a : α} (each : List.Forall₂ R texts (before ++ a :: after)) :
    ∃ front text back, texts = front ++ text :: back ∧ List.Forall₂ R front before ∧ R text a ∧
      List.Forall₂ R back after := by
  have front := List.forall₂_take_append _ _ _ each
  obtain ⟨text, back, first, others, same⟩ :=
    List.forall₂_cons_right_iff.mp (List.forall₂_drop_append _ _ _ each)
  exact ⟨_, text, back, by rw [← same, List.take_append_drop], front, first, others⟩

theorem forall₂_middle {α : Type} {R : List Char → α → Prop} {front back : List (List Char)}
    {before after : List α} {text : List Char} {a : α} (first : List.Forall₂ R front before)
    (middle : R text a) (last : List.Forall₂ R back after) :
    List.Forall₂ R (front ++ text :: back) (before ++ a :: after) :=
  List.rel_append first (.cons middle last)

/-- An item stands in the text of its array. -/
theorem exists_frames_item {cs : List Char} {before after : List Document} {item : Document}
    (reads : Reader.document? cs = some (.array (before ++ item :: after))) :
    ∃ front text back, cs = front ++ (text ++ back) ∧ Reader.document? text = some item ∧
      Frames front back fun d => .array (before ++ d :: after) := by
  obtain ⟨lead, texts, trail, rfl, blank, blankTrail, each⟩ :=
    (Reader.document?_eq_some.mp reads).array (by simp)
  obtain ⟨first, text, last, rfl, eachFirst, middle, eachLast⟩ := exists_text each
  refine ⟨lead ++ '[' :: first.flatMap (· ++ [',']), text,
    last.flatMap (',' :: ·) ++ ']' :: trail, ?_, Reader.document?_eq_some.mpr middle, ?_⟩
  · simp [intercalate_middle]
  · intro cs d holds
    have each := forall₂_middle eachFirst (Reader.document?_eq_some.mp holds) eachLast
    have whole := (Reader.spells_array each (by simp)).holds.pad blank blankTrail
    rw [Reader.document?_eq_some]
    simpa [intercalate_middle] using whole

/-- What a member holds stands in the text of its object. -/
theorem exists_frames_member {cs : List Char} {before after : Document.Members}
    {name : Option String} {item : Document}
    (reads : Reader.document? cs = some (.object (before ++ (name, item) :: after))) :
    ∃ front text back, cs = front ++ (text ++ back) ∧ Reader.document? text = some item ∧
      Frames front back fun d => .object (before ++ (name, d) :: after) := by
  obtain ⟨lead, texts, trail, rfl, blank, blankTrail, each⟩ :=
    (Reader.document?_eq_some.mp reads).object (by simp)
  obtain ⟨first, _, last, rfl, eachFirst, ⟨key, text, rfl, named, middle⟩, eachLast⟩ :=
    exists_text each
  refine ⟨lead ++ '{' :: (first.flatMap (· ++ [',']) ++ (key ++ [':'])), text,
    last.flatMap (',' :: ·) ++ '}' :: trail, ?_, Reader.document?_eq_some.mpr middle, ?_⟩
  · simp [intercalate_middle]
  · intro cs d holds
    have member : HoldsMember (key ++ ':' :: cs) (name, d) :=
      ⟨key, cs, rfl, named, Reader.document?_eq_some.mp holds⟩
    have each := forall₂_middle eachFirst member eachLast
    have whole := (Reader.spells_object each (by simp)).holds.pad blank blankTrail
    rw [Reader.document?_eq_some]
    simpa [intercalate_middle] using whole

end Frames

section Parts

variable {field : Field} {cs : List Char} {d part : Document} {parts : List (Option Document)}

theorem Field.Given.comp {fill : Document → Document} (given : field.Given fill id)
    (inner : Document → Document) : field.Given (fill ∘ inner) inner := by
  obtain ⟨parts, each⟩ := given
  exact ⟨parts, fun d => each (inner d)⟩

/-- The only member of a name. -/
theorem exists_member {members : Document.Members} {name : String}
    (once : Document.under members name = [part]) :
    ∃ before after, members = before ++ (some name, part) :: after ∧
      Document.under before name = [] ∧ Document.under after name = [] := by
  obtain ⟨⟨key, item⟩, others, found, rfl, noneLeft⟩ := List.map_eq_cons_iff.mp once
  obtain ⟨before, after, rfl, noneBefore, named, noneAfter⟩ := List.filter_eq_cons_iff.mp found
  obtain rfl := List.map_eq_nil_iff.mp noneLeft
  obtain rfl := of_decide_eq_true named
  refine ⟨before, after, rfl, ?_, ?_⟩
  · rw [Document.under, List.filter_eq_nil_iff.mpr noneBefore, List.map_nil]
  · rw [Document.under, noneAfter, List.map_nil]

/-- Another document in place of the only member of a name stands under that name and no other. -/
theorem under_replaced {before after : Document.Members} {name : String}
    (noneBefore : Document.under before name = []) (noneAfter : Document.under after name = [])
    (d : Document) :
    Document.under (before ++ (some name, d) :: after) =
      Function.update (Document.under (before ++ (some name, part) :: after)) name [d] := by
  funext other
  by_cases same : other = name
  · subst same
    simp only [Document.under, List.map_eq_nil_iff] at noneBefore noneAfter
    simp [Document.under, noneBefore, noneAfter]
  · have differs : name ≠ other := Ne.symm same
    simp [Document.under, same, differs]

theorem given_member {before after : Document.Members}
    (gives : Document.Gives field.names
      (.object (before ++ (some field.name, part) :: after)) parts)
    (noneBefore : Document.under before field.name = [])
    (noneAfter : Document.under after field.name = []) :
    field.Given (fun d => .object (before ++ (some field.name, d) :: after)) id := by
  obtain ⟨named, each⟩ := gives
  refine ⟨parts, fun d => Document.fields?_eq_some.mpr (.object ?_ ?_)⟩
  · intro member mem
    rcases List.mem_append.mp mem with front | back
    · exact named member (List.mem_append_left _ front)
    · rcases List.mem_cons.mp back with rfl | back
      · rfl
      · exact named member (List.mem_append_right _ (List.mem_cons_of_mem _ back))
  · rw [under_replaced noneBefore noneAfter, field.distinct.map_update, if_pos field.known, each,
      List.map_set]
    rfl

theorem given_item {before after : List Document} {item : Document}
    (full : (before ++ item :: after).length = field.names.length)
    (atIndex : before.length = field.index) :
    field.Given (fun d => .array (before ++ d :: after)) id := by
  refine ⟨(before ++ item :: after).map some, fun d => Document.fields?_eq_some.mpr ?_⟩
  have same : ((before ++ item :: after).map some).set field.index (some d) =
      (before ++ d :: after).map some := by
    rw [← atIndex, ← List.map_set]
    simp
  rw [id, same]
  exact .array (by simpa using full)

theorem exists_frames (reads : Reader.document? cs = some d)
    (gives : d.fields? field.names = some parts)
    (atIndex : parts[field.index]? = some (some part)) :
    ∃ front text back fill, cs = front ++ (text ++ back) ∧ Reader.document? text = some part ∧
      Frames front back fill ∧ field.Given fill id := by
  cases Document.fields?_eq_some.mp gives with
  | @object members _ named each =>
    have once : Document.under members field.name = [part] := by
      have found := congrArg (·[field.index]?) each
      rw [List.getElem?_map, List.getElem?_map, atIndex, Field.index,
        List.getElem?_idxOf field.known] at found
      exact Option.some.inj found
    obtain ⟨before, after, rfl, noneBefore, noneAfter⟩ := exists_member once
    obtain ⟨front, text, back, whole, readsPart, frames⟩ := exists_frames_member reads
    exact ⟨front, text, back, _, whole, readsPart, frames,
      given_member (.object named each) noneBefore noneAfter⟩
  | @array items full =>
    have found : items[field.index]? = some part := by simpa using atIndex
    obtain ⟨inside, same⟩ := List.getElem?_eq_some_iff.mp found
    have split : items = items.take field.index ++ part :: items.drop (field.index + 1) := by
      rw [← same, List.getElem_cons_drop, List.take_append_drop]
    rw [split] at reads full
    obtain ⟨front, text, back, whole, readsPart, frames⟩ := exists_frames_item reads
    exact ⟨front, text, back, _, whole, readsPart, frames,
      given_item full (List.length_take_of_le (Nat.le_of_lt inside))⟩

/-- Every part that is read from a text stands in a place. -/
theorem exists_place {path : List Field} (reads : Reader.document? cs = some d)
    (found : d.part? path = some part) :
    ∃ front text back, cs = front ++ (text ++ back) ∧ Reader.document? text = some part ∧
      IsPlace path front back := by
  -- From the outside in: the text of the first field's part is the text for the other fields.
  induction path generalizing cs d with
  | nil =>
    cases found
    refine ⟨[], cs, [], by simp, reads, id, fun {cs d} holds => ?_, .here⟩
    rwa [List.append_nil]
  | cons field path ih =>
    obtain ⟨parts, gives, found⟩ := Option.bind_eq_some_iff.mp found
    obtain ⟨middle, atIndex, found⟩ := Option.bind_eq_some_iff.mp found
    obtain ⟨front, text, back, fill, rfl, readsMiddle, frames, given⟩ :=
      exists_frames reads gives (Option.join_eq_some_iff.mp atIndex)
    obtain ⟨front', text, back', rfl, readsPart, inner, framesInner, leads⟩ := ih readsMiddle found
    refine ⟨front ++ front', text, back' ++ back, by simp, readsPart, fill ∘ inner, ?_,
      .field (given.comp inner) leads⟩
    intro cs e holds
    have whole := frames (framesInner holds)
    simpa using whole

/-- The spaces around a place belong to the texts around it. -/
theorem IsPlace.pad {path : List Field} {front back lead trail : List Char}
    (place : IsPlace path front back) (blank : Spaces lead) (blankTrail : Spaces trail) :
    IsPlace path (front ++ lead) (trail ++ back) := by
  obtain ⟨fill, frames, leads⟩ := place
  refine ⟨fill, fun {cs d} reads => ?_, leads⟩
  have padded := (Reader.document?_eq_some.mp reads).pad blank blankTrail
  simpa using frames (Reader.document?_eq_some.mpr padded)

end Parts
end Diagnostics.Json
