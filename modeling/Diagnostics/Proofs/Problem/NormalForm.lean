import Mathlib.Data.List.Forall2
import Diagnostics.Comparison
import Diagnostics.Problem.Draft
import Diagnostics.Proofs.Collector.Reporting
import Diagnostics.Proofs.Problem.Untyped

/-!
# Normal forms

A producer can come to one value by many routes. The normal form of a draft is what the producer
said, with the words and numbers for what was left out, and it is read off the draft without
building anything. Values compare, as equals, by hash and as members of a set, just as the normal
forms of their drafts, so no route can be seen in the value.
-/
namespace Diagnostics

namespace Comparison

variable {α β : Type} [DecidableEq α] [Hashable α] [DecidableEq β]

/-- Values compare with each other as the forms that belong to them, and a set of them has one
member for each form, in whatever order they are put in. -/
structure ByForm (values : List α) (forms : List β) : Prop where
  equal : (ofList values).equal = matrix forms fun a b => decide (a = b)
  hashesAgree : (ofList values).hashesAgree = true
  distinct : ∀ {order : List α}, order.Perm values →
    (ofList order).distinct = forms.toFinset.card

theorem hashesAgree_ofList (values : List α) : (ofList values).hashesAgree = true := by
  simp only [ofList, List.all_eq_true, Bool.or_eq_true, decide_eq_true_eq, beq_iff_eq]
  intro a _ b _
  by_cases same : a = b
  · exact .inr (congrArg hash same)
  · exact .inl same

/-- A hash set of a list has its members, each once. -/
theorem distinct_ofList (values : List α) : (ofList values).distinct = values.toFinset.card := by
  let set := Std.HashSet.ofList values
  have once : set.toList.Nodup :=
    Std.HashSet.distinct_toList.imp fun differ same => by simp [same] at differ
  have same : set.toList.toFinset = values.toFinset := by
    ext a
    rw [List.mem_toFinset, List.mem_toFinset, Std.HashSet.mem_toList, Std.HashSet.mem_ofList,
      List.contains_iff_mem]
  calc
    set.size = set.toList.length := Std.HashSet.length_toList.symm
    _ = set.toList.toFinset.card := (List.toFinset_card_of_nodup once).symm
    _ = values.toFinset.card := congrArg Finset.card same

omit [Hashable α] in
theorem card_toFinset_map {form : α → β} (inj : Function.Injective form) (values : List α) :
    (values.map form).toFinset.card = values.toFinset.card := by
  have image : (values.map form).toFinset = values.toFinset.image form := by
    ext
    simp
  rw [image, Finset.card_image_of_injective _ inj]

theorem byForm_map {form : α → β} (inj : Function.Injective form) (values : List α) :
    ByForm values (values.map form) where
  equal := by simp [ofList, matrix, inj.eq_iff]
  hashesAgree := hashesAgree_ofList values
  distinct perm := by
    rw [distinct_ofList, card_toFinset_map inj, List.toFinset_eq_of_perm _ _ perm]

end Comparison

/-- Where each draft builds its value, what the drafts give is what the values have. -/
theorem map_eq_of_builds {δ α β : Type} {build : δ → Except Fault α} {given : δ → β} {has : α → β}
    (keeps : ∀ {draft value}, build draft = .ok value → given draft = has value)
    {drafts : List δ} {values : List α}
    (built : List.Forall₂ (fun draft value => build draft = .ok value) drafts values) :
    drafts.map given = values.map has := by
  induction built with
  | nil => rfl
  | cons first _ ih => rw [List.map_cons, List.map_cons, keeps first, ih]

namespace Location

/-- What a location says: the name of its module and four coordinates. -/
structure NormalForm where
  moduleName : String
  coordinates : List Int32
  deriving DecidableEq, Repr

def normalForm (l : Location) : NormalForm := ⟨l.moduleName, l.span.coordinates⟩

namespace Draft

/-- The module name that a producer gave. -/
def givenName : Draft → Option String
  | .spanned moduleName _ => moduleName
  | .optionallySpanned moduleName _ => moduleName
  | .listed moduleName _ => moduleName
  | .nil => none
  | .default => none

/-- The coordinates that a producer gave, all of them. -/
def givenCoordinates : Draft → Option (List Int32)
  | .spanned _ span => some span.coordinates
  | .optionallySpanned _ span => span.map Span.coordinates
  | .listed _ coordinates => coordinates
  | .nil => none
  | .default => none

/-- An absent name and absent coordinates have their fixed words and numbers, and no more than four
coordinates count. -/
def normalForm (d : Draft) : NormalForm :=
  ⟨d.givenName.getD "-- unknown --", (d.givenCoordinates.getD [-1, -1, -1, -1]).take 4⟩

end Draft

theorem normalForm_injective : Function.Injective normalForm := by
  rintro ⟨name, span⟩ ⟨name', span'⟩ same
  obtain ⟨names, coordinates⟩ := NormalForm.mk.inj same
  rw [Span.coordinates_inj] at coordinates
  cases names
  cases coordinates
  rfl

variable {l : Location} {draft : Draft}

theorem Draft.normalForm_of_build (built : draft.build = .ok l) :
    draft.normalForm = l.normalForm := by
  cases draft with
  | spanned moduleName span =>
    cases built
    rfl
  | optionallySpanned moduleName span =>
    cases built
    cases span <;> rfl
  | listed moduleName coordinates =>
    obtain ⟨span, given, rfl⟩ := ofList?_eq_ok.mp built
    cases given with
    | none => rfl
    | some front =>
      have first : List.take 4 _ = _ := (List.prefix_iff_eq_take.mp front).symm
      simp only [normalForm, givenName, givenCoordinates, Option.getD_some, first]
      rfl
  | nil =>
    cases built
    rfl
  | default =>
    cases built
    rfl

theorem isNil_iff : l.isNil = true ↔ l = nil := by
  obtain ⟨name, span⟩ := l
  obtain ⟨start, stop⟩ := span
  simp [isNil, nil, Span.isUnknown, Span.unknown, Position.isUnknown]

/-- The sentinel is told by its normal form. -/
theorem isNil_eq (l : Location) :
    l.isNil = decide (l.normalForm = (Draft.nil).normalForm) := by
  have sentinel : (Draft.nil).normalForm = nil.normalForm := Draft.normalForm_of_build rfl
  rw [Bool.eq_iff_iff, isNil_iff, decide_eq_true_eq, sentinel, normalForm_injective.eq_iff]

end Location

namespace Problem

/-- What a problem says. The severity is told by its flag. -/
structure NormalForm where
  location : Location.NormalForm
  message : Option String
  flag : UInt8
  deriving DecidableEq, Repr

def normalForm (p : Problem) : NormalForm :=
  ⟨p.location.normalForm, p.message, p.severity.bits⟩

namespace Draft

/-- The location that a producer gave or left out. -/
def givenLocation : Draft → Location.Draft
  | .bare _ => .nil
  | .spanned moduleName span _ _ => .optionallySpanned moduleName span
  | .located location _ _ => location.getD .nil
  | .raw moduleName coordinates _ _ => .listed moduleName coordinates
  | .stated _ location _ => location

def givenMessage : Draft → Option String
  | .bare _ => none
  | .spanned _ _ message _ => message
  | .located _ message _ => message
  | .raw _ _ message _ => message
  | .stated _ _ message => some message

def givenFlag : Draft → UInt8
  | .bare severity => severity.bits
  | .spanned _ _ _ severity => severity.bits
  | .located _ _ severity => severity.bits
  | .raw _ _ _ bits => bits
  | .stated severity _ _ => severity.bits

def normalForm (d : Draft) : NormalForm := ⟨d.givenLocation.normalForm, d.givenMessage, d.givenFlag⟩

end Draft

theorem normalForm_injective : Function.Injective normalForm := by
  rintro ⟨location, message, severity⟩ ⟨location', message', severity'⟩ same
  obtain ⟨locations, messages, flags⟩ := NormalForm.mk.inj same
  cases Location.normalForm_injective locations
  cases messages
  cases Severity.bits_inj.mp flags
  rfl

variable {p : Problem} {draft : Draft}

/-- A problem is put together from what its draft gives. -/
theorem Draft.given_of_build (built : draft.build = .ok p) :
    draft.givenLocation.build = .ok p.location ∧ draft.givenMessage = p.message ∧
      draft.givenFlag = p.severity.bits := by
  cases draft with
  | bare severity =>
    cases built
    exact ⟨rfl, rfl, rfl⟩
  | spanned moduleName span message severity =>
    cases built
    exact ⟨rfl, rfl, rfl⟩
  | located location message severity =>
    cases location with
    | none =>
      cases built
      exact ⟨rfl, rfl, rfl⟩
    | some location =>
      cases place : location.build <;> simp [build, place, bind, Except.bind] at built
      cases built
      exact ⟨place, rfl, rfl⟩
  | raw moduleName coordinates message bits =>
    obtain ⟨severity, span, flag, given, rfl⟩ := ofRaw?_eq_ok.mp built
    exact ⟨Location.ofList?_eq_ok.mpr ⟨span, given, rfl⟩, rfl, flag.symm⟩
  | stated severity location message =>
    cases place : location.build <;> simp [build, place, bind, Except.bind] at built
    cases built
    exact ⟨place, rfl, rfl⟩

theorem Draft.normalForm_of_build (built : draft.build = .ok p) :
    draft.normalForm = p.normalForm := by
  obtain ⟨place, message, flag⟩ := given_of_build built
  rw [normalForm, Location.Draft.normalForm_of_build place, message, flag]
  rfl

end Problem

/-- A collector that held nothing keeps one problem for each different one that is reported. -/
theorem Collector.size_extend_empty (problems : List Problem) :
    ((∅ : Collector).extend problems).size = problems.toFinset.card := by
  have added := length_fresh ∅ problems
  rw [size, problems_extend, List.length_append, added]
  simp

/-- Locations that were built by whatever routes compare as the normal forms of their drafts, and
the sentinel is told by its normal form. The same is true of problems, whose places may be built by
whatever routes in turn; a collector that held nothing holds as many of them as there are different
normal forms. A message that is absent is not an empty one. -/
theorem built_values_compare :
    (∀ (drafts : List Location.Draft) (locations : List Location),
      List.Forall₂ (fun draft l => draft.build = .ok l) drafts locations →
        Comparison.ByForm locations (drafts.map Location.Draft.normalForm) ∧
        locations.map Location.isNil = drafts.map fun draft =>
          decide (draft.normalForm = Location.Draft.nil.normalForm)) ∧
    (∀ (drafts : List Problem.Draft) (problems : List Problem),
      List.Forall₂ (fun draft p => draft.build = .ok p) drafts problems →
        Comparison.ByForm problems (drafts.map Problem.Draft.normalForm) ∧
        problems.map (·.location.isNil) = drafts.map (fun draft =>
          decide (draft.normalForm.location = Location.Draft.nil.normalForm)) ∧
        ∀ {order : List Problem}, order.Perm problems → ((∅ : Collector).extend order).size =
          (drafts.map Problem.Draft.normalForm).toFinset.card) ∧
    ∀ location severity,
      Problem.located location none severity ≠ Problem.located location (some "") severity := by
  refine ⟨?_, ?_, nofun⟩
  · intro drafts locations built
    have forms := map_eq_of_builds Location.Draft.normalForm_of_build built
    refine ⟨?_, ?_⟩
    · rw [forms]
      exact Comparison.byForm_map Location.normalForm_injective locations
    · refine (map_eq_of_builds (fun built => ?_) built).symm
      rw [Location.isNil_eq, Location.Draft.normalForm_of_build built]
  · intro drafts problems built
    have forms := map_eq_of_builds Problem.Draft.normalForm_of_build built
    refine ⟨?_, ?_, ?_⟩
    · rw [forms]
      exact Comparison.byForm_map Problem.normalForm_injective problems
    · refine (map_eq_of_builds (fun built => ?_) built).symm
      rw [Location.isNil_eq, Problem.Draft.normalForm_of_build built]
      rfl
    · intro order perm
      rw [forms, Comparison.card_toFinset_map Problem.normalForm_injective,
        Collector.size_extend_empty, List.toFinset_eq_of_perm _ _ perm]

/-- Five routes to two problems: the first three drafts leave out everything but the severity. -/
theorem built_values_compare_routes :
    let unknown := Span.ofCoordinates (-1) (-1) (-1) (-1)
    let place := Span.ofCoordinates 1 2 3 4
    let bare := Problem.bare .error
    let empty := Problem.stated .error ⟨"m", place⟩ ""
    let drafts : List Problem.Draft :=
      [.bare .error, .located (some (.spanned (some "-- unknown --") unknown)) none .error,
        .raw none none none 32, .raw (some "m") (some [1, 2, 3, 4, 5]) (some "") 32,
        .stated .error (.optionallySpanned (some "m") (some place)) ""]
    let problems := [bare, bare, bare, empty, empty]
    List.Forall₂ (fun draft p => draft.build = .ok p) drafts problems ∧
      Comparison.ByForm problems (drafts.map Problem.Draft.normalForm) ∧
      problems.map (·.location.isNil) = [true, true, true, false, false] ∧
      ((∅ : Collector).extend problems).size = 2 := by
  intro unknown place bare empty drafts problems
  have built : List.Forall₂ (fun draft p => draft.build = .ok p) drafts problems :=
    .cons rfl (.cons rfl (.cons rfl (.cons rfl (.cons rfl .nil))))
  obtain ⟨compare, nils, held⟩ := built_values_compare.2.1 drafts problems built
  refine ⟨built, compare, nils.trans ?_, (held (.refl _)).trans ?_⟩
  · decide +kernel
  · decide +kernel

end Diagnostics
