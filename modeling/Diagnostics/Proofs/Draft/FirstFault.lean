import Diagnostics.Problem.Draft
import Diagnostics.Proofs.Problem.Untyped
import Diagnostics.Proofs.Severity.Grammar

/-!
# The first fault of a draft

What an untyped producer writes is taken apart into single inputs, each of which is right or wrong
by itself: the byte of a severity, a list of coordinates, a part of a filter expression. A draft can
be built if none of its inputs is wrong, and otherwise it has the fault of the first one that is.
The order is that of writing, but for the byte of a problem, which comes before the coordinates.
-/
namespace Diagnostics

/-- Untyped input that can be wrong. -/
inductive Input where
  | flag (bits : UInt8)
  | coordinates (list : List Int32)
  /-- A part of a filter expression. -/
  | word (part : List Char)
  deriving DecidableEq, Repr

/-- What is wrong with an input. -/
def Input.fault? : Input → Option Fault
  | .flag bits => if ∃ s : Severity, s.bits = bits then none else some (.invalidSeverity bits)
  | .coordinates list =>
      if 4 ≤ list.length then none else some (.invalidCoordinates list.length)
  | .word part =>
      if Expression.IsWord part then none else some (.unknownSeverity (String.ofList part))

/-- The fault of the first input that has one. -/
def firstFault? (inputs : List Input) : Option Fault := inputs.findSome? Input.fault?

/-- The inputs of a location, in the order in which they are looked at. -/
def Location.Draft.inputs : Location.Draft → List Input
  | .listed _ (some list) => [.coordinates list]
  | _ => []

def Problem.Draft.inputs : Problem.Draft → List Input
  | .located (some location) _ _ => location.inputs
  | .raw moduleName coordinates _ bits =>
      .flag bits :: (Location.Draft.listed moduleName coordinates).inputs
  | .stated _ location _ => location.inputs
  | _ => []

/-- These are the inputs of a mask: the parts of an expression. -/
def Mask.Draft.Inputs : Mask.Draft → List Input → Prop
  | .expression text, inputs =>
      ∃ parts, Expression.Parts text.toList parts ∧ inputs = parts.map .word
  | .byte _, inputs | .members _, inputs => inputs = []

def Mask.Draft.inputs : Mask.Draft → List Input
  | .expression text => (Expression.parts text).map .word
  | _ => []

/-- A mask has one list of inputs. -/
theorem Mask.Draft.inputs_iff {draft : Mask.Draft} {list : List Input} :
    draft.Inputs list ↔ list = draft.inputs := by
  cases draft with
  | expression text => simp [Inputs, inputs, Expression.parts_iff]
  | _ => exact Iff.rfl

section Refusal

variable {α β : Type}

/-- The fault for which a result is refused. -/
def refusal? : Except Fault α → Option Fault
  | .ok _ => none
  | .error fault => some fault

variable {result : Except Fault α} {fault : Fault}

theorem refusal?_eq_some : refusal? result = some fault ↔ result = .error fault := by
  cases result <;> simp [refusal?]

theorem refusal?_eq_none : refusal? result = none ↔ ∃ value, result = .ok value := by
  cases result <;> simp [refusal?]

/-- If the second of two steps has one fault whatever the first one gives, the fault of both is that
of the first, or else that of the second. -/
theorem refusal?_bind {next : α → Except Fault β} {later : Option Fault}
    (rest : ∀ value, refusal? (next value) = later) :
    refusal? (result >>= next) = (refusal? result).or later := by
  cases result with
  | ok value => exact rest value
  | error fault => rfl

theorem refusal?_map (result : Except Fault α) (f : α → β) :
    refusal? (result >>= fun value => pure (f value)) = refusal? result := by
  cases result <;> rfl

theorem firstFault?_append (inputs others : List Input) :
    firstFault? (inputs ++ others) = (firstFault? inputs).or (firstFault? others) :=
  List.findSome?_append

theorem firstFault?_singleton (input : Input) : firstFault? [input] = input.fault? := by
  rw [firstFault?, List.findSome?_cons]
  cases input.fault? <;> rfl

/-- The items of a list are built in their order, up to the first that is refused. -/
theorem refusal?_mapM {build : α → Except Fault β} {inputs : α → List Input}
    (each : ∀ item, refusal? (build item) = firstFault? (inputs item)) (items : List α) :
    refusal? (items.mapM build) = firstFault? (items.flatMap inputs) := by
  induction items with
  | nil => rfl
  | cons item rest ih =>
    have others (first : β) :
        refusal? (rest.mapM build >>= fun built => pure (first :: built)) =
          firstFault? (rest.flatMap inputs) := by
      rw [refusal?_map, ih]
    rw [List.mapM_cons, refusal?_bind others, each, List.flatMap_cons, firstFault?_append]

end Refusal

theorem Severity.refusal?_ofBits? (bits : UInt8) :
    refusal? (ofBits? bits) = (Input.flag bits).fault? := by
  rw [Input.fault?]
  split
  · next flag => exact refusal?_eq_none.mpr (flag.imp fun _ => ofBits?_eq_ok.mpr)
  · next none => exact refusal?_eq_some.mpr (ofBits?_of_no_flag (not_exists.mp none))

theorem Location.refusal?_ofList? (moduleName : Option String)
    (coordinates : Option (List Int32)) :
    refusal? (ofList? moduleName coordinates) =
      firstFault? (Draft.listed moduleName coordinates).inputs := by
  cases coordinates with
  | none => rfl
  | some list =>
    rw [ofList?, refusal?_map, Draft.inputs, firstFault?_singleton, Input.fault?]
    split
    · next enough =>
      obtain ⟨span, front⟩ := Span.exists_coordinates_prefix enough
      exact refusal?_eq_none.mpr ⟨span, Span.ofList?_eq_ok.mpr front⟩
    · next short =>
      exact refusal?_eq_some.mpr (Span.ofList?_of_short (Nat.lt_of_not_le short))

theorem Location.Draft.refusal?_build (draft : Location.Draft) :
    refusal? draft.build = firstFault? draft.inputs := by
  cases draft with
  | listed moduleName coordinates => exact refusal?_ofList? moduleName coordinates
  | _ => rfl

theorem Problem.refusal?_ofRaw? (moduleName : Option String) (coordinates : Option (List Int32))
    (message : Option String) (bits : UInt8) :
    refusal? (ofRaw? moduleName coordinates message bits) =
      firstFault? (Draft.raw moduleName coordinates message bits).inputs := by
  let place := (Location.Draft.listed moduleName coordinates).inputs
  have rest (severity : Severity) :
      refusal? (Location.ofList? moduleName coordinates >>= fun location =>
        pure (located (some location) message severity)) = firstFault? place := by
    rw [refusal?_map, Location.refusal?_ofList?]
  have order : (Draft.raw moduleName coordinates message bits).inputs = [.flag bits] ++ place := rfl
  rw [ofRaw?, refusal?_bind rest, Severity.refusal?_ofBits?, order, firstFault?_append,
    firstFault?_singleton]

theorem Problem.Draft.refusal?_build (draft : Problem.Draft) :
    refusal? draft.build = firstFault? draft.inputs := by
  cases draft with
  | bare severity => rfl
  | spanned moduleName span message severity => rfl
  | located location message severity =>
    cases location with
    | none => rfl
    | some location => exact (refusal?_map _ _).trans location.refusal?_build
  | raw moduleName coordinates message bits =>
    exact refusal?_ofRaw? moduleName coordinates message bits
  | stated severity location message => exact (refusal?_map _ _).trans location.refusal?_build

theorem Problem.Draft.refusal?_buildAll (drafts : List Problem.Draft) :
    refusal? (buildAll drafts) = firstFault? (drafts.flatMap inputs) :=
  refusal?_mapM refusal?_build drafts

theorem Expression.refusal?_partMask (part : List Char) :
    refusal? (partMask part) = (Input.word part).fault? := by
  rw [Input.fault?]
  split
  · next word => exact refusal?_eq_none.mpr (partMask_of_isWord word)
  · next unknown => exact refusal?_eq_some.mpr (partMask_of_not_isWord unknown)

theorem Mask.Draft.refusal?_build (draft : Mask.Draft) :
    refusal? draft.build = firstFault? draft.inputs := by
  cases draft with
  | byte bits => rfl
  | members severities => rfl
  | expression text =>
    have each (part : List Char) :
        refusal? (Expression.partMask part) = firstFault? [.word part] := by
      rw [Expression.refusal?_partMask, firstFault?_singleton]
    rw [build, Expression.parse, refusal?_map, refusal?_mapM each, inputs, List.map_eq_flatMap]

/-- The byte joins two flags and the list is too short: the byte is refused. -/
example :
    (Problem.Draft.raw none (some [1, 2, 3]) none 96).build = .error (.invalidSeverity 96) := by
  decide

end Diagnostics
