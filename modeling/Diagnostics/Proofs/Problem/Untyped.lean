import Diagnostics.Problem

/-!
# Problems from untyped producers

A producer without types gives a byte for the severity and a list for the span. What the byte and
the list stand for is said without the functions that read them: the byte is the flag of the
severity, and the list begins with the four coordinates of the span. Such input comes to the problem
that a typed producer would make of the same parts, or to one of two faults, the flag's first.
-/
namespace Diagnostics

namespace Severity

variable {s t : Severity} {b : UInt8} {fault : Fault}

theorem bits_inj : s.bits = t.bits ↔ s = t := by
  cases s <;> cases t <;> decide

theorem ofBits?_bits (s : Severity) : ofBits? s.bits = .ok s := by cases s <;> rfl

theorem ofBits?_of_no_flag (none : ∀ s : Severity, s.bits ≠ b) :
    ofBits? b = .error (.invalidSeverity b) := by
  have absent : all.find? (·.bits = b) = Option.none := by simpa using fun s _ => none s
  rw [ofBits?, absent]

theorem ofBits?_eq_ok : ofBits? b = .ok s ↔ s.bits = b := by
  constructor
  · intro read
    by_cases flag : ∃ t : Severity, t.bits = b
    · obtain ⟨t, rfl⟩ := flag
      rw [ofBits?_bits] at read
      rw [Except.ok.inj read]
    · rw [ofBits?_of_no_flag (not_exists.mp flag)] at read
      cases read
  · rintro rfl
    exact ofBits?_bits s

theorem ofBits?_eq_error :
    ofBits? b = .error fault ↔ (∀ s : Severity, s.bits ≠ b) ∧ fault = .invalidSeverity b := by
  constructor
  · intro fails
    have none : ∀ s : Severity, s.bits ≠ b := fun s flag => by
      rw [ofBits?_eq_ok.mpr flag] at fails
      cases fails
    rw [ofBits?_of_no_flag none] at fails
    exact ⟨none, (Except.error.inj fails).symm⟩
  · rintro ⟨none, rfl⟩
    exact ofBits?_of_no_flag none

end Severity

namespace Span

variable {s t : Span} {list : List Int32} {fault : Fault}

theorem coordinates_inj : s.coordinates = t.coordinates ↔ s = t := by
  obtain ⟨⟨_, _⟩, ⟨_, _⟩⟩ := s
  obtain ⟨⟨_, _⟩, ⟨_, _⟩⟩ := t
  simp [coordinates, and_assoc]

theorem ofList?_coordinates_append (s : Span) (rest : List Int32) :
    ofList? (s.coordinates ++ rest) = .ok s := rfl

theorem ofList?_of_short (short : list.length < 4) :
    ofList? list = .error (.invalidCoordinates list.length) := by
  match list, short with
  | [], _ => rfl
  | [_], _ => rfl
  | [_, _], _ => rfl
  | [_, _, _], _ => rfl

/-- Four coordinates are enough for a span, whatever follows them. -/
theorem exists_coordinates_prefix (enough : 4 ≤ list.length) :
    ∃ s : Span, s.coordinates <+: list := by
  match list, enough with
  | startLine :: startColumn :: stopLine :: stopColumn :: rest, _ =>
    exact ⟨ofCoordinates startLine startColumn stopLine stopColumn, rest, rfl⟩

theorem ofList?_eq_ok : ofList? list = .ok s ↔ s.coordinates <+: list := by
  constructor
  · intro read
    by_cases enough : 4 ≤ list.length
    · obtain ⟨t, rest, rfl⟩ := exists_coordinates_prefix enough
      rw [ofList?_coordinates_append] at read
      rw [← Except.ok.inj read]
      exact List.prefix_append _ _
    · rw [ofList?_of_short (Nat.lt_of_not_le enough)] at read
      cases read
  · rintro ⟨rest, rfl⟩
    exact ofList?_coordinates_append s rest

theorem ofList?_eq_error :
    ofList? list = .error fault ↔ list.length < 4 ∧ fault = .invalidCoordinates list.length := by
  constructor
  · intro fails
    have short : list.length < 4 := by
      refine Nat.lt_of_not_le fun enough => ?_
      obtain ⟨s, front⟩ := exists_coordinates_prefix enough
      rw [ofList?_eq_ok.mpr front] at fails
      cases fails
    rw [ofList?_of_short short] at fails
    exact ⟨short, (Except.error.inj fails).symm⟩
  · rintro ⟨short, rfl⟩
    exact ofList?_of_short short

/-- Only the first four coordinates are looked at. -/
theorem ofList?_congr {other : List Int32} (same : list.take 4 = other.take 4) :
    ofList? list = ofList? other := by
  by_cases enough : 4 ≤ list.length
  · obtain ⟨s, front⟩ := exists_coordinates_prefix enough
    have otherFront : s.coordinates <+: other.take 4 :=
      same ▸ List.prefix_take_iff.mpr ⟨front, Nat.le_refl 4⟩
    rw [ofList?_eq_ok.mpr front, ofList?_eq_ok.mpr (otherFront.trans (List.take_prefix 4 other))]
  · have lengths := congrArg List.length same
    simp only [List.length_take] at lengths
    rw [List.take_of_length_le (by omega), List.take_of_length_le (by omega)] at same
    rw [same]

end Span

/-- What a list of coordinates says about the span: nothing if it is absent, else the span with
whose coordinates it begins. -/
def Span.GivenBy : Option (List Int32) → Option Span → Prop :=
  Option.Rel fun list s => s.coordinates <+: list

section Location

variable {moduleName : Option String} {coordinates : Option (List Int32)} {l : Location}
  {fault : Fault}

theorem Location.ofList?_eq_ok :
    ofList? moduleName coordinates = .ok l ↔
      ∃ span, Span.GivenBy coordinates span ∧ l = ofOptionalSpan moduleName span := by
  cases coordinates with
  | none =>
    constructor
    · rintro ⟨⟩
      exact ⟨none, .none, rfl⟩
    · rintro ⟨_, ⟨⟩, rfl⟩
      rfl
  | some list =>
    constructor
    · intro read
      cases spanned : Span.ofList? list with
      | error fault => simp [ofList?, spanned, bind, Except.bind] at read
      | ok s =>
        simp only [ofList?, spanned, bind, Except.bind, pure, Except.pure] at read
        exact ⟨some s, .some (Span.ofList?_eq_ok.mp spanned), (Except.ok.inj read).symm⟩
    · rintro ⟨_, ⟨front⟩, rfl⟩
      rw [ofList?, Span.ofList?_eq_ok.mpr front]
      rfl

theorem Location.ofList?_eq_error :
    ofList? moduleName coordinates = .error fault ↔
      ∃ list ∈ coordinates, list.length < 4 ∧ fault = .invalidCoordinates list.length := by
  cases coordinates with
  | none => simp [ofList?]
  | some list =>
    simp only [ofList?, Option.mem_some_iff, exists_eq_left', ← Span.ofList?_eq_error]
    cases Span.ofList? list <;> simp [bind, Except.bind, pure, Except.pure]

end Location

namespace Problem

variable {moduleName : Option String} {coordinates : Option (List Int32)}
  {message : Option String} {bits : UInt8} {p : Problem} {fault : Fault}

theorem ofRaw?_eq_ok :
    ofRaw? moduleName coordinates message bits = .ok p ↔
      ∃ severity span, severity.bits = bits ∧ Span.GivenBy coordinates span ∧
        p = spanned moduleName span message severity := by
  constructor
  · intro read
    unfold ofRaw? at read
    cases flag : Severity.ofBits? bits with
    | error fault => simp [flag, bind, Except.bind] at read
    | ok severity =>
      cases place : Location.ofList? moduleName coordinates with
      | error fault => simp [flag, place, bind, Except.bind] at read
      | ok location =>
        simp only [flag, place, bind, Except.bind, pure, Except.pure] at read
        obtain ⟨span, given, rfl⟩ := Location.ofList?_eq_ok.mp place
        exact ⟨severity, span, Severity.ofBits?_eq_ok.mp flag, given, (Except.ok.inj read).symm⟩
  · rintro ⟨severity, span, flag, given, rfl⟩
    have place : Location.ofList? moduleName coordinates = .ok (.ofOptionalSpan moduleName span) :=
      Location.ofList?_eq_ok.mpr ⟨span, given, rfl⟩
    rw [ofRaw?, Severity.ofBits?_eq_ok.mpr flag, place]
    rfl

/-- The fault of the coordinates is reported only if the byte has none. -/
theorem ofRaw?_eq_error :
    ofRaw? moduleName coordinates message bits = .error fault ↔
      ((∀ s : Severity, s.bits ≠ bits) ∧ fault = .invalidSeverity bits) ∨
      ((∃ s : Severity, s.bits = bits) ∧
        ∃ list ∈ coordinates, list.length < 4 ∧ fault = .invalidCoordinates list.length) := by
  rw [← Severity.ofBits?_eq_error, ← Location.ofList?_eq_error]
  simp only [← Severity.ofBits?_eq_ok]
  unfold ofRaw?
  cases Severity.ofBits? bits with
  | error first => simp [bind, Except.bind]
  | ok severity =>
    cases Location.ofList? moduleName coordinates <;> simp [bind, Except.bind, pure, Except.pure]

theorem exists_given_iff :
    (∃ span, Span.GivenBy coordinates span) ↔ ∀ list ∈ coordinates, 4 ≤ list.length := by
  cases coordinates with
  | none => exact ⟨fun _ _ absent => (nomatch absent), fun _ => ⟨none, .none⟩⟩
  | some list =>
    constructor
    · rintro ⟨_, ⟨front⟩⟩ _ ⟨⟩
      exact front.length_le
    · intro enough
      obtain ⟨s, front⟩ := Span.exists_coordinates_prefix (enough list rfl)
      exact ⟨some s, .some front⟩

theorem exists_ofRaw?_iff :
    (∃ p, ofRaw? moduleName coordinates message bits = .ok p) ↔
      (∃ s : Severity, s.bits = bits) ∧ ∀ list ∈ coordinates, 4 ≤ list.length := by
  simp only [ofRaw?_eq_ok, ← exists_given_iff]
  constructor
  · rintro ⟨_, severity, span, flag, given, _⟩
    exact ⟨⟨severity, flag⟩, span, given⟩
  · rintro ⟨⟨severity, flag⟩, span, given⟩
    exact ⟨_, severity, span, flag, given, rfl⟩

theorem ofRaw?_congr {list other : List Int32} (same : list.take 4 = other.take 4) :
    ofRaw? moduleName (some list) message bits = ofRaw? moduleName (some other) message bits := by
  rw [ofRaw?, ofRaw?, Location.ofList?, Location.ofList?, Span.ofList?_congr same]

variable (moduleName coordinates message bits)

/-- Untyped input is accepted just if its byte is a flag and its coordinates, if there are any, are
four or more. It then makes the problem that has the severity of the flag, at the span with whose
coordinates the list begins, or at no span, as a typed producer would give them; what follows the
first four coordinates makes no difference. A byte that is no flag is reported first, and otherwise
a list that is too short, with its length. -/
theorem ofRaw?_outcomes :
    (∀ p, ofRaw? moduleName coordinates message bits = .ok p ↔
      ∃ severity span, severity.bits = bits ∧ Span.GivenBy coordinates span ∧
        p = spanned moduleName span message severity) ∧
    ((∃ p, ofRaw? moduleName coordinates message bits = .ok p) ↔
      (∃ s : Severity, s.bits = bits) ∧ ∀ list ∈ coordinates, 4 ≤ list.length) ∧
    (∀ fault, ofRaw? moduleName coordinates message bits = .error fault ↔
      ((∀ s : Severity, s.bits ≠ bits) ∧ fault = .invalidSeverity bits) ∨
      ((∃ s : Severity, s.bits = bits) ∧
        ∃ list ∈ coordinates, list.length < 4 ∧ fault = .invalidCoordinates list.length)) ∧
    ∀ list other : List Int32, list.take 4 = other.take 4 →
      ofRaw? moduleName (some list) message bits = ofRaw? moduleName (some other) message bits :=
  ⟨fun _ => ofRaw?_eq_ok, exists_ofRaw?_iff, fun _ => ofRaw?_eq_error, fun _ _ => ofRaw?_congr⟩

/-- Five coordinates for a warning, and three with a byte that joins two flags. -/
theorem ofRaw?_outcomes_mixed :
    let place := Span.ofCoordinates 2 1 2 9
    [2, 1, 2, 9, 7].take 4 = [2, 1, 2, 9].take 4 ∧
      ofRaw? (some "m") (some [2, 1, 2, 9, 7]) none 64 =
        .ok (spanned (some "m") (some place) none .warning) ∧
      ofRaw? (some "m") (some [2, 1, 2, 9, 7]) none 64 =
        ofRaw? (some "m") (some [2, 1, 2, 9]) none 64 ∧
      ofRaw? none (some [2, 1, 2]) none 96 = .error (.invalidSeverity 96) ∧
      ofRaw? none (some [2, 1, 2]) none 32 = .error (.invalidCoordinates 3) := by
  intro place
  obtain ⟨accepted, _, _, tails⟩ :=
    ofRaw?_outcomes (some "m") (some [2, 1, 2, 9, 7]) none 64
  obtain ⟨_, _, refused, _⟩ := ofRaw?_outcomes none (some [2, 1, 2]) none 96
  obtain ⟨_, _, short, _⟩ := ofRaw?_outcomes none (some [2, 1, 2]) none 32
  refine ⟨rfl, ?_, tails _ _ rfl, ?_, ?_⟩
  · exact (accepted _).mpr ⟨.warning, some place, rfl, .some ⟨[7], rfl⟩, rfl⟩
  · exact (refused _).mpr (.inl ⟨fun s => by cases s <;> decide, rfl⟩)
  · exact (short _).mpr (.inr ⟨⟨.error, rfl⟩, [2, 1, 2], rfl, by decide, rfl⟩)

end Problem
end Diagnostics
