import Diagnostics.Proofs.Json.RoundTrip

/-!
# What is read as a record

The documents that are read as a position, a location or a problem, described without the reader: a
record's document gives a document for each field, in one of two forms, and what it gives holds the
record's parts. Only what is given for the fields counts, so the order of members, members of other
names and the choice of form make no difference.
-/
namespace Diagnostics.Json

namespace Document

/-- What the members of a name hold, in their order. -/
def under (members : Members) (name : String) : List Document :=
  (members.filter (·.1 = some name)).map Prod.snd

/-- What a document gives for the fields of a record. An object gives what stands under the name
of a field, once or not at all, as long as the names of all its members are texts; an array gives
its items, one for each field. -/
inductive Gives (names : List String) : Document → List (Option Document) → Prop where
  | object {members : Members} {parts : List (Option Document)}
      (named : ∀ member ∈ members, member.1.isSome)
      (each : names.map (under members) = parts.map Option.toList) :
      Gives names (.object members) parts
  | array {items : List Document} (full : items.length = names.length) :
      Gives names (.array items) (items.map some)

section Members

variable {members others : Members} {names : List String} {name : String}

theorem length_under : (under members name).length = occurrences members name := by
  rw [under, List.length_map, occurrences, List.countP_eq_length_filter]

/-- The first document under a name is the one that is looked up. -/
theorem lookup_eq_head? : members.lookup (some name) = (under members name).head? := by
  induction members with
  | nil => rfl
  | cons member rest ih =>
    obtain ⟨key, item⟩ := member
    by_cases here : key = some name
    · simp [under, here]
    · have passed : (some name == key) = false := beq_false_of_ne fun same => here same.symm
      rw [List.lookup_cons, passed, ih]
      simp [under, here]

theorem under_eq_toList {part : Option Document} :
    under members name = part.toList ↔
      occurrences members name ≤ 1 ∧ members.lookup (some name) = part := by
  rw [← length_under, lookup_eq_head?]
  constructor
  · intro same
    rw [same]
    cases part <;> simp
  · rintro ⟨few, rfl⟩
    match under members name, few with
    | [], _ => rfl
    | [_], _ => rfl

theorem map_under_eq {parts : List (Option Document)} :
    names.map (under members) = parts.map Option.toList ↔
      (∀ name ∈ names, occurrences members name ≤ 1) ∧
        names.map (fun name => members.lookup (some name)) = parts := by
  induction names generalizing parts with
  | nil => cases parts <;> simp
  | cons name rest ih =>
    cases parts with
    | nil => simp
    | cons part parts =>
      simp only [List.map_cons, List.cons.injEq, under_eq_toList, ih, List.forall_mem_cons]
      exact and_and_and_comm

theorem isRecord_iff :
    isRecord names members = true ↔
      (∀ member ∈ members, member.1.isSome) ∧ ∀ name ∈ names, occurrences members name ≤ 1 := by
  simp only [isRecord, Bool.and_eq_true, List.all_eq_true, decide_eq_true_eq]

end Members

/-- The fields of a record are what its document gives. -/
theorem fields?_eq_some {names : List String} {d : Document} {parts : List (Option Document)} :
    d.fields? names = some parts ↔ Gives names d parts := by
  constructor
  · intro found
    cases d with
    | array items =>
      rw [fields?] at found
      split at found
      · next full =>
        cases found
        exact .array full
      · cases found
    | object members =>
      rw [fields?] at found
      split at found
      · next reads =>
        obtain ⟨named, few⟩ := isRecord_iff.mp reads
        exact .object named (map_under_eq.mpr ⟨few, Option.some.inj found⟩)
      · cases found
    | _ => cases found
  · rintro (⟨named, each⟩ | full)
    · obtain ⟨few, looked⟩ := map_under_eq.mp each
      rw [fields?, if_pos (isRecord_iff.mpr ⟨named, few⟩), looked]
    · rw [fields?, if_pos full]

namespace Gives

variable {names : List String} {members others : Members} {parts : List (Option Document)}

theorem perm (perm : members.Perm others) (gives : Gives names (.object members) parts) :
    Gives names (.object others) parts := by
  obtain ⟨named, each⟩ := gives
  refine .object (fun member mem => named member (perm.mem_iff.mpr mem)) (each ▸ ?_)
  refine List.map_congr_left fun name field => ?_
  -- At most one document stands under a field, so there is nothing to put in order.
  have few : (under members name).length ≤ 1 := by
    rw [length_under]
    exact (map_under_eq.mp each).1 name field
  have same : (under members name).Perm (under others name) := (perm.filter _).map _
  match under members name, few, same with
  | [], _, same => exact same.symm.eq_nil
  | [_], _, same => exact same.symm.eq_singleton

theorem unknown {name : String} {d : Document} (foreign : name ∉ names) :
    Gives names (.object ((some name, d) :: members)) parts ↔
      Gives names (.object members) parts := by
  have passed : names.map (under ((some name, d) :: members)) = names.map (under members) := by
    refine List.map_congr_left fun field known => ?_
    have differs : name ≠ field := fun same => foreign (same ▸ known)
    simp [under, differs]
  constructor
  · rintro ⟨named, each⟩
    exact .object (fun member mem => named member (List.mem_cons_of_mem _ mem)) (passed ▸ each)
  · rintro ⟨named, each⟩
    refine .object (fun member mem => ?_) (passed.trans each)
    rcases List.mem_cons.mp mem with rfl | other
    · rfl
    · exact named member other

end Gives
end Document

/-- What is read at a type depends on what is given for these fields only. -/
structure OnlyFields (α : Type) [Codec α] (names : List String) : Prop where
  order : ∀ {members others : Document.Members}, members.Perm others →
    (ofDocument? (.object members) : Option α) = ofDocument? (.object others)
  unknown : ∀ {members : Document.Members} {name : String} (d : Document), name ∉ names →
    (ofDocument? (.object ((some name, d) :: members)) : Option α) = ofDocument? (.object members)
  form : ∀ {members : Document.Members} {items : List Document},
    Document.Gives names (.object members) (items.map some) →
      (ofDocument? (.object members) : Option α) = ofDocument? (.array items)

/-- A reader that looks at the fields alone. -/
theorem OnlyFields.of_fields? {α : Type} [Codec α] {names : List String}
    (reads : ∀ {d e : Document}, d.fields? names = e.fields? names →
      (ofDocument? d : Option α) = ofDocument? e) : OnlyFields α names where
  order perm := reads <| Option.ext fun parts => by
    rw [Document.fields?_eq_some, Document.fields?_eq_some]
    exact ⟨.perm perm, .perm perm.symm⟩
  unknown d foreign := reads <| Option.ext fun parts => by
    rw [Document.fields?_eq_some, Document.fields?_eq_some, Document.Gives.unknown foreign]
  form {members items} gives := by
    have full : items.length = names.length := by
      obtain ⟨_, each⟩ := gives
      simpa using (congrArg List.length each).symm
    refine reads ?_
    rw [Document.fields?_eq_some.mpr gives, Document.fields?_eq_some.mpr (.array full)]

/-- `null` is an absent message. -/
inductive IsMessage : Document → Option String → Prop where
  | null : IsMessage .null none
  | text (words : String) : IsMessage (.text (some words)) (some words)

/-- A severity is given by its label, alone or as the one member of an object. -/
inductive IsSeverity : Document → Severity → Prop where
  | label (s : Severity) : IsSeverity (.text (some (severityLabel s))) s
  | variant (s : Severity) : IsSeverity (.object [(some (severityLabel s), .null)]) s

def IsPosition (d : Document) (p : Position) : Prop :=
  d.Gives ["line", "column"] [some (.ofInt p.line.toInt), some (.ofInt p.column.toInt)]

def IsLocation (d : Document) (l : Location) : Prop :=
  ∃ start stop,
    d.Gives ["module_name", "begin", "end"]
      [some (.text (some l.moduleName)), some start, some stop] ∧
    IsPosition start l.span.start ∧ IsPosition stop l.span.stop

/-- A message that is not given counts as `null`. -/
def IsProblem (d : Document) (p : Problem) : Prop :=
  ∃ location message severity,
    d.Gives ["location", "message", "severity"] [some location, message, some severity] ∧
    IsLocation location p.location ∧ IsMessage (message.getD .null) p.message ∧
    IsSeverity severity p.severity

theorem Number.toInt?_eq_some {number : Number} {n : Int} :
    number.toInt? = some n ↔ number = ofInt n := by
  refine ⟨fun denotes => ?_, fun same => same ▸ toInt?_ofInt n⟩
  obtain ⟨negative, magnitude, integral⟩ := number
  unfold toInt? at denotes
  unfold ofInt
  cases integral <;> cases negative <;> simp at denotes ⊢ <;> omega

/-- Within its range an integer has one document. -/
theorem Document.intWithin?_eq_some {least greatest n : Int} {d : Document} :
    d.intWithin? least greatest = some n ↔ d = .ofInt n ∧ least ≤ n ∧ n ≤ greatest := by
  constructor
  · intro found
    cases d with
    | number number =>
      obtain ⟨m, denotes, within⟩ := Option.bind_eq_some_iff.mp found
      split at within
      · next range =>
        cases within
        exact ⟨congrArg Document.number (Number.toInt?_eq_some.mp denotes), range⟩
      · cases within
    | _ => cases found
  · rintro ⟨rfl, low, high⟩
    exact intWithin?_ofInt low high

theorem Document.intWithin?_ofInt_outside {least greatest n : Int}
    (outside : ¬ (least ≤ n ∧ n ≤ greatest)) :
    (Document.ofInt n).intWithin? least greatest = none := by
  simp only [intWithin?, ofInt, Number.toInt?_ofInt, Option.bind_eq_bind, Option.bind_some,
    if_neg outside]

theorem ofDocument?_coordinate {d : Document} {n : Int32} :
    ofDocument? d = some n ↔ d = .ofInt n.toInt := by
  constructor
  · intro found
    obtain ⟨m, read, same⟩ := Option.map_eq_some_iff.mp found
    obtain ⟨holds, low, high⟩ := Document.intWithin?_eq_some.mp read
    rw [holds, ← same, Int32.toInt_ofInt_of_le low (Int.lt_add_one_of_le high)]
  · rintro rfl
    exact ofDocument?_toDocument n

theorem ofDocument?_text {d : Document} {words : String} :
    ofDocument? d = some words ↔ d = .text (some words) := by
  constructor
  · intro found
    cases d with
    | text text => exact congrArg Document.text found
    | _ => cases found
  · rintro rfl
    rfl

theorem ofDocument?_message {d : Document} {message : Option String} :
    ofDocument? d = some message ↔ IsMessage d message := by
  constructor
  · intro found
    cases d with
    | null =>
      cases found
      exact .null
    | text text =>
      cases text with
      | none => cases found
      | some words =>
        cases found
        exact .text words
    | _ => cases found
  · rintro (_ | words) <;> rfl

theorem ofLabel?_eq_some {label : String} {s : Severity} :
    ofLabel? label = some s ↔ label = severityLabel s := by
  constructor
  · intro found
    have found : Severity.all.find? (severityLabel · = label) = some s := found
    have same := List.find?_some found
    exact (of_decide_eq_true same).symm
  · rintro rfl
    cases s <;> rfl

theorem ofDocument?_severity {d : Document} {s : Severity} :
    ofDocument? d = some s ↔ IsSeverity d s := by
  constructor
  · intro found
    unfold ofDocument? instCodecSeverity at found
    dsimp only at found
    split at found
    · cases ofLabel?_eq_some.mp found
      exact .label s
    · cases ofLabel?_eq_some.mp found
      exact .variant s
    · cases found
  · rintro (_ | _)
    · exact ofLabel?_eq_some.mpr rfl
    · exact ofLabel?_eq_some.mpr rfl

theorem ofDocument?_position_of_fields {d line column : Document}
    (given : d.fields? ["line", "column"] = some [some line, some column]) :
    (ofDocument? d : Option Position) =
      do return ⟨← ofDocument? line, ← ofDocument? column⟩ := by
  unfold ofDocument? instCodecPosition
  dsimp only
  rw [given]
  rfl

theorem ofDocument?_position {d : Document} {p : Position} :
    ofDocument? d = some p ↔ IsPosition d p := by
  rw [IsPosition, ← Document.fields?_eq_some]
  constructor
  · intro found
    unfold ofDocument? instCodecPosition at found
    dsimp only at found
    split at found
    · next line column given =>
      simp only [Option.bind_eq_bind, Option.bind_eq_some_iff, Option.pure_def, Option.some.injEq,
        ofDocument?_coordinate] at found
      obtain ⟨m, rfl, n, rfl, rfl⟩ := found
      exact given
    · cases found
  · intro given
    have line : ofDocument? (.ofInt p.line.toInt) = some p.line := ofDocument?_coordinate.mpr rfl
    have column : ofDocument? (.ofInt p.column.toInt) = some p.column :=
      ofDocument?_coordinate.mpr rfl
    rw [ofDocument?_position_of_fields given, line, column]
    rfl

theorem ofDocument?_location_of_fields {d moduleName start stop : Document}
    (given : d.fields? ["module_name", "begin", "end"] =
      some [some moduleName, some start, some stop]) :
    (ofDocument? d : Option Location) =
      do return ⟨← ofDocument? moduleName, ⟨← ofDocument? start, ← ofDocument? stop⟩⟩ := by
  unfold ofDocument? instCodecLocation
  dsimp only
  rw [given]
  rfl

theorem ofDocument?_location {d : Document} {l : Location} :
    ofDocument? d = some l ↔ IsLocation d l := by
  constructor
  · intro found
    unfold ofDocument? instCodecLocation at found
    dsimp only at found
    split at found
    · next moduleName start stop given =>
      simp only [Option.bind_eq_bind, Option.bind_eq_some_iff, Option.pure_def, Option.some.injEq,
        ofDocument?_text, ofDocument?_position] at found
      obtain ⟨words, rfl, first, begins, last, ends, rfl⟩ := found
      exact ⟨start, stop, Document.fields?_eq_some.mp given, begins, ends⟩
    · cases found
  · rintro ⟨start, stop, gives, begins, ends⟩
    have named : ofDocument? (.text (some l.moduleName)) = some l.moduleName := rfl
    rw [ofDocument?_location_of_fields (Document.fields?_eq_some.mpr gives), named,
      ofDocument?_position.mpr begins, ofDocument?_position.mpr ends]
    rfl

theorem ofDocument?_problem_of_fields {d location severity : Document} {message : Option Document}
    (given : d.fields? ["location", "message", "severity"] =
      some [some location, message, some severity]) :
    (ofDocument? d : Option Problem) =
      do return ⟨← ofDocument? location, ← ofDocument? (message.getD .null),
        ← ofDocument? severity⟩ := by
  unfold ofDocument? instCodecProblem
  dsimp only
  rw [given]
  rfl

theorem ofDocument?_problem {d : Document} {p : Problem} :
    ofDocument? d = some p ↔ IsProblem d p := by
  constructor
  · intro found
    unfold ofDocument? instCodecProblem at found
    dsimp only at found
    split at found
    · next location message severity given =>
      simp only [Option.bind_eq_bind, Option.bind_eq_some_iff, Option.pure_def, Option.some.injEq,
        ofDocument?_location, ofDocument?_message, ofDocument?_severity] at found
      obtain ⟨place, located, words, stated, grade, graded, rfl⟩ := found
      exact ⟨location, message, severity, Document.fields?_eq_some.mp given, located, stated,
        graded⟩
    · cases found
  · rintro ⟨location, message, severity, gives, located, stated, graded⟩
    rw [ofDocument?_problem_of_fields (Document.fields?_eq_some.mpr gives),
      ofDocument?_location.mpr located, ofDocument?_message.mpr stated,
      ofDocument?_severity.mpr graded]
    rfl

/-- A text is decoded as a value if it holds one document that is read as the value. -/
theorem decode?_eq_some {α : Type} [Codec α] {text : String} {a : α} :
    decode? text = some a ↔ ∃ d, Document.read? text = some d ∧ ofDocument? d = some a :=
  Option.bind_eq_some_iff

theorem onlyFields_position : OnlyFields Position ["line", "column"] :=
  .of_fields? fun same => by
    unfold ofDocument? instCodecPosition
    dsimp only
    rw [same]

theorem onlyFields_location : OnlyFields Location ["module_name", "begin", "end"] :=
  .of_fields? fun same => by
    unfold ofDocument? instCodecLocation
    dsimp only
    rw [same]

theorem onlyFields_problem : OnlyFields Problem ["location", "message", "severity"] :=
  .of_fields? fun same => by
    unfold ofDocument? instCodecProblem
    dsimp only
    rw [same]

/-- A text is decoded as a problem, a location or a position just if it is the text of a document
that gives the parts of one, in either form at each level, and what is decoded has these parts. An
order of the members, members of other names and the form make no difference. -/
theorem decode?_records :
    (∀ (text : String) (p : Problem),
      decode? text = some p ↔ ∃ d, Document.read? text = some d ∧ IsProblem d p) ∧
    (∀ (text : String) (l : Location),
      decode? text = some l ↔ ∃ d, Document.read? text = some d ∧ IsLocation d l) ∧
    (∀ (text : String) (p : Position),
      decode? text = some p ↔ ∃ d, Document.read? text = some d ∧ IsPosition d p) ∧
    OnlyFields Problem ["location", "message", "severity"] ∧
    OnlyFields Location ["module_name", "begin", "end"] ∧
    OnlyFields Position ["line", "column"] := by
  refine ⟨?_, ?_, ?_, onlyFields_problem, onlyFields_location, onlyFields_position⟩
  · intro text p
    simp only [decode?_eq_some, ofDocument?_problem]
  · intro text l
    simp only [decode?_eq_some, ofDocument?_location]
  · intro text p
    simp only [decode?_eq_some, ofDocument?_position]

/-- It is not enough that the fields are given once each: a member whose name is no text, although
it is no field either, makes the object unreadable. -/
theorem decode?_unpaired_name :
    let text := "\x7b\"line\":1,\"column\":2,\"\\ud800\":0\x7d"
    let members : Document.Members :=
      [(some "line", .ofInt 1), (some "column", .ofInt 2), (none, .ofInt 0)]
    Document.read? text = some (.object members) ∧
      ["line", "column"].map (Document.under members) = [[.ofInt 1], [.ofInt 2]] ∧
      ofDocument? (.object (members.take 2)) = some (Position.mk 1 2) ∧
      (decode? text : Option Position) = none := by
  intro text members
  have written : (Document.object members).write =
      ['\x7b', '"', 'l', 'i', 'n', 'e', '"', ':', '1', ',', '"', 'c', 'o', 'l', 'u', 'm', 'n', '"',
        ':', '2', ',', '"', '\\', 'u', 'd', '8', '0', '0', '"', ':', '0', '\x7d'] := rfl
  have read : Document.read? text = some (.object members) := by
    have same : (Document.object members).toText = text := congrArg String.ofList written
    rw [← same, Document.read?_toText]
  refine ⟨read, rfl, rfl, ?_⟩
  rw [decode?, read]
  rfl

end Diagnostics.Json
