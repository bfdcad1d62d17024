import Diagnostics.Proofs.Severity.FiniteSet

/-!
# The grammar of filter expressions

Reading accepts a text if all of its parts are words, and gives the set of the severities that they
name. The first part that is no word is found again inside the text, and reading it alone gives the
same fault.
-/
namespace Diagnostics.Expression

section Reading

variable {text : String} {part : List Char}

theorem mem_parse {mask : Mask} (reads : parse text = .ok mask) (s : Severity) :
    s ∈ mask ↔ ∃ part ∈ parts text, Mask.Names part s := by
  rw [← Mask.mem_members, Mask.members_parse reads, Mask.named]
  simp [Mask.namedIn_iff]

theorem parse_eq_ok {mask : Mask} :
    parse text = .ok mask ↔ (∀ part ∈ parts text, IsWord part) ∧
      ∀ s, s ∈ mask ↔ ∃ part ∈ parts text, Mask.Names part s := by
  constructor
  · intro reads
    exact ⟨readable_iff.mp (exists_parse_iff.mp ⟨mask, reads⟩), mem_parse reads⟩
  · rintro ⟨allWords, members⟩
    obtain ⟨read, reads⟩ := parse_of_words allWords
    have same : mask = read := Mask.ext fun s => (members s).trans (mem_parse reads s).symm
    rw [same, reads]

theorem parse_eq_error {fault : Fault} :
    parse text = .error fault ↔
      ∃ before offender after, parts text = before ++ offender :: after ∧
        (∀ part ∈ before, IsWord part) ∧ ¬ IsWord offender ∧
        fault = .unknownSeverity (String.ofList offender) := by
  constructor
  · intro fails
    by_cases allWords : ∀ part ∈ parts text, IsWord part
    · obtain ⟨mask, reads⟩ := parse_of_words allWords
      rw [reads] at fails
      cases fails
    · obtain ⟨before, offender, after, cut, wordsBefore, unknown⟩ := exists_offender allWords
      rw [parse_of_offender cut wordsBefore unknown] at fails
      cases fails
      exact ⟨before, offender, after, cut, wordsBefore, unknown, rfl⟩
  · rintro ⟨before, offender, after, cut, wordsBefore, unknown, rfl⟩
    exact parse_of_offender cut wordsBefore unknown

/-- A part that is no word gives its fault without the text around it as well. -/
theorem parse_alone (isPart : IsPart part) (unknown : ¬ IsWord part) :
    parse (String.ofList part) = .error (.unknownSeverity (String.ofList part)) := by
  have cut : parts (String.ofList part) = [] ++ part :: [] := isPart.parts_eq
  exact parse_of_offender cut (by simp) unknown

end Reading

/-- A text has one list of parts. It is read just if all of them are words, and then as the set of
the severities that they name. Otherwise the fault tells the first part that is no word, as it was
written; that part stands somewhere in the text, is a part by itself, and gives the same fault
when it is read alone. -/
theorem parse_grammar (text : String) :
    ∃ parts, (∀ list, Parts text.toList list ↔ list = parts) ∧
      (∀ mask, parse text = .ok mask ↔ (∀ part ∈ parts, IsWord part) ∧
        ∀ s, s ∈ mask ↔ ∃ part ∈ parts, Mask.Names part s) ∧
      (∀ fault, parse text = .error fault ↔
        ∃ before offender after, parts = before ++ offender :: after ∧
          (∀ part ∈ before, IsWord part) ∧ ¬ IsWord offender ∧
          fault = .unknownSeverity (String.ofList offender)) ∧
      ∀ fault, parse text = .error fault →
        ∃ offender, fault = .unknownSeverity (String.ofList offender) ∧ IsPart offender ∧
          offender <:+: text.toList ∧ parse (String.ofList offender) = .error fault := by
  refine ⟨parts text, fun _ => parts_iff, fun _ => parse_eq_ok, fun _ => parse_eq_error, ?_⟩
  intro fault fails
  obtain ⟨before, offender, after, cut, _, unknown, rfl⟩ := parse_eq_error.mp fails
  have member : offender ∈ parts text := by simp [cut]
  have isPart := isPart_of_mem member
  exact ⟨offender, rfl, isPart, infix_of_mem member, parse_alone isPart unknown⟩

end Diagnostics.Expression
