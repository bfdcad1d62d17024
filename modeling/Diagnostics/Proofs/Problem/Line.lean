import Diagnostics.Proofs.Source.Wording

/-!
# The line of a problem

Message and module are set into the line of a problem without quotation marks, so both can hold
whatever else stands there. The message does no harm, as the place of the problem begins where the
line opens a place for the last time. Only the name of a module can do so after that.
-/
namespace Diagnostics

/-- A name with the words by which a line goes over to the place of the problem. -/
def ImitatesPlace (moduleName : String) : Prop := "(from line ".toList <:+: moduleName.toList

instance (moduleName : String) : Decidable (ImitatesPlace moduleName) :=
  inferInstanceAs (Decidable (_ <:+: _))

namespace Location

/-- The text of a location behind its first words, with the parenthesis that closes it in a line. -/
def lineEnd (l : Location) : List Char := l.span.figures ++ (l.moduleName.toList ++ [')'])

variable {a b : Location}

theorem append_lineEnd (l : Location) :
    "from line ".toList ++ l.lineEnd = l.text.toList ++ [')'] := by
  rw [toList_text, lineEnd, List.append_assoc, List.append_assoc]

theorem lineEnd_inj : a.lineEnd = b.lineEnd ↔ a = b := by
  constructor
  · intro same
    have texts : a.text.toList ++ [')'] = b.text.toList ++ [')'] := by
      rw [← append_lineEnd, ← append_lineEnd, same]
    exact text_inj.mp (String.toList_inj.mp (List.append_cancel_right texts))
  · rintro rfl
    rfl

theorem text_append (moduleName behind : String) (span : Span) :
    text ⟨moduleName ++ behind, span⟩ = text ⟨moduleName, span⟩ ++ behind :=
  String.append_assoc.symm

/-- Between the opening of the place and the end of the line only the name can open another. -/
theorem imitatesPlace_of_infix_lineEnd {l : Location}
    (inside : "(from line ".toList <:+: l.lineEnd) : ImitatesPlace l.moduleName := by
  have figures : '(' ∉ l.span.figures := Span.not_mem_figures (by decide) (by decide)
  have named : "(from line ".toList <:+: l.moduleName.toList ++ [')'] :=
    Text.infix_of_infix_append inside figures
  exact Text.infix_of_infix_concat named (by decide)

end Location

namespace Problem

/-- What a line says between the severity and the place. -/
def remark : Option String → List Char
  | some message => ": ".toList ++ (message.toList ++ [' '])
  | none => [' ']

/-- What a line says in front of the place. -/
def heading (p : Problem) : List Char := p.severity.name.toList ++ remark p.message

variable {p q : Problem}

theorem toList_text (p : Problem) :
    p.text.toList = p.heading ++ ("(from line ".toList ++ p.location.lineEnd) := by
  have place : "(from line ".toList ++ p.location.lineEnd =
      '(' :: (p.location.text.toList ++ [')']) := by
    rw [← Location.append_lineEnd]
    rfl
  rw [place]
  obtain ⟨location, message, severity⟩ := p
  cases message <;> simp [text, heading, remark]

theorem remark_inj {message message' : Option String} :
    remark message = remark message' ↔ message = message' := by
  cases message <;> cases message' <;> simp [remark, String.toList_inj]

/-- The names differ in their first letters, whatever follows them. -/
theorem severity_eq_of_name_append {s t : Severity} {rest rest' : List Char}
    (same : s.name.toList ++ rest = t.name.toList ++ rest') : s = t := by
  revert same
  cases s <;> cases t <;> simp [Severity.name]

theorem heading_inj : p.heading = q.heading ↔ p.severity = q.severity ∧ p.message = q.message := by
  constructor
  · intro same
    have severity := severity_eq_of_name_append same
    rw [heading, heading, severity, List.append_cancel_left_eq, remark_inj] at same
    exact ⟨severity, same⟩
  · rintro ⟨severity, message⟩
    rw [heading, heading, severity, message]

theorem eq_of_heading (place : p.location = q.location) (same : p.heading = q.heading) : p = q := by
  obtain ⟨severity, message⟩ := heading_inj.mp same
  cases p
  cases q
  cases place
  cases severity
  cases message
  rfl

/-- At one place the whole of the line that can differ is the heading. -/
theorem text_eq_iff_of_location (place : p.location = q.location) : p.text = q.text ↔ p = q := by
  constructor
  · intro same
    have lines := congrArg String.toList same
    rw [toList_text, toList_text, place] at lines
    exact eq_of_heading place (List.append_cancel_right lines)
  · rintro rfl
    rfl

/-- The place begins where the line opens one for the last time. -/
theorem text_eq_iff_of_plain (plain : ¬ ImitatesPlace p.location.moduleName)
    (plain' : ¬ ImitatesPlace q.location.moduleName) : p.text = q.text ↔ p = q := by
  constructor
  · intro same
    have lines := congrArg String.toList same
    rw [toList_text, toList_text] at lines
    have last : ¬ "(from line ".toList <:+: p.location.lineEnd :=
      mt Location.imitatesPlace_of_infix_lineEnd plain
    have last' : ¬ "(from line ".toList <:+: q.location.lineEnd :=
      mt Location.imitatesPlace_of_infix_lineEnd plain'
    have once : '(' ∉ "from line ".toList := by decide
    obtain ⟨heading, ends⟩ := (Text.append_mark_inj once last last').mp lines
    exact eq_of_heading (Location.lineEnd_inj.mp ends) heading
  · rintro rfl
    rfl

/-- A name that ends like a line can take over the place: what stood in front of it then reads as
part of the message. -/
theorem text_imitated (severity : Severity) (message moduleName : String) (span : Span)
    (place : Location) :
    (stated severity ⟨moduleName ++ " (" ++ place.text, span⟩ message).text =
      (stated severity place (message ++ " (" ++ Location.text ⟨moduleName, span⟩)).text := by
  simp only [stated, located, text, Option.getD_some, Location.text_append, String.append_assoc]

/-- Two problems with the same line are one problem, unless the name of a module opens a place as a
line does. At one place they are one problem whatever its name is, so a message that is absent
never reads like one that is there, be it empty. -/
theorem text_ambiguity (p q : Problem) :
    (p ≠ q → p.text = q.text →
      ImitatesPlace p.location.moduleName ∨ ImitatesPlace q.location.moduleName) ∧
    (p.location = q.location → (p.text = q.text ↔ p = q)) ∧
    ∀ place message s t,
      (⟨place, none, s⟩ : Problem).text ≠ (⟨place, some message, t⟩ : Problem).text := by
  refine ⟨?_, text_eq_iff_of_location, ?_⟩
  · intro differ same
    by_cases plain : ImitatesPlace p.location.moduleName
    · exact .inl plain
    · refine .inr (Decidable.byContradiction fun plain' => ?_)
      exact differ ((text_eq_iff_of_plain plain plain').mp same)
  · intro place message s t
    have differ : (⟨place, none, s⟩ : Problem) ≠ ⟨place, some message, t⟩ := nofun
    have alike := @text_eq_iff_of_location ⟨place, none, s⟩ ⟨place, some message, t⟩ rfl
    exact mt alike.mp differ

/-- An error in a module whose name ends in another place, and an error in that place. -/
theorem text_ambiguity_imitated :
    let span := Span.ofCoordinates 1 1 1 1
    let place : Location := ⟨"n", Span.ofCoordinates 2 2 2 2⟩
    let p := stated .error ⟨"m (" ++ place.text, span⟩ "bad"
    let q := stated .error place ("bad (" ++ Location.text ⟨"m", span⟩)
    let silent := located (some place) none .error
    p ≠ q ∧ p.text = q.text ∧
      (ImitatesPlace p.location.moduleName ∨ ImitatesPlace q.location.moduleName) ∧
      silent.text ≠ q.text := by
  intro span place p q silent
  have differ : p ≠ q := by decide +kernel
  have same : p.text = q.text := text_imitated .error "bad" "m" span place
  have apart : silent.text ≠ q.text := mt ((text_ambiguity silent q).2.1 rfl).mp (by decide +kernel)
  exact ⟨differ, same, (text_ambiguity p q).1 differ same, apart⟩

end Problem
end Diagnostics
