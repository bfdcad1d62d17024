import Diagnostics.Problem
import Diagnostics.Proofs.Text.Cut

/-!
# The wording of locations

The text of a location names its four numbers first, each in front of a word that begins with no
numeral, and the module last. So it can be read in one way, whatever the name of the module is.
-/
namespace Diagnostics

open Text (intDigits isNumeral)

/-- The text of a location behind its first word and in front of the name of the module. -/
def Span.figures (s : Span) : List Char :=
  intDigits s.start.line.toInt ++ (", column ".toList ++
    (intDigits s.start.column.toInt ++ (" to line ".toList ++
      (intDigits s.stop.line.toInt ++ (", column ".toList ++
        (intDigits s.stop.column.toInt ++ " of module ".toList))))))

namespace Span

variable {s t : Span}

/-- Also where the names that follow are made of digits, commas or the same words. -/
theorem figures_append_inj {name name' : List Char} :
    s.figures ++ name = t.figures ++ name' ↔ s = t ∧ name = name' := by
  constructor
  · intro same
    simp only [figures, List.append_assoc] at same
    -- Each number is cut off by the word behind it.
    obtain ⟨startLine, same⟩ := (Text.intDigits_append_inj (by decide)).mp same
    obtain ⟨startColumn, same⟩ := (Text.intDigits_append_inj (by decide)).mp same
    obtain ⟨stopLine, same⟩ := (Text.intDigits_append_inj (by decide)).mp same
    obtain ⟨stopColumn, names⟩ := (Text.intDigits_append_inj (by decide)).mp same
    rw [Int32.toInt_inj] at startLine startColumn stopLine stopColumn
    obtain ⟨⟨_, _⟩, ⟨_, _⟩⟩ := s
    obtain ⟨⟨_, _⟩, ⟨_, _⟩⟩ := t
    cases startLine
    cases startColumn
    cases stopLine
    cases stopColumn
    exact ⟨rfl, names⟩
  · rintro ⟨rfl, rfl⟩
    rfl

theorem not_mem_figures {c : Char} (noNumeral : isNumeral c = false)
    (noWord : c ∉ ", column ".toList ++ " to line ".toList ++ " of module ".toList) :
    c ∉ s.figures := by
  have noNumber (n : Int) : c ∉ intDigits n := fun mem => by
    simp [Text.isNumeral_of_mem mem] at noNumeral
  simp only [List.mem_append, not_or] at noWord
  obtain ⟨⟨comma, beforeLine⟩, beforeName⟩ := noWord
  simp only [figures, List.mem_append, not_or]
  exact ⟨noNumber _, comma, noNumber _, beforeLine, noNumber _, comma, noNumber _, beforeName⟩

end Span

namespace Location

variable {a b : Location}

theorem toList_text (l : Location) :
    l.text.toList = "from line ".toList ++ (l.span.figures ++ l.moduleName.toList) := by
  unfold text Span.figures
  simp only [String.toList_append, Text.toList_decimal, List.append_assoc]

theorem text_inj : a.text = b.text ↔ a = b := by
  constructor
  · intro same
    have whole := congrArg String.toList same
    rw [toList_text, toList_text, List.append_cancel_left_eq, Span.figures_append_inj,
      String.toList_inj] at whole
    obtain ⟨span, name⟩ := whole
    cases a
    cases b
    cases span
    cases name
    rfl
  · rintro rfl
    rfl

/-- Locations are told apart by their texts, and so are the places of two problems, whatever else
the problems are. -/
theorem text_unambiguous (a b : Location) :
    (a.text = b.text ↔ a = b) ∧
      ∀ p q : Problem, p.locationText = q.locationText ↔ p.location = q.location :=
  ⟨text_inj, fun _ _ => text_inj⟩

end Location
end Diagnostics
