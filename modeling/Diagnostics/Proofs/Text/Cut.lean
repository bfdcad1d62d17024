import Diagnostics.Text.Decimal

/-!
# Places where a text can be cut

A text that is put together from parts without quotation marks gives them back only where it shows
where a part ends. A number ends before the first character that is no numeral. A part that ends
with a mark ends, if the mark does not come again, where the text has the mark for the last time.
-/
namespace Diagnostics.Text

/-- A digit or the minus sign. -/
def isNumeral (c : Char) : Bool := c.isDigit || c == '-'

theorem isNumeral_of_mem {n : Int} {c : Char} (mem : c ∈ intDigits n) : isNumeral c := by
  cases n with
  | ofNat n => simp [isNumeral, isDigit_of_mem_natDigits mem]
  | negSucc n =>
    rcases List.mem_cons.mp mem with rfl | digit
    · rfl
    · simp [isNumeral, isDigit_of_mem_natDigits digit]

/-- The first place of a character cuts a text in one way. -/
theorem append_cons_inj {c : Char} {front front' rest rest' : List Char} (absent : c ∉ front)
    (absent' : c ∉ front') :
    front ++ c :: rest = front' ++ c :: rest' ↔ front = front' ∧ rest = rest' := by
  induction front generalizing front' with
  | nil =>
    cases front' with
    | nil => simp
    | cons d front' =>
      have differs : c ≠ d := fun same => absent' (same ▸ List.mem_cons_self)
      simp [differs]
  | cons d front ih =>
    cases front' with
    | nil =>
      have differs : d ≠ c := fun same => absent (same ▸ List.mem_cons_self)
      simp [differs]
    | cons e front' =>
      have later : c ∉ front := fun mem => absent (List.mem_cons_of_mem _ mem)
      have later' : c ∉ front' := fun mem => absent' (List.mem_cons_of_mem _ mem)
      simp [ih later later', and_assoc]

/-- A number is told from a word behind it that begins with something else. -/
theorem intDigits_append_inj {m n : Int} {word rest rest' : List Char}
    (stop : word.head?.any (!isNumeral ·)) :
    intDigits m ++ (word ++ rest) = intDigits n ++ (word ++ rest') ↔ m = n ∧ rest = rest' := by
  cases word with
  | nil => cases stop
  | cons c word =>
    have absent (k : Int) : c ∉ intDigits k := fun mem => by
      simp [isNumeral_of_mem mem] at stop
    rw [List.cons_append, List.cons_append, append_cons_inj (absent m) (absent n), intDigits_inj,
      List.append_cancel_left_eq]

section Mark

variable {c : Char} {mark : List Char}

/-- A mark lies behind a part of the text in which its first character does not stand. -/
theorem infix_of_infix_append {front rest : List Char} (inside : c :: mark <:+: front ++ rest)
    (absent : c ∉ front) : c :: mark <:+: rest := by
  rcases List.infix_append_iff.mp inside with early | late | ⟨begun, left, whole, ends, begins⟩
  · exact absurd (early.subset List.mem_cons_self) absent
  · exact late
  · cases begun with
    | nil => exact whole ▸ begins.isInfix
    | cons d begun =>
      have same : c = d := (List.cons.inj whole).1
      exact absurd (ends.subset (same ▸ List.mem_cons_self)) absent

/-- A mark lies in front of a last character that does not stand in it. -/
theorem infix_of_infix_concat {text : List Char} {last : Char} (inside : mark <:+: text ++ [last])
    (absent : last ∉ mark) : mark <:+: text := by
  rcases List.infix_concat_iff.mp inside with atEnd | before
  · rcases List.suffix_concat_iff.mp atEnd with empty | ⟨begun, whole, _⟩
    · exact empty ▸ List.nil_infix
    · exact absurd (whole ▸ List.mem_append_right _ List.mem_cons_self) absent
  · exact before

section Last

variable {rest rest' : List Char} (once : c ∉ mark) (last : ¬ c :: mark <:+: rest)
include once last

/-- The last place of a mark is not followed by the mark, not even by one that overlaps it. -/
theorem between_eq_nil {between : List Char}
    (same : c :: mark ++ rest = between ++ (c :: mark ++ rest')) : between = [] := by
  cases between with
  | nil => rfl
  | cons d between =>
    have behind : mark ++ rest = between ++ (c :: mark ++ rest') := (List.cons.inj same).2
    have again : c :: mark <:+: mark ++ rest :=
      ⟨between, rest', by rw [behind, List.append_assoc]⟩
    exact absurd (infix_of_infix_append again once) last

/-- The last place of a mark cuts a text in one way. -/
theorem append_mark_inj {front front' : List Char} (last' : ¬ c :: mark <:+: rest') :
    front ++ (c :: mark ++ rest) = front' ++ (c :: mark ++ rest') ↔
      front = front' ∧ rest = rest' := by
  constructor
  · intro same
    -- One front begins with the other; nothing can lie between their ends.
    rcases List.append_eq_append_iff.mp same with ⟨between, longer, cut⟩ | ⟨between, longer, cut⟩
    · rw [between_eq_nil once last cut] at longer cut
      exact ⟨by simpa using longer.symm, by simpa using cut⟩
    · rw [between_eq_nil once last' cut] at longer cut
      exact ⟨by simpa using longer, by simpa using cut.symm⟩
  · rintro ⟨rfl, rfl⟩
    rfl

end Last

end Mark

end Diagnostics.Text
