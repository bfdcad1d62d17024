import Diagnostics.Json.Numeral

/-!
# Literals of numbers

The grammar of numbers, said without the reader. A number has no closing mark, so what is read as a
number is read alike just where the following character cannot belong to it.
-/
namespace Diagnostics.Json.Numeral

open Text (natDigits isDigit_of_mem_natDigits)

def IsDigits (cs : List Char) : Prop := cs ≠ [] ∧ ∀ c ∈ cs, c.isDigit

/-- A fraction, if there is one. -/
inductive IsFraction : List Char → Bool → Prop where
  | absent : IsFraction [] false
  | given {digits : List Char} (isDigits : IsDigits digits) : IsFraction ('.' :: digits) true

/-- An exponent, if there is one. -/
inductive IsExponent : List Char → Bool → Prop where
  | absent : IsExponent [] false
  | given {mark : Char} {sign digits : List Char} (marks : mark = 'e' ∨ mark = 'E')
      (signs : sign ∈ [[], ['+'], ['-']]) (isDigits : IsDigits digits) :
      IsExponent (mark :: (sign ++ digits)) true

/-- A literal of a number has a minus sign if the number is negative, its digits without a
superfluous zero, and a fraction or an exponent just if it is not integral. -/
inductive IsLiteral : List Char → Number → Prop where
  | intro (negative : Bool) {digits fraction exponent : List Char} {fractional exponential : Bool}
      (isDigits : IsDigits digits) (zero : digits.head? = some '0' → digits = ['0'])
      (isFraction : IsFraction fraction fractional)
      (isExponent : IsExponent exponent exponential) :
      IsLiteral ((if negative then ['-'] else []) ++ (digits ++ (fraction ++ exponent)))
        ⟨negative, Nat.ofDigitChars 10 digits 0, !fractional && !exponential⟩

/-- The character at the front, if there is one, cannot belong to a number. -/
def Ends (rest : List Char) : Prop :=
  ∀ c ∈ rest.head?, c.isDigit = false ∧ c ≠ '.' ∧ c ≠ 'e' ∧ c ≠ 'E'

theorem ends_nil : Ends [] := by
  intro c head
  cases head

theorem ends_cons {c : Char} {rest : List Char}
    (ends : c.isDigit = false ∧ c ≠ '.' ∧ c ≠ 'e' ∧ c ≠ 'E') : Ends (c :: rest) := by
  intro first head
  cases head
  exact ends

theorem digits?_append {front rest : List Char} (isDigits : IsDigits front)
    (stop : ∀ c ∈ rest.head?, c.isDigit = false) :
    digits? (front ++ rest) = some (front, rest) := by
  obtain ⟨inhabited, digits⟩ := isDigits
  have takes : (front ++ rest).takeWhile Char.isDigit = front := by
    rw [List.takeWhile_append_of_pos digits]
    cases rest with
    | nil => simp
    | cons c rest => simp [stop c rfl]
  have drops : (front ++ rest).dropWhile Char.isDigit = rest := by
    rw [List.dropWhile_append_of_pos digits]
    cases rest with
    | nil => rfl
    | cons c rest => simp [stop c rfl]
  unfold digits?
  rw [takes, drops]
  cases front with
  | nil => exact absurd rfl inhabited
  | cons c front => rfl

section Grammar

variable {cs digits fraction exponent rest more : List Char} {given : Bool} {n : Number}

theorem isWhole_iff (inhabited : digits ≠ []) :
    isWhole digits = true ↔ (digits.head? = some '0' → digits = ['0']) := by
  cases digits with
  | nil => exact absurd rfl inhabited
  | cons c tail =>
    simp only [isWhole, List.head?_cons, Bool.or_eq_true, bne_iff_ne, ne_eq, Option.some.injEq,
      beq_iff_eq, List.length_cons, Nat.add_eq_right, List.length_eq_zero_iff, List.cons.injEq]
    grind

theorem isDigits_of_digits? (read : digits? cs = some (digits, rest)) :
    cs = digits ++ rest ∧ IsDigits digits := by
  have each : ∀ c ∈ cs.takeWhile Char.isDigit, c.isDigit :=
    List.all_eq_true.mp List.all_takeWhile
  have whole : cs = cs.takeWhile Char.isDigit ++ cs.dropWhile Char.isDigit :=
    List.takeWhile_append_dropWhile.symm
  cases taken : cs.takeWhile Char.isDigit with
  | nil => simp [digits?, taken] at read
  | cons c front =>
    simp only [digits?, taken, Option.some.injEq, Prod.mk.injEq] at read
    obtain ⟨rfl, rfl⟩ := read
    rw [taken] at each whole
    exact ⟨whole, List.cons_ne_nil c front, each⟩

theorem isFraction_of_fraction? (read : fraction? cs = some (given, rest)) :
    ∃ fraction, cs = fraction ++ rest ∧ IsFraction fraction given := by
  unfold fraction? at read
  split at read
  · next tail =>
    obtain ⟨⟨digits, after⟩, taken, same⟩ := Option.bind_eq_some_iff.mp read
    cases same
    obtain ⟨rfl, isDigits⟩ := isDigits_of_digits? taken
    exact ⟨'.' :: digits, rfl, .given isDigits⟩
  · cases read
    exact ⟨[], rfl, .absent⟩

theorem skipSign_spec (cs : List Char) :
    ∃ sign ∈ [[], ['+'], ['-']], cs = sign ++ skipSign cs := by
  unfold skipSign
  split
  · exact ⟨['+'], by simp, rfl⟩
  · exact ⟨['-'], by simp, rfl⟩
  · exact ⟨[], by simp, rfl⟩

theorem isExponent_of_exponent? (read : exponent? cs = some (given, rest)) :
    ∃ exponent, cs = exponent ++ rest ∧ IsExponent exponent given := by
  have marked {mark : Char} {tail : List Char} (marks : mark = 'e' ∨ mark = 'E')
      (read : (do return (true, (← digits? (skipSign tail)).2)) = some (given, rest)) :
      ∃ exponent, mark :: tail = exponent ++ rest ∧ IsExponent exponent given := by
    obtain ⟨⟨digits, after⟩, taken, same⟩ := Option.bind_eq_some_iff.mp read
    cases same
    obtain ⟨sign, signs, whole⟩ := skipSign_spec tail
    obtain ⟨unsigned, isDigits⟩ := isDigits_of_digits? taken
    refine ⟨mark :: (sign ++ digits), ?_, .given marks signs isDigits⟩
    rw [whole, unsigned, List.cons_append, List.append_assoc]
  unfold exponent? at read
  split at read
  · exact marked (.inl rfl) read
  · exact marked (.inr rfl) read
  · cases read
    exact ⟨[], rfl, .absent⟩

theorem isLiteral_of_readUnsigned {negative : Bool}
    (accepted : readUnsigned negative cs = some (n, rest)) :
    ∃ unsigned, cs = unsigned ++ rest ∧
      IsLiteral ((if negative then ['-'] else []) ++ unsigned) n := by
  obtain ⟨⟨digits, afterDigits⟩, taken, reads⟩ := Option.bind_eq_some_iff.mp accepted
  obtain ⟨rfl, isDigits⟩ := isDigits_of_digits? taken
  dsimp only at reads
  split at reads
  · next whole =>
    obtain ⟨⟨fractional, afterFraction⟩, takenFraction, reads⟩ := Option.bind_eq_some_iff.mp reads
    obtain ⟨⟨exponential, afterExponent⟩, takenExponent, same⟩ :=
      Option.bind_eq_some_iff.mp reads
    cases same
    obtain ⟨fraction, rfl, isFraction⟩ := isFraction_of_fraction? takenFraction
    obtain ⟨exponent, rfl, isExponent⟩ := isExponent_of_exponent? takenExponent
    refine ⟨digits ++ (fraction ++ exponent), by simp, ?_⟩
    exact .intro negative isDigits ((isWhole_iff isDigits.1).mp whole) isFraction isExponent
  · cases reads

/-- What is read as a number is a literal of it. -/
theorem isLiteral_of_read (reads : read cs = some (n, rest)) :
    ∃ literal, cs = literal ++ rest ∧ IsLiteral literal n := by
  unfold read at reads
  split at reads
  · obtain ⟨unsigned, rfl, isLiteral⟩ := isLiteral_of_readUnsigned reads
    exact ⟨'-' :: unsigned, rfl, isLiteral⟩
  · obtain ⟨unsigned, rfl, isLiteral⟩ := isLiteral_of_readUnsigned reads
    exact ⟨unsigned, rfl, isLiteral⟩

/-- What follows the digits of a literal ends them. -/
theorem IsExponent.stop (isExponent : IsExponent exponent given) (ends : Ends more) :
    ∀ c ∈ (exponent ++ more).head?, c.isDigit = false ∧ c ≠ '.' := by
  cases isExponent with
  | absent => exact fun c head => ⟨(ends c head).1, (ends c head).2.1⟩
  | given marks _ _ =>
    rintro c ⟨⟩
    rcases marks with rfl | rfl <;> decide

theorem IsFraction.stop (isFraction : IsFraction fraction given)
    (stop : ∀ c ∈ rest.head?, c.isDigit = false ∧ c ≠ '.') :
    ∀ c ∈ (fraction ++ rest).head?, c.isDigit = false := by
  cases isFraction with
  | absent => exact fun c head => (stop c head).1
  | given _ =>
    rintro c ⟨⟩
    rfl

theorem IsFraction.read (isFraction : IsFraction fraction given)
    (stop : ∀ c ∈ rest.head?, c.isDigit = false ∧ c ≠ '.') :
    fraction? (fraction ++ rest) = some (given, rest) := by
  cases isFraction with
  | absent =>
    rw [List.nil_append]
    unfold fraction?
    split
    · exact absurd rfl (stop '.' rfl).2
    · rfl
  | given isDigits =>
    rw [List.cons_append, fraction?,
      digits?_append isDigits fun c head => (stop c head).1]
    rfl

theorem skipSign_append {sign : List Char} (signs : sign ∈ [[], ['+'], ['-']])
    (isDigits : IsDigits digits) (rest : List Char) :
    skipSign (sign ++ (digits ++ rest)) = digits ++ rest := by
  simp only [List.mem_cons, List.not_mem_nil, or_false] at signs
  rcases signs with rfl | rfl | rfl
  · obtain ⟨inhabited, each⟩ := isDigits
    obtain ⟨c, tail, rfl⟩ := List.exists_cons_of_ne_nil inhabited
    have digit := each c List.mem_cons_self
    rw [List.nil_append, List.cons_append]
    unfold skipSign
    split
    · next same =>
      cases same
      cases digit
    · next same =>
      cases same
      cases digit
    · rfl
  · rfl
  · rfl

theorem IsExponent.read (isExponent : IsExponent exponent given) (ends : Ends more) :
    exponent? (exponent ++ more) = some (given, more) := by
  cases isExponent with
  | absent =>
    rw [List.nil_append]
    unfold exponent?
    split
    · exact absurd rfl (ends 'e' rfl).2.2.1
    · exact absurd rfl (ends 'E' rfl).2.2.2
    · rfl
  | @given mark sign digits marks signs isDigits =>
    have taken : digits? (skipSign (sign ++ (digits ++ more))) = some (digits, more) := by
      rw [skipSign_append signs isDigits]
      exact digits?_append isDigits fun c head => (ends c head).1
    rw [List.cons_append, List.append_assoc]
    rcases marks with rfl | rfl <;> rw [exponent?, taken] <;> rfl

/-- A literal of a number is read as the number, wherever it ends. -/
theorem IsLiteral.read {literal : List Char} (isLiteral : IsLiteral literal n) (ends : Ends more) :
    Numeral.read (literal ++ more) = some (n, more) := by
  cases isLiteral with
  | @intro negative digits fraction exponent fractional exponential isDigits zero isFraction
      isExponent =>
    have stop := isExponent.stop ends
    have unsigned : readUnsigned negative (digits ++ (fraction ++ (exponent ++ more))) =
        some (⟨negative, Nat.ofDigitChars 10 digits 0, !fractional && !exponential⟩, more) := by
      simp only [readUnsigned, digits?_append isDigits (isFraction.stop stop),
        Option.bind_eq_bind, Option.bind_some, (isWhole_iff isDigits.1).mpr zero, if_true,
        isFraction.read stop, isExponent.read ends, Option.pure_def]
    rw [← unsigned]
    simp only [List.append_assoc]
    cases negative with
    | true => rfl
    | false =>
      obtain ⟨c, tail, rfl⟩ := List.exists_cons_of_ne_nil isDigits.1
      have noSign : c ≠ '-' := by
        rintro rfl
        exact absurd (isDigits.2 '-' List.mem_cons_self) (by decide)
      exact read.eq_2 _ fun _ same => noSign (List.cons.inj same).1

theorem IsLiteral.head {literal : List Char} (isLiteral : IsLiteral literal n) :
    ∃ c tail, literal = c :: tail ∧ (c = '-' ∨ c.isDigit) := by
  cases isLiteral with
  | intro negative isDigits _ _ _ =>
    obtain ⟨c, tail, rfl⟩ := List.exists_cons_of_ne_nil isDigits.1
    cases negative with
    | true => exact ⟨'-', _, rfl, .inl rfl⟩
    | false => exact ⟨c, _, rfl, .inr (isDigits.2 c List.mem_cons_self)⟩

end Grammar

section Written

theorem head?_natDigits {n : Nat} (positive : 0 < n) : (natDigits n).head? ≠ some '0' := by
  induction n using Nat.strongRecOn with
  | ind n ih =>
    unfold natDigits at ih ⊢
    by_cases small : n < 10
    · rw [Nat.toDigits_of_lt_base small]
      simp
      omega
    · rw [Nat.toDigits_of_base_le (by decide) (by omega), List.head?_append]
      have front := ih (n / 10) (by omega) (by omega)
      cases head : (Nat.toDigits 10 (n / 10)).head? with
      | none => exact absurd (List.head?_eq_none_iff.mp head) Nat.toDigits_ne_nil
      | some c =>
        rw [head] at front
        exact front

/-- What is written for a number is a literal of it. -/
theorem isLiteral_write (n : Number) : IsLiteral (write n) n := by
  obtain ⟨negative, magnitude, integral⟩ := n
  have isDigits : IsDigits (natDigits magnitude) :=
    ⟨Nat.toDigits_ne_nil, fun _ mem => isDigit_of_mem_natDigits mem⟩
  have zero : (natDigits magnitude).head? = some '0' → natDigits magnitude = ['0'] := by
    intro front
    by_cases positive : 0 < magnitude
    · exact absurd front (head?_natDigits positive)
    · rw [Nat.eq_zero_of_not_pos positive]
      rfl
  have isFraction : IsFraction (if integral then [] else ['.', '0']) (!integral) := by
    cases integral with
    | true => exact .absent
    | false => exact .given ⟨List.cons_ne_nil _ _, List.forall_mem_singleton.mpr rfl⟩
  have value : Nat.ofDigitChars 10 (natDigits magnitude) 0 = magnitude :=
    Nat.ofDigitChars_ten_toDigits
  have isLiteral := IsLiteral.intro negative isDigits zero isFraction .absent
  simpa [write, value] using isLiteral

theorem write_ofInt (n : Int) : write (.ofInt n) = Text.intDigits n := by
  cases n with
  | ofNat n => simp [write, Number.ofInt, Text.intDigits]
  | negSucc n => simp [write, Number.ofInt, Text.intDigits]

/-- Every integer has a literal, its decimal text. -/
theorem isLiteral_intDigits (n : Int) : IsLiteral (Text.intDigits n) (.ofInt n) :=
  write_ofInt n ▸ isLiteral_write (.ofInt n)

end Written

end Diagnostics.Json.Numeral
