import Mathlib.Data.List.DropRight
import Diagnostics.Json.Reader

/-!
# What the reader reads

Of each reader, what it has read if it reads anything: a value by what it begins with, the items of
an array and the members of an object by what follows the first.
-/
namespace Diagnostics.Json.Reader

variable {bound : Nat} {cs rest : List Char}

section Skip

theorem skip_cons {c : Char} (solid : isSpace c = false) : skip (c :: cs) = c :: cs := by
  simp [skip, solid]

theorem skip_skip (cs : List Char) : skip (skip cs) = skip cs := List.dropWhile_idempotent _ cs

theorem isSpace_of_sign_or_digit {c : Char} (front : c = '-' ∨ c.isDigit) : isSpace c = false := by
  rcases front with rfl | digit
  · rfl
  · simp only [isSpace, Bool.or_eq_false_iff, beq_eq_false_iff_ne, ne_eq]
    refine ⟨⟨⟨?_, ?_⟩, ?_⟩, ?_⟩ <;> rintro rfl <;> cases digit

theorem value_skip (bound : Nat) (cs : List Char) : value bound (skip cs) = value bound cs := by
  cases bound with
  | zero => rfl
  | succ bound => rw [value, value, skip_skip]

theorem items_skip (bound : Nat) (cs : List Char) : items bound (skip cs) = items bound cs := by
  cases bound with
  | zero => rfl
  | succ bound => rw [items, items, value_skip]

theorem members_skip (bound : Nat) (cs : List Char) :
    members bound (skip cs) = members bound cs := by
  cases bound with
  | zero => rfl
  | succ bound => rw [members, members, skip_skip]

end Skip

/-- What a value can begin with, and how it is then read. -/
inductive Begins (bound : Nat) : List Char → Document → List Char → Prop where
  | null {rest : List Char} : Begins bound ('n' :: 'u' :: 'l' :: 'l' :: rest) .null rest
  | yes {rest : List Char} : Begins bound ('t' :: 'r' :: 'u' :: 'e' :: rest) (.bool true) rest
  | no {rest : List Char} :
      Begins bound ('f' :: 'a' :: 'l' :: 's' :: 'e' :: rest) (.bool false) rest
  | text {tail rest : List Char} {text : Option String}
      (reads : Quoted.read tail = some (text, rest)) : Begins bound ('"' :: tail) (.text text) rest
  | emptyArray {tail rest : List Char} (closes : skip tail = ']' :: rest) :
      Begins bound ('[' :: tail) (.array []) rest
  | array {tail rest : List Char} {list : List Document}
      (reads : items bound tail = some (list, rest)) : Begins bound ('[' :: tail) (.array list) rest
  | emptyObject {tail rest : List Char} (closes : skip tail = '}' :: rest) :
      Begins bound ('{' :: tail) (.object []) rest
  | object {tail rest : List Char} {list : List (Option String × Document)}
      (reads : members bound tail = some (list, rest)) :
      Begins bound ('{' :: tail) (.object list) rest
  | number {c : Char} {tail rest : List Char} {n : Number} (front : c = '-' ∨ c.isDigit)
      (reads : Numeral.read (c :: tail) = some (n, rest)) :
      Begins bound (c :: tail) (.number n) rest

/-- A number begins with its sign or with a digit. -/
theorem numeral_head {n : Number} (reads : Numeral.read cs = some (n, rest)) :
    ∃ c tail, cs = c :: tail ∧ (c = '-' ∨ c.isDigit) := by
  unfold Numeral.read at reads
  split at reads
  · exact ⟨'-', _, rfl, .inl rfl⟩
  · obtain ⟨⟨digits, after⟩, taken, -⟩ := Option.bind_eq_some_iff.mp reads
    cases cs with
    | nil => cases taken
    | cons c tail =>
      refine ⟨c, tail, rfl, .inr (Decidable.byContradiction fun noDigit => ?_)⟩
      simp [Numeral.digits?, noDigit] at taken

theorem begins_of_value {d : Document} (reads : value (bound + 1) cs = some (d, rest)) :
    Begins bound (skip cs) d rest := by
  rw [value] at reads
  generalize skip cs = front at reads ⊢
  split at reads
  · cases reads
    exact .null
  · cases reads
    exact .yes
  · cases reads
    exact .no
  · obtain ⟨⟨text, after⟩, quoted, same⟩ := Option.bind_eq_some_iff.mp reads
    cases same
    exact .text quoted
  · split at reads
    · next closes =>
      cases reads
      exact .emptyArray closes
    · obtain ⟨⟨list, after⟩, listed, same⟩ := Option.bind_eq_some_iff.mp reads
      cases same
      rw [items_skip] at listed
      exact .array listed
  · split at reads
    · next closes =>
      cases reads
      exact .emptyObject closes
    · obtain ⟨⟨list, after⟩, listed, same⟩ := Option.bind_eq_some_iff.mp reads
      cases same
      rw [members_skip] at listed
      exact .object listed
  · obtain ⟨⟨n, after⟩, number, same⟩ := Option.bind_eq_some_iff.mp reads
    cases same
    obtain ⟨c, tail, rfl, front⟩ := numeral_head number
    exact .number front number

/-- No item begins with a closing bracket. -/
theorem items_close (bound : Nat) (cs : List Char) : items bound (']' :: cs) = none := by
  match bound with
  | 0 => rfl
  | 1 => rfl
  | _ + 2 => rfl

/-- No member begins with a closing brace. -/
theorem members_close (bound : Nat) (cs : List Char) : members bound ('}' :: cs) = none := by
  cases bound <;> rfl

theorem value_bracket (bound : Nat) (tail : List Char) :
    value (bound + 1) ('[' :: tail) =
      match skip tail with
      | ']' :: rest => some (.array [], rest)
      | rest => do
          let (list, rest) ← items bound rest
          return (.array list, rest) := by
  rw [value, skip_cons rfl]
  rfl

theorem value_brace (bound : Nat) (tail : List Char) :
    value (bound + 1) ('{' :: tail) =
      match skip tail with
      | '}' :: rest => some (.object [], rest)
      | rest => do
          let (list, rest) ← members bound rest
          return (.object list, rest) := by
  rw [value, skip_cons rfl]
  rfl

theorem value_of_begins {d : Document} (begins : Begins bound (skip cs) d rest) :
    value (bound + 1) cs = some (d, rest) := by
  rw [← value_skip]
  generalize skip cs = front at begins ⊢
  cases begins with
  | null | yes | no =>
    rw [value]
    rfl
  | text reads =>
    rw [value, skip_cons rfl]
    simp only [reads]
    rfl
  | emptyArray closes => simp only [value_bracket, closes]
  | array reads =>
    rw [← items_skip] at reads
    rw [value_bracket]
    split
    · next closes =>
      rw [closes, items_close] at reads
      cases reads
    · rw [reads]
      rfl
  | emptyObject closes => simp only [value_brace, closes]
  | object reads =>
    rw [← members_skip] at reads
    rw [value_brace]
    split
    · next closes =>
      rw [closes, members_close] at reads
      cases reads
    · rw [reads]
      rfl
  | number front reads =>
    rw [value, skip_cons (isSpace_of_sign_or_digit front)]
    split
    case h_7 =>
      rw [reads]
      rfl
    all_goals
      next same =>
        cases same
        simp at front

theorem value_eq_some {d : Document} :
    value (bound + 1) cs = some (d, rest) ↔ Begins bound (skip cs) d rest :=
  ⟨begins_of_value, value_of_begins⟩

theorem items_eq_some {list : List Document} :
    items (bound + 1) cs = some (list, rest) ↔
      ∃ item after, value bound cs = some (item, after) ∧
        (skip after = ']' :: rest ∧ list = [item] ∨
          ∃ tail others, skip after = ',' :: tail ∧ items bound tail = some (others, rest) ∧
            list = item :: others) := by
  rw [items]
  constructor
  · intro reads
    obtain ⟨⟨item, after⟩, read, reads⟩ := Option.bind_eq_some_iff.mp reads
    refine ⟨item, after, read, ?_⟩
    dsimp only at reads
    split at reads
    · next tail separates =>
      obtain ⟨⟨others, behind⟩, readOthers, same⟩ := Option.bind_eq_some_iff.mp reads
      cases same
      exact .inr ⟨tail, others, separates, readOthers, rfl⟩
    · next closes =>
      cases reads
      exact .inl ⟨closes, rfl⟩
    · cases reads
  · rintro ⟨item, after, read, ⟨closes, rfl⟩ | ⟨tail, others, separates, readOthers, rfl⟩⟩
    · simp only [read, Option.bind_eq_bind, Option.bind_some, closes]
      rfl
    · simp only [read, Option.bind_eq_bind, Option.bind_some, separates, readOthers]
      rfl

/-- In front stand a name, a colon and a value. -/
def ReadsMember (bound : Nat) (cs : List Char) (member : Option String × Document)
    (after : List Char) : Prop :=
  ∃ tail afterName afterColon, skip cs = '"' :: tail ∧
    Quoted.read tail = some (member.1, afterName) ∧ skip afterName = ':' :: afterColon ∧
    value bound afterColon = some (member.2, after)

theorem members_eq_some {list : List (Option String × Document)} :
    members (bound + 1) cs = some (list, rest) ↔
      ∃ member after, ReadsMember bound cs member after ∧
        (skip after = '}' :: rest ∧ list = [member] ∨
          ∃ tail others, skip after = ',' :: tail ∧ members bound tail = some (others, rest) ∧
            list = member :: others) := by
  rw [members]
  constructor
  · intro reads
    split at reads
    · next tail opens =>
      obtain ⟨⟨name, afterName⟩, named, reads⟩ := Option.bind_eq_some_iff.mp reads
      dsimp only at reads
      split at reads
      · next afterColon colon =>
        obtain ⟨⟨item, after⟩, read, reads⟩ := Option.bind_eq_some_iff.mp reads
        refine ⟨(name, item), after, ⟨tail, afterName, afterColon, opens, named, colon, read⟩, ?_⟩
        dsimp only at reads
        split at reads
        · next tail separates =>
          obtain ⟨⟨others, behind⟩, readOthers, same⟩ := Option.bind_eq_some_iff.mp reads
          cases same
          exact .inr ⟨tail, others, separates, readOthers, rfl⟩
        · next closes =>
          cases reads
          exact .inl ⟨closes, rfl⟩
        · cases reads
      · cases reads
    · cases reads
  · rintro ⟨⟨name, item⟩, after, ⟨tail, afterName, afterColon, opens, named, colon, read⟩,
      ⟨closes, rfl⟩ | ⟨tail, others, separates, readOthers, rfl⟩⟩
    · simp only [opens, named, Option.bind_eq_bind, Option.bind_some, colon, read, closes]
      rfl
    · simp only [opens, named, Option.bind_eq_bind, Option.bind_some, colon, read, separates,
        readOthers]
      rfl

end Diagnostics.Json.Reader
