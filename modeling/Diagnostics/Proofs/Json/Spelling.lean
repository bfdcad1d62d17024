import Mathlib.Data.List.Forall2
import Diagnostics.Proofs.Json.Literal
import Diagnostics.Proofs.Json.Quoted
import Diagnostics.Proofs.Json.Reading

/-!
# Texts inside texts

What is read from the front of a text does not depend on what stands behind it. So the text of an
array or an object is put together from the texts of its items, each of them a text that holds one
document, and any texts that hold documents can be put together in this way.
-/
namespace Diagnostics.Json.Reader

open Numeral (Ends IsLiteral)

def Spaces (cs : List Char) : Prop := ∀ c ∈ cs, isSpace c

/-- Wherever the characters stand, they are read as the document and nothing behind them is. -/
def Spells (cs : List Char) (d : Document) : Prop :=
  ∀ bound more, 2 * cs.length ≤ bound → Ends more → value bound (cs ++ more) = some (d, more)

/-- The characters spell the document, perhaps with spaces behind it. -/
def Holds (cs : List Char) (d : Document) : Prop :=
  ∃ core trail, cs = core ++ trail ∧ Spells core d ∧ Spaces trail

/-- The characters are a quoted text, perhaps with spaces around it. -/
def HoldsName (cs : List Char) (name : Option String) : Prop :=
  ∃ lead body trail, cs = lead ++ '"' :: (body ++ trail) ∧ Spaces lead ∧ Spaces trail ∧
    ∀ more, Quoted.read (body ++ more) = some (name, more)

/-- The characters are a name, a colon and the text of a document. -/
def HoldsMember (cs : List Char) (member : Option String × Document) : Prop :=
  ∃ key item, cs = key ++ ':' :: item ∧ HoldsName key member.1 ∧ Holds item member.2

section Skip

variable {spaces cs rest : List Char} {c : Char}

theorem skip_append (blank : Spaces spaces) (cs : List Char) : skip (spaces ++ cs) = skip cs :=
  List.dropWhile_append_of_pos blank

theorem skip_eq_nil : skip cs = [] ↔ Spaces cs := List.dropWhile_eq_nil_iff

theorem exists_skip (cs : List Char) : ∃ spaces, Spaces spaces ∧ cs = spaces ++ skip cs :=
  ⟨cs.takeWhile isSpace, List.all_eq_true.mp List.all_takeWhile,
    List.takeWhile_append_dropWhile.symm⟩

theorem ends_of_space (space : isSpace c) : Ends (c :: rest) := by
  simp only [isSpace, Bool.or_eq_true, beq_iff_eq] at space
  rcases space with ((rfl | rfl) | rfl) | rfl <;> exact Numeral.ends_cons (by decide)

/-- Spaces end a number, and so does what may stand behind them. -/
theorem ends_append (blank : Spaces spaces) (ends : Ends rest) : Ends (spaces ++ rest) := by
  cases spaces with
  | nil => exact ends
  | cons c spaces => exact ends_of_space (blank c List.mem_cons_self)

end Skip

section Spells

variable {cs spaces : List Char} {d : Document}

theorem spells_of_begins (inhabited : cs ≠ [])
    (begins : ∀ bound more, 2 * cs.length ≤ bound + 1 → Ends more →
      Begins bound (skip (cs ++ more)) d more) : Spells cs d := by
  intro bound more enough ends
  have long := List.length_pos_iff.mpr inhabited
  cases bound with
  | zero => omega
  | succ bound => exact value_eq_some.mpr (begins bound more enough ends)

theorem Spells.append_left (spells : Spells cs d) (blank : Spaces spaces) :
    Spells (spaces ++ cs) d := by
  intro bound more enough ends
  rw [List.length_append] at enough
  rw [List.append_assoc, ← value_skip, skip_append blank, value_skip]
  exact spells bound more (by omega) ends

theorem Spells.holds (spells : Spells cs d) : Holds cs d :=
  ⟨cs, [], (List.append_nil cs).symm, spells, fun _ mem => nomatch mem⟩

theorem spells_number {literal : List Char} {n : Number} (isLiteral : IsLiteral literal n) :
    Spells literal (.number n) := by
  obtain ⟨c, tail, rfl, front⟩ := isLiteral.head
  refine spells_of_begins (List.cons_ne_nil c tail) fun bound more _ ends => ?_
  rw [List.cons_append, skip_cons (isSpace_of_sign_or_digit front)]
  exact .number front (isLiteral.read ends)

end Spells

section Lists

variable {text more : List Char} {texts : List (List Char)} {d : Document}

/-- The text of an item is read up to what ends it. -/
theorem Holds.value_cons (holds : Holds text d) (c : Char)
    (ends : c.isDigit = false ∧ c ≠ '.' ∧ c ≠ 'e' ∧ c ≠ 'E') (solid : isSpace c = false)
    (bound : Nat) (enough : 2 * text.length ≤ bound) (more : List Char) :
    ∃ rest, value bound (text ++ c :: more) = some (d, rest) ∧ skip rest = c :: more := by
  obtain ⟨core, trail, rfl, spells, blank⟩ := holds
  rw [List.length_append] at enough
  refine ⟨trail ++ c :: more, ?_, ?_⟩
  · rw [List.append_assoc]
    exact spells bound _ (by omega) (ends_append blank (Numeral.ends_cons ends))
  · rw [skip_append blank, skip_cons solid]

theorem HoldsMember.reads_cons {member : Option String × Document} (holds : HoldsMember text member)
    (c : Char) (ends : c.isDigit = false ∧ c ≠ '.' ∧ c ≠ 'e' ∧ c ≠ 'E') (solid : isSpace c = false)
    (bound : Nat) (enough : 2 * text.length ≤ bound) (more : List Char) :
    ∃ rest, ReadsMember bound (text ++ c :: more) member rest ∧ skip rest = c :: more := by
  obtain ⟨key, item, rfl, ⟨lead, body, trail, rfl, blank, blankTrail, named⟩, holdsItem⟩ := holds
  simp only [List.length_append, List.length_cons] at enough
  obtain ⟨rest, reads, stops⟩ := holdsItem.value_cons c ends solid bound (by omega) more
  refine ⟨rest, ⟨body ++ (trail ++ ':' :: (item ++ c :: more)), trail ++ ':' :: (item ++ c :: more),
    item ++ c :: more, ?_, named _, ?_, reads⟩, stops⟩
  · simp only [List.append_assoc, List.cons_append]
    rw [skip_append blank, skip_cons rfl]
  · rw [skip_append blankTrail, skip_cons rfl]

theorem items_of_texts {list : List Document} (holds : List.Forall₂ Holds texts list)
    (inhabited : texts ≠ []) : ∀ (bound : Nat) (more : List Char),
    2 * ([','].intercalate texts).length + 1 ≤ bound →
      items bound ([','].intercalate texts ++ ']' :: more) = some (list, more) := by
  induction holds with
  | nil => exact absurd rfl inhabited
  | @cons text d texts list first others ih =>
    rintro (_ | bound) more enough
    · omega
    rw [items_eq_some]
    cases others with
    | nil =>
      rw [List.intercalate_singleton] at enough ⊢
      obtain ⟨rest, reads, closes⟩ := first.value_cons ']' (by decide) rfl bound (by omega) more
      exact ⟨d, rest, reads, .inl ⟨closes, rfl⟩⟩
    | @cons second e texts list _ _ =>
      rw [List.intercalate_cons_cons] at enough ⊢
      simp only [List.append_assoc, List.length_append, List.length_cons, List.cons_append,
        List.nil_append] at enough ⊢
      obtain ⟨rest, reads, separates⟩ := first.value_cons ',' (by decide) rfl bound (by omega)
        ([','].intercalate (second :: texts) ++ ']' :: more)
      have readsOthers := ih (List.cons_ne_nil _ _) bound more (by omega)
      exact ⟨d, rest, reads, .inr ⟨_, _, separates, readsOthers, rfl⟩⟩

theorem members_of_texts {list : List (Option String × Document)}
    (holds : List.Forall₂ HoldsMember texts list) (inhabited : texts ≠ []) :
    ∀ (bound : Nat) (more : List Char), 2 * ([','].intercalate texts).length + 1 ≤ bound →
      members bound ([','].intercalate texts ++ '}' :: more) = some (list, more) := by
  induction holds with
  | nil => exact absurd rfl inhabited
  | @cons text member texts list first others ih =>
    rintro (_ | bound) more enough
    · omega
    rw [members_eq_some]
    cases others with
    | nil =>
      rw [List.intercalate_singleton] at enough ⊢
      obtain ⟨rest, reads, closes⟩ := first.reads_cons '}' (by decide) rfl bound (by omega) more
      exact ⟨member, rest, reads, .inl ⟨closes, rfl⟩⟩
    | @cons second e texts list _ _ =>
      rw [List.intercalate_cons_cons] at enough ⊢
      simp only [List.append_assoc, List.length_append, List.length_cons, List.cons_append,
        List.nil_append] at enough ⊢
      obtain ⟨rest, reads, separates⟩ := first.reads_cons ',' (by decide) rfl bound (by omega)
        ([','].intercalate (second :: texts) ++ '}' :: more)
      have readsOthers := ih (List.cons_ne_nil _ _) bound more (by omega)
      exact ⟨member, rest, reads, .inr ⟨_, _, separates, readsOthers, rfl⟩⟩

theorem spells_array_nil {spaces : List Char} (blank : Spaces spaces) :
    Spells ('[' :: (spaces ++ [']'])) (.array []) := by
  refine spells_of_begins (List.cons_ne_nil _ _) fun bound more _ _ => ?_
  simp only [List.cons_append, List.append_assoc, List.nil_append]
  rw [skip_cons rfl]
  exact .emptyArray (skip_append blank _)

theorem spells_object_nil {spaces : List Char} (blank : Spaces spaces) :
    Spells ('{' :: (spaces ++ ['}'])) (.object []) := by
  refine spells_of_begins (List.cons_ne_nil _ _) fun bound more _ _ => ?_
  simp only [List.cons_append, List.append_assoc, List.nil_append]
  rw [skip_cons rfl]
  exact .emptyObject (skip_append blank _)

theorem spells_array {list : List Document} (holds : List.Forall₂ Holds texts list)
    (inhabited : texts ≠ []) :
    Spells ('[' :: ([','].intercalate texts ++ [']'])) (.array list) := by
  refine spells_of_begins (List.cons_ne_nil _ _) fun bound more enough _ => ?_
  simp only [List.length_append, List.length_cons, List.length_nil] at enough
  simp only [List.cons_append, List.append_assoc, List.nil_append]
  rw [skip_cons rfl]
  exact .array (items_of_texts holds inhabited bound more (by omega))

theorem spells_object {list : List (Option String × Document)}
    (holds : List.Forall₂ HoldsMember texts list) (inhabited : texts ≠ []) :
    Spells ('{' :: ([','].intercalate texts ++ ['}'])) (.object list) := by
  refine spells_of_begins (List.cons_ne_nil _ _) fun bound more enough _ => ?_
  simp only [List.length_append, List.length_cons, List.length_nil] at enough
  simp only [List.cons_append, List.append_assoc, List.nil_append]
  rw [skip_cons rfl]
  exact .object (members_of_texts holds inhabited bound more (by omega))

end Lists

section Pieces

variable {bound : Nat} {cs rest : List Char}

/-- What is read within the bound is a piece of the text, which would be read alike elsewhere. -/
structure IsLocal (bound : Nat) : Prop where
  value {cs rest : List Char} {d : Document} (reads : value bound cs = some (d, rest)) :
    ∃ piece, cs = piece ++ rest ∧ Spells piece d
  items {cs rest : List Char} {list : List Document} (reads : items bound cs = some (list, rest)) :
    ∃ texts, texts ≠ [] ∧ cs = [','].intercalate texts ++ ']' :: rest ∧
      List.Forall₂ Holds texts list
  members {cs rest : List Char} {list : List (Option String × Document)}
    (reads : members bound cs = some (list, rest)) :
    ∃ texts, texts ≠ [] ∧ cs = [','].intercalate texts ++ '}' :: rest ∧
      List.Forall₂ HoldsMember texts list

/-- A piece and the spaces in front of what follows it. -/
theorem IsLocal.holds (isLocal : IsLocal bound) {d : Document} {more : List Char}
    (reads : Reader.value bound cs = some (d, rest)) (stops : skip rest = more) :
    ∃ text, cs = text ++ more ∧ Holds text d := by
  obtain ⟨piece, rfl, spells⟩ := isLocal.value reads
  obtain ⟨trail, blank, whole⟩ := exists_skip rest
  rw [stops] at whole
  exact ⟨piece ++ trail, by rw [whole, List.append_assoc], piece, trail, rfl, spells, blank⟩

theorem IsLocal.holdsMember (isLocal : IsLocal bound) {member : Option String × Document}
    {more : List Char} (reads : ReadsMember bound cs member rest) (stops : skip rest = more) :
    ∃ text, cs = text ++ more ∧ HoldsMember text member := by
  obtain ⟨tail, afterName, afterColon, opens, named, colon, readsItem⟩ := reads
  obtain ⟨item, rfl, holds⟩ := isLocal.holds readsItem stops
  obtain ⟨body, rfl, again⟩ := Quoted.read_local named
  obtain ⟨lead, blank, whole⟩ := exists_skip cs
  obtain ⟨trail, blankTrail, wholeName⟩ := exists_skip afterName
  rw [opens] at whole
  rw [colon] at wholeName
  refine ⟨lead ++ '"' :: (body ++ trail) ++ ':' :: item, ?_, _, item, rfl,
    ⟨lead, body, trail, rfl, blank, blankTrail, again⟩, holds⟩
  rw [whole, wholeName]
  simp

theorem IsLocal.begins (isLocal : IsLocal bound) {d : Document}
    (begins : Begins bound cs d rest) : ∃ piece, cs = piece ++ rest ∧ Spells piece d := by
  cases begins with
  | null =>
    exact ⟨['n', 'u', 'l', 'l'], rfl,
      spells_of_begins (List.cons_ne_nil _ _) fun _ _ _ _ => .null⟩
  | yes =>
    exact ⟨['t', 'r', 'u', 'e'], rfl,
      spells_of_begins (List.cons_ne_nil _ _) fun _ _ _ _ => .yes⟩
  | no =>
    exact ⟨['f', 'a', 'l', 's', 'e'], rfl,
      spells_of_begins (List.cons_ne_nil _ _) fun _ _ _ _ => .no⟩
  | text named =>
    obtain ⟨body, rfl, again⟩ := Quoted.read_local named
    exact ⟨'"' :: body, rfl,
      spells_of_begins (List.cons_ne_nil _ _) fun _ more _ _ => .text (again more)⟩
  | @emptyArray tail _ closes =>
    obtain ⟨spaces, blank, whole⟩ := exists_skip tail
    rw [closes] at whole
    exact ⟨'[' :: (spaces ++ [']']), by simp [whole], spells_array_nil blank⟩
  | array reads =>
    obtain ⟨texts, inhabited, rfl, holds⟩ := isLocal.items reads
    exact ⟨_, by simp, spells_array holds inhabited⟩
  | @emptyObject tail _ closes =>
    obtain ⟨spaces, blank, whole⟩ := exists_skip tail
    rw [closes] at whole
    exact ⟨'{' :: (spaces ++ ['}']), by simp [whole], spells_object_nil blank⟩
  | object reads =>
    obtain ⟨texts, inhabited, rfl, holds⟩ := isLocal.members reads
    exact ⟨_, by simp, spells_object holds inhabited⟩
  | number _ reads =>
    obtain ⟨literal, whole, isLiteral⟩ := Numeral.isLiteral_of_read reads
    exact ⟨literal, whole, spells_number isLiteral⟩

theorem IsLocal.value_succ (isLocal : IsLocal bound) {d : Document}
    (reads : Reader.value (bound + 1) cs = some (d, rest)) :
    ∃ piece, cs = piece ++ rest ∧ Spells piece d := by
  obtain ⟨lead, blank, whole⟩ := exists_skip cs
  obtain ⟨piece, same, spells⟩ := isLocal.begins (value_eq_some.mp reads)
  exact ⟨lead ++ piece, by rw [whole, same, List.append_assoc], spells.append_left blank⟩

theorem IsLocal.items_succ (isLocal : IsLocal bound) {list : List Document}
    (reads : Reader.items (bound + 1) cs = some (list, rest)) :
    ∃ texts, texts ≠ [] ∧ cs = [','].intercalate texts ++ ']' :: rest ∧
      List.Forall₂ Holds texts list := by
  obtain ⟨item, after, readsItem, ⟨closes, rfl⟩ | ⟨tail, others, separates, readsOthers, rfl⟩⟩ :=
    items_eq_some.mp reads
  · obtain ⟨text, rfl, holds⟩ := isLocal.holds readsItem closes
    exact ⟨[text], List.cons_ne_nil _ _, by rw [List.intercalate_singleton], .cons holds .nil⟩
  · obtain ⟨text, rfl, holds⟩ := isLocal.holds readsItem separates
    obtain ⟨texts, inhabited, rfl, holdsOthers⟩ := isLocal.items readsOthers
    refine ⟨text :: texts, List.cons_ne_nil _ _, ?_, .cons holds holdsOthers⟩
    rw [List.intercalate_cons_of_ne_nil inhabited]
    simp

theorem IsLocal.members_succ (isLocal : IsLocal bound) {list : List (Option String × Document)}
    (reads : Reader.members (bound + 1) cs = some (list, rest)) :
    ∃ texts, texts ≠ [] ∧ cs = [','].intercalate texts ++ '}' :: rest ∧
      List.Forall₂ HoldsMember texts list := by
  obtain ⟨member, after, readsMember,
    ⟨closes, rfl⟩ | ⟨tail, others, separates, readsOthers, rfl⟩⟩ := members_eq_some.mp reads
  · obtain ⟨text, rfl, holds⟩ := isLocal.holdsMember readsMember closes
    exact ⟨[text], List.cons_ne_nil _ _, by rw [List.intercalate_singleton], .cons holds .nil⟩
  · obtain ⟨text, rfl, holds⟩ := isLocal.holdsMember readsMember separates
    obtain ⟨texts, inhabited, rfl, holdsOthers⟩ := isLocal.members readsOthers
    refine ⟨text :: texts, List.cons_ne_nil _ _, ?_, .cons holds holdsOthers⟩
    rw [List.intercalate_cons_of_ne_nil inhabited]
    simp

theorem isLocal (bound : Nat) : IsLocal bound := by
  -- The three readers call each other, so they are local together.
  induction bound with
  | zero => exact ⟨nofun, nofun, nofun⟩
  | succ bound ih => exact ⟨ih.value_succ, ih.items_succ, ih.members_succ⟩

end Pieces

section Whole

variable {cs : List Char} {d : Document}

/-- A text holds one document if it is read as one from its front to its end. -/
theorem document?_eq_some : document? cs = some d ↔ Holds cs d := by
  constructor
  · intro reads
    obtain ⟨⟨e, rest⟩, value, reads⟩ := Option.bind_eq_some_iff.mp reads
    dsimp only at reads
    split at reads
    · next blank =>
      cases reads
      obtain ⟨core, rfl, spells⟩ := (isLocal _).value value
      exact ⟨core, rest, rfl, spells, skip_eq_nil.mp (List.isEmpty_iff.mp blank)⟩
    · cases reads
  · rintro ⟨core, trail, rfl, spells, blank⟩
    have ends : Ends trail := by
      rw [← List.append_nil trail]
      exact ends_append blank Numeral.ends_nil
    have reads := spells (2 * (core ++ trail).length + 2) trail (by simp; omega) ends
    simp only [document?, reads, Option.bind_eq_bind, Option.bind_some, skip_eq_nil.mpr blank]
    rfl

/-- A document is read by what its text begins with after spaces, and nothing is left over. -/
theorem Holds.begins (holds : Holds cs d) :
    ∃ lead bound front trail, cs = lead ++ (front ++ trail) ∧ Spaces lead ∧ Spaces trail ∧
      Begins bound front d [] := by
  obtain ⟨core, trail, rfl, spells, blankTrail⟩ := holds
  obtain ⟨lead, blank, whole⟩ := exists_skip core
  have reads := spells (2 * core.length + 1) [] (by omega) Numeral.ends_nil
  rw [List.append_nil, value_eq_some] at reads
  exact ⟨lead, _, skip core, trail, by rw [← List.append_assoc, ← whole], blank, blankTrail, reads⟩

theorem Holds.array {list : List Document} (holds : Holds cs (.array list))
    (inhabited : list ≠ []) :
    ∃ lead texts trail, cs = lead ++ '[' :: ([','].intercalate texts ++ ']' :: trail) ∧
      Spaces lead ∧ Spaces trail ∧ List.Forall₂ Holds texts list := by
  obtain ⟨lead, bound, front, trail, rfl, blank, blankTrail, begins⟩ := holds.begins
  cases begins with
  | emptyArray _ => exact absurd rfl inhabited
  | array reads =>
    obtain ⟨texts, -, rfl, each⟩ := (isLocal bound).items reads
    exact ⟨lead, texts, trail, by simp, blank, blankTrail, each⟩

theorem Holds.object {list : List (Option String × Document)} (holds : Holds cs (.object list))
    (inhabited : list ≠ []) :
    ∃ lead texts trail, cs = lead ++ '{' :: ([','].intercalate texts ++ '}' :: trail) ∧
      Spaces lead ∧ Spaces trail ∧ List.Forall₂ HoldsMember texts list := by
  obtain ⟨lead, bound, front, trail, rfl, blank, blankTrail, begins⟩ := holds.begins
  cases begins with
  | emptyObject _ => exact absurd rfl inhabited
  | object reads =>
    obtain ⟨texts, -, rfl, each⟩ := (isLocal bound).members reads
    exact ⟨lead, texts, trail, by simp, blank, blankTrail, each⟩

theorem Holds.number {n : Number} (holds : Holds cs (.number n)) :
    ∃ lead literal trail, cs = lead ++ (literal ++ trail) ∧ Spaces lead ∧ Spaces trail ∧
      IsLiteral literal n := by
  obtain ⟨lead, bound, front, trail, rfl, blank, blankTrail, begins⟩ := holds.begins
  cases begins with
  | number _ reads =>
    obtain ⟨literal, whole, isLiteral⟩ := Numeral.isLiteral_of_read reads
    rw [whole, List.append_nil]
    exact ⟨lead, literal, trail, rfl, blank, blankTrail, isLiteral⟩

/-- Spaces around a text do not count. -/
theorem Holds.pad {lead trail : List Char} (holds : Holds cs d) (blank : Spaces lead)
    (blankTrail : Spaces trail) : Holds (lead ++ (cs ++ trail)) d := by
  obtain ⟨core, spaces, rfl, spells, blankSpaces⟩ := holds
  refine ⟨lead ++ core, spaces ++ trail, by simp, spells.append_left blank, ?_⟩
  exact List.forall_mem_append.mpr ⟨blankSpaces, blankTrail⟩

end Whole
end Diagnostics.Json.Reader
