import Mathlib.Data.List.DropRight
import Mathlib.Data.List.Forall2
import Diagnostics.Severity.Expression

/-!
# The parts of filter expressions

A text is cut at its bars, the blanks around each piece are dropped, and so are the pieces that had
nothing else. What is left are the parts. Cut and core are described without the functions that
compute them, and so is what it takes for a text to be read: all its parts are words.
-/
namespace Diagnostics

namespace Text

/-- All of a piece but the blanks at its two ends. -/
structure IsCore (piece core : List Char) : Prop where
  within : ∃ before after, piece = before ++ core ++ after ∧ ∀ c ∈ before ++ after, isBlank c
  starts : ∀ inhabited : core ≠ [], ¬ isBlank (core.head inhabited)
  ends : ∀ inhabited : core ≠ [], ¬ isBlank (core.getLast inhabited)

theorem IsCore.isInfix {piece core : List Char} (isCore : IsCore piece core) : core <:+: piece := by
  obtain ⟨before, after, whole, _⟩ := isCore.within
  exact ⟨before, after, whole.symm⟩

theorem trimEnd_append {core after : List Char} (blank : ∀ c ∈ after, isBlank c)
    (ends : ∀ inhabited : core ≠ [], ¬ isBlank (core.getLast inhabited)) :
    trimEnd (core ++ after) = core := by
  have dropped : trimEnd (core ++ after) = core.rdropWhile isBlank := by
    have blankBack : ∀ c ∈ after.reverse, isBlank c := by simpa using blank
    rw [trimEnd, List.reverse_append, List.dropWhile_append_of_pos blankBack, List.rdropWhile]
  rw [dropped, List.rdropWhile_eq_self_iff]
  exact ends

theorem isCore_trim (piece : List Char) : IsCore piece (trim piece) where
  within := by
    have front : piece.takeWhile isBlank ++ trimStart piece = piece :=
      List.takeWhile_append_dropWhile
    have back : trim piece ++ (trimStart piece).rtakeWhile isBlank = trimStart piece :=
      List.rdropWhile_append_rtakeWhile
    refine ⟨piece.takeWhile isBlank, (trimStart piece).rtakeWhile isBlank, ?_, ?_⟩
    · rw [List.append_assoc, back, front]
    · intro c member
      rcases List.mem_append.mp member with first | last
      · exact List.mem_takeWhile_imp first
      · exact List.mem_rtakeWhile_imp last
  starts inhabited := by
    have front : List.IsPrefix (trim piece) (trimStart piece) := List.rdropWhile_prefix _ _
    rw [List.IsPrefix.head front inhabited, Bool.not_eq_true]
    exact List.head_dropWhile_not _ _
  ends inhabited := List.rdropWhile_last_not _ _ inhabited

theorem IsCore.eq_trim {piece core : List Char} (isCore : IsCore piece core) :
    core = trim piece := by
  obtain ⟨⟨before, after, rfl, blank⟩, starts, ends⟩ := isCore
  obtain ⟨blankBefore, blankAfter⟩ := List.forall_mem_append.mp blank
  rw [trim, trimStart, List.append_assoc, List.dropWhile_append_of_pos blankBefore]
  cases core with
  | nil =>
    have nothing : after.dropWhile isBlank = [] := List.dropWhile_eq_nil_iff.mpr blankAfter
    simp [nothing, trimEnd]
  | cons c rest =>
    have stays : (c :: rest ++ after).dropWhile isBlank = c :: rest ++ after :=
      List.dropWhile_cons_of_neg (starts (List.cons_ne_nil c rest))
    rw [stays, trimEnd_append blankAfter ends]

/-- A piece has one core. -/
theorem isCore_iff {piece core : List Char} : IsCore piece core ↔ core = trim piece := by
  constructor
  · exact IsCore.eq_trim
  · rintro rfl
    exact isCore_trim piece

end Text

namespace Expression

open Text (trim isBlank IsCore isCore_iff isCore_trim)

/-- A text is cut at its bars. -/
structure Cut (text : List Char) (pieces : List (List Char)) : Prop where
  joined : ['|'].intercalate pieces = text
  inhabited : pieces ≠ []
  barless : ∀ piece ∈ pieces, '|' ∉ piece

/-- These are the cores, as far as they are not empty, of the pieces between the bars. -/
def Parts (text : List Char) (parts : List (List Char)) : Prop :=
  ∃ pieces cores, Cut text pieces ∧ List.Forall₂ IsCore pieces cores ∧
    parts = cores.filter (!·.isEmpty)

def words : List String := ["all", "none", "abort", "error", "warning"]

/-- In any case of its ASCII letters the part is a word. -/
def IsWord (part : List Char) : Prop := String.ofList (part.map Char.toLower) ∈ words

instance (part : List Char) : Decidable (IsWord part) :=
  inferInstanceAs (Decidable (_ ∈ words))

section Cut

variable {text : List Char} {pieces : List (List Char)}

theorem barless_splitOn (text : List Char) : ∀ piece ∈ text.splitOn '|', '|' ∉ piece := by
  induction text with
  | nil => simp
  | cons c rest ih =>
    obtain ⟨first, others, found⟩ := List.exists_cons_of_ne_nil (List.splitOn_ne_nil '|' rest)
    rw [List.splitOn_cons_eq_if_modifyHead]
    rw [found] at ih ⊢
    obtain ⟨ihFirst, ihOthers⟩ := List.forall_mem_cons.mp ih
    split
    · simp_all
    · next other =>
      have differs : '|' ≠ c := by
        rintro rfl
        simp at other
      rw [List.modifyHead_cons]
      exact List.forall_mem_cons.mpr ⟨by simp [differs, ihFirst], ihOthers⟩

/-- There is one way to cut a text. -/
theorem cut_iff : Cut text pieces ↔ pieces = text.splitOn '|' := by
  constructor
  · rintro ⟨joined, inhabited, barless⟩
    rw [← joined, List.splitOn_intercalate '|' barless inhabited]
  · rintro rfl
    exact ⟨List.intercalate_splitOn '|', List.splitOn_ne_nil '|' text, barless_splitOn text⟩

theorem infix_intercalate {piece : List Char} (member : piece ∈ pieces) :
    piece <:+: ['|'].intercalate pieces := by
  induction pieces with
  | nil => simp at member
  | cons first rest ih =>
    cases rest with
    | nil => simp_all
    | cons second rest =>
      rw [List.intercalate_cons_cons]
      rcases List.mem_cons.mp member with rfl | later
      · exact ⟨[], ['|'] ++ ['|'].intercalate (second :: rest), by simp⟩
      · exact (ih later).trans (List.suffix_append _ _).isInfix

end Cut

section Parts

variable {text : String} {part : List Char}

theorem forall₂_isCore {pieces cores : List (List Char)} :
    List.Forall₂ IsCore pieces cores ↔ cores = pieces.map trim := by
  induction pieces generalizing cores with
  | nil => simp
  | cons piece rest ih => simp [List.forall₂_cons_left_iff, isCore_iff, ih]

/-- A text has one list of parts. -/
theorem parts_iff {list : List (List Char)} : Parts text.toList list ↔ list = parts text := by
  simp only [Parts, cut_iff, forall₂_isCore]
  constructor
  · rintro ⟨_, _, rfl, rfl, rfl⟩
    rfl
  · rintro rfl
    exact ⟨_, _, rfl, rfl, rfl⟩

theorem mem_parts (member : part ∈ parts text) :
    part ≠ [] ∧ ∃ piece ∈ text.toList.splitOn '|', trim piece = part := by
  simpa [parts, and_comm] using member

/-- What a part is like, whatever text it is from. -/
structure IsPart (part : List Char) : Prop where
  inhabited : part ≠ []
  barless : '|' ∉ part
  starts : ¬ isBlank (part.head inhabited)
  ends : ¬ isBlank (part.getLast inhabited)

theorem isPart_of_mem (member : part ∈ parts text) : IsPart part := by
  obtain ⟨inhabited, piece, cut, rfl⟩ := mem_parts member
  have core := isCore_trim piece
  have barless : '|' ∉ trim piece := fun bar =>
    barless_splitOn text.toList piece cut (core.isInfix.subset bar)
  exact ⟨inhabited, barless, core.starts inhabited, core.ends inhabited⟩

theorem infix_of_mem (member : part ∈ parts text) : part <:+: text.toList := by
  obtain ⟨_, piece, cut, rfl⟩ := mem_parts member
  have inText := infix_intercalate cut
  rw [List.intercalate_splitOn] at inText
  exact (isCore_trim piece).isInfix.trans inText

/-- A part that stands alone is the only part. -/
theorem IsPart.parts_eq (isPart : IsPart part) : parts (String.ofList part) = [part] := by
  have core : IsCore part part :=
    ⟨⟨[], [], by simp, by simp⟩, fun _ => isPart.starts, fun _ => isPart.ends⟩
  have same : trim part = part := core.eq_trim.symm
  rw [parts, String.toList_ofList, List.splitOn_eq_singleton isPart.barless]
  simp [same, isPart.inhabited]

end Parts

section Reading

variable {text : String} {part offender : List Char} {list before after : List (List Char)}

theorem wordMask?_of_mem {word : String} (member : word ∈ words) :
    ∃ mask, wordMask? word = some mask := by
  simp only [words, List.mem_cons, List.not_mem_nil, or_false] at member
  rcases member with rfl | rfl | rfl | rfl | rfl <;> simp [wordMask?]

theorem wordMask?_of_not_mem {word : String} (outside : word ∉ words) : wordMask? word = none := by
  unfold wordMask?
  split <;> simp_all [words]

theorem partMask_of_isWord (word : IsWord part) : ∃ mask, partMask part = .ok mask := by
  obtain ⟨mask, reads⟩ := wordMask?_of_mem word
  exact ⟨mask, by simp [partMask, reads]⟩

theorem partMask_of_not_isWord (unknown : ¬ IsWord part) :
    partMask part = .error (.unknownSeverity (String.ofList part)) := by
  simp [partMask, wordMask?_of_not_mem unknown]

theorem mapM_partMask_of_words (allWords : ∀ part ∈ list, IsWord part) :
    ∃ masks, list.mapM partMask = .ok masks := by
  induction list with
  | nil => exact ⟨[], rfl⟩
  | cons part rest ih =>
    obtain ⟨word, wordsRest⟩ := List.forall_mem_cons.mp allWords
    obtain ⟨mask, first⟩ := partMask_of_isWord word
    obtain ⟨masks, others⟩ := ih wordsRest
    exact ⟨mask :: masks, by simp [first, others, bind, Except.bind, pure, Except.pure]⟩

/-- Nothing behind the first part that is no word is looked at. -/
theorem mapM_partMask_of_offender (wordsBefore : ∀ part ∈ before, IsWord part)
    (unknown : ¬ IsWord offender) :
    (before ++ offender :: after).mapM partMask =
      .error (.unknownSeverity (String.ofList offender)) := by
  induction before with
  | nil => simp [partMask_of_not_isWord unknown, bind, Except.bind]
  | cons part rest ih =>
    obtain ⟨word, wordsRest⟩ := List.forall_mem_cons.mp wordsBefore
    obtain ⟨mask, first⟩ := partMask_of_isWord word
    rw [List.cons_append, List.mapM_cons, first, ih wordsRest]
    rfl

theorem exists_offender (mixed : ¬ ∀ part ∈ list, IsWord part) :
    ∃ before offender after, list = before ++ offender :: after ∧
      (∀ part ∈ before, IsWord part) ∧ ¬ IsWord offender := by
  have found : (list.find? fun part => ¬ IsWord part).isSome := by simpa using mixed
  obtain ⟨offender, first⟩ := Option.isSome_iff_exists.mp found
  obtain ⟨unknown, before, after, whole, wordsBefore⟩ := List.find?_eq_some_iff_append.mp first
  exact ⟨before, offender, after, whole, by simpa using wordsBefore, by simpa using unknown⟩

theorem parse_of_words (allWords : ∀ part ∈ parts text, IsWord part) :
    ∃ mask, parse text = .ok mask := by
  obtain ⟨masks, reads⟩ := mapM_partMask_of_words allWords
  exact ⟨_, by rw [parse, reads]; rfl⟩

theorem parse_of_offender (cut : parts text = before ++ offender :: after)
    (wordsBefore : ∀ part ∈ before, IsWord part) (unknown : ¬ IsWord offender) :
    parse text = .error (.unknownSeverity (String.ofList offender)) := by
  rw [parse, cut, mapM_partMask_of_offender wordsBefore unknown]
  rfl

/-- All parts of the text are words. -/
def Readable (text : String) : Prop :=
  ∃ parts, Parts text.toList parts ∧ ∀ part ∈ parts, IsWord part

theorem readable_iff : Readable text ↔ ∀ part ∈ parts text, IsWord part := by
  simp [Readable, parts_iff]

instance (text : String) : Decidable (Readable text) := decidable_of_iff _ readable_iff.symm

/-- A text is read just if all its parts are words. -/
theorem exists_parse_iff : (∃ mask, parse text = .ok mask) ↔ Readable text := by
  rw [readable_iff]
  constructor
  · rintro ⟨mask, reads⟩
    by_contra mixed
    obtain ⟨before, offender, after, cut, wordsBefore, unknown⟩ := exists_offender mixed
    rw [parse_of_offender cut wordsBefore unknown] at reads
    cases reads
  · exact parse_of_words

end Reading
end Expression
end Diagnostics
