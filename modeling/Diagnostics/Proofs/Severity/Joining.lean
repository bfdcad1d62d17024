import Diagnostics.Proofs.Severity.Grammar

/-!
# Joining filter expressions

A bar between two expressions puts the parts of the second behind those of the first. An expression
means what its words mean, in whatever order and case they stand, so joining unites masks, and the
first of two faults is that of the left expression. In a longer list, too, it only counts which
words are said somewhere in it.
-/
namespace Diagnostics

namespace Text

/-- Only the letters from `A` to `Z` have another lower case. -/
theorem toLower_eq_or (c : Char) :
    c.toLower = c ∨ (65 ≤ c.toNat ∧ c.toNat ≤ 90 ∧ c.toLower.toNat = c.toNat + 32) := by
  unfold Char.toLower
  split
  · next upper =>
    have low : 65 ≤ c.toNat := upper.1
    have high : c.toNat ≤ 90 := upper.2
    have shifted : (c.val + ('a'.val - 'A'.val)).toNat = c.toNat + 32 := by
      rw [UInt32.toNat_add]
      change (c.toNat + 32) % 2 ^ 32 = c.toNat + 32
      omega
    exact .inr ⟨low, high, shifted⟩
  · exact .inl rfl

theorem isBlank_toLower (c : Char) : isBlank c.toLower = isBlank c := by
  rcases toLower_eq_or c with same | ⟨low, high, shifted⟩
  · rw [same]
  · have solid {d : Char} (low : 65 ≤ d.toNat) (high : d.toNat ≤ 122) : isBlank d = false := by
      simp [isBlank, blankRanges]
      omega
    rw [solid low (by omega), solid (by omega) (by omega)]

theorem toLower_eq_bar {c : Char} : c.toLower = '|' ↔ c = '|' := by
  rcases toLower_eq_or c with same | ⟨low, high, shifted⟩
  · rw [same]
  · have bar : '|'.toNat = 124 := rfl
    constructor
    · intro lower
      rw [lower] at shifted
      omega
    · rintro rfl
      omega

theorem trim_map_toLower (cs : List Char) :
    trim (cs.map Char.toLower) = (trim cs).map Char.toLower := by
  have blank : isBlank ∘ Char.toLower = isBlank := funext isBlank_toLower
  simp only [trim, trimEnd, trimStart, List.dropWhile_map, blank, ← List.map_reverse]

theorem splitOn_map_toLower (cs : List Char) :
    (cs.map Char.toLower).splitOn '|' = (cs.splitOn '|').map (List.map Char.toLower) := by
  induction cs with
  | nil => simp
  | cons c rest ih =>
    rw [List.map_cons, List.splitOn_cons_eq_if_modifyHead, List.splitOn_cons_eq_if_modifyHead, ih]
    simp only [beq_iff_eq, toLower_eq_bar]
    split
    · rfl
    · cases rest.splitOn '|' <;> rfl

end Text

namespace Expression

open Text (trim isBlank)

section Parts

variable {text other : String}

theorem parts_append_bar (s t : String) : parts (s ++ "|" ++ t) = parts s ++ parts t := by
  have whole : (s ++ "|" ++ t).toList = s.toList ++ '|' :: t.toList := by simp
  have cut : (s.toList ++ '|' :: t.toList).splitOn '|' =
      s.toList.splitOn '|' ++ t.toList.splitOn '|' := by
    rw [List.splitOn_eq_splitOnP, List.splitOn_eq_splitOnP, List.splitOn_eq_splitOnP]
    exact List.splitOnP_append_cons _ _ rfl
  rw [parts, whole, cut, List.map_append, List.filter_append]
  rfl

theorem parts_intercalate (texts : List String) :
    parts ("|".intercalate texts) = texts.flatMap parts := by
  induction texts with
  | nil => rfl
  | cons first rest ih =>
    cases rest with
    | nil => simp
    | cons second rest =>
      rw [String.intercalate_cons_cons, parts_append_bar, ih]
      exact List.flatMap_cons.symm

theorem parts_of_blank (blank : ∀ c ∈ text.toList, isBlank c) : parts text = [] := by
  have barless : '|' ∉ text.toList := fun bar => absurd (blank '|' bar) (by decide)
  have nothing : trim text.toList = [] := by
    rw [trim, Text.trimStart, List.dropWhile_eq_nil_iff.mpr blank]
    rfl
  rw [parts, List.splitOn_eq_singleton barless, List.map_singleton, nothing]
  rfl

/-- The words of an expression in lower case, known or not, in their order. -/
def said (text : String) : List String :=
  (parts text).map fun part => String.ofList (part.map Char.toLower)

/-- The same text but for the case of ASCII letters. -/
def SameButCase (text other : String) : Prop :=
  text.toList.map Char.toLower = other.toList.map Char.toLower

instance (text other : String) : Decidable (SameButCase text other) :=
  inferInstanceAs (Decidable (_ = _))

theorem said_intercalate (texts : List String) :
    said ("|".intercalate texts) = texts.flatMap said := by
  rw [said, parts_intercalate, List.map_flatMap]
  rfl

theorem said_of_blank (blank : ∀ c ∈ text.toList, isBlank c) : said text = [] := by
  rw [said, parts_of_blank blank, List.map_nil]

/-- The lower case can as well be taken of the whole text first. -/
theorem map_parts_toLower (text : String) :
    (parts text).map (List.map Char.toLower) =
      parts (String.ofList (text.toList.map Char.toLower)) := by
  have trims : trim ∘ List.map Char.toLower = List.map Char.toLower ∘ trim :=
    funext Text.trim_map_toLower
  have empties : (!List.isEmpty ·) ∘ List.map Char.toLower = (!List.isEmpty ·) := by
    funext part
    simp
  rw [parts, parts, String.toList_ofList, Text.splitOn_map_toLower, List.map_map, trims,
    ← List.map_map]
  generalize (text.toList.splitOn '|').map trim = pieces
  rw [List.filter_map, empties]

theorem said_congr (same : SameButCase text other) : said text = said other := by
  have lower (text : String) :
      said text = ((parts text).map (List.map Char.toLower)).map String.ofList := by
    rw [said, List.map_map]
    rfl
  rw [lower, lower, map_parts_toLower, map_parts_toLower, same]

end Parts

section Meaning

variable {text other : String} {m : Mask}

theorem parse_eq_ok_iff_said :
    parse text = .ok m ↔ (∀ word ∈ said text, word ∈ words) ∧
      ∀ s : Severity, s ∈ m ↔ ∃ word ∈ said text, word = "all" ∨ word = s.name := by
  simp only [parse_eq_ok, said, IsWord, Mask.Names, List.mem_map, exists_exists_and_eq_and,
    forall_exists_index, and_imp, forall_apply_eq_imp_iff₂]

/-- An expression means what its words mean, in whatever order and however often it says them. -/
theorem parse_congr (alike : ∀ word, word ∈ said text ↔ word ∈ said other) :
    parse text = .ok m ↔ parse other = .ok m := by
  simp only [parse_eq_ok_iff_said, alike]

theorem parse_name (s : Severity) : parse s.name = .ok {s} := by cases s <;> rfl

variable {texts : List String} {masks : List Mask}

/-- The words of expressions that can be read are known and name the members of the masks. -/
theorem said_of_reads
    (reads : List.Forall₂ (fun text m => parse text = .ok m) texts masks) :
    (∀ word ∈ texts.flatMap said, word ∈ words) ∧ ∀ s : Severity,
      (∃ m ∈ masks, s ∈ m) ↔ ∃ word ∈ texts.flatMap said, word = "all" ∨ word = s.name := by
  induction reads with
  | nil => simp
  | cons first _ ih =>
    obtain ⟨known, named⟩ := parse_eq_ok_iff_said.mp first
    refine ⟨?_, fun s => ?_⟩
    · rw [List.flatMap_cons]
      exact List.forall_mem_append.mpr ⟨known, ih.1⟩
    · simp only [List.flatMap_cons, List.mem_append, or_and_right, exists_or, List.mem_cons,
        exists_eq_left, named s, ih.2 s]

theorem parse_intercalate
    (reads : List.Forall₂ (fun text m => parse text = .ok m) texts masks) :
    parse ("|".intercalate texts) = .ok (masks.foldl (· ∪ ·) ∅) := by
  obtain ⟨known, named⟩ := said_of_reads reads
  rw [parse_eq_ok_iff_said, said_intercalate]
  refine ⟨known, fun s => ?_⟩
  rw [Mask.mem_foldl_union, ← named]
  simp

/-- What is printed for a mask is read as the mask. -/
theorem parse_print (m : Mask) : parse (print m) = .ok m := by
  unfold print
  split
  · next full => exact full ▸ rfl
  · split
    · next empty => exact (m.isEmpty_iff.mp empty) ▸ rfl
    · have reads : List.Forall₂ (fun text m => parse text = .ok m)
          (m.toList.map Severity.name) (m.toList.map fun s => {s}) := by
        rw [List.forall₂_map_left_iff, List.forall₂_map_right_iff, List.forall₂_same]
        exact fun s _ => parse_name s
      rw [parse_intercalate reads]
      refine congrArg Except.ok (Mask.ext fun s => ?_)
      simp [Mask.mem_foldl_union, Mask.mem_toList]

end Meaning

section Joining

variable {s t : String} {a b : Mask} {fault : Fault}

theorem parse_append_bar (left : parse s = .ok a) (right : parse t = .ok b) :
    parse (s ++ "|" ++ t) = .ok (a ∪ b) := by
  obtain ⟨wordsLeft, namedLeft⟩ := parse_eq_ok.mp left
  obtain ⟨wordsRight, namedRight⟩ := parse_eq_ok.mp right
  rw [parse_eq_ok, parts_append_bar]
  refine ⟨List.forall_mem_append.mpr ⟨wordsLeft, wordsRight⟩, fun s => ?_⟩
  simp only [Mask.mem_union, namedLeft s, namedRight s, List.mem_append, or_and_right, exists_or]

/-- A fault of the left expression is met first. -/
theorem parse_append_bar_of_left (left : parse s = .error fault) (t : String) :
    parse (s ++ "|" ++ t) = .error fault := by
  obtain ⟨before, offender, after, cut, known, unknown, rfl⟩ := parse_eq_error.mp left
  have cutBoth : parts (s ++ "|" ++ t) = before ++ offender :: (after ++ parts t) := by
    rw [parts_append_bar, cut, List.append_assoc, List.cons_append]
  exact parse_of_offender cutBoth known unknown

theorem parse_append_bar_of_right (left : parse s = .ok a) (right : parse t = .error fault) :
    parse (s ++ "|" ++ t) = .error fault := by
  obtain ⟨known, _⟩ := parse_eq_ok.mp left
  obtain ⟨before, offender, after, cut, knownBefore, unknown, rfl⟩ := parse_eq_error.mp right
  have cutBoth : parts (s ++ "|" ++ t) = (parts s ++ before) ++ offender :: after := by
    rw [parts_append_bar, cut, List.append_assoc]
  exact parse_of_offender cutBoth (List.forall_mem_append.mpr ⟨known, knownBefore⟩) unknown

end Joining

section Rewording

/-- A list that says what the texts say: each of its members is blank or, but for the case of its
letters, one of the texts, and each of the texts is among them. -/
structure Rewording (texts others : List String) : Prop where
  nothing_else : ∀ other ∈ others,
    (∀ c ∈ other.toList, isBlank c) ∨ ∃ text ∈ texts, SameButCase text other
  all : ∀ text ∈ texts, ∃ other ∈ others, SameButCase text other

variable {texts others : List String} {masks : List Mask} {m : Mask}

theorem Rewording.refl (texts : List String) : Rewording texts texts where
  nothing_else text listed := .inr ⟨text, listed, rfl⟩
  all text listed := ⟨text, listed, rfl⟩

theorem Rewording.mem_said (rewording : Rewording texts others) (word : String) :
    word ∈ others.flatMap said ↔ word ∈ texts.flatMap said := by
  simp only [List.mem_flatMap]
  constructor
  · rintro ⟨other, listed, saying⟩
    rcases rewording.nothing_else other listed with blank | ⟨text, given, same⟩
    · rw [said_of_blank blank] at saying
      cases saying
    · exact ⟨text, given, said_congr same ▸ saying⟩
  · rintro ⟨text, given, saying⟩
    obtain ⟨other, listed, same⟩ := rewording.all text given
    exact ⟨other, listed, said_congr same ▸ saying⟩

theorem Rewording.parse_intercalate (rewording : Rewording texts others)
    (reads : parse ("|".intercalate texts) = .ok m) : parse ("|".intercalate others) = .ok m := by
  refine (parse_congr fun word => ?_).mpr reads
  rw [said_intercalate, said_intercalate, rewording.mem_said]

/-- One of the expressions of a mask can give way to an expression for the whole mask. -/
theorem parse_intercalate_replaced {before after : List String} {piece whole : String}
    (reads : parse ("|".intercalate (before ++ piece :: after)) = .ok m)
    (readsWhole : parse whole = .ok m) :
    parse ("|".intercalate (before ++ whole :: after)) = .ok m := by
  obtain ⟨known, named⟩ := parse_eq_ok_iff_said.mp reads
  obtain ⟨knownWhole, namedWhole⟩ := parse_eq_ok_iff_said.mp readsWhole
  have words {word : String} : word ∈ said ("|".intercalate (before ++ whole :: after)) →
      word ∈ said whole ∨ word ∈ said ("|".intercalate (before ++ piece :: after)) := by
    simp only [said_intercalate, List.flatMap_append, List.flatMap_cons, List.mem_append]
    rintro (inBefore | inWhole | inAfter)
    · exact .inr (.inl inBefore)
    · exact .inl inWhole
    · exact .inr (.inr (.inr inAfter))
  have kept {word : String} (inWhole : word ∈ said whole) :
      word ∈ said ("|".intercalate (before ++ whole :: after)) := by
    simp only [said_intercalate, List.flatMap_append, List.flatMap_cons, List.mem_append]
    exact .inr (.inl inWhole)
  refine parse_eq_ok_iff_said.mpr ⟨fun word saying => ?_, fun s => ⟨fun member => ?_, ?_⟩⟩
  · exact (words saying).elim (knownWhole word) (known word)
  · obtain ⟨word, saying, names⟩ := (namedWhole s).mp member
    exact ⟨word, kept saying, names⟩
  · rintro ⟨word, saying, names⟩
    rcases words saying with inWhole | inOthers
    · exact (namedWhole s).mpr ⟨word, inWhole, names⟩
    · exact (named s).mpr ⟨word, inOthers, names⟩

end Rewording

/-- The expression of two expressions with a bar between them is read as the union of their masks;
if one of the two has a fault, so has the whole, and the left one's is reported. A list of
expressions that can all be read, joined with bars, is read as the union of their masks. It makes no
difference in which order, how often and in which case they are written, and whether blanks stand
among them; and any piece can give way to the expression that is printed for the whole. -/
theorem join_laws :
    (∀ s t a b, parse s = .ok a → parse t = .ok b → parse (s ++ "|" ++ t) = .ok (a ∪ b)) ∧
    (∀ s t fault, parse s = .error fault → parse (s ++ "|" ++ t) = .error fault) ∧
    (∀ s t a fault, parse s = .ok a → parse t = .error fault →
      parse (s ++ "|" ++ t) = .error fault) ∧
    ∀ texts masks, List.Forall₂ (fun text m => parse text = .ok m) texts masks →
      Rewording texts texts ∧
      ∀ others, Rewording texts others →
        parse ("|".intercalate others) = .ok (masks.foldl (· ∪ ·) ∅) ∧
        ∀ before piece after, others = before ++ piece :: after →
          parse ("|".intercalate (before ++ print (masks.foldl (· ∪ ·) ∅) :: after)) =
            .ok (masks.foldl (· ∪ ·) ∅) := by
  refine ⟨fun _ _ _ _ => parse_append_bar, fun _ t _ left => parse_append_bar_of_left left t,
    fun _ _ _ _ => parse_append_bar_of_right, ?_⟩
  intro texts masks reads
  refine ⟨.refl texts, fun others rewording => ?_⟩
  have joined := rewording.parse_intercalate (parse_intercalate reads)
  refine ⟨joined, ?_⟩
  rintro before piece after rfl
  exact parse_intercalate_replaced joined (parse_print _)

/-- Two expressions, and a list that says both twice, in other cases and around a blank. -/
theorem join_laws_reworded :
    let texts := ["error", " warning|Error"]
    let others := [" WARNING|error", " \t", "eRRor", "ERROR"]
    let whole : Mask := {.error} ∪ {.warning}
    List.Forall₂ (fun text m => parse text = .ok m) texts [{.error}, whole] ∧
      Rewording texts others ∧ parse ("error" ++ "|" ++ " warning|Error") = .ok whole ∧
      parse ("|".intercalate others) = .ok whole ∧ print whole = "error|warning" ∧
      parse ("|".intercalate [" WARNING|error", " \t", print whole, "ERROR"]) = .ok whole ∧
      parse ("fatal" ++ "|" ++ "panic") = .error (.unknownSeverity "fatal") ∧
      parse ("error" ++ "|" ++ "panic") = .error (.unknownSeverity "panic") := by
  intro texts others whole
  obtain ⟨unites, left, right, lists⟩ := join_laws
  have first : parse "error" = .ok {.error} := by decide +kernel
  have second : parse " warning|Error" = .ok whole := by decide +kernel
  have rewording : Rewording texts others := by
    refine ⟨fun other listed => ?_, by decide +kernel⟩
    simp only [others, List.mem_cons, List.not_mem_nil, or_false] at listed
    rcases listed with rfl | rfl | rfl | rfl
    · exact .inr ⟨" warning|Error", by decide +kernel, by decide +kernel⟩
    · exact .inl (List.all_eq_true.mp (by decide +kernel))
    · exact .inr ⟨"error", by decide +kernel, by decide +kernel⟩
    · exact .inr ⟨"error", by decide +kernel, by decide +kernel⟩
  have reads : List.Forall₂ (fun text m => parse text = .ok m) texts [{.error}, whole] :=
    .cons first (.cons second .nil)
  have union : {.error} ∪ whole = whole := by decide +kernel
  have folded : [{.error}, whole].foldl (· ∪ ·) ∅ = whole := by decide +kernel
  have both := (lists texts [{.error}, whole] reads).2 others rewording
  rw [folded] at both
  refine ⟨reads, rewording, ?_, both.1, by decide +kernel, ?_, ?_, ?_⟩
  · rw [unites "error" " warning|Error" {.error} whole first second, union]
  · exact both.2 [" WARNING|error", " \t"] "eRRor" ["ERROR"] rfl
  · exact left "fatal" "panic" (.unknownSeverity "fatal") (by decide +kernel)
  · exact right "error" "panic" {.error} (.unknownSeverity "panic") first (by decide +kernel)

end Expression
end Diagnostics
