import Diagnostics.Json.Quoted

/-!
# Quoted texts read back

A text is read back as it was written, and any quoted text is read up to its closing quotation mark,
whatever follows it.
-/
namespace Diagnostics.Json

namespace Quoted

theorem hexValue?_digitChar {n : Nat} (small : n < 16) : hexValue? (Nat.digitChar n) = some n := by
  revert n
  decide

/-- The escape of a control character has the four digits of its code point. -/
theorem unit?_control {c : Char} (control : isControl c) :
    unit? '0' '0' (Nat.digitChar (c.toNat / 16)) (Nat.digitChar (c.toNat % 16)) =
      some c.toNat := by
  have small : c.toNat < 32 := by simpa [isControl] using control
  have zero : hexValue? '0' = some 0 := by decide
  have high := hexValue?_digitChar (show c.toNat / 16 < 16 by omega)
  have low := hexValue?_digitChar (show c.toNat % 16 < 16 by omega)
  simp only [unit?, zero, high, low, Option.bind_eq_bind, Option.bind_some, Option.pure_def,
    Option.some.injEq]
  omega

theorem join_char (c : Char) (pieces : List Piece) :
    join (.char c :: pieces) = (join pieces).map (c :: ·) := by
  rw [join]
  cases join pieces <;> rfl

theorem join_control {c : Char} (control : isControl c) (pieces : List Piece) :
    join (.unit c.toNat :: pieces) = (join pieces).map (c :: ·) := by
  have small : c.toNat < 32 := by simpa [isControl] using control
  have notHigh : isHighSurrogate c.toNat = false := by simp [isHighSurrogate]; omega
  have notLow : isLowSurrogate c.toNat = false := by simp [isLowSurrogate]; omega
  rw [join.eq_def]
  simp only [notHigh, notLow, Bool.false_eq_true, ↓reduceIte, Char.ofNat_toNat]
  cases join pieces <;> rfl

theorem scan_plain {c : Char} (quote : c ≠ '"') (backslash : c ≠ '\\')
    (plain : isControl c = false) (cs : List Char) :
    scan (c :: cs) = (scan cs).map fun (pieces, rest) => (.char c :: pieces, rest) := by
  rw [scan.eq_5 c cs quote (fun _ _ _ _ _ same _ => backslash same)
    (fun _ _ same _ => backslash same)]
  simp only [plain]
  cases scan cs <;> rfl

theorem scan_letter {letter c : Char} (notUnit : letter ≠ 'u') (escaped : escaped? letter = some c)
    (cs : List Char) :
    scan ('\\' :: letter :: cs) =
      (scan cs).map fun (pieces, rest) => (.char c :: pieces, rest) := by
  rw [scan.eq_4 letter cs fun _ _ _ _ _ same _ => notUnit same, escaped]
  cases scan cs <;> rfl

theorem scan_control {c : Char} (control : isControl c) (cs : List Char) :
    scan ('\\' :: 'u' :: '0' :: '0' :: Nat.digitChar (c.toNat / 16) ::
        Nat.digitChar (c.toNat % 16) :: cs) =
      (scan cs).map fun (pieces, rest) => (.unit c.toNat :: pieces, rest) := by
  rw [scan, unit?_control control]
  cases scan cs <;> rfl

/-- The written form of one character is one piece, which stands for that character. -/
theorem scan_escape (c : Char) : ∃ piece : Piece,
    (∀ cs, scan (escape c ++ cs) = (scan cs).map fun (pieces, rest) => (piece :: pieces, rest)) ∧
      ∀ pieces, join (piece :: pieces) = (join pieces).map (c :: ·) := by
  unfold escape
  split
  case h_8 quote backslash _ _ _ _ _ =>
    by_cases control : isControl c
    · rw [if_pos control]
      exact ⟨.unit c.toNat, scan_control control, join_control control⟩
    · rw [if_neg control]
      exact ⟨.char c, scan_plain quote backslash (by simpa using control), join_char c⟩
  all_goals exact ⟨.char _, scan_letter (by decide) rfl, join_char _⟩

/-- What is written between the quotation marks is read as the same characters. -/
theorem scan_flatMap_escape (cs rest : List Char) : ∃ pieces,
    scan (cs.flatMap escape ++ '"' :: rest) = some (pieces, rest) ∧ join pieces = some cs := by
  induction cs with
  | nil => exact ⟨[], rfl, rfl⟩
  | cons c cs ih =>
    obtain ⟨pieces, scanned, joined⟩ := ih
    obtain ⟨piece, scan_c, join_c⟩ := scan_escape c
    refine ⟨piece :: pieces, ?_, ?_⟩
    · rw [List.flatMap_cons, List.append_assoc, scan_c, scanned]
      rfl
    · rw [join_c, joined]
      rfl

/-- Also the unpaired surrogate, which stands for a text that is none, is read back. -/
theorem read_write (text : Option String) :
    ∃ body, write text = '"' :: body ∧ ∀ more, read (body ++ more) = some (text, more) := by
  cases text with
  | none =>
    have written : write none = ['"', '\\', 'u', 'd', '8', '0', '0', '"'] := by decide
    exact ⟨_, written, fun _ => rfl⟩
  | some text =>
    refine ⟨text.toList.flatMap escape ++ ['"'], rfl, fun more => ?_⟩
    obtain ⟨pieces, scanned, joined⟩ := scan_flatMap_escape text.toList more
    rw [List.append_assoc, List.singleton_append]
    simp only [read, scanned, Option.bind_eq_bind, Option.bind_some, joined, Option.map_some,
      String.ofList_toList]
    rfl

section Local

variable {cs rest : List Char} {pieces : List Piece} {c : Char}

/-- If the characters in front are scanned as one piece, they are so wherever they stand. -/
theorem scan_append_local (body : List Char) {piece : Piece}
    (front : ∀ more,
      scan (body ++ more) = (scan more).map fun (pieces, rest) => (piece :: pieces, rest))
    (tail : ∀ {pieces : List Piece}, scan cs = some (pieces, rest) →
      ∃ body, cs = body ++ rest ∧ ∀ more, scan (body ++ more) = some (pieces, more))
    (scanned : scan (body ++ cs) = some (pieces, rest)) :
    ∃ whole, body ++ cs = whole ++ rest ∧ ∀ more, scan (whole ++ more) = some (pieces, more) := by
  rw [front] at scanned
  obtain ⟨⟨others, after⟩, scannedTail, same⟩ := Option.map_eq_some_iff.mp scanned
  cases same
  obtain ⟨behind, whole, again⟩ := tail scannedTail
  refine ⟨body ++ behind, by rw [whole, List.append_assoc], fun more => ?_⟩
  rw [List.append_assoc, front, again more]
  rfl

theorem scan_unit {a b c d : Char} {code : Nat} (unit : unit? a b c d = some code)
    (cs : List Char) :
    scan ('\\' :: 'u' :: a :: b :: c :: d :: cs) =
      (scan cs).map fun (pieces, rest) => (.unit code :: pieces, rest) := by
  rw [scan, unit]
  cases scan cs <;> rfl

/-- Scanning ends at the quotation mark, whatever follows it. -/
theorem scan_local (scanned : scan cs = some (pieces, rest)) :
    ∃ body, cs = body ++ rest ∧ ∀ more, scan (body ++ more) = some (pieces, more) := by
  induction cs using scan.induct generalizing pieces with
  | case1 => cases scanned
  | case2 tail =>
    cases scanned
    exact ⟨['"'], rfl, fun _ => rfl⟩
  | case3 a b c d tail ih =>
    cases unit : unit? a b c d with
    | none => simp [scan, unit] at scanned
    | some code =>
      exact scan_append_local ['\\', 'u', a, b, c, d] (scan_unit unit) ih scanned
  | case4 letter tail notUnit ih =>
    cases escaped : escaped? letter with
    | none =>
      rw [scan.eq_4 letter tail notUnit, escaped] at scanned
      cases scanned
    | some c =>
      have noUnit : letter ≠ 'u' := by
        rintro rfl
        cases escaped
      exact scan_append_local ['\\', letter] (scan_letter noUnit escaped) ih scanned
  | case5 c tail notQuote notUnit notLetter control =>
    rw [scan.eq_5 c tail notQuote notUnit notLetter, if_pos control] at scanned
    cases scanned
  | case6 c tail notQuote notUnit notLetter plain ih =>
    by_cases backslash : c = '\\'
    · subst backslash
      cases tail with
      | nil => cases scanned
      | cons letter tail => exact (notLetter letter tail rfl rfl).elim
    · have noControl : isControl c = false := by simpa using plain
      exact scan_append_local [c] (scan_plain notQuote backslash noControl) ih scanned

theorem read_local {text : Option String} (reads : read cs = some (text, rest)) :
    ∃ body, cs = body ++ rest ∧ ∀ more, read (body ++ more) = some (text, more) := by
  obtain ⟨⟨pieces, after⟩, scanned, same⟩ := Option.bind_eq_some_iff.mp reads
  cases same
  obtain ⟨body, whole, again⟩ := scan_local scanned
  refine ⟨body, whole, fun more => ?_⟩
  rw [read, again more]
  rfl

end Local

end Quoted
end Diagnostics.Json
