/-!
# Numbers as text

Decimal text of integers, without leading zeros and with `-` before a negative number, and the
two-digit hexadecimal text of a byte.
-/
namespace Diagnostics.Text

/-- Decimal digits of a natural number. -/
def natDigits (n : Nat) : List Char := Nat.toDigits 10 n

/-- Decimal digits of an integer, after a minus sign if it is negative. -/
def intDigits : Int → List Char
  | .ofNat n => natDigits n
  | .negSucc n => '-' :: natDigits (n + 1)

def decimal (n : Int) : String := String.ofList (intDigits n)

theorem isDigit_of_mem_natDigits {n : Nat} {c : Char} (mem : c ∈ natDigits n) : c.isDigit :=
  Nat.isDigit_of_mem_toDigits (by decide) (by decide) mem

theorem toList_decimal (n : Int) : (decimal n).toList = intDigits n := String.toList_ofList

theorem natDigits_inj {m n : Nat} : natDigits m = natDigits n ↔ m = n := by
  constructor
  · intro same
    calc
      m = Nat.ofDigitChars 10 (natDigits m) 0 := Nat.ofDigitChars_ten_toDigits.symm
      _ = Nat.ofDigitChars 10 (natDigits n) 0 := by rw [same]
      _ = n := Nat.ofDigitChars_ten_toDigits
  · rintro rfl
    rfl

/-- No number without a sign is written with one. -/
theorem natDigits_ne_signed {m : Nat} {digits : List Char} : natDigits m ≠ '-' :: digits := by
  intro same
  have sign : '-' ∈ natDigits m := same ▸ List.mem_cons_self
  exact absurd (isDigit_of_mem_natDigits sign) (by decide)

theorem intDigits_inj {m n : Int} : intDigits m = intDigits n ↔ m = n := by
  constructor
  · intro same
    cases m with
    | ofNat m =>
      cases n with
      | ofNat n => rw [natDigits_inj.mp same]
      | negSucc n => exact absurd same natDigits_ne_signed
    | negSucc m =>
      cases n with
      | ofNat n => exact absurd same.symm natDigits_ne_signed
      | negSucc n =>
        have digits : natDigits (m + 1) = natDigits (n + 1) := (List.cons.inj same).2
        rw [Nat.succ.inj (natDigits_inj.mp digits)]
  · rintro rfl
    rfl

/-- Lower-case digit of base sixteen. -/
def hexDigit (n : Nat) : Char := Nat.digitChar (n % 16)

/-- The two hexadecimal digits of a byte. -/
def hexByte (b : UInt8) : List Char := [hexDigit (b.toNat / 16), hexDigit b.toNat]

end Diagnostics.Text
