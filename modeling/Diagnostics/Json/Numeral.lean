import Diagnostics.Json.Document
import Diagnostics.Text.Decimal

/-!
# Numerals

The written form of JSON numbers: an optional minus sign, digits without a superfluous zero in
front, an optional fraction and an optional exponent.
-/
namespace Diagnostics.Json.Numeral

open Text (natDigits)

/-- The digits at the front of a text and what follows them, if there is a digit. -/
def digits? (cs : List Char) : Option (List Char × List Char) :=
  match cs.takeWhile Char.isDigit with
  | [] => none
  | front => some (front, cs.dropWhile Char.isDigit)

/-- A zero in front stands alone. -/
def isWhole (digits : List Char) : Bool := digits.head? != some '0' || digits.length == 1

/-- What follows a fraction, and whether there is one. -/
def fraction? : List Char → Option (Bool × List Char)
  | '.' :: rest => return (true, (← digits? rest).2)
  | rest => some (false, rest)

def skipSign : List Char → List Char
  | '+' :: rest => rest
  | '-' :: rest => rest
  | rest => rest

/-- What follows an exponent, and whether there is one. -/
def exponent? : List Char → Option (Bool × List Char)
  | 'e' :: rest => return (true, (← digits? (skipSign rest)).2)
  | 'E' :: rest => return (true, (← digits? (skipSign rest)).2)
  | rest => some (false, rest)

def readUnsigned (negative : Bool) (cs : List Char) : Option (Number × List Char) := do
  let (digits, rest) ← digits? cs
  if isWhole digits then
    let (fraction, rest) ← fraction? rest
    let (exponent, rest) ← exponent? rest
    return (⟨negative, Nat.ofDigitChars 10 digits 0, !fraction && !exponent⟩, rest)
  else none

/-- The number at the front of a text and what follows it. -/
def read : List Char → Option (Number × List Char)
  | '-' :: rest => readUnsigned true rest
  | cs => readUnsigned false cs

def write (n : Number) : List Char :=
  (if n.negative then ['-'] else []) ++ natDigits n.magnitude ++
    (if n.integral then [] else ['.', '0'])

end Diagnostics.Json.Numeral
