/-!
# Quoted texts

The text between two quotation marks. Reading has two steps: the grammar cuts the text into
pieces, each a character or a 16-bit unit given by four hexadecimal digits; then units that form
a surrogate pair are joined. Writing escapes no more than the grammar demands.
-/
namespace Diagnostics.Json.Quoted

inductive Piece where
  | char (c : Char)
  /-- The unit of an escape with four hexadecimal digits. -/
  | unit (code : Nat)
  deriving DecidableEq, Repr

def hexValue? (c : Char) : Option Nat :=
  if '0' ≤ c ∧ c ≤ '9' then some (c.toNat - '0'.toNat)
  else if 'a' ≤ c ∧ c ≤ 'f' then some (c.toNat - 'a'.toNat + 10)
  else if 'A' ≤ c ∧ c ≤ 'F' then some (c.toNat - 'A'.toNat + 10)
  else none

def unit? (a b c d : Char) : Option Nat :=
  return (((← hexValue? a) * 16 + (← hexValue? b)) * 16 + (← hexValue? c)) * 16 + (← hexValue? d)

/-- The character that stands behind a backslash, for the one-letter escapes. -/
def escaped? : Char → Option Char
  | '"' => some '"'
  | '\\' => some '\\'
  | '/' => some '/'
  | 'b' => some '\x08'
  | 'f' => some '\x0c'
  | 'n' => some '\n'
  | 'r' => some '\r'
  | 't' => some '\t'
  | _ => none

/-- A character that may not stand unescaped. -/
def isControl (c : Char) : Bool := c.toNat < 0x20

/-- The pieces up to the closing quotation mark, and what follows it. -/
def scan : List Char → Option (List Piece × List Char)
  | [] => none
  | '"' :: rest => some ([], rest)
  | '\\' :: 'u' :: a :: b :: c :: d :: rest => do
      let code ← unit? a b c d
      let (pieces, rest) ← scan rest
      return (.unit code :: pieces, rest)
  | '\\' :: letter :: rest => do
      let c ← escaped? letter
      let (pieces, rest) ← scan rest
      return (.char c :: pieces, rest)
  | c :: rest =>
      if isControl c then none
      else do
        let (pieces, rest) ← scan rest
        return (.char c :: pieces, rest)

def isHighSurrogate (code : Nat) : Bool := 0xD800 ≤ code && code < 0xDC00

def isLowSurrogate (code : Nat) : Bool := 0xDC00 ≤ code && code < 0xE000

/-- The character beyond the first 2^16 that a surrogate pair stands for. -/
def joinSurrogates (high low : Nat) : Char :=
  Char.ofNat (0x10000 + (high - 0xD800) * 0x400 + (low - 0xDC00))

/-- The characters that the pieces stand for, or `none` if a surrogate is unpaired. -/
def join : List Piece → Option (List Char)
  | [] => some []
  | .char c :: rest => return c :: (← join rest)
  | .unit code :: rest =>
      if isHighSurrogate code then
        match rest with
        | .unit low :: rest =>
            if isLowSurrogate low then return joinSurrogates code low :: (← join rest) else none
        | _ => none
      else if isLowSurrogate code then none
      else return Char.ofNat code :: (← join rest)

/-- A text without its opening quotation mark, and what follows the closing one. -/
def read (cs : List Char) : Option (Option String × List Char) := do
  let (pieces, rest) ← scan cs
  return ((join pieces).map String.ofList, rest)

/-- How a character is written between quotation marks. -/
def escape (c : Char) : List Char :=
  match c with
  | '"' => ['\\', '"']
  | '\\' => ['\\', '\\']
  | '\x08' => ['\\', 'b']
  | '\x0c' => ['\\', 'f']
  | '\n' => ['\\', 'n']
  | '\r' => ['\\', 'r']
  | '\t' => ['\\', 't']
  | _ =>
      if isControl c then
        ['\\', 'u', '0', '0', Nat.digitChar (c.toNat / 16), Nat.digitChar (c.toNat % 16)]
      else [c]

/-- The text between quotation marks. What is no sequence of characters is written as one
unpaired surrogate. -/
def write : Option String → List Char
  | some text => '"' :: text.toList.flatMap escape ++ ['"']
  | none => "\"\\ud800\"".toList

end Diagnostics.Json.Quoted
