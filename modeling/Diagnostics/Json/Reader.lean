import Diagnostics.Json.Numeral
import Diagnostics.Json.Quoted

/-!
# Reading JSON

The grammar of JSON without extensions: no comments, no comma behind the last item. A reader takes
the characters in front of it and returns what follows. Each call has a bound on the calls below
it; twice the length of the text is always enough, because at most two calls in a row take no
character.
-/
namespace Diagnostics.Json.Reader

/-- The four characters that may stand between tokens. -/
def isSpace (c : Char) : Bool := c == ' ' || c == '\t' || c == '\n' || c == '\r'

def skip (cs : List Char) : List Char := cs.dropWhile isSpace

mutual

/-- One value, after spaces. -/
def value : Nat → List Char → Option (Document × List Char)
  | 0, _ => none
  | bound + 1, cs =>
      match skip cs with
      | 'n' :: 'u' :: 'l' :: 'l' :: rest => some (.null, rest)
      | 't' :: 'r' :: 'u' :: 'e' :: rest => some (.bool true, rest)
      | 'f' :: 'a' :: 'l' :: 's' :: 'e' :: rest => some (.bool false, rest)
      | '"' :: rest => do
          let (text, rest) ← Quoted.read rest
          return (.text text, rest)
      | '[' :: rest =>
          match skip rest with
          | ']' :: rest => some (.array [], rest)
          | rest => do
              let (list, rest) ← items bound rest
              return (.array list, rest)
      | '{' :: rest =>
          match skip rest with
          | '}' :: rest => some (.object [], rest)
          | rest => do
              let (list, rest) ← members bound rest
              return (.object list, rest)
      | rest => do
          let (number, rest) ← Numeral.read rest
          return (.number number, rest)

/-- At least one item, up to the closing bracket. -/
def items : Nat → List Char → Option (List Document × List Char)
  | 0, _ => none
  | bound + 1, cs => do
      let (item, rest) ← value bound cs
      match skip rest with
      | ',' :: rest =>
          let (list, rest) ← items bound rest
          return (item :: list, rest)
      | ']' :: rest => return ([item], rest)
      | _ => none

/-- At least one member, up to the closing brace. -/
def members : Nat → List Char → Option (List (Option String × Document) × List Char)
  | 0, _ => none
  | bound + 1, cs =>
      match skip cs with
      | '"' :: rest => do
          let (name, rest) ← Quoted.read rest
          match skip rest with
          | ':' :: rest =>
              let (item, rest) ← value bound rest
              match skip rest with
              | ',' :: rest =>
                  let (list, rest) ← members bound rest
                  return ((name, item) :: list, rest)
              | '}' :: rest => return ([(name, item)], rest)
              | _ => none
          | _ => none
      | _ => none

end

/-- A text that holds one document and spaces, nothing else. -/
def document? (cs : List Char) : Option Document := do
  let (document, rest) ← value (2 * cs.length + 2) cs
  if (skip rest).isEmpty then return document else none

end Diagnostics.Json.Reader

namespace Diagnostics.Json

/-- The document that a text holds. -/
def Document.read? (text : String) : Option Document := Reader.document? text.toList

end Diagnostics.Json
