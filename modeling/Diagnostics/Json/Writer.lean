import Diagnostics.Json.Numeral
import Diagnostics.Json.Quoted

/-!
# Writing JSON

The compact form of a document, without spaces.
-/
namespace Diagnostics.Json.Document

mutual

def write : Document → List Char
  | .null => ['n', 'u', 'l', 'l']
  | .bool true => ['t', 'r', 'u', 'e']
  | .bool false => ['f', 'a', 'l', 's', 'e']
  | .number value => Numeral.write value
  | .text value => Quoted.write value
  | .array items => '[' :: writeItems items ++ [']']
  | .object members => '{' :: writeMembers members ++ ['}']

def writeItems : List Document → List Char
  | [] => []
  | [item] => item.write
  | item :: rest => item.write ++ ',' :: writeItems rest

def writeMembers : List (Option String × Document) → List Char
  | [] => []
  | [(name, item)] => Quoted.write name ++ ':' :: item.write
  | (name, item) :: rest => Quoted.write name ++ ':' :: item.write ++ ',' :: writeMembers rest

end

def toText (d : Document) : String := String.ofList d.write

end Diagnostics.Json.Document
