import Diagnostics.Severity.Mask
import Diagnostics.Text.Blank

/-!
# Filter expressions

The written form of a mask: words joined by `|`, such as `error | warning`, `all` or `none`.
Blanks around a word and empty parts mean nothing, and the case of ASCII letters is free. Printing
gives one of the eight shortest expressions, which reads back as the same mask.
-/
namespace Diagnostics.Expression

open Text (trim)

/-- What stands between the bars, without the blanks around it and without empty parts. -/
def parts (text : String) : List (List Char) :=
  ((text.toList.splitOn '|').map trim).filter (!·.isEmpty)

/-- The set that one lower-case word stands for. -/
def wordMask? (word : String) : Option Mask :=
  match word with
  | "all" => some .full
  | "none" => some ∅
  | "abort" => some {Severity.abort}
  | "error" => some {Severity.error}
  | "warning" => some {Severity.warning}
  | _ => none

/-- A part in any case of its ASCII letters. What is no word is reported as it was written. -/
def partMask (part : List Char) : Except Fault Mask :=
  match wordMask? (String.ofList (part.map Char.toLower)) with
  | some mask => .ok mask
  | none => .error (.unknownSeverity (String.ofList part))

/-- The union of all parts, or the fault of the first part that is no word. -/
def parse (text : String) : Except Fault Mask := do
  let masks ← (parts text).mapM partMask
  return masks.foldl (· ∪ ·) ∅

/-- The expression for a mask: `all`, `none`, or the names of its members. -/
def print (mask : Mask) : String :=
  if mask = .full then "all"
  else if mask.isEmpty then "none"
  else "|".intercalate (mask.toList.map Severity.name)

end Diagnostics.Expression
