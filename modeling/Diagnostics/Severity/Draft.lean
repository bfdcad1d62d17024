import Diagnostics.Severity.Expression

/-!
# Masks under construction

The forms in which a producer hands over a set of severities, and runs of steps on a mask. A step
that cannot be built leaves the mask as it was.
-/
namespace Diagnostics.Mask

inductive Draft where
  /-- A byte of flags. -/
  | byte (bits : UInt8)
  /-- A filter expression. -/
  | expression (text : String)
  /-- Severities one by one. -/
  | members (severities : List Severity)
  deriving DecidableEq, Repr

def Draft.build : Draft → Except Fault Mask
  | .byte bits => .ok (ofByte bits)
  | .expression text => Expression.parse text
  | .members severities => .ok (ofList severities)

/-- What a step joins to the mask. -/
inductive Operand where
  | severity (s : Severity)
  | byte (bits : UInt8)
  | mask (draft : Draft)
  deriving DecidableEq, Repr

def Operand.build : Operand → Except Fault Mask
  | .severity s => .ok {s}
  | .byte bits => .ok (ofByte bits)
  | .mask draft => draft.build

inductive Step where
  /-- Keep the members of either set. -/
  | unite (operand : Operand)
  /-- Keep the members of both sets. -/
  | intersect (operand : Operand)
  /-- Forget the mask and take the operand. -/
  | replace (operand : Operand)
  | insert (s : Severity)
  /-- Forget the mask and unite a severity with the operand. -/
  | uniteSeverity (left : Severity) (operand : Operand)
  deriving DecidableEq, Repr

def Step.apply (m : Mask) : Step → Except Fault Mask
  | .unite operand => return m ∪ (← operand.build)
  | .intersect operand => return m ∩ (← operand.build)
  | .replace operand => operand.build
  | .insert s => return m.insert s
  | .uniteSeverity left operand => return {left} ∪ (← operand.build)

/-- The mask after a step: unchanged if the step failed. -/
def Step.next (m : Mask) (step : Step) : Mask :=
  match step.apply m with
  | .ok after => after
  | .error _ => m

/-- The mask, or the fault, after each step of a run. -/
def run (m : Mask) : List Step → List (Except Fault Mask)
  | [] => []
  | step :: rest => step.apply m :: run (step.next m) rest

/-- The mask at the end of a run. -/
def finish (m : Mask) (steps : List Step) : Mask := steps.foldl Step.next m

end Diagnostics.Mask
