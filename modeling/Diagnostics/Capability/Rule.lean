import Diagnostics.Capability.Session
import Diagnostics.Text.Infix

/-!
# Rules

Providers described by data: a name, a condition on the value, and an effect that takes place if
the condition holds. A rule becomes a provider for any value type; all its requests concern that
type.
-/
namespace Diagnostics.Capability

open Text (hasInfix)

/-- When a rule applies to a value. -/
inductive Condition where
  | always
  | never
  /-- The number of the value is less than the limit. -/
  | below (limit : Int)
  /-- The number of the value is the limit or more. -/
  | atLeast (limit : Int)
  /-- The text of the value contains the part. -/
  | contains (part : String)
  deriving DecidableEq, Repr

def Condition.holds (type : ValueType) (value : type.Carrier) : Condition → Bool
  | .always => true
  | .never => false
  | .below limit => (type.number value).toInt < limit
  | .atLeast limit => limit ≤ (type.number value).toInt
  | .contains part => hasInfix part.toList (type.describe value).toList

/-- What a rule does and gives when it applies. -/
inductive Effect where
  /-- Give the number of the value. -/
  | number
  /-- Give the text of the value. -/
  | text
  /-- Give the value. -/
  | self
  | const (text : String)
  | unit
  /-- Give how often the rule has applied, this time included. -/
  | counter
  /-- Give whether a capability has a provider. -/
  | has (id : String)
  /-- Give the integer found by a lookup for the same value. -/
  | resolveNumber (id : String)
  /-- Give the text found by a lookup for the same value. -/
  | resolveText (id : String)
  /-- Remove the providers of a capability and give their number. -/
  | unregister (id : String)
  | clear
  /-- Register another rule under an id, and give `true`. -/
  | register (id name : String) (condition : Condition) (effect : Effect)
  deriving DecidableEq, Repr

namespace Effect

/-- The type of what the effect gives for values of a type. -/
def gives (type : ValueType) : Effect → ValueType
  | .number | .counter | .resolveNumber _ | .unregister _ => .integer
  | .text | .const _ | .resolveText _ => .text
  | .self => type
  | .unit | .clear => .unit
  | .has _ | .register .. => .flag

/-- The dealings of a rule that applies to a value. -/
def script (type : ValueType) (value : type.Carrier) :
    (effect : Effect) → Script (effect.gives type)
  | .number => .give .integer (type.number value)
  | .text => .give .text (type.describe value)
  | .self => .give type value
  | .const words => .give .text words
  | .unit => .give .unit ()
  | .counter => .keep (· + 1) fun applied => .give .integer (Int32.ofNat applied)
  | .has id => .has type id fun found => .give .flag found
  | .resolveNumber id => .resolve type value id fun found => .answer (found.as? .integer)
  | .resolveText id => .resolve type value id fun found => .answer (found.as? .text)
  | .unregister id => .unregister type id fun removed => .give .integer (Int32.ofNat removed)
  | .clear => .clear (.give .unit ())
  | .register id name condition effect =>
      .register type (effect.gives type) id name
        (fun value => if condition.holds type value then effect.script type value else .answer none)
        (.give .flag true)

end Effect

structure Rule where
  name : String
  condition : Condition
  effect : Effect
  deriving DecidableEq, Repr

/-- The provider that follows the rule for values of a type. -/
def Rule.provider (rule : Rule) (type : ValueType) : Provider where
  takes := type
  gives := rule.effect.gives type
  name := rule.name
  run value :=
    if rule.condition.holds type value then rule.effect.script type value else .answer none

namespace Rule

variable {rule : Rule} {type : ValueType} {value : type.Carrier}

theorem run_of_holds (applies : rule.condition.holds type value) :
    (rule.provider type).run value = rule.effect.script type value :=
  if_pos applies

theorem run_of_not_holds (passes : ¬ rule.condition.holds type value) :
    (rule.provider type).run value = .answer none :=
  if_neg passes

end Rule
end Diagnostics.Capability
