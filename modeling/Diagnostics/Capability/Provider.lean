import Diagnostics.Capability.ValueType

/-!
# Providers

A provider produces a view of a value, or declines. While it does so it may deal with the registry
that called it. Its dealings form a script: a tree of requests, each followed by what the provider
does with the reply. Scripts are finite along every path, so only lookups inside lookups can go on
for ever.
-/
namespace Diagnostics.Capability

/-- What a provider that gives views of one type does with the registry. -/
inductive Script : ValueType → Type where
  /-- Finish with a view, or decline. -/
  | answer {gives : ValueType} (view : Option gives.Carrier) : Script gives
  /-- Ask whether a capability has a provider. -/
  | has {gives : ValueType} (type : ValueType) (id : String) (next : Bool → Script gives) :
      Script gives
  /-- Look a capability up. -/
  | resolve {gives : ValueType} (type : ValueType) (value : type.Carrier) (id : String)
      (next : Resolution → Script gives) : Script gives
  /-- Register a provider, given by its name and its run on each value. -/
  | register {gives : ValueType} (type result : ValueType) (id name : String)
      (run : type.Carrier → Script result) (next : Script gives) : Script gives
  /-- Remove all providers of a capability; the reply is their number. -/
  | unregister {gives : ValueType} (type : ValueType) (id : String) (next : Nat → Script gives) :
      Script gives
  /-- Remove all providers. -/
  | clear {gives : ValueType} (next : Script gives) : Script gives
  /-- Change the number that the provider keeps for itself; the reply is the new number. -/
  | keep {gives : ValueType} (change : Nat → Nat) (next : Nat → Script gives) : Script gives

/-- Finish with this view. -/
def Script.give (gives : ValueType) (value : gives.Carrier) : Script gives := .answer (some value)

structure Provider where
  /-- The type of the values for which the provider is asked. -/
  takes : ValueType
  gives : ValueType
  /-- Under this name the provider's calls are recorded. -/
  name : String
  run : takes.Carrier → Script gives

/-- A provider as a registry holds it. Among the providers for one value type the serial number is
never given twice, so it identifies the provider and what it keeps. -/
structure Registration where
  provider : Provider
  serial : Nat

end Diagnostics.Capability
