import Diagnostics.Capability.Table
import Diagnostics.Event

/-!
# The registry

A registry holds the table of providers and what every provider that was ever registered keeps for
itself. Each operation records what it did in a journal; the calls of providers and the log events
are read off the journal.
-/
namespace Diagnostics.Capability

open Text (decimal)

structure Registry where
  table : Table
  /-- For each value type the numbers that its providers keep, by serial number. A provider keeps
  its number after its removal, since a lookup under way may still call it. -/
  memories : ValueType → List Nat

/-- What happened to a registry. -/
inductive Act where
  /-- A provider was called. -/
  | called (registration : Registration)
  /-- A provider changed the number that it keeps, which is now `content`. -/
  | kept (type : ValueType) (serial content : Nat)
  /-- It was asked whether a capability has a provider. -/
  | asked (type : ValueType) (id : String) (found : Bool)
  /-- A provider was filed under an id. -/
  | registered (id : String) (registration : Registration)
  /-- The providers of a capability were removed. If no provider took the type there is no
  number. -/
  | unregistered (type : ValueType) (id : String) (removed : Option Nat)
  | cleared
  /-- A lookup began, with these providers to ask. -/
  | began (type : ValueType) (id : String) (candidates : List Registration)
  | resolved (type : ValueType) (id : String)
  /-- No provider answered, of as many as there were when the lookup began. -/
  | unsupported (type : ValueType) (id : String) (candidates : Nat)

/-- An act of a lookup inside a lookup is recorded one level deeper for each lookup around it. -/
structure Entry where
  depth : Nat
  act : Act

abbrev Journal := List Entry

def Entry.deepen (entry : Entry) : Entry := { entry with depth := entry.depth + 1 }

/-- What the log is told of an act. -/
def Act.event? : Act → Option Event
  | .registered id registration =>
      some ⟨.debug, [("message", "registering capability provider"), ("capability", id),
        ("value_type", registration.provider.takes.name)]⟩
  | .unregistered _ id (some removed) =>
      some ⟨.debug, [("message", "unregistered capability providers"), ("capability", id),
        ("removed", decimal removed)]⟩
  | .resolved type id =>
      some ⟨.trace, [("message", "capability resolved"), ("capability", id),
        ("value_type", type.name)]⟩
  | .unsupported type id candidates =>
      some ⟨.trace, [("message", "capability unsupported"), ("capability", id),
        ("value_type", type.name), ("providers", decimal candidates)]⟩
  | _ => none

namespace Journal

/-- The names of the providers called, in the order of the calls. -/
def calls (journal : Journal) : List String :=
  journal.filterMap fun entry =>
    match entry.act with
    | .called registration => some registration.provider.name
    | _ => none

def events (journal : Journal) : List Event := journal.filterMap (·.act.event?)

end Journal

/-- The result of an operation, the registry after it, and what it recorded. -/
structure Outcome (α : Type) where
  value : α
  after : Registry
  journal : Journal

/-- Puts the records of what happened before in front. -/
def Outcome.behind {α : Type} (earlier : Journal) (outcome : Outcome α) : Outcome α :=
  { outcome with journal := earlier ++ outcome.journal }

namespace Registry

def empty : Registry := ⟨[], fun _ => []⟩

instance : EmptyCollection Registry := ⟨empty⟩
instance : Inhabited Registry := ⟨empty⟩

/-- The providers of a capability, in the order of registration. -/
def held (r : Registry) (type : ValueType) (id : String) : List Registration :=
  r.table.held type id

def has (r : Registry) (type : ValueType) (id : String) : Bool := !(r.held type id).isEmpty

/-- Tells whether a capability has a provider. -/
def query (r : Registry) (type : ValueType) (id : String) : Outcome Bool :=
  ⟨r.has type id, r, [⟨0, .asked type id (r.has type id)⟩]⟩

/-- The registration that a provider gets next. -/
def enrol (r : Registry) (provider : Provider) : Registration :=
  ⟨provider, (r.memories provider.takes).length⟩

/-- Files a provider under the type it takes. At first it keeps the number zero. -/
def register (r : Registry) (id : String) (provider : Provider) : Outcome Unit :=
  let registration := r.enrol provider
  let table := r.table.add provider.takes id registration
  let memories := fun type =>
    if type = provider.takes then r.memories type ++ [0] else r.memories type
  ⟨(), { table, memories }, [⟨0, .registered id registration⟩]⟩

/-- Removes the providers of a capability and tells how many there were. -/
def unregister (r : Registry) (type : ValueType) (id : String) : Outcome Nat :=
  if r.table.hasType type then
    let removed := (r.held type id).length
    ⟨removed, { r with table := r.table.remove type id },
      [⟨0, .unregistered type id (some removed)⟩]⟩
  else ⟨0, r, [⟨0, .unregistered type id none⟩]⟩

/-- Removes all providers. -/
def clear (r : Registry) : Outcome Unit := ⟨(), { r with table := [] }, [⟨0, .cleared⟩]⟩

/-- Changes the number that a provider keeps and tells the new one. -/
def keep (r : Registry) (type : ValueType) (serial : Nat) (change : Nat → Nat) : Outcome Nat :=
  let content := change ((r.memories type).getD serial 0)
  let memories := fun other =>
    if other = type then (r.memories type).set serial content else r.memories other
  ⟨content, { r with memories }, [⟨0, .kept type serial content⟩]⟩

theorem held_register (r : Registry) (id name : String) (provider : Provider) (type : ValueType) :
    (r.register id provider).after.held type name =
      if provider.takes = type ∧ id = name then
        r.held type name ++ [r.enrol provider]
      else r.held type name :=
  Table.held_add ..

theorem held_unregister (r : Registry) (type other : ValueType) (id name : String) :
    (r.unregister type id).after.held other name =
      if type = other ∧ id = name then [] else r.held other name := by
  unfold unregister
  split
  · exact Table.held_remove ..
  · rename_i absent
    split
    · rename_i same
      obtain ⟨rfl, rfl⟩ := same
      exact Table.held_absent absent id
    · rfl

@[simp] theorem held_clear (r : Registry) (type : ValueType) (id : String) :
    r.clear.after.held type id = [] := rfl

@[simp] theorem held_keep (r : Registry) (type other : ValueType) (serial : Nat)
    (change : Nat → Nat) (id : String) :
    (r.keep type serial change).after.held other id = r.held other id := rfl

/-- How many types and how many providers the table holds. -/
def text (r : Registry) : String :=
  "CapabilityRegistry \x7b value_types: " ++ decimal r.table.length ++
  ", providers: " ++ decimal r.table.size ++ " \x7d"

end Registry
end Diagnostics.Capability
