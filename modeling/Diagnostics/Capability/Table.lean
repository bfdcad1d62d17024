import Diagnostics.Capability.Provider

/-!
# The table of providers

Providers are filed under their value type and, below that, under the id of their capability. A
type or an id that has lost its last provider has no entry, so the number of types counts only
types with a provider.
-/
namespace Diagnostics.Capability

/-- Entries with a key each, in the order in which the keys first appeared. -/
abbrev Keyed (κ α : Type) := List (κ × α)

namespace Keyed

variable {κ α : Type} [DecidableEq κ]

def get? (entries : Keyed κ α) (key : κ) : Option α := entries.lookup key

/-- Replaces the entry of the key, or adds one at the end. -/
def put (key : κ) (value : α) : Keyed κ α → Keyed κ α
  | [] => [(key, value)]
  | entry :: rest => if entry.1 = key then (key, value) :: rest else entry :: put key value rest

def erase (entries : Keyed κ α) (key : κ) : Keyed κ α := entries.filter (·.1 ≠ key)

@[simp] theorem get?_nil (key : κ) : get? ([] : Keyed κ α) key = none := rfl

theorem get?_cons (entry : κ × α) (entries : Keyed κ α) (key : κ) :
    get? (entry :: entries) key = if entry.1 = key then some entry.2 else get? entries key := by
  obtain ⟨k, a⟩ := entry
  by_cases h : k = key
  · simp [get?, h]
  · have : (key == k) = false := beq_false_of_ne fun e => h e.symm
    simp [get?, List.lookup_cons, h, this]

theorem get?_put (entries : Keyed κ α) (key other : κ) (value : α) :
    get? (entries.put key value) other =
      if key = other then some value else get? entries other := by
  induction entries with
  | nil => simp [put, get?_cons]
  | cons entry rest ih =>
      by_cases hk : entry.1 = key <;> by_cases ho : key = other <;>
        simp_all [put, get?_cons]

theorem get?_erase (entries : Keyed κ α) (key other : κ) :
    get? (entries.erase key) other = if key = other then none else get? entries other := by
  induction entries with
  | nil => simp [erase]
  | cons entry rest ih =>
      rw [erase] at ih
      by_cases hk : entry.1 = key <;> by_cases ho : key = other <;>
        simp_all [erase, get?_cons]

end Keyed

abbrev Table := Keyed ValueType (Keyed String (List Registration))

namespace Table

/-- The entries of a value type. -/
def byId (table : Table) (type : ValueType) : Keyed String (List Registration) :=
  (table.get? type).getD []

/-- The providers of a capability, in the order of registration. -/
def held (table : Table) (type : ValueType) (id : String) : List Registration :=
  ((table.byId type).get? id).getD []

/-- Adds a provider behind those of the same capability. -/
def add (table : Table) (type : ValueType) (id : String) (registration : Registration) : Table :=
  table.put type ((table.byId type).put id (table.held type id ++ [registration]))

/-- Removes the providers of a capability and, if they were the last of their value type, the
type's entry. -/
def remove (table : Table) (type : ValueType) (id : String) : Table :=
  let rest := (table.byId type).erase id
  if rest.isEmpty then table.erase type else table.put type rest

/-- Some provider takes values of the type. -/
def hasType (table : Table) (type : ValueType) : Bool := (table.get? type).isSome

/-- All providers, whatever their capability. -/
def registrations (table : Table) : List Registration :=
  table.flatMap fun entry => entry.2.flatMap (·.2)

/-- How many providers there are. -/
def size (table : Table) : Nat := table.registrations.length

theorem get?_absent {table : Table} {type : ValueType} (absent : ¬ table.hasType type) :
    table.get? type = none := by
  simpa [hasType] using absent

theorem held_absent {table : Table} {type : ValueType} (absent : ¬ table.hasType type)
    (id : String) : table.held type id = [] := by
  simp [held, byId, get?_absent absent]

theorem byId_put (table : Table) (type other : ValueType)
    (entries : Keyed String (List Registration)) :
    byId (Keyed.put type entries table) other =
      if type = other then entries else table.byId other := by
  unfold byId
  rw [Keyed.get?_put]
  split <;> rfl

theorem byId_erase (table : Table) (type other : ValueType) :
    byId (Keyed.erase table type) other = if type = other then [] else table.byId other := by
  unfold byId
  rw [Keyed.get?_erase]
  split <;> rfl

/-- Adding changes one capability only, and there it adds at the end. -/
theorem held_add (table : Table) (type other : ValueType) (id name : String)
    (registration : Registration) :
    (table.add type id registration).held other name =
      if type = other ∧ id = name then table.held other name ++ [registration]
      else table.held other name := by
  unfold add held
  rw [byId_put]
  by_cases ht : type = other
  · subst ht
    by_cases hi : id = name
    · simp [Keyed.get?_put, hi]
    · simp [Keyed.get?_put, hi]
  · simp [ht]

/-- Removing empties one capability and leaves all others. -/
theorem held_remove (table : Table) (type other : ValueType) (id name : String) :
    (table.remove type id).held other name =
      if type = other ∧ id = name then [] else table.held other name := by
  have rest : (Keyed.get? ((table.byId type).erase id) name).getD [] =
      if id = name then [] else table.held type name := by
    rw [Keyed.get?_erase]
    split <;> rfl
  unfold remove
  by_cases ht : type = other
  · subst ht
    by_cases hempty : ((table.byId type).erase id).isEmpty
    · rw [if_pos hempty, held, byId_erase]
      rw [List.isEmpty_iff.1 hempty] at rest
      simpa using rest
    · rw [if_neg hempty, held, byId_put]
      simpa using rest
  · by_cases hempty : ((table.byId type).erase id).isEmpty
    · rw [if_pos hempty, held, byId_erase]
      simp [ht, held]
    · rw [if_neg hempty, held, byId_put]
      simp [ht, held]

end Table
end Diagnostics.Capability
