import Diagnostics.Capability.Registry

/-!
# Tidy tables

Every operation of the registry leaves a table without empty entries: no type without an id, no id
without a provider. In such a table the number of types is the number of types with a provider, and
what an operation does to the number of providers is what it does to a single capability.
-/
namespace Diagnostics.Capability

namespace Keyed

variable {κ α β : Type}

/-- No key has two entries. -/
def Distinct (entries : Keyed κ α) : Prop := (entries.map Prod.fst).Nodup

/-- What the entries weigh together. -/
def total (weight : α → Nat) : Keyed κ α → Nat
  | [] => 0
  | entry :: rest => weight entry.2 + total weight rest

theorem length_flatMap (values : α → List β) (entries : Keyed κ α) :
    (entries.flatMap fun entry => values entry.2).length =
      total (fun value => (values value).length) entries := by
  induction entries with
  | nil => rfl
  | cons entry rest ih => rw [List.flatMap_cons, List.length_append, ih, total]

variable [DecidableEq κ]

theorem mem_of_get? {entries : Keyed κ α} {key : κ} {value : α}
    (found : entries.get? key = some value) : (key, value) ∈ entries := by
  induction entries with
  | nil => simp at found
  | cons entry rest ih =>
    rw [get?_cons] at found
    split at found
    · next same =>
      have stored : entry.2 = value := Option.some.inj found
      rw [← same, ← stored]
      exact List.mem_cons_self
    · exact List.mem_cons_of_mem _ (ih found)

theorem get?_of_mem {entries : Keyed κ α} (distinct : entries.Distinct) {entry : κ × α}
    (member : entry ∈ entries) : entries.get? entry.1 = some entry.2 := by
  induction entries with
  | nil => cases member
  | cons first rest ih =>
    have nodup := List.nodup_cons.mp distinct
    rw [get?_cons]
    rcases List.mem_cons.mp member with rfl | later
    · rw [if_pos rfl]
    · have other : first.1 ≠ entry.1 := fun same =>
        nodup.1 (same ▸ List.mem_map_of_mem later)
      rw [if_neg other]
      exact ih nodup.2 later

theorem mem_put {entries : Keyed κ α} {key : κ} {value : α} {entry : κ × α}
    (member : entry ∈ entries.put key value) : entry = (key, value) ∨ entry ∈ entries := by
  induction entries with
  | nil => exact .inl (List.mem_singleton.mp member)
  | cons first rest ih =>
    rw [put] at member
    split at member
    · rcases List.mem_cons.mp member with new | old
      · exact .inl new
      · exact .inr (List.mem_cons_of_mem _ old)
    · rcases List.mem_cons.mp member with rfl | later
      · exact .inr List.mem_cons_self
      · exact (ih later).imp_right (List.mem_cons_of_mem _)

theorem Distinct.put {entries : Keyed κ α} (distinct : entries.Distinct) (key : κ) (value : α) :
    (entries.put key value).Distinct := by
  induction entries with
  | nil => exact List.nodup_cons.mpr ⟨List.not_mem_nil, .nil⟩
  | cons first rest ih =>
    have nodup := List.nodup_cons.mp distinct
    rw [Keyed.put]
    split
    · next same => exact List.nodup_cons.mpr ⟨same ▸ nodup.1, nodup.2⟩
    · next other =>
      refine List.nodup_cons.mpr ⟨?_, ih nodup.2⟩
      intro again
      obtain ⟨entry, member, same⟩ := List.mem_map.mp again
      rcases mem_put member with rfl | old
      · exact other same.symm
      · exact nodup.1 (same ▸ List.mem_map_of_mem old)

theorem Distinct.erase {entries : Keyed κ α} (distinct : entries.Distinct) (key : κ) :
    (entries.erase key).Distinct :=
  distinct.sublist (List.filter_sublist.map Prod.fst)

theorem erase_absent {entries : Keyed κ α} {key : κ} (absent : entries.get? key = none) :
    entries.erase key = entries := by
  refine List.filter_eq_self.mpr fun entry member => ?_
  have differs := bne_iff_ne.mp (List.lookup_eq_none_iff.mp absent entry member)
  simpa using differs.symm

theorem get?_eq_none {entries : Keyed κ α} {key : κ} (absent : key ∉ entries.map Prod.fst) :
    entries.get? key = none := by
  cases found : entries.get? key with
  | none => rfl
  | some value => exact absurd (List.mem_map_of_mem (mem_of_get? found)) absent

theorem total_put (weight : List β → Nat) (blank : weight [] = 0) (entries : Keyed κ (List β))
    (key : κ) (value : List β) :
    total weight (entries.put key value) + weight ((entries.get? key).getD []) =
      total weight entries + weight value := by
  induction entries with
  | nil => simp [put, total, blank]
  | cons entry rest ih =>
    rw [put, get?_cons]
    split
    · simp only [total, Option.getD_some]
      omega
    · simp only [total]
      omega

theorem total_erase (weight : List β → Nat) (blank : weight [] = 0)
    {entries : Keyed κ (List β)} (distinct : entries.Distinct) (key : κ) :
    total weight (entries.erase key) + weight ((entries.get? key).getD []) =
      total weight entries := by
  induction entries with
  | nil => simp [erase, total, blank]
  | cons entry rest ih =>
    have nodup := List.nodup_cons.mp distinct
    rw [get?_cons]
    by_cases same : entry.1 = key
    · have absent : Keyed.get? rest key = none := get?_eq_none (same ▸ nodup.1)
      have dropped : Keyed.erase (entry :: rest) key = rest := by
        rw [erase, List.filter_cons_of_neg (by simpa using same)]
        exact erase_absent absent
      rw [dropped, if_pos same, total, Option.getD_some]
      omega
    · have stays : Keyed.erase (entry :: rest) key = entry :: Keyed.erase rest key :=
        List.filter_cons_of_pos (decide_eq_true same)
      have later := ih nodup.2
      rw [stays, if_neg same, total, total]
      omega

end Keyed

namespace Table

/-- No id has two entries or an empty one. -/
structure TidyIds (entries : Keyed String (List Registration)) : Prop where
  distinct : entries.Distinct
  provided : ∀ capability ∈ entries, capability.2 ≠ []

/-- No type has two entries or an empty one, and neither has any id below it. -/
structure Tidy (table : Table) : Prop where
  distinct : table.Distinct
  ids : ∀ entry ∈ table, TidyIds entry.2
  inhabited : ∀ entry ∈ table, entry.2 ≠ []

theorem tidy_empty : Tidy [] := ⟨.nil, by simp, by simp⟩

section Tidy

variable {table : Table} (tidy : table.Tidy)
include tidy

theorem Tidy.byId (type : ValueType) : TidyIds (table.byId type) := by
  unfold Table.byId
  cases found : table.get? type with
  | none => exact ⟨.nil, by simp⟩
  | some entries => exact tidy.ids _ (Keyed.mem_of_get? found)

theorem Tidy.put (type : ValueType) {entries : Keyed String (List Registration)}
    (ids : TidyIds entries) (inhabited : entries ≠ []) : Tidy (Keyed.put type entries table) where
  distinct := tidy.distinct.put type entries
  ids entry member := by
    rcases Keyed.mem_put member with rfl | old
    · exact ids
    · exact tidy.ids entry old
  inhabited entry member := by
    rcases Keyed.mem_put member with rfl | old
    · exact inhabited
    · exact tidy.inhabited entry old

theorem Tidy.erase (type : ValueType) : Tidy (Keyed.erase table type) where
  distinct := tidy.distinct.erase type
  ids entry member := tidy.ids entry (List.mem_filter.mp member).1
  inhabited entry member := tidy.inhabited entry (List.mem_filter.mp member).1

theorem Tidy.add (type : ValueType) (id : String) (registration : Registration) :
    (table.add type id registration).Tidy := by
  have ids := tidy.byId type
  refine tidy.put type ⟨ids.distinct.put id _, ?_⟩ ?_
  · intro capability member
    rcases Keyed.mem_put member with rfl | old
    · simp
    · exact ids.provided capability old
  · cases table.byId type with
    | nil => simp [Keyed.put]
    | cons first rest =>
      rw [Keyed.put]
      split <;> simp

theorem Tidy.remove (type : ValueType) (id : String) : (table.remove type id).Tidy := by
  have ids := tidy.byId type
  rw [Table.remove]
  split
  · exact tidy.erase type
  · next inhabited =>
    refine tidy.put type ⟨ids.distinct.erase id, ?_⟩ (by simpa using inhabited)
    intro capability member
    exact ids.provided capability (List.mem_filter.mp member).1

/-- The types that have an entry are those with a provider. -/
theorem Tidy.mem_types (type : ValueType) :
    type ∈ table.map Prod.fst ↔ ∃ id, table.held type id ≠ [] := by
  constructor
  · intro member
    obtain ⟨entry, stored, rfl⟩ := List.mem_map.mp member
    obtain ⟨capability, listed⟩ := List.exists_mem_of_ne_nil _ (tidy.inhabited entry stored)
    have ids := tidy.ids entry stored
    have outer := Keyed.get?_of_mem tidy.distinct stored
    have inner := Keyed.get?_of_mem ids.distinct listed
    refine ⟨capability.1, ?_⟩
    rw [held, Table.byId, outer, Option.getD_some, inner, Option.getD_some]
    exact ids.provided capability listed
  · rintro ⟨id, provider⟩
    cases found : table.get? type with
    | none => simp [held, Table.byId, found] at provider
    | some entries => exact List.mem_map_of_mem (Keyed.mem_of_get? found)

end Tidy

theorem remove_absent {table : Table} {type : ValueType} (absent : ¬ table.hasType type)
    (id : String) : table.remove type id = table := by
  have nothing : table.byId type = [] := by rw [byId, get?_absent absent, Option.getD_none]
  rw [remove, nothing]
  exact Keyed.erase_absent (get?_absent absent)

section Size

variable (table : Table) (type : ValueType) (id : String)

theorem size_eq_total : table.size = Keyed.total (Keyed.total List.length) table := by
  have inner : (fun ids : Keyed String (List Registration) => (ids.flatMap (·.2)).length) =
      Keyed.total List.length := funext (Keyed.length_flatMap id)
  have outer := Keyed.length_flatMap
    (fun ids : Keyed String (List Registration) => ids.flatMap (·.2)) table
  rw [inner] at outer
  exact outer

theorem size_put (entries : Keyed String (List Registration)) :
    size (Keyed.put type entries table) + Keyed.total List.length (table.byId type) =
      table.size + Keyed.total List.length entries := by
  rw [size_eq_total, size_eq_total]
  exact Keyed.total_put (Keyed.total List.length) rfl table type entries

theorem size_add (registration : Registration) :
    (table.add type id registration).size = table.size + 1 := by
  have outer := table.size_put type
    ((table.byId type).put id (table.held type id ++ [registration]))
  have inner : _ + (table.held type id).length = _ :=
    Keyed.total_put List.length rfl (table.byId type) id (table.held type id ++ [registration])
  rw [List.length_append, List.length_singleton] at inner
  rw [add]
  omega

variable {table}

theorem Tidy.size_erase (tidy : table.Tidy) :
    size (Keyed.erase table type) + Keyed.total List.length (table.byId type) = table.size := by
  rw [size_eq_total, size_eq_total]
  exact Keyed.total_erase (Keyed.total List.length) rfl tidy.distinct type

theorem Tidy.size_remove (tidy : table.Tidy) :
    (table.remove type id).size + (table.held type id).length = table.size := by
  have inner : Keyed.total List.length ((table.byId type).erase id) +
      (table.held type id).length = Keyed.total List.length (table.byId type) :=
    Keyed.total_erase List.length rfl (tidy.byId type).distinct id
  rw [Table.remove]
  -- The capability is all that is left of its type, or only a part of it.
  split
  · next none_left =>
    have outer := tidy.size_erase type
    rw [List.isEmpty_iff.mp none_left] at inner
    have nothing : Keyed.total List.length ([] : Keyed String (List Registration)) = 0 := rfl
    omega
  · have outer := table.size_put type ((table.byId type).erase id)
    omega

end Size
end Table

/-- There is nothing to remove where no provider takes the type. -/
theorem Registry.unregister_table (r : Registry) (type : ValueType) (id : String) :
    (r.unregister type id).after.table = r.table.remove type id := by
  unfold unregister
  split
  · rfl
  · next absent => exact (Table.remove_absent absent id).symm

end Diagnostics.Capability
