import Diagnostics.Proofs.Capability.Confinement
import Diagnostics.Proofs.Capability.Filing
import Diagnostics.Proofs.Capability.Simulation
import Diagnostics.Proofs.Capability.Steps

/-!
# Value types do not interfere

As long as nothing clears the registry, what is done for one value type cannot be told from what is
done for another: the entries of a type and the numbers that its providers keep are all that an act
for this type depends on, and acts for other types leave them alone.
-/
namespace Diagnostics.Capability

/-- For one value type there is no difference between two registries. -/
structure Registry.Alike (type : ValueType) (r s : Registry) : Prop where
  entries : r.table.get? type = s.table.get? type
  memories : r.memories type = s.memories type

/-- The same result and the same journal, and no difference afterwards. -/
structure Outcome.Alike {α : Type} (type : ValueType) (o p : Outcome α) : Prop where
  value : o.value = p.value
  journal : o.journal = p.journal
  after : o.after.Alike type p.after

namespace Table

variable (table : Table) (type other : ValueType) (id : String)

theorem get?_add (registration : Registration) :
    (table.add other id registration).get? type =
      if other = type then
        some ((table.byId other).put id (table.held other id ++ [registration]))
      else table.get? type :=
  Keyed.get?_put ..

theorem get?_remove :
    (table.remove other id).get? type =
      if other = type then
        if ((table.byId other).erase id).isEmpty then none else some ((table.byId other).erase id)
      else table.get? type := by
  unfold remove
  dsimp only
  split
  · exact Keyed.get?_erase ..
  · exact Keyed.get?_put ..

end Table

namespace Registry

variable {type : ValueType} {r s : Registry} {id : String}

namespace Alike

theorem refl (type : ValueType) (r : Registry) : r.Alike type r := ⟨rfl, rfl⟩

theorem trans {t : Registry} (first : r.Alike type s) (second : s.Alike type t) :
    r.Alike type t :=
  ⟨first.entries.trans second.entries, first.memories.trans second.memories⟩

variable (alike : r.Alike type s)
include alike

theorem symm : s.Alike type r := ⟨alike.entries.symm, alike.memories.symm⟩

theorem byId : r.table.byId type = s.table.byId type := by
  rw [Table.byId, Table.byId, alike.entries]

theorem held (id : String) : r.held type id = s.held type id := by
  rw [Registry.held, Registry.held, Table.held, Table.held, alike.byId]

theorem query (id : String) : (r.query type id).Alike type (s.query type id) := by
  have same : r.has type id = s.has type id := by rw [has, has, alike.held]
  exact ⟨same, by rw [Registry.query, Registry.query, same], alike⟩

theorem register (id : String) (provider : Provider) (takes : provider.takes = type) :
    (r.register id provider).Alike type (s.register id provider) := by
  subst takes
  have enrolled : r.enrol provider = s.enrol provider := by rw [enrol, enrol, alike.memories]
  have held : r.table.held provider.takes id = s.table.held provider.takes id := alike.held id
  refine ⟨rfl, by rw [Registry.register, Registry.register, enrolled], ?_, ?_⟩
  · change (r.table.add _ _ _).get? _ = (s.table.add _ _ _).get? _
    rw [Table.get?_add, Table.get?_add, if_pos rfl, if_pos rfl, alike.byId, held, enrolled]
  · change (if _ then _ else _) = (if _ then _ else _)
    rw [if_pos rfl, if_pos rfl, alike.memories]

theorem unregister (id : String) : (r.unregister type id).Alike type (s.unregister type id) := by
  have present : r.table.hasType type = s.table.hasType type := by
    rw [Table.hasType, Table.hasType, alike.entries]
  unfold Registry.unregister
  rw [present]
  split
  · refine ⟨by rw [alike.held], by rw [alike.held], ?_, alike.memories⟩
    change (r.table.remove _ _).get? _ = (s.table.remove _ _).get? _
    rw [Table.get?_remove, Table.get?_remove, alike.byId, if_pos rfl, if_pos rfl]
  · exact ⟨rfl, rfl, alike⟩

theorem keep (serial : Nat) (change : Nat → Nat) :
    (r.keep type serial change).Alike type (s.keep type serial change) := by
  have content : ((r.memories type).getD serial 0) = ((s.memories type).getD serial 0) := by
    rw [alike.memories]
  unfold Registry.keep
  dsimp only
  rw [content]
  refine ⟨rfl, rfl, alike.entries, ?_⟩
  dsimp only
  rw [if_pos rfl, if_pos rfl, alike.memories]

end Alike

end Registry

/-- An act for another value type makes no difference. -/
theorem Happens.alike {r next : Registry} {act : Act} {type other : ValueType}
    (happens : Happens r act next) (concerns : act.type? = some other) (differs : other ≠ type) :
    r.Alike type next := by
  cases happens with
  | kept kind serial change =>
    cases concerns
    exact ⟨rfl, (if_neg differs.symm).symm⟩
  | registered id provider =>
    cases concerns
    have differs : provider.takes ≠ type := differs
    refine ⟨?_, (if_neg differs.symm).symm⟩
    change _ = (r.table.add _ _ _).get? type
    rw [Table.get?_add, if_neg differs]
  | unregistered _ id =>
    cases concerns
    refine ⟨?_, ?_⟩
    · rw [r.unregister_table _ id, Table.get?_remove, if_neg differs]
    · unfold Registry.unregister
      split <;> rfl
  | cleared => cases concerns
  | called _ => exact .refl type r
  | asked _ _ => exact .refl type r
  | began _ _ => exact .refl type r
  | resolved _ _ => exact .refl type r
  | unsupported _ _ _ => exact .refl type r

theorem Chronicle.alike {r next : Registry} {journal : Journal} {type other : ValueType}
    (chronicle : Chronicle r journal next) (within : journal.Within other)
    (differs : other ≠ type) : r.Alike type next := by
  induction chronicle with
  | nil r => exact .refl type r
  | cons happens _ ih =>
    obtain ⟨first, rest⟩ := Journal.within_cons.mp within
    exact (happens.alike first differs).trans (ih rest)

theorem Outcome.Alike.matches {α : Type} {type : ValueType} {o p : Outcome α}
    (alike : o.Alike type p) : o.Matches (Registry.Alike type) p :=
  ⟨alike.value, alike.journal, alike.after⟩

/-- A way to look up for which, as long as only one type is concerned, no other type counts. -/
def Lookup.Local (type : ValueType) (lookup : Lookup) : Prop :=
  ∀ ⦃asked value id r s outcome⦄, lookup asked value id r = some outcome →
    outcome.journal.Within type → r.Alike type s →
    ∃ other, lookup asked value id s = some other ∧ outcome.Alike type other

/-- Requests for one type do not tell apart what is alike for this type. -/
theorem Registry.alike_simulation (type : ValueType) :
    Simulation (Registry.Alike type) fun act => act.type? = some type where
  held alike concerns := by
    cases concerns
    exact alike.held _
  query alike all := by
    cases (Journal.all_cons.mp all).1
    exact (alike.query _).matches
  register alike all := by
    have takes := Option.some.inj (Journal.all_cons.mp all).1
    exact (alike.register _ _ takes).matches
  unregister alike all := by
    rw [unregister_journal] at all
    cases (Journal.all_cons.mp all).1
    exact (alike.unregister _).matches
  clear alike all := by cases (Journal.all_cons.mp all).1
  keep alike all := by
    cases (Journal.all_cons.mp all).1
    exact (alike.keep _ _).matches

/-- A lookup that concerns one type only depends on nothing else. -/
theorem resolve_local (type : ValueType) (bound : Nat) : (resolve bound).Local type := by
  intro asked value id r s outcome done within alike
  have simulated := resolve_simulated (Registry.alike_simulation type) bound
  obtain ⟨other, again, same⟩ := simulated done within alike
  exact ⟨other, again, same.value, same.journal, same.after⟩

namespace Session

/-- The outcomes of the steps for a type. -/
def outcomesFor (type : ValueType) (steps : List Step) (outcomes : List (Outcome Reply)) :
    List (Outcome Reply) :=
  ((steps.zip outcomes).filter (·.1.type? = some type)).map Prod.snd

section Steps

variable {bound : Nat} {r s : Registry} {action : Step} {outcome : Outcome Reply}
  {type : ValueType}

theorem step_local (done : step bound r action = some outcome)
    (within : outcome.journal.Within type) (alike : r.Alike type s) :
    ∃ other, step bound s action = some other ∧ outcome.Alike type other := by
  obtain ⟨other, again, same⟩ := step_simulated (Registry.alike_simulation type) done within alike
  exact ⟨other, again, same.value, same.journal, same.after⟩

theorem step_alike {other : ValueType} (done : step bound r action = some outcome)
    (within : outcome.journal.Within other) (differs : other ≠ type) :
    r.Alike type outcome.after :=
  (step_told done).alike within differs

end Steps

theorem run_local {bound : Nat} {type : ValueType} {steps : List Step} {r s : Registry}
    {outcomes : List (Outcome Reply)} (done : run bound r steps = some outcomes)
    (own : OwnTypes steps outcomes) (alike : r.Alike type s) :
    ∃ others, run bound s (steps.filter (·.type? = some type)) = some others ∧
      List.Forall₂ (Outcome.Alike type) (outcomesFor type steps outcomes) others := by
  induction steps generalizing r s outcomes with
  | nil =>
    cases done
    exact ⟨[], rfl, .nil⟩
  | cons action rest ih =>
    obtain ⟨first, begun, remaining, ran, rfl⟩ := run_cons_eq_some.mp done
    obtain ⟨⟨kind, isFor, within⟩, ownRest⟩ := List.forall₂_cons.mp own
    by_cases mine : kind = type
    · subst mine
      obtain ⟨second, again, same⟩ := step_local begun within alike
      obtain ⟨others, further, alike⟩ := ih ran ownRest same.after
      refine ⟨second :: others, ?_, ?_⟩
      · rw [List.filter_cons_of_pos (by simpa using isFor)]
        exact run_cons_eq_some.mpr ⟨second, again, others, further, rfl⟩
      · rw [outcomesFor, List.zip_cons_cons, List.filter_cons_of_pos (by simpa using isFor)]
        exact .cons same alike
    · -- Only the longer run takes this step, so the registries must stay alike across it.
      have frame : first.after.Alike type s := (step_alike begun within mine).symm.trans alike
      have passed : ¬ action.type? = some type := by
        rw [isFor]
        exact fun same => mine (Option.some.inj same)
      obtain ⟨others, further, alike⟩ := ih ran ownRest frame
      refine ⟨others, ?_, ?_⟩
      · rw [List.filter_cons_of_neg (by simpa using passed)]
        exact further
      · rw [outcomesFor, List.zip_cons_cons, List.filter_cons_of_neg (by simpa using passed)]
        exact alike

theorem map_eq_of_alike {β : Type} {type : ValueType} {outcomes others : List (Outcome Reply)}
    (seen : Outcome Reply → β) (same : ∀ {o p}, o.Alike type p → seen p = seen o)
    (alike : List.Forall₂ (Outcome.Alike type) outcomes others) :
    others.map seen = outcomes.map seen := by
  induction alike with
  | nil => rfl
  | cons first _ ih => rw [List.map_cons, List.map_cons, same first, ih]

/-- In a run in which nothing is cleared and every provider keeps to the type of its values, the
steps for one value type can be taken without the others: they answer the same, call the same
providers and tell the log the same. -/
theorem types_do_not_interfere {bound : Nat} {r : Registry} {steps : List Step}
    {outcomes : List (Outcome Reply)} (done : run bound r steps = some outcomes)
    (own : OwnTypes steps outcomes) (type : ValueType) :
    ∃ others, run bound r (steps.filter (·.type? = some type)) = some others ∧
      others.map Outcome.value = (outcomesFor type steps outcomes).map Outcome.value ∧
      others.map (·.journal.calls) = (outcomesFor type steps outcomes).map (·.journal.calls) ∧
      others.map (·.journal.events) = (outcomesFor type steps outcomes).map (·.journal.events) := by
  obtain ⟨others, ran, alike⟩ := run_local done own (.refl type r)
  refine ⟨others, ran, ?_, ?_, ?_⟩
  · exact map_eq_of_alike _ (fun same => same.value.symm) alike
  · exact map_eq_of_alike _ (fun same => congrArg Journal.calls same.journal.symm) alike
  · exact map_eq_of_alike _ (fun same => congrArg Journal.events same.journal.symm) alike

/-- Counts how often it is asked for an integer. -/
def tally : Provider := (Rule.mk "tally" .always .counter).provider .integer

/-- Removes the providers for texts under the id that it shares with `tally`. -/
def sweeper : Provider := (Rule.mk "sweeper" .always (.unregister "view")).provider .text

/-- Between two lookups for an integer a provider for texts removes the providers under the same
id, itself included. -/
def crossing : List Step :=
  [.register "view" sweeper, .register "view" tally, .resolve (.integer 5) "view",
   .resolve (.text "x") "view", .resolve (.integer 6) "view", .unregister .integer "view"]

theorem crossing_confined : ∀ action ∈ crossing, action.Confined := by
  have first : sweeper.Confined := Rule.provider_confined rfl .text
  have second : tally.Confined := Rule.provider_confined rfl .integer
  simp [crossing, Step.Confined, first, second]

theorem types_do_not_interfere_crossing :
    ∃ outcomes, run 1 ∅ crossing = some outcomes ∧ OwnTypes crossing outcomes ∧
      ∃ others,
        run 1 ∅ [.register "view" tally, .resolve (.integer 5) "view",
          .resolve (.integer 6) "view", .unregister .integer "view"] = some others ∧
        others.map Outcome.value = (outcomesFor .integer crossing outcomes).map Outcome.value ∧
        others.map (·.journal.calls) = [[], ["tally"], ["tally"], []] ∧
        others.map (·.journal.events) =
          (outcomesFor .integer crossing outcomes).map (·.journal.events) := by
  obtain ⟨outcomes, ran, calls⟩ : ∃ outcomes, run 1 ∅ crossing = some outcomes ∧
      (outcomesFor .integer crossing outcomes).map (·.journal.calls) =
        [[], ["tally"], ["tally"], []] := ⟨_, rfl, rfl⟩
  have own : OwnTypes crossing outcomes := run_ownTypes ran crossing_confined .empty
  obtain ⟨others, again, values, sameCalls, events⟩ := types_do_not_interfere ran own .integer
  exact ⟨outcomes, ran, own, others, again, values, sameCalls.trans calls, events⟩

end Session
end Diagnostics.Capability
